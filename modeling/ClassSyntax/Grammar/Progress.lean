import ClassSyntax.Grammar.Meaning

/-!
# Progress

Every reading ends. Two facts about the rules, checked once for each rule, carry the argument: a rule
is entered again only after a token was taken or through a rule of lower rank
(`Rule.body_leftBelow`), and every repeated phrase takes a token (`Rule.body_progressive`). The
measure is the number of tokens left, then the rank, then the size of the phrase.

* `Reads.start_lt_stop`: a phrase that must take a token does so when it is read well.
* `Reads.total`: every phrase whose loops take tokens has a reading from every position.
-/

namespace ClassSyntax

namespace Outcome

@[simp] theorem stop_ok (stop : Nat) (outline : Outline) : (ok stop outline).stop = stop := rfl

@[simp] theorem stop_fail (failure : Failure) : (fail failure).stop = failure.position := rfl

@[simp] theorem stop_after (before : Outline) (outcome : Outcome) :
    (outcome.after before).stop = outcome.stop := by cases outcome <;> rfl

@[simp] theorem stop_close (name : Token) (outcome : Outcome) :
    (outcome.close name).stop = outcome.stop := by cases outcome <;> rfl

@[simp] theorem succeeds_after (before : Outline) (outcome : Outcome) :
    (outcome.after before).succeeds = outcome.succeeds := by cases outcome <;> rfl

@[simp] theorem succeeds_close (name : Token) (outcome : Outcome) :
    (outcome.close name).succeeds = outcome.succeeds := by cases outcome <;> rfl

end Outcome

namespace Rule

/-- The rule takes at least one token when it is read well. -/
def consumes : Rule → Bool
  | program | modifiers | arraySuffix | callChain => false
  | _ => true

/-- A rule is higher than the rules that it may enter before it has taken a token. -/
def rank : Rule → Nat
  | typeName | constructor | classDecl | target | callChain => 1
  | returnType | declarators _ | param | program | simpleStmt | primaryExpr => 2
  | attributeDecl | method | unknownMember | varDecl | unaryExpr => 3
  | member | varDeclStmt => 4
  | binaryExpr level => 4 + level.depth
  | expr => 10
  | trialStmt => 11
  | stmt => 12
  | _ => 0

end Rule

namespace Phrase

/-- The phrase takes at least one token when it is read well. -/
def consumes : Phrase → Bool
  | done | whileNext _ _ | countEntry => false
  | expect _ _ | expectOwnName | fail _ | inClass _ => true
  | rule called => called.consumes
  | seq first second => first.consumes || second.consumes
  | ifNext _ yes no | ifAhead _ yes no => yes.consumes && no.consumes
  | orElse first second => first.consumes && second.consumes

/-- Only rules below this rank are entered before a token was taken. -/
def leftBelow (bound : Nat) : Phrase → Bool
  | done | countEntry | expect _ _ | expectOwnName | fail _ | inClass _ => true
  | rule called => called.rank < bound
  | seq first second => first.leftBelow bound && (first.consumes || second.leftBelow bound)
  | ifNext _ yes no => yes.leftBelow bound && no.leftBelow bound
  | whileNext _ body => body.leftBelow bound
  | orElse first second => first.leftBelow bound && second.leftBelow bound
  | ifAhead trial yes no => trial.leftBelow bound && yes.leftBelow bound && no.leftBelow bound

/-- Every loop of the phrase takes a token each time around. -/
def progressive : Phrase → Bool
  | done | countEntry | expect _ _ | expectOwnName | fail _ | rule _ => true
  | seq first second | orElse first second => first.progressive && second.progressive
  | ifNext _ yes no => yes.progressive && no.progressive
  | whileNext _ body => body.consumes && body.progressive
  | ifAhead trial yes no => trial.progressive && yes.progressive && no.progressive
  | inClass body => body.progressive

end Phrase

namespace Rule

theorem body_consumes {rule : Rule} (taking : rule.consumes = true) :
    rule.body.consumes = true := by
  cases rule with
  | binaryExpr level => cases level <;> rfl
  | _ => first | rfl | exact absurd taking (by decide)

theorem body_leftBelow (rule : Rule) : rule.body.leftBelow rule.rank = true := by
  cases rule with
  | binaryExpr level => cases level <;> rfl
  | _ => rfl

theorem body_progressive (rule : Rule) : rule.body.progressive = true := by
  cases rule with
  | binaryExpr level => cases level <;> rfl
  | _ => rfl

theorem rank_lt (rule : Rule) : rule.rank < 13 := by
  cases rule with
  | binaryExpr level => cases level <;> decide
  | _ => simp [rank]

end Rule

theorem Phrase.leftBelow_of_ranks (phrase : Phrase) : phrase.leftBelow 13 = true := by
  induction phrase with
  | rule rule => simpa [Phrase.leftBelow] using rule.rank_lt
  | _ => simp_all [Phrase.leftBelow]

namespace Reads

variable {stream : TokenStream} {own : String} {phrase : Phrase} {start : Nat} {outcome : Outcome}
  {log : List Failure}

/-- A reading never goes back behind its start. -/
theorem start_le_stop (read : Reads stream own phrase start outcome log) :
    start ≤ outcome.stop := by
  induction read with
  | seqOk _ _ ihFirst ihSecond =>
      simp only [Outcome.stop_ok, Outcome.stop_after] at ihFirst ihSecond ⊢
      omega
  | whileMore _ _ _ ihBody ihRest =>
      simp only [Outcome.stop_ok, Outcome.stop_after] at ihBody ihRest ⊢
      omega
  | classFound _ _ ih => simp only [Outcome.stop_close]; omega
  | _ => simp_all

/-- A reading never goes past the end of the input. -/
theorem stop_le (read : Reads stream own phrase start outcome log) :
    outcome.stop ≤ max start stream.size := by
  induction read with
  | expectFound found =>
      have := TokenStream.lt_size_of_allow found
      simp only [Outcome.stop_ok]
      omega
  | ownFound found =>
      have := TokenStream.lt_size_of_admits found
      simp only [Outcome.stop_ok]
      omega
  | seqOk _ _ ihFirst ihSecond =>
      simp only [Outcome.stop_ok, Outcome.stop_after] at ihFirst ihSecond ⊢
      omega
  | whileMore _ _ _ ihBody ihRest =>
      simp only [Outcome.stop_ok, Outcome.stop_after] at ihBody ihRest ⊢
      omega
  | classFound found _ ih =>
      have := TokenStream.lt_size_of_admits found
      simp only [Outcome.stop_close]
      omega
  | _ => simp_all only [Outcome.stop_ok, Outcome.stop_fail] <;> omega

/-- A phrase that must take a token does so when it is read well. -/
theorem start_lt_stop (read : Reads stream own phrase start outcome log)
    (well : outcome.succeeds = true) (taking : phrase.consumes = true) :
    start < outcome.stop := by
  induction read with
  | rule _ ih => exact ih well (Rule.body_consumes taking)
  | seqOk first second ihFirst ihSecond =>
      have behind := start_le_stop first
      have ahead := start_le_stop second
      simp only [Outcome.succeeds_after, Outcome.stop_after] at well ⊢
      simp only [Phrase.consumes, Bool.or_eq_true] at taking
      cases taking with
      | inl taking =>
          have := ihFirst rfl taking
          simp only [Outcome.stop_ok] at this
          omega
      | inr taking =>
          have := ihSecond well taking
          simp only [Outcome.stop_ok] at behind
          omega
  | classFound _ body _ =>
      have := start_le_stop body
      simp only [Outcome.stop_close]
      omega
  | _ => simp_all [Phrase.consumes, Outcome.succeeds]

end Reads

/-! ## Every reading ends -/

namespace Phrase

/-- The phrase has a reading from here, whatever class encloses it. -/
def Readable (stream : TokenStream) (phrase : Phrase) (start : Nat) : Prop :=
  ∀ own, ∃ outcome log, Reads stream own phrase start outcome log

/-- Every progressive phrase is readable from every later position of the stream. -/
def ReadableAfter (stream : TokenStream) (start : Nat) : Prop :=
  ∀ later, start < later → later ≤ stream.size → ∀ phrase : Phrase,
    phrase.progressive = true → phrase.Readable stream later

theorem readable_step {stream : TokenStream} {start bound : Nat}
    (after : ReadableAfter stream start)
    (rules : ∀ rule : Rule, rule.rank < bound → (Phrase.rule rule).Readable stream start)
    (phrase : Phrase) (progressive : phrase.progressive = true)
    (below : phrase.leftBelow bound = true) : phrase.Readable stream start := by
  induction phrase with
  | done => exact fun _ => ⟨_, _, .done⟩
  | countEntry => exact fun _ => ⟨_, _, .countEntry⟩
  | fail label => exact fun _ => ⟨_, _, .fail⟩
  | expect choices label =>
      intro own
      cases found : choices.allow (stream.get start) with
      | true => exact ⟨_, _, .expectFound found⟩
      | false => exact ⟨_, _, .expectMissing found⟩
  | expectOwnName =>
      intro own
      cases found : (Terminal.named own).admits (stream.get start) with
      | true => exact ⟨_, _, .ownFound found⟩
      | false => exact ⟨_, _, .ownMissing found⟩
  | rule called =>
      exact rules called (by simpa [leftBelow] using below)
  | seq first second ihFirst ihSecond =>
      simp only [Phrase.progressive, leftBelow, Bool.and_eq_true, Bool.or_eq_true]
        at progressive below
      intro own
      obtain ⟨outcome, log, read⟩ := ihFirst progressive.1 below.1 own
      cases outcome with
      | fail failure => exact ⟨_, _, .seqFail read⟩
      | ok middle outline =>
          have secondReadable : second.Readable stream middle := by
            have notBehind := read.start_le_stop
            have inside := read.stop_le
            simp only [Outcome.stop_ok] at notBehind inside
            by_cases moved : start < middle
            · exact after middle moved (by omega) second progressive.2
            · have same : middle = start := by omega
              cases below.2 with
              | inl taking =>
                  have := read.start_lt_stop rfl taking
                  simp only [Outcome.stop_ok] at this
                  omega
              | inr below => exact same ▸ ihSecond progressive.2 below
          obtain ⟨_, _, rest⟩ := secondReadable own
          exact ⟨_, _, .seqOk read rest⟩
  | ifNext ahead yes no ihYes ihNo =>
      simp only [Phrase.progressive, leftBelow, Bool.and_eq_true] at progressive below
      intro own
      cases next : stream.startsWith ahead start with
      | true =>
          obtain ⟨_, _, read⟩ := ihYes progressive.1 below.1 own
          exact ⟨_, _, .ifNextYes next read⟩
      | false =>
          obtain ⟨_, _, read⟩ := ihNo progressive.2 below.2 own
          exact ⟨_, _, .ifNextNo next read⟩
  | whileNext ahead body ih =>
      have looping := progressive
      simp only [Phrase.progressive, leftBelow, Bool.and_eq_true] at progressive below
      intro own
      cases next : stream.startsWith ahead start with
      | false => exact ⟨_, _, .whileStop next⟩
      | true =>
          obtain ⟨outcome, log, read⟩ := ih progressive.2 below own
          cases outcome with
          | fail failure => exact ⟨_, _, .whileFail next read⟩
          | ok middle outline =>
              have moved := read.start_lt_stop rfl progressive.1
              have inside := read.stop_le
              simp only [Outcome.stop_ok] at moved inside
              obtain ⟨_, _, rest⟩ := after middle moved (by omega) _ looping own
              exact ⟨_, _, .whileMore next read rest⟩
  | orElse first second ihFirst ihSecond =>
      simp only [Phrase.progressive, leftBelow, Bool.and_eq_true] at progressive below
      intro own
      obtain ⟨outcome, log, read⟩ := ihFirst progressive.1 below.1 own
      cases outcome with
      | ok stop outline => exact ⟨_, _, .orElseFirst read⟩
      | fail failure =>
          obtain ⟨_, _, rest⟩ := ihSecond progressive.2 below.2 own
          exact ⟨_, _, .orElseSecond read rest⟩
  | ifAhead trial yes no ihTrial ihYes ihNo =>
      simp only [Phrase.progressive, leftBelow, Bool.and_eq_true] at progressive below
      intro own
      obtain ⟨outcome, log, read⟩ := ihTrial progressive.1.1 below.1.1 own
      cases outcome with
      | ok stop outline =>
          obtain ⟨_, _, rest⟩ := ihYes progressive.1.2 below.1.2 own
          exact ⟨_, _, .ifAheadYes read rest⟩
      | fail failure =>
          obtain ⟨_, _, rest⟩ := ihNo progressive.2 below.2 own
          exact ⟨_, _, .ifAheadNo read rest⟩
  | inClass body _ =>
      simp only [Phrase.progressive] at progressive
      intro own
      cases found : Terminal.identifier.admits (stream.get start) with
      | false => exact ⟨_, _, .classMissing found⟩
      | true =>
          have inside := TokenStream.lt_size_of_admits found
          obtain ⟨_, _, read⟩ := after (start + 1) (by omega) (by omega) body progressive
            (stream.get start).lexeme
          exact ⟨_, _, .classFound found read⟩

theorem rule_readable {stream : TokenStream} {start : Nat} (after : ReadableAfter stream start)
    (bound : Nat) : ∀ rule : Rule, rule.rank < bound → (Phrase.rule rule).Readable stream start := by
  induction bound with
  | zero => exact fun rule below => absurd below (Nat.not_lt_zero _)
  | succ bound ih =>
      intro rule below own
      have lower : ∀ other : Rule, other.rank < rule.rank →
          (Phrase.rule other).Readable stream start :=
        fun other lower => ih other (by omega)
      obtain ⟨_, _, read⟩ := readable_step after lower rule.body rule.body_progressive
        rule.body_leftBelow own
      exact ⟨_, _, .rule read⟩

theorem readableAfter (stream : TokenStream) (start : Nat) : ReadableAfter stream start := by
  intro later moved inside phrase progressive
  have after := readableAfter stream later
  exact readable_step after (rule_readable after 13) phrase progressive phrase.leftBelow_of_ranks
termination_by stream.size - start
decreasing_by omega

end Phrase

/-- A phrase whose loops all take tokens has a reading from every position. -/
theorem Reads.total (stream : TokenStream) {phrase : Phrase}
    (progressive : phrase.progressive = true) (start : Nat) : phrase.Readable stream start :=
  have after := Phrase.readableAfter stream start
  Phrase.readable_step after (Phrase.rule_readable after 13) phrase progressive
    phrase.leftBelow_of_ranks

end ClassSyntax

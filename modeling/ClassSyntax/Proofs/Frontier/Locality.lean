import Mathlib.Data.List.Forall2
import ClassSyntax.Proofs.Frontier.MemberTrials

/-!
# Readings depend on what they have passed

A reading that is confined to a bound looks at no token behind the bound, or at one more where a point
stands at the bound. On a stream that has the same tokens up to there, but for their lines, the reading
ends in the same way and misses the same things.

* `startsWith_congr`: lookahead is over at the first token that is not looked for.
* `Reads.on_other`: a reading on a stream that agrees up to the bound.
-/

namespace ClassSyntax

/-- The same token, but for its line. -/
def Token.Alike (one other : Token) : Prop := one.kind = other.kind ∧ one.lexeme = other.lexeme

instance (one other : Token) : Decidable (one.Alike other) :=
  inferInstanceAs (Decidable (_ ∧ _))

/-- The other stream has the same tokens up to the bound, and another one when a point stands there. -/
structure AgreesTo (stream other : TokenStream) (bound : Nat) : Prop where
  upTo : ∀ place ≤ bound, (other.get place).Alike (stream.get place)
  behindPoint : (stream.get bound).is .punctuation "." = true →
    (other.get (bound + 1)).Alike (stream.get (bound + 1))

/-- The same class, but for the line of its name. -/
structure ClassHeader.Alike (one other : ClassHeader) : Prop where
  name : one.name.Alike other.name
  entryMethods : one.entryMethods = other.entryMethods

/-- The same classes, but for the lines of their names. -/
structure Outline.Alike (one other : Outline) : Prop where
  classes : List.Forall₂ ClassHeader.Alike one.classes other.classes
  entryMethods : one.entryMethods = other.entryMethods

/-- Both readings end in the same place and read the same, but for lines; or they fail alike. -/
inductive Outcome.Alike : Outcome → Outcome → Prop
  | ok {stop : Nat} {one other : Outline} : one.Alike other → Alike (.ok stop one) (.ok stop other)
  | fail {failure : Failure} : Alike (.fail failure) (.fail failure)

/-- How a reading ended, without the outline of what was read. -/
def Outcome.ending : Outcome → Except Failure Nat
  | ok stop _ => .ok stop
  | fail failure => .error failure

theorem Outcome.ending_eq_error {outcome : Outcome} {failure : Failure} :
    outcome.ending = .error failure ↔ outcome = .fail failure := by
  cases outcome <;> simp [ending]

/-! ## Outcomes that are alike -/

section

variable {one other : Outline} {again outcome : Outcome}

theorem Outline.Alike.refl_of_unnamed {outline : Outline} (unnamed : outline.classes = []) :
    outline.Alike outline :=
  ⟨by rw [unnamed]; exact .nil, rfl⟩

theorem Outline.Alike.append {left right : Outline} (first : one.Alike other)
    (second : left.Alike right) : (one ++ left).Alike (other ++ right) :=
  ⟨List.rel_append first.classes second.classes,
    congrArg₂ (· + ·) first.entryMethods second.entryMethods⟩

theorem Outline.Alike.close (alike : one.Alike other) {left right : Token}
    (named : left.Alike right) : (one.close left).Alike (other.close right) :=
  ⟨List.rel_append alike.classes (.cons ⟨named, alike.entryMethods⟩ .nil), rfl⟩

namespace Outcome.Alike

theorem after (alike : again.Alike outcome) (before : one.Alike other) :
    (again.after one).Alike (outcome.after other) := by
  cases alike with
  | ok behind => exact .ok (before.append behind)
  | fail => exact .fail

theorem close (alike : again.Alike outcome) {left right : Token} (named : left.Alike right) :
    (again.close left).Alike (outcome.close right) := by
  cases alike with
  | ok body => exact .ok (body.close named)
  | fail => exact .fail

theorem ending (alike : again.Alike outcome) : again.ending = outcome.ending := by
  cases alike <;> rfl

theorem succeeds (alike : again.Alike outcome) : again.succeeds = outcome.succeeds := by
  cases alike <;> rfl

end Outcome.Alike

end

/-! ## Tokens that are alike -/

namespace Token.Alike

variable {one other : Token}

theorem isEnd (alike : one.Alike other) : one.isEnd = other.isEnd := by
  rw [Token.isEnd, alike.1, Token.isEnd]

theorem admits (alike : one.Alike other) (terminal : Terminal) :
    terminal.admits one = terminal.admits other := by
  unfold Terminal.admits Token.is
  rw [alike.isEnd, alike.1, alike.2]

theorem allow (alike : one.Alike other) (choices : Terminals) :
    choices.allow one = choices.allow other := by
  unfold Terminals.allow
  simp only [alike.admits]

theorem found (alike : one.Alike other) : Found.ofToken one = Found.ofToken other := by
  unfold Found.ofToken
  rw [alike.isEnd, alike.2]

end Token.Alike

section

variable {stream other : TokenStream} {start bound : Nat}

/-- Lookahead is over at the first token that is not looked for. -/
theorem startsWith_congr {ahead : List Terminals}
    (seen : ∀ k, k < ahead.length → stream.startsWith (ahead.take k) start = true →
      (other.get (start + k)).Alike (stream.get (start + k))) :
    other.startsWith ahead start = stream.startsWith ahead start := by
  induction ahead generalizing start with
  | nil => rfl
  | cons choices more ih =>
      have alike : (other.get start).Alike (stream.get start) := seen 0 (Nat.succ_pos _) rfl
      unfold TokenStream.startsWith
      rw [alike.allow choices]
      cases first : choices.allow (stream.get start) with
      | false => rfl
      | true =>
          refine congrArg (true && ·) (ih fun k short before => ?_)
          have next := seen (k + 1) (Nat.succ_lt_succ short)
          rw [List.take_succ_cons, TokenStream.startsWith, first, before] at next
          rw [Nat.add_assoc, Nat.add_comm 1]
          exact next rfl

namespace AgreesTo

theorem behind (agrees : AgreesTo stream other bound) {place : Nat} (inside : place ≤ bound)
    (point : (stream.get place).is .punctuation "." = true) :
    (other.get (place + 1)).Alike (stream.get (place + 1)) := by
  rcases Nat.eq_or_lt_of_le inside with rfl | before
  · exact agrees.behindPoint point
  · exact agrees.upTo (place + 1) before

theorem startsWith_singleton (agrees : AgreesTo stream other bound) (inside : start ≤ bound)
    (choices : Terminals) :
    other.startsWith [choices] start = stream.startsWith [choices] start := by
  refine startsWith_congr fun k short _ => ?_
  obtain rfl : k = 0 := Nat.lt_one_iff.mp short
  exact agrees.upTo start inside

/-- A second token is only looked at behind a point. -/
theorem startsWith_dotted (agrees : AgreesTo stream other bound) (inside : start ≤ bound)
    (choices : Terminals) :
    other.startsWith [[.mark "."], choices] start =
      stream.startsWith [[.mark "."], choices] start := by
  refine startsWith_congr fun k short before => ?_
  match k, short with
  | 0, _ => exact agrees.upTo start inside
  | 1, _ =>
      refine agrees.behind inside ?_
      obtain ⟨point, -⟩ := Bool.and_eq_true_iff.mp before
      rw [Terminals.allow_singleton] at point
      exact (Bool.and_eq_true_iff.mp point).2

end AgreesTo

end

/-! ## Readings on another stream -/

namespace Phrase

/-- More than one token is only looked at behind a point and in front of a member, and there are no
trials but those of members. -/
def looksNear : Phrase → Bool
  | seq first second | orElse first second => first.looksNear && second.looksNear
  | ifNext ahead yes no =>
      yes.looksNear && no.looksNear &&
        (ahead.length == 1 || decide (ifNext ahead yes no = Rule.member.body))
  | whileNext ahead body =>
      body.looksNear && (ahead.length == 1 || decide (ahead = [[.mark "."], [.identifier]]))
  | ifAhead trial yes no =>
      trial.looksNear && yes.looksNear && no.looksNear &&
        decide ((trial, yes, no) ∈ memberTrials)
  | inClass body => body.looksNear
  | _ => true

end Phrase

theorem Rule.body_looksNear (rule : Rule) : rule.body.looksNear = true := by
  cases rule with
  | declarators role | declarator role => rfl
  | binaryExpr level => cases level <;> decide
  | _ => decide

section

variable {stream other : TokenStream} {own : String} {start bound : Nat}

theorem AgreesTo.startsWith_loop (agrees : AgreesTo stream other bound) (inside : start ≤ bound)
    {ahead : List Terminals}
    (near : (ahead.length == 1 || decide (ahead = [[.mark "."], [.identifier]])) = true) :
    other.startsWith ahead start = stream.startsWith ahead start := by
  simp only [Bool.or_eq_true, beq_iff_eq, decide_eq_true_eq] at near
  rcases near with one | rfl
  · obtain ⟨choices, rfl⟩ := List.length_eq_one_iff.mp one
    exact agrees.startsWith_singleton inside choices
  · exact agrees.startsWith_dotted inside [.identifier]

theorem AgreesTo.startsWith_choice (agrees : AgreesTo stream other bound) {ahead : List Terminals}
    {yes no : Phrase}
    (near : (ahead.length == 1 || decide (Phrase.ifNext ahead yes no = Rule.member.body)) = true)
    (stays : Stays stream own (.ifNext ahead yes no) start bound) :
    other.startsWith ahead start = stream.startsWith ahead start := by
  simp only [Bool.or_eq_true, beq_iff_eq, decide_eq_true_eq] at near
  rcases near with one | same
  · obtain ⟨choices, rfl⟩ := List.length_eq_one_iff.mp one
    exact agrees.startsWith_singleton stays.start_le choices
  · rw [same] at stays
    obtain ⟨rfl, -⟩ := Phrase.ifNext.inj same
    exact startsWith_congr fun k short before =>
      agrees.upTo _ (entryHeader_seen short before stays)

/-- On a stream that agrees up to the bound, a reading that is confined to it ends alike and misses the
same things. -/
theorem Reads.alike_on_other {phrase : Phrase} {outcome : Outcome} {log : List Failure}
    (read : Reads stream own phrase start outcome log) (near : phrase.looksNear = true)
    (agrees : AgreesTo stream other bound) (confined : Confined bound outcome log) :
    ∃ again, Reads other own phrase start again log ∧ again.Alike outcome := by
  have inside : start ≤ bound := Nat.le_trans read.start_le_stop confined.stop
  have unnamed : ∀ {outline : Outline}, outline.classes = [] → outline.Alike outline :=
    Outline.Alike.refl_of_unnamed
  induction read with
  | done => exact ⟨_, .done, .ok (unnamed rfl)⟩
  | countEntry => exact ⟨_, .countEntry, .ok (unnamed rfl)⟩
  | fail => exact ⟨_, .fail, .fail⟩
  | expectFound found =>
      rw [← (agrees.upTo _ inside).allow] at found
      exact ⟨_, .expectFound found, .ok (unnamed rfl)⟩
  | expectMissing missing =>
      rw [← (agrees.upTo _ inside).allow] at missing
      exact ⟨_, .expectMissing missing, .fail⟩
  | ownFound found =>
      rw [← (agrees.upTo _ inside).admits] at found
      exact ⟨_, .ownFound found, .ok (unnamed rfl)⟩
  | ownMissing missing =>
      rw [← (agrees.upTo _ inside).admits] at missing
      exact ⟨_, .ownMissing missing, .fail⟩
  | rule _ ih =>
      obtain ⟨again, body, same⟩ := ih (Rule.body_looksNear _) confined inside
      exact ⟨again, .rule body, same⟩
  | seqOk one two ihFirst ihSecond =>
      simp only [Phrase.looksNear, Bool.and_eq_true] at near
      rw [confined_append, confined_after] at confined
      have middle := Nat.le_trans two.start_le_stop confined.2.stop
      obtain ⟨_, first, ⟨front⟩⟩ := ihFirst near.1 ⟨middle, confined.1⟩ inside
      obtain ⟨last, second, same⟩ := ihSecond near.2 confined.2 middle
      exact ⟨_, .seqOk first second, same.after front⟩
  | seqFail _ ih =>
      simp only [Phrase.looksNear, Bool.and_eq_true] at near
      obtain ⟨_, first, ⟨⟩⟩ := ih near.1 confined inside
      exact ⟨_, .seqFail first, .fail⟩
  | @ifNextYes own ahead yes no start _ _ next read ih =>
      have stays : Stays stream own (.ifNext ahead yes no) start bound :=
        ⟨_, _, .ifNextYes next read, confined⟩
      simp only [Phrase.looksNear, Bool.and_eq_true] at near
      obtain ⟨again, body, same⟩ := ih near.1.1 confined inside
      exact ⟨again, .ifNextYes ((agrees.startsWith_choice near.2 stays).trans next) body, same⟩
  | @ifNextNo own ahead yes no start _ _ next read ih =>
      have stays : Stays stream own (.ifNext ahead yes no) start bound :=
        ⟨_, _, .ifNextNo next read, confined⟩
      simp only [Phrase.looksNear, Bool.and_eq_true] at near
      obtain ⟨again, body, same⟩ := ih near.1.2 confined inside
      exact ⟨again, .ifNextNo ((agrees.startsWith_choice near.2 stays).trans next) body, same⟩
  | whileStop next =>
      simp only [Phrase.looksNear, Bool.and_eq_true] at near
      exact ⟨_, .whileStop ((agrees.startsWith_loop inside near.2).trans next), .ok (unnamed rfl)⟩
  | whileMore next one rest ihBody ihRest =>
      rw [confined_append, confined_after] at confined
      have middle := Nat.le_trans rest.start_le_stop confined.2.stop
      obtain ⟨last, more, same⟩ := ihRest near confined.2 middle
      simp only [Phrase.looksNear, Bool.and_eq_true] at near
      obtain ⟨_, body, ⟨round⟩⟩ := ihBody near.1 ⟨middle, confined.1⟩ inside
      exact ⟨_, .whileMore ((agrees.startsWith_loop inside near.2).trans next) body more,
        same.after round⟩
  | whileFail next _ ih =>
      simp only [Phrase.looksNear, Bool.and_eq_true] at near
      obtain ⟨_, body, ⟨⟩⟩ := ih near.1 confined inside
      exact ⟨_, .whileFail ((agrees.startsWith_loop inside near.2).trans next) body, .fail⟩
  | orElseFirst _ ih =>
      simp only [Phrase.looksNear, Bool.and_eq_true] at near
      obtain ⟨_, first, ⟨same⟩⟩ := ih near.1 confined inside
      exact ⟨_, .orElseFirst first, .ok same⟩
  | orElseSecond one _ ihFirst ihSecond =>
      simp only [Phrase.looksNear, Bool.and_eq_true] at near
      rw [confined_append] at confined
      have stopped := confined.1 _ (one.failure_mem rfl)
      obtain ⟨_, first, ⟨⟩⟩ := ihFirst near.1 ⟨stopped, confined.1⟩ inside
      obtain ⟨last, second, same⟩ := ihSecond near.2 confined.2 inside
      exact ⟨_, .orElseSecond first second, same⟩
  | @ifAheadYes own trial yes no start _ _ _ _ _ tried read ihTrial ih =>
      have stays : Stays stream own (.ifAhead trial yes no) start bound :=
        ⟨_, _, .ifAheadYes tried read, confined⟩
      simp only [Phrase.looksNear, Bool.and_eq_true, decide_eq_true_eq] at near
      obtain ⟨⟨⟨nearTrial, nearYes⟩, -⟩, listed⟩ := near
      obtain ⟨_, attempt, ⟨-⟩⟩ :=
        ihTrial nearTrial (tried.confined (stays_trial listed stays)) inside
      obtain ⟨last, body, same⟩ := ih nearYes confined inside
      exact ⟨_, .ifAheadYes attempt body, same⟩
  | @ifAheadNo own trial yes no start _ _ _ _ tried read ihTrial ih =>
      have stays : Stays stream own (.ifAhead trial yes no) start bound :=
        ⟨_, _, .ifAheadNo tried read, confined⟩
      simp only [Phrase.looksNear, Bool.and_eq_true, decide_eq_true_eq] at near
      obtain ⟨⟨⟨nearTrial, -⟩, nearNo⟩, listed⟩ := near
      obtain ⟨_, attempt, ⟨⟩⟩ :=
        ihTrial nearTrial (tried.confined (stays_trial listed stays)) inside
      obtain ⟨last, body, same⟩ := ih nearNo confined inside
      exact ⟨_, .ifAheadNo attempt body, same⟩
  | classFound found read ih =>
      rw [confined_close] at confined
      have behind := Nat.le_trans read.start_le_stop confined.stop
      have alike := agrees.upTo _ inside
      obtain ⟨again, body, same⟩ := ih near confined behind
      rw [← alike.admits] at found
      rw [← alike.2] at body
      exact ⟨_, .classFound found body, same.close alike⟩
  | classMissing missing =>
      rw [← (agrees.upTo _ inside).admits] at missing
      exact ⟨_, .classMissing missing, .fail⟩

/-- In particular it ends in the same place. -/
theorem Reads.on_other {phrase : Phrase} {outcome : Outcome} {log : List Failure}
    (read : Reads stream own phrase start outcome log) (near : phrase.looksNear = true)
    (agrees : AgreesTo stream other bound) (confined : Confined bound outcome log) :
    ∃ again, Reads other own phrase start again log ∧ again.ending = outcome.ending := by
  obtain ⟨again, reread, alike⟩ := read.alike_on_other near agrees confined
  exact ⟨again, reread, alike.ending⟩

end

end ClassSyntax

import ClassSyntax.Grammar.Machine

/-!
# Readings that end well

`Accepts` and `Refuses` say of a phrase and a position how its reading ends, without the failures
that are met on the way. For each form of phrase there is one equation that says when it is accepted.

* `Accepts.unique`: a phrase is accepted up to one position only.
* `accepts_or_refuses`: a phrase whose loops take tokens is either accepted or refused.
-/

namespace ClassSyntax

/-- The phrase is read well from `start` up to `stop`. -/
def Accepts (stream : TokenStream) (own : String) (phrase : Phrase) (start stop : Nat)
    (outline : Outline) : Prop :=
  ∃ log, Reads stream own phrase start (.ok stop outline) log

/-- The reading of the phrase from `start` ends at a failure. -/
def Refuses (stream : TokenStream) (own : String) (phrase : Phrase) (start : Nat) : Prop :=
  ∃ failure log, Reads stream own phrase start (.fail failure) log

section

variable {stream : TokenStream} {own : String} {start stop : Nat} {outline : Outline}

namespace Accepts

variable {phrase : Phrase}

theorem unique {other : Nat} {another : Outline}
    (first : Accepts stream own phrase start stop outline)
    (second : Accepts stream own phrase start other another) :
    stop = other ∧ outline = another := by
  obtain ⟨_, left⟩ := first
  obtain ⟨_, right⟩ := second
  simpa using (left.unique right).1

theorem start_le_stop (accepted : Accepts stream own phrase start stop outline) :
    start ≤ stop := by
  obtain ⟨_, read⟩ := accepted
  exact read.start_le_stop

theorem start_lt_stop (accepted : Accepts stream own phrase start stop outline)
    (taking : phrase.consumes = true) : start < stop := by
  obtain ⟨_, read⟩ := accepted
  exact read.start_lt_stop rfl taking

theorem not_refuses (accepted : Accepts stream own phrase start stop outline) :
    ¬ Refuses stream own phrase start := by
  obtain ⟨_, read⟩ := accepted
  rintro ⟨failure, _, failed⟩
  exact absurd (read.unique failed).1 (by simp)

end Accepts

/-- A phrase whose loops take tokens is accepted or refused. -/
theorem accepts_or_refuses (stream : TokenStream) (own : String) {phrase : Phrase}
    (progressive : phrase.progressive = true) (start : Nat) :
    (∃ stop outline, Accepts stream own phrase start stop outline) ∨
      Refuses stream own phrase start := by
  obtain ⟨outcome, log, read⟩ := Reads.total stream progressive start own
  cases outcome with
  | ok stop outline => exact .inl ⟨stop, outline, log, read⟩
  | fail failure => exact .inr ⟨failure, log, read⟩

@[simp] theorem Outcome.after_empty (outcome : Outcome) : outcome.after .empty = outcome := by
  cases outcome with
  | ok stop outline => rw [Outcome.after, Outline.empty_append]
  | fail failure => rfl

theorem Outcome.after_after (outcome : Outcome) (first second : Outline) :
    (outcome.after second).after first = outcome.after (first ++ second) := by
  cases outcome with
  | ok stop outline => rw [Outcome.after, Outcome.after, Outcome.after, Outline.append_assoc]
  | fail failure => rfl

theorem Outcome.after_eq_ok {before : Outline} {outcome : Outcome} :
    outcome.after before = .ok stop outline ↔
      ∃ rest, outcome = .ok stop rest ∧ outline = before ++ rest := by
  cases outcome with
  | ok place rest =>
      simp only [Outcome.after, Outcome.ok.injEq]
      constructor
      · rintro ⟨rfl, rfl⟩
        exact ⟨rest, ⟨rfl, rfl⟩, rfl⟩
      · rintro ⟨_, ⟨rfl, rfl⟩, rfl⟩
        exact ⟨rfl, rfl⟩
  | fail failure => simp [Outcome.after]

theorem Outcome.close_eq_ok {name : Token} {outcome : Outcome} :
    outcome.close name = .ok stop outline ↔
      ∃ body, outcome = .ok stop body ∧ outline = body.close name := by
  cases outcome with
  | ok place body =>
      simp only [Outcome.close, Outcome.ok.injEq]
      constructor
      · rintro ⟨rfl, rfl⟩
        exact ⟨body, ⟨rfl, rfl⟩, rfl⟩
      · rintro ⟨_, ⟨rfl, rfl⟩, rfl⟩
        exact ⟨rfl, rfl⟩
  | fail failure => simp [Outcome.close]

/-! ## When phrases are refused -/

theorem refuses_expect {choices : Terminals} {label : String}
    (missing : choices.allow (stream.get start) = false) :
    Refuses stream own (.expect choices label) start :=
  ⟨_, _, .expectMissing missing⟩

theorem refuses_expectOwnName
    (missing : (Terminal.named own).admits (stream.get start) = false) :
    Refuses stream own .expectOwnName start :=
  ⟨_, _, .ownMissing missing⟩

theorem refuses_fail {label : String} : Refuses stream own (.fail label) start := ⟨_, _, .fail⟩

theorem refuses_seq_of_first {first second : Phrase}
    (refused : Refuses stream own first start) : Refuses stream own (.seq first second) start := by
  obtain ⟨_, _, read⟩ := refused
  exact ⟨_, _, .seqFail read⟩

theorem refuses_seq_of_second {first second : Phrase} {middle : Nat}
    (accepted : Accepts stream own first start middle outline)
    (refused : Refuses stream own second middle) : Refuses stream own (.seq first second) start := by
  obtain ⟨_, before⟩ := accepted
  obtain ⟨_, _, after⟩ := refused
  exact ⟨_, _, .seqOk before after⟩

theorem refuses_ifNext_of_other {ahead : List Terminals} {yes no : Phrase}
    (next : stream.startsWith ahead start = false) (refused : Refuses stream own no start) :
    Refuses stream own (.ifNext ahead yes no) start := by
  obtain ⟨_, _, read⟩ := refused
  exact ⟨_, _, .ifNextNo next read⟩

/-! ## When phrases are accepted -/

@[simp] theorem accepts_done :
    Accepts stream own .done start stop outline ↔ stop = start ∧ outline = .empty := by
  constructor
  · rintro ⟨_, read⟩
    cases read
    exact ⟨rfl, rfl⟩
  · rintro ⟨rfl, rfl⟩
    exact ⟨_, .done⟩

@[simp] theorem accepts_countEntry :
    Accepts stream own .countEntry start stop outline ↔ stop = start ∧ outline = .entryMethod := by
  constructor
  · rintro ⟨_, read⟩
    cases read
    exact ⟨rfl, rfl⟩
  · rintro ⟨rfl, rfl⟩
    exact ⟨_, .countEntry⟩

@[simp] theorem not_accepts_fail {label : String} :
    ¬ Accepts stream own (.fail label) start stop outline := by
  rintro ⟨_, read⟩
  cases read

@[simp] theorem accepts_expect {choices : Terminals} {label : String} :
    Accepts stream own (.expect choices label) start stop outline ↔
      choices.allow (stream.get start) = true ∧ stop = start + 1 ∧ outline = .empty := by
  constructor
  · rintro ⟨_, read⟩
    cases read with
    | expectFound found => exact ⟨found, rfl, rfl⟩
  · rintro ⟨found, rfl, rfl⟩
    exact ⟨_, .expectFound found⟩

@[simp] theorem accepts_expectOwnName :
    Accepts stream own .expectOwnName start stop outline ↔
      (Terminal.named own).admits (stream.get start) = true ∧
        stop = start + 1 ∧ outline = .empty := by
  constructor
  · rintro ⟨_, read⟩
    cases read with
    | ownFound found => exact ⟨found, rfl, rfl⟩
  · rintro ⟨found, rfl, rfl⟩
    exact ⟨_, .ownFound found⟩

theorem accepts_rule {rule : Rule} :
    Accepts stream own (.rule rule) start stop outline ↔
      Accepts stream own rule.body start stop outline := by
  constructor
  · rintro ⟨_, read⟩
    cases read with
    | rule body => exact ⟨_, body⟩
  · rintro ⟨_, body⟩
    exact ⟨_, .rule body⟩

theorem refuses_rule {rule : Rule} :
    Refuses stream own (.rule rule) start ↔ Refuses stream own rule.body start := by
  constructor
  · rintro ⟨_, _, read⟩
    cases read with
    | rule body => exact ⟨_, _, body⟩
  · rintro ⟨_, _, body⟩
    exact ⟨_, _, .rule body⟩

theorem accepts_seq {first second : Phrase} :
    Accepts stream own (.seq first second) start stop outline ↔
      ∃ middle left right, Accepts stream own first start middle left ∧
        Accepts stream own second middle stop right ∧ outline = left ++ right := by
  constructor
  · rintro ⟨_, read⟩
    generalize same : Outcome.ok stop outline = outcome at read
    cases read with
    | seqOk left right =>
        obtain ⟨rest, rfl, rfl⟩ := Outcome.after_eq_ok.mp same.symm
        exact ⟨_, _, _, ⟨_, left⟩, ⟨_, right⟩, rfl⟩
    | seqFail _ => exact absurd same (by simp)
  · rintro ⟨middle, left, right, ⟨_, readLeft⟩, ⟨_, readRight⟩, rfl⟩
    exact ⟨_, .seqOk readLeft readRight⟩

theorem Accepts.seq {first second : Phrase} {middle : Nat} {left right : Outline}
    (before : Accepts stream own first start middle left)
    (after : Accepts stream own second middle stop right) :
    Accepts stream own (.seq first second) start stop (left ++ right) :=
  accepts_seq.mpr ⟨middle, left, right, before, after, rfl⟩

theorem accepts_ifNext {ahead : List Terminals} {yes no : Phrase} :
    Accepts stream own (.ifNext ahead yes no) start stop outline ↔
      Accepts stream own (if stream.startsWith ahead start then yes else no)
        start stop outline := by
  cases next : stream.startsWith ahead start with
  | true =>
      simp only [if_true]
      constructor
      · rintro ⟨_, read⟩
        cases read with
        | ifNextYes _ read => exact ⟨_, read⟩
        | ifNextNo other _ => simp [next] at other
      · rintro ⟨_, read⟩
        exact ⟨_, .ifNextYes next read⟩
  | false =>
      simp only [Bool.false_eq_true, if_false]
      constructor
      · rintro ⟨_, read⟩
        cases read with
        | ifNextYes other _ => simp [next] at other
        | ifNextNo _ read => exact ⟨_, read⟩
      · rintro ⟨_, read⟩
        exact ⟨_, .ifNextNo next read⟩

theorem accepts_whileNext_of_ahead {ahead : List Terminals} {body : Phrase}
    (next : stream.startsWith ahead start = true) :
    Accepts stream own (.whileNext ahead body) start stop outline ↔
      ∃ middle left right, Accepts stream own body start middle left ∧
        Accepts stream own (.whileNext ahead body) middle stop right ∧
          outline = left ++ right := by
  constructor
  · rintro ⟨_, read⟩
    generalize same : Outcome.ok stop outline = outcome at read
    cases read with
    | whileStop other => simp [next] at other
    | whileMore _ left right =>
        obtain ⟨rest, rfl, rfl⟩ := Outcome.after_eq_ok.mp same.symm
        exact ⟨_, _, _, ⟨_, left⟩, ⟨_, right⟩, rfl⟩
    | whileFail _ _ => exact absurd same (by simp)
  · rintro ⟨middle, left, right, ⟨_, readLeft⟩, ⟨_, readRight⟩, rfl⟩
    exact ⟨_, .whileMore next readLeft readRight⟩

theorem accepts_whileNext_of_stop {ahead : List Terminals} {body : Phrase}
    (next : stream.startsWith ahead start = false) :
    Accepts stream own (.whileNext ahead body) start stop outline ↔
      stop = start ∧ outline = .empty := by
  constructor
  · rintro ⟨_, read⟩
    generalize same : Outcome.ok stop outline = outcome at read
    cases read with
    | whileStop _ => simpa using same
    | whileMore other _ _ => simp [next] at other
    | whileFail _ _ => exact absurd same (by simp)
  · rintro ⟨rfl, rfl⟩
    exact ⟨_, .whileStop next⟩

/-- What holds of no round of a loop, and of one round more than it held of, holds of the whole loop. -/
theorem Accepts.whileNext_induction {ahead : List Terminals} {body : Phrase}
    {motive : Nat → Nat → Outline → Prop}
    (accepted : Accepts stream own (.whileNext ahead body) start stop outline)
    (none : ∀ {place}, stream.startsWith ahead place = false → motive place place .empty)
    (more : ∀ {start middle stop left right}, stream.startsWith ahead start = true →
      Accepts stream own body start middle left → motive middle stop right →
      motive start stop (left ++ right)) :
    motive start stop outline := by
  obtain ⟨log, read⟩ := accepted
  generalize loops : Phrase.whileNext ahead body = phrase,
    ended : Outcome.ok stop outline = outcome at read
  induction read generalizing outline with
  | whileStop next =>
      obtain ⟨rfl, rfl⟩ := Phrase.whileNext.inj loops
      obtain ⟨rfl, rfl⟩ := Outcome.ok.inj ended
      exact none next
  | whileMore next round _ _ ihRest =>
      obtain ⟨rfl, rfl⟩ := Phrase.whileNext.inj loops
      obtain ⟨rest, rfl, rfl⟩ := Outcome.after_eq_ok.mp ended.symm
      exact more next ⟨_, round⟩ (ihRest more rfl rfl)
  | whileFail => exact Outcome.noConfusion ended
  | _ => exact Phrase.noConfusion loops

theorem accepts_orElse {first second : Phrase} :
    Accepts stream own (.orElse first second) start stop outline ↔
      Accepts stream own first start stop outline ∨
        (Refuses stream own first start ∧ Accepts stream own second start stop outline) := by
  constructor
  · rintro ⟨_, read⟩
    cases read with
    | orElseFirst read => exact .inl ⟨_, read⟩
    | orElseSecond failed read => exact .inr ⟨⟨_, _, failed⟩, ⟨_, read⟩⟩
  · rintro (⟨_, read⟩ | ⟨⟨_, _, failed⟩, ⟨_, read⟩⟩)
    · exact ⟨_, .orElseFirst read⟩
    · exact ⟨_, .orElseSecond failed read⟩

theorem accepts_ifAhead {trial yes no : Phrase} :
    Accepts stream own (.ifAhead trial yes no) start stop outline ↔
      ((∃ place found, Accepts stream own trial start place found) ∧
          Accepts stream own yes start stop outline) ∨
        (Refuses stream own trial start ∧ Accepts stream own no start stop outline) := by
  constructor
  · rintro ⟨_, read⟩
    cases read with
    | ifAheadYes tried read => exact .inl ⟨⟨_, _, _, tried⟩, ⟨_, read⟩⟩
    | ifAheadNo failed read => exact .inr ⟨⟨_, _, failed⟩, ⟨_, read⟩⟩
  · rintro (⟨⟨_, _, _, tried⟩, ⟨_, read⟩⟩ | ⟨⟨_, _, failed⟩, ⟨_, read⟩⟩)
    · exact ⟨_, .ifAheadYes tried read⟩
    · exact ⟨_, .ifAheadNo failed read⟩

theorem accepts_inClass {body : Phrase} :
    Accepts stream own (.inClass body) start stop outline ↔
      Terminal.identifier.admits (stream.get start) = true ∧
        ∃ inner, Accepts stream (stream.get start).lexeme body (start + 1) stop inner ∧
          outline = inner.close (stream.get start) := by
  constructor
  · rintro ⟨_, read⟩
    generalize same : Outcome.ok stop outline = outcome at read
    cases read with
    | classFound found read =>
        obtain ⟨inner, rfl, rfl⟩ := Outcome.close_eq_ok.mp same.symm
        exact ⟨found, inner, ⟨_, read⟩, rfl⟩
    | classMissing _ => exact absurd same (by simp)
  · rintro ⟨found, inner, ⟨_, read⟩, rfl⟩
    exact ⟨_, .classFound found read⟩

end

end ClassSyntax

import ClassSyntax.Proofs.Language.Accepts

/-!
# How far readings go

A reading is confined to a bound when it neither ends nor misses anything further on. For each form of
phrase there is one statement that says when its reading stays within a bound.

* `stays_seq`, `stays_whileNext`, `stays_ifAhead`: two phrases in a row, loops, trials.
* `Reads.confined`: the reading of a phrase that stays within a bound is confined to it.
-/

namespace ClassSyntax

/-- The reading neither ended nor missed anything behind the bound. -/
structure Confined (bound : Nat) (outcome : Outcome) (log : List Failure) : Prop where
  stop : outcome.stop ≤ bound
  missed : ∀ failure ∈ log, failure.position ≤ bound

/-- The phrase is read from `start` without going behind the bound. -/
def Stays (stream : TokenStream) (own : String) (phrase : Phrase) (start bound : Nat) : Prop :=
  ∃ outcome log, Reads stream own phrase start outcome log ∧ Confined bound outcome log

section

variable {bound : Nat} {outcome : Outcome} {log more : List Failure}

theorem confined_append :
    Confined bound outcome (log ++ more) ↔
      (∀ failure ∈ log, failure.position ≤ bound) ∧ Confined bound outcome more := by
  constructor
  · rintro ⟨stop, missed⟩
    rw [List.forall_mem_append] at missed
    exact ⟨missed.1, stop, missed.2⟩
  · rintro ⟨before, stop, missed⟩
    exact ⟨stop, List.forall_mem_append.mpr ⟨before, missed⟩⟩

@[simp] theorem confined_after {outline : Outline} :
    Confined bound (outcome.after outline) log ↔ Confined bound outcome log := by
  constructor
  · rintro ⟨stop, missed⟩
    exact ⟨Outcome.stop_after outline outcome ▸ stop, missed⟩
  · rintro ⟨stop, missed⟩
    exact ⟨(Outcome.stop_after outline outcome).symm ▸ stop, missed⟩

@[simp] theorem confined_close {name : Token} :
    Confined bound (outcome.close name) log ↔ Confined bound outcome log := by
  constructor
  · rintro ⟨stop, missed⟩
    exact ⟨Outcome.stop_close name outcome ▸ stop, missed⟩
  · rintro ⟨stop, missed⟩
    exact ⟨(Outcome.stop_close name outcome).symm ▸ stop, missed⟩

end

section

variable {stream : TokenStream} {own : String} {start bound : Nat}

/-- The reading of a phrase that stays within a bound is confined to it. -/
theorem Reads.confined {phrase : Phrase} {outcome : Outcome} {log : List Failure}
    (read : Reads stream own phrase start outcome log)
    (stays : Stays stream own phrase start bound) : Confined bound outcome log := by
  obtain ⟨_, _, other, confined⟩ := stays
  obtain ⟨rfl, rfl⟩ := read.unique other
  exact confined

/-- The failure at which a reading ends is one of those that it has met. -/
theorem Reads.failure_mem {phrase : Phrase} {outcome : Outcome} {log : List Failure}
    (read : Reads stream own phrase start outcome log) {failure : Failure}
    (failed : outcome = .fail failure) : failure ∈ log := by
  induction read with
  | expectMissing | ownMissing | fail | classMissing =>
      obtain rfl := Outcome.fail.inj failed
      exact List.mem_singleton_self _
  | done | expectFound | ownFound | whileStop | countEntry | orElseFirst => exact nomatch failed
  | rule _ ih | seqFail _ ih | ifNextYes _ _ ih | ifNextNo _ _ ih | whileFail _ _ ih =>
      exact ih failed
  | ifAheadYes _ _ _ ih | ifAheadNo _ _ _ ih => exact ih failed
  | orElseSecond _ _ _ ih => exact List.mem_append_right _ (ih failed)
  | @seqOk _ _ _ _ _ _ outcome _ _ _ _ _ ih | @whileMore _ _ _ _ _ _ outcome _ _ _ _ _ _ ih =>
      cases outcome with
      | ok stop outline => exact nomatch failed
      | fail another => exact List.mem_append_right _ (ih failed)
  | @classFound _ _ _ outcome _ _ _ ih =>
      cases outcome with
      | ok stop outline => exact nomatch failed
      | fail another => exact ih failed

namespace Stays

variable {phrase : Phrase}

theorem start_le (stays : Stays stream own phrase start bound) : start ≤ bound := by
  obtain ⟨_, _, read, confined⟩ := stays
  exact Nat.le_trans read.start_le_stop confined.stop

theorem stop_le {stop : Nat} {outline : Outline} (stays : Stays stream own phrase start bound)
    (accepted : Accepts stream own phrase start stop outline) : stop ≤ bound := by
  obtain ⟨_, read⟩ := accepted
  exact (read.confined stays).stop

end Stays

/-! ## When phrases stay within a bound -/

theorem stays_rule {rule : Rule} :
    Stays stream own (.rule rule) start bound ↔ Stays stream own rule.body start bound := by
  constructor
  · rintro ⟨outcome, log, read, confined⟩
    cases read with
    | rule body => exact ⟨outcome, log, body, confined⟩
  · rintro ⟨outcome, log, body, confined⟩
    exact ⟨outcome, log, .rule body, confined⟩

theorem stays_expect_of_found {choices : Terminals} {label : String}
    (found : choices.allow (stream.get start) = true) :
    Stays stream own (.expect choices label) start bound ↔ start + 1 ≤ bound := by
  constructor
  · intro stays
    exact stays.stop_le (accepts_expect.mpr ⟨found, rfl, rfl⟩)
  · intro inside
    exact ⟨_, _, .expectFound found, inside, nofun⟩

theorem stays_expect_of_missing {choices : Terminals} {label : String}
    (missing : choices.allow (stream.get start) = false) (inside : start ≤ bound) :
    Stays stream own (.expect choices label) start bound := by
  refine ⟨_, _, .expectMissing missing, inside, ?_⟩
  simpa using inside

theorem stays_seq {first second : Phrase} :
    Stays stream own (.seq first second) start bound ↔
      Stays stream own first start bound ∧
        ∀ middle outline, Accepts stream own first start middle outline →
          Stays stream own second middle bound := by
  constructor
  · rintro ⟨outcome, log, read, confined⟩
    cases read with
    | @seqOk _ _ _ _ middle outline outcome log more one two =>
        rw [confined_append, confined_after] at confined
        have inside := Nat.le_trans two.start_le_stop confined.2.stop
        refine ⟨⟨_, _, one, inside, confined.1⟩, fun place other accepted => ?_⟩
        obtain ⟨rfl, -⟩ := Accepts.unique ⟨_, one⟩ accepted
        exact ⟨_, _, two, confined.2⟩
    | seqFail one =>
        refine ⟨⟨_, _, one, confined⟩, fun place other accepted => ?_⟩
        exact absurd ⟨_, _, one⟩ accepted.not_refuses
  · rintro ⟨⟨outcome, log, one, confined⟩, rest⟩
    cases outcome with
    | fail failure => exact ⟨_, _, .seqFail one, confined⟩
    | ok middle outline =>
        obtain ⟨_, _, two, behind⟩ := rest middle outline ⟨_, one⟩
        refine ⟨_, _, .seqOk one two, ?_⟩
        rw [confined_append, confined_after]
        exact ⟨confined.missed, behind⟩

theorem stays_ifNext {ahead : List Terminals} {yes no : Phrase} :
    Stays stream own (.ifNext ahead yes no) start bound ↔
      Stays stream own (if stream.startsWith ahead start then yes else no) start bound := by
  cases next : stream.startsWith ahead start with
  | true =>
      rw [if_pos rfl]
      constructor
      · rintro ⟨_, _, read, confined⟩
        cases read with
        | ifNextYes _ read => exact ⟨_, _, read, confined⟩
        | ifNextNo other _ => exact absurd (next.symm.trans other) (by decide)
      · rintro ⟨_, _, read, confined⟩
        exact ⟨_, _, .ifNextYes next read, confined⟩
  | false =>
      rw [if_neg (by decide)]
      constructor
      · rintro ⟨_, _, read, confined⟩
        cases read with
        | ifNextYes other _ => exact absurd (next.symm.trans other) (by decide)
        | ifNextNo _ read => exact ⟨_, _, read, confined⟩
      · rintro ⟨_, _, read, confined⟩
        exact ⟨_, _, .ifNextNo next read, confined⟩

theorem Stays.seq_of_accepted {first second : Phrase} {middle : Nat} {outline : Outline}
    (stays : Stays stream own first start bound)
    (accepted : Accepts stream own first start middle outline)
    (rest : Stays stream own second middle bound) :
    Stays stream own (.seq first second) start bound := by
  refine stays_seq.mpr ⟨stays, fun place _ other => ?_⟩
  obtain ⟨rfl, -⟩ := accepted.unique other
  exact rest

theorem Stays.seq_of_refused {first second : Phrase} (stays : Stays stream own first start bound)
    (refused : Refuses stream own first start) :
    Stays stream own (.seq first second) start bound :=
  stays_seq.mpr ⟨stays, fun _ _ accepted => absurd refused accepted.not_refuses⟩

/-- Another round of a loop stays within the bound, and what follows the round does. -/
theorem stays_whileNext {ahead : List Terminals} {body : Phrase}
    (next : stream.startsWith ahead start = true)
    (stays : Stays stream own (.whileNext ahead body) start bound) :
    Stays stream own body start bound ∧
      ∀ middle outline, Accepts stream own body start middle outline →
        Stays stream own (.whileNext ahead body) middle bound := by
  obtain ⟨outcome, log, read, confined⟩ := stays
  cases read with
  | whileStop other => exact absurd (next.symm.trans other) (by decide)
  | @whileMore _ _ _ _ middle outline outcome log more _ one rest =>
      rw [confined_append, confined_after] at confined
      have inside := Nat.le_trans rest.start_le_stop confined.2.stop
      refine ⟨⟨_, _, one, inside, confined.1⟩, fun place other accepted => ?_⟩
      obtain ⟨rfl, -⟩ := Accepts.unique ⟨_, one⟩ accepted
      exact ⟨_, _, rest, confined.2⟩
  | whileFail _ one =>
      refine ⟨⟨_, _, one, confined⟩, fun place other accepted => ?_⟩
      exact absurd ⟨_, _, one⟩ accepted.not_refuses

/-- Of two alternatives the first stays within the bound, and so does the second when it comes to it. -/
theorem stays_orElse {first second : Phrase}
    (stays : Stays stream own (.orElse first second) start bound) :
    Stays stream own first start bound ∧
      (Refuses stream own first start → Stays stream own second start bound) := by
  obtain ⟨outcome, log, read, confined⟩ := stays
  cases read with
  | orElseFirst one =>
      exact ⟨⟨_, _, one, confined⟩, fun refused => absurd refused (Accepts.not_refuses ⟨_, one⟩)⟩
  | orElseSecond one two =>
      rw [confined_append] at confined
      exact ⟨⟨_, _, one, confined.1 _ (one.failure_mem rfl), confined.1⟩,
        fun _ => ⟨_, _, two, confined.2⟩⟩

/-- Of a trial and what it leads to, the latter stays within the bound. -/
theorem stays_ifAhead {trial yes no : Phrase}
    (stays : Stays stream own (.ifAhead trial yes no) start bound) :
    ((∃ stop outline, Accepts stream own trial start stop outline) ∧
        Stays stream own yes start bound) ∨
      (Refuses stream own trial start ∧ Stays stream own no start bound) := by
  obtain ⟨outcome, log, read, confined⟩ := stays
  cases read with
  | ifAheadYes tried read => exact .inl ⟨⟨_, _, _, tried⟩, _, _, read, confined⟩
  | ifAheadNo tried read => exact .inr ⟨⟨_, _, tried⟩, _, _, read, confined⟩

end

end ClassSyntax

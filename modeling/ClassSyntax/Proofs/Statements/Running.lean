import ClassSyntax.Grammar.Bounded
import ClassSyntax.Proofs.Frontier.History
import ClassSyntax.Proofs.Language.Accepts
import ClassSyntax.Script

/-!
# Phrases on a parser

A parser reads any phrase as it reads a rule: it stops where the reading ends, and notes what the
reading has missed.

* `Parser.run_of_reads`: what the parser does with a reading.
* `Parser.accepts_of_run`, `Parser.run_of_accepts`: the parser gives a value when the phrase is accepted.
* `Query.accepts_of_run`, `Query.run_of_accepts`: the same for what is asked of the grammar.
-/

namespace ClassSyntax

/-- A rule is accepted when a run of so many steps says so. -/
theorem Accepts.of_readWithin {stream : TokenStream} {own : String} {rule : Rule} {start stop : Nat}
    {outline : Outline} (steps : Nat)
    (found : (rule.readWithin steps stream own start).map Prod.fst = some (.ok stop outline)) :
    Accepts stream own (.rule rule) start stop outline := by
  obtain ⟨⟨_, log⟩, found, rfl⟩ := Option.map_eq_some_iff.mp found
  exact ⟨log, Phrase.read_eq_iff.mp (Rule.read_eq_of_readWithin steps found)⟩

namespace Parser

/-- Reads a phrase inside the class `own`. -/
def run (own : String) (phrase : Phrase) (progressive : phrase.progressive = true) :
    Parse Outline := fun parser =>
  let (outcome, log) := phrase.read parser.stream own progressive parser.position
  let after := { parser.note log with position := outcome.stop }
  match outcome with
  | .ok _ outline => (.ok outline, after)
  | .fail failure => (.error (failure.diagnostic parser.stream), after)

variable {own : String} {phrase : Phrase} {parser : Parser}

/-- A rule is the phrase that names it. -/
theorem rule_eq_run (own : String) (rule : Rule) :
    Parser.rule own rule = run own (.rule rule) rfl := rfl

/-- Phrases with one reading in common are run alike. -/
theorem run_congr {other : Phrase} (progressive : phrase.progressive = true)
    (otherProgressive : other.progressive = true) {outcome : Outcome} {log : List Failure}
    (read : Reads parser.stream own phrase parser.position outcome log)
    (otherRead : Reads parser.stream own other parser.position outcome log) :
    run own phrase progressive parser = run own other otherProgressive parser := by
  unfold run
  rw [Phrase.read_eq_of_reads read, Phrase.read_eq_of_reads otherRead]

/-- The parser stops where the reading ends, and notes what the reading has missed. -/
theorem run_of_reads (progressive : phrase.progressive = true) {outcome : Outcome}
    {log : List Failure}
    (read : Reads parser.stream own phrase parser.position outcome log) :
    (run own phrase progressive parser).1.isOk = outcome.succeeds ∧
      (run own phrase progressive parser).2.position = outcome.stop ∧
      (run own phrase progressive parser).2.frontier = (parser.note log).frontier ∧
      ∀ failure, outcome = .fail failure →
        (run own phrase progressive parser).1 = .error (failure.diagnostic parser.stream) := by
  unfold run
  rw [Phrase.read_eq_of_reads read]
  cases outcome with
  | ok stop outline => exact ⟨rfl, rfl, rfl, nofun⟩
  | fail failure => exact ⟨rfl, rfl, rfl, fun _ same => Outcome.fail.inj same ▸ rfl⟩

@[simp] theorem stream_run (progressive : phrase.progressive = true) :
    (run own phrase progressive parser).2.stream = parser.stream := by
  unfold run
  generalize phrase.read parser.stream own progressive parser.position = ending
  obtain ⟨outcome, log⟩ := ending
  cases outcome <;> exact (Notes.note parser log).stream

/-- What gives a value was accepted, up to where the parser stopped. -/
theorem accepts_of_run (progressive : phrase.progressive = true) {outline : Outline}
    {after : Parser} (ended : run own phrase progressive parser = (.ok outline, after)) :
    Accepts parser.stream own phrase parser.position after.position outline := by
  have read := phrase.reads_read parser.stream own progressive parser.position
  unfold run at ended
  generalize phrase.read parser.stream own progressive parser.position = ending at ended read
  obtain ⟨outcome, log⟩ := ending
  cases outcome with
  | ok stop found =>
      obtain ⟨same, rfl⟩ := Prod.mk.inj ended
      obtain rfl := Except.ok.inj same
      exact ⟨log, read⟩
  | fail failure => exact nomatch (Prod.mk.inj ended).1

theorem run_of_accepts (progressive : phrase.progressive = true) {stop : Nat} {outline : Outline}
    (accepted : Accepts parser.stream own phrase parser.position stop outline) :
    ∃ after, run own phrase progressive parser = (.ok outline, after) ∧ after.position = stop := by
  obtain ⟨log, read⟩ := accepted
  unfold run
  rw [Phrase.read_eq_of_reads read]
  exact ⟨_, rfl, rfl⟩

theorem isOk_of_accepts (progressive : phrase.progressive = true) {stop : Nat} {outline : Outline}
    (accepted : Accepts parser.stream own phrase parser.position stop outline) :
    (run own phrase progressive parser).1.isOk = true ∧
      (run own phrase progressive parser).2.position = stop := by
  obtain ⟨after, ended, stopped⟩ := run_of_accepts progressive accepted
  rw [ended]
  exact ⟨rfl, stopped⟩

theorem accepts_of_isOk (progressive : phrase.progressive = true)
    (well : (run own phrase progressive parser).1.isOk = true) :
    ∃ outline, Accepts parser.stream own phrase parser.position
      (run own phrase progressive parser).2.position outline := by
  rcases ended : run own phrase progressive parser with ⟨result, after⟩
  rw [ended] at well
  cases result with
  | ok outline => exact ⟨outline, accepts_of_run progressive ended⟩
  | error diagnostic => exact Bool.noConfusion well

/-- A value is given exactly where the phrase is accepted. -/
theorem isOk_iff_accepts (progressive : phrase.progressive = true) {stop : Nat} :
    ((run own phrase progressive parser).1.isOk = true ∧
        (run own phrase progressive parser).2.position = stop) ↔
      ∃ outline, Accepts parser.stream own phrase parser.position stop outline := by
  constructor
  · rintro ⟨well, rfl⟩
    exact accepts_of_isOk progressive well
  · rintro ⟨outline, accepted⟩
    exact isOk_of_accepts progressive accepted

theorem refuses_of_isOk (progressive : phrase.progressive = true)
    (failed : (run own phrase progressive parser).1.isOk = false) :
    Refuses parser.stream own phrase parser.position := by
  rcases accepts_or_refuses parser.stream own progressive parser.position with
    ⟨_, _, accepted⟩ | refused
  · exact Bool.noConfusion (failed.symm.trans (isOk_of_accepts progressive accepted).1)
  · exact refused

end Parser

namespace Query

variable {parser : Parser} {own : String} {rule : Rule}

/-- A rule that was read has a value, and was accepted up to where it stopped. -/
theorem accepts_of_run {value : Answer} {after : Parser}
    (ended : (Query.read own rule).run parser = (.ok value, after)) :
    ∃ outline, value = answer parser own rule outline ∧
      Accepts parser.stream own (.rule rule) parser.position after.position outline := by
  unfold run at ended
  dsimp only at ended
  rcases found : Parser.rule own rule parser with ⟨result, stopped⟩
  rw [found] at ended
  cases result with
  | error diagnostic => exact nomatch (Prod.mk.inj ended).1
  | ok outline =>
      obtain ⟨same, rfl⟩ := Prod.mk.inj ended
      exact ⟨outline, (Except.ok.inj same).symm, Parser.accepts_of_run rfl found⟩

theorem stream_of_run {result : Except Diagnostic Answer} {after : Parser}
    (ended : (Query.read own rule).run parser = (result, after)) :
    after.stream = parser.stream := by
  have kept : (Parser.rule own rule parser).2.stream = parser.stream := Parser.stream_run rfl
  unfold run at ended
  dsimp only at ended
  rcases found : Parser.rule own rule parser with ⟨value, stopped⟩
  rw [found] at ended kept
  cases value with
  | ok outline => exact (Prod.mk.inj ended).2 ▸ kept
  | error diagnostic => exact (Prod.mk.inj ended).2 ▸ kept

theorem run_of_accepts {stop : Nat} {outline : Outline}
    (accepted : Accepts parser.stream own (.rule rule) parser.position stop outline) :
    ∃ after, (Query.read own rule).run parser = (.ok (answer parser own rule outline), after) ∧
      after.position = stop := by
  obtain ⟨after, found, stopped⟩ := Parser.run_of_accepts rfl accepted
  refine ⟨after, ?_, stopped⟩
  unfold run
  dsimp only
  rw [Parser.rule_eq_run, found]

end Query

end ClassSyntax

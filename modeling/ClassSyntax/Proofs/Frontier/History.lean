import ClassSyntax.Proofs.Frontier.Log
import ClassSyntax.Script

/-!
# What a run records

While a parser runs, its position jumps forth and back. What it records depends on nothing but the
failures that it meets outside of lookahead, in their order.

* `Parser.Notes`: what is kept and what is noted between two states of a parser.
* `Script.runAll_notes`: a script notes the failures that it meets.
* `diagnostics_are_furthest_failures`: the diagnostics of a run are the distinct failures at the
  furthest point.
-/

namespace ClassSyntax

/-! ## What a parser notes -/

namespace Parser

/-- Between two states of a parser the failures in `log` were noted, unless in lookahead; the stream
is the same, and as many lookaheads are under way. -/
structure Notes (before : Parser) (log : List Failure) (after : Parser) : Prop where
  stream : after.stream = before.stream
  depth : after.depth = before.depth
  frontier : after.frontier = (before.note log).frontier

@[simp] theorem note_nil (parser : Parser) : parser.note [] = parser := by
  unfold note
  split <;> rfl

theorem frontier_note_of_outside {parser : Parser} (outside : parser.depth = 0)
    (log : List Failure) : (parser.note log).frontier = parser.frontier.noteAll log := by
  rw [note, if_pos outside]

theorem frontier_note_of_inside {parser : Parser} (inside : parser.depth ≠ 0)
    (log : List Failure) : (parser.note log).frontier = parser.frontier := by
  rw [note, if_neg inside]

namespace Notes

variable {before middle after : Parser} {log more : List Failure}

theorem refl (parser : Parser) : parser.Notes [] parser where
  stream := rfl
  depth := rfl
  frontier := by rw [note_nil]

theorem note (parser : Parser) (log : List Failure) : parser.Notes log (parser.note log) where
  stream := by
    unfold Parser.note
    split <;> rfl
  depth := by
    unfold Parser.note
    split <;> rfl
  frontier := rfl

theorem restore (notes : before.Notes log after) (position : Nat) :
    before.Notes log (after.restore position) :=
  ⟨notes.stream, notes.depth, notes.frontier⟩

theorem skip (notes : before.Notes log after) : before.Notes log after.skip := by
  unfold Parser.skip
  split
  · exact ⟨notes.stream, notes.depth, notes.frontier⟩
  · exact notes

theorem trans (first : before.Notes log middle) (second : middle.Notes more after) :
    before.Notes (log ++ more) after where
  stream := second.stream.trans first.stream
  depth := second.depth.trans first.depth
  frontier := by
    rw [second.frontier]
    by_cases outside : before.depth = 0
    · rw [frontier_note_of_outside (first.depth.trans outside), first.frontier,
        frontier_note_of_outside outside, frontier_note_of_outside outside,
        Frontier.noteAll_append]
    · rw [frontier_note_of_inside (first.depth.symm ▸ outside), first.frontier,
        frontier_note_of_inside outside, frontier_note_of_inside outside]

/-- What is missed in lookahead is not noted. -/
theorem lookAhead {parser inside : Parser}
    (notes : { parser with depth := parser.depth + 1 }.Notes log inside) (position : Nat) :
    parser.Notes [] { inside.restore position with depth := inside.depth - 1 } where
  stream := notes.stream
  depth := congrArg (· - 1) notes.depth
  frontier := by
    rw [note_nil]
    exact notes.frontier.trans (frontier_note_of_inside (Nat.succ_ne_zero _) log)

/-- To meet the same failures once more does not change the diagnostics. -/
theorem diagnostics_eq (once : before.Notes log middle) (twice : middle.Notes log after) :
    after.diagnostics = middle.diagnostics := by
  have same : after.frontier = middle.frontier := by
    rw [twice.frontier]
    by_cases outside : before.depth = 0
    · rw [frontier_note_of_outside (once.depth.trans outside), once.frontier,
        frontier_note_of_outside outside, Frontier.noteAll_noteAll]
    · rw [frontier_note_of_inside (once.depth.symm ▸ outside)]
  rw [diagnostics, same, twice.stream, diagnostics]

end Notes

theorem notes_rule (own : String) (rule : Rule) (parser : Parser) :
    parser.Notes (rule.read parser.stream own parser.position).2
      (Parser.rule own rule parser).2 := by
  unfold Parser.rule
  generalize rule.read parser.stream own parser.position = ending
  obtain ⟨outcome, log⟩ := ending
  cases outcome <;> exact (Notes.note parser log).restore _

end Parser

namespace Query

/-- The failures that a query meets. To ask for the kind of a member is to look ahead. -/
def missed : Query → Parser → List Failure
  | read own rule, parser => (rule.read parser.stream own parser.position).2
  | memberKind _, _ => []
  | skipType, parser => (Rule.typeName.read parser.stream "" parser.position).2

theorem notes_run (query : Query) (parser : Parser) :
    parser.Notes (query.missed parser) (query.run parser).2 := by
  cases query with
  | read own rule =>
      have notes := Parser.notes_rule own rule parser
      unfold Query.run
      dsimp only
      split <;> rename_i result <;> rwa [result] at notes
  | memberKind own => exact Parser.Notes.refl parser
  | skipType =>
      have notes := Parser.notes_rule "" .typeName parser
      unfold Query.run
      dsimp only
      split <;> rename_i result <;> rwa [result] at notes

end Query

namespace Script

open Session

mutual

/-- The failures that a command meets outside of lookahead, in their order. -/
def missedByOne : Command → Session → List Failure
  | .fail expected, session => [⟨session.parser.position, expected⟩]
  | .expect kind lexeme, session =>
      if session.parser.current.is kind lexeme then [] else [⟨session.parser.position, lexeme⟩]
  | .expectIdentifier role, session =>
      if session.parser.current.kind = .identifier then []
      else [⟨session.parser.position, role⟩]
  | .query query, session => query.missed session.parser
  | .attempt script, session => missedWell script session
  | _, _ => []

/-- The failures that a script meets until it stops at the first that it does not survive. -/
def missedWell : List Command → Session → List Failure
  | [], _ => []
  | command :: script, session =>
      missedByOne command session ++
        match runOne command session with
        | (.ok _, after) => missedWell script after
        | (.error _, _) => []

end

/-- The failures that a script meets outside of lookahead, in their order. -/
def missedByAll : List Command → Session → List Failure
  | [], _ => []
  | command :: script, session =>
      missedByOne command session ++ missedByAll script (runOne command session).2

@[simp] theorem parser_parse {α : Type} (session : Session) (body : Parse α) (answer : α → Answer) :
    (session.parse body answer).2.parser = (body session.parser).2 := by
  unfold Session.parse
  split <;> rename_i result <;> rw [result]

mutual

/-- A command notes the failures that it meets. -/
theorem runOne_notes (command : Command) (session : Session) :
    session.parser.Notes (missedByOne command session) (runOne command session).2.parser := by
  match command with
  | .current | .currentKind | .peek _ | .hasTokens | .position | .mark _ | .check _ _
  | .checkKind _ | .diagnostics => exact .refl _
  | .advance =>
      rw [runOne, parser_parse]
      exact (Parser.Notes.refl _).skip
  | .restore name =>
      unfold runOne
      split
      · exact (Parser.Notes.refl _).restore _
      · exact .refl _
  | .fail expected =>
      rw [runOne, parser_parse]
      exact .note _ _
  | .eat kind lexeme =>
      rw [runOne, parser_parse, Parser.eat]
      split
      · exact (Parser.Notes.refl _).skip
      · exact .refl _
  | .expect kind lexeme =>
      rw [runOne, parser_parse, Parser.expect, missedByOne]
      split
      · exact (Parser.Notes.refl _).skip
      · exact .note _ _
  | .expectIdentifier role =>
      rw [runOne, parser_parse, Parser.expectIdentifier, missedByOne]
      split
      · exact (Parser.Notes.refl _).skip
      · exact .note _ _
  | .query query =>
      rw [runOne, parser_parse, missedByOne]
      exact query.notes_run session.parser
  | .attempt script =>
      have notes := runWell_notes script session
      rw [runOne, missedByOne]
      split
      · rename_i result
        rwa [result] at notes
      · rename_i result
        rw [result] at notes
        exact notes.restore _
  | .lookAhead script => exact (runAll_notes script session.deeper).lookAhead _

theorem runWell_notes (script : List Command) (session : Session) :
    session.parser.Notes (missedWell script session) (runWell script session).2.parser := by
  match script with
  | [] => exact .refl _
  | command :: script =>
      have first := runOne_notes command session
      rcases result : runOne command session with ⟨answer, after⟩
      rw [result] at first
      cases answer with
      | error diagnostic =>
          simp only [runWell, missedWell, result, List.append_nil]
          exact first
      | ok value =>
          have rest := first.trans (runWell_notes script after)
          simp only [runWell, missedWell, result]
          split <;> rename_i last <;> rwa [last] at rest

theorem runAll_notes (script : List Command) (session : Session) :
    session.parser.Notes (missedByAll script session) (runAll script session).2.parser := by
  match script with
  | [] => exact .refl _
  | command :: script =>
      have first := runOne_notes command session
      have rest := runAll_notes script (runOne command session).2
      exact first.trans rest

end

end Script

/-! ## Diagnostics of a run -/

namespace Parser

variable {tokens : List Token} {log : List Failure} {after : Parser}

/-- On a fresh parser the frontier is that of the log. -/
theorem Notes.frontier_eq (notes : (start tokens).Notes log after) :
    after.frontier = Frontier.start.noteAll log := by
  rw [notes.frontier, frontier_note_of_outside rfl]
  rfl

theorem Notes.stream_eq (notes : (start tokens).Notes log after) :
    after.stream = TokenStream.ofTokens tokens := notes.stream

/-- A rule that fails has met a failure. -/
theorem missed_of_rule_eq_error {own : String} {rule : Rule} {parser : Parser}
    {diagnostic : Diagnostic} (failed : (Parser.rule own rule parser).1 = .error diagnostic) :
    ∃ failure, rule.read parser.stream own parser.position =
      (.fail failure, (rule.read parser.stream own parser.position).2) ∧
        (rule.read parser.stream own parser.position).2 ≠ [] := by
  have read := rule.reads_read parser.stream own parser.position
  unfold Parser.rule at failed
  generalize rule.read parser.stream own parser.position = ending at failed read ⊢
  obtain ⟨outcome, log⟩ := ending
  cases outcome with
  | ok stop outline => exact nomatch failed
  | fail failure => exact ⟨failure, rfl, List.ne_nil_of_mem (read.failure_mem rfl)⟩

end Parser

/-- After every run of a fresh parser the frontier is at the furthest failure, and the diagnostics are
the distinct things missing there. -/
theorem Script.records_furthest (tokens : List Token) (script : List Command) :
    let after := (runAll script (.start tokens)).2.parser
    let log := missedByAll script (.start tokens)
    let furthest := (log.map Failure.position).max?.getD 0
    after.frontier.position = furthest ∧
      after.diagnostics = (Frontier.missingAt furthest log).map
        (Diagnostic.missing ((TokenStream.ofTokens tokens).get furthest)) := by
  intro after log furthest
  have notes : (Parser.start tokens).Notes log after := runAll_notes script (.start tokens)
  have position : after.frontier.position = furthest := by
    rw [notes.frontier_eq]
    exact Frontier.position_noteAll_eq_max log
  refine ⟨position, ?_⟩
  rw [Parser.diagnostics, Frontier.diagnostics, notes.stream_eq, position]
  rw [notes.frontier_eq] at position ⊢
  rw [Frontier.expected_noteAll, position]

/-- Where a rule fails on a parser that was run before, there is a diagnostic. -/
theorem Parser.Notes.diagnostics_ne_nil {tokens : List Token} {log : List Failure} {after : Parser}
    (notes : (start tokens).Notes log after) {own : String} {rule : Rule} {diagnostic : Diagnostic}
    (failed : (Parser.rule own rule after).1 = .error diagnostic) :
    (Parser.rule own rule after).2.diagnostics ≠ [] := by
  obtain ⟨_, -, missed⟩ := missed_of_rule_eq_error failed
  have whole := notes.trans (notes_rule own rule after)
  rw [diagnostics, Frontier.diagnostics, whole.frontier_eq]
  refine fun none => Frontier.expected_noteAll_ne_nil ?_ (List.map_eq_nil_iff.mp none)
  exact List.append_ne_nil_of_right_ne_nil _ missed

/-- To ask the same of the grammar once more changes no diagnostics. -/
theorem Query.diagnostics_run_again (query : Query) (parser : Parser) :
    (query.run ((query.run parser).2.restore parser.position)).2.diagnostics =
      (query.run parser).2.diagnostics := by
  have once := (query.notes_run parser).restore parser.position
  have twice := query.notes_run ((query.run parser).2.restore parser.position)
  have same : query.missed ((query.run parser).2.restore parser.position) =
      query.missed parser := by
    cases query <;> simp only [missed, once.stream] <;> rfl
  rw [same] at twice
  exact once.diagnostics_eq twice

/-- On a fresh parser the diagnostics of a rule are those of its log. -/
theorem Parser.diagnostics_rule_start (own : String) (rule : Rule) (tokens : List Token) :
    (Parser.rule own rule (start tokens)).2.diagnostics =
      (Frontier.start.noteAll (rule.read (TokenStream.ofTokens tokens) own 0).2).diagnostics
        (TokenStream.ofTokens tokens) := by
  have notes := notes_rule own rule (start tokens)
  rw [diagnostics, notes.stream_eq, notes.frontier_eq]
  rfl

/-- Where no program can be read, the verdict is what the parser has recorded. -/
theorem check_eq_diagnostics {tokens : List Token} {diagnostic : Diagnostic}
    (failed : (Parser.rule "" .program (.start tokens)).1 = .error diagnostic) :
    check tokens = .rejected (Parser.rule "" .program (.start tokens)).2.diagnostics := by
  have some := (Parser.Notes.refl (.start tokens)).diagnostics_ne_nil failed
  obtain ⟨failure, ended, -⟩ := Parser.missed_of_rule_eq_error failed
  rw [Parser.diagnostics_rule_start] at some ⊢
  rw [check_eq ended, Verdict.ofReading]
  exact congrArg Verdict.rejected (if_neg fun empty => some (List.isEmpty_iff.mp empty))

/-- After every run of a fresh parser the frontier is the furthest failure met outside of lookahead, and
the diagnostics are the distinct things missing there, in the order in which they were first missed. To
ask the same of the grammar once more from the same position does not change them. Where a rule fails
there is a diagnostic; and where no program can be read, the diagnostics are the verdict, all about one
token and no two about the same missing thing. -/
theorem diagnostics_are_furthest_failures :
    (∀ (tokens : List Token) (script : List Command),
      let after := (Script.runAll script (.start tokens)).2.parser
      let log := Script.missedByAll script (.start tokens)
      let furthest := (log.map Failure.position).max?.getD 0
      let token := (TokenStream.ofTokens tokens).get furthest
      let missing := ((log.filter (·.position = furthest)).map (·.expected)).eraseDups
      after.frontier.position = furthest ∧
        after.diagnostics =
          missing.map (⟨token.line, ·, Found.ofToken token, .expectation⟩) ∧
        ∀ own rule diagnostic, (Parser.rule own rule after).1 = .error diagnostic →
          (Parser.rule own rule after).2.diagnostics ≠ []) ∧
      (∀ (query : Query) (parser : Parser),
        let once := (query.run parser).2
        (query.run (once.restore parser.position)).2.diagnostics = once.diagnostics) ∧
      ∀ (tokens : List Token) (diagnostic : Diagnostic),
        (Parser.rule "" .program (.start tokens)).1 = .error diagnostic →
          let found := (Parser.rule "" .program (.start tokens)).2.diagnostics
          found ≠ [] ∧ check tokens = .rejected found ∧
            (∃ token : Token, ∀ reported ∈ found, reported.reason = .expectation ∧
              reported.line = token.line ∧ reported.found = Found.ofToken token) ∧
            (found.map Diagnostic.expected).Nodup := by
  refine ⟨fun tokens script => ?_, Query.diagnostics_run_again, fun tokens diagnostic failed => ?_⟩
  · obtain ⟨position, diagnostics⟩ := Script.records_furthest tokens script
    refine ⟨position, diagnostics, fun own rule diagnostic failed => ?_⟩
    exact (Script.runAll_notes script (.start tokens)).diagnostics_ne_nil failed
  · refine ⟨(Parser.Notes.refl _).diagnostics_ne_nil failed, check_eq_diagnostics failed, ?_⟩
    rw [Parser.diagnostics_rule_start, Frontier.diagnostics]
    generalize Frontier.position _ = furthest
    refine ⟨⟨(TokenStream.ofTokens tokens).get furthest, fun reported listed => ?_⟩, ?_⟩
    · obtain ⟨expected, -, rfl⟩ := List.mem_map.mp listed
      exact ⟨rfl, rfl, rfl⟩
    · rw [List.map_map]
      exact (List.map_id _).symm ▸ Frontier.nodup_expected_noteAll _

/-- Misses one thing at the first token and three at the second, and one more in lookahead. -/
def strayScript : List Command :=
  [.fail "type", .attempt [.advance, .fail "class name"], .lookAhead [.advance, .advance, .fail ";"],
    .advance, .fail "identifier", .fail "class name"]

/-- Of what the script misses, two things at the second token remain; and the name that is not finished
is reported as the parser has recorded it. -/
theorem strayScript_keeps_furthest :
    (Script.runAll strayScript (.start unfinishedName)).2.parser.diagnostics =
        [⟨1, "class name", .lexeme "A", .expectation⟩, ⟨1, "identifier", .lexeme "A", .expectation⟩] ∧
      (Parser.rule "" .program (.start unfinishedName)).1 =
        .error ⟨1, "\x7b", .lexeme ".", .expectation⟩ ∧
      check unfinishedName =
        .rejected (Parser.rule "" .program (.start unfinishedName)).2.diagnostics := by
  obtain ⟨recorded, -, reported⟩ := diagnostics_are_furthest_failures
  have failed : (Parser.rule "" .program (.start unfinishedName)).1 =
      .error ⟨1, "\x7b", .lexeme ".", .expectation⟩ := by
    have ended : Rule.program.read (TokenStream.ofTokens unfinishedName) "" 0 =
        (.fail ⟨4, "\x7b"⟩, [⟨4, "\x7b"⟩]) := Rule.read_eq_of_readWithin 1000 (by decide +kernel)
    simp only [Parser.rule, Parser.start, ended]
    decide
  refine ⟨?_, failed, (reported unfinishedName _ failed).2.1⟩
  rw [(recorded unfinishedName strayScript).2.1]
  decide +kernel

end ClassSyntax

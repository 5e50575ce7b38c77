import ClassSyntax.Proofs.Language.Exact
import ClassSyntax.Proofs.Language.Words
import ClassSyntax.Proofs.Statements.Running

/-!
# The ladder of levels is one loop

An expression of a level is a loop whose operands are loops again, one for each tighter level. The inner
loop of an operand leaves the looser operators alone, and the outer one takes up where it stops. So the
loops together do what one loop does that takes the operators of all these levels.

* `Further.of_nested`: two loops, one inside the other, are one.
* `Reads.flat_of_binaryExpr`: a level is read like one loop over unary expressions.
* `Parser.rule_binaryExpr`: the same for a parser, step by step.
-/

namespace ClassSyntax

namespace Phrase

/-- Further operands, each behind an operator of the set. -/
def further (operators : Terminals) (operand : Phrase) : Phrase :=
  whileNext [operators] (seq (expect operators "operator") operand)

/-- Operands with an operator of the set between each two. -/
def joined (operators : Terminals) (operand : Phrase) : Phrase :=
  seq operand (further operators operand)

end Phrase

/-- The operators of this level and of the tighter ones. -/
def Level.reach (level : Level) : Terminals := Rule.goesOn.tighterOperators level

/-! ## One loop -/

/-- How the loop over further operands goes: it stops in front of any other token, and goes wrong where an
operand does. -/
inductive Further (stream : TokenStream) (own : String) (operators : Terminals) (operand : Phrase) :
    Nat → Outcome → List Failure → Prop
  | stop {start : Nat} : operators.allow (stream.get start) = false →
      Further stream own operators operand start (.ok start .empty) []
  | more {start middle : Nat} {outline : Outline} {outcome : Outcome} {log rest : List Failure} :
      operators.allow (stream.get start) = true →
      Reads stream own operand (start + 1) (.ok middle outline) log →
      Further stream own operators operand middle outcome rest →
      Further stream own operators operand start (outcome.after outline) (log ++ rest)
  | wrong {start : Nat} {failure : Failure} {log : List Failure} :
      operators.allow (stream.get start) = true →
      Reads stream own operand (start + 1) (.fail failure) log →
      Further stream own operators operand start (.fail failure) log

section

variable {stream : TokenStream} {own : String} {operators loose tight : Terminals}
  {operand inner : Phrase} {start middle stop : Nat} {outline : Outline} {outcome : Outcome}
  {log rest : List Failure}

/-- Behind an operator that is there, a round is the operand. -/
theorem reads_round (next : operators.allow (stream.get start) = true) :
    Reads stream own (.seq (.expect operators "operator") operand) start outcome log ↔
      Reads stream own operand (start + 1) outcome log := by
  constructor
  · intro read
    cases read with
    | seqOk first second =>
        cases first with | expectFound =>
        rwa [Outcome.after_empty, List.nil_append]
    | seqFail first =>
        cases first with | expectMissing missing =>
        exact Bool.noConfusion (next.symm.trans missing)
  · intro read
    have found : Reads stream own (.expect operators "operator") start _ _ := .expectFound next
    have round := found.seqOk read
    rwa [Outcome.after_empty, List.nil_append] at round

theorem Reads.iff_further :
    Reads stream own (Phrase.further operators operand) start outcome log ↔
      Further stream own operators operand start outcome log := by
  constructor
  · intro read
    generalize loops : Phrase.further operators operand = phrase at read
    induction read with
    | whileStop next =>
        obtain ⟨rfl, rfl⟩ := Phrase.whileNext.inj loops
        exact .stop (by rwa [startsWith_singleton] at next)
    | whileMore next round _ _ ihRest =>
        obtain ⟨rfl, rfl⟩ := Phrase.whileNext.inj loops
        rw [startsWith_singleton] at next
        exact .more next ((reads_round next).mp round) (ihRest rfl)
    | whileFail next round =>
        obtain ⟨rfl, rfl⟩ := Phrase.whileNext.inj loops
        rw [startsWith_singleton] at next
        exact .wrong next ((reads_round next).mp round)
    | _ => exact Phrase.noConfusion loops
  · intro further
    induction further with
    | stop next => exact .whileStop (by rwa [startsWith_singleton])
    | more next read _ ih =>
        exact .whileMore (by rwa [startsWith_singleton]) ((reads_round next).mpr read) ih
    | wrong next read => exact .whileFail (by rwa [startsWith_singleton]) ((reads_round next).mpr read)

namespace Further

theorem stops (further : Further stream own operators operand start (.ok stop outline) log) :
    operators.allow (stream.get stop) = false := by
  generalize ended : Outcome.ok stop outline = outcome at further
  induction further generalizing outline with
  | stop next =>
      obtain ⟨rfl, -⟩ := Outcome.ok.inj ended
      exact next
  | more _ _ _ ih =>
      obtain ⟨_, rfl, -⟩ := Outcome.after_eq_ok.mp ended.symm
      exact ih rfl
  | wrong => exact Outcome.noConfusion ended

/-! ## A loop inside another -/

theorem allow_of_tight {token : Token} (allowed : tight.allow token = true) :
    (loose ++ tight).allow token = true := by
  rw [Terminals.allow_append, allowed, Bool.or_true]

theorem allow_of_loose {token : Token} (allowed : loose.allow token = true) :
    (loose ++ tight).allow token = true := by
  rw [Terminals.allow_append, allowed, Bool.true_or]

/-- The wider loop goes on where the tight one stops. -/
theorem append (first : Further stream own tight operand start (.ok middle outline) log)
    (second : Further stream own (loose ++ tight) operand middle outcome rest) :
    Further stream own (loose ++ tight) operand start (outcome.after outline) (log ++ rest) := by
  generalize ended : Outcome.ok middle outline = tightly at first
  induction first generalizing outline with
  | stop =>
      obtain ⟨rfl, rfl⟩ := Outcome.ok.inj ended
      rwa [Outcome.after_empty, List.nil_append]
  | more next read _ ih =>
      obtain ⟨inside, rfl, rfl⟩ := Outcome.after_eq_ok.mp ended.symm
      rw [← Outcome.after_after, List.append_assoc]
      exact .more (allow_of_tight next) read (ih rfl)
  | wrong => exact Outcome.noConfusion ended

/-- The wider loop goes wrong where the tight one does. -/
theorem widen {failure : Failure} (first : Further stream own tight operand start (.fail failure) log) :
    Further stream own (loose ++ tight) operand start (.fail failure) log := by
  generalize ended : Outcome.fail failure = tightly at first
  induction first with
  | stop => exact Outcome.noConfusion ended
  | @more _ _ outline outcome _ _ next read _ ih =>
      cases outcome with
      | ok => exact Outcome.noConfusion ended
      | fail other =>
          obtain rfl := Outcome.fail.inj ended
          exact .more (allow_of_tight next) read (ih rfl)
  | wrong next read =>
      obtain rfl := Outcome.fail.inj ended
      exact .wrong (allow_of_tight next) read

/-- Where an operand of the outer loop is a loop itself, the outer loop is one loop over the operands of
the inner one. -/
theorem of_nested
    (flat : ∀ {start outcome log}, Reads stream own inner start outcome log →
      Reads stream own (Phrase.joined tight operand) start outcome log)
    (further : Further stream own loose inner start outcome log)
    (settled : tight.allow (stream.get start) = false) :
    Further stream own (loose ++ tight) operand start outcome log := by
  induction further with
  | stop next => exact .stop (by rw [Terminals.allow_append, next, settled]; rfl)
  | more next read _ ih =>
      generalize ended : Outcome.ok _ _ = outcome at read
      cases flat read with
      | seqOk first tail =>
          -- the inner loop stopped, so no tight operator comes next
          obtain ⟨inside, rfl, rfl⟩ := Outcome.after_eq_ok.mp ended.symm
          have tail := Reads.iff_further.mp tail
          rw [← Outcome.after_after, List.append_assoc]
          exact .more (allow_of_loose next) first (tail.append (ih tail.stops))
      | seqFail => exact Outcome.noConfusion ended
  | wrong next read =>
      generalize ended : Outcome.fail _ = outcome at read
      cases flat read with
      | @seqOk _ _ _ _ _ outline outcome _ _ first tail =>
          cases outcome with
          | ok => exact Outcome.noConfusion ended
          | fail other =>
              obtain rfl := Outcome.fail.inj ended
              exact .more (allow_of_loose next) first (Reads.iff_further.mp tail).widen
      | seqFail first =>
          obtain rfl := Outcome.fail.inj ended
          exact .wrong (allow_of_loose next) first

end Further

/-- Operands that are joined operands themselves are joined as a whole. -/
theorem Reads.joined_of_nested
    (flat : ∀ {start outcome log}, Reads stream own inner start outcome log →
      Reads stream own (Phrase.joined tight operand) start outcome log)
    (read : Reads stream own (Phrase.joined loose inner) start outcome log) :
    Reads stream own (Phrase.joined (loose ++ tight) operand) start outcome log := by
  cases read with
  | seqOk first tail =>
      generalize ended : Outcome.ok _ _ = tightly at first
      cases flat first with
      | seqOk head inside =>
          obtain ⟨_, rfl, rfl⟩ := Outcome.after_eq_ok.mp ended.symm
          have inside := Reads.iff_further.mp inside
          have outside := (Reads.iff_further.mp tail).of_nested flat inside.stops
          rw [← Outcome.after_after, List.append_assoc]
          exact .seqOk head (Reads.iff_further.mpr (inside.append outside))
      | seqFail => exact Outcome.noConfusion ended
  | seqFail first =>
      generalize ended : Outcome.fail _ = tightly at first
      cases flat first with
      | @seqOk _ _ _ _ _ _ outcome _ _ head inside =>
          cases outcome with
          | ok => exact Outcome.noConfusion ended
          | fail other =>
              obtain rfl := Outcome.fail.inj ended
              exact .seqOk head (Reads.iff_further.mpr (Reads.iff_further.mp inside).widen)
      | seqFail head =>
          obtain rfl := Outcome.fail.inj ended
          exact .seqFail head

/-! ## The levels -/

theorem Level.reach_of_tighter {level next : Level} (tighter : level.tighter = some next) :
    level.reach = level.terminals ++ next.reach := by
  revert tighter
  cases level <;> cases next <;> decide

theorem Level.reach_of_tightest {level : Level} (tightest : level.tighter = none) :
    level.reach = level.terminals := by
  revert tightest
  cases level <;> decide

/-- The loosest level reaches all thirteen operators. -/
theorem Level.reach_logicalOr : Level.logicalOr.reach = Form.binaryOperators := by decide

/-- A level is read like one loop over unary expressions, with the same end, and missing the same
things. -/
theorem Reads.flat_of_binaryExpr {level : Level}
    (read : Reads stream own (.rule (.binaryExpr level)) start outcome log) :
    Reads stream own (Phrase.joined level.reach (.rule .unaryExpr)) start outcome log := by
  -- by induction on the number of tighter levels
  induction depth : level.depth using Nat.strongRecOn generalizing level start outcome log with
  | ind _ ih =>
      cases read with | rule nested =>
      cases tighter : level.tighter with
      | none =>
          have tightest : Rule.operand level = .unaryExpr := by rw [Rule.operand, tighter]
          rw [Rule.body, tightest] at nested
          rw [Level.reach_of_tightest tighter]
          exact nested
      | some next =>
          have := Level.depth_tighter tighter
          have inner : Rule.operand level = .binaryExpr next := by rw [Rule.operand, tighter]
          rw [Rule.body, inner] at nested
          rw [Level.reach_of_tighter tighter]
          exact Reads.joined_of_nested (fun read => ih next.depth (by omega) read rfl) nested

end

/-! ## The loop on a parser -/

namespace Parser

variable {own : String} {parser : Parser} {outcome : Outcome} {log rest : List Failure}

/-- The parser when a reading has ended like this. -/
def settle (parser : Parser) (outcome : Outcome) (log : List Failure) :
    Except Diagnostic Outline × Parser :=
  let after := { parser.note log with position := outcome.stop }
  match outcome with
  | .ok _ outline => (.ok outline, after)
  | .fail failure => (.error (failure.diagnostic parser.stream), after)

theorem run_eq_settle {phrase : Phrase} (progressive : phrase.progressive = true)
    (read : Reads parser.stream own phrase parser.position outcome log) :
    run own phrase progressive parser = parser.settle outcome log := by
  have same : phrase.read parser.stream own progressive parser.position = (outcome, log) :=
    Phrase.read_eq_of_reads read
  unfold run settle
  generalize phrase.read parser.stream own progressive parser.position = ending at same
  subst same
  cases outcome <;> rfl

/-- Nothing happens where nothing is read. -/
theorem settle_here : parser.settle (.ok parser.position .empty) [] = (.ok .empty, parser) := by
  unfold settle note
  split <;> rfl

/-- A reading in two parts is settled one part after the other. -/
theorem settle_after (middle : Nat) (outline : Outline) :
    parser.settle (outcome.after outline) (log ++ rest) =
      let ended := ({ parser.note log with position := middle } : Parser).settle outcome rest
      (ended.1.map (outline ++ ·), ended.2) := by
  unfold settle note
  by_cases outside : parser.depth = 0
  · simp only [outside, if_true, Frontier.noteAll, List.foldl_append]
    cases outcome <;> rfl
  · simp only [outside, if_false]
    cases outcome <;> rfl

theorem skip_eq {choices : Terminals} (next : choices.allow parser.current = true) :
    parser.skip = { parser with position := parser.position + 1 } := by
  have more : parser.hasTokens = true := by
    unfold hasTokens
    rw [Terminals.isEnd_of_allow next]
    rfl
  rw [skip, if_pos more]

theorem settle_skip {choices : Terminals} (next : choices.allow parser.current = true) :
    parser.skip.settle outcome log = parser.settle outcome log := by
  rw [skip_eq next]
  unfold settle note
  by_cases outside : parser.depth = 0
  · simp only [outside, if_true]
  · simp only [outside, if_false]

/-- Behind an operator and an operand fewer tokens are left. -/
theorem left_lt {choices : Terminals} {rule : Rule} {outline : Outline} {after : Parser}
    (next : choices.allow parser.current = true)
    (taken : Parser.rule own rule parser.skip = (.ok outline, after)) :
    after.stream.size - after.position < parser.stream.size - parser.position := by
  have inside : parser.position < parser.stream.size := TokenStream.lt_size_of_allow next
  have stream : (Parser.rule own rule parser.skip).2.stream = _ := stream_run rfl
  rw [taken] at stream
  have reached := (accepts_of_run rfl taken).start_le_stop
  rw [skip_eq next] at stream reached
  dsimp only at stream reached
  rw [stream]
  omega

/-- Takes an operator and an operand, as long as an operator of this level or a tighter one comes next. -/
def flatLoop (own : String) (level : Level) (parser : Parser) :
    Except Diagnostic Outline × Parser :=
  if _ : level.reach.allow parser.current = true then
    match _ : Parser.rule own .unaryExpr parser.skip with
    | (.error diagnostic, after) => (.error diagnostic, after)
    | (.ok outline, after) =>
        let ended := flatLoop own level after
        (ended.1.map (outline ++ ·), ended.2)
  else (.ok .empty, parser)
termination_by parser.stream.size - parser.position
decreasing_by exact left_lt ‹_› ‹_›

/-- An operand, and then further operands in one loop. -/
def flatExpr (own : String) (level : Level) (parser : Parser) :
    Except Diagnostic Outline × Parser :=
  match Parser.rule own .unaryExpr parser with
  | (.error diagnostic, after) => (.error diagnostic, after)
  | (.ok outline, after) =>
      let ended := flatLoop own level after
      (ended.1.map (outline ++ ·), ended.2)

theorem rule_settled (own : String) (rule : Rule) (parser : Parser) :
    ∃ outcome log, Reads parser.stream own (.rule rule) parser.position outcome log ∧
      Parser.rule own rule parser = parser.settle outcome log := by
  have read := rule.reads_read parser.stream own parser.position
  exact ⟨_, _, read, run_eq_settle rfl read⟩

/-- What the loop over further operands does on a parser. -/
theorem flatLoop_settled (own : String) (level : Level) (parser : Parser) :
    ∃ outcome log, Further parser.stream own level.reach (.rule .unaryExpr) parser.position outcome
        log ∧ flatLoop own level parser = parser.settle outcome log := by
  fun_induction flatLoop own level parser with
  | case1 parser next diagnostic after taken =>
      obtain ⟨outcome, log, read, settled⟩ := rule_settled own .unaryExpr parser.skip
      rw [taken, settle_skip next] at settled
      rw [skip_eq next] at read
      cases outcome with
      | ok => exact nomatch (Prod.mk.inj settled).1
      | fail failure => exact ⟨_, _, .wrong next read, settled⟩
  | case2 parser next outline after taken ended ih =>
      obtain ⟨outcome, log, read, settled⟩ := rule_settled own .unaryExpr parser.skip
      rw [taken, settle_skip next] at settled
      rw [skip_eq next] at read
      obtain ⟨rest, more, further, looped⟩ := ih
      cases outcome with
      | fail => exact nomatch (Prod.mk.inj settled).1
      | ok middle found =>
          obtain ⟨same, rfl⟩ := Prod.mk.inj settled
          obtain rfl := Except.ok.inj same
          dsimp only [Outcome.stop] at further looped
          rw [(Notes.note parser log).stream] at further
          refine ⟨_, _, .more next read further, ?_⟩
          rw [settle_after middle]
          exact congrArg (fun ended => (ended.1.map (outline ++ ·), ended.2)) looped
  | case3 parser next =>
      exact ⟨_, _, .stop (Bool.not_eq_true _ ▸ next), settle_here.symm⟩

/-- On every parser a level does what one loop does: with the same value or diagnostic, the same cursor
and the same frontier. -/
theorem rule_binaryExpr (own : String) (level : Level) (parser : Parser) :
    Parser.rule own (.binaryExpr level) parser = flatExpr own level parser := by
  obtain ⟨outcome, log, nested, settled⟩ := rule_settled own (.binaryExpr level) parser
  obtain ⟨first, before, operand, taken⟩ := rule_settled own .unaryExpr parser
  have flat := nested.flat_of_binaryExpr
  rw [settled]
  unfold flatExpr
  rw [taken]
  cases first with
  | fail failure =>
      obtain ⟨rfl, rfl⟩ := flat.unique (.seqFail operand)
      rfl
  | ok middle outline =>
      let after : Parser := { parser.note before with position := middle }
      obtain ⟨rest, more, further, looped⟩ := flatLoop_settled own level after
      dsimp only [after] at further
      rw [(Notes.note parser before).stream] at further
      obtain ⟨rfl, rfl⟩ := flat.unique (.seqOk operand (Reads.iff_further.mpr further))
      rw [settle_after middle]
      exact congrArg (fun ended => (ended.1.map (outline ++ ·), ended.2)) looped.symm

/-- An expression is one loop that takes all thirteen operators. -/
theorem rule_expr (own : String) (parser : Parser) :
    Parser.rule own .expr parser = flatExpr own .logicalOr parser := by
  rw [← rule_binaryExpr, rule_eq_run, rule_eq_run]
  have read := (Rule.binaryExpr .logicalOr).reads_read parser.stream own parser.position
  exact run_congr rfl rfl (.rule read) read

end Parser

end ClassSyntax

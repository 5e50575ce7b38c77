import ClassSyntax.Proofs.Language.Trials
import ClassSyntax.Proofs.Statements.Running

/-!
# Calls as statements and as expressions

A call is read by the rule of simple statements, and by the rule of primary expressions. Both read its
target and its first arguments, but a simple statement then goes on as if the arguments were still to
come. So they read the same call unless other arguments stand right behind the first ones.

* `accepts_target`: a target is read wherever one starts.
* `reads_simpleStmt_of_primaryExpr`: a call is read alike by both rules.
* `call_statement_is_call_expression`: when they agree, and what they do when they do not.
-/

namespace ClassSyntax

variable {stream : TokenStream} {own : String} {start : Nat}

/-! ## Targets -/

/-- A point that no identifier follows is left alone, so nothing can be missing behind a name. -/
theorem Reads.dottedNames_succeeds {phrase : Phrase} {outcome : Outcome} {log : List Failure}
    (read : Reads stream own phrase start outcome log) (names : phrase = Phrase.dottedNames) :
    outcome.succeeds = true := by
  induction read with
  | whileStop => rfl
  | whileMore _ _ _ _ ihRest => rw [Outcome.succeeds_after, ihRest names]
  | whileFail next round =>
      obtain ⟨rfl, rfl⟩ := Phrase.whileNext.inj names
      -- a round is entered only when both of its tokens are there
      simp only [TokenStream.startsWith, Bool.and_eq_true, and_true] at next
      obtain ⟨passed, -⟩ := round.unique (.seqOk (.expectFound next.1) (.expectFound next.2))
      exact Outcome.noConfusion passed
  | _ => exact Phrase.noConfusion names

theorem reads_dottedNames (stream : TokenStream) (own : String) (start : Nat) :
    ∃ stop outline log, Reads stream own Phrase.dottedNames start (.ok stop outline) log := by
  have progressive : Phrase.dottedNames.progressive = true := rfl
  obtain ⟨outcome, log, read⟩ := Reads.total stream progressive start own
  cases outcome with
  | ok stop outline => exact ⟨stop, outline, log, read⟩
  | fail failure => exact nomatch read.dottedNames_succeeds rfl

/-- A target is read wherever one starts. -/
theorem accepts_target (named : First.target.allow (stream.get start) = true) :
    ∃ stop outline, Accepts stream own (.rule .target) start stop outline := by
  obtain ⟨stop, outline, log, names⟩ := reads_dottedNames stream own (start + 1)
  cases keyword : stream.startsWith [[.keyword "this", .keyword "super"]] start with
  | true =>
      have found := keyword
      rw [startsWith_singleton] at found
      exact ⟨stop, _, _, .rule (.ifNextYes keyword (.seqOk (.expectFound found) names))⟩
  | false =>
      have other := keyword
      rw [startsWith_singleton] at other
      rw [show First.target = [.identifier] ++ [.keyword "this", .keyword "super"] from rfl,
        Terminals.allow_append, other, Bool.or_false] at named
      exact ⟨stop, _, _, .rule (.ifNextNo keyword (.rule (.seqOk (.expectFound named) names)))⟩

/-! ## Calls -/

/-- Behind its first arguments a call goes on with members, which may have arguments of their own. -/
def Phrase.members : Phrase :=
  whileToken (.mark ".") (seq (identifier "member name") (optional [.mark "("] (rule .args)))

/-- Where no arguments come, a chain of calls is read as its members. -/
theorem reads_callChain_of_members {outcome : Outcome} {log : List Failure}
    (other : Terminals.allow [.mark "("] (stream.get start) = false)
    (members : Reads stream own Phrase.members start outcome log) :
    Reads stream own (.rule .callChain) start outcome log := by
  rw [← startsWith_singleton] at other
  have none : Reads stream own (Phrase.optional [.mark "("] (.rule .args)) start (.ok start .empty)
      [] := .ifNextNo other .done
  have chain := none.seqOk members
  rw [Outcome.after_empty, List.nil_append] at chain
  exact .rule chain

/-- A call with one list of arguments behind its target is read by a simple statement as it is by a
primary expression: with the same end, and missing the same things. -/
theorem reads_simpleStmt_of_primaryExpr {middle : Nat} {outline : Outline}
    {outcome : Outcome} {log : List Failure}
    (named : First.target.allow (stream.get start) = true)
    (target : Accepts stream own (.rule .target) start middle outline)
    (called : Terminals.allow [.mark "("] (stream.get middle) = true)
    (once : ∀ place inner, Accepts stream own (.rule .args) middle place inner →
      Terminals.allow [.mark "("] (stream.get place) = false)
    (read : Reads stream own (.rule .primaryExpr) start outcome log) :
    Reads stream own (.rule .simpleStmt) start outcome log := by
  have isTarget : stream.startsWith [First.target] start = true := by rwa [startsWith_singleton]
  have noStep : stream.startsWith [First.stepOperator] start = false :=
    Terminals.not_startsWith_of_apart (by decide) named
  have opening : stream.startsWith [[.mark "("]] middle = true := by rwa [startsWith_singleton]
  have noAssignment : stream.startsWith [First.assignmentOperator] middle = false :=
    Terminals.not_startsWith_of_apart (by decide) called
  have noLateStep : stream.startsWith [First.stepOperator] middle = false :=
    Terminals.not_startsWith_of_apart (by decide) called
  have inStatement : ∀ {outcome log}, Reads stream own (.seq (.rule .args) (.rule .callChain)) middle
      outcome log → Reads stream own Phrase.behindTarget middle outcome log :=
    fun read => .ifNextNo noAssignment (.ifNextNo noLateStep (.ifNextYes opening read))
  refine .rule (.ifNextNo noStep ?_)
  cases read with | rule read =>
  cases read with
  | ifNextNo other _ => exact Bool.noConfusion (isTarget.symm.trans other)
  | ifNextYes _ read =>
  cases read with
  | seqFail failed => exact absurd ⟨_, _, failed⟩ target.not_refuses
  | seqOk first chain =>
  obtain ⟨rfl, rfl⟩ := target.unique ⟨_, first⟩
  refine .seqOk first (inStatement ?_)
  cases chain with | rule chain =>
  cases chain with
  | seqFail failed =>
      cases failed with
      | ifNextNo other _ => exact Bool.noConfusion (opening.symm.trans other)
      | ifNextYes _ args => exact .seqFail args
  | seqOk args members =>
      cases args with
      | ifNextNo other _ => exact Bool.noConfusion (opening.symm.trans other)
      | @ifNextYes _ _ _ _ _ _ _ _ args =>
          -- behind the first arguments the statement looks for other ones, and finds none
          exact .seqOk args (reads_callChain_of_members (once _ _ ⟨_, args⟩) members)

/-! ## Calls with a second list of arguments -/

/-- A simple statement reads arguments behind the target of a call, and then a chain of calls. -/
theorem accepts_arguments_of_simpleStmt {middle stop : Nat} {outline outer : Outline}
    (named : First.target.allow (stream.get start) = true)
    (target : Accepts stream own (.rule .target) start middle outline)
    (called : Terminals.allow [.mark "("] (stream.get middle) = true)
    (accepted : Accepts stream own (.rule .simpleStmt) start stop outer) :
    ∃ rest, Accepts stream own (.seq (.rule .args) (.rule .callChain)) middle stop rest := by
  have statement := accepts_ifNext.mp (accepts_rule.mp accepted)
  rw [Terminals.not_startsWith_of_apart (by decide) named, if_neg (by decide)] at statement
  obtain ⟨place, _, rest, first, call, -⟩ := accepts_seq.mp statement
  obtain ⟨rfl, -⟩ := target.unique first
  have call := accepts_ifNext.mp call
  rw [Terminals.not_startsWith_of_apart (by decide) called, if_neg (by decide)] at call
  have call := accepts_ifNext.mp call
  rw [Terminals.not_startsWith_of_apart (by decide) called, if_neg (by decide)] at call
  have call := accepts_ifNext.mp call
  rw [startsWith_singleton, if_pos called] at call
  exact ⟨rest, call⟩

/-- With other arguments right behind the first ones, a primary expression stops in front of these. -/
theorem accepts_primaryExpr_of_twice {middle place : Nat} {outline inner : Outline}
    (named : First.target.allow (stream.get start) = true)
    (target : Accepts stream own (.rule .target) start middle outline)
    (args : Accepts stream own (.rule .args) middle place inner)
    (called : Terminals.allow [.mark "("] (stream.get middle) = true)
    (again : Terminals.allow [.mark "("] (stream.get place) = true) :
    ∃ outer, Accepts stream own (.rule .primaryExpr) start place outer := by
  obtain ⟨_, target⟩ := target
  obtain ⟨_, args⟩ := args
  have noPoint : stream.startsWith [[.mark "."]] place = false :=
    Terminals.not_startsWith_of_apart (by decide) again
  rw [← startsWith_singleton] at named called
  have first : Reads stream own (Phrase.optional [.mark "("] (.rule .args)) middle _ _ :=
    .ifNextYes called args
  have members : Reads stream own Phrase.members place _ _ := .whileStop noPoint
  have chain : Reads stream own (.rule .callChain) middle _ _ := .rule (first.seqOk members)
  exact ⟨_, _, .rule (.ifNextYes named (target.seqOk chain))⟩

/-- With other arguments right behind the first ones, a simple statement reads these as well. -/
theorem lt_of_simpleStmt_of_twice {middle place stop : Nat} {outline inner outer : Outline}
    (named : First.target.allow (stream.get start) = true)
    (target : Accepts stream own (.rule .target) start middle outline)
    (args : Accepts stream own (.rule .args) middle place inner)
    (called : Terminals.allow [.mark "("] (stream.get middle) = true)
    (again : Terminals.allow [.mark "("] (stream.get place) = true)
    (accepted : Accepts stream own (.rule .simpleStmt) start stop outer) : place < stop := by
  obtain ⟨_, call⟩ := accepts_arguments_of_simpleStmt named target called accepted
  obtain ⟨_, _, _, first, chain, -⟩ := accepts_seq.mp call
  obtain ⟨rfl, -⟩ := args.unique first
  obtain ⟨behind, _, _, others, members, -⟩ := accepts_seq.mp (accepts_rule.mp chain)
  have others := accepts_ifNext.mp others
  rw [startsWith_singleton, if_pos again] at others
  exact Nat.lt_of_lt_of_le (others.start_lt_stop rfl) members.start_le_stop

/-! ## The two rules on a parser -/

/-- Two rules with the same readings do the same on a parser. -/
theorem Parser.rule_eq_of_reads {left right : Rule} {parser : Parser}
    (same : ∀ outcome log, Reads parser.stream own (.rule left) parser.position outcome log →
      Reads parser.stream own (.rule right) parser.position outcome log) :
    Parser.rule own right parser = Parser.rule own left parser := by
  have read := left.reads_read parser.stream own parser.position
  rw [Parser.rule_eq_run, Parser.rule_eq_run]
  exact Parser.run_congr rfl rfl (same _ _ read) read

/-- Where a target stands that arguments follow, a simple statement is read as a primary expression is,
with the same result and in the same way, unless other arguments stand right behind the first ones. In that
case the expression is read up to these other arguments, and the statement, if it is read, goes beyond. -/
theorem call_statement_is_call_expression (own : String) (parser : Parser)
    (named : First.target.allow parser.current = true)
    (called : Terminals.allow [.mark "("] (Parser.rule own .target parser).2.current = true) :
    let simple := Parser.rule own .simpleStmt parser
    let primary := Parser.rule own .primaryExpr parser
    let arguments := Parser.rule own .args (Parser.rule own .target parser).2
    let twice := arguments.1.isOk = true ∧ Terminals.allow [.mark "("] arguments.2.current = true
    (¬ twice → simple = primary) ∧
      (twice → primary.1.isOk = true ∧ primary.2.position = arguments.2.position ∧
        (simple.1.isOk = true → primary.2.position < simple.2.position)) := by
  intro simple primary arguments twice
  obtain ⟨middle, outline, target⟩ : ∃ middle outline,
      Accepts parser.stream own (.rule .target) parser.position middle outline :=
    accepts_target named
  have stopped : (Parser.rule own .target parser).2.position = middle :=
    (Parser.isOk_of_accepts rfl target).2
  have behind : (Parser.rule own .target parser).2.stream = parser.stream := Parser.stream_run rfl
  have stream : arguments.2.stream = parser.stream := (Parser.stream_run rfl).trans behind
  have atTarget : (Parser.rule own .target parser).2.current = parser.stream.get middle := by
    rw [← behind, ← stopped]
    rfl
  have atArguments : arguments.2.current = parser.stream.get arguments.2.position := by
    rw [← stream]
    rfl
  have reads : ∀ place inner, Accepts parser.stream own (.rule .args) middle place inner →
      arguments.1.isOk = true ∧ arguments.2.position = place := by
    intro place inner args
    rw [← behind, ← stopped] at args
    exact Parser.isOk_of_accepts rfl args
  rw [atTarget] at called
  constructor
  · intro once
    refine Parser.rule_eq_of_reads fun outcome log read => ?_
    refine reads_simpleStmt_of_primaryExpr named target called (fun place inner args => ?_) read
    obtain ⟨well, rfl⟩ := reads place inner args
    rw [← Bool.not_eq_true, ← atArguments]
    exact fun again => once ⟨well, again⟩
  · rintro ⟨well, again⟩
    rw [atArguments] at again
    obtain ⟨inner, args⟩ := Parser.accepts_of_isOk rfl well
    rw [behind, stopped] at args
    obtain ⟨_, expression⟩ := accepts_primaryExpr_of_twice named target args called again
    obtain ⟨primaryWell, primaryStop⟩ := Parser.isOk_of_accepts rfl expression
    refine ⟨primaryWell, primaryStop, fun simpleWell => ?_⟩
    obtain ⟨_, statement⟩ := Parser.accepts_of_isOk rfl simpleWell
    exact primaryStop ▸ lt_of_simpleStmt_of_twice named target args called again statement

/-- The tokens of `f()();`. -/
def calledTwice : List Token :=
  [⟨.identifier, "f", 1⟩, ⟨.punctuation, "(", 1⟩, ⟨.punctuation, ")", 1⟩, ⟨.punctuation, "(", 1⟩,
    ⟨.punctuation, ")", 1⟩, ⟨.punctuation, ";", 1⟩]

/-- A call that is called again is a simple statement as a whole, and an expression up to its second
arguments only. -/
theorem calledTwice_is_not_expression :
    let parser := Parser.start calledTwice
    (First.target.allow parser.current = true ∧
        Terminals.allow [.mark "("] (Parser.rule "" .target parser).2.current = true) ∧
      (Parser.rule "" .simpleStmt parser).1.isOk = true ∧
      (Parser.rule "" .simpleStmt parser).2.position = 5 ∧
      (Parser.rule "" .primaryExpr parser).1.isOk = true ∧
      (Parser.rule "" .primaryExpr parser).2.position = 3 := by
  intro parser
  have target : Accepts parser.stream "" (.rule .target) parser.position 1 .empty :=
    .of_readWithin 1000 (by decide +kernel)
  have statement : Accepts parser.stream "" (.rule .simpleStmt) parser.position 5 .empty :=
    .of_readWithin 1000 (by decide +kernel)
  have args : Accepts parser.stream "" (.rule .args) 1 3 .empty :=
    .of_readWithin 1000 (by decide +kernel)
  have named : First.target.allow parser.current = true := by decide
  let behind := (Parser.rule "" .target parser).2
  have stream : behind.stream = parser.stream := Parser.stream_run rfl
  have atName : behind.position = 1 := (Parser.isOk_of_accepts rfl target).2
  have called : Terminals.allow [.mark "("] behind.current = true := by
    unfold Parser.current Parser.peek
    rw [stream, atName]
    decide
  have argsBehind : Accepts behind.stream "" (.rule .args) behind.position 3 .empty := by
    rwa [stream, atName]
  obtain ⟨argsWell, argsStop⟩ := Parser.isOk_of_accepts rfl argsBehind
  obtain ⟨simpleWell, simpleStop⟩ := Parser.isOk_of_accepts rfl statement
  have again : Terminals.allow [.mark "("] (Parser.rule "" .args behind).2.current = true := by
    have same : (Parser.rule "" .args behind).2.stream = parser.stream :=
      (Parser.stream_run rfl).trans stream
    have place : (Parser.rule "" .args behind).2.position = 3 := argsStop
    unfold Parser.current Parser.peek
    rw [same, place]
    decide
  obtain ⟨primaryWell, primaryStop, -⟩ :=
    (call_statement_is_call_expression "" parser named called).2 ⟨argsWell, again⟩
  exact ⟨⟨named, called⟩, simpleWell, simpleStop, primaryWell, primaryStop.trans argsStop⟩

end ClassSyntax

import ClassSyntax.Proofs.Frontier.History
import ClassSyntax.Proofs.Language.Completeness
import ClassSyntax.Proofs.Language.Soundness
import ClassSyntax.Proofs.Statements.Running

/-!
# The order of trials

A statement that starts with a name is tried as a declaration, as a simple statement and as an
expression, in this order. The order is for the diagnostics only: where several of these readings end
well they end in the same place.

* `Alternative.same_stop`: two alternatives that are accepted stop at the same token.
* `accepts_tried`: alternatives tried in any order accept what one of them accepts.
* `reads_tried_of_refused`: what is missing when all of them are refused.
* `trial_order_is_free`: the same on a parser.
-/

namespace ClassSyntax

open Phrase

/-- The ways to read a statement that starts with a name. -/
inductive Alternative where
  | declaration
  | simple
  | expression
  deriving DecidableEq, Repr

namespace Alternative

def phrase : Alternative → Phrase
  | declaration => rule .varDeclStmt
  | simple => seq (rule .simpleStmt) (mark ";")
  | expression => seq (rule .expr) (mark ";")

/-- The alternatives in the order in which a statement tries them. -/
def all : List Alternative := [declaration, simple, expression]

theorem mem_all (alternative : Alternative) : alternative ∈ all := by
  cases alternative <;> decide

theorem progressive (alternative : Alternative) : alternative.phrase.progressive = true := by
  cases alternative <;> rfl

/-- Alternatives tried one after the other, each from the start. -/
def tried : List Alternative → Phrase
  | [] => fail "statement"
  | alternative :: order => orElse alternative.phrase (tried order)

theorem progressive_tried (order : List Alternative) : (tried order).progressive = true := by
  induction order with
  | nil => rfl
  | cons alternative order ih =>
      show (alternative.phrase.progressive && (tried order).progressive) = true
      rw [alternative.progressive, ih]
      rfl

end Alternative

variable {stream : TokenStream} {own : String} {start stop : Nat} {outline : Outline}

/-! ## Words of the alternatives -/

/-- A phrase and its semicolon are read as a word of the phrase, with the semicolon behind. -/
theorem Accepts.isWord_of_terminated {phrase : Phrase}
    (accepted : Accepts stream own (.seq phrase (mark ";")) start stop outline)
    (fruitful : phrase.fruitful = true) (quiet : phrase.covering.quiet = true) :
    ∃ word middle, IsWord own phrase.covering word ∧ Spells stream start word middle ∧
      (Terminal.mark ";").admits (stream.get middle) = true ∧ stop = middle + 1 ∧
        outline = .empty := by
  obtain ⟨middle, left, _, inner, semicolon, rfl⟩ := accepts_seq.mp accepted
  obtain ⟨admitted, rfl, rfl⟩ := accepts_expect.mp semicolon
  obtain ⟨word, spells, derived⟩ := inner.derives fruitful
  obtain ⟨rfl, isWord⟩ := derived.isWord quiet
  exact ⟨word, middle, isWord, spells, by simpa using admitted, rfl, rfl⟩

/-! ## At most one way to read a statement -/

namespace Alternative

/-- What is read as a simple statement or as an expression is not read as a declaration. -/
theorem refuses_declaration {other : Alternative} (different : other ≠ declaration)
    (accepted : Accepts stream own other.phrase start stop outline) :
    Refuses stream own declaration.phrase start := by
  refine refuses_rule.mpr (refuses_seq_of_first (refuses_rule.mpr ?_))
  cases other with
  | declaration => exact absurd rfl different
  | simple =>
      obtain ⟨word, _, isWord, spells, -⟩ := accepted.isWord_of_terminated (by decide) (by decide)
      exact refuses_varDecl_of_simple (Rule.typeName.exactOn stream _) (Nat.le_refl _) isWord spells
  | expression =>
      obtain ⟨word, _, isWord, spells, ended, -⟩ :=
        accepted.isWord_of_terminated (by decide) (by decide)
      exact refuses_varDecl_of_expr (Rule.typeName.exactOn stream _) (Nat.le_refl _) isWord spells
        ended

/-- What is read both as a simple statement and as an expression is read up to the same semicolon. -/
theorem simple_unique_expression {other : Nat} {another : Outline}
    (asSimple : Accepts stream own simple.phrase start stop outline)
    (asExpression : Accepts stream own expression.phrase start other another) :
    stop = other ∧ outline = another := by
  obtain ⟨word, middle, isWord, spells, ended, rfl, rfl⟩ :=
    asExpression.isWord_of_terminated (by decide) (by decide)
  rcases simple_or_refuses (rulesExact stream _ _) (Nat.le_refl _) isWord spells ended with
    accepted | refused
  · exact asSimple.unique accepted
  · exact absurd refused asSimple.not_refuses

/-- Two alternatives that are accepted are read alike, and if one is the declaration so is the other. -/
theorem same_stop {one other : Alternative} {place : Nat} {another : Outline}
    (first : Accepts stream own one.phrase start stop outline)
    (second : Accepts stream own other.phrase start place another) :
    (one = declaration ↔ other = declaration) ∧ stop = place ∧ outline = another := by
  by_cases declared : one = declaration
  · subst declared
    by_cases same : other = declaration
    · subst same
      exact ⟨Iff.rfl, first.unique second⟩
    · exact absurd (refuses_declaration same second) first.not_refuses
  · by_cases same : other = declaration
    · subst same
      exact absurd (refuses_declaration declared first) second.not_refuses
    · refine ⟨iff_of_false declared same, ?_⟩
      cases one with
      | declaration => exact absurd rfl declared
      | simple =>
          cases other with
          | declaration => exact absurd rfl same
          | simple => exact first.unique second
          | expression => exact simple_unique_expression first second
      | expression =>
          cases other with
          | declaration => exact absurd rfl same
          | simple => exact (simple_unique_expression second first).imp Eq.symm Eq.symm
          | expression => exact first.unique second

end Alternative

/-! ## Alternatives in any order -/

section

variable {order : List Alternative}

/-- Alternatives tried in any order accept what one of them accepts. -/
theorem accepts_tried :
    Accepts stream own (Alternative.tried order) start stop outline ↔
      ∃ alternative ∈ order, Accepts stream own alternative.phrase start stop outline := by
  induction order with
  | nil =>
      constructor
      · exact fun accepted => absurd accepted not_accepts_fail
      · exact fun ⟨_, member, _⟩ => absurd member List.not_mem_nil
  | cons head order ih =>
      refine accepts_orElse.trans ?_
      rw [List.exists_mem_cons_iff, ← ih]
      constructor
      · rintro (first | ⟨-, later⟩)
        · exact .inl first
        · exact .inr later
      · rintro (first | later)
        · exact .inl first
        · -- an accepted trial in front of it is read alike
          obtain ⟨_, _, accepted⟩ := ih.mp later
          rcases accepts_or_refuses stream own head.progressive start with
            ⟨place, another, before⟩ | refused
          · obtain ⟨-, rfl, rfl⟩ := Alternative.same_stop before accepted
            exact .inl before
          · exact .inr ⟨refused, later⟩

/-- When all alternatives are refused a statement is missing at the start, and all that the alternatives
have missed is noted. -/
theorem reads_tried_of_refused
    (refused : ∀ alternative ∈ order, Refuses stream own alternative.phrase start) :
    ∃ log, Reads stream own (Alternative.tried order) start (.fail ⟨start, "statement"⟩) log ∧
      ∀ alternative ∈ order, ∀ outcome missed,
        Reads stream own alternative.phrase start outcome missed → missed ⊆ log := by
  induction order with
  | nil => exact ⟨_, .fail, fun _ member => absurd member List.not_mem_nil⟩
  | cons head order ih =>
      obtain ⟨⟨_, begun, first⟩, others⟩ := List.forall_mem_cons.mp refused
      obtain ⟨log, read, noted⟩ := ih others
      refine ⟨begun ++ log, .orElseSecond first read, List.forall_mem_cons.mpr ⟨?_, ?_⟩⟩
      · intro outcome missed again
        obtain ⟨-, rfl⟩ := first.unique again
        exact List.subset_append_left _ _
      · intro alternative member outcome missed again
        exact List.Subset.trans (noted alternative member outcome missed again)
          (List.subset_append_right _ _)

end

/-! ## Trials on a parser -/

namespace Parser

/-- Reads a statement in one of the ways. -/
def tryOne (own : String) (alternative : Alternative) : Parse Outline :=
  run own alternative.phrase alternative.progressive

/-- Tries to read a statement in these ways, in this order. -/
def tryAll (own : String) (order : List Alternative) : Parse Outline :=
  run own (Alternative.tried order) (Alternative.progressive_tried order)

/-- A statement that starts with a name is tried as a declaration, a simple statement and an expression. -/
theorem rule_trialStmt (own : String) (parser : Parser) :
    Parser.rule own .trialStmt parser = tryAll own Alternative.all parser := by
  have read := (Alternative.tried Alternative.all).reads_read parser.stream own
    (Alternative.progressive_tried _) parser.position
  rw [rule_eq_run]
  -- the body of the rule is the trials of all alternatives
  exact run_congr _ _ (Reads.rule read) read

variable {parser : Parser} {order : List Alternative}

/-- Two ways to read a statement end in the same place, and if one is the declaration so is the other. -/
theorem position_tryOne {one other : Alternative} (first : (tryOne own one parser).1.isOk = true)
    (second : (tryOne own other parser).1.isOk = true) :
    (one = .declaration ↔ other = .declaration) ∧
      (tryOne own one parser).2.position = (tryOne own other parser).2.position := by
  obtain ⟨_, left⟩ := accepts_of_isOk one.progressive first
  obtain ⟨_, right⟩ := accepts_of_isOk other.progressive second
  obtain ⟨declared, same, -⟩ := Alternative.same_stop left right
  exact ⟨declared, same⟩

/-- Trials in any order end where one of the alternatives ends, if one ends well. -/
theorem tryAll_of_isOk {alternative : Alternative} (listed : alternative ∈ order)
    (well : (tryOne own alternative parser).1.isOk = true) :
    (tryAll own order parser).1.isOk = true ∧
      (tryAll own order parser).2.position = (tryOne own alternative parser).2.position := by
  obtain ⟨_, accepted⟩ := accepts_of_isOk alternative.progressive well
  exact isOk_of_accepts (Alternative.progressive_tried order)
    (accepts_tried.mpr ⟨alternative, listed, accepted⟩)

theorem isOk_tryAll :
    (tryAll own order parser).1.isOk = true ↔
      ∃ alternative ∈ order, (tryOne own alternative parser).1.isOk = true := by
  constructor
  · intro well
    obtain ⟨_, accepted⟩ := accepts_of_isOk (Alternative.progressive_tried order) well
    obtain ⟨alternative, listed, accepted⟩ := accepts_tried.mp accepted
    exact ⟨alternative, listed, (isOk_of_accepts alternative.progressive accepted).1⟩
  · rintro ⟨alternative, listed, well⟩
    exact (tryAll_of_isOk listed well).1

/-- When no alternative ends well a statement is missing at the start, and outside lookahead the frontier
ends up no earlier than any of the alternatives. -/
theorem tryAll_of_failed
    (failed : ∀ alternative ∈ order, (tryOne own alternative parser).1.isOk = false) :
    (tryAll own order parser).1 = .error (Diagnostic.missing parser.current "statement") ∧
      (tryAll own order parser).2.position = parser.position ∧
      (parser.depth = 0 → ∀ alternative ∈ order,
        (tryOne own alternative parser).2.position ≤
            (tryAll own order parser).2.frontier.position ∧
          (tryOne own alternative parser).2.frontier.position ≤
            (tryAll own order parser).2.frontier.position) := by
  have refused : ∀ alternative ∈ order,
      Refuses parser.stream own alternative.phrase parser.position :=
    fun alternative listed => refuses_of_isOk alternative.progressive (failed alternative listed)
  obtain ⟨log, read, noted⟩ := reads_tried_of_refused refused
  obtain ⟨-, stopped, frontier, error⟩ := run_of_reads (Alternative.progressive_tried order) read
  refine ⟨error _ rfl, stopped, fun outside alternative listed => ?_⟩
  obtain ⟨failure, missed, trial⟩ := refused alternative listed
  obtain ⟨-, place, reach, -⟩ := run_of_reads alternative.progressive trial
  have inside := noted alternative listed _ _ trial
  obtain ⟨before, reached⟩ := parser.frontier.position_le_noteAll log
  unfold tryOne tryAll
  rw [frontier, place, reach, frontier_note_of_outside outside, frontier_note_of_outside outside]
  refine ⟨reached failure (inside (trial.failure_mem rfl)), ?_⟩
  rcases parser.frontier.position_noteAll_mem missed with kept | ⟨further, member, moved⟩
  · rw [kept]
    exact before
  · rw [moved]
    exact reached further (inside member)

end Parser

/-- A statement that starts with a name is never a declaration and something else, and where it is a simple
statement and an expression it ends in the same place. So the ways to read it may be tried in any order:
this succeeds when one of them does and ends where that one ends, and when all fail a statement is missing
at its start and the frontier is no earlier than any of their failures. -/
theorem trial_order_is_free (own : String) (parser : Parser) :
    (∀ one other, (Parser.tryOne own one parser).1.isOk = true →
        (Parser.tryOne own other parser).1.isOk = true →
          (one = .declaration ↔ other = .declaration) ∧
            (Parser.tryOne own one parser).2.position =
              (Parser.tryOne own other parser).2.position) ∧
      ∀ order : List Alternative, order.Perm Alternative.all →
        let statement := Parser.rule own .trialStmt parser
        let ended := Parser.tryAll own order parser
        (ended.1.isOk = statement.1.isOk ∧ ended.2.position = statement.2.position) ∧
          (ended.1.isOk = true ↔
            ∃ alternative, (Parser.tryOne own alternative parser).1.isOk = true) ∧
          (ended.1.isOk = false →
            ended.1 = .error (Diagnostic.missing parser.current "statement") ∧
              ended.2.position = parser.position ∧
              (parser.depth = 0 → ∀ alternative,
                (Parser.tryOne own alternative parser).2.position ≤
                    ended.2.frontier.position ∧
                  (Parser.tryOne own alternative parser).2.frontier.position ≤
                    ended.2.frontier.position)) := by
  refine ⟨fun one other => Parser.position_tryOne, fun order permuted => ?_⟩
  intro statement ended
  have listed : ∀ alternative, alternative ∈ order :=
    fun alternative => permuted.mem_iff.mpr alternative.mem_all
  have inOrder : statement = Parser.tryAll own Alternative.all parser :=
    Parser.rule_trialStmt own parser
  have wellWhen : ended.1.isOk = true ↔
      ∃ alternative, (Parser.tryOne own alternative parser).1.isOk = true :=
    Parser.isOk_tryAll.trans (exists_congr fun alternative => and_iff_right (listed alternative))
  cases well : ended.1.isOk with
  | true =>
      obtain ⟨alternative, one⟩ := wellWhen.mp well
      have here := Parser.tryAll_of_isOk (listed alternative) one
      have there := Parser.tryAll_of_isOk alternative.mem_all one
      rw [inOrder]
      exact ⟨⟨there.1.symm, here.2.trans there.2.symm⟩, iff_of_true rfl ⟨alternative, one⟩, nofun⟩
  | false =>
      have failed : ∀ alternative, (Parser.tryOne own alternative parser).1.isOk = false := by
        intro alternative
        rw [← Bool.not_eq_true]
        exact fun one => Bool.noConfusion (well.symm.trans (wellWhen.mpr ⟨alternative, one⟩))
      obtain ⟨missing, back, deepest⟩ :=
        Parser.tryAll_of_failed fun alternative (_ : alternative ∈ order) => failed alternative
      obtain ⟨missed, stayed, -⟩ :=
        Parser.tryAll_of_failed fun alternative (_ : alternative ∈ Alternative.all) =>
          failed alternative
      rw [inOrder, missed, stayed]
      refine ⟨⟨rfl, back⟩, iff_of_false nofun fun ⟨alternative, one⟩ => ?_, fun _ =>
        ⟨missing, back, fun outside alternative => deepest outside alternative (listed _)⟩⟩
      exact Bool.noConfusion ((failed alternative).symm.trans one)

/-- The tokens of `f();`. -/
def callStatement : List Token :=
  [⟨.identifier, "f", 1⟩, ⟨.punctuation, "(", 1⟩, ⟨.punctuation, ")", 1⟩, ⟨.punctuation, ";", 1⟩]

/-- A call is a simple statement and an expression, and is also read when it is tried as an expression
first. -/
theorem callStatement_in_other_order :
    let parser := Parser.start callStatement
    let backwards : List Alternative := [.expression, .simple, .declaration]
    ((Parser.tryOne "" .simple parser).1.isOk = true ∧
        (Parser.tryOne "" .expression parser).1.isOk = true ∧ backwards.Perm Alternative.all) ∧
      (Parser.tryOne "" .simple parser).2.position = (Parser.tryOne "" .expression parser).2.position ∧
      (Parser.tryAll "" backwards parser).1.isOk = true := by
  intro parser backwards
  have semicolon : Accepts parser.stream "" (mark ";") 3 4 .empty :=
    accepts_expect.mpr ⟨by decide, rfl, rfl⟩
  have statement : Accepts parser.stream "" (rule .simpleStmt) parser.position 3 .empty :=
    .of_readWithin 1000 (by decide +kernel)
  have value : Accepts parser.stream "" (rule .expr) parser.position 3 .empty :=
    .of_readWithin 1000 (by decide +kernel)
  have asSimple := (Parser.isOk_of_accepts (Alternative.progressive .simple)
    (statement.seq semicolon)).1
  have asExpression := (Parser.isOk_of_accepts (Alternative.progressive .expression)
    (value.seq semicolon)).1
  obtain ⟨agree, anyOrder⟩ := trial_order_is_free "" parser
  have permuted : backwards.Perm Alternative.all := by decide
  exact ⟨⟨asSimple, asExpression, permuted⟩, (agree _ _ asSimple asExpression).2,
    (anyOrder backwards permuted).2.1.mpr ⟨.simple, asSimple⟩⟩

end ClassSyntax

import ClassSyntax.Proofs.Expressions.Brackets
import ClassSyntax.Proofs.Expressions.Ladder
import ClassSyntax.Proofs.Language.Soundness

/-!
# Operands joined by operators

What one loop over unary expressions takes: operands with operators between them. An expression of a level
ends in front of the first operator that is looser and stands outside the brackets of its operands.

* `accepts_binaryExpr_iff`: what is read as an expression of a level.
* `Operands.upTo`: where the expression of a level stops among operands joined by any operators.
* `Operands.outside`: which operators stand outside the brackets.
* `level_is_one_loop`: the same on a parser.
-/

namespace ClassSyntax

variable {stream : TokenStream} {own : String} {operators : Terminals} {start stop : Nat}

/-- Unary expressions from `start` to `stop`, with an operator of the set between each two. -/
inductive Operands (stream : TokenStream) (own : String) (operators : Terminals) : Nat → Nat → Prop
  | one {start stop : Nat} {outline : Outline} :
      Accepts stream own (.rule .unaryExpr) start stop outline →
      Operands stream own operators start stop
  | more {start middle stop : Nat} {outline : Outline} :
      Accepts stream own (.rule .unaryExpr) start middle outline →
      operators.allow (stream.get middle) = true →
      Operands stream own operators (middle + 1) stop → Operands stream own operators start stop

/-! ## What is read as operands -/

theorem operands_of_further {outline before : Outline} {middle : Nat} {log : List Failure}
    (operand : Accepts stream own (.rule .unaryExpr) start middle before)
    (further : Further stream own operators (.rule .unaryExpr) middle (.ok stop outline) log) :
    Operands stream own operators start stop := by
  generalize ended : Outcome.ok stop outline = outcome at further
  induction further generalizing start before outline with
  | stop =>
      obtain ⟨rfl, -⟩ := Outcome.ok.inj ended
      exact .one operand
  | more next read _ ih =>
      obtain ⟨_, rfl, -⟩ := Outcome.after_eq_ok.mp ended.symm
      exact .more operand next (ih ⟨_, read⟩ rfl)
  | wrong => exact Outcome.noConfusion ended

theorem Operands.accepts_joined (operands : Operands stream own operators start stop)
    (last : operators.allow (stream.get stop) = false) :
    ∃ outline, Accepts stream own (Phrase.joined operators (.rule .unaryExpr)) start stop outline := by
  have further : ∃ middle before outline log,
      Accepts stream own (.rule .unaryExpr) start middle before ∧
        Further stream own operators (.rule .unaryExpr) middle (.ok stop outline) log := by
    induction operands with
    | one operand => exact ⟨_, _, _, _, operand, .stop last⟩
    | more operand next _ ih =>
        obtain ⟨_, _, _, _, ⟨_, read⟩, further⟩ := ih last
        exact ⟨_, _, _, _, operand, .more next read further⟩
  obtain ⟨_, _, _, _, operand, further⟩ := further
  exact ⟨_, operand.seq ⟨_, Reads.iff_further.mpr further⟩⟩

/-- An expression of a level is operands with operators of the level and of tighter ones between them, up to
where no such operator comes next. -/
theorem accepts_binaryExpr_iff {level : Level} :
    (∃ outline, Accepts stream own (.rule (.binaryExpr level)) start stop outline) ↔
      Operands stream own level.reach start stop ∧ level.reach.allow (stream.get stop) = false := by
  constructor
  · rintro ⟨outline, _, read⟩
    obtain ⟨middle, before, rest, operand, ⟨_, further⟩, rfl⟩ :=
      accepts_seq.mp ⟨_, read.flat_of_binaryExpr⟩
    have further := Reads.iff_further.mp further
    exact ⟨operands_of_further operand further, further.stops⟩
  · rintro ⟨operands, last⟩
    obtain ⟨outline, flat⟩ := operands.accepts_joined last
    have progressive : (Phrase.rule (.binaryExpr level)).progressive = true := rfl
    obtain ⟨outcome, log, read⟩ := Reads.total stream progressive start own
    obtain ⟨_, expression⟩ := flat
    obtain ⟨rfl, -⟩ := read.flat_of_binaryExpr.unique expression
    exact ⟨outline, log, read⟩

/-- Among operands joined by any operators, an expression of a level ends in front of the first looser
operator. -/
theorem Operands.upTo {level : Level} {last : Nat}
    (operands : Operands stream own Form.binaryOperators start last)
    (ended : Form.binaryOperators.allow (stream.get last) = false) :
    ∃ stop, Operands stream own level.reach start stop ∧
      level.reach.allow (stream.get stop) = false ∧
        (stop = last ∨ Form.binaryOperators.allow (stream.get stop) = true ∧
          Operands stream own Form.binaryOperators (stop + 1) last) := by
  have inside : level.reach.within Form.binaryOperators = true := by cases level <;> decide
  induction operands with
  | one operand => exact ⟨_, .one operand, Terminals.not_allow_of_within inside ended, .inl rfl⟩
  | @more start middle _ _ operand next rest ih =>
      cases tight : level.reach.allow (stream.get middle) with
      | true =>
          obtain ⟨stop, operands, settled, left⟩ := ih ended
          exact ⟨stop, .more operand tight operands, settled, left⟩
      | false => exact ⟨middle, .one operand, tight, .inr ⟨next, rest⟩⟩

/-! ## Operators outside the brackets -/

/-- Outside the brackets of the word, every binary operator that stands behind an operand is one of these. -/
def Exposed (operators : Terminals) (word : List Token) : Prop :=
  ∀ before token after, word = before ++ token :: after → nesting before = 0 →
    (∃ last ∈ before.getLast?, last.kind ≠ .operator) →
      Form.binaryOperators.allow token = true → operators.allow token = true

theorem kind_of_operator {symbols : List String} {token : Token}
    (allowed : Terminals.allow (symbols.map Terminal.operator) token = true) :
    token.kind = .operator := by
  obtain ⟨terminal, member, admitted⟩ := Terminals.allow_iff.mp allowed
  obtain ⟨symbol, -, rfl⟩ := List.mem_map.mp member
  exact (Terminal.admits_spelled.mp admitted).2.1

/-- Behind an operator no other operator stands behind an operand. -/
theorem Exposed.behind {head : Token} {word : List Token} (isOperator : head.kind = .operator)
    (flat : head.bracket = 0) (exposed : Exposed operators word) :
    Exposed operators (head :: word) := by
  rintro before token after same outside ⟨last, isLast, other⟩ allowed
  cases before with
  | nil => exact absurd isLast (by simp)
  | cons first before =>
      obtain ⟨rfl, rest⟩ := List.cons.inj same
      rw [nesting_cons, flat, Int.zero_add] at outside
      cases before with
      | nil =>
          obtain rfl : head = last := by simpa using isLast
          exact absurd isOperator other
      | cons second before =>
          rw [List.getLast?_cons_cons] at isLast
          exact exposed (second :: before) token after rest outside ⟨last, isLast, other⟩ allowed

theorem Exposed.append {left right : List Token} (settles : nesting left = 0)
    (first : Exposed operators left) (second : Exposed operators right)
    (joined : ∀ token ∈ right.head?, operators.allow token = true) :
    Exposed operators (left ++ right) := by
  rintro before token after same outside ⟨last, isLast, other⟩ allowed
  rcases List.append_eq_append_iff.mp same with ⟨inside, rfl, rest⟩ | ⟨inside, rfl, rest⟩
  · cases inside with
    | nil =>
        rw [List.nil_append] at rest
        exact joined token (by rw [rest]; rfl)
    | cons head inside =>
        rw [nesting_append, settles, Int.zero_add] at outside
        rw [List.getLast?_append_of_ne_nil _ (List.cons_ne_nil _ _)] at isLast
        exact second (head :: inside) token after rest outside ⟨last, isLast, other⟩ allowed
  · cases inside with
    | nil =>
        rw [List.nil_append] at rest
        exact joined token (by rw [← rest]; rfl)
    | cons head inside =>
        obtain ⟨rfl, -⟩ := List.cons.inj rest
        exact first before token inside rfl outside ⟨last, isLast, other⟩ allowed

/-- In a unary expression no binary operator stands behind an operand outside the brackets. -/
theorem exposed_of_isWord_unary {word : List Token} (isWord : IsWord own (.symbol .unary) word) :
    Exposed operators word := by
  -- by induction on the number of signs
  induction length : word.length using Nat.strongRecOn generalizing word with
  | ind _ ih =>
      subst length
      rcases isWord_alt.mp (isWord_symbol.mp isWord) with signed | isPrimary
      · obtain ⟨sign, rest, isSign, isUnary, rfl⟩ := isWord_seq.mp signed
        obtain ⟨sign, allowed, rfl⟩ := isWord_token.mp isSign
        have flat : sign.bracket = 0 := Terminals.bracket_of_allow (by decide) allowed
        exact (ih rest.length (by simp) isUnary rfl).behind (kind_of_operator allowed) flat
      · intro before token after same outside _ allowed
        have shielded := Derives.shielded isPrimary rfl ⟨before, after, same, by rwa [Int.zero_add]⟩
        exact Bool.noConfusion (allowed.symm.trans shielded)

theorem Accepts.exists_operand {outline : Outline}
    (operand : Accepts stream own (.rule .unaryExpr) start stop outline) :
    ∃ word, Spells stream start word stop ∧ nesting word = 0 ∧ Exposed operators word := by
  obtain ⟨word, spells, derived⟩ := operand.derives rfl
  obtain ⟨rfl, isWord⟩ := Derives.isWord rfl derived
  exact ⟨word, spells, (derived.sways rfl).settles, exposed_of_isWord_unary isWord⟩

/-- Outside their brackets, the operators behind operands are those that join them. -/
theorem Operands.exposed (operands : Operands stream own operators start stop)
    (binary : operators.within Form.binaryOperators = true) :
    ∃ word, Spells stream start word stop ∧ nesting word = 0 ∧ Exposed operators word := by
  have symbols : Form.binaryOperators =
      (Level.all.flatMap Level.operators).map Terminal.operator := by decide
  induction operands with
  | one operand => exact operand.exists_operand
  | @more _ middle _ _ operand next _ ih =>
      obtain ⟨left, first, settles, exposed⟩ :
          ∃ word, Spells stream _ word middle ∧ nesting word = 0 ∧ Exposed operators word :=
        operand.exists_operand
      obtain ⟨right, second, flat, others⟩ := ih
      have isBinary := Terminals.allow_of_within binary next
      have bracket : (stream.get middle).bracket = 0 :=
        Terminals.bracket_of_allow (by decide) isBinary
      rw [symbols] at isBinary
      refine ⟨left ++ stream.get middle :: right, first.append ⟨rfl, second⟩, ?_, ?_⟩
      · rw [nesting_append, nesting_cons, settles, bracket, flat]
        rfl
      · refine exposed.append settles (others.behind (kind_of_operator isBinary) bracket) ?_
        simpa using next

/-- Outside the brackets that were opened since the start, no other operator stands behind an operand. -/
theorem Operands.outside (operands : Operands stream own operators start stop)
    (binary : operators.within Form.binaryOperators = true) {place : Nat} {word : List Token}
    (spells : Spells stream start word place) (closed : nesting word = 0) (behind : start < place)
    (before : place < stop) (operand : (stream.get (place - 1)).kind ≠ .operator)
    (allowed : Form.binaryOperators.allow (stream.get place) = true) :
    operators.allow (stream.get place) = true := by
  obtain ⟨whole, all, -, exposed⟩ := operands.exposed binary
  obtain ⟨after, same, -⟩ := spells.split all before
  obtain ⟨last, isLast, rfl⟩ := spells.exists_last behind
  exact exposed word _ after same closed ⟨_, isLast, operand⟩ allowed

/-! ## Expressions on a parser -/

/-- An expression of a level is read on every parser as one loop over unary expressions reads it: with the
same value or diagnostic, the same cursor and the same frontier. It is read up to some token exactly when
operands stand up to there that operators of the level and tighter ones join, and no such operator comes
next. Behind an operand and outside the brackets opened since its start it holds no looser operator, and it
closes these brackets. Where any of the thirteen operators join operands, all of it is an expression, and the
expression of the level ends in front of the first looser operator. -/
theorem level_is_one_loop (own : String) (level : Level) (parser : Parser) :
    let stream := parser.stream
    let start := parser.position
    let reads (rule : Rule) (stop : Nat) : Prop :=
      (Parser.rule own rule parser).1.isOk = true ∧ (Parser.rule own rule parser).2.position = stop
    (Parser.rule own (.binaryExpr level) parser = Parser.flatExpr own level parser ∧
        Parser.rule own .expr parser = Parser.flatExpr own .logicalOr parser) ∧
      (∀ stop, reads (.binaryExpr level) stop ↔ Operands stream own level.reach start stop ∧
        level.reach.allow (stream.get stop) = false) ∧
      (∀ stop, reads (.binaryExpr level) stop →
        (∃ word, Spells stream start word stop ∧ nesting word = 0) ∧
          ∀ place word, Spells stream start word place → nesting word = 0 → start < place →
            place < stop → (stream.get (place - 1)).kind ≠ .operator →
              Form.binaryOperators.allow (stream.get place) = true →
                level.reach.allow (stream.get place) = true) ∧
      ∀ last, Operands stream own Form.binaryOperators start last →
        Form.binaryOperators.allow (stream.get last) = false →
          reads .expr last ∧ ∃ stop, reads (.binaryExpr level) stop ∧
            (stop = last ∨ Form.binaryOperators.allow (stream.get stop) = true ∧
              Operands stream own Form.binaryOperators (stop + 1) last) := by
  intro stream start reads
  have binary : level.reach.within Form.binaryOperators = true := by cases level <;> decide
  have readsIff : ∀ {rule stop}, reads rule stop ↔
      ∃ outline, Accepts stream own (.rule rule) start stop outline :=
    Parser.isOk_iff_accepts rfl
  refine ⟨⟨Parser.rule_binaryExpr own level parser, Parser.rule_expr own parser⟩,
    fun stop => readsIff.trans accepts_binaryExpr_iff, fun stop read => ?_, fun last operands ended => ⟨?_, ?_⟩⟩
  · obtain ⟨operands, -⟩ := accepts_binaryExpr_iff.mp (readsIff.mp read)
    obtain ⟨word, spells, closed, -⟩ := operands.exposed binary
    exact ⟨⟨word, spells, closed⟩, fun _ _ spells closed behind before operand allowed =>
      operands.outside binary spells closed behind before operand allowed⟩
  · -- the loosest level takes all the operators
    rw [← Level.reach_logicalOr] at operands ended
    obtain ⟨outline, accepted⟩ := accepts_binaryExpr_iff.mpr ⟨operands, ended⟩
    exact readsIff.mpr ⟨outline, accepts_rule.mpr accepted⟩
  · obtain ⟨stop, upTo, settled, left⟩ :
        ∃ stop, Operands stream own level.reach start stop ∧ _ := operands.upTo ended
    exact ⟨stop, readsIff.mpr (accepts_binaryExpr_iff.mpr ⟨upTo, settled⟩), left⟩

/-- The tokens of `f(a + b) * -c + d;`. -/
def productOfCall : List Token :=
  [⟨.identifier, "f", 1⟩, ⟨.punctuation, "(", 1⟩, ⟨.identifier, "a", 1⟩, ⟨.operator, "+", 1⟩,
    ⟨.identifier, "b", 1⟩, ⟨.punctuation, ")", 1⟩, ⟨.operator, "*", 1⟩, ⟨.operator, "-", 1⟩,
    ⟨.identifier, "c", 1⟩, ⟨.operator, "+", 1⟩, ⟨.identifier, "d", 1⟩, ⟨.punctuation, ";", 1⟩]

/-- A product goes past the sum in its brackets and past a sign, and ends in front of the sum outside. -/
theorem productOfCall_ends_at_sum :
    let parser := Parser.start productOfCall
    let product := Parser.rule "" (.binaryExpr .multiplicative) parser
    let whole := Parser.rule "" .expr parser
    (product.1.isOk = true ∧ product.2.position = 9) ∧
      (whole.1.isOk = true ∧ whole.2.position = 11) ∧
        Level.multiplicative.reach.allow (parser.stream.get 6) = true := by
  intro parser product whole
  have call : Accepts parser.stream "" (.rule .unaryExpr) 0 6 .empty :=
    .of_readWithin 1000 (by decide +kernel)
  have signed : Accepts parser.stream "" (.rule .unaryExpr) 7 9 .empty :=
    .of_readWithin 1000 (by decide +kernel)
  have name : Accepts parser.stream "" (.rule .unaryExpr) 10 11 .empty :=
    .of_readWithin 1000 (by decide +kernel)
  obtain ⟨-, exact, outside, joined⟩ := level_is_one_loop "" .multiplicative parser
  have read := (exact 9).mpr ⟨.more call (by decide) (.one signed), by decide⟩
  have called : Spells parser.stream parser.position (productOfCall.take 6) 6 := by
    exact ⟨rfl, rfl, rfl, rfl, rfl, rfl, rfl⟩
  exact ⟨read, (joined 11 (.more call (by decide) (.more signed (by decide) (.one name)))
    (by decide)).1, (outside 9 read).2 6 _ called (by decide) (by decide) (by decide) (by decide)
      (by decide)⟩

end ClassSyntax

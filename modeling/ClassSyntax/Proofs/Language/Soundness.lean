import ClassSyntax.Proofs.Language.Coverage

/-!
# What is read is a word

Every reading covers its phrase. The argument is by induction on the reading; a rule is covered when its
body is, for most rules because the form of the body is included in that of the rule.

* `Rule.covers`: a rule is covered when its body is.
* `Reads.covered`: every reading covers its phrase.
-/

namespace ClassSyntax

variable {stream : TokenStream} {own : String} {start : Nat} {outcome : Outcome}
  {log : List Failure}

/-! ## Rules that need more than a comparison of forms -/

theorem derives_target_of_covering {word : List Token} {outline : Outline}
    (derived : Derives Nonterminal.production own Rule.target.body.covering word outline) :
    Derives Nonterminal.production own Rule.target.form word outline := by
  rcases derives_alt.mp derived with keyword | name
  · exact keyword.mono 16 (by decide)
  · exact (derives_symbol.mp name).mono 16 (by decide)

/-- A member that is not what its start makes it is at least the start of a method. -/
theorem derives_member_of_covering {word : List Token} {outline : Outline}
    (derived : Derives Nonterminal.production own Rule.member.body.covering word outline) :
    Derives Nonterminal.production own Rule.member.form word outline := by
  rcases derives_alt.mp derived with entry | other
  · exact .symbol (.left entry)
  · obtain ⟨other, different⟩ := derives_unlike.mp other
    exact .symbol (.right (.unlike (other.mono 16 (by decide)) different))

/-- In front of a jump any token is taken, but only a jump leads there. -/
theorem derives_jumpStmt {word : List Token} {outline : Outline}
    (derived : Derives Nonterminal.production own
      (.guarded [.keyword "break", .keyword "continue"] Rule.jumpStmt.form) word outline) :
    Derives Nonterminal.production own (.symbol .jumpStmt) word outline := by
  obtain ⟨jump, opens⟩ := derives_guarded.mp derived
  obtain ⟨left, right, before, after, first, semicolon, rfl, rfl⟩ := derives_seq.mp jump
  rcases derives_optional.mp first with first | ⟨rfl, rfl⟩
  · obtain ⟨token, -, rfl, rfl⟩ := derives_token.mp first
    exact .symbol (.seq (.token opens) semicolon)
  · obtain ⟨mark, allowed, rfl, rfl⟩ := derives_token.mp semicolon
    have other : Terminals.allow [.keyword "break", .keyword "continue"] mark = false :=
      Terminals.not_allow_of_apart (by decide) allowed
    exact absurd (other.symm.trans opens) (by decide)

theorem derives_stmt_of_covering {word : List Token} {outline : Outline}
    (derived : Derives Nonterminal.production own Rule.stmt.body.covering word outline) :
    Derives Nonterminal.production own Rule.stmt.form word outline := by
  rcases derives_alt.mp derived with isIf | derived
  · exact isIf.mono 16 (by decide)
  rcases derives_alt.mp derived with isWhile | derived
  · exact isWhile.mono 16 (by decide)
  rcases derives_alt.mp derived with isFor | derived
  · exact isFor.mono 16 (by decide)
  rcases derives_alt.mp derived with isReturn | derived
  · exact isReturn.mono 16 (by decide)
  rcases derives_alt.mp derived with isJump | derived
  · exact (derives_jumpStmt isJump).mono 16 (by decide)
  · exact derived.mono 32 (by decide)

/-! ## Handlers -/

namespace Phrase

/-- What may follow the block of a `try`, when something does. -/
def handlers : Phrase :=
  seq (whileToken (.keyword "catch") catchClause) (ifToken (.keyword "finally") (rule .block) done)

end Phrase

/-- Handlers that are entered take a token. -/
theorem handlers_taken {stop : Nat} {outline : Outline}
    (next : stream.startsWith [[.keyword "catch", .keyword "finally"]] start = true)
    (read : Accepts stream own Phrase.handlers start stop outline) : start < stop := by
  obtain ⟨middle, left, right, caught, finished, rfl⟩ := accepts_seq.mp read
  cases more : stream.startsWith [[.keyword "catch"]] start with
  | true =>
      obtain ⟨place, _, _, clause, others, -⟩ := (accepts_whileNext_of_ahead more).mp caught
      have taken := clause.start_lt_stop (by decide)
      have := others.start_le_stop
      have := finished.start_le_stop
      omega
  | false =>
      obtain ⟨rfl, -⟩ := (accepts_whileNext_of_stop more).mp caught
      have closing : stream.startsWith [[.keyword "finally"]] middle = true := by
        rw [startsWith_singleton] at next more ⊢
        simpa [Terminals.allow, show (Terminal.keyword "catch").admits (stream.get middle) = false
          by simpa [Terminals.allow] using more] using next
      rw [Phrase.ifToken, accepts_ifNext, if_pos closing] at finished
      exact finished.start_lt_stop (by decide)

/-- Clauses for `try`, unless there are none. -/
theorem handlers_or_nothing {word : List Token} {outline : Outline}
    (derived : Derives Nonterminal.production own
      (.seq (.many Form.catchClause) (.optional Form.finallyClause)) word outline) :
    Derives Nonterminal.production own Form.handlers word outline ∨
      word = [] ∧ outline = .empty := by
  obtain ⟨caught, last, before, after, clauses, closing, rfl, rfl⟩ := derives_seq.mp derived
  rcases derives_many.mp clauses with
    ⟨rfl, rfl⟩ | ⟨left, right, between, behind, first, more, rfl, rfl⟩
  · rw [Outline.empty_append, List.nil_append]
    rcases derives_optional.mp closing with closing | nothing
    · exact .inl (.right closing)
    · exact .inr nothing
  · rw [List.append_assoc, Outline.append_assoc]
    exact .inl (.left (.seq first (.seq more closing)))

theorem derives_tryStmt_or {word : List Token} {outline : Outline}
    (derived : Derives Nonterminal.production own Rule.tryStmt.body.covering word outline) :
    Derives Nonterminal.production own (.symbol .tryStmt) word outline ∨
      Derives Nonterminal.production own (.seq (Form.keyword "try") (.symbol .block)) word
        outline := by
  obtain ⟨opening, rest, before, after, isTry, behind, rfl, rfl⟩ := derives_seq.mp derived
  obtain ⟨block, last, between, further, isBlock, isLast, rfl, rfl⟩ := derives_seq.mp behind
  have isHandlers : Derives Nonterminal.production own Form.handlers last further ∨
      last = [] ∧ further = .empty := by
    rcases derives_alt.mp isLast with entered | closing
    · exact handlers_or_nothing (entered.mono 16 (by decide))
    · exact .inl (.right closing)
  rcases isHandlers with isHandlers | ⟨rfl, rfl⟩
  · exact .inl (.symbol (.seq isTry (.seq isBlock isHandlers)))
  · rw [List.append_nil, Outline.append_empty]
    exact .inr (.seq isTry isBlock)

/-- Behind the block of a `try` something has been read. -/
theorem not_accepts_tryStmt_of_block {stop : Nat} {word : List Token} {outline other : Outline}
    (spells : Spells stream start word stop)
    (derived : Derives Nonterminal.production own (.seq (Form.keyword "try") (.symbol .block)) word
      outline) :
    ¬ Accepts stream own Rule.tryStmt.body start stop other := by
  intro read
  obtain ⟨opening, block, before, after, isTry, isBlock, rfl, rfl⟩ := derives_seq.mp derived
  obtain ⟨mark, -, rfl, rfl⟩ := derives_token.mp isTry
  obtain ⟨middle, _, _, taken, rest, -⟩ := accepts_seq.mp read
  obtain ⟨-, rfl, rfl⟩ := accepts_expect.mp taken
  obtain ⟨place, _, _, readBlock, handled, -⟩ := accepts_seq.mp rest
  obtain ⟨rfl, -⟩ := (accepts_of_derives isBlock spells.2 rfl).unique readBlock
  have handled := accepts_ifNext.mp handled
  cases next : stream.startsWith [[.keyword "catch", .keyword "finally"]] stop with
  | true =>
      rw [if_pos next] at handled
      exact absurd (handlers_taken next handled) (Nat.lt_irrefl stop)
  | false =>
      rw [next, if_neg (by decide)] at handled
      exact not_accepts_fail handled

theorem covers_tryStmt (read : Reads stream own Rule.tryStmt.body start outcome log)
    (covers : Covers stream own Rule.tryStmt.body.covering start outcome log) :
    Covers stream own Rule.tryStmt.form start outcome log := by
  refine ⟨fun same => ?_, fun failure member => ?_⟩
  · obtain ⟨word, spells, derived⟩ := covers.read same
    rcases derives_tryStmt_or derived with whole | part
    · exact ⟨word, spells, whole⟩
    · rw [same] at read
      exact absurd ⟨log, read⟩ (not_accepts_tryStmt_of_block spells part)
  · obtain ⟨word, rest, outline, spells, derived⟩ := covers.missed failure member
    rcases derives_tryStmt_or derived with whole | part
    · exact ⟨word, rest, outline, spells, whole⟩
    · -- a clause is put behind the block
      have begun : Viable stream own
          (.seq (.seq (Form.keyword "try") (.symbol .block)) Form.handlers) start
            failure.position :=
        Covers.viable_seq (by decide) ⟨word, rest, outline, spells, part⟩
      obtain ⟨word, rest, outline, spells, derived⟩ := begun
      refine ⟨word, rest, outline, spells, ?_⟩
      generalize word ++ rest = whole at derived
      obtain ⟨front, back, before, after, isFront, isHandlers, rfl, rfl⟩ := derives_seq.mp derived
      obtain ⟨opening, block, between, further, isTry, isBlock, rfl, rfl⟩ := derives_seq.mp isFront
      rw [List.append_assoc, Outline.append_assoc]
      exact .symbol (.seq isTry (.seq isBlock isHandlers))

/-! ## All rules and phrases -/

/-- A rule is covered when its body is. -/
theorem Rule.covers {rule : Rule} (read : Reads stream own rule.body start outcome log)
    (covers : Covers stream own rule.body.covering start outcome log) :
    Covers stream own rule.form start outcome log := by
  cases rule with
  | target => exact covers.mono derives_target_of_covering
  | member => exact covers.mono derives_member_of_covering
  | stmt => exact covers.mono derives_stmt_of_covering
  | tryStmt => exact covers_tryStmt read covers
  | declarators role | declarator role => exact covers.mono (Derives.mono 16 rfl)
  | binaryExpr level => exact covers.mono (Derives.mono 16 (by cases level <;> decide))
  | _ => exact covers.mono (Derives.mono 16 (by decide))

/-- Every reading covers its phrase. -/
theorem Reads.covered {phrase : Phrase} (read : Reads stream own phrase start outcome log)
    (fruitful : phrase.fruitful = true) :
    Covers stream own phrase.covering start outcome log := by
  induction read with
  | done => exact Covers.ofWord (spells_nil.mpr rfl) .empty
  | expectFound found => exact Covers.ofWord spells_next (.token found)
  | expectMissing => exact Covers.ofMissing (Phrase.covering_fruitful fruitful) _
  | ownFound found => exact Covers.ofWord spells_next (.ownName found)
  | ownMissing => exact Covers.ofMissing rfl _
  | fail => exact Covers.ofMissing fruitful _
  | rule body ih => exact Rule.covers body (ih (Rule.body_fruitful _))
  | seqOk _ _ ihFirst ihSecond =>
      simp only [Phrase.fruitful, Bool.and_eq_true] at fruitful
      exact (ihFirst fruitful.1).seq (Phrase.covering_fruitful fruitful.2) (ihSecond fruitful.2)
  | seqFail _ ih =>
      simp only [Phrase.fruitful, Bool.and_eq_true] at fruitful
      have begun := ih fruitful.1
      exact Covers.ofFailure fun failure member =>
        Covers.viable_seq (Phrase.covering_fruitful fruitful.2) (begun.missed failure member)
  | @ifNextYes _ ahead yes no _ _ _ next _ ih =>
      have whole := Phrase.covering_fruitful fruitful
      simp only [Phrase.fruitful, Bool.and_eq_true, Bool.or_eq_true, beq_iff_eq,
        decide_eq_true_eq] at fruitful
      obtain ⟨⟨⟨-, fruitfulYes⟩, -⟩, one | ⟨rfl, rfl⟩⟩ := fruitful
      · obtain ⟨choices, rfl⟩ := List.length_eq_one_iff.mp one
        exact (ih fruitfulYes).guarded whole next
      · exact (ih fruitfulYes).mono .left
  | @ifNextNo _ ahead yes no _ _ _ other _ ih =>
      simp only [Phrase.fruitful, Bool.and_eq_true, Bool.or_eq_true, beq_iff_eq,
        decide_eq_true_eq] at fruitful
      obtain ⟨⟨-, fruitfulNo⟩, one | ⟨rfl, rfl⟩⟩ := fruitful
      · obtain ⟨choices, rfl⟩ := List.length_eq_one_iff.mp one
        exact (ih fruitfulNo).mono .right
      · exact (ih fruitfulNo).unlikeEntry other
  | whileStop => exact Covers.ofWord (spells_nil.mpr rfl) .manyNone
  | whileMore _ _ _ ihBody ihRest =>
      refine ((ihBody fruitful).seq rfl (ihRest fruitful)).mono fun derived => ?_
      obtain ⟨left, right, before, after, one, more, rfl, rfl⟩ := derives_seq.mp derived
      exact .manyMore one more
  | whileFail _ _ ih =>
      have begun := ih fruitful
      refine Covers.ofFailure fun failure member => ?_
      obtain ⟨word, rest, outline, spells, derived⟩ := begun.missed failure member
      have round := Derives.manyMore derived .manyNone
      rw [List.append_nil, Outline.append_empty] at round
      exact ⟨word, rest, outline, spells, round⟩
  | orElseFirst _ ih =>
      simp only [Phrase.fruitful, Bool.and_eq_true] at fruitful
      exact (ih fruitful.1).mono .left
  | orElseSecond _ _ ihFirst ihSecond =>
      simp only [Phrase.fruitful, Bool.and_eq_true] at fruitful
      exact ((ihSecond fruitful.2).mono .right).append
        ((ihFirst fruitful.1).mono .left).missed
  | ifAheadYes _ _ _ ih =>
      simp only [Phrase.fruitful, Bool.and_eq_true] at fruitful
      exact (ih fruitful.1).mono .left
  | ifAheadNo _ _ _ ih =>
      simp only [Phrase.fruitful, Bool.and_eq_true] at fruitful
      exact (ih fruitful.2).mono .right
  | classFound found _ ih => exact Covers.inClass found (ih fruitful)
  | classMissing => exact Covers.ofMissing (Phrase.covering_fruitful fruitful) _
  | countEntry => exact Covers.ofWord (spells_nil.mpr rfl) .countEntry

/-- What is read well is a word of its phrase. -/
theorem Accepts.derives {phrase : Phrase} {stop : Nat} {outline : Outline}
    (accepted : Accepts stream own phrase start stop outline)
    (fruitful : phrase.fruitful = true) :
    ∃ word, Spells stream start word stop ∧
      Derives Nonterminal.production own phrase.covering word outline := by
  obtain ⟨_, read⟩ := accepted
  exact (read.covered fruitful).read rfl

end ClassSyntax

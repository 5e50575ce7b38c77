import ClassSyntax.Proofs.Language.Values

/-!
# Trials end as they should

A statement that starts with a name is tried as a declaration, then as an assignment, step or call, and
then as an expression. An early trial that is given up does no harm, and one that goes through ends
where the statement ends.

* `refuses_varDecl_of_simple`, `refuses_varDecl_of_expr`: only declarations are read as declarations.
* `simple_or_refuses`: an expression is read as a simple statement in full or not at all.
* `Rule.exact_trialStmt`: the trials together are exact.
-/

namespace ClassSyntax

variable {stream : TokenStream} {own : String} {length : Nat}

/-! ## Declarations -/

theorem refuses_varDecl_of_other {start : Nat}
    (other : First.param.allow (stream.get start) = false) :
    Refuses stream own Rule.varDecl.body start := by
  have final : stream.startsWith [[.keyword "final"]] start = false :=
    Terminals.not_startsWith_of_within (by decide) other
  have primitive : stream.startsWith [First.primitiveType] start = false :=
    Terminals.not_startsWith_of_within (by decide) other
  have named : stream.startsWith [[.identifier]] start = false :=
    Terminals.not_startsWith_of_within (by decide) other
  refine refuses_seq_of_second ((accepts_ifNext.mpr ?_) : Accepts _ _ _ _ start .empty)
    (refuses_rule.mpr (refuses_seq_of_first (refuses_rule.mpr (refuses_seq_of_first ?_))))
  · rw [final, if_neg (by decide)]
    exact accepts_done.mpr ⟨rfl, rfl⟩
  · exact refuses_ifNext_of_other primitive (refuses_ifNext_of_other named refuses_fail)

/-- A declaration needs a second name behind the first, or brackets. -/
theorem refuses_varDecl_of_target (exact : Rule.typeName.ExactOn stream length)
    {start stop : Nat} {target : List Token} (short : target.length ≤ length)
    (isTarget : IsWord own (.symbol .target) target) (spells : Spells stream start target stop)
    (behind : Terminals.allow [.mark ".", .mark "[", .identifier] (stream.get stop) = false) :
    Refuses stream own Rule.varDecl.body start := by
  obtain ⟨first, names, isFirst, isNames, rfl⟩ := isWord_seq.mp (isWord_symbol.mp isTarget)
  obtain ⟨head, -, rfl⟩ := isWord_token.mp isFirst
  by_cases named : Terminal.identifier.admits head = true
  · have isType : IsWord own (.symbol .typeName) ([head] ++ names ++ []) :=
      isWord_symbol.mpr (IsWord.seq (.right (isWord_symbol.mpr
        (IsWord.seq (.token (by simpa using named)) isNames))) .manyNone)
    rw [List.append_nil] at isType
    have readType : Accepts stream own (.rule .typeName) start stop .empty :=
      exact.phrase short isType spells (Terminals.not_allow_of_within (by decide) behind)
    have final : stream.startsWith [[.keyword "final"]] start = false := by
      have atHead : Terminals.allow [.identifier] (stream.get start) = true := by
        rw [spells.1]
        simpa using named
      rw [startsWith_singleton]
      exact Terminals.not_allow_of_apart (by decide) atHead
    refine refuses_seq_of_second ((accepts_ifNext.mpr ?_) : Accepts _ _ _ _ start .empty)
      (refuses_rule.mpr (refuses_seq_of_second readType (refuses_seq_of_first
        (refuses_rule.mpr (refuses_seq_of_first (refuses_expect ?_))))))
    · rw [final, if_neg (by decide)]
      exact accepts_done.mpr ⟨rfl, rfl⟩
    · exact Terminals.not_allow_of_within (by decide) behind
  · refine refuses_varDecl_of_other ?_
    have keyword : Terminals.allow [.keyword "this", .keyword "super"] head = true := by
      obtain ⟨token, allowed, same⟩ := isWord_token.mp isFirst
      obtain rfl := List.singleton_inj.mp same
      simpa [Terminals.allow, named] using allowed
    rw [spells.1]
    exact Terminals.not_allow_of_apart (by decide) keyword

/-! ## Simple statements -/

namespace First

/-- What stands behind the target at the start of a simple statement. -/
def behindSimple : Terminals := assignmentOperator ++ stepOperator ++ [.mark "("]

/-- What stands behind the target at the start of an expression, or behind the expression. -/
def behindExpr : Terminals := [.mark "(", .mark ";"] ++ Form.binaryOperators

end First

/-- A simple statement starts with a step, or with a target and something that is no name. -/
theorem IsWord.startsSimple {word : List Token} (isWord : IsWord own (.symbol .simple) word) :
    (∃ head rest, word = head :: rest ∧ First.stepOperator.allow head = true) ∨
      ∃ target head rest, word = target ++ head :: rest ∧
        IsWord own (.symbol .target) target ∧ First.behindSimple.allow head = true := by
  rcases isWord_alt.mp (isWord_symbol.mp isWord) with isAssignment | isOther
  · obtain ⟨target, rest, isTarget, isRest, rfl⟩ := isWord_seq.mp (isWord_symbol.mp isAssignment)
    obtain ⟨sign, value, isSign, -, rfl⟩ := isWord_seq.mp isRest
    obtain ⟨head, allowed, rfl⟩ := isWord_token.mp isSign
    exact .inr ⟨target, head, value, rfl, isTarget, Terminals.allow_of_within (by decide) allowed⟩
  · rcases isWord_alt.mp isOther with isIncrement | isCall
    · rcases isWord_alt.mp (isWord_symbol.mp isIncrement) with isLate | isEarly
      · obtain ⟨target, step, isTarget, isStep, rfl⟩ := isWord_seq.mp isLate
        obtain ⟨head, allowed, rfl⟩ := isWord_token.mp isStep
        exact .inr ⟨target, head, [], rfl, isTarget, Terminals.allow_of_within (by decide) allowed⟩
      · obtain ⟨step, target, isStep, -, rfl⟩ := isWord_seq.mp isEarly
        obtain ⟨head, allowed, rfl⟩ := isWord_token.mp isStep
        exact .inl ⟨head, target, rfl, allowed⟩
    · obtain ⟨target, rest, isTarget, isRest, rfl⟩ := isWord_seq.mp (isWord_symbol.mp isCall)
      obtain ⟨args, chain, isArgs, -, rfl⟩ := isWord_seq.mp isRest
      cases args with
      | nil => exact absurd rfl (Derives.ne_nil isArgs rfl)
      | cons head args =>
          exact .inr ⟨target, head, args ++ chain, rfl, isTarget,
            Terminals.allow_of_within (by decide) (Derives.starts isArgs)⟩

/-- No simple statement is read as a declaration. -/
theorem refuses_varDecl_of_simple (exact : Rule.typeName.ExactOn stream length)
    {start stop : Nat} {word : List Token} (short : word.length ≤ length)
    (isWord : IsWord own (.symbol .simple) word) (spells : Spells stream start word stop) :
    Refuses stream own Rule.varDecl.body start := by
  rcases isWord.startsSimple with
    ⟨head, rest, rfl, isStep⟩ | ⟨target, head, rest, rfl, isTarget, behind⟩
  · refine refuses_varDecl_of_other ?_
    rw [spells.1]
    exact Terminals.not_allow_of_apart (by decide) isStep
  · obtain ⟨middle, spellsTarget, spellsRest⟩ := spells_append.mp spells
    rw [List.length_append] at short
    refine refuses_varDecl_of_target exact (by omega) isTarget spellsTarget ?_
    rw [spellsRest.1]
    exact Terminals.not_allow_of_apart (by decide) behind

/-! ## Expressions -/

/-- Behind an expression a semicolon comes, so behind its first operand comes an operator or the
semicolon. -/
theorem behind_operand {start stop : Nat} {behind : List Token}
    (opens : opensWith Form.binaryOperators behind = true)
    (spells : Spells stream start behind stop)
    (ended : (Terminal.mark ";").admits (stream.get stop) = true) :
    Terminals.allow (.mark ";" :: Form.binaryOperators) (stream.get start) = true := by
  cases behind with
  | cons head behind =>
      rw [spells.1]
      exact Terminals.allow_of_within (by decide)
        (show Form.binaryOperators.allow head = true from opens)
  | nil =>
      obtain rfl := spells_nil.mp spells
      simp [Terminals.allow, ended]

/-- Behind its first target comes a call, an operator or the semicolon. -/
theorem behind_target {start stop : Nat} {tail behind : List Token}
    (isTail : IsWord own Form.callTail tail)
    (opens : opensWith Form.binaryOperators behind = true)
    (spells : Spells stream start (tail ++ behind) stop)
    (ended : (Terminal.mark ";").admits (stream.get stop) = true) :
    First.behindExpr.allow (stream.get start) = true := by
  cases tail with
  | cons head tail =>
      rw [spells.1]
      exact Terminals.allow_of_within (by decide) (Derives.starts isTail)
  | nil => exact Terminals.allow_of_within (by decide) (behind_operand opens spells ended)

/-- No expression is read as a declaration. -/
theorem refuses_varDecl_of_expr (exact : Rule.typeName.ExactOn stream length)
    {start stop : Nat} {word : List Token} (short : word.length ≤ length)
    (isWord : IsWord own (.symbol .expr) word) (spells : Spells stream start word stop)
    (ended : (Terminal.mark ";").admits (stream.get stop) = true) :
    Refuses stream own Rule.varDecl.body start := by
  cases word with
  | nil => exact absurd rfl (Derives.ne_nil isWord rfl)
  | cons head rest =>
      cases names : First.target.allow head with
      | false =>
          refine refuses_varDecl_of_other ?_
          have starts : First.expression.allow head = true := Derives.starts isWord
          rw [show First.expression = First.target ++ (First.literal ++
            [.keyword "new", .mark "("] ++ First.unaryOperator) from rfl,
            Terminals.allow_append, names, Bool.false_or] at starts
          rw [spells.1]
          exact Terminals.not_allow_of_apart (by decide) starts
      | true =>
          obtain ⟨target, tail, behind, same, isTarget, isTail, opens⟩ :=
            isWord.startsWithTarget names
          rw [same] at spells short
          obtain ⟨middle, spellsTarget, spellsRest⟩ := spells_append.mp spells
          rw [List.length_append] at short
          exact refuses_varDecl_of_target exact (by omega) isTarget spellsTarget
            (Terminals.not_allow_of_apart (by decide) (behind_target isTail opens spellsRest ended))

theorem refuses_simpleStmt_of_other {start : Nat}
    (other : (First.target ++ First.stepOperator).allow (stream.get start) = false) :
    Refuses stream own Rule.simpleStmt.body start := by
  have step : stream.startsWith [First.stepOperator] start = false :=
    Terminals.not_startsWith_of_within (by decide) other
  have keyword : stream.startsWith [[.keyword "this", .keyword "super"]] start = false :=
    Terminals.not_startsWith_of_within (by decide) other
  exact refuses_ifNext_of_other step (refuses_seq_of_first (refuses_rule.mpr
    (refuses_ifNext_of_other keyword (refuses_rule.mpr (refuses_seq_of_first
      (refuses_expect (Terminals.not_allow_of_within (by decide) other)))))))

/-- The phrase of a simple statement goes on like this behind its target. -/
def Phrase.behindTarget : Phrase :=
  dispatch
    [(First.assignmentOperator,
        seq (expect First.assignmentOperator "assignment") (rule .expr)),
      (First.stepOperator, expect First.stepOperator "++ or --"),
      ([.mark "("], seq (rule .args) (rule .callChain))]
    (fail "assignment or call")

/-- A target that no assignment, step or call follows is no simple statement. -/
theorem refuses_behindTarget {start : Nat}
    (other : First.behindSimple.allow (stream.get start) = false) :
    Refuses stream own Phrase.behindTarget start := by
  refine refuses_ifNext_of_other ?_ (refuses_ifNext_of_other ?_ (refuses_ifNext_of_other ?_
    refuses_fail))
  all_goals exact Terminals.not_startsWith_of_within (by decide) other

/-- A call behind a target is read up to the end of its chain of members. -/
theorem accepts_behindTarget {start stop : Nat} {args members : List Token}
    (exactArgs : Rule.args.ExactOn stream args.length)
    (exactChain : Rule.callChain.ExactOn stream members.length)
    (isArgs : IsWord own (.symbol .args) args) (isMembers : IsWord own Form.memberCalls members)
    (spells : Spells stream start (args ++ members) stop)
    (ended : Terminals.allow [.mark ".", .mark "("] (stream.get stop) = false) :
    Accepts stream own Phrase.behindTarget start stop .empty := by
  obtain ⟨middle, spellsArgs, spellsMembers⟩ := spells_append.mp spells
  have opening : Terminals.allow [.mark "("] (stream.get start) = true := by
    cases args with
    | nil => exact absurd rfl (Derives.ne_nil isArgs rfl)
    | cons head args =>
        rw [spellsArgs.1]
        exact Derives.starts isArgs
  have assignment : stream.startsWith [First.assignmentOperator] start = false :=
    Terminals.not_startsWith_of_apart (by decide) opening
  have step : stream.startsWith [First.stepOperator] start = false :=
    Terminals.not_startsWith_of_apart (by decide) opening
  have isChain : IsWord own Rule.callChain.form ([] ++ members) :=
    (isWord_optional.mpr (.inr rfl)).seq isMembers
  have readArgs := exactArgs (Nat.le_refl _) isArgs spellsArgs rfl
  have readChain := exactChain (Nat.le_refl _) isChain spellsMembers ended
  refine accepts_ifNext.mpr ?_
  rw [assignment, if_neg (by decide)]
  refine accepts_ifNext.mpr ?_
  rw [step, if_neg (by decide)]
  refine accepts_ifNext.mpr ?_
  rw [startsWith_singleton, if_pos opening]
  exact (accepts_rule.mpr readArgs).seq (accepts_rule.mpr readChain)

/-- An expression that a semicolon follows is read as a simple statement up to the semicolon or not at
all. -/
theorem simple_or_refuses (rules : RulesExact stream Rule.trialStmt.rank length) {start stop : Nat}
    {word : List Token} (short : word.length ≤ length)
    (isWord : IsWord own (.symbol .expr) word) (spells : Spells stream start word stop)
    (ended : (Terminal.mark ";").admits (stream.get stop) = true) :
    Accepts stream own (.seq (.rule .simpleStmt) (Phrase.mark ";")) start (stop + 1) .empty ∨
      Refuses stream own (.seq (.rule .simpleStmt) (Phrase.mark ";")) start := by
  cases word with
  | nil => exact absurd rfl (Derives.ne_nil isWord rfl)
  | cons head rest =>
      have starts : First.expression.allow head = true := Derives.starts isWord
      have noStep : First.stepOperator.allow (stream.get start) = false := by
        rw [spells.1]
        exact Terminals.not_allow_of_apart (by decide) starts
      cases names : First.target.allow head with
      | false =>
          refine .inr (refuses_seq_of_first (refuses_rule.mpr (refuses_simpleStmt_of_other ?_)))
          rw [Terminals.allow_append, noStep, spells.1, names]
          rfl
      | true =>
          obtain ⟨target, tail, behind, same, isTarget, isTail, opens⟩ :=
            isWord.startsWithTarget names
          rw [same] at spells short
          obtain ⟨middle, spellsTarget, spellsRest⟩ := spells_append.mp spells
          rw [List.length_append, List.length_append] at short
          have filled := List.length_pos_iff.mpr (Derives.ne_nil isTarget rfl)
          have readTarget : Accepts stream own (.rule .target) start middle .empty :=
            rules.atOnce .target (by decide) (Nat.le_refl _) (by omega) isTarget spellsTarget
              (Terminals.not_allow_of_apart (by decide)
                (behind_target isTail opens spellsRest ended))
          have readSimple : ∀ {place : Nat},
              Accepts stream own Phrase.behindTarget middle place .empty →
                Accepts stream own (.rule .simpleStmt) start place .empty := by
            intro place read
            refine accepts_rule.mpr (accepts_ifNext.mpr ?_)
            rw [startsWith_singleton, noStep, if_neg (by decide)]
            exact readTarget.seq read
          rcases isWord_optional.mp isTail with isCall | rfl
          · obtain ⟨args, members, isArgs, isMembers, rfl⟩ := isWord_seq.mp isCall
            obtain ⟨place, spellsCall, spellsBehind⟩ := spells_append.mp spellsRest
            rw [List.length_append] at short
            have next := behind_operand opens spellsBehind ended
            have read := readSimple (accepts_behindTarget
              (rules.shorter args.length (by omega) .args)
              (rules.shorter members.length (by omega) .callChain) isArgs isMembers spellsCall
              (Terminals.not_allow_of_apart (by decide) next))
            -- either the call is the whole expression, or an operator stands where `;` is missing
            cases behind with
            | nil =>
                obtain rfl := spells_nil.mp spellsBehind
                exact .inl (read.seq (accepts_expect.mpr ⟨by simpa using ended, rfl, rfl⟩))
            | cons sign behind =>
                refine .inr (refuses_seq_of_second read (refuses_expect ?_))
                rw [spellsBehind.1]
                exact Terminals.not_allow_of_apart (by decide)
                  (show Form.binaryOperators.allow sign = true from opens)
          · refine .inr (refuses_seq_of_first (refuses_rule.mpr (refuses_ifNext_of_other ?_
              (refuses_seq_of_second readTarget (refuses_behindTarget ?_)))))
            · rw [startsWith_singleton]
              exact noStep
            · exact Terminals.not_allow_of_apart (by decide)
                (behind_operand opens spellsRest ended)

/-! ## The trials together -/

theorem isWord_concat_mark {form : Form} {word : List Token} {symbol : String}
    (isWord : IsWord own (.seq form (Form.mark symbol)) word) :
    ∃ front last, word = front ++ [last] ∧ IsWord own form front ∧
      (Terminal.mark symbol).admits last = true := by
  obtain ⟨front, back, isFront, isBack, rfl⟩ := isWord_seq.mp isWord
  obtain ⟨last, admitted, rfl⟩ := isWord_token.mp isBack
  exact ⟨front, last, rfl, isFront, by simpa using admitted⟩

/-- The start of a `for` loop is read as a declaration or else as a simple statement. -/
theorem exact_forInit (rules : RulesExact stream 13 length) :
    ExactOn stream length (.orElse (.rule .varDecl) (.rule .simpleStmt)) (.symbol .forInit)
      Rule.varDecl.goesOn := by
  intro own start stop word outline short derived spells ended
  rcases derives_alt.mp (derives_symbol.mp derived) with declaration | simple
  · exact accepts_orElse.mpr (.inl
      (rules.atOnce .varDecl (by decide) (Nat.le_refl _) short declaration spells ended))
  · obtain ⟨rfl, isSimple⟩ := simple.isWord rfl
    refine accepts_orElse.mpr (.inr ⟨refuses_rule.mpr (refuses_varDecl_of_simple
      (rules.lower .typeName (by decide)) short isSimple spells), ?_⟩)
    exact rules.atOnce .simpleStmt (by decide) (Nat.le_refl _) short isSimple spells
      (Terminals.not_allow_of_within (by decide) ended)

theorem Rule.exact_trialStmt (rules : RulesExact stream Rule.trialStmt.rank length) :
    Rule.trialStmt.ExactOn stream length := by
  intro own start stop word outline short derived spells ended
  obtain ⟨rfl, isWord⟩ := derived.isWord rfl
  rcases isWord_alt.mp isWord with isDeclaration | isWord
  · exact accepts_orElse.mpr (.inl
      (rules.atOnce .varDeclStmt (by decide) (Nat.le_refl _) short isDeclaration spells rfl))
  · rcases isWord_alt.mp isWord with isWord | isWord
    all_goals
      obtain ⟨front, last, rfl, isFront, semicolon⟩ := isWord_concat_mark isWord
      obtain ⟨middle, spellsFront, rfl, rfl⟩ := spells_append.mp spells
      rw [List.length_append] at short
    · have declined := refuses_varDecl_of_simple (rules.lower .typeName (by decide))
        (by omega) isFront spellsFront
      have read := rules.atOnce .simpleStmt (by decide) (Nat.le_refl _) (by omega) isFront
        spellsFront (Terminals.not_allow_of_apart (by decide)
          (show Terminals.allow [.mark ";"] (stream.get middle) = true by simpa using semicolon))
      refine accepts_orElse.mpr (.inr ⟨refuses_rule.mpr (refuses_seq_of_first
        (refuses_rule.mpr declined)), accepts_orElse.mpr (.inl ?_)⟩)
      exact read.seq (accepts_expect.mpr ⟨by simpa using semicolon, rfl, rfl⟩)
    · have declined := refuses_varDecl_of_expr (rules.lower .typeName (by decide))
        (by omega) isFront spellsFront semicolon
      have read := rules.atOnce .expr (by decide) (Nat.le_refl _) (by omega) isFront
        spellsFront (Terminals.not_allow_of_apart (by decide)
          (show Terminals.allow [.mark ";"] (stream.get middle) = true by simpa using semicolon))
      refine accepts_orElse.mpr (.inr ⟨refuses_rule.mpr (refuses_seq_of_first
        (refuses_rule.mpr declined)), accepts_orElse.mpr ?_⟩)
      rcases simple_or_refuses rules (by omega) isFront spellsFront semicolon with
        accepted | refused
      · exact .inl accepted
      · exact .inr ⟨refused, accepts_orElse.mpr (.inl
          (read.seq (accepts_expect.mpr ⟨by simpa using semicolon, rfl, rfl⟩)))⟩

end ClassSyntax

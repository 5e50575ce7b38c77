import ClassSyntax.Proofs.Language.Exact
import ClassSyntax.Proofs.Language.Words

/-!
# Names and values are read exactly

A loop over names looks two tokens ahead, which matters in an import, where a star may stand behind
the last point. A value is read with the longest target in front.

* `Rule.exact_target`, `Rule.exact_importDecl`, `Rule.exact_primaryExpr`: these rules are exact when
  the rules in them are.
-/

namespace ClassSyntax

variable {stream : TokenStream} {bound length : Nat}

theorem Rule.ExactOn.phrase {rule : Rule} (exact : rule.ExactOn stream length) :
    ClassSyntax.ExactOn stream length (.rule rule) rule.wanted rule.goesOn :=
  fun _ _ _ _ _ short derived spells ended =>
    accepts_rule.mpr (exact short derived spells ended)

namespace RulesExact

/-- A rule of lower rank may be entered at once. -/
theorem atOnce (rules : RulesExact stream bound length) (rule : Rule) (below : rule.rank < bound)
    {less : Nat} (fewer : less ≤ length) :
    ClassSyntax.ExactOn stream less (.rule rule) rule.wanted rule.goesOn :=
  (rules.lower rule below).phrase.weaken fewer (Terminals.within_self _)

/-- Every rule may be entered behind a token. -/
theorem later (rules : RulesExact stream bound length) (rule : Rule) {less : Nat}
    (fewer : less < length) :
    ClassSyntax.ExactOn stream less (.rule rule) rule.wanted rule.goesOn :=
  (rules.shorter less fewer rule).phrase

/-- So may a decided phrase. -/
theorem decidedLater (rules : RulesExact stream bound length) (phrase : Phrase)
    (decided : phrase.decided 13 = true) {less : Nat} (fewer : less < length) :
    phrase.ExactOn stream less :=
  Phrase.exact_of_decided decided (rules.less fewer 13)

end RulesExact

namespace ExactOn

variable {second : Phrase} {right : Form} {others choices : Terminals} {label : String}

/-- One token. -/
theorem token : ExactOn stream length (.expect choices label) (.token choices) [] := by
  intro own start stop word outline short derived spells ended
  obtain ⟨token, allowed, rfl, rfl⟩ := derives_token.mp derived
  exact accepts_expect.mpr ⟨spells.1.symm ▸ allowed, spells.2, rfl⟩

/-- Behind a token a phrase only has to be exact on shorter words. -/
theorem behindToken
    (exact : ∀ less, less < length → ExactOn stream less second right others) :
    ExactOn stream length (.seq (.expect choices label) second) (.seq (.token choices) right)
      others :=
  token.seq (fun less _ lesser => exact less (lesser rfl)) (by simp [Terminals.apart])
    (fun _ => rfl)

end ExactOn

/-! ## Targets -/

/-- A target is a name, or starts with `this` or `super`. -/
theorem derives_target {own : String} {word : List Token} {outline : Outline}
    (derived : Derives Nonterminal.production own (.symbol .target) word outline) :
    Derives Nonterminal.production own Rule.target.body.wanted word outline := by
  obtain ⟨left, right, before, after, first, names, rfl, rfl⟩ :=
    derives_seq.mp (derives_symbol.mp derived)
  obtain ⟨head, allowed, rfl, rfl⟩ := derives_token.mp first
  by_cases named : Terminal.identifier.admits head = true
  · exact .right (.symbol (.seq (.token (by simpa using named)) names))
  · have keyword : Terminals.allow [.keyword "this", .keyword "super"] head = true := by
      simpa [Terminals.allow, named] using allowed
    exact .left (.guarded (.seq (.token keyword) names) keyword)

theorem Rule.exact_target (rules : RulesExact stream Rule.target.rank length) :
    Rule.target.ExactOn stream length :=
  ((Phrase.exact_of_decided (by decide) rules).weaken (Nat.le_refl _) (by decide)).ofForm
    derives_target

/-! ## Imports -/

/-- Names are read as long as another one comes next. -/
theorem accepts_dottedNames {own : String} {start stop : Nat} {word : List Token}
    {outline : Outline}
    (derived : Derives Nonterminal.production own Form.dottedNames word outline)
    (spells : Spells stream start word stop)
    (stopped : stream.startsWith [[.mark "."], [.identifier]] stop = false) :
    Accepts stream own Phrase.dottedNames start stop outline := by
  have exact : ExactOn stream word.length
      (.seq (Phrase.mark ".") (Phrase.identifier "identifier"))
      (.seq (Form.mark ".") Form.identifier) [] :=
    ExactOn.behindToken fun _ _ => ExactOn.token
  exact exact.rounds (by decide) rfl (by decide) (Nat.le_refl _) derived spells stopped rfl

/-- The end of an import: a semicolon, or a point and a star before it. -/
def Form.importEnd : Form :=
  alt (mark ";") (all [mark ".", operator "*", mark ";"])

/-- No name goes on at the end of an import. -/
theorem stopped_at_importEnd {own : String} {start stop : Nat} {word : List Token}
    {outline : Outline}
    (derived : Derives Nonterminal.production own Form.importEnd word outline)
    (spells : Spells stream start word stop) :
    stream.startsWith [[.mark "."], [.identifier]] start = false := by
  rcases derives_alt.mp derived with derived | derived
  · obtain ⟨head, semicolon, rfl, rfl⟩ := derives_token.mp derived
    have other : Terminals.allow [.mark "."] head = false :=
      Terminals.not_allow_of_apart (by decide) semicolon
    simp only [TokenStream.startsWith, spells.1, other, Bool.false_and]
  · obtain ⟨left, right, before, after, first, rest, rfl, rfl⟩ := derives_seq.mp derived
    obtain ⟨point, -, rfl, rfl⟩ := derives_token.mp first
    obtain ⟨left, right, before, after, second, -, rfl, rfl⟩ := derives_seq.mp rest
    obtain ⟨star, isStar, rfl, rfl⟩ := derives_token.mp second
    have other : Terminals.allow [.identifier] star = false :=
      Terminals.not_allow_of_apart (by decide) isStar
    simp only [TokenStream.startsWith, spells.2.1, other, Bool.false_and, Bool.and_false]

theorem Rule.exact_importDecl (rules : RulesExact stream Rule.importDecl.rank length) :
    Rule.importDecl.ExactOn stream length := by
  refine ExactOn.ofForm (ExactOn.behindToken fun less fewer => ?_) derives_symbol.mp
  intro own start stop word outline short derived spells ended
  obtain ⟨name, tail, before, after, isName, isEnd, rfl, rfl⟩ := derives_seq.mp derived
  obtain ⟨middle, spellsName, spellsEnd⟩ := spells_append.mp spells
  obtain ⟨first, more, _, _, isFirst, isMore, rfl, rfl⟩ :=
    derives_seq.mp (derives_symbol.mp isName)
  obtain ⟨second, spellsFirst, spellsMore⟩ := spells_append.mp spellsName
  rw [List.length_append] at short
  have readFirst : Accepts stream own (Phrase.identifier "identifier") start second _ :=
    ExactOn.token (Nat.le_refl _) isFirst spellsFirst rfl
  have readMore := accepts_dottedNames isMore spellsMore (stopped_at_importEnd isEnd spellsEnd)
  have exact := rules.decidedLater (Phrase.ifToken (.mark ";") .done
    (Phrase.ifToken (.mark ".") (Phrase.all [Phrase.operator "*", Phrase.mark ";"])
      (.fail ";"))) (by decide) fewer
  have readEnd := exact (by omega) (isEnd.mono 8 (by decide)) spellsEnd ended
  exact (accepts_rule.mpr (readFirst.seq readMore)).seq readEnd

/-! ## Values -/

/-- The members of a value are read behind its longest target. -/
theorem derives_primary {own : String} {word : List Token} {outline : Outline}
    (derived : Derives Nonterminal.production own (.symbol .primary) word outline) :
    Derives Nonterminal.production own
      (Form.any [.seq (.symbol .target) Form.callTail, .token First.literal,
        Rule.grouping.form, .symbol .creation]) word outline := by
  obtain ⟨rfl, isWord⟩ := derived.isWord rfl
  rcases isWord_alt.mp (isWord_symbol.mp isWord) with isValue | isOther
  · obtain ⟨target, chain, isTarget, isChain, rfl⟩ := isWord_seq.mp isValue
    obtain ⟨longer, tail, same, isLonger, isTail⟩ := isTarget.regroup isChain
    rw [same]
    exact .left (isLonger.seq isTail)
  · exact .right isOther

theorem derives_callTail {own : String} {word : List Token} {outline : Outline}
    (derived : Derives Nonterminal.production own Form.callTail word outline) :
    Derives Nonterminal.production own Rule.callChain.wanted word outline := by
  rcases derives_optional.mp derived with called | ⟨rfl, rfl⟩
  · exact called.mono 8 (by decide)
  · exact derives_seq.mpr ⟨[], [], _, _, .right .empty, .manyNone, rfl, rfl⟩

theorem Rule.exact_primaryExpr (rules : RulesExact stream Rule.primaryExpr.rank length) :
    Rule.primaryExpr.ExactOn stream length := by
  have value : ClassSyntax.ExactOn stream length (.seq (.rule .target) (.rule .callChain))
      (.seq (.symbol .target) Form.callTail) Rule.goesOn.operands :=
    (rules.atOnce .target (by decide) (Nat.le_refl _)).seq
      (fun less fewer _ => ((rules.atOnce .callChain (by decide) fewer).weaken
        (Nat.le_refl _) (by decide)).ofForm derives_callTail)
      (by decide) (by decide)
  have others : (Phrase.dispatch
      [(First.literal, .expect First.literal "literal"), ([.mark "("], .rule .grouping),
        ([.keyword "new"], .rule .newExpr)] (.fail "expression")).ExactOn stream length :=
    Phrase.exact_of_decided (by decide) rules
  have exact := value.ifNext First.target (others.weaken (Nat.le_refl _) (by decide)) rfl
    (by decide) (by decide)
  exact exact.ofForm fun derived => (derives_primary derived).mono 16 (by decide)

end ClassSyntax

import ClassSyntax.Proofs.Language.Accepts
import ClassSyntax.Proofs.Language.Inclusion
import ClassSyntax.Proofs.Language.Shape
import ClassSyntax.Proofs.Language.Spelling

/-!
# Exact reading

A phrase is exact when it reads every word that is wanted from it up to the end of the word, provided
that no token comes behind with which the reading could go on. `Phrase.decided` tests that one look
ahead settles every choice of a phrase.

* `Phrase.exact_of_decided`: a decided phrase is exact when the rules in it are.
-/

namespace ClassSyntax

namespace Rule

/-- The tokens with which the reading of a rule could go on behind a word of the rule. -/
def goesOn : Rule → Terminals
  | program => First.importDecl ++ First.classDecl
  | qualifiedName | target => [.mark "."]
  | modifiers => First.modifier
  | typeName | returnType => [.mark ".", .mark "["]
  | arraySuffix | param | newExpr => [.mark "["]
  | declarators _ | varDecl => .operator "=" :: .mark "," :: operators
  | declarator _ => .operator "=" :: operators
  | stmt | ifStmt | whileStmt | forStmt =>
      [.keyword "else", .keyword "catch", .keyword "finally"]
  | tryStmt => [.keyword "catch", .keyword "finally"]
  | expr | simpleStmt => operators
  | binaryExpr level => tighterOperators level ++ operands
  | unaryExpr | primaryExpr => operands
  | callChain => [.mark ".", .mark "("]
  | _ => []
where
  /-- Behind an operand. -/
  operands : Terminals := [.mark ".", .mark "(", .mark "["]
  /-- Behind an expression of a level. -/
  tighterOperators (level : Level) : Terminals :=
    (Level.all.filter fun other => !other.looserThan level).flatMap Level.terminals
  /-- Behind an expression. -/
  operators : Terminals := tighterOperators .logicalOr ++ operands

end Rule

namespace Form

/-- Every word of the form starts like this. -/
def leads : List Terminals → Form → Bool
  | [], _ => true
  | [choices], form => !form.nullable && form.first.within choices
  | choices :: more, seq (token others) form => others.within choices && leads more form
  | _, _ => false

end Form

namespace Phrase

/-- The tokens with which the reading of a phrase could go on behind a word of the phrase. -/
def goesOn : Phrase → Terminals
  | done | countEntry | expect _ _ | expectOwnName | fail _ => []
  | rule called => called.goesOn
  | seq first second => second.goesOn ++ if second.wanted.nullable then first.goesOn else []
  | ifNext ahead yes no =>
      yes.goesOn ++ no.goesOn ++ if no.wanted.nullable then ahead.headD [] else []
  | whileNext ahead body => ahead.headD [] ++ body.goesOn
  | orElse first second | ifAhead _ first second => first.goesOn ++ second.goesOn
  | inClass body => body.goesOn

/-- One look ahead settles every choice of the phrase. Before a token was taken only rules below this
rank are entered. -/
def decided (bound : Nat) : Phrase → Bool
  | done | countEntry | expect _ _ | expectOwnName | fail _ => true
  | rule called => called.rank < bound
  | seq first second =>
      first.decided bound && second.decided (if first.wanted.nullable then bound else 13) &&
        second.wanted.first.apart first.goesOn
  | ifNext ahead yes no =>
      ahead.length == 1 && yes.decided bound && no.decided bound && !yes.wanted.nullable &&
        no.wanted.first.apart (ahead.headD [])
  | whileNext ahead body =>
      ahead ≠ [] && body.decided bound && body.wanted.leads ahead && !body.wanted.nullable &&
        body.wanted.first.apart body.goesOn
  | orElse _ _ | ifAhead _ _ _ => false
  | inClass body => body.decided 13

end Phrase

/-- Words of the form of at most this length are read up to their end, whatever class encloses them
and unless one of these tokens comes next. -/
def ExactOn (stream : TokenStream) (length : Nat) (phrase : Phrase) (form : Form)
    (goesOn : Terminals) : Prop :=
  ∀ ⦃own : String⦄ ⦃start stop : Nat⦄ ⦃word : List Token⦄ ⦃outline : Outline⦄,
    word.length ≤ length → Derives Nonterminal.production own form word outline →
      Spells stream start word stop → goesOn.allow (stream.get stop) = false →
        Accepts stream own phrase start stop outline

/-- The rule is exact on words of at most this length. -/
def Rule.ExactOn (stream : TokenStream) (length : Nat) (rule : Rule) : Prop :=
  ClassSyntax.ExactOn stream length rule.body rule.wanted rule.goesOn

/-- The phrase is exact on words of at most this length. -/
def Phrase.ExactOn (stream : TokenStream) (length : Nat) (phrase : Phrase) : Prop :=
  ClassSyntax.ExactOn stream length phrase phrase.wanted phrase.goesOn

/-- The rules below this rank are exact on words of this length, and all rules on shorter words. -/
structure RulesExact (stream : TokenStream) (bound length : Nat) : Prop where
  lower : ∀ rule : Rule, rule.rank < bound → rule.ExactOn stream length
  shorter : ∀ less, less < length → ∀ rule : Rule, rule.ExactOn stream less

section

variable {stream : TokenStream} {bound length : Nat}

theorem RulesExact.less (rules : RulesExact stream bound length) {less : Nat}
    (fewer : less < length) (other : Nat) : RulesExact stream other less where
  lower := fun rule _ => rules.shorter less fewer rule
  shorter := fun even lesser => rules.shorter even (Nat.lt_trans lesser fewer)

/-- What a form leads with, its words start with. -/
theorem startsLike_of_leads {ahead : List Terminals} {form : Form}
    (leads : form.leads ahead = true) {own : String} {word : List Token}
    {outline : Outline} (derived : Derives Nonterminal.production own form word outline) :
    startsLike ahead word = true := by
  fun_induction Form.leads ahead form generalizing word outline with
  | case1 => rfl
  | case2 choices form =>
      simp only [Bool.and_eq_true, Bool.not_eq_true'] at leads
      cases word with
      | nil => exact absurd rfl (derived.ne_nil leads.1)
      | cons head rest =>
          simp [startsLike, Terminals.allow_of_within leads.2 derived.starts]
  | case3 choices more others form _ ih =>
      simp only [Bool.and_eq_true] at leads
      obtain ⟨left, right, before, after, first, second, rfl, rfl⟩ := derives_seq.mp derived
      obtain ⟨head, allowed, rfl, rfl⟩ := derives_token.mp first
      simp only [List.singleton_append, startsLike, Bool.and_eq_true]
      exact ⟨Terminals.allow_of_within leads.1 allowed, ih leads.2 second⟩
  | case4 => exact Bool.noConfusion leads

theorem startsWith_headD {ahead : List Terminals} {position : Nat} (some : ahead ≠ [])
    (other : (ahead.headD []).allow (stream.get position) = false) :
    stream.startsWith ahead position = false := by
  obtain ⟨choices, more, rfl⟩ := List.exists_cons_of_ne_nil some
  rw [TokenStream.startsWith, show choices.allow (stream.get position) = false from other]
  rfl

namespace ExactOn

variable {phrase first second yes no body : Phrase} {form left right : Form}
  {goesOn others : Terminals}

/-- Fewer words are read where more tokens may not come next. -/
theorem weaken (exact : ExactOn stream length phrase form goesOn) {less : Nat}
    (fewer : less ≤ length) (inside : goesOn.within others = true) :
    ExactOn stream less phrase form others := by
  intro own start stop word outline short derived spells ended
  exact exact (Nat.le_trans short fewer) derived spells
    (Terminals.not_allow_of_within inside ended)

/-- Words of a form that is included are read as well. -/
theorem ofForm (exact : ExactOn stream length phrase form goesOn) {inner : Form}
    (inside : ∀ {own word outline}, Derives Nonterminal.production own inner word outline →
      Derives Nonterminal.production own form word outline) :
    ExactOn stream length phrase inner goesOn :=
  fun _ _ _ _ _ short derived spells ended => exact short (inside derived) spells ended

/-- Two phrases are read one after the other. When the first takes a token, the second only has to be
exact on shorter words. -/
theorem seq (one : ExactOn stream length first left goesOn)
    (two : ∀ less, less ≤ length → (left.nullable = false → less < length) →
      ExactOn stream less second right others)
    (settled : right.first.apart goesOn = true)
    (kept : right.nullable = true → goesOn.within others = true) :
    ExactOn stream length (.seq first second) (.seq left right) others := by
  intro own start stop word outline short derived spells ended
  obtain ⟨front, back, before, after, derivedFront, derivedBack, rfl, rfl⟩ :=
    derives_seq.mp derived
  obtain ⟨middle, spellsFront, spellsBack⟩ := spells_append.mp spells
  rw [List.length_append] at short
  have between : goesOn.allow (stream.get middle) = false := by
    cases back with
    | nil =>
        obtain rfl := spells_nil.mp spellsBack
        exact Terminals.not_allow_of_within (kept derivedBack.nullable) ended
    | cons head back =>
        rw [spellsBack.1]
        exact Terminals.not_allow_of_apart settled derivedBack.starts
  refine (one (by omega) derivedFront spellsFront between).seq
    (two back.length (by omega) (fun filled => ?_) (Nat.le_refl _) derivedBack spellsBack ended)
  have := List.length_pos_iff.mpr (derivedFront.ne_nil filled)
  omega

/-- The next token tells two phrases apart. -/
theorem ifNext (choices : Terminals) (ofYes : ExactOn stream length yes left goesOn)
    (ofNo : ExactOn stream length no right goesOn) (filled : left.nullable = false)
    (settled : right.first.apart choices = true)
    (kept : right.nullable = true → choices.within goesOn = true) :
    ExactOn stream length (.ifNext [choices] yes no) (.alt (.guarded choices left) right)
      goesOn := by
  intro own start stop word outline short derived spells ended
  rw [accepts_ifNext, startsWith_singleton]
  rcases derives_alt.mp derived with derived | derived
  · obtain ⟨derived, opens⟩ := derives_guarded.mp derived
    cases word with
    | nil => exact absurd rfl (derived.ne_nil filled)
    | cons head word =>
        rw [spells.1, if_pos (show choices.allow head = true from opens)]
        exact ofYes short derived spells ended
  · have other : choices.allow (stream.get start) = false := by
      cases word with
      | nil =>
          obtain rfl := spells_nil.mp spells
          exact Terminals.not_allow_of_within (kept derived.nullable) ended
      | cons head word =>
          rw [spells.1]
          exact Terminals.not_allow_of_apart settled derived.starts
    rw [other, if_neg (by decide)]
    exact ofNo short derived spells ended

/-- The rounds of a loop are read one after the other, as long as another round comes next. -/
theorem rounds {ahead : List Terminals} (exact : ExactOn stream length body form goesOn)
    (leads : form.leads ahead = true) (filled : form.nullable = false)
    (settled : form.first.apart goesOn = true) {own : String} {start stop : Nat}
    {word : List Token} {outline : Outline} (short : word.length ≤ length)
    (derived : Derives Nonterminal.production own (.many form) word outline)
    (spells : Spells stream start word stop) (stopped : stream.startsWith ahead stop = false)
    (ended : goesOn.allow (stream.get stop) = false) :
    Accepts stream own (.whileNext ahead body) start stop outline := by
  -- by induction on the length of the word that is left
  induction remaining : word.length using Nat.strongRecOn generalizing start word outline with
  | ind _ ih =>
      subst remaining
      rcases derives_many.mp derived with
        ⟨rfl, rfl⟩ | ⟨front, back, before, after, one, more, rfl, rfl⟩
      · obtain rfl := spells
        exact (accepts_whileNext_of_stop stopped).mpr ⟨rfl, rfl⟩
      · obtain ⟨middle, spellsFront, spellsBack⟩ := spells_append.mp spells
        have started := spellsFront.startsWith (startsLike_of_leads leads one)
        have positive := List.length_pos_iff.mpr (one.ne_nil filled)
        rw [List.length_append] at short
        have between : goesOn.allow (stream.get middle) = false := by
          cases back with
          | nil =>
              obtain rfl := spells_nil.mp spellsBack
              exact ended
          | cons head back =>
              rw [spellsBack.1]
              exact Terminals.not_allow_of_apart settled more.starts
        have round := exact (by omega) one spellsFront between
        have rest := ih back.length (by rw [List.length_append]; omega) (by omega) more spellsBack
          rfl
        exact (accepts_whileNext_of_ahead started).mpr ⟨_, _, _, round, rest, rfl⟩

theorem whileNext {ahead : List Terminals} (exact : ExactOn stream length body form goesOn)
    (some : ahead ≠ []) (leads : form.leads ahead = true) (filled : form.nullable = false)
    (settled : form.first.apart goesOn = true) :
    ExactOn stream length (.whileNext ahead body) (.many form) (ahead.headD [] ++ goesOn) := by
  intro own start stop word outline short derived spells ended
  simp only [Terminals.allow_append, Bool.or_eq_false_iff] at ended
  exact exact.rounds leads filled settled short derived spells (startsWith_headD some ended.1)
    ended.2

end ExactOn

/-! ## Phrases and rules -/

theorem Terminals.within_append_left {inner left right : Terminals}
    (inside : inner.within left = true) : inner.within (left ++ right) = true := by
  simp only [within, List.all_eq_true, decide_eq_true_eq] at inside ⊢
  exact fun terminal member => List.mem_append_left _ (inside terminal member)

theorem Terminals.within_append_right {inner left right : Terminals}
    (inside : inner.within right = true) : inner.within (left ++ right) = true := by
  simp only [within, List.all_eq_true, decide_eq_true_eq] at inside ⊢
  exact fun terminal member => List.mem_append_right _ (inside terminal member)

@[simp] theorem Terminals.within_self (terminals : Terminals) :
    terminals.within terminals = true := by
  simp [within]

/-- A decided phrase is exact when the rules in it are. -/
theorem Phrase.exact_of_decided {phrase : Phrase} (decided : phrase.decided bound = true)
    (rules : RulesExact stream bound length) : phrase.ExactOn stream length := by
  induction phrase generalizing bound length with
  | done =>
      intro own start stop word outline short derived spells ended
      obtain ⟨rfl, rfl⟩ := derives_empty.mp derived
      exact accepts_done.mpr ⟨spells, rfl⟩
  | countEntry =>
      intro own start stop word outline short derived spells ended
      obtain ⟨rfl, rfl⟩ := derives_countEntry.mp derived
      exact accepts_countEntry.mpr ⟨spells, rfl⟩
  | expect choices label =>
      intro own start stop word outline short derived spells ended
      obtain ⟨token, allowed, rfl, rfl⟩ := derives_token.mp derived
      exact accepts_expect.mpr ⟨spells.1.symm ▸ allowed, spells.2, rfl⟩
  | expectOwnName =>
      intro own start stop word outline short derived spells ended
      obtain ⟨token, admitted, rfl, rfl⟩ := derives_ownName.mp derived
      exact accepts_expectOwnName.mpr ⟨spells.1.symm ▸ admitted, spells.2, rfl⟩
  | fail label =>
      intro own start stop word outline short derived spells ended
      exact absurd derived not_derives_never
  | rule called =>
      intro own start stop word outline short derived spells ended
      simp only [Phrase.decided, decide_eq_true_eq] at decided
      exact accepts_rule.mpr (rules.lower called decided short derived spells ended)
  | seq first second ihFirst ihSecond =>
      simp only [Phrase.decided, Bool.and_eq_true] at decided
      refine (ihFirst decided.1.1 rules).seq (fun less fewer lesser => ?_) decided.2 ?_
      · have exact : second.ExactOn stream less := by
          have decided := decided.1.2
          cases nullable : first.wanted.nullable with
          | true =>
              rw [nullable, if_pos rfl] at decided
              exact (ihSecond decided rules).weaken fewer (Terminals.within_self _)
          | false =>
              -- a token was taken, so any rule may be entered
              rw [nullable, if_neg (by decide)] at decided
              exact ihSecond decided (rules.less (lesser nullable) 13)
        exact exact.weaken (Nat.le_refl _) (Terminals.within_append_left (Terminals.within_self _))
      · intro nullable
        rw [Phrase.goesOn, if_pos (show second.wanted.nullable = true from nullable)]
        exact Terminals.within_append_right (Terminals.within_self _)
  | ifNext ahead yes no ihYes ihNo =>
      simp only [Phrase.decided, Bool.and_eq_true, beq_iff_eq, Bool.not_eq_true'] at decided
      obtain ⟨⟨⟨⟨one, decidedYes⟩, decidedNo⟩, filled⟩, settled⟩ := decided
      obtain ⟨choices, rfl⟩ := List.length_eq_one_iff.mp one
      have inYes : yes.goesOn.within (Phrase.ifNext [choices] yes no).goesOn = true :=
        Terminals.within_append_left (Terminals.within_append_left (Terminals.within_self _))
      have inNo : no.goesOn.within (Phrase.ifNext [choices] yes no).goesOn = true :=
        Terminals.within_append_left (Terminals.within_append_right (Terminals.within_self _))
      refine ExactOn.ifNext choices ((ihYes decidedYes rules).weaken (Nat.le_refl _) inYes)
        ((ihNo decidedNo rules).weaken (Nat.le_refl _) inNo) filled settled ?_
      intro nullable
      rw [Phrase.goesOn, if_pos (show no.wanted.nullable = true from nullable)]
      exact Terminals.within_append_right (Terminals.within_self _)
  | whileNext ahead body ih =>
      simp only [Phrase.decided, Bool.and_eq_true, decide_eq_true_eq, Bool.not_eq_true'] at decided
      obtain ⟨⟨⟨⟨some, decided⟩, leads⟩, filled⟩, settled⟩ := decided
      exact ExactOn.whileNext (ih decided rules) some leads filled settled
  | orElse _ _ _ _ | ifAhead _ _ _ _ _ _ => exact Bool.noConfusion decided
  | inClass body ih =>
      intro own start stop word outline short derived spells ended
      obtain ⟨name, rest, inner, admitted, held, rfl, rfl⟩ := derives_inClass.mp derived
      obtain ⟨rfl, spells⟩ := spells
      rw [List.length_cons] at short
      exact accepts_inClass.mpr ⟨admitted, inner,
        ih decided (rules.less (show rest.length < length by omega) 13) (Nat.le_refl _) held
          spells ended,
        rfl⟩

end

namespace Rule

/-- The production of a symbol, and other forms as they are. -/
def wantedProduction (rule : Rule) : Form :=
  match rule.wanted with
  | .symbol name => name.production
  | form => form

/-- The body of the rule is decided, and it is no narrower than the rule. -/
def settled (rule : Rule) : Bool :=
  rule.body.decided rule.rank && rule.body.goesOn.within rule.goesOn &&
    rule.wantedProduction.within 16 rule.body.wanted

theorem derives_wantedProduction {rule : Rule} {own : String} {word : List Token}
    {outline : Outline} :
    Derives Nonterminal.production own rule.wanted word outline ↔
      Derives Nonterminal.production own rule.wantedProduction word outline := by
  unfold wantedProduction
  split
  · rename_i name same
    rw [same]
    exact derives_symbol
  · rfl

/-- A settled rule is exact when the rules in it are. -/
theorem exact_of_settled {rule : Rule} (settled : rule.settled = true) {stream : TokenStream}
    {length : Nat} (rules : RulesExact stream rule.rank length) :
    rule.ExactOn stream length := by
  simp only [Rule.settled, Bool.and_eq_true] at settled
  have exact := Phrase.exact_of_decided settled.1.1 rules
  exact (exact.weaken (Nat.le_refl _) settled.1.2).ofForm fun derived =>
    (derives_wantedProduction.mp derived).mono 16 settled.2

end Rule

end ClassSyntax

import ClassSyntax.Proofs.Language.Words

/-!
# Primitive types that are called

The table in which a primitive type may be called has more words than the table of the language. With a
class name in place of each type that is called, its words become words of the language, and nothing
changes in front of the first such type.

* `IsFreeWord`: the words of the larger table.
* `Derives.free`: every word of the language is a word of the larger table.
* `Derives.retyped`: a class name may stand in place of each primitive type that is called.
* `Derives.firm`, `Retyped.behind`: in a word of the language no primitive type is called, and so nothing is
  put in its place.
-/

namespace ClassSyntax

/-- A word of the form in the table in which a primitive type may be called. -/
def IsFreeWord (own : String) (form : Form) (word : List Token) : Prop :=
  ∃ outline, Derives Nonterminal.freeProduction own form word outline

/-! ## Words of the language in the larger table -/

section

variable {own : String} {word : List Token} {outline : Outline}

/-- The type and what follows it can be chosen apart from each other. -/
theorem derives_freeCreation
    (derived : Derives Nonterminal.freeProduction own (Nonterminal.production .creation) word outline) :
    Derives Nonterminal.freeProduction own (Nonterminal.freeProduction .creation) word outline := by
  obtain ⟨new, rest, before, after, isNew, created, rfl, rfl⟩ := derives_seq.mp derived
  rcases derives_alt.mp created with isArray | isObject
  · obtain ⟨type, lengths, between, further, isType, isLengths, rfl, rfl⟩ := derives_seq.mp isArray
    exact .seq isNew (.seq (.left isType) (.right isLengths))
  · obtain ⟨name, made, between, further, isName, isMade, rfl, rfl⟩ := derives_seq.mp isObject
    exact .seq isNew (.seq (.right isName) isMade)

/-- Every word of the language is a word of the larger table. -/
theorem Derives.free {form : Form} (derived : Derives Nonterminal.production own form word outline) :
    Derives Nonterminal.freeProduction own form word outline := by
  induction derived with
  | empty => exact .empty
  | token allowed => exact .token allowed
  | ownName admitted => exact .ownName admitted
  | @symbol _ name _ _ _ ih =>
      cases name with
      | creation => exact .symbol (derives_freeCreation ih)
      | _ => exact .symbol ih
  | seq _ _ ihFirst ihSecond => exact .seq ihFirst ihSecond
  | left _ ih => exact .left ih
  | right _ ih => exact .right ih
  | manyNone => exact .manyNone
  | manyMore _ _ ihFirst ihRest => exact .manyMore ihFirst ihRest
  | guarded _ opens ih => exact .guarded ih opens
  | unlike _ different ih => exact .unlike ih different
  | inClass admitted _ ih => exact .inClass admitted ih
  | countEntry => exact .countEntry

theorem IsWord.free {form : Form} (isWord : IsWord own form word) : IsFreeWord own form word :=
  ⟨.empty, Derives.free isWord⟩

theorem IsFreeWord.symbol {name : Nonterminal} (isWord : IsFreeWord own name.freeProduction word) :
    IsFreeWord own (.symbol name) word := by
  obtain ⟨outline, derived⟩ := isWord
  exact ⟨outline, .symbol derived⟩

theorem IsFreeWord.left {first second : Form} (isWord : IsFreeWord own first word) :
    IsFreeWord own (.alt first second) word := by
  obtain ⟨outline, derived⟩ := isWord
  exact ⟨outline, .left derived⟩

theorem IsFreeWord.right {first second : Form} (isWord : IsFreeWord own second word) :
    IsFreeWord own (.alt first second) word := by
  obtain ⟨outline, derived⟩ := isWord
  exact ⟨outline, .right derived⟩

theorem IsFreeWord.seq {first second : Form} {left right : List Token}
    (isFirst : IsFreeWord own first left) (isSecond : IsFreeWord own second right) :
    IsFreeWord own (.seq first second) (left ++ right) := by
  obtain ⟨_, one⟩ := isFirst
  obtain ⟨_, two⟩ := isSecond
  exact ⟨_, .seq one two⟩

/-- A form behind several others. -/
theorem IsFreeWord.all_concat {forms : List Form} {last : Form} {front back : List Token}
    (isFront : IsFreeWord own (.all forms) front) (isBack : IsFreeWord own last back)
    (some : forms ≠ []) : IsFreeWord own (.all (forms ++ [last])) (front ++ back) := by
  induction forms generalizing front with
  | nil => exact absurd rfl some
  | cons form forms ih =>
      cases forms with
      | nil => exact isFront.seq isBack
      | cons next forms =>
          obtain ⟨_, derived⟩ := isFront
          obtain ⟨left, right, _, _, one, more, rfl, -⟩ := derives_seq.mp derived
          rw [List.append_assoc]
          exact IsFreeWord.seq ⟨_, one⟩ (ih ⟨_, more⟩ (List.cons_ne_nil _ _))

end

/-! ## Class names in place of types -/

/-- A class name. -/
def Token.className : Token := ⟨.identifier, "A", 1⟩

/-- The second word is the first one with class names in place of some primitive types that are called. -/
inductive Retyped (word : List Token) : List Token → Prop
  | same : Retyped word word
  | step {before after : List Token} {new type call : Token} :
      (Terminal.keyword "new").admits new = true → First.primitiveType.allow type = true →
      (Terminal.mark "(").admits call = true →
      Retyped word (before ++ new :: type :: call :: after) →
      Retyped word (before ++ new :: Token.className :: call :: after)

theorem Retyped.append {left right one other : List Token} (first : Retyped left one)
    (second : Retyped right other) : Retyped (left ++ right) (one ++ other) := by
  have front : Retyped (left ++ right) (one ++ right) := by
    clear second
    induction first with
    | same => exact .same
    | step isNew isType isCall _ ih =>
        rw [List.append_assoc] at ih ⊢
        exact .step isNew isType isCall ih
  induction second with
  | same => exact front
  | step isNew isType isCall _ ih =>
      rw [← List.append_assoc] at ih ⊢
      exact .step isNew isType isCall ih

/-- The first token stays. -/
theorem Retyped.head?_eq {word other : List Token} (retyped : Retyped word other) :
    other.head? = word.head? := by
  induction retyped with
  | same => rfl
  | @step before _ _ _ _ _ _ _ _ ih =>
      rw [← ih]
      cases before <;> rfl

namespace Form

/-- Asks for nothing but the tokens of a word, below the members. -/
def plain : Form → Bool
  | empty | token _ | ownName => true
  | symbol name => name.quiet
  | seq first second | alt first second => first.plain && second.plain
  | many body => body.plain
  | guarded _ _ | unlike _ _ | inClass _ | countEntry => false

end Form

theorem freeProduction_plain {name : Nonterminal} (quiet : name.quiet = true) :
    name.freeProduction.plain = true := by
  revert quiet
  cases name with
  | binary level => cases level <;> decide
  | _ => decide

section

variable {own : String} {word : List Token} {outline : Outline}

/-- When a primitive type is called, a class name is put in its place. -/
theorem IsWord.retyped_creation {whole : List Token} (retyped : Retyped whole word)
    (isWord : IsWord own (Nonterminal.freeProduction .creation) word) :
    ∃ other, Retyped whole other ∧ IsWord own (.symbol .creation) other := by
  obtain ⟨opening, rest, isNew, isCreated, rfl⟩ := isWord_seq.mp isWord
  obtain ⟨type, made, isType, isMade, rfl⟩ := isWord_seq.mp isCreated
  rcases isWord_alt.mp isType with isPrimitive | isName
  · rcases isWord_alt.mp isMade with isArgs | isArray
    · have name : IsWord own (.symbol .qualifiedName) [Token.className] :=
        isWord_symbol.mpr (isWord_seq.mpr ⟨[Token.className], [], isWord_token.mpr ⟨_, rfl, rfl⟩,
          isWord_many.mpr (.inl rfl), rfl⟩)
      refine ⟨_, ?_, isWord_symbol.mpr (isNew.seq
        (isWord_alt.mpr (.inr (name.seq (isWord_alt.mpr (.inl isArgs))))))⟩
      obtain ⟨new, named, rfl⟩ := isWord_token.mp isNew
      obtain ⟨primitive, allowed, rfl⟩ := isWord_token.mp isPrimitive
      obtain ⟨left, right, isLeft, -, rfl⟩ := isWord_seq.mp (isWord_symbol.mp isArgs)
      obtain ⟨call, called, rfl⟩ := isWord_token.mp isLeft
      rw [Terminals.allow_singleton] at named called
      rw [← List.nil_append (_ ++ _)] at retyped ⊢
      exact .step named allowed called retyped
    · exact ⟨_, retyped, isWord_symbol.mpr (isNew.seq
        (isWord_alt.mpr (.inl (isPrimitive.seq isArray))))⟩
  · exact ⟨_, retyped, isWord_symbol.mpr (isNew.seq (isWord_alt.mpr (.inr (isName.seq isMade))))⟩

/-- With class names in place of the primitive types that are called, a word of the larger table is a word of
the language. -/
theorem Derives.retyped {form : Form}
    (derived : Derives Nonterminal.freeProduction own form word outline)
    (plain : form.plain = true) : ∃ other, Retyped word other ∧ IsWord own form other := by
  induction derived with
  | empty => exact ⟨[], .same, .empty⟩
  | token allowed => exact ⟨_, .same, .token allowed⟩
  | ownName admitted => exact ⟨_, .same, .ownName admitted⟩
  | @symbol _ name _ _ _ ih =>
      obtain ⟨other, retyped, isWord⟩ := ih (freeProduction_plain plain)
      cases name with
      | creation => exact isWord.retyped_creation retyped
      | _ => exact ⟨other, retyped, isWord_symbol.mpr isWord⟩
  | seq _ _ ihFirst ihSecond =>
      simp only [Form.plain, Bool.and_eq_true] at plain
      obtain ⟨_, first, isFirst⟩ := ihFirst plain.1
      obtain ⟨_, second, isSecond⟩ := ihSecond plain.2
      exact ⟨_, first.append second, isFirst.seq isSecond⟩
  | left _ ih =>
      simp only [Form.plain, Bool.and_eq_true] at plain
      obtain ⟨other, retyped, isWord⟩ := ih plain.1
      exact ⟨other, retyped, isWord_alt.mpr (.inl isWord)⟩
  | right _ ih =>
      simp only [Form.plain, Bool.and_eq_true] at plain
      obtain ⟨other, retyped, isWord⟩ := ih plain.2
      exact ⟨other, retyped, isWord_alt.mpr (.inr isWord)⟩
  | manyNone => exact ⟨[], .same, .manyNone⟩
  | manyMore _ _ ihFirst ihRest =>
      obtain ⟨_, first, isFirst⟩ := ihFirst plain
      obtain ⟨_, rest, isRest⟩ := ihRest plain
      exact ⟨_, first.append rest, isFirst.many isRest⟩
  | guarded | unlike | inClass | countEntry => exact Bool.noConfusion plain

end

/-! ## Words in which no primitive type is called -/

/-- What follows `new`: no primitive type, or a primitive type that is not called. -/
def Uncalled (word : List Token) : Prop :=
  ∃ type rest, word = type :: rest ∧ (First.primitiveType.allow type = true →
    ∃ next more, rest = next :: more ∧ (Terminal.mark "(").admits next = false)

/-- Behind every `new` in the word stands something, and it is no primitive type that is called. -/
def Firm : List Token → Prop
  | [] => True
  | head :: rest => ((Terminal.keyword "new").admits head = true → Uncalled rest) ∧ Firm rest

theorem Uncalled.append {left : List Token} (uncalled : Uncalled left) (right : List Token) :
    Uncalled (left ++ right) := by
  obtain ⟨type, rest, rfl, behind⟩ := uncalled
  refine ⟨type, rest ++ right, rfl, fun primitive => ?_⟩
  obtain ⟨next, more, rfl, other⟩ := behind primitive
  exact ⟨next, more ++ right, rfl, other⟩

theorem Uncalled.not_admits {type next : Token} {rest : List Token}
    (uncalled : Uncalled (type :: next :: rest)) (primitive : First.primitiveType.allow type = true) :
    (Terminal.mark "(").admits next = false := by
  obtain ⟨_, _, same, behind⟩ := uncalled
  obtain ⟨rfl, rfl⟩ := List.cons.inj same
  obtain ⟨_, _, same, other⟩ := behind primitive
  obtain ⟨rfl, -⟩ := List.cons.inj same
  exact other

namespace Firm

variable {left right : List Token}

theorem append (first : Firm left) (second : Firm right) : Firm (left ++ right) := by
  induction left with
  | nil => exact second
  | cons head left ih =>
      obtain ⟨uncalled, rest⟩ := first
      exact ⟨fun isNew => (uncalled isNew).append right, ih rest⟩

theorem of_append (firm : Firm (left ++ right)) : Firm right := by
  induction left with
  | nil => exact firm
  | cons head left ih => exact ih firm.2

theorem single {token : Token} (other : (Terminal.keyword "new").admits token = false) :
    Firm [token] :=
  ⟨fun isNew => Bool.noConfusion (other.symm.trans isNew), trivial⟩

end Firm

/-- Nothing is put in place of the tokens of a firm word. -/
theorem Retyped.behind {front rest other : List Token} (retyped : Retyped (front ++ rest) other)
    (firm : Firm front) : ∃ later, other = front ++ later ∧ Retyped rest later := by
  induction retyped with
  | same => exact ⟨rest, rfl, .same⟩
  | @step before after new type call isNew isType isCall _ ih =>
      obtain ⟨later, same, retyped⟩ := ih
      rcases List.append_eq_append_iff.mp same with ⟨inside, rfl, split⟩ | ⟨inside, rfl, rfl⟩
      · cases inside with
        | nil =>
            obtain rfl : _ = later := split
            rw [← List.nil_append (_ :: _)] at retyped
            exact ⟨_, by rw [List.append_nil, List.nil_append], .step isNew isType isCall retyped⟩
        | cons head inside =>
            -- the `new` would be in the firm word, where no type is called
            obtain ⟨rfl, called⟩ := List.cons.inj split
            have uncalled := (firm.of_append.1 isNew).append later
            rw [show inside ++ later = _ from called.symm] at uncalled
            exact absurd isCall (Bool.eq_false_iff.mp (uncalled.not_admits isType))
      · exact ⟨_, List.append_assoc .., retyped.step isNew isType isCall⟩

namespace Form

/-- No word of the form holds `new`, but inside the words of its symbols. -/
def newless : Form → Bool
  | token choices => choices.apart [.keyword "new"]
  | empty | ownName | symbol _ | countEntry => true
  | seq first second | alt first second => first.newless && second.newless
  | many body | guarded _ body | unlike _ body | inClass body => body.newless

end Form

theorem production_newless {name : Nonterminal} (other : name ≠ .creation) :
    name.production.newless = true := by
  cases name with
  | creation => exact absurd rfl other
  | binary level => cases level <;> decide
  | _ => decide

section

variable {own : String} {word : List Token} {outline : Outline}

/-- Behind `new` a primitive type is not called. -/
theorem IsWord.uncalled
    (isWord : IsWord own (.alt (.seq (.token First.primitiveType) Form.newArray)
      (.seq (.symbol .qualifiedName) (.alt (.symbol .args) Form.newArray))) word) :
    Uncalled word := by
  rcases isWord_alt.mp isWord with isArray | isObject
  · obtain ⟨_, lengths, isType, isLengths, rfl⟩ := isWord_seq.mp isArray
    obtain ⟨type, -, rfl⟩ := isWord_token.mp isType
    obtain ⟨_, behind, isMark, -, rfl⟩ := isWord_seq.mp isLengths
    obtain ⟨next, opens, rfl⟩ := isWord_token.mp isMark
    rw [Terminals.allow_singleton] at opens
    exact ⟨type, _, rfl, fun _ => ⟨next, behind, rfl, Terminal.not_admits_of_apart (by decide) opens⟩⟩
  · obtain ⟨_, made, isName, -, rfl⟩ := isWord_seq.mp isObject
    obtain ⟨_, names, isFirst, -, rfl⟩ := isWord_seq.mp (isWord_symbol.mp isName)
    obtain ⟨name, named, rfl⟩ := isWord_token.mp isFirst
    exact ⟨name, names ++ made, rfl, fun primitive =>
      (Terminals.not_both (by decide) named primitive).elim⟩

/-- In a word of the language no primitive type is called. -/
theorem Derives.firm {form : Form} (derived : Derives Nonterminal.production own form word outline)
    (newless : form.newless = true ∨ form = Nonterminal.production .creation) : Firm word := by
  induction derived with
  | empty | manyNone | countEntry => exact trivial
  | token allowed =>
      have apart := newless.resolve_right nofun
      exact .single (by simpa using Terminals.not_allow_of_apart apart allowed)
  | ownName admitted =>
      exact .single (Terminal.not_admits_of_apart (by decide) (identifier_of_named admitted))
  | @symbol _ name _ _ _ ih =>
      by_cases created : name = .creation
      · exact ih (.inr (congrArg _ created))
      · exact ih (.inl (production_newless created))
  | seq first second ihFirst ihSecond =>
      rcases newless with newless | created
      · simp only [Form.newless, Bool.and_eq_true] at newless
        exact (ihFirst (.inl newless.1)).append (ihSecond (.inl newless.2))
      · obtain ⟨rfl, rfl⟩ := Form.seq.inj created
        obtain ⟨new, -, rfl, -⟩ := derives_token.mp first
        exact ⟨fun _ => (second.isWord rfl).2.uncalled, ihSecond (.inl (by decide))⟩
  | left _ ih =>
      have both := newless.resolve_right nofun
      simp only [Form.newless, Bool.and_eq_true] at both
      exact ih (.inl both.1)
  | right _ ih =>
      have both := newless.resolve_right nofun
      simp only [Form.newless, Bool.and_eq_true] at both
      exact ih (.inl both.2)
  | manyMore _ _ ihFirst ihRest =>
      have body := newless.resolve_right nofun
      exact (ihFirst (.inl body)).append (ihRest (.inl body))
  | guarded _ _ ih | unlike _ _ ih => exact ih (.inl (newless.resolve_right nofun))
  | inClass admitted _ ih =>
      exact ⟨fun isNew => Bool.noConfusion
        ((Terminal.not_admits_of_apart (by decide) admitted).symm.trans isNew),
        ih (.inl (newless.resolve_right nofun))⟩

end

end ClassSyntax

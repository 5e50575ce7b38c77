import ClassSyntax.Proofs.Language.Values

/-!
# Members are read exactly

Which form a member takes is decided by trial. The trials of the forms that it does not take fail, and
the trial of its own form goes through.

* `IsWord.declaresAttribute`, `IsWord.declaresMethod`, `IsWord.declaresConstructor`: how the members
  start.
* `Rule.exact_member`: the choice between the forms is exact.
-/

namespace ClassSyntax

variable {stream : TokenStream} {own : String} {length : Nat}

/-! ## How members start -/

/-- Behind the modifiers come a word of `type`, a name and a token of `behind`. -/
def Declares (own : String) (type : Form) (behind : Terminals) (word : List Token) : Prop :=
  ∃ modifiers typed name next rest, word = modifiers ++ (typed ++ name :: next :: rest) ∧
    IsWord own Form.modifiers modifiers ∧ IsWord own type typed ∧
      Terminal.identifier.admits name = true ∧ behind.allow next = true

namespace Form

/-- What a method returns. -/
def returned : Form := alt (symbol .typeName) (keyword "void")

end Form

namespace Terminals

/-- Behind the name of an attribute. -/
def behindAttribute : Terminals := [.operator "=", .mark ";", .mark ","]

end Terminals

/-- The first token of a word that is not empty. -/
theorem IsWord.exists_cons {form : Form} {word : List Token} (isWord : IsWord own form word)
    (filled : form.nullable = false) :
    ∃ head rest, word = head :: rest ∧ form.first.allow head = true := by
  cases word with
  | nil => exact absurd rfl (Derives.ne_nil isWord filled)
  | cons head rest => exact ⟨head, rest, rfl, Derives.starts isWord⟩

theorem IsWord.declaresAttribute {word : List Token}
    (isWord : IsWord own (.symbol .attributeDecl) word) :
    Declares own (.symbol .typeName) Terminals.behindAttribute word := by
  obtain ⟨modifiers, declaration, isModifiers, isDeclaration, rfl⟩ :=
    isWord_seq.mp (isWord_symbol.mp isWord)
  obtain ⟨declarators, last, isDeclarators, isLast, rfl⟩ := isWord_seq.mp isDeclaration
  obtain ⟨typed, names, isType, isNames, rfl⟩ := isWord_seq.mp isDeclarators
  obtain ⟨declarator, more, isDeclarator, isMore, rfl⟩ := isWord_seq.mp isNames
  obtain ⟨first, value, isFirst, isValue, rfl⟩ := isWord_seq.mp (isWord_symbol.mp isDeclarator)
  obtain ⟨name, isName, rfl⟩ := isWord_token.mp isFirst
  -- a value, another declarator or the semicolon stands behind the name
  have behind : ∃ next rest, value ++ (more ++ last) = next :: rest ∧
      Terminals.behindAttribute.allow next = true := by
    rcases isWord_optional.mp isValue with isValue | rfl
    · obtain ⟨next, rest, rfl, allowed⟩ := isValue.exists_cons rfl
      exact ⟨next, _, rfl, Terminals.allow_of_within (by decide) allowed⟩
    · rcases isWord_many.mp isMore with rfl | ⟨second, third, isSecond, -, rfl⟩
      · obtain ⟨next, rest, rfl, allowed⟩ := isLast.exists_cons rfl
        exact ⟨next, _, rfl, Terminals.allow_of_within (by decide) allowed⟩
      · obtain ⟨next, rest, rfl, allowed⟩ := isSecond.exists_cons rfl
        exact ⟨next, _, rfl, Terminals.allow_of_within (by decide) allowed⟩
  obtain ⟨next, rest, same, isNext⟩ := behind
  exact ⟨modifiers, typed, name, next, rest, by simp [← same], isModifiers, isType,
    by simpa using isName, isNext⟩

theorem IsWord.declaresMethod {word : List Token} (isWord : IsWord own (.symbol .method) word) :
    Declares own Form.returned [.mark "("] word := by
  obtain ⟨modifiers, declaration, isModifiers, isDeclaration, rfl⟩ :=
    isWord_seq.mp (isWord_symbol.mp isWord)
  obtain ⟨typed, named, isType, isNamed, rfl⟩ := isWord_seq.mp isDeclaration
  obtain ⟨first, behind, isFirst, isBehind, rfl⟩ := isWord_seq.mp isNamed
  obtain ⟨params, body, isParams, -, rfl⟩ := isWord_seq.mp isBehind
  obtain ⟨name, isName, rfl⟩ := isWord_token.mp isFirst
  obtain ⟨next, rest, rfl, isNext⟩ := isParams.exists_cons rfl
  exact ⟨modifiers, typed, name, next, rest ++ body, rfl, isModifiers, isType,
    by simpa using isName, isNext⟩

theorem IsWord.declaresConstructor {word : List Token}
    (isWord : IsWord own (.symbol .constructor) word) :
    ∃ modifiers name next rest, word = modifiers ++ name :: next :: rest ∧
      IsWord own Form.modifiers modifiers ∧ (Terminal.named own).admits name = true ∧
        (Terminal.mark "(").admits next = true := by
  obtain ⟨modifiers, named, isModifiers, isNamed, rfl⟩ :=
    isWord_seq.mp (isWord_symbol.mp isWord)
  obtain ⟨first, behind, isFirst, isBehind, rfl⟩ := isWord_seq.mp isNamed
  obtain ⟨params, body, isParams, -, rfl⟩ := isWord_seq.mp isBehind
  obtain ⟨name, isName, rfl⟩ := isWord_ownName.mp isFirst
  obtain ⟨next, rest, rfl, isNext⟩ := isParams.exists_cons rfl
  exact ⟨modifiers, name, next, rest ++ body, rfl, isModifiers, isName,
    by simpa using show Terminals.allow [.mark "("] next = true from isNext⟩

/-- A type is one token, or goes on with a point or brackets. -/
theorem opensWith_type {head : Token} {rest : List Token}
    (isType : IsWord own Form.returned (head :: rest)) :
    opensWith [.mark ".", .mark "["] rest = true := by
  rcases isWord_alt.mp isType with isType | isVoid
  · obtain ⟨left, brackets, isLeft, isBrackets, same⟩ := isWord_seq.mp (isWord_symbol.mp isType)
    have closing : opensWith [.mark ".", .mark "["] brackets = true :=
      opensWith_of_isWord isBrackets (by decide)
    rcases isWord_alt.mp isLeft with isPrimitive | isName
    · obtain ⟨primitive, -, rfl⟩ := isWord_token.mp isPrimitive
      obtain ⟨rfl, rfl⟩ := List.cons.inj same
      exact closing
    · obtain ⟨first, names, isFirst, isNames, rfl⟩ := isWord_seq.mp (isWord_symbol.mp isName)
      obtain ⟨name, -, rfl⟩ := isWord_token.mp isFirst
      obtain ⟨rfl, rfl⟩ : head = name ∧ rest = names ++ brackets := List.cons.inj same
      exact opensWith_append (opensWith_of_isWord isNames (by decide)) closing
  · obtain ⟨void, -, same⟩ := isWord_token.mp isVoid
    obtain ⟨rfl, rfl⟩ := List.cons.inj same
    rfl

/-! ## Trials of members -/

theorem accepts_modifiers (rules : RulesExact stream Rule.member.rank length) {start stop : Nat}
    {modifiers : List Token} (short : modifiers.length ≤ length)
    (isModifiers : IsWord own Form.modifiers modifiers)
    (spells : Spells stream start modifiers stop)
    (ended : First.modifier.allow (stream.get stop) = false) :
    Accepts stream own (.rule .modifiers) start stop .empty :=
  rules.atOnce .modifiers (by decide) (Nat.le_refl _) short isModifiers spells ended

/-- The start of a declaration is read up to its name, and the token behind the name decides. -/
theorem declared (rules : RulesExact stream Rule.member.rank length) (type : Rule)
    (listed : type ∈ [Rule.typeName, .returnType]) {behind : Terminals} {start stop : Nat}
    {word : List Token} (short : word.length ≤ length)
    (declares : Declares own type.wanted behind word) (spells : Spells stream start word stop)
    (label : String) :
    ∃ middle place, Accepts stream own (.rule .modifiers) start middle .empty ∧
      Accepts stream own (.seq (.rule type) (Phrase.identifier label)) middle place .empty ∧
        behind.allow (stream.get place) = true := by
  obtain ⟨modifiers, typed, name, next, rest, rfl, isModifiers, isType, isName, isNext⟩ := declares
  obtain ⟨middle, spellsModifiers, spellsRest⟩ := spells_append.mp spells
  obtain ⟨place, spellsType, rfl, rfl, -⟩ := spells_append.mp spellsRest
  simp only [List.length_append] at short
  have named : Terminals.allow [.identifier] (stream.get place) = true := by simpa using isName
  have filled : type.wanted.nullable = false ∧
      type.wanted.first.apart First.modifier = true ∧
        type.rank < Rule.member.rank ∧ type.goesOn = [.mark ".", .mark "["] := by
    rcases List.mem_cons.mp listed with rfl | listed
    · decide
    · obtain rfl := List.mem_singleton.mp listed
      decide
  obtain ⟨filled, different, below, goesOn⟩ := filled
  refine ⟨middle, place + 1, ?_, ?_, isNext⟩
  · refine accepts_modifiers rules (by omega) isModifiers spellsModifiers ?_
    obtain ⟨head, others, rfl, starts⟩ := isType.exists_cons filled
    rw [spellsType.1]
    exact Terminals.not_allow_of_apart different starts
  · refine Accepts.seq (rules.atOnce type below (Nat.le_refl _) (by omega) isType spellsType ?_)
      (accepts_expect.mpr ⟨named, rfl, rfl⟩)
    rw [goesOn]
    exact Terminals.not_allow_of_apart (by decide) named

/-- No declaration with a type is read as a constructor. -/
theorem refuses_constructorHead (rules : RulesExact stream Rule.member.rank length)
    {behind : Terminals} {start stop : Nat} {word : List Token} (short : word.length ≤ length)
    (declares : Declares own Form.returned behind word) (spells : Spells stream start word stop) :
    Refuses stream own Phrase.constructorHead start := by
  obtain ⟨modifiers, typed, name, next, rest, rfl, isModifiers, isType, isName, isNext⟩ := declares
  obtain ⟨middle, spellsModifiers, spellsRest⟩ := spells_append.mp spells
  obtain ⟨head, others, rfl, starts⟩ := isType.exists_cons rfl
  obtain ⟨rfl, spellsRest⟩ := spellsRest
  rw [List.length_append] at short
  have readModifiers := accepts_modifiers rules (by omega) isModifiers spellsModifiers
    (Terminals.not_allow_of_apart (by decide) starts)
  refine refuses_seq_of_second readModifiers ?_
  cases named : (Terminal.named own).admits (stream.get middle) with
  | false => exact refuses_seq_of_first (refuses_expectOwnName named)
  | true =>
      -- the name of the class is the type, and no parenthesis can stand behind it
      refine refuses_seq_of_second (accepts_expectOwnName.mpr ⟨named, rfl, rfl⟩)
        (refuses_expect ?_)
      have opens := opensWith_type isType
      cases others with
      | nil =>
          rw [spellsRest.1]
          exact Terminals.not_allow_of_apart (by decide)
            (show Terminals.allow [.identifier] name = true by simpa using isName)
      | cons second others =>
          rw [spellsRest.1]
          exact Terminals.not_allow_of_apart (by decide)
            (show Terminals.allow [.mark ".", .mark "["] second = true from opens)

/-! ## Entry methods -/

/-- Where a stream starts like this, so does a word in it, unless the word is over before. -/
theorem startsLike_or_forall {header : List Terminals} {start stop : Nat} {word : List Token}
    (starts : stream.startsWith header start = true) (spells : Spells stream start word stop) :
    startsLike header word = true ∨
      ∀ token ∈ word, ∃ choices ∈ header, choices.allow token = true := by
  induction header generalizing start word with
  | nil => exact .inl rfl
  | cons choices more ih =>
      cases word with
      | nil => exact .inr (by simp)
      | cons head word =>
          rw [TokenStream.startsWith, Bool.and_eq_true, spells.1] at starts
          rcases ih starts.2 spells.2 with like | all
          · exact .inl (by rw [startsLike, starts.1, like]; rfl)
          · refine .inr (List.forall_mem_cons.mpr ⟨⟨choices, List.mem_cons_self, starts.1⟩, ?_⟩)
            intro token member
            obtain ⟨others, listed, allowed⟩ := all token member
            exact ⟨others, List.mem_cons_of_mem _ listed, allowed⟩

/-- A member that does not start like an entry method is not taken for one. -/
theorem not_startsWith_entryHeader {start stop : Nat} {word : List Token} {token : Token}
    {behind : Terminals} (spells : Spells stream start word stop)
    (unlike : startsLike MemberKind.entryHeader word = false) (member : token ∈ word)
    (allowed : behind.allow token = true)
    (different : ∀ choices ∈ MemberKind.entryHeader, behind.apart choices = true) :
    stream.startsWith MemberKind.entryHeader start = false := by
  rw [← Bool.not_eq_true]
  intro starts
  rcases startsLike_or_forall starts spells with like | all
  · rw [like] at unlike
    exact Bool.noConfusion unlike
  · obtain ⟨choices, listed, also⟩ := all token member
    rw [Terminals.not_allow_of_apart (different choices listed) allowed] at also
    exact Bool.noConfusion also

theorem Declares.mem_next {type : Form} {behind : Terminals} {word : List Token}
    (declares : Declares own type behind word) : ∃ token ∈ word, behind.allow token = true := by
  obtain ⟨modifiers, typed, name, next, rest, rfl, -, -, -, isNext⟩ := declares
  exact ⟨next, by simp, isNext⟩

/-! ## The choice -/

namespace Phrase

/-- A member that is not an entry method. -/
def otherMember : Phrase :=
  ifAhead constructorHead (rule .constructor)
    (ifAhead methodHead (rule .method)
      (ifAhead attributeHead (rule .attributeDecl) (rule .unknownMember)))

end Phrase

section

variable {start stop : Nat} {word : List Token}

theorem accepts_constructor (rules : RulesExact stream Rule.member.rank length)
    (short : word.length ≤ length) (isWord : IsWord own (.symbol .constructor) word)
    (spells : Spells stream start word stop) :
    Accepts stream own Phrase.otherMember start stop .empty := by
  have read : Accepts stream own (.rule .constructor) start stop .empty :=
    rules.atOnce .constructor (by decide) (Nat.le_refl _) short isWord spells rfl
  obtain ⟨modifiers, name, next, rest, rfl, isModifiers, isName, isNext⟩ :=
    isWord.declaresConstructor
  obtain ⟨middle, spellsModifiers, rfl, rfl, -⟩ := spells_append.mp spells
  rw [List.length_append] at short
  have named : Terminals.allow [.identifier] (stream.get middle) = true := by
    simpa using identifier_of_named isName
  have readModifiers := accepts_modifiers rules (by omega) isModifiers spellsModifiers
    (Terminals.not_allow_of_apart (by decide) named)
  refine accepts_ifAhead.mpr (.inl ⟨⟨middle + 1 + 1, _, readModifiers.seq (Accepts.seq
    (accepts_expectOwnName.mpr ⟨isName, rfl, rfl⟩) (accepts_expect.mpr ⟨?_, rfl, rfl⟩))⟩, read⟩)
  simpa using isNext

theorem accepts_method (rules : RulesExact stream Rule.member.rank length)
    (short : word.length ≤ length) (isWord : IsWord own (.symbol .method) word)
    (spells : Spells stream start word stop) :
    Accepts stream own Phrase.otherMember start stop .empty := by
  have declares := isWord.declaresMethod
  obtain ⟨middle, place, readModifiers, readName, behind⟩ :=
    declared rules .returnType (by decide) short declares spells "method name"
  obtain ⟨between, left, right, readType, readName, same⟩ := accepts_seq.mp readName
  refine accepts_ifAhead.mpr (.inr ⟨refuses_constructorHead rules short declares spells,
    accepts_ifAhead.mpr (.inl ⟨⟨place + 1, _, readModifiers.seq (readType.seq (readName.seq
      (accepts_expect.mpr ⟨behind, rfl, rfl⟩)))⟩, ?_⟩)⟩)
  exact rules.atOnce .method (by decide) (Nat.le_refl _) short isWord spells rfl

theorem accepts_attributeDecl (rules : RulesExact stream Rule.member.rank length)
    (short : word.length ≤ length) (isWord : IsWord own (.symbol .attributeDecl) word)
    (spells : Spells stream start word stop) :
    Accepts stream own Phrase.otherMember start stop .empty := by
  have declares := isWord.declaresAttribute
  have returned : Declares own Form.returned Terminals.behindAttribute word := by
    obtain ⟨modifiers, typed, name, next, rest, same, isModifiers, isType, isRest⟩ := declares
    exact ⟨modifiers, typed, name, next, rest, same, isModifiers, .left isType, isRest⟩
  have noMethod : Refuses stream own Phrase.methodHead start := by
    obtain ⟨middle, place, readModifiers, readName, behind⟩ :=
      declared rules .returnType (by decide) short returned spells "method name"
    obtain ⟨between, left, right, readType, readName, -⟩ := accepts_seq.mp readName
    exact refuses_seq_of_second readModifiers (refuses_seq_of_second readType
      (refuses_seq_of_second readName
        (refuses_expect (Terminals.not_allow_of_apart (by decide) behind))))
  obtain ⟨middle, place, readModifiers, readName, behind⟩ :=
    declared rules .typeName (by decide) short declares spells "attribute name"
  obtain ⟨between, left, right, readType, readName, -⟩ := accepts_seq.mp readName
  refine accepts_ifAhead.mpr (.inr ⟨refuses_constructorHead rules short returned spells,
    accepts_ifAhead.mpr (.inr ⟨noMethod, accepts_ifAhead.mpr (.inl ⟨⟨place + 1, _,
      readModifiers.seq (readType.seq (readName.seq
        (accepts_expect.mpr ⟨behind, rfl, rfl⟩)))⟩, ?_⟩)⟩)⟩)
  exact rules.atOnce .attributeDecl (by decide) (Nat.le_refl _) short isWord spells rfl

end

theorem Rule.exact_member (rules : RulesExact stream Rule.member.rank length) :
    Rule.member.ExactOn stream length := by
  intro own start stop word outline short derived spells ended
  refine accepts_ifNext.mpr ?_
  rcases derives_alt.mp (derives_symbol.mp derived) with entry | other
  · obtain ⟨front, back, before, after, method, counted, rfl, rfl⟩ := derives_seq.mp entry
    obtain ⟨middle, spellsFront, spellsBack⟩ := spells_append.mp spells
    obtain ⟨rfl, rfl⟩ := derives_countEntry.mp counted
    obtain rfl := spells_nil.mp spellsBack
    rw [List.append_nil] at short
    have starts := spellsFront.startsWith (startsLike_of_leads (by decide)
      (derives_symbol.mp method) : startsLike MemberKind.entryHeader front = true)
    rw [starts, if_pos rfl]
    exact (rules.atOnce .entryMethod (by decide) (Nat.le_refl _) short method spellsFront rfl).seq
      (accepts_countEntry.mpr ⟨rfl, rfl⟩)
  · obtain ⟨derived, unlike⟩ := derives_unlike.mp other
    obtain ⟨rfl, isWord⟩ := derived.isWord rfl
    rcases isWord_alt.mp isWord with isAttribute | isOther
    · obtain ⟨token, member, allowed⟩ := isAttribute.declaresAttribute.mem_next
      rw [not_startsWith_entryHeader spells unlike member allowed (by decide), if_neg (by decide)]
      exact accepts_attributeDecl rules short isAttribute spells
    · rcases isWord_alt.mp isOther with isConstructor | isMethod
      · obtain ⟨modifiers, name, next, rest, same, -, -, isNext⟩ :=
          isConstructor.declaresConstructor
        have allowed : Terminals.allow [.mark "("] next = true := by simpa using isNext
        rw [not_startsWith_entryHeader spells unlike (by simp [same]) allowed (by decide),
          if_neg (by decide)]
        exact accepts_constructor rules short isConstructor spells
      · obtain ⟨token, member, allowed⟩ := isMethod.declaresMethod.mem_next
        rw [not_startsWith_entryHeader spells unlike member allowed (by decide),
          if_neg (by decide)]
        exact accepts_method rules short isMethod spells

end ClassSyntax

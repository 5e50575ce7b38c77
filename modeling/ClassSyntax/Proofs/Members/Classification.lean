import ClassSyntax.Proofs.Locality.LocalRules

/-!
# The kind of a member is known before it is read

Which form a member takes is decided by a look at its start: its modifiers, its type, its name and the
token behind the name. The look never excludes the form that can be read, and but for the start of an
entry method no member can be read in two forms.

* `Headed.refuses_constructorHead`, `Headed.meet`: one start excludes the others.
* `MemberKind.classify_eq`: the start of each form is taken for that form.
* `accepts_member`: a member is read as its kind says.
* `classification_agrees_with_trial`: the kind of a member is what can be read, on a parser.
-/

namespace ClassSyntax

variable {stream : TokenStream} {own : String} {start : Nat}

/-! ## How members that were read start -/

/-- Behind the modifiers come a type, a name and a token of `behind`. -/
def Headed (stream : TokenStream) (own : String) (type : Rule) (behind : Terminals)
    (start : Nat) : Prop :=
  ∃ middle place before typed, Accepts stream own (.rule .modifiers) start middle before ∧
    Accepts stream own (.rule type) middle place typed ∧
      Terminals.allow [.identifier] (stream.get place) = true ∧
        behind.allow (stream.get (place + 1)) = true

namespace Headed

variable {type : Rule} {behind other : Terminals} {label another : String}

/-- A head is accepted where a member starts like this. -/
theorem iff_accepts :
    Headed stream own type behind start ↔
      ∃ stop outline, Accepts stream own
        (.all [.rule .modifiers, .rule type, .identifier label, .expect behind another])
          start stop outline := by
  constructor
  · rintro ⟨middle, place, _, _, modifiers, typed, named, next⟩
    exact ⟨_, _, modifiers.seq (typed.seq (Accepts.seq (accepts_expect.mpr ⟨named, rfl, rfl⟩)
      (accepts_expect.mpr ⟨next, rfl, rfl⟩)))⟩
  · rintro ⟨stop, outline, accepted⟩
    obtain ⟨middle, _, _, modifiers, rest, -⟩ := accepts_seq.mp accepted
    obtain ⟨place, _, _, typed, rest, -⟩ := accepts_seq.mp rest
    obtain ⟨_, _, _, name, last, -⟩ := accepts_seq.mp rest
    obtain ⟨named, rfl, -⟩ := accepts_expect.mp name
    exact ⟨middle, place, _, _, modifiers, typed, named, (accepts_expect.mp last).1⟩

theorem iff_methodHead :
    Headed stream own .returnType [.mark "("] start ↔
      ∃ stop outline, Accepts stream own Phrase.methodHead start stop outline :=
  iff_accepts

theorem iff_attributeHead :
    Headed stream own .typeName Terminals.behindAttribute start ↔
      ∃ stop outline, Accepts stream own Phrase.attributeHead start stop outline :=
  iff_accepts

/-- A type is what a method may return. -/
theorem returned (headed : Headed stream own .typeName behind start) :
    Headed stream own .returnType behind start := by
  obtain ⟨middle, place, _, _, modifiers, typed, rest⟩ := headed
  exact ⟨middle, place, _, _, modifiers,
    (accepts_returnType_iff (not_void_of_accepts typed)).mpr typed, rest⟩

/-- Two starts of one member have the same token behind the name. -/
theorem meet (one : Headed stream own type behind start)
    (two : Headed stream own type other start) :
    ∃ token, behind.allow token = true ∧ other.allow token = true := by
  obtain ⟨middle, place, _, _, modifiers, typed, -, next⟩ := one
  obtain ⟨_, _, _, _, again, retyped, -, same⟩ := two
  obtain ⟨rfl, -⟩ := modifiers.unique again
  obtain ⟨rfl, -⟩ := typed.unique retyped
  exact ⟨_, next, same⟩

/-- A name in front of a parenthesis is a type of one token. -/
theorem accepts_returnType_of_called (named : Terminals.allow [.identifier] (stream.get start) = true)
    (called : Terminals.allow [.mark "("] (stream.get (start + 1)) = true) :
    ∃ outline, Accepts stream own (.rule .returnType) start (start + 1) outline := by
  have other : ∀ {choices : Terminals}, Terminals.apart [.identifier] choices = true →
      stream.startsWith [choices] start = false :=
    fun different => Terminals.not_startsWith_of_apart different named
  have noPoint : stream.startsWith [[.mark "."], [.identifier]] (start + 1) = false :=
    startsWith_headD (List.cons_ne_nil _ _) (Terminals.not_allow_of_apart (by decide) called)
  have noBrackets : stream.startsWith [[.mark "["]] (start + 1) = false :=
    Terminals.not_startsWith_of_apart (by decide) called
  have name : Accepts stream own (.rule .qualifiedName) start (start + 1) _ :=
    accepts_rule.mpr (Accepts.seq (accepts_expect.mpr ⟨named, rfl, rfl⟩)
      ((accepts_whileNext_of_stop noPoint).mpr ⟨rfl, rfl⟩))
  have choice : Accepts stream own (Phrase.dispatch
      [(First.primitiveType, .expect First.primitiveType "type"),
        ([.identifier], .rule .qualifiedName)] (.fail "type")) start (start + 1)
          (.empty ++ .empty) := by
    refine accepts_ifNext.mpr ?_
    rw [other (by decide), if_neg (by decide)]
    refine accepts_ifNext.mpr ?_
    rw [startsWith_singleton, if_pos named]
    exact name
  have suffix : Accepts stream own (.rule .arraySuffix) (start + 1) (start + 1) .empty :=
    accepts_rule.mpr ((accepts_whileNext_of_stop noBrackets).mpr ⟨rfl, rfl⟩)
  exact ⟨_, (accepts_returnType_iff (other (by decide))).mpr (accepts_rule.mpr (choice.seq suffix))⟩

/-- What has a type and a name does not start like a constructor. -/
theorem refuses_constructorHead (headed : Headed stream own .returnType behind start) :
    Refuses stream own Phrase.constructorHead start := by
  obtain ⟨middle, place, _, _, modifiers, typed, named, -⟩ := headed
  refine refuses_seq_of_second modifiers ?_
  cases isOwn : (Terminal.named own).admits (stream.get middle) with
  | false => exact refuses_seq_of_first (refuses_expectOwnName isOwn)
  | true =>
      refine refuses_seq_of_second (accepts_expectOwnName.mpr ⟨isOwn, rfl, rfl⟩)
        (refuses_expect ?_)
      -- the name of the class would be the whole type, and a name stands behind the type
      rw [← Bool.not_eq_true]
      intro called
      have isName : Terminals.allow [.identifier] (stream.get middle) = true := by
        simpa using identifier_of_named isOwn
      obtain ⟨_, short⟩ : ∃ outline,
          Accepts stream own (.rule .returnType) middle (middle + 1) outline :=
        accepts_returnType_of_called isName called
      obtain ⟨rfl, -⟩ := typed.unique short
      exact Terminals.not_both (by decide) called named

end Headed

theorem headed_of_method {stop : Nat} {outline : Outline}
    (accepted : Accepts stream own (.rule .method) start stop outline) :
    Headed stream own .returnType [.mark "("] start := by
  obtain ⟨middle, _, _, modifiers, rest, -⟩ := accepts_seq.mp (accepts_rule.mp accepted)
  obtain ⟨place, _, _, typed, rest, -⟩ := accepts_seq.mp rest
  obtain ⟨_, _, _, name, rest, -⟩ := accepts_seq.mp rest
  obtain ⟨_, _, _, params, -, -⟩ := accepts_seq.mp rest
  obtain ⟨_, _, _, opening, -, -⟩ := accepts_seq.mp (accepts_rule.mp params)
  obtain ⟨named, rfl, -⟩ := accepts_expect.mp name
  exact ⟨middle, place, _, _, modifiers, typed, named, (accepts_expect.mp opening).1⟩

theorem headed_of_attributeDecl {stop : Nat} {outline : Outline}
    (accepted : Accepts stream own (.rule .attributeDecl) start stop outline) :
    Headed stream own .typeName Terminals.behindAttribute start := by
  obtain ⟨middle, _, _, modifiers, rest, -⟩ := accepts_seq.mp (accepts_rule.mp accepted)
  obtain ⟨last, _, _, declarators, semicolon, -⟩ := accepts_seq.mp rest
  obtain ⟨place, _, _, typed, rest, -⟩ := accepts_seq.mp (accepts_rule.mp declarators)
  obtain ⟨between, _, _, declarator, more, -⟩ := accepts_seq.mp rest
  obtain ⟨_, _, _, name, value, -⟩ := accepts_seq.mp (accepts_rule.mp declarator)
  obtain ⟨named, rfl, -⟩ := accepts_expect.mp name
  refine ⟨middle, place, _, _, modifiers, typed, named, ?_⟩
  -- a value, another declarator or the semicolon stands behind the name
  have listed : ∀ {terminal : Terminal}, terminal ∈ Terminals.behindAttribute →
      Terminals.allow [terminal] (stream.get (place + 1)) = true →
        Terminals.behindAttribute.allow (stream.get (place + 1)) = true := by
    intro terminal member allowed
    exact Terminals.allow_iff.mpr ⟨terminal, member, by rwa [Terminals.allow_singleton] at allowed⟩
  have value := accepts_ifNext.mp value
  cases valued : stream.startsWith [[.operator "="]] (place + 1) with
  | true =>
      rw [startsWith_singleton] at valued
      exact listed (by decide) valued
  | false =>
      rw [valued, if_neg (by decide)] at value
      obtain ⟨rfl, -⟩ := accepts_done.mp value
      cases further : stream.startsWith [[.mark ","]] (place + 1) with
      | true =>
          rw [startsWith_singleton] at further
          exact listed (by decide) further
      | false =>
          obtain ⟨rfl, -⟩ := (accepts_whileNext_of_stop further).mp more
          exact listed (by decide) (accepts_expect.mp semicolon).1

theorem constructorHead_of_constructor {stop : Nat} {outline : Outline}
    (accepted : Accepts stream own (.rule .constructor) start stop outline) :
    ∃ place found, Accepts stream own Phrase.constructorHead start place found := by
  obtain ⟨middle, _, _, modifiers, rest, -⟩ := accepts_seq.mp (accepts_rule.mp accepted)
  obtain ⟨place, _, _, name, rest, -⟩ := accepts_seq.mp rest
  obtain ⟨_, _, _, params, -, -⟩ := accepts_seq.mp rest
  obtain ⟨_, _, _, opening, -, -⟩ := accepts_seq.mp (accepts_rule.mp params)
  exact ⟨_, _, modifiers.seq (name.seq opening)⟩

/-! ## The start of an entry method -/

theorem header_of_entryMethod {stop : Nat} {outline : Outline}
    (accepted : Accepts stream own (.rule .entryMethod) start stop outline) :
    stream.startsWith MemberKind.entryHeader start = true := by
  obtain ⟨_, _, _, isPublic, rest, -⟩ := accepts_seq.mp (accepts_rule.mp accepted)
  obtain ⟨_, _, _, isStatic, rest, -⟩ := accepts_seq.mp rest
  obtain ⟨_, _, _, isVoid, rest, -⟩ := accepts_seq.mp rest
  obtain ⟨_, _, _, isMain, -, -⟩ := accepts_seq.mp rest
  obtain ⟨first, rfl, -⟩ := accepts_expect.mp isPublic
  obtain ⟨second, rfl, -⟩ := accepts_expect.mp isStatic
  obtain ⟨third, rfl, -⟩ := accepts_expect.mp isVoid
  obtain ⟨fourth, -, -⟩ := accepts_expect.mp isMain
  exact Bool.and_eq_true_iff.mpr ⟨first, Bool.and_eq_true_iff.mpr ⟨second,
    Bool.and_eq_true_iff.mpr ⟨third, Bool.and_eq_true_iff.mpr ⟨fourth, rfl⟩⟩⟩⟩

/-- The modifiers of an entry method end in front of `void`. -/
theorem void_behind_modifiers (header : stream.startsWith MemberKind.entryHeader start = true)
    {middle : Nat} {outline : Outline}
    (modifiers : Accepts stream own (.rule .modifiers) start middle outline) :
    Terminals.allow [.keyword "void"] (stream.get middle) = true := by
  obtain ⟨isPublic, rest⟩ := Bool.and_eq_true_iff.mp header
  obtain ⟨isStatic, rest⟩ := Bool.and_eq_true_iff.mp rest
  obtain ⟨isVoid, -⟩ := Bool.and_eq_true_iff.mp rest
  have modifier : ∀ {word : String} {place : Nat}, .keyword word ∈ First.modifier →
      Terminals.allow [.keyword word] (stream.get place) = true →
        First.modifier.allow (stream.get place) = true := by
    intro word place listed allowed
    exact Terminals.allow_iff.mpr ⟨_, listed, by rwa [Terminals.allow_singleton] at allowed⟩
  have stopped : stream.startsWith [First.modifier] (start + 1 + 1) = false :=
    Terminals.not_startsWith_of_apart (by decide) isVoid
  have none : Accepts stream own (.rule .modifiers) (start + 1 + 1) (start + 1 + 1) .empty :=
    accepts_rule.mpr ((accepts_whileNext_of_stop stopped).mpr ⟨rfl, rfl⟩)
  obtain ⟨rfl, -⟩ := modifiers.unique (accepts_modifiers_of_next (modifier (by decide) isPublic)
    (accepts_modifiers_of_next (modifier (by decide) isStatic) none))
  exact isVoid

theorem noHeader_of_headed {behind : Terminals}
    (headed : Headed stream own .typeName behind start) :
    stream.startsWith MemberKind.entryHeader start = false := by
  obtain ⟨middle, _, _, _, modifiers, typed, -⟩ := headed
  rw [← Bool.not_eq_true]
  intro header
  have isVoid := void_behind_modifiers header modifiers
  rw [← startsWith_singleton, not_void_of_accepts typed] at isVoid
  exact Bool.noConfusion isVoid

theorem noHeader_of_constructorHead {stop : Nat} {outline : Outline}
    (accepted : Accepts stream own Phrase.constructorHead start stop outline) :
    stream.startsWith MemberKind.entryHeader start = false := by
  obtain ⟨middle, _, _, modifiers, rest, -⟩ := accepts_seq.mp accepted
  obtain ⟨_, _, _, name, -, -⟩ := accepts_seq.mp rest
  rw [← Bool.not_eq_true]
  intro header
  have named : Terminals.allow [.identifier] (stream.get middle) = true := by
    simpa using identifier_of_named (accepts_expectOwnName.mp name).1
  exact Terminals.not_both (by decide) named (void_behind_modifiers header modifiers)

/-! ## The kind of a member -/

theorem Phrase.fits_iff {phrase : Phrase} (progressive : phrase.progressive = true) :
    phrase.fits stream own progressive start = true ↔
      ∃ stop outline, Accepts stream own phrase start stop outline := by
  refine ⟨fun fit => ?_, fun ⟨_, _, accepted⟩ => Phrase.fits_of_accepts progressive accepted⟩
  have read := phrase.reads_read stream own progressive start
  unfold Phrase.fits at fit
  generalize phrase.read stream own progressive start = ending at read fit
  obtain ⟨outcome, log⟩ := ending
  cases outcome with
  | ok stop outline => exact ⟨stop, outline, log, read⟩
  | fail failure => exact Bool.noConfusion fit

theorem Phrase.not_fits_of_refuses {phrase : Phrase} (progressive : phrase.progressive = true)
    (refused : Refuses stream own phrase start) :
    ¬ phrase.fits stream own progressive start = true := by
  rw [Phrase.fits_iff]
  exact fun ⟨_, _, accepted⟩ => accepted.not_refuses refused

namespace MemberKind

/-- What a member of this kind is read as. -/
def rule : MemberKind → Rule
  | entryMethod => .entryMethod
  | attributeDecl => .attributeDecl
  | constructor => .constructor
  | method => .method
  | unknown => .unknownMember

/-- An unknown member is walked over and never read. -/
theorem not_accepts_unknownMember {stop : Nat} {outline : Outline} :
    ¬ Accepts stream own (.rule .unknownMember) start stop outline := by
  intro accepted
  obtain ⟨_, _, _, -, rest, -⟩ := accepts_seq.mp (accepts_rule.mp accepted)
  obtain ⟨_, _, _, -, rest, -⟩ := accepts_seq.mp rest
  obtain ⟨_, _, _, -, failed, -⟩ := accepts_seq.mp rest
  exact not_accepts_fail failed

/-- What can be read as one of the kinds is of that kind, except that what starts like an entry method is
never taken for a method. -/
theorem classify_eq {kind : MemberKind} {stop : Nat} {outline : Outline}
    (accepted : Accepts stream own (.rule kind.rule) start stop outline)
    (settled : kind = .method → stream.startsWith entryHeader start = false) :
    classify stream own start = kind := by
  unfold classify
  cases kind with
  | entryMethod => rw [if_pos (header_of_entryMethod accepted)]
  | constructor =>
      obtain ⟨place, found, head⟩ := constructorHead_of_constructor accepted
      rw [noHeader_of_constructorHead head, if_neg (by decide),
        if_pos (Phrase.fits_of_accepts rfl head)]
  | method =>
      have headed := headed_of_method accepted
      rw [settled rfl, if_neg (by decide),
        if_neg (Phrase.not_fits_of_refuses rfl headed.refuses_constructorHead),
        if_pos ((Phrase.fits_iff rfl).mpr (Headed.iff_methodHead.mp headed))]
  | attributeDecl =>
      have headed := headed_of_attributeDecl accepted
      have noMethod : ¬ Phrase.methodHead.fits stream own rfl start = true := by
        intro fit
        have method := Headed.iff_methodHead.mpr ((Phrase.fits_iff rfl).mp fit)
        obtain ⟨token, behind, called⟩ := headed.returned.meet method
        exact Terminals.not_both (by decide) behind called
      rw [noHeader_of_headed headed, if_neg (by decide),
        if_neg (Phrase.not_fits_of_refuses rfl headed.returned.refuses_constructorHead),
        if_neg noMethod, if_pos ((Phrase.fits_iff rfl).mpr (Headed.iff_attributeHead.mp headed))]
  | unknown => exact absurd accepted not_accepts_unknownMember

end MemberKind

/-- A trial decides between what it leads to and what is left. -/
theorem accepts_ifAhead_of_fits {trial yes no : Phrase} (progressive : trial.progressive = true)
    {stop : Nat} {outline : Outline} :
    Accepts stream own (.ifAhead trial yes no) start stop outline ↔
      Accepts stream own (if trial.fits stream own progressive start then yes else no) start stop
        outline := by
  rw [accepts_ifAhead]
  rcases accepts_or_refuses stream own progressive start with ⟨place, found, accepted⟩ | refused
  · rw [if_pos (Phrase.fits_of_accepts progressive accepted)]
    exact ⟨fun read => read.elim And.right fun other => absurd other.1 accepted.not_refuses,
      fun read => .inl ⟨⟨place, found, accepted⟩, read⟩⟩
  · rw [if_neg (Phrase.not_fits_of_refuses progressive refused)]
    exact ⟨fun read => read.elim (fun ⟨⟨_, _, other⟩, _⟩ => absurd refused other.not_refuses)
      And.right, fun read => .inr ⟨refused, read⟩⟩

/-- A member is read as its kind says. -/
theorem accepts_member {stop : Nat} :
    (∃ outline, Accepts stream own (.rule .member) start stop outline) ↔
      ∃ outline, Accepts stream own (.rule (MemberKind.classify stream own start).rule) start stop
        outline := by
  have chosen : ∀ outline, Accepts stream own (.rule .member) start stop outline ↔
      Accepts stream own
        (if stream.startsWith MemberKind.entryHeader start then
          .seq (.rule .entryMethod) .countEntry else Phrase.otherMember) start stop outline :=
    fun outline => accepts_rule.trans accepts_ifNext
  simp only [chosen, MemberKind.classify]
  by_cases header : stream.startsWith MemberKind.entryHeader start = true
  · rw [if_pos header, if_pos header]
    constructor
    · rintro ⟨_, accepted⟩
      obtain ⟨_, left, _, entry, counted, -⟩ := accepts_seq.mp accepted
      obtain ⟨rfl, -⟩ := accepts_countEntry.mp counted
      exact ⟨left, entry⟩
    · rintro ⟨_, entry⟩
      exact ⟨_, entry.seq (accepts_countEntry.mpr ⟨rfl, rfl⟩)⟩
  · rw [if_neg header, if_neg header]
    refine exists_congr fun outline => ?_
    unfold Phrase.otherMember
    rw [accepts_ifAhead_of_fits rfl]
    by_cases isConstructor : Phrase.constructorHead.fits stream own rfl start = true
    · rw [if_pos isConstructor, if_pos isConstructor]
      rfl
    · rw [if_neg isConstructor, if_neg isConstructor, accepts_ifAhead_of_fits rfl]
      by_cases isMethod : Phrase.methodHead.fits stream own rfl start = true
      · rw [if_pos isMethod, if_pos isMethod]
        rfl
      · rw [if_neg isMethod, if_neg isMethod, accepts_ifAhead_of_fits rfl]
        by_cases isAttribute : Phrase.attributeHead.fits stream own rfl start = true
        · rw [if_pos isAttribute, if_pos isAttribute]
          rfl
        · rw [if_neg isAttribute, if_neg isAttribute]
          rfl

/-! ## Members on a parser -/

namespace Parser

variable {parser : Parser} {kind : MemberKind}

/-- The member that comes next can be read in this form. -/
def readsAs (parser : Parser) (own : String) (kind : MemberKind) : Bool :=
  (Parser.rule own kind.rule parser).1.isOk

/-- The next four tokens are `public static void main`. -/
def atEntryHeader (parser : Parser) : Bool :=
  parser.stream.startsWith MemberKind.entryHeader parser.position

theorem accepts_of_readsAs (reads : parser.readsAs own kind = true) :
    ∃ outline, Accepts parser.stream own (.rule kind.rule) parser.position
      (Parser.rule own kind.rule parser).2.position outline :=
  accepts_of_isOk rfl reads

theorem memberKind_of_readsAs (reads : parser.readsAs own kind = true)
    (settled : kind = .method → parser.atEntryHeader = false) : parser.memberKind own = kind := by
  obtain ⟨_, accepted⟩ := accepts_of_readsAs reads
  exact MemberKind.classify_eq accepted settled

theorem memberKind_of_header (header : parser.atEntryHeader = true) :
    parser.memberKind own = .entryMethod := by
  unfold atEntryHeader at header
  unfold memberKind MemberKind.classify
  rw [if_pos header]

theorem not_readsAs_unknown : parser.readsAs own .unknown = false := by
  rw [← Bool.not_eq_true]
  intro reads
  obtain ⟨_, accepted⟩ := accepts_of_readsAs reads
  exact MemberKind.not_accepts_unknownMember accepted

/-- A member is read when its kind can be read, and up to the same token. -/
theorem rule_member (own : String) (parser : Parser) :
    (Parser.rule own .member parser).1.isOk = parser.readsAs own (parser.memberKind own) ∧
      (parser.readsAs own (parser.memberKind own) = true →
        (Parser.rule own .member parser).2.position =
          (Parser.rule own (parser.memberKind own).rule parser).2.position) := by
  have back : parser.readsAs own (parser.memberKind own) = true →
      (Parser.rule own .member parser).1.isOk = true ∧
        (Parser.rule own .member parser).2.position =
          (Parser.rule own (parser.memberKind own).rule parser).2.position :=
    fun reads => (isOk_iff_accepts rfl).mpr (accepts_member.mpr (accepts_of_readsAs reads))
  have there : (Parser.rule own .member parser).1.isOk = true →
      (Parser.rule own (parser.memberKind own).rule parser).1.isOk = true :=
    fun well => ((isOk_iff_accepts rfl).mpr (accepts_member.mp (accepts_of_isOk rfl well))).1
  exact ⟨Bool.eq_iff_iff.mpr ⟨there, fun reads => (back reads).1⟩, fun reads => (back reads).2⟩

end Parser

/-- What can be read as a member of some form is of that kind, but for a method that starts like an entry
method, which is taken for one. So but for that start a member can be read in one form at most, and an
unknown one in none. A member is read when an entry method can be, or without that start a member of
another form, and it ends where that form ends. -/
theorem classification_agrees_with_trial (own : String) (parser : Parser) :
    let kind := parser.memberKind own
    let reads := parser.readsAs own
    let header := parser.atEntryHeader
    let member := Parser.rule own .member parser
    ((reads .entryMethod = true → kind = .entryMethod) ∧
        (reads .attributeDecl = true → kind = .attributeDecl) ∧
        (reads .constructor = true → kind = .constructor) ∧
        (reads .method = true → kind = if header then .entryMethod else .method)) ∧
      (header = false → ∀ one other, reads one = true → reads other = true → one = other) ∧
      (kind = .unknown → ∀ form, reads form = false) ∧
      (member.1.isOk = true ↔ reads .entryMethod = true ∨
        header = false ∧ (reads .attributeDecl = true ∨ reads .constructor = true ∨
          reads .method = true)) ∧
      ∀ form, reads form = true → form = .entryMethod ∨ header = false →
        member.2.position = (Parser.rule own form.rule parser).2.position := by
  intro kind reads header member
  have known : ∀ {form}, reads form = true → form ≠ .method ∨ header = false → kind = form :=
    fun well settled => Parser.memberKind_of_readsAs well
      fun method => settled.resolve_left fun other => other method
  have entry : header = true → kind = .entryMethod := Parser.memberKind_of_header
  obtain ⟨wellWhen, stops⟩ := Parser.rule_member own parser
  refine ⟨⟨fun well => known well (.inl (by decide)), fun well => known well (.inl (by decide)),
    fun well => known well (.inl (by decide)), fun well => ?method⟩,
    fun settled one other first second => (known first (.inr settled)).symm.trans
      (known second (.inr settled)), fun isUnknown form => ?none, ?whenRead, fun form well allowed => ?stop⟩
  case method =>
    cases settled : header with
    | true => exact entry settled
    | false => exact known well (.inr settled)
  case none =>
    rw [← Bool.not_eq_true]
    intro well
    cases settled : header with
    | true => exact absurd (isUnknown.symm.trans (entry settled)) (by decide)
    | false =>
        obtain rfl := isUnknown.symm.trans (known well (.inr settled))
        exact Bool.noConfusion (Parser.not_readsAs_unknown.symm.trans well)
  case whenRead =>
    have ofForm : ∀ {form}, reads form = true → form ≠ .method ∨ header = false →
        member.1.isOk = true := by
      intro form well settled
      have isForm : parser.memberKind own = form := known well settled
      rwa [wellWhen, isForm]
    constructor
    · intro well
      have readable : reads kind = true := wellWhen.symm.trans well
      cases settled : header with
      | true => exact .inl (entry settled ▸ readable)
      | false =>
          cases isKind : kind with
          | entryMethod => exact .inl (isKind ▸ readable)
          | attributeDecl => exact .inr ⟨rfl, .inl (isKind ▸ readable)⟩
          | constructor => exact .inr ⟨rfl, .inr (.inl (isKind ▸ readable))⟩
          | method => exact .inr ⟨rfl, .inr (.inr (isKind ▸ readable))⟩
          | unknown =>
              rw [isKind] at readable
              exact Bool.noConfusion (Parser.not_readsAs_unknown.symm.trans readable)
    · rintro (well | ⟨settled, well | well | well⟩)
      · exact ofForm well (.inl (by decide))
      · exact ofForm well (.inr settled)
      · exact ofForm well (.inr settled)
      · exact ofForm well (.inr settled)
  case stop =>
    obtain rfl : parser.memberKind own = form :=
      known well (allowed.imp_left fun isEntry => by simp [isEntry])
    exact stops well

/-- The tokens of `public static void main() { }`. -/
def unreturnedMain : List Token :=
  [⟨.keyword, "public", 1⟩, ⟨.keyword, "static", 1⟩, ⟨.keyword, "void", 1⟩,
    ⟨.identifier, "main", 1⟩, ⟨.punctuation, "(", 1⟩, ⟨.punctuation, ")", 1⟩,
    ⟨.punctuation, "\x7b", 1⟩, ⟨.punctuation, "\x7d", 1⟩]

/-- The tokens of `A A, b;`. -/
def ownType : List Token :=
  [⟨.identifier, "A", 1⟩, ⟨.identifier, "A", 1⟩, ⟨.punctuation, ",", 1⟩, ⟨.identifier, "b", 1⟩,
    ⟨.punctuation, ";", 1⟩]

/-- A `main` without parameters could be read as a method, and is no member since it starts like an entry
method. Inside `A` a field of its own type and name is a field, and all of it is read as a member. -/
theorem classification_of_unreturnedMain_ownType :
    let misplaced := Parser.start unreturnedMain
    let field := Parser.start ownType
    (misplaced.readsAs "A" .method = true ∧ misplaced.memberKind "A" = .entryMethod ∧
        (Parser.rule "A" .member misplaced).1.isOk = false) ∧
      field.readsAs "A" .attributeDecl = true ∧ field.memberKind "A" = .attributeDecl ∧
        (Parser.rule "A" .member field).1.isOk = true ∧
          (Parser.rule "A" .member field).2.position = 5 := by
  intro misplaced field
  have method : Accepts misplaced.stream "A" (.rule .method) misplaced.position 8 .empty :=
    .of_readWithin 1000 (by decide +kernel)
  have noEntry : Rule.read misplaced.stream "A" .entryMethod misplaced.position =
      (.fail ⟨5, "String"⟩, [⟨5, "String"⟩]) := Rule.read_eq_of_readWithin 1000 (by decide +kernel)
  have declared : Accepts field.stream "A" (.rule .attributeDecl) field.position 5 .empty :=
    .of_readWithin 1000 (by decide +kernel)
  obtain ⟨asMethod, -⟩ := Parser.isOk_of_accepts rfl method
  obtain ⟨asAttribute, behind⟩ := Parser.isOk_of_accepts rfl declared
  have noHeader : field.atEntryHeader = false := by decide
  have notEntry : misplaced.readsAs "A" .entryMethod = false :=
    (Parser.run_of_reads rfl (Phrase.read_eq_iff.mp noEntry)).1
  obtain ⟨⟨-, -, -, kindOfMethod⟩, -, -, whenRead, -⟩ :=
    classification_agrees_with_trial "A" misplaced
  obtain ⟨⟨-, kindOfAttribute, -⟩, -, -, whenField, stops⟩ :=
    classification_agrees_with_trial "A" field
  refine ⟨⟨asMethod, kindOfMethod asMethod, ?_⟩, asAttribute, kindOfAttribute asAttribute,
    whenField.mpr (.inr ⟨noHeader, .inl asAttribute⟩),
    (stops .attributeDecl asAttribute (.inr noHeader)).trans behind⟩
  rw [← Bool.not_eq_true, whenRead, notEntry]
  rintro (entry | ⟨noHeader, -⟩)
  · exact Bool.noConfusion entry
  · exact absurd noHeader (by decide)

end ClassSyntax

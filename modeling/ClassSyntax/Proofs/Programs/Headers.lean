import ClassSyntax.Proofs.Members.Classification

/-!
# What the headers of a program count

A class is read member by member, and each member as its kind says. The header of the class counts those that
are read as entry methods; nothing else in a program counts one.

* `Accepts.memberRead`: a member is read as its kind says, and only an entry method is counted.
* `Accepts.membersRead`, `Accepts.classRead`, `Accepts.classesRead`: the members of a class, a class, and the
  classes of a program.
* `Accepts.programRead`: the headers of a program are those of its classes.
-/

namespace ClassSyntax

/-! ## Relations -/

section

variable (stream : TokenStream)

/-- In the class `own` members of these kinds are read, one after the other, up to a token that starts
none. -/
inductive MembersRead (own : String) : Nat → List MemberKind → Nat → Prop
  | stop {place : Nat} :
      First.member.allow (stream.get place) = false → MembersRead own place [] place
  | more {start middle stop : Nat} {kinds : List MemberKind} :
      First.member.allow (stream.get start) = true →
      Accepts stream own (.rule (MemberKind.classify stream own start).rule) start middle .empty →
      MembersRead own middle kinds stop →
      MembersRead own start (MemberKind.classify stream own start :: kinds) stop

/-- Between the name of a class and its members: the classes that it extends and implements. -/
def Phrase.ancestors : Phrase :=
  seq (ifToken (.keyword "extends") (rule .qualifiedName) done)
    (ifToken (.keyword "implements") (separated (rule .qualifiedName)) done)

/-- A class with this header is read: behind `class` stands its name, and between its braces are as many
entry methods as the header says. -/
def ClassRead (start : Nat) (header : ClassHeader) (stop : Nat) : Prop :=
  ∃ place opened closed kinds,
    Accepts stream "" (.rule .modifiers) start place .empty ∧
      (Terminal.keyword "class").admits (stream.get place) = true ∧
      Terminal.identifier.admits (stream.get (place + 1)) = true ∧
      header.name = stream.get (place + 1) ∧
      Accepts stream header.name.lexeme Phrase.ancestors (place + 2) opened .empty ∧
      (Terminal.mark "\x7b").admits (stream.get opened) = true ∧
      MembersRead stream header.name.lexeme (opened + 1) kinds closed ∧
      (Terminal.mark "\x7d").admits (stream.get closed) = true ∧
      stop = closed + 1 ∧ header.entryMethods = kinds.count .entryMethod

/-- Classes with these headers are read, one after the other, up to a token that starts none. -/
inductive ClassesRead : Nat → List ClassHeader → Nat → Prop
  | stop {place : Nat} :
      First.classDecl.allow (stream.get place) = false → ClassesRead place [] place
  | more {start middle stop : Nat} {header : ClassHeader} {headers : List ClassHeader} :
      First.classDecl.allow (stream.get start) = true → ClassRead stream start header middle →
      ClassesRead middle headers stop → ClassesRead start (header :: headers) stop

end

variable {stream : TokenStream} {own : String} {start stop : Nat} {outline : Outline}

/-! ## Members -/

/-- Most phrases leave nothing in an outline. -/
theorem Accepts.outline_eq_empty {phrase : Phrase}
    (accepted : Accepts stream own phrase start stop outline) (fruitful : phrase.fruitful = true)
    (quiet : phrase.covering.quiet = true) : outline = .empty := by
  obtain ⟨word, -, derived⟩ := accepted.derives fruitful
  exact (derived.isWord quiet).1

namespace MemberKind

theorem rule_quiet (kind : MemberKind) : (Phrase.rule kind.rule).covering.quiet = true := by
  cases kind <;> decide

theorem rule_fruitful (kind : MemberKind) : (Phrase.rule kind.rule).fruitful = true := by
  cases kind <;> decide

/-- What starts like an entry method, and nothing else, is taken for one. -/
theorem classify_eq_entryMethod :
    classify stream own start = .entryMethod ↔ stream.startsWith entryHeader start = true := by
  unfold classify
  constructor
  · intro isEntry
    by_contra other
    rw [if_neg other] at isEntry
    split at isEntry
    · cases isEntry
    split at isEntry
    · cases isEntry
    split at isEntry <;> cases isEntry
  · intro header
    rw [if_pos header]

end MemberKind

/-- A member is read as its kind says, and leaves an entry method in an outline when it is one. -/
theorem Accepts.memberRead (accepted : Accepts stream own (.rule .member) start stop outline) :
    Accepts stream own (.rule (MemberKind.classify stream own start).rule) start stop .empty ∧
      outline = ⟨[], [MemberKind.classify stream own start].count .entryMethod⟩ := by
  obtain ⟨found, asKind⟩ := accepts_member.mp ⟨outline, accepted⟩
  obtain rfl := asKind.outline_eq_empty (MemberKind.rule_fruitful _) (MemberKind.rule_quiet _)
  refine ⟨asKind, ?_⟩
  have chosen := accepts_ifNext.mp (accepts_rule.mp accepted)
  cases header : stream.startsWith MemberKind.entryHeader start with
  | true =>
      rw [if_pos header] at chosen
      obtain ⟨_, left, _, entry, counted, rfl⟩ := accepts_seq.mp chosen
      obtain rfl := entry.outline_eq_empty (by decide) (by decide)
      obtain ⟨-, rfl⟩ := accepts_countEntry.mp counted
      rw [MemberKind.classify_eq_entryMethod.mpr header, Outline.empty_append]
      rfl
  | false =>
      rw [header, if_neg (by decide)] at chosen
      have other : MemberKind.classify stream own start ≠ .entryMethod := by
        rw [ne_eq, MemberKind.classify_eq_entryMethod, header]
        decide
      rw [List.count_singleton, if_neg (by simpa using other)]
      exact chosen.outline_eq_empty (by decide) (by decide)

/-- Members leave as many entry methods in an outline as are among them. -/
theorem Accepts.membersRead
    (accepted : Accepts stream own (.whileNext [First.member] (.rule .member)) start stop outline) :
    ∃ kinds, MembersRead stream own start kinds stop ∧
      outline = ⟨[], kinds.count .entryMethod⟩ := by
  refine accepted.whileNext_induction (motive := fun start stop outline =>
    ∃ kinds, MembersRead stream own start kinds stop ∧ outline = ⟨[], kinds.count .entryMethod⟩)
      (fun next => ?_) fun next round rest => ?_
  · rw [startsWith_singleton] at next
    exact ⟨[], .stop next, rfl⟩
  · rw [startsWith_singleton] at next
    obtain ⟨asKind, rfl⟩ := round.memberRead
    obtain ⟨kinds, members, rfl⟩ := rest
    refine ⟨_, .more next asKind members, ?_⟩
    show Outline.append _ _ = _
    simp [Outline.append, List.count_cons, Nat.add_comm]

/-! ## Classes -/

/-- A class leaves its header in an outline. -/
theorem Accepts.classRead (accepted : Accepts stream "" (.rule .classDecl) start stop outline) :
    ∃ header, ClassRead stream start header stop ∧ outline = ⟨[header], 0⟩ := by
  obtain ⟨place, _, _, modifiers, behindModifiers, rfl⟩ := accepts_seq.mp (accepts_rule.mp accepted)
  obtain ⟨_, _, _, keyword, named, rfl⟩ := accepts_seq.mp behindModifiers
  obtain ⟨isClass, rfl, rfl⟩ := accepts_expect.mp keyword
  obtain ⟨isName, inner, body, rfl⟩ := accepts_inClass.mp named
  obtain ⟨between, _, _, extended, behindExtended, rfl⟩ := accepts_seq.mp body
  obtain ⟨opened, _, _, implemented, braces, rfl⟩ := accepts_seq.mp behindExtended
  obtain ⟨_, _, _, opening, inside, rfl⟩ := accepts_seq.mp braces
  obtain ⟨closed, _, _, members, closing, rfl⟩ := accepts_seq.mp inside
  obtain ⟨isOpening, rfl, rfl⟩ := accepts_expect.mp opening
  obtain ⟨isClosing, rfl, rfl⟩ := accepts_expect.mp closing
  obtain rfl := modifiers.outline_eq_empty (by decide) (by decide)
  obtain rfl := extended.outline_eq_empty (by decide) (by decide)
  obtain rfl := implemented.outline_eq_empty (by decide) (by decide)
  obtain ⟨kinds, read, rfl⟩ := members.membersRead
  rw [Terminals.allow_singleton] at isClass isOpening isClosing
  refine ⟨⟨stream.get (place + 1), kinds.count .entryMethod⟩, ⟨place, opened, closed, kinds,
    modifiers, isClass, isName, rfl, extended.seq implemented, isOpening, read, isClosing, rfl,
    rfl⟩, ?_⟩
  simp only [Outline.empty_append, Outline.append_empty]
  rfl

theorem Accepts.classesRead
    (accepted : Accepts stream "" (.whileNext [First.classDecl] (.rule .classDecl)) start stop
      outline) :
    ClassesRead stream start outline.classes stop := by
  refine accepted.whileNext_induction (motive := fun start stop outline =>
    ClassesRead stream start outline.classes stop) (fun next => ?_) fun next round rest => ?_
  · rw [startsWith_singleton] at next
    exact .stop next
  · rw [startsWith_singleton] at next
    obtain ⟨header, isClass, rfl⟩ := round.classRead
    exact .more next isClass rest

/-- Behind its imports a program is read class by class. -/
theorem Accepts.programRead (accepted : Accepts stream "" (.rule .program) start stop outline) :
    ∃ first, Accepts stream "" (.whileNext [First.importDecl] (.rule .importDecl)) start first
        .empty ∧
      ClassesRead stream first outline.classes stop := by
  obtain ⟨first, _, _, imports, classes, rfl⟩ := accepts_seq.mp (accepts_rule.mp accepted)
  obtain rfl := imports.outline_eq_empty (by decide) (by decide)
  rw [Outline.empty_append]
  exact ⟨first, imports, classes.classesRead⟩

namespace ClassesRead

variable {headers : List ClassHeader}

/-- The names of the classes are identifiers. -/
theorem isEnd_name (read : ClassesRead stream start headers stop) :
    ∀ header ∈ headers, header.name.isEnd = false := by
  induction read with
  | stop => exact fun _ member => nomatch member
  | more _ isClass _ ih =>
      obtain ⟨place, opened, closed, kinds, -, -, isName, named, -⟩ := isClass
      rw [List.forall_mem_cons, named]
      exact ⟨Terminal.isEnd_of_admits isName, ih⟩

end ClassesRead

end ClassSyntax

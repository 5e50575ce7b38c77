import ClassSyntax.Proofs.Frontier.Confined
import ClassSyntax.Proofs.Language.Members

/-!
# Trials of members look no further

What kind of member comes next is tried out. None of the trials goes further than the reading that it
leads to, and so does no look at the start of an entry method.

* `stays_constructorHead`, `stays_methodHead`, `stays_attributeHead`: trials that fail.
* `Stays.constructorHead`, `Stays.methodHead`, `Stays.attributeHead`: trials that go through.
* `entryHeader_seen`: the look at the start of an entry method.
-/

namespace ClassSyntax

variable {stream : TokenStream} {own : String} {start bound : Nat}

/-! ## Phrases in place of others -/

theorem stays_relabel {choices : Terminals} {label other : String}
    (stays : Stays stream own (.expect choices label) start bound) :
    Stays stream own (.expect choices other) start bound := by
  cases found : choices.allow (stream.get start) with
  | true => exact (stays_expect_of_found found).mpr ((stays_expect_of_found found).mp stays)
  | false => exact stays_expect_of_missing found stays.start_le

theorem accepts_relabel {choices : Terminals} {label other : String} {stop : Nat}
    {outline : Outline} (accepted : Accepts stream own (.expect choices label) start stop outline) :
    Accepts stream own (.expect choices other) start stop outline :=
  accepts_expect.mpr (accepts_expect.mp accepted)

theorem stays_of_refused {choices : Terminals} {label : String}
    (refused : Refuses stream own (.expect choices label) start) (inside : start ≤ bound) :
    Stays stream own (.expect choices label) start bound := by
  obtain ⟨_, _, read⟩ := refused
  cases read with
  | expectMissing missing => exact stays_expect_of_missing missing inside

theorem stays_fail {label : String} (inside : start ≤ bound) :
    Stays stream own (.fail label) start bound := by
  refine ⟨_, _, .fail, inside, ?_⟩
  simpa using inside

/-- What is refused behind a phrase is refused where the phrase ends. -/
theorem Refuses.second {first second : Phrase} {middle : Nat} {outline : Outline}
    (refused : Refuses stream own (.seq first second) start)
    (accepted : Accepts stream own first start middle outline) :
    Refuses stream own second middle := by
  obtain ⟨failure, log, read⟩ := refused
  generalize same : Outcome.fail failure = outcome at read
  cases read with
  | @seqOk _ _ _ _ place between outcome _ _ one two =>
      obtain ⟨rfl, -⟩ := Accepts.unique ⟨_, one⟩ accepted
      cases outcome with
      | ok stop outline => exact nomatch same
      | fail failure => exact ⟨_, _, two⟩
  | seqFail one => exact absurd ⟨_, _, one⟩ accepted.not_refuses

/-- A phrase that is refused stays as close as one that starts in the same way. -/
theorem stays_seq_of_refused {first second other another : Phrase}
    (refused : Refuses stream own (.seq other another) start)
    (stays : Stays stream own (.seq first second) start bound)
    (head : Stays stream own first start bound → Stays stream own other start bound)
    (same : ∀ middle outline, Accepts stream own other start middle outline →
      Accepts stream own first start middle outline)
    (behind : ∀ middle, Refuses stream own another middle → Stays stream own second middle bound →
      Stays stream own another middle bound) :
    Stays stream own (.seq other another) start bound := by
  obtain ⟨one, two⟩ := stays_seq.mp stays
  refine stays_seq.mpr ⟨head one, fun middle outline accepted => ?_⟩
  exact behind middle (refused.second accepted) (two middle outline (same middle outline accepted))

/-! ## Types -/

theorem stays_returnType_iff (other : stream.startsWith [[.keyword "void"]] start = false) :
    Stays stream own (.rule .returnType) start bound ↔
      Stays stream own (.rule .typeName) start bound := by
  rw [stays_rule]
  refine stays_ifNext.trans ?_
  rw [other, if_neg (by decide)]

theorem accepts_returnType_iff (other : stream.startsWith [[.keyword "void"]] start = false)
    {stop : Nat} {outline : Outline} :
    Accepts stream own (.rule .returnType) start stop outline ↔
      Accepts stream own (.rule .typeName) start stop outline := by
  rw [accepts_rule]
  refine accepts_ifNext.trans ?_
  rw [other, if_neg (by decide)]

theorem stays_void (next : stream.startsWith [[.keyword "void"]] start = true)
    (stays : Stays stream own (.rule .returnType) start bound) : start + 1 ≤ bound := by
  have read := stays_ifNext.mp (stays_rule.mp stays)
  rw [if_pos next] at read
  rw [startsWith_singleton] at next
  exact (stays_expect_of_found next).mp (stays_seq.mp read).1

/-- A type does not start with `void`. -/
theorem reads_typeName_of_void (next : stream.startsWith [[.keyword "void"]] start = true) :
    Reads stream own (.rule .typeName) start (.fail ⟨start, "type"⟩) [⟨start, "type"⟩] := by
  rw [startsWith_singleton] at next
  have other : ∀ {choices : Terminals}, Terminals.apart [.keyword "void"] choices = true →
      stream.startsWith [choices] start = false :=
    fun different => Terminals.not_startsWith_of_apart different next
  exact .rule (.seqFail (.ifNextNo (other (by decide)) (.ifNextNo (other (by decide)) .fail)))

theorem not_void_of_accepts {stop : Nat} {outline : Outline}
    (accepted : Accepts stream own (.rule .typeName) start stop outline) :
    stream.startsWith [[.keyword "void"]] start = false := by
  rw [← Bool.not_eq_true]
  exact fun next => accepted.not_refuses ⟨_, _, reads_typeName_of_void next⟩

theorem stays_typeName_of_returnType (stays : Stays stream own (.rule .returnType) start bound) :
    Stays stream own (.rule .typeName) start bound := by
  cases next : stream.startsWith [[.keyword "void"]] start with
  | false => exact (stays_returnType_iff next).mp stays
  | true =>
      have inside := stays.start_le
      exact ⟨_, _, reads_typeName_of_void next, inside, by simpa using inside⟩

/-- A type that starts with a name goes behind the name. -/
theorem stays_behind_name (named : Terminals.allow [.identifier] (stream.get start) = true)
    (stays : Stays stream own (.rule .returnType) start bound) : start + 1 ≤ bound := by
  have other : ∀ {choices : Terminals}, Terminals.apart [.identifier] choices = true →
      stream.startsWith [choices] start = false :=
    fun different => Terminals.not_startsWith_of_apart different named
  have typed := (stays_returnType_iff (other (by decide))).mp stays
  have choice := stays_ifNext.mp (stays_seq.mp (stays_rule.mp typed)).1
  rw [other (by decide), if_neg (by decide)] at choice
  have qualified := stays_ifNext.mp choice
  rw [startsWith_singleton, if_pos named] at qualified
  exact (stays_expect_of_found named).mp (stays_seq.mp (stays_rule.mp qualified)).1

/-! ## Trials that go through -/

namespace Stays

theorem constructorHead (stays : Stays stream own (.rule .constructor) start bound) :
    Stays stream own Phrase.constructorHead start bound := by
  obtain ⟨modifiers, rest⟩ := stays_seq.mp (stays_rule.mp stays)
  refine stays_seq.mpr ⟨modifiers, fun middle _ accepted => ?_⟩
  obtain ⟨name, rest⟩ := stays_seq.mp (rest middle _ accepted)
  refine stays_seq.mpr ⟨name, fun place _ accepted => ?_⟩
  have params := (stays_seq.mp (rest place _ accepted)).1
  exact (stays_seq.mp (stays_rule.mp params)).1

theorem methodHead (stays : Stays stream own (.rule .method) start bound) :
    Stays stream own Phrase.methodHead start bound := by
  obtain ⟨modifiers, rest⟩ := stays_seq.mp (stays_rule.mp stays)
  refine stays_seq.mpr ⟨modifiers, fun middle _ accepted => ?_⟩
  obtain ⟨type, rest⟩ := stays_seq.mp (rest middle _ accepted)
  refine stays_seq.mpr ⟨type, fun place _ accepted => ?_⟩
  obtain ⟨name, rest⟩ := stays_seq.mp (rest place _ accepted)
  refine stays_seq.mpr ⟨name, fun behind _ accepted => ?_⟩
  have params := (stays_seq.mp (rest behind _ accepted)).1
  exact (stays_seq.mp (stays_rule.mp params)).1

theorem attributeHead (stays : Stays stream own (.rule .attributeDecl) start bound) :
    Stays stream own Phrase.attributeHead start bound := by
  obtain ⟨modifiers, rest⟩ := stays_seq.mp (stays_rule.mp stays)
  refine stays_seq.mpr ⟨modifiers, fun middle _ accepted => ?_⟩
  obtain ⟨declarators, last⟩ := stays_seq.mp (rest middle _ accepted)
  obtain ⟨type, names⟩ := stays_seq.mp (stays_rule.mp declarators)
  refine stays_seq.mpr ⟨type, fun place _ typed => ?_⟩
  obtain ⟨declarator, more⟩ := stays_seq.mp (names place _ typed)
  obtain ⟨name, value⟩ := stays_seq.mp (stays_rule.mp declarator)
  refine stays_seq.mpr ⟨name, fun behind _ named => ?_⟩
  have value := stays_ifNext.mp (value behind _ named)
  cases found : Terminals.behindAttribute.allow (stream.get behind) with
  | false => exact stays_expect_of_missing found value.start_le
  | true =>
      refine (stays_expect_of_found found).mpr ?_
      -- the token behind the name is taken by a value, another declarator or the end
      cases valued : stream.startsWith [[.operator "="]] behind with
      | true =>
          rw [if_pos valued] at value
          rw [startsWith_singleton] at valued
          exact (stays_expect_of_found valued).mp (stays_seq.mp value).1
      | false =>
          have single : Accepts stream own (.rule (.declarator "attribute name")) place behind _ :=
            accepts_rule.mpr (named.seq (accepts_ifNext.mpr
              (by rw [valued, if_neg (by decide)]; exact accepts_done.mpr ⟨rfl, rfl⟩)))
          have loop := more behind _ single
          cases further : stream.startsWith [[.mark ","]] behind with
          | true =>
              have comma := (stays_seq.mp (stays_whileNext further loop).1).1
              rw [startsWith_singleton] at further
              exact (stays_expect_of_found further).mp comma
          | false =>
              have whole : Accepts stream own (.rule (.declarators "attribute name")) middle
                  behind _ :=
                accepts_rule.mpr (typed.seq
                  (single.seq ((accepts_whileNext_of_stop further).mpr ⟨rfl, rfl⟩)))
              rw [startsWith_singleton] at valued further
              have semicolon : Terminals.allow [.mark ";"] (stream.get behind) = true := by
                simp only [Terminals.allow_singleton] at valued further ⊢
                simpa [Terminals.behindAttribute, Terminals.allow, valued, further] using found
              exact (stays_expect_of_found semicolon).mp (last behind _ whole)

end Stays

/-! ## Trials that fail -/

theorem stays_unknownMember_of_method (stays : Stays stream own (.rule .method) start bound) :
    Stays stream own (.rule .unknownMember) start bound := by
  obtain ⟨modifiers, rest⟩ := stays_seq.mp stays.methodHead
  refine stays_rule.mpr (stays_seq.mpr ⟨modifiers, fun middle _ accepted => ?_⟩)
  obtain ⟨type, rest⟩ := stays_seq.mp (rest middle _ accepted)
  refine stays_seq.mpr ⟨type, fun place _ accepted => ?_⟩
  obtain ⟨name, rest⟩ := stays_seq.mp (rest place _ accepted)
  refine stays_seq.mpr ⟨stays_relabel name, fun behind _ accepted => ?_⟩
  exact stays_fail (rest behind _ (accepts_relabel accepted)).start_le

theorem stays_unknownMember_of_attribute {stop : Nat} {outline : Outline}
    (declared : Accepts stream own Phrase.attributeHead start stop outline)
    (stays : Stays stream own (.rule .attributeDecl) start bound) :
    Stays stream own (.rule .unknownMember) start bound := by
  obtain ⟨middle, _, _, readModifiers, readRest, -⟩ := accepts_seq.mp declared
  obtain ⟨place, _, _, readType, -, -⟩ := accepts_seq.mp readRest
  have noVoid := not_void_of_accepts readType
  obtain ⟨modifiers, rest⟩ := stays_seq.mp stays.attributeHead
  obtain ⟨type, rest⟩ := stays_seq.mp (rest middle _ readModifiers)
  refine stays_rule.mpr (stays_seq.mpr ⟨modifiers, fun another _ accepted => ?_⟩)
  obtain ⟨rfl, -⟩ := readModifiers.unique accepted
  refine stays_seq.mpr ⟨(stays_returnType_iff noVoid).mpr type, fun place _ accepted => ?_⟩
  obtain ⟨name, rest⟩ := stays_seq.mp (rest place _ ((accepts_returnType_iff noVoid).mp accepted))
  refine stays_seq.mpr ⟨stays_relabel name, fun behind _ accepted => ?_⟩
  exact stays_fail (rest behind _ (accepts_relabel accepted)).start_le

theorem stays_constructorHead (refused : Refuses stream own Phrase.constructorHead start)
    (stays : Stays stream own (.rule .unknownMember) start bound) :
    Stays stream own Phrase.constructorHead start bound := by
  refine stays_seq_of_refused refused (stays_rule.mp stays) id (fun _ _ => id) ?_
  intro middle refused stays
  have type := (stays_seq.mp stays).1
  cases named : (Terminal.named own).admits (stream.get middle) with
  | false =>
      have inside := type.start_le
      refine stays_seq.mpr ⟨⟨_, _, .ownMissing named, inside, by simpa using inside⟩, ?_⟩
      intro place _ accepted
      exact absurd (accepts_expectOwnName.mp accepted).1 (by simp [named])
  | true =>
      have isName : Terminals.allow [.identifier] (stream.get middle) = true := by
        simpa using identifier_of_named named
      have inside := stays_behind_name isName type
      refine stays_seq.mpr ⟨⟨_, _, .ownFound named, inside, nofun⟩, ?_⟩
      intro place _ accepted
      have behind := refused.second accepted
      obtain ⟨-, rfl, -⟩ := accepts_expectOwnName.mp accepted
      exact stays_of_refused behind inside

theorem stays_methodHead (refused : Refuses stream own Phrase.methodHead start)
    (stays : Stays stream own (.rule .unknownMember) start bound) :
    Stays stream own Phrase.methodHead start bound := by
  refine stays_seq_of_refused refused (stays_rule.mp stays) id (fun _ _ => id) ?_
  intro middle refused stays
  refine stays_seq_of_refused refused stays id (fun _ _ => id) ?_
  intro place refused stays
  refine stays_seq_of_refused refused stays stays_relabel (fun _ _ => accepts_relabel) ?_
  intro behind refused stays
  exact stays_of_refused refused stays.start_le

theorem stays_attributeHead (refused : Refuses stream own Phrase.attributeHead start)
    (stays : Stays stream own (.rule .unknownMember) start bound) :
    Stays stream own Phrase.attributeHead start bound := by
  refine stays_seq_of_refused refused (stays_rule.mp stays) id (fun _ _ => id) ?_
  intro middle refused stays
  refine stays_seq_of_refused refused stays stays_typeName_of_returnType ?_ ?_
  · intro place _ accepted
    exact (accepts_returnType_iff (not_void_of_accepts accepted)).mpr accepted
  intro place refused stays
  refine stays_seq_of_refused refused stays stays_relabel (fun _ _ => accepts_relabel) ?_
  intro behind refused stays
  exact stays_of_refused refused stays.start_le

/-! ## All trials -/

namespace Phrase

/-- A member of which only the modifiers, a type and a name may have been seen. -/
def fromAttribute : Phrase := ifAhead attributeHead (rule .attributeDecl) (rule .unknownMember)

/-- A member that is not a constructor. -/
def fromMethod : Phrase := ifAhead methodHead (rule .method) fromAttribute

/-- The trials, with what they lead to. -/
def memberTrials : List (Phrase × Phrase × Phrase) :=
  [(constructorHead, rule .constructor, fromMethod), (methodHead, rule .method, fromAttribute),
    (attributeHead, rule .attributeDecl, rule .unknownMember)]

end Phrase

theorem stays_unknownMember_of_fromAttribute
    (stays : Stays stream own Phrase.fromAttribute start bound) :
    Stays stream own (.rule .unknownMember) start bound := by
  rcases stays_ifAhead stays with ⟨⟨_, _, declared⟩, attributed⟩ | ⟨-, other⟩
  · exact stays_unknownMember_of_attribute declared attributed
  · exact other

theorem stays_unknownMember_of_fromMethod
    (stays : Stays stream own Phrase.fromMethod start bound) :
    Stays stream own (.rule .unknownMember) start bound := by
  rcases stays_ifAhead stays with ⟨-, method⟩ | ⟨-, other⟩
  · exact stays_unknownMember_of_method method
  · exact stays_unknownMember_of_fromAttribute other

/-- No trial goes further than the reading that it leads to. -/
theorem stays_trial {trial yes no : Phrase} (listed : (trial, yes, no) ∈ Phrase.memberTrials)
    (stays : Stays stream own (.ifAhead trial yes no) start bound) :
    Stays stream own trial start bound := by
  simp only [Phrase.memberTrials, List.mem_cons, Prod.mk.injEq, List.not_mem_nil, or_false] at listed
  rcases listed with ⟨rfl, rfl, rfl⟩ | ⟨rfl, rfl, rfl⟩ | ⟨rfl, rfl, rfl⟩
  · rcases stays_ifAhead stays with ⟨-, constructor⟩ | ⟨refused, other⟩
    · exact constructor.constructorHead
    · exact stays_constructorHead refused (stays_unknownMember_of_fromMethod other)
  · rcases stays_ifAhead stays with ⟨-, method⟩ | ⟨refused, other⟩
    · exact method.methodHead
    · exact stays_methodHead refused (stays_unknownMember_of_fromAttribute other)
  · rcases stays_ifAhead stays with ⟨-, attributed⟩ | ⟨refused, other⟩
    · exact attributed.attributeHead
    · exact stays_attributeHead refused other

/-! ## The start of an entry method -/

/-- Modifiers go behind each modifier. -/
theorem stays_modifiers_of_next (next : First.modifier.allow (stream.get start) = true)
    (stays : Stays stream own (.rule .modifiers) start bound) :
    start + 1 ≤ bound ∧ Stays stream own (.rule .modifiers) (start + 1) bound := by
  have ahead : stream.startsWith [First.modifier] start = true := by rwa [startsWith_singleton]
  obtain ⟨one, more⟩ := stays_whileNext ahead (stays_rule.mp stays)
  refine ⟨(stays_expect_of_found next).mp one, stays_rule.mpr (more (start + 1) .empty ?_)⟩
  exact accepts_expect.mpr ⟨next, rfl, rfl⟩

theorem accepts_modifiers_of_next (next : First.modifier.allow (stream.get start) = true)
    {stop : Nat} {outline : Outline}
    (accepted : Accepts stream own (.rule .modifiers) (start + 1) stop outline) :
    Accepts stream own (.rule .modifiers) start stop outline := by
  have ahead : stream.startsWith [First.modifier] start = true := by rwa [startsWith_singleton]
  refine accepts_rule.mpr ((accepts_whileNext_of_ahead ahead).mpr
    ⟨start + 1, .empty, outline, accepts_expect.mpr ⟨next, rfl, rfl⟩, accepts_rule.mp accepted, ?_⟩)
  exact (Outline.empty_append outline).symm

theorem stays_behind_token {choices : Terminals} {label : String} {rest : Phrase}
    (found : choices.allow (stream.get start) = true)
    (stays : Stays stream own (.seq (.expect choices label) rest) start bound) :
    Stays stream own rest (start + 1) bound :=
  (stays_seq.mp stays).2 (start + 1) .empty (accepts_expect.mpr ⟨found, rfl, rfl⟩)

theorem stays_of_entryMethod {k : Nat} (short : k < MemberKind.entryHeader.length)
    (seen : stream.startsWith (MemberKind.entryHeader.take k) start = true)
    (stays : Stays stream own (.rule .entryMethod) start bound) : start + k ≤ bound := by
  have read := stays_rule.mp stays
  match k, short with
  | 0, _ => exact read.start_le
  | 1, _ =>
      obtain ⟨isPublic, -⟩ := Bool.and_eq_true_iff.mp seen
      exact (stays_behind_token isPublic read).start_le
  | 2, _ =>
      obtain ⟨isPublic, seen⟩ := Bool.and_eq_true_iff.mp seen
      obtain ⟨isStatic, -⟩ := Bool.and_eq_true_iff.mp seen
      exact (stays_behind_token isStatic (stays_behind_token isPublic read)).start_le
  | 3, _ =>
      obtain ⟨isPublic, seen⟩ := Bool.and_eq_true_iff.mp seen
      obtain ⟨isStatic, seen⟩ := Bool.and_eq_true_iff.mp seen
      obtain ⟨isVoid, -⟩ := Bool.and_eq_true_iff.mp seen
      exact (stays_behind_token isVoid
        (stays_behind_token isStatic (stays_behind_token isPublic read))).start_le

/-- A member that is not an entry method starts with modifiers, and without a constructor's head a type
comes next. -/
theorem stays_modifiers_of_otherMember (stays : Stays stream own Phrase.otherMember start bound) :
    Stays stream own (.rule .modifiers) start bound ∧
      ∀ middle outline, Accepts stream own (.rule .modifiers) start middle outline →
        stream.startsWith [[.keyword "void"]] middle = true → middle + 1 ≤ bound := by
  rcases stays_ifAhead stays with ⟨⟨_, _, headed⟩, constructed⟩ | ⟨-, other⟩
  · refine ⟨(stays_seq.mp constructed.constructorHead).1, fun middle _ accepted next => ?_⟩
    obtain ⟨place, _, _, modifiers, rest, -⟩ := accepts_seq.mp headed
    obtain ⟨rfl, -⟩ := modifiers.unique accepted
    obtain ⟨_, _, _, named, -, -⟩ := accepts_seq.mp rest
    -- no class is called `void`
    have isName : Terminals.allow [.identifier] (stream.get place) = true := by
      simpa using identifier_of_named (accepts_expectOwnName.mp named).1
    rw [startsWith_singleton, Terminals.not_allow_of_apart (by decide) isName] at next
    exact Bool.noConfusion next
  · have unknown := stays_rule.mp (stays_unknownMember_of_fromMethod other)
    refine ⟨(stays_seq.mp unknown).1, fun middle _ accepted next => ?_⟩
    exact stays_void next (stays_seq.mp ((stays_seq.mp unknown).2 middle _ accepted)).1

theorem stays_of_otherMember {k : Nat} (short : k < MemberKind.entryHeader.length)
    (seen : stream.startsWith (MemberKind.entryHeader.take k) start = true)
    (stays : Stays stream own Phrase.otherMember start bound) : start + k ≤ bound := by
  obtain ⟨modifiers, typed⟩ := stays_modifiers_of_otherMember stays
  have modifier : ∀ {word : String} {place : Nat}, .keyword word ∈ First.modifier →
      Terminals.allow [.keyword word] (stream.get place) = true →
        First.modifier.allow (stream.get place) = true := by
    intro word place listed allowed
    exact Terminals.allow_iff.mpr ⟨_, listed, by rwa [Terminals.allow_singleton] at allowed⟩
  match k, short with
  | 0, _ => exact stays.start_le
  | 1, _ =>
      obtain ⟨isPublic, -⟩ := Bool.and_eq_true_iff.mp seen
      exact (stays_modifiers_of_next (modifier (by decide) isPublic) modifiers).1
  | 2, _ =>
      obtain ⟨isPublic, seen⟩ := Bool.and_eq_true_iff.mp seen
      obtain ⟨isStatic, -⟩ := Bool.and_eq_true_iff.mp seen
      obtain ⟨-, more⟩ := stays_modifiers_of_next (modifier (by decide) isPublic) modifiers
      exact (stays_modifiers_of_next (modifier (by decide) isStatic) more).1
  | 3, _ =>
      obtain ⟨isPublic, seen⟩ := Bool.and_eq_true_iff.mp seen
      obtain ⟨isStatic, seen⟩ := Bool.and_eq_true_iff.mp seen
      obtain ⟨isVoid, -⟩ := Bool.and_eq_true_iff.mp seen
      have stopped : stream.startsWith [First.modifier] (start + 1 + 1) = false :=
        Terminals.not_startsWith_of_apart (by decide) isVoid
      have none : Accepts stream own (.rule .modifiers) (start + 1 + 1) (start + 1 + 1) .empty :=
        accepts_rule.mpr ((accepts_whileNext_of_stop stopped).mpr ⟨rfl, rfl⟩)
      refine typed _ _ (accepts_modifiers_of_next (modifier (by decide) isPublic)
        (accepts_modifiers_of_next (modifier (by decide) isStatic) none)) ?_
      rwa [startsWith_singleton]

/-- The look at the start of an entry method goes no further than the reading of the member. -/
theorem entryHeader_seen {k : Nat} (short : k < MemberKind.entryHeader.length)
    (seen : stream.startsWith (MemberKind.entryHeader.take k) start = true)
    (stays : Stays stream own Rule.member.body start bound) : start + k ≤ bound := by
  have read := stays_ifNext.mp stays
  split at read
  · exact stays_of_entryMethod short seen (stays_seq.mp read).1
  · exact stays_of_otherMember short seen read

end ClassSyntax

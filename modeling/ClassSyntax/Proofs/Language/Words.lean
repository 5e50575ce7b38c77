import ClassSyntax.Proofs.Language.Inclusion
import ClassSyntax.Proofs.Language.Shape

/-!
# Words of the grammar

Classes, members and units leave something in an outline, everything below does not. For the words
below it is enough to know that they are words.

* `Derives.isWord`: below the members an outline is empty.
* `IsWord.regroup`: a value whose members are called starts with the longest possible target.
* `IsWord.startsWithTarget`: what stands behind the target at the start of an expression.
-/

namespace ClassSyntax

namespace Nonterminal

/-- Leaves nothing in an outline. -/
def quiet : Nonterminal → Bool
  | unit | classDecl | member => false
  | _ => true

end Nonterminal

namespace Form

/-- Leaves nothing in an outline. -/
def quiet : Form → Bool
  | empty | token _ | ownName => true
  | symbol name => name.quiet
  | seq first second | alt first second => first.quiet && second.quiet
  | many body | guarded _ body | unlike _ body => body.quiet
  | inClass _ | countEntry => false

end Form

theorem production_quiet {name : Nonterminal} (quiet : name.quiet = true) :
    name.production.quiet = true := by
  revert quiet
  cases name with
  | binary level => cases level <;> decide
  | _ => decide

/-- The word is a word of the form, and leaves nothing in an outline. -/
def IsWord (own : String) (form : Form) (word : List Token) : Prop :=
  Derives Nonterminal.production own form word .empty

section

variable {own : String} {word : List Token} {outline : Outline}

theorem Derives.isWord {form : Form} (quiet : form.quiet = true)
    (derived : Derives Nonterminal.production own form word outline) :
    outline = .empty ∧ IsWord own form word := by
  have silent : outline = .empty := by
    induction derived with
    | empty | token | ownName | manyNone => rfl
    | symbol _ ih => exact ih (production_quiet quiet)
    | seq _ _ ihFirst ihSecond =>
        simp only [Form.quiet, Bool.and_eq_true] at quiet
        rw [ihFirst quiet.1, ihSecond quiet.2, Outline.empty_append]
    | left _ ih =>
        simp only [Form.quiet, Bool.and_eq_true] at quiet
        exact ih quiet.1
    | right _ ih =>
        simp only [Form.quiet, Bool.and_eq_true] at quiet
        exact ih quiet.2
    | manyMore _ _ ihFirst ihRest =>
        rw [ihFirst quiet, ihRest quiet, Outline.empty_append]
    | guarded _ _ ih | unlike _ _ ih => exact ih quiet
    | inClass | countEntry => exact Bool.noConfusion quiet
  rw [silent] at derived
  exact ⟨silent, derived⟩

theorem Outline.append_eq_empty {left right : Outline} (same : left ++ right = .empty) :
    left = .empty ∧ right = .empty := by
  obtain ⟨classes, methods⟩ := left
  obtain ⟨others, further⟩ := right
  obtain ⟨none, zero⟩ := Outline.mk.inj same
  obtain ⟨rfl, rfl⟩ := List.append_eq_nil_iff.mp none
  obtain ⟨rfl, rfl⟩ := Nat.add_eq_zero_iff.mp zero
  exact ⟨rfl, rfl⟩

@[simp] theorem isWord_empty : IsWord own .empty word ↔ word = [] := by
  simp [IsWord]

@[simp] theorem isWord_token {choices : Terminals} :
    IsWord own (.token choices) word ↔ ∃ token, choices.allow token = true ∧ word = [token] := by
  simp [IsWord]

@[simp] theorem isWord_ownName :
    IsWord own .ownName word ↔
      ∃ token, (Terminal.named own).admits token = true ∧ word = [token] := by
  simp [IsWord]

theorem isWord_symbol {name : Nonterminal} :
    IsWord own (.symbol name) word ↔ IsWord own name.production word := derives_symbol

theorem isWord_seq {first second : Form} :
    IsWord own (.seq first second) word ↔
      ∃ left right, IsWord own first left ∧ IsWord own second right ∧ word = left ++ right := by
  constructor
  · intro derived
    obtain ⟨left, right, before, after, one, two, rfl, same⟩ := derives_seq.mp derived
    obtain ⟨rfl, rfl⟩ := Outline.append_eq_empty same.symm
    exact ⟨left, right, one, two, rfl⟩
  · rintro ⟨left, right, one, two, rfl⟩
    exact derives_seq.mpr ⟨left, right, _, _, one, two, rfl, (Outline.empty_append _).symm⟩

theorem IsWord.seq {first second : Form} {left right : List Token} (one : IsWord own first left)
    (two : IsWord own second right) : IsWord own (.seq first second) (left ++ right) :=
  isWord_seq.mpr ⟨left, right, one, two, rfl⟩

theorem isWord_alt {left right : Form} :
    IsWord own (.alt left right) word ↔ IsWord own left word ∨ IsWord own right word :=
  derives_alt

theorem isWord_optional {form : Form} :
    IsWord own (.optional form) word ↔ IsWord own form word ∨ word = [] := by
  rw [Form.optional, isWord_alt, isWord_empty]

theorem isWord_many {body : Form} :
    IsWord own (.many body) word ↔
      word = [] ∨ ∃ left right, IsWord own body left ∧ IsWord own (.many body) right ∧
        word = left ++ right := by
  constructor
  · intro derived
    rcases derives_many.mp derived with
      ⟨rfl, -⟩ | ⟨left, right, before, after, one, more, rfl, same⟩
    · exact .inl rfl
    · obtain ⟨rfl, rfl⟩ := Outline.append_eq_empty same.symm
      exact .inr ⟨left, right, one, more, rfl⟩
  · rintro (rfl | ⟨left, right, one, more, rfl⟩)
    · exact .manyNone
    · exact derives_many.mpr (.inr ⟨left, right, _, _, one, more, rfl,
        (Outline.empty_append _).symm⟩)

theorem IsWord.many {body : Form} {left right : List Token} (one : IsWord own body left)
    (more : IsWord own (.many body) right) : IsWord own (.many body) (left ++ right) :=
  isWord_many.mpr (.inr ⟨left, right, one, more, rfl⟩)

/-- Rounds may be added behind the others. -/
theorem IsWord.many_append {body : Form} {left right : List Token}
    (before : IsWord own (.many body) left) (after : IsWord own (.many body) right) :
    IsWord own (.many body) (left ++ right) := by
  unfold IsWord at before
  generalize sameForm : Form.many body = form, sameOutline : Outline.empty = outline at before
  induction before with
  | manyNone =>
      obtain rfl := Form.many.inj sameForm
      exact after
  | manyMore one more _ ih =>
      obtain rfl := Form.many.inj sameForm
      obtain ⟨rfl, rfl⟩ := Outline.append_eq_empty sameOutline.symm
      rw [List.append_assoc]
      exact IsWord.many one (ih after rfl rfl)
  | _ => exact nomatch sameForm

theorem IsWord.mono (fuel : Nat) {inner outer : Form} (isWord : IsWord own inner word)
    (inside : inner.within fuel outer = true) : IsWord own outer word :=
  Derives.mono fuel inside isWord

/-! ## Values and their members -/

namespace Form

open Nonterminal

/-- Behind the longest target of a value: a call and further members, or nothing. -/
def callTail : Form := optional (seq (symbol args) memberCalls)

/-- The tokens that stand between operands. -/
def binaryOperators : Terminals := Level.all.flatMap Level.terminals

end Form

open Nonterminal in
theorem isWord_target_append {target names : List Token} (isTarget : IsWord own (.symbol .target) target)
    (isNames : IsWord own Form.dottedNames names) :
    IsWord own (.symbol .target) (target ++ names) := by
  obtain ⟨head, more, isHead, isMore, rfl⟩ := isWord_seq.mp (isWord_symbol.mp isTarget)
  rw [List.append_assoc]
  exact isWord_symbol.mpr (isHead.seq (isMore.many_append isNames))

/-- Names behind a target belong to it, up to the first call. -/
theorem IsWord.regroup {target chain : List Token}
    (isTarget : IsWord own (.symbol .target) target)
    (isChain : IsWord own Rule.callChain.form chain) :
    ∃ longer tail, target ++ chain = longer ++ tail ∧ IsWord own (.symbol .target) longer ∧
      IsWord own Form.callTail tail := by
  obtain ⟨call, members, isCall, isMembers, rfl⟩ := isWord_seq.mp isChain
  -- by induction on the length of the further members
  induction length : members.length using Nat.strongRecOn generalizing target call members with
  | ind _ ih =>
      subst length
      rcases isWord_optional.mp isCall with isArgs | rfl
      · exact ⟨target, call ++ members, rfl, isTarget,
          isWord_optional.mpr (.inl (isArgs.seq isMembers))⟩
      · rcases isWord_many.mp isMembers with rfl | ⟨front, back, isFront, isBack, rfl⟩
        · exact ⟨target, [], rfl, isTarget, isWord_optional.mpr (.inr rfl)⟩
        · obtain ⟨point, named, isPoint, isNamed, rfl⟩ := isWord_seq.mp isFront
          obtain ⟨name, call, isName, isCall, rfl⟩ := isWord_seq.mp isNamed
          have isNames : IsWord own Form.dottedNames (point ++ name ++ []) :=
            (isPoint.seq isName).many (isWord_many.mpr (.inl rfl))
          obtain ⟨mark, -, rfl⟩ := isWord_token.mp isPoint
          obtain ⟨longer, tail, same, isLonger, isTail⟩ :=
            ih back.length (by simp; omega) (isWord_target_append isTarget isNames) call back
              isCall isBack (isCall.seq isBack) rfl
          exact ⟨longer, tail, by rw [← same]; simp, isLonger, isTail⟩

/-! ## Operands at the start of an expression -/

theorem opensWith_append {choices : Terminals} {left right : List Token}
    (opens : opensWith choices left = true) (behind : opensWith choices right = true) :
    opensWith choices (left ++ right) = true := by
  cases left with
  | nil => exact behind
  | cons head left => exact opens

theorem opensWith_of_isWord {form : Form} {choices : Terminals} (isWord : IsWord own form word)
    (inside : form.first.within choices = true) : opensWith choices word = true :=
  opensWith_of_begins (Derives.begins isWord) inside

/-- An expression starts with an operand, and an operator stands behind it or nothing. -/
theorem IsWord.startsWithUnary {level : Level}
    (isWord : IsWord own (.symbol (.binary level)) word) :
    ∃ operand rest, word = operand ++ rest ∧ IsWord own (.symbol .unary) operand ∧
      opensWith Form.binaryOperators rest = true := by
  -- by induction on the number of tighter levels
  induction depth : level.depth using Nat.strongRecOn generalizing level word with
  | ind _ ih =>
      obtain ⟨first, more, isFirst, isMore, rfl⟩ := isWord_seq.mp (isWord_symbol.mp isWord)
      have opens : opensWith Form.binaryOperators more = true :=
        opensWith_of_isWord isMore (by cases level <;> decide)
      unfold Form.operand at isFirst
      split at isFirst
      · rename_i next tighter
        have := Level.depth_tighter tighter
        obtain ⟨operand, rest, rfl, isOperand, behind⟩ := ih next.depth (by omega) isFirst rfl
        exact ⟨operand, rest ++ more, by simp, isOperand, opensWith_append behind opens⟩
      · exact ⟨first, more, rfl, isFirst, opens⟩

/-- An operand that starts like a target is a value, with its longest target in front. -/
theorem IsWord.startsWithTarget_of_unary {head : Token} {rest : List Token}
    (isWord : IsWord own (.symbol .unary) (head :: rest))
    (names : First.target.allow head = true) :
    ∃ target tail, head :: rest = target ++ tail ∧ IsWord own (.symbol .target) target ∧
      IsWord own Form.callTail tail := by
  have other : ∀ {form : Form}, form.first.apart First.target = true →
      ¬ IsWord own form (head :: rest) := by
    exact fun apart isOther => Terminals.not_both apart (Derives.starts isOther) names
  rcases isWord_alt.mp (isWord_symbol.mp isWord) with isOther | isPrimary
  · exact absurd isOther (other (by decide))
  · rcases isWord_alt.mp (isWord_symbol.mp isPrimary) with isValue | isOther
    · obtain ⟨target, chain, isTarget, isChain, same⟩ := isWord_seq.mp isValue
      rw [same]
      exact isTarget.regroup isChain
    · exact absurd isOther (other (by decide))

/-- An expression that starts like a target is a value, with its longest target in front, and an
operator stands behind it or nothing. -/
theorem IsWord.startsWithTarget {head : Token} {rest : List Token}
    (isWord : IsWord own (.symbol .expr) (head :: rest))
    (names : First.target.allow head = true) :
    ∃ target tail behind, head :: rest = target ++ (tail ++ behind) ∧
      IsWord own (.symbol .target) target ∧ IsWord own Form.callTail tail ∧
      opensWith Form.binaryOperators behind = true := by
  obtain ⟨operand, behind, same, isOperand, opens⟩ := (isWord_symbol.mp isWord).startsWithUnary
  cases operand with
  | nil => exact absurd rfl (Derives.ne_nil isOperand rfl)
  | cons first operand =>
      obtain ⟨rfl, rfl⟩ : head = first ∧ rest = operand ++ behind := List.cons.inj same
      obtain ⟨target, tail, split, isTarget, isTail⟩ := isOperand.startsWithTarget_of_unary names
      refine ⟨target, tail, behind, ?_, isTarget, isTail, opens⟩
      rw [← List.append_assoc, ← split, List.cons_append]

end

end ClassSyntax

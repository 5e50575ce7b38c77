import ClassSyntax.Proofs.Language.Words

/-!
# Where an `else` belongs

A statement that ends with a conditional without `else` takes an `else` behind it for its own. All
other statements are sealed, and an `else` behind a sealed statement belongs to what is around it.

* `sealed_or_absorbs`: every statement is sealed or takes an `else` for its own.
-/

namespace ClassSyntax

namespace Form

open Nonterminal

/-- A condition in parentheses behind its keyword. -/
def condition (word : String) : List Form :=
  [keyword word, mark "(", symbol expr, mark ")"]

def forHeader : List Form :=
  [keyword "for", mark "(", optional (symbol forInit), mark ";", optional (symbol expr), mark ";",
    optional (symbol simple), mark ")"]

def elseBranch : Form := seq (keyword "else") (symbol stmt)

/-- The statements that do not end with another statement. -/
def plainStmt : Form :=
  any [seq (symbol varDecl) (mark ";"), symbol returnStmt, symbol jumpStmt, symbol throwStmt,
    symbol tryStmt, symbol block, mark ";", seq (symbol simple) (mark ";"),
    seq (symbol expr) (mark ";")]

end Form

section

variable {own : String} {word : List Token}

/-- A form behind several others. -/
theorem isWord_all_concat (forms : List Form) (last : Form) (some : forms ≠ []) :
    IsWord own (.all (forms ++ [last])) word ↔
      ∃ front back, IsWord own (.all forms) front ∧ IsWord own last back ∧ word = front ++ back := by
  induction forms generalizing word with
  | nil => exact absurd rfl some
  | cons form forms ih =>
      cases forms with
      | nil => exact isWord_seq
      | cons next forms =>
          have step : ∀ {word : List Token},
              IsWord own (.all (next :: forms ++ [last])) word ↔ _ := ih (List.cons_ne_nil _ _)
          rw [show Form.all (form :: next :: forms ++ [last]) =
            .seq form (.all (next :: forms ++ [last])) from rfl, isWord_seq]
          constructor
          · rintro ⟨left, right, isLeft, isRight, rfl⟩
            obtain ⟨front, back, isFront, isBack, rfl⟩ := step.mp isRight
            exact ⟨left ++ front, back, isLeft.seq isFront, isBack, (List.append_assoc ..).symm⟩
          · rintro ⟨front, back, isFront, isBack, rfl⟩
            obtain ⟨left, right, isLeft, isRight, rfl⟩ := isWord_seq.mp isFront
            exact ⟨left, right ++ back, isLeft, step.mpr ⟨right, back, isRight, isBack, rfl⟩,
              List.append_assoc ..⟩

theorem isWord_whileStmt :
    IsWord own (.symbol .whileStmt) word ↔
      ∃ header body, IsWord own (.all (Form.condition "while")) header ∧
        IsWord own (.symbol .stmt) body ∧ word = header ++ body :=
  isWord_symbol.trans (isWord_all_concat (Form.condition "while") _ (List.cons_ne_nil _ _))

theorem isWord_forStmt :
    IsWord own (.symbol .forStmt) word ↔
      ∃ header body, IsWord own (.all Form.forHeader) header ∧
        IsWord own (.symbol .stmt) body ∧ word = header ++ body :=
  isWord_symbol.trans (isWord_all_concat Form.forHeader _ (List.cons_ne_nil _ _))

theorem isWord_ifStmt :
    IsWord own (.symbol .ifStmt) word ↔
      ∃ header body branch, IsWord own (.all (Form.condition "if")) header ∧
        IsWord own (.symbol .stmt) body ∧ IsWord own (.optional Form.elseBranch) branch ∧
          word = header ++ (body ++ branch) := by
  refine (isWord_symbol.trans (isWord_all_concat (Form.condition "if")
    (.seq (.symbol .stmt) (.optional Form.elseBranch)) (List.cons_ne_nil _ _))).trans ?_
  constructor
  · rintro ⟨header, rest, isHeader, isRest, rfl⟩
    obtain ⟨body, branch, isBody, isBranch, rfl⟩ := isWord_seq.mp isRest
    exact ⟨header, body, branch, isHeader, isBody, isBranch, rfl⟩
  · rintro ⟨header, body, branch, isHeader, isBody, isBranch, rfl⟩
    exact ⟨header, body ++ branch, isHeader, isBody.seq isBranch, rfl⟩

/-- A statement is plain, or a loop or conditional in front of another one. -/
theorem isWord_stmt :
    IsWord own (.symbol .stmt) word ↔
      IsWord own Form.plainStmt word ∨ IsWord own (.symbol .whileStmt) word ∨
        IsWord own (.symbol .forStmt) word ∨ IsWord own (.symbol .ifStmt) word := by
  constructor
  · intro isWord
    have split : IsWord own (.any [Form.plainStmt, .symbol .whileStmt, .symbol .forStmt,
        .symbol .ifStmt]) word := (isWord_symbol.mp isWord).mono 32 (by decide)
    simpa only [Form.any, isWord_alt] using split
  · rintro (isWord | isWord | isWord | isWord)
    all_goals exact isWord.mono 32 (by decide)

/-! ## Sealed statements -/

/-- No `else` behind the statement belongs to it. -/
inductive Sealed (own : String) : List Token → Prop
  | plain {word : List Token} : IsWord own Form.plainStmt word → Sealed own word
  | whileLoop {header body : List Token} :
      IsWord own (.all (Form.condition "while")) header → Sealed own body →
      Sealed own (header ++ body)
  | forLoop {header body : List Token} :
      IsWord own (.all Form.forHeader) header → Sealed own body → Sealed own (header ++ body)
  | ifElse {header body mark other : List Token} :
      IsWord own (.all (Form.condition "if")) header → Sealed own body →
      IsWord own (Form.keyword "else") mark → Sealed own other →
      Sealed own (header ++ (body ++ (mark ++ other)))

/-- An `else` and a statement behind the statement make one statement with it. -/
def Absorbs (own : String) (word : List Token) : Prop :=
  ∀ branch, IsWord own Form.elseBranch branch → IsWord own (.symbol .stmt) (word ++ branch)

theorem header_filled {forms : List Form} {header : List Token}
    (isHeader : IsWord own (.all forms) header) (filled : (Form.all forms).nullable = false) :
    0 < header.length :=
  List.length_pos_iff.mpr (Derives.ne_nil isHeader filled)

/-- Every statement is sealed or takes an `else` behind it for its own. -/
theorem sealed_or_absorbs (isStmt : IsWord own (.symbol .stmt) word) :
    Sealed own word ∨ Absorbs own word := by
  -- by induction on the length of the statement; the cases are its forms
  induction length : word.length using Nat.strongRecOn generalizing word with
  | ind _ ih =>
      subst length
      rcases isWord_stmt.mp isStmt with isPlain | isWhile | isFor | isIf
      · exact .inl (.plain isPlain)
      · obtain ⟨header, body, isHeader, isBody, rfl⟩ := isWord_whileStmt.mp isWhile
        have := header_filled isHeader rfl
        rcases ih body.length (by simp; omega) isBody rfl with closed | absorbs
        · exact .inl (.whileLoop isHeader closed)
        · refine .inr fun branch isBranch => isWord_stmt.mpr (.inr (.inl ?_))
          exact isWord_whileStmt.mpr ⟨header, body ++ branch, isHeader, absorbs branch isBranch,
            List.append_assoc ..⟩
      · obtain ⟨header, body, isHeader, isBody, rfl⟩ := isWord_forStmt.mp isFor
        have := header_filled isHeader rfl
        rcases ih body.length (by simp; omega) isBody rfl with closed | absorbs
        · exact .inl (.forLoop isHeader closed)
        · refine .inr fun branch isBranch => isWord_stmt.mpr (.inr (.inr (.inl ?_)))
          exact isWord_forStmt.mpr ⟨header, body ++ branch, isHeader, absorbs branch isBranch,
            List.append_assoc ..⟩
      · obtain ⟨header, body, branch, isHeader, isBody, isBranch, rfl⟩ := isWord_ifStmt.mp isIf
        have := header_filled isHeader rfl
        have conditional : ∀ {body branch : List Token}, IsWord own (.symbol .stmt) body →
            IsWord own (.optional Form.elseBranch) branch →
              IsWord own (.symbol .stmt) (header ++ (body ++ branch)) := fun isBody isBranch =>
          isWord_stmt.mpr (.inr (.inr (.inr
            (isWord_ifStmt.mpr ⟨header, _, _, isHeader, isBody, isBranch, rfl⟩))))
        rcases isWord_optional.mp isBranch with isElse | rfl
        · obtain ⟨mark, other, isMark, isOther, rfl⟩ := isWord_seq.mp isElse
          rcases ih other.length (by simp; omega) isOther rfl with closedOther | absorbs
          · rcases ih body.length (by simp; omega) isBody rfl with closedBody | absorbs
            · exact .inl (.ifElse isHeader closedBody isMark closedOther)
            · -- the inner conditional takes the `else`, which leaves the outer one without
              refine .inr fun branch isBranch => ?_
              have inner := absorbs (mark ++ other) (isMark.seq isOther)
              have outer := conditional inner (isWord_optional.mpr (.inl isBranch))
              simpa only [List.append_assoc] using outer
          · refine .inr fun branch isBranch => ?_
            have longer := conditional isBody
              (isWord_optional.mpr (.inl (isMark.seq (absorbs branch isBranch))))
            simpa only [List.append_assoc] using longer
        · refine .inr fun branch isBranch => ?_
          have taken := conditional isBody (isWord_optional.mpr (.inl isBranch))
          simpa only [List.append_assoc, List.append_nil] using taken

end

end ClassSyntax

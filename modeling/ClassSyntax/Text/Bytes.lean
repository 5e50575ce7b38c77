/-!
# Bytes of a text

How long a text is in UTF-8, and the text behind so many bytes of it.
-/

namespace ClassSyntax.Text

/-- How many bytes a text takes in UTF-8. -/
def byteCount : List Char → Nat
  | [] => 0
  | c :: text => c.utf8Size + byteCount text

/-- The text after so many bytes. A character that the cut falls into is dropped with them. -/
def dropBytes : Nat → List Char → List Char
  | 0, text => text
  | _ + 1, [] => []
  | bytes + 1, c :: text => dropBytes (bytes + 1 - c.utf8Size) text

theorem byteCount_pos {text : List Char} (nonempty : text ≠ []) : 0 < byteCount text := by
  cases text with
  | nil => exact absurd rfl nonempty
  | cons c text =>
      have := c.utf8Size_pos
      rw [byteCount]
      omega

/-- Behind the bytes of a text stands what follows it. -/
theorem dropBytes_byteCount_append (text rest : List Char) :
    dropBytes (byteCount text) (text ++ rest) = rest := by
  induction text with
  | nil => cases rest <;> rfl
  | cons c text ih =>
      have := c.utf8Size_pos
      obtain ⟨bytes, equal⟩ : ∃ bytes, byteCount (c :: text) = bytes + 1 :=
        ⟨byteCount (c :: text) - 1, by have := byteCount_pos (List.cons_ne_nil c text); omega⟩
      have remaining : bytes + 1 - c.utf8Size = byteCount text := by
        rw [byteCount] at equal
        omega
      rw [equal, List.cons_append, dropBytes, remaining, ih]

end ClassSyntax.Text

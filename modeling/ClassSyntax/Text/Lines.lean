/-!
# Lines of a text

A newline ends a line, and one carriage return right before it belongs to the line's end. What
follows the last newline is a line only when it is not empty, and keeps its carriage return.
-/

namespace ClassSyntax.Text

/-- Drops the carriage return that a line, given backwards, ends with. -/
def dropReturn : List Char → List Char
  | '\r' :: line => line
  | line => line

/-- `linesFrom current done text` are the lines of `text` after the lines `done`, when `current`
has been read of the first of them. Both are given backwards. -/
def linesFrom (current : List Char) (done : List (List Char)) : List Char → List (List Char)
  | [] => (if current.isEmpty then done else current.reverse :: done).reverse
  | c :: text =>
      if c = '\n' then linesFrom [] ((dropReturn current).reverse :: done) text
      else linesFrom (c :: current) done text

/-- The lines of a text, without their ends. -/
def lines (text : List Char) : List (List Char) := linesFrom [] [] text

/-- The line with this number, counted from one. -/
def line? (text : List Char) (number : UInt32) : Option (List Char) :=
  if number = 0 then none else (lines text)[number.toNat - 1]?

/-- How many newlines a text has. -/
def newlines (text : List Char) : Nat := text.count '\n'

example : lines "a\r\n\nb\r".toList = ["a".toList, [], "b\r".toList] := by decide

example : lines "a\n".toList = ["a".toList] ∧ lines [] = [] := by decide

end ClassSyntax.Text

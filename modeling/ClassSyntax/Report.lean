import ClassSyntax.Fault
import ClassSyntax.Text.Blank
import ClassSyntax.Text.Lines

/-!
# Reports

A fault shown with the line of the text that it is about.
-/

namespace ClassSyntax

/-- The line of `content` with this number, counted from one. -/
def lineOf? (content : String) (number : UInt32) : Option String :=
  (Text.line? content.toList number).map String.ofList

namespace Fault

/-- The cause's name, and its tip in parentheses. -/
def title (fault : Fault) : String :=
  match fault.cause.tip with
  | none => "Error: " ++ fault.cause.name
  | some tip => "Error: " ++ fault.cause.name ++ " (" ++ tip ++ ")"

/-- The bar that stands above and below a quoted line, one column past the line's number. -/
def gutter (number : String) : String := String.ofList (List.replicate (number.length + 1) ' ') ++ "|"

/-- What a report says about the place of a fault: the line without the blanks around it, or the
fault itself when the text has no such line. -/
def excerpt (fault : Fault) (content : String) : String :=
  match Text.line? content.toList fault.line with
  | none => fault.render ++ "\n"
  | some line =>
      let number := toString fault.line.toNat
      gutter number ++ "\n" ++
        number ++ " | " ++ String.ofList (Text.trim line) ++ "\n" ++
        gutter number ++ "\n"

/-- Title, path and place of a fault in a text. -/
def report (fault : Fault) (content path : String) : String :=
  fault.title ++ "\n-> " ++ path ++ "\n" ++ fault.excerpt content

end Fault

end ClassSyntax

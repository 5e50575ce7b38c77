import ClassSyntax.Fault
import ClassSyntax.Text.Blank
import ClassSyntax.Text.Lines
import ClassSyntax.Text.Numeral

/-!
# Token records

The written form of a token stream: one record to a line, `<line,category,lexeme>`. A lexeme reaches
from the second comma to the last angle bracket, so it may hold commas and brackets itself. The
stream ends with the first record of the end of the input.
-/

namespace ClassSyntax

namespace Record

/-! ## Writing -/

/-- The line of the last token, or one when there is none. -/
def lastLine (tokens : List Token) : UInt32 :=
  match tokens.getLast? with
  | some token => token.line
  | none => 1

/-- Ends with the end of the input. -/
def isClosed (tokens : List Token) : Bool :=
  match tokens.getLast? with
  | some token => token.isEnd
  | none => false

/-- The tokens, and the end of the input after them unless they end with one. -/
def close (tokens : List Token) : List Token :=
  if isClosed tokens then tokens else tokens ++ [Token.endOfInput (lastLine tokens)]

/-- The text of a token stream. -/
def writeAll (tokens : List Token) : String :=
  String.join ((close tokens).map fun token => token.render ++ "\n")

/-! ## Reading -/

/-- What stands before and after the first comma. -/
def splitComma? (text : List Char) : Option (List Char × List Char) :=
  match text.dropWhile (· != ',') with
  | _ :: rest => some (text.takeWhile (· != ','), rest)
  | [] => none

/-- The text between the opening and the closing angle bracket. -/
def unwrap? : List Char → Option (List Char)
  | '<' :: text => if text.getLast? = some '>' then some text.dropLast else none
  | _ => none

/-- Reads one record. Blanks around the line number and the category are allowed; the lexeme is
taken as it is, and may not be empty. -/
def read? (record : List Char) : Option Token := do
  let fields ← unwrap? record
  let (line, fields) ← splitComma? fields
  let line ← Text.readUInt32? (Text.trim line)
  let (kind, lexeme) ← splitComma? fields
  let kind ← Kind.ofSpelling? (String.ofList (Text.trim kind))
  if lexeme.isEmpty then none else some ⟨kind, String.ofList lexeme, line⟩

/-- The tokens of a text, and a fault for each line that gave none. -/
structure Reading where
  tokens : List Token
  skipped : List Fault
  deriving DecidableEq, Repr

/-- A reading in progress: what was read, backwards. -/
structure Progress where
  tokens : List Token
  skipped : List Fault
  /-- The number of the last line. -/
  line : UInt32
  /-- The end of the input was read. -/
  ended : Bool

namespace Progress

def start : Progress := ⟨[], [], 0, false⟩

def skip (progress : Progress) (line : UInt32) (cause : Cause) : Progress :=
  { progress with skipped := ⟨cause, line⟩ :: progress.skipped, line := line }

/-- Reads one more line. A blank line is only counted; after the end of the input every other line
is a fault. -/
def next (progress : Progress) (text : List Char) : Progress :=
  let line := progress.line + 1
  let record := Text.trim text
  if record.isEmpty then { progress with line := line }
  else if progress.ended then progress.skip line (.recordAfterEnd (String.ofList record))
  else
    match read? record with
    | some token =>
        { progress with tokens := token :: progress.tokens, line := line, ended := token.isEnd }
    | none => progress.skip line (.malformedRecord (String.ofList record))

end Progress

/-- Reads a whole text, and closes the stream where the text does not. -/
def readAll (text : String) : Reading :=
  let last := (Text.lines text.toList).foldl Progress.next Progress.start
  ⟨close last.tokens.reverse, last.skipped.reverse⟩

example : (readAll " < 2 , Punctuation ,,>\n\nx\n<3,EOF,EOF>\n<4,Keyword,if>").tokens =
    [⟨.punctuation, ",", 2⟩, ⟨.endOfInput, "EOF", 3⟩] := by decide +kernel

end Record

end ClassSyntax

import ClassSyntax.Diagnostic
import ClassSyntax.Text.Quoted

/-!
# Faults

Everything that can be wrong with a source, a token file or a file as such, with the line it is
about. Each cause has a name, a message and, unless nothing helpful can be said, a tip.
-/

namespace ClassSyntax

inductive Cause where
  | unrecognisedToken (lexeme : String)
  | invalidIdentifier (lexeme : String)
  | unexpectedToken (expected : String) (found : Found)
  | missingEntryClass (found : Found)
  | duplicateEntryClass (name : String)
  | entryClassNotLast (name : String)
  | trailingTokens (found : String)
  | malformedRecord (record : String)
  | recordAfterEnd (record : String)
  | fileFailure (path message : String)
  deriving DecidableEq, Repr

namespace Cause

/-- The name under which a cause is reported. -/
def name : Cause → String
  | unrecognisedToken _ => "UnrecognisedToken"
  | invalidIdentifier _ => "InvalidIdentifier"
  | unexpectedToken _ _ => "UnexpectedToken"
  | missingEntryClass _ => "MissingEntryClass"
  | duplicateEntryClass _ => "DuplicateEntryClass"
  | entryClassNotLast _ => "EntryClassNotLast"
  | trailingTokens _ => "TrailingTokens"
  | malformedRecord _ => "MalformedRecord"
  | recordAfterEnd _ => "RecordAfterEof"
  | fileFailure _ _ => "Io"

/-- One sentence about a cause. Quotation follows `Text.quote`, except that what was found at a
token stands between single quotes as it is. -/
def message : Cause → String
  | unrecognisedToken lexeme => "unrecognised token: " ++ Text.quote lexeme
  | invalidIdentifier lexeme => "invalid identifier: " ++ Text.quote lexeme
  | unexpectedToken expected found =>
      "expected " ++ Text.quote expected ++ " but found " ++ found.render
  | missingEntryClass found => "expected an entry class but found " ++ found.render
  | duplicateEntryClass name => "class " ++ Text.quote name ++ " is a second entry class"
  | entryClassNotLast name => "entry class " ++ Text.quote name ++ " must be the last class"
  | trailingTokens found => "unexpected " ++ found ++ " after the last class"
  | malformedRecord record => "malformed token record: " ++ Text.quote record
  | recordAfterEnd record => "token record after EOF: " ++ Text.quote record
  | fileFailure path message => path ++ ": " ++ message

/-- How to mend a cause, where that can be said. -/
def tip : Cause → Option String
  | unrecognisedToken _ => none
  | invalidIdentifier lexeme =>
      some ("Identifier `" ++ lexeme ++
        "` starts with a digit, identifiers must start with a letter or `_`")
  | unexpectedToken expected found => some ("Expected `" ++ expected ++ "`, found " ++ found.render)
  | missingEntryClass _ =>
      some "Add a class containing `public static void main(String[] args)`"
  | duplicateEntryClass name =>
      some ("Class `" ++ name ++ "` declares a second entry method, only one is allowed")
  | entryClassNotLast name => some ("Move the entry class `" ++ name ++ "` after every other class")
  | trailingTokens found => some ("Unexpected " ++ found ++ " after the last class")
  | malformedRecord _ => some "Records must have the shape <line,category,lexeme>"
  | recordAfterEnd _ => some "Only one EOF record is allowed and it must come last"
  | fileFailure _ _ => none

end Cause

/-- A cause and the line it is about; line zero stands for no line. -/
structure Fault where
  cause : Cause
  line : UInt32
  deriving DecidableEq, Repr

namespace Fault

/-- A file that cannot be read or written is a fault of no line. -/
def ofFile (path message : String) : Fault := ⟨.fileFailure path message, 0⟩

def ofDiagnostic (diagnostic : Diagnostic) : Fault :=
  let cause := match diagnostic.reason with
    | .expectation => .unexpectedToken diagnostic.expected diagnostic.found
    | .missingEntryClass => .missingEntryClass diagnostic.found
    | .duplicateEntryClass name => .duplicateEntryClass name
    | .entryClassNotLast name => .entryClassNotLast name
    | .trailingTokens => .trailingTokens diagnostic.found.render
  ⟨cause, diagnostic.line⟩

/-- The fault on one line of text. -/
def render (fault : Fault) : String :=
  "line " ++ toString fault.line.toNat ++ ": " ++ fault.cause.message

end Fault

end ClassSyntax

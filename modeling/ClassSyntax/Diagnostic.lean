import ClassSyntax.Token

/-!
# Syntax diagnostics

A diagnostic says what was expected at a token, what stood there instead, and why that is wrong.
-/

namespace ClassSyntax

/-- What stood where something else was expected. -/
inductive Found where
  | lexeme (text : String)
  | endOfInput
  deriving DecidableEq, Repr

namespace Found

/-- The closing token of a stream is the end of the input, every other token its lexeme. -/
def ofToken (token : Token) : Found := if token.isEnd then endOfInput else lexeme token.lexeme

def render : Found → String
  | lexeme text => "'" ++ text ++ "'"
  | endOfInput => "end of input"

end Found

/-- Why a token is wrong: a part of a phrase is missing, or the classes as a whole do not make a
program. -/
inductive Reason where
  | expectation
  | missingEntryClass
  | duplicateEntryClass (name : String)
  | entryClassNotLast (name : String)
  | trailingTokens
  deriving DecidableEq, Repr

structure Diagnostic where
  line : UInt32
  expected : String
  found : Found
  reason : Reason
  deriving DecidableEq, Repr

namespace Diagnostic

/-- A diagnostic at a token. -/
def ofToken (token : Token) (reason : Reason) (expected : String) : Diagnostic :=
  ⟨token.line, expected, Found.ofToken token, reason⟩

/-- A missing part of a phrase. -/
def missing (token : Token) (expected : String) : Diagnostic := ofToken token .expectation expected

/-- About the arrangement of the classes and not about a missing part of a phrase. -/
def isStructural (diagnostic : Diagnostic) : Bool := diagnostic.reason != .expectation

def render (diagnostic : Diagnostic) : String :=
  "SYNTAX ERROR at line " ++ toString diagnostic.line.toNat ++ ": Expected '" ++
    diagnostic.expected ++ "' but found " ++ diagnostic.found.render

end Diagnostic

end ClassSyntax

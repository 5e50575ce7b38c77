import ClassSyntax.Cursor
import ClassSyntax.Fault

/-!
# The lexer

Turns a source into its tokens. Invalid lexemes become tokens like all others, unless the policy is to
stop at the first of them.
-/

namespace ClassSyntax

/-- The tokens from a place on, after those that were already read, and the end of the input on the
line where the source ends. -/
def collectTokens (read : Array Token) (cursor : Cursor) : List Token :=
  match _ : cursor.nextToken with
  | (none, last) => (read.push (Token.endOfInput last.line)).toList
  | (some token, next) => collectTokens (read.push token) next
termination_by cursor.rest.length
decreasing_by exact Cursor.length_nextToken_lt ‹_›

/-- The tokens of a source, whatever it holds. -/
def tokenize (source : String) : List Token := collectTokens #[] (Cursor.atStart source)

/-! ## Invalid lexemes -/

/-- What to do about an invalid token. -/
inductive Policy where
  | collect
  | abort
  deriving DecidableEq, Repr

/-- Invalid tokens are kept for the parser to complain about. -/
instance : Inhabited Policy := ⟨.collect⟩

/-- Why a token cannot be part of any program, where its category alone says so. -/
def Token.objection? (token : Token) : Option Fault :=
  match token.kind with
  | .invalid => some ⟨.unrecognisedToken token.lexeme, token.line⟩
  | .invalidIdentifier => some ⟨.invalidIdentifier token.lexeme, token.line⟩
  | _ => none

/-- As `collectTokens`, but stops at the first token with an objection. -/
def collectValid (read : Array Token) (cursor : Cursor) : Except Fault (List Token) :=
  match _ : cursor.nextToken with
  | (none, last) => .ok (read.push (Token.endOfInput last.line)).toList
  | (some token, next) =>
      match token.objection? with
      | some fault => .error fault
      | none => collectValid (read.push token) next
termination_by cursor.rest.length
decreasing_by exact Cursor.length_nextToken_lt ‹_›

/-- The tokens of a source under a policy. -/
def tokenizeWith (policy : Policy) (source : String) : Except Fault (List Token) :=
  match policy with
  | .collect => .ok (tokenize source)
  | .abort => collectValid #[] (Cursor.atStart source)

end ClassSyntax

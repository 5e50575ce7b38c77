import ClassSyntax.Frontier
import ClassSyntax.Grammar.Classify

/-!
# Parsers

A position in a stream together with the error frontier. Single tokens and rules act on it; attempts
and lookahead are in `Script`. Inside lookahead nothing is added to the frontier.
-/

namespace ClassSyntax

structure Parser where
  stream : TokenStream
  position : Nat
  frontier : Frontier
  /-- How many lookaheads are under way. -/
  depth : Nat

/-- What a parser does: it gives a value or a diagnostic, and is left in a new state. -/
abbrev Parse (α : Type) := Parser → Except Diagnostic α × Parser

namespace Parser

/-- At the first of these tokens. -/
def start (tokens : List Token) : Parser := ⟨TokenStream.ofTokens tokens, 0, .start, 0⟩

def peek (parser : Parser) (distance : Nat) : Token :=
  parser.stream.get (parser.position + distance)

def current (parser : Parser) : Token := parser.peek 0

def hasTokens (parser : Parser) : Bool := !parser.current.isEnd

def diagnostics (parser : Parser) : List Diagnostic :=
  parser.frontier.diagnostics parser.stream

/-- Behind the current token, but never behind the end of the input. -/
def skip (parser : Parser) : Parser :=
  if parser.hasTokens then { parser with position := parser.position + 1 } else parser

/-- Takes the current token. -/
def advance : Parse Token := fun parser => (.ok parser.current, parser.skip)

/-- Back, or forth, to a position that was reached before. -/
def restore (parser : Parser) (position : Nat) : Parser := { parser with position := position }

/-- Adds to the frontier, except inside lookahead. -/
def note (parser : Parser) (log : List Failure) : Parser :=
  if parser.depth = 0 then { parser with frontier := parser.frontier.noteAll log } else parser

/-- Something is missing here. -/
def fail {α : Type} (expected : String) : Parse α := fun parser =>
  let failure : Failure := ⟨parser.position, expected⟩
  (.error (failure.diagnostic parser.stream), parser.note [failure])

/-- Takes the current token if it is of this category and spelled this way. -/
def eat (kind : Kind) (lexeme : String) : Parse Bool := fun parser =>
  if parser.current.is kind lexeme then (.ok true, parser.skip) else (.ok false, parser)

/-- Takes the current token, which must be of this category and spelled this way. -/
def expect (kind : Kind) (lexeme : String) : Parse Token := fun parser =>
  if parser.current.is kind lexeme then advance parser else fail lexeme parser

/-- Takes the current token, which must be an identifier. -/
def expectIdentifier (role : String) : Parse Token := fun parser =>
  if parser.current.kind = .identifier then advance parser else fail role parser

/-! ## Rules -/

/-- Reads a rule inside the class `own`. -/
def rule (own : String) (rule : Rule) : Parse Outline := fun parser =>
  let (outcome, log) := rule.read parser.stream own parser.position
  let after := { parser.note log with position := outcome.stop }
  match outcome with
  | .ok _ outline => (.ok outline, after)
  | .fail failure => (.error (failure.diagnostic parser.stream), after)

/-- The kind of the member that comes next. -/
def memberKind (parser : Parser) (own : String) : MemberKind :=
  MemberKind.classify parser.stream own parser.position

end Parser

end ClassSyntax

import ClassSyntax.TokenStream

/-!
# Terminals

A terminal describes single tokens. No terminal admits the end of the input, which is why a parser
that only ever takes admitted tokens stays within its stream.
-/

namespace ClassSyntax

inductive Terminal where
  /-- One spelling of one category. -/
  | spelled (kind : Kind) (lexeme : String)
  /-- Every token of a category. -/
  | category (kind : Kind)
  /-- Every token at all. -/
  | anything
  deriving DecidableEq, Repr

namespace Terminal

def keyword (word : String) : Terminal := spelled .keyword word

def operator (symbol : String) : Terminal := spelled .operator symbol

def mark (symbol : String) : Terminal := spelled .punctuation symbol

/-- The identifier that is spelled this way. -/
def named (name : String) : Terminal := spelled .identifier name

def identifier : Terminal := category .identifier

def admits (terminal : Terminal) (token : Token) : Bool :=
  !token.isEnd &&
    match terminal with
    | spelled kind lexeme => token.is kind lexeme
    | category kind => token.kind == kind
    | anything => true

theorem isEnd_of_admits {terminal : Terminal} {token : Token}
    (admitted : terminal.admits token = true) : token.isEnd = false := by
  simp only [admits, Bool.and_eq_true, Bool.not_eq_true'] at admitted
  exact admitted.1

/-- The spelling, for those that have one. -/
def lexeme : Terminal → String
  | spelled _ lexeme => lexeme
  | category kind => kind.spelling
  | anything => "anything"

end Terminal

/-- A set of terminals. -/
abbrev Terminals := List Terminal

namespace Terminals

/-- Some terminal of the set admits the token. -/
def allow (choices : Terminals) (token : Token) : Bool :=
  choices.any fun terminal => terminal.admits token

theorem isEnd_of_allow {choices : Terminals} {token : Token} (allowed : choices.allow token = true) :
    token.isEnd = false := by
  obtain ⟨terminal, -, admitted⟩ := List.any_eq_true.mp allowed
  exact Terminal.isEnd_of_admits admitted

end Terminals

namespace TokenStream

/-- The tokens from a position on are admitted by these sets, one after the other. -/
def startsWith (stream : TokenStream) : List Terminals → Nat → Bool
  | [], _ => true
  | choices :: more, position =>
      choices.allow (stream.get position) && stream.startsWith more (position + 1)

theorem lt_size_of_isEnd {stream : TokenStream} {position : Nat}
    (unended : (stream.get position).isEnd = false) : position < stream.size := by
  refine Nat.lt_of_not_le fun beyond => ?_
  rw [(stream.get_isEnd_iff position).mpr beyond] at unended
  exact Bool.noConfusion unended

theorem lt_size_of_admits {stream : TokenStream} {terminal : Terminal} {position : Nat}
    (admitted : terminal.admits (stream.get position) = true) : position < stream.size :=
  lt_size_of_isEnd (Terminal.isEnd_of_admits admitted)

theorem lt_size_of_allow {stream : TokenStream} {choices : Terminals} {position : Nat}
    (allowed : choices.allow (stream.get position) = true) : position < stream.size :=
  lt_size_of_isEnd (Terminals.isEnd_of_allow allowed)

theorem not_allow_size (stream : TokenStream) (choices : Terminals) :
    choices.allow (stream.get stream.size) = false := by
  rw [← Bool.not_eq_true]
  exact fun allowed => Nat.lt_irrefl _ (lt_size_of_allow allowed)

end TokenStream

end ClassSyntax

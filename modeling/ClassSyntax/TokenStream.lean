import ClassSyntax.Record

/-!
# Token streams

A stream is a sequence of tokens that the end of the input follows for ever. Positions count from
zero; `get` is total, and from `size` on it is the end of the input.
-/

namespace ClassSyntax

structure TokenStream where
  body : Array Token
  /-- The line of the end of the input. -/
  endLine : UInt32
  /-- The end of the input comes after the body only. -/
  unended : ∀ token ∈ body, token.isEnd = false

namespace TokenStream

/-- Drops every end of the input among the tokens and puts one after them, on the last line. -/
def ofTokens (tokens : List Token) : TokenStream where
  body := (tokens.filter fun token => !token.isEnd).toArray
  endLine := Record.lastLine tokens
  unended := by simp

def size (stream : TokenStream) : Nat := stream.body.size

/-- The token at a position. -/
def get (stream : TokenStream) (position : Nat) : Token :=
  stream.body[position]?.getD (Token.endOfInput stream.endLine)

theorem get_isEnd_iff (stream : TokenStream) (position : Nat) :
    (stream.get position).isEnd = true ↔ stream.size ≤ position := by
  unfold get size
  by_cases inside : position < stream.body.size
  · have := stream.unended stream.body[position] (Array.getElem_mem inside)
    simp only [Array.getElem?_eq_getElem inside, Option.getD_some, this]
    simpa using inside
  · have beyond : stream.body.size ≤ position := Nat.le_of_not_lt inside
    simp only [Array.getElem?_eq_none beyond, Option.getD_none]
    simp [Token.endOfInput, Token.isEnd, beyond]

theorem get_of_size_le {stream : TokenStream} {position : Nat} (beyond : stream.size ≤ position) :
    stream.get position = Token.endOfInput stream.endLine := by
  unfold get
  rw [Array.getElem?_eq_none beyond, Option.getD_none]

end TokenStream

end ClassSyntax

import ClassSyntax.Pattern
import ClassSyntax.Text.Bytes
import ClassSyntax.Text.Lines

/-!
# Cursors

A place in a source, and the steps from one token to the next. Trivia are passed over, but their
newlines count. `Cursor.length_nextToken_lt` is why reading a source ends: behind a token less is left
to be read than before it.
-/

namespace ClassSyntax

/-- A place in a source: what is still to be read, and the number of the line read from. -/
structure Cursor where
  rest : List Char
  line : UInt32
  deriving DecidableEq, Repr

namespace Cursor

def atStart (source : String) : Cursor := ⟨source.toList, 1⟩

def atEnd (cursor : Cursor) : Bool := cursor.rest.isEmpty

/-- Past this text: as many bytes further, and one line further for each of its newlines. -/
def advanceOver (cursor : Cursor) (text : List Char) : Cursor :=
  ⟨Text.dropBytes (Text.byteCount text) cursor.rest, cursor.line + UInt32.ofNat (Text.newlines text)⟩

/-- The text of a lexeme that stands here. -/
def lexeme (cursor : Cursor) (found : Match) : List Char := cursor.rest.take found.length

/-- Past a lexeme that stands here. -/
def pass (cursor : Cursor) (found : Match) : Cursor := cursor.advanceOver (cursor.lexeme found)

/-- Passing a lexeme drops its characters and no others. -/
theorem rest_pass (cursor : Cursor) (found : Match) :
    (cursor.pass found).rest = cursor.rest.drop found.length := by
  have behind := Text.dropBytes_byteCount_append (cursor.rest.take found.length)
    (cursor.rest.drop found.length)
  rwa [List.take_append_drop] at behind

theorem length_pass_lt {cursor : Cursor} {found : Match} (unread : cursor.rest ≠ [])
    (nonempty : 0 < found.length) : (cursor.pass found).rest.length < cursor.rest.length := by
  have := List.length_pos_iff.mpr unread
  rw [rest_pass, List.length_drop]
  omega

/-- The next token and the place after it. At the end of the source there is none, and the place
is the one after all trivia. -/
def nextToken (cursor : Cursor) : Option Token × Cursor :=
  if _ : cursor.rest = [] then (none, cursor)
  else
    let found := nextMatch cursor.rest
    if found.kind.isTrivia then (cursor.pass found).nextToken
    else (some ⟨found.kind, String.ofList (cursor.lexeme found), cursor.line⟩, cursor.pass found)
termination_by cursor.rest.length
decreasing_by exact length_pass_lt ‹_› (nextMatch_pos _)

theorem length_nextToken_lt {cursor next : Cursor} {token : Token}
    (found : cursor.nextToken = (some token, next)) : next.rest.length < cursor.rest.length := by
  fun_induction nextToken cursor with
  | case1 => simp at found
  | case2 cursor unread _ _ ih =>
      exact Nat.lt_trans (ih found) (length_pass_lt unread (nextMatch_pos _))
  | case3 cursor unread _ _ =>
      simp only [Prod.mk.injEq] at found
      exact found.2 ▸ length_pass_lt unread (nextMatch_pos _)

end Cursor

end ClassSyntax

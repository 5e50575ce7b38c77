import Mathlib.Algebra.GroupWithZero.Nat
import ClassSyntax.Lexer
import ClassSyntax.Proofs.Lexing.OneLine

/-!
# The lexer divides its source

The lexemes that the lexer consumes one after the other, trivia included, are the source. Those that
are not trivia are its tokens.

* `Cursor.flatMap_pieces`: the lexemes from a place on are the rest of the source.
* `Cursor.line_of_pieces_eq`: a lexeme is numbered with the newlines before it.
* `tokenize_eq`: the tokens of a source are its significant lexemes.
* `tokenize_divides`: all of this for a source with fewer newlines than there are numbers.
-/

namespace ClassSyntax

theorem Text.newlines_append (left right : List Char) :
    newlines (left ++ right) = newlines left + newlines right := List.count_append

namespace Cursor

/-- The lexeme that stands here, which is the next to be consumed. -/
def piece (cursor : Cursor) : Token :=
  let found := nextMatch cursor.rest
  ⟨found.kind, String.ofList (cursor.lexeme found), cursor.line⟩

/-- Past the lexeme that stands here. -/
def next (cursor : Cursor) : Cursor := cursor.pass (nextMatch cursor.rest)

/-- The lexemes consumed from here on, one after the other. -/
def pieces (cursor : Cursor) : List Token :=
  if _ : cursor.rest = [] then [] else cursor.piece :: cursor.next.pieces
termination_by cursor.rest.length
decreasing_by exact length_pass_lt ‹_› (nextMatch_pos _)

/-! ## One lexeme -/

theorem toList_piece (cursor : Cursor) :
    cursor.piece.lexeme.toList = cursor.rest.take (nextMatch cursor.rest).length := by
  simp only [piece, lexeme, String.toList_ofList]

theorem piece_append_rest_next (cursor : Cursor) :
    cursor.piece.lexeme.toList ++ cursor.next.rest = cursor.rest := by
  rw [toList_piece, next, rest_pass, List.take_append_drop]

theorem line_next (cursor : Cursor) :
    cursor.next.line =
      cursor.line + UInt32.ofNat (Text.newlines cursor.piece.lexeme.toList) := by
  rw [toList_piece]
  rfl

theorem piece_filled {cursor : Cursor} (unread : cursor.rest ≠ []) :
    cursor.piece.lexeme ≠ "" := by
  rintro empty
  have taken := toList_piece cursor
  rw [empty, String.toList_empty, eq_comm, List.take_eq_nil_iff] at taken
  rcases taken with none | ended
  · exact absurd none (Nat.ne_of_gt (nextMatch_pos cursor.rest))
  · exact unread ended

theorem piece_oneLine {cursor : Cursor} (unread : cursor.rest ≠ [])
    (significant : cursor.piece.kind.isTrivia = false) :
    '\n' ∉ cursor.piece.lexeme.toList := by
  rw [toList_piece]
  exact nextMatch_oneLine unread significant

theorem piece_unended (cursor : Cursor) : cursor.piece.isEnd = false := by
  rw [Token.isEnd, beq_eq_false_iff_ne]
  exact nextMatch_kind_ne_endOfInput cursor.rest

/-! ## All lexemes -/

theorem pieces_of_atEnd {cursor : Cursor} (ended : cursor.rest = []) : cursor.pieces = [] := by
  rw [pieces, dif_pos ended]

theorem pieces_of_unread {cursor : Cursor} (unread : cursor.rest ≠ []) :
    cursor.pieces = cursor.piece :: cursor.next.pieces := by
  rw [pieces, dif_neg unread]

/-- What holds of every lexeme where it stands holds of all lexemes. -/
theorem forall_mem_pieces (property : Token → Prop)
    (each : ∀ cursor : Cursor, cursor.rest ≠ [] → property cursor.piece) (cursor : Cursor) :
    ∀ token ∈ cursor.pieces, property token := by
  fun_induction pieces cursor with
  | case1 => simp
  | case2 cursor unread ih => exact List.forall_mem_cons.mpr ⟨each cursor unread, ih⟩

theorem flatMap_pieces (cursor : Cursor) :
    cursor.pieces.flatMap (·.lexeme.toList) = cursor.rest := by
  fun_induction pieces cursor with
  | case1 _ ended => exact ended.symm
  | case2 cursor _ ih => rw [List.flatMap_cons, ih, piece_append_rest_next]

/-- The line number of a lexeme counts the newlines of the lexemes before it. -/
theorem line_of_pieces_eq {before after : List Token} {token : Token} {cursor : Cursor}
    (divided : cursor.pieces = before ++ token :: after) :
    token.line =
      cursor.line + UInt32.ofNat (Text.newlines (before.flatMap (·.lexeme.toList))) := by
  induction before generalizing cursor with
  | nil =>
      have unread : cursor.rest ≠ [] := fun ended => by simp [pieces_of_atEnd ended] at divided
      rw [pieces_of_unread unread, List.nil_append, List.cons.injEq] at divided
      rw [← divided.1]
      exact (UInt32.add_zero _).symm
  | cons first before ih =>
      have unread : cursor.rest ≠ [] := fun ended => by simp [pieces_of_atEnd ended] at divided
      rw [pieces_of_unread unread, List.cons_append, List.cons.injEq] at divided
      rw [ih divided.2, line_next, divided.1, List.flatMap_cons, Text.newlines_append,
        UInt32.ofNat_add, UInt32.add_assoc]

end Cursor

/-! ## The tokens among the lexemes -/

/-- The lexemes of a source, trivia included. -/
def lexemes (source : String) : List Token := (Cursor.atStart source).pieces

/-- The lexemes that are not trivia. -/
def significant (pieces : List Token) : List Token :=
  pieces.filter fun piece => !piece.kind.isTrivia

namespace Cursor

/-- The line on which the source ends. -/
def lastLine (cursor : Cursor) : UInt32 :=
  cursor.line + UInt32.ofNat (Text.newlines cursor.rest)

theorem lastLine_next (cursor : Cursor) : cursor.next.lastLine = cursor.lastLine := by
  rw [lastLine, lastLine, line_next, UInt32.add_assoc, ← UInt32.ofNat_add,
    ← Text.newlines_append, piece_append_rest_next]

theorem significant_pieces_of_trivia {cursor : Cursor} (unread : cursor.rest ≠ [])
    (trivia : cursor.piece.kind.isTrivia = true) :
    significant cursor.pieces = significant cursor.next.pieces := by
  rw [pieces_of_unread unread, significant, List.filter_cons_of_neg (by simpa using trivia)]
  rfl

theorem significant_pieces_of_shown {cursor : Cursor} (unread : cursor.rest ≠ [])
    (shown : cursor.piece.kind.isTrivia = false) :
    significant cursor.pieces = cursor.piece :: significant cursor.next.pieces := by
  rw [pieces_of_unread unread, significant, List.filter_cons_of_pos (by simpa using shown)]
  rfl

/-- The next token is the first significant lexeme, and the lexer goes on right behind it. -/
theorem nextToken_some {cursor later : Cursor} {token : Token}
    (found : cursor.nextToken = (some token, later)) :
    significant cursor.pieces = token :: significant later.pieces ∧
      later.lastLine = cursor.lastLine := by
  fun_induction nextToken cursor with
  | case1 => simp at found
  | case2 cursor unread _ trivia ih =>
      obtain ⟨same, line⟩ := ih found
      rw [significant_pieces_of_trivia unread trivia]
      exact ⟨same, line.trans (lastLine_next cursor)⟩
  | case3 cursor unread _ shown =>
      obtain ⟨rfl, rfl⟩ : cursor.piece = token ∧ cursor.next = later := by
        simpa [piece, next] using found
      rw [Bool.not_eq_true] at shown
      exact ⟨significant_pieces_of_shown unread shown, lastLine_next cursor⟩

/-- Where there is no next token, only trivia are left. -/
theorem nextToken_none {cursor later : Cursor} (found : cursor.nextToken = (none, later)) :
    significant cursor.pieces = [] ∧ later.line = cursor.lastLine := by
  fun_induction nextToken cursor with
  | case1 cursor ended =>
      obtain ⟨-, rfl⟩ := Prod.mk.inj found
      rw [pieces_of_atEnd ended, lastLine, ended]
      exact ⟨rfl, (UInt32.add_zero _).symm⟩
  | case2 cursor unread _ trivia ih =>
      obtain ⟨none, line⟩ := ih found
      rw [significant_pieces_of_trivia unread trivia]
      exact ⟨none, line.trans (lastLine_next cursor)⟩
  | case3 => simp at found

end Cursor

/-- What the lexer collects from a place on are the significant lexemes from there on. -/
theorem collectTokens_eq (read : Array Token) (cursor : Cursor) :
    collectTokens read cursor =
      read.toList ++ significant cursor.pieces ++ [Token.endOfInput cursor.lastLine] := by
  fun_induction collectTokens read cursor with
  | case1 read cursor last found =>
      obtain ⟨none, line⟩ := Cursor.nextToken_none found
      rw [none, ← line, Array.toList_push, List.append_nil]
  | case2 read cursor token later found ih =>
      obtain ⟨same, line⟩ := Cursor.nextToken_some found
      rw [ih, same, line, Array.toList_push]
      simp

theorem tokenize_eq (source : String) :
    tokenize source =
      significant (lexemes source) ++ [Token.endOfInput (Cursor.atStart source).lastLine] := by
  rw [tokenize, collectTokens_eq]
  rfl

/-! ## Sources with few newlines -/

/-- The source is divided into these lexemes, one after the other. -/
structure DividesInto (source : String) (pieces : List Token) : Prop where
  joined : String.join (pieces.map Token.lexeme) = source
  filled : ∀ piece ∈ pieces, piece.lexeme ≠ ""
  /-- Lines are counted from one. -/
  numbered : ∀ before piece after, pieces = before ++ piece :: after →
    piece.line.toNat = 1 + Text.newlines (String.join (before.map Token.lexeme)).toList

theorem toList_join_lexeme (pieces : List Token) :
    (String.join (pieces.map Token.lexeme)).toList = pieces.flatMap (·.lexeme.toList) := by
  rw [String.toList_join, List.flatMap_map]

theorem toNat_one_add {newlines : Nat} (few : newlines < 2 ^ 32 - 1) :
    ((1 : UInt32) + UInt32.ofNat newlines).toNat = 1 + newlines := by
  rw [← UInt32.ofNat_one, ← UInt32.ofNat_add]
  exact UInt32.toNat_ofNat_of_lt' (show 1 + newlines < 2 ^ 32 by omega)

theorem lexemes_divide {source : String} (few : Text.newlines source.toList < 2 ^ 32 - 1) :
    DividesInto source (lexemes source) where
  joined := by
    rw [← String.toList_inj, toList_join_lexeme]
    exact Cursor.flatMap_pieces (Cursor.atStart source)
  filled := Cursor.forall_mem_pieces _ (fun _ => Cursor.piece_filled) _
  numbered := by
    intro before piece after divided
    have whole : (lexemes source).flatMap (·.lexeme.toList) = source.toList :=
      Cursor.flatMap_pieces (Cursor.atStart source)
    -- the newlines before a lexeme are among those of the source
    have fewer : Text.newlines (before.flatMap (·.lexeme.toList)) < 2 ^ 32 - 1 := by
      rw [divided, List.flatMap_append] at whole
      rw [← whole, Text.newlines_append] at few
      omega
    rw [toList_join_lexeme, ← toNat_one_add fewer]
    exact congrArg UInt32.toNat (Cursor.line_of_pieces_eq divided)

/-- A source is divided into lexemes, with exact line numbers. Its tokens are the significant ones
among them, none with a newline in it, and after them the only end of the input, on the last
line. -/
theorem tokenize_divides (source : String)
    (few : Text.newlines source.toList < 2 ^ 32 - 1) :
    DividesInto source (lexemes source) ∧
      (∃ line, tokenize source = significant (lexemes source) ++ [Token.endOfInput line] ∧
        line.toNat = 1 + Text.newlines source.toList) ∧
      ∀ token ∈ significant (lexemes source), token.isEnd = false ∧ '\n' ∉ token.lexeme.toList := by
  refine ⟨lexemes_divide few, ⟨_, tokenize_eq source, toNat_one_add few⟩, ?_⟩
  intro token member
  obtain ⟨listed, shown⟩ := List.mem_filter.mp member
  rw [Bool.not_eq_true'] at shown
  have each := Cursor.forall_mem_pieces
    (fun piece => piece.isEnd = false ∧
      (piece.kind.isTrivia = false → '\n' ∉ piece.lexeme.toList))
    (fun cursor unread => ⟨cursor.piece_unended, Cursor.piece_oneLine unread⟩) _ token listed
  exact ⟨each.1, each.2 shown⟩

/-- A comment over two lines. -/
theorem tokenize_divides_comment :
    Text.newlines "/*~\n~*/ x".toList < 2 ^ 32 - 1 ∧
      DividesInto "/*~\n~*/ x" (lexemes "/*~\n~*/ x") ∧
      ∃ line, tokenize "/*~\n~*/ x" =
          significant (lexemes "/*~\n~*/ x") ++ [Token.endOfInput line] ∧
        line.toNat = 1 + Text.newlines "/*~\n~*/ x".toList :=
  have few : Text.newlines "/*~\n~*/ x".toList < 2 ^ 32 - 1 := by decide
  have divides := tokenize_divides "/*~\n~*/ x" few
  ⟨few, divides.1, divides.2.1⟩

end ClassSyntax

import ClassSyntax.Proofs.Lexing.Trivia

/-!
# Reading lexemes again

The lexemes of a source, each on a line of its own, are read as the same tokens again: the newline behind a
lexeme takes nothing from it, adds nothing to it and is dropped.

* `Relexes`: what makes a lexeme a token of its own on a line.
* `Cursor.significant_onLine`: one line is one token.
* `tokenize_onLines`: all lines of a source.
-/

namespace ClassSyntax

/-- Each of these texts on a line of its own. -/
def onLines (texts : List String) : String := String.join (texts.map (· ++ "\n"))

/-- In front of a newline this is one token, of this category. -/
structure Relexes (kind : Kind) (word : List Char) : Prop where
  filled : word ≠ []
  oneLine : '\n' ∉ word
  shown : kind.isTrivia = false
  alone : ∀ rest, nextMatch (word ++ '\n' :: rest) = ⟨kind, word.length⟩

theorem one_add_ofNat (number : Nat) : 1 + UInt32.ofNat number = UInt32.ofNat (number + 1) := by
  rw [Nat.add_comm, UInt32.ofNat_add, UInt32.ofNat_one]

namespace Cursor

variable {kind : Kind} {word rest : List Char}

/-- The lexeme of a token is a token of its own on a line. -/
theorem relexes_piece {cursor : Cursor} (unread : cursor.rest ≠ [])
    (shown : cursor.piece.kind.isTrivia = false) :
    Relexes cursor.piece.kind cursor.piece.lexeme.toList := by
  have whole := cursor.piece_append_rest_next
  have filled : cursor.piece.lexeme.toList ≠ [] := by
    rw [Ne, String.toList_eq_nil_iff]
    exact piece_filled unread
  have measure : cursor.piece.lexeme.toList.length = (nextMatch cursor.rest).length := by
    rw [toList_piece, List.length_take, Nat.min_eq_left (nextMatch_length_le unread)]
  refine ⟨filled, piece_oneLine unread shown, shown, fun rest => ?_⟩
  have same := nextMatch_before_newline filled (by rw [whole, measure]) (by rwa [whole]) rest
  rw [same, whole, measure]
  rfl

/-- A line with one lexeme is one token. -/
theorem significant_onLine (relexes : Relexes kind word) (rest : List Char) (line : UInt32) :
    significant (Cursor.pieces ⟨word ++ '\n' :: rest, line⟩) =
      ⟨kind, String.ofList word, line⟩ :: significant (Cursor.pieces ⟨rest, line + 1⟩) := by
  rw [significant_of_shown (relexes.alone rest) relexes.filled relexes.shown relexes.oneLine,
    significant_newline]

/-- Lines with one lexeme each are one token each, numbered one after the other. -/
theorem significant_onLines {tokens : List Token}
    (each : ∀ token ∈ tokens, Relexes token.kind token.lexeme.toList) (line : UInt32) :
    significant (Cursor.pieces ⟨tokens.flatMap fun token => token.lexeme.toList ++ ['\n'], line⟩) =
      tokens.mapIdx fun index token => { token with line := line + UInt32.ofNat index } := by
  induction tokens generalizing line with
  | nil => rw [List.flatMap_nil, pieces_of_atEnd rfl]; rfl
  | cons token tokens ih =>
      obtain ⟨first, others⟩ := List.forall_mem_cons.mp each
      rw [List.flatMap_cons, List.append_assoc, List.singleton_append, significant_onLine first,
        ih others, List.mapIdx_cons, String.ofList_toList,
        show UInt32.ofNat 0 = 0 from rfl, UInt32.add_zero]
      simp only [UInt32.add_assoc, one_add_ofNat]

end Cursor

theorem newlines_onLines {tokens : List Token}
    (each : ∀ token ∈ tokens, Relexes token.kind token.lexeme.toList) :
    Text.newlines (tokens.flatMap fun token => token.lexeme.toList ++ ['\n']) = tokens.length := by
  induction tokens with
  | nil => rfl
  | cons token tokens ih =>
      obtain ⟨first, others⟩ := List.forall_mem_cons.mp each
      rw [List.flatMap_cons, Text.newlines_append, Text.newlines_append, ih others, Text.newlines,
        List.count_eq_zero_of_not_mem first.oneLine, List.length_cons, Nat.add_comm]
      rfl

theorem toList_onLines (tokens : List Token) :
    (onLines (tokens.map Token.lexeme)).toList =
      tokens.flatMap fun token => token.lexeme.toList ++ ['\n'] := by
  simp [onLines, String.toList_join, List.flatMap_map]

theorem relexes_of_mem_significant {source : String} {token : Token}
    (member : token ∈ significant (lexemes source)) : Relexes token.kind token.lexeme.toList := by
  obtain ⟨listed, shown⟩ := List.mem_filter.mp member
  rw [Bool.not_eq_true'] at shown
  exact Cursor.forall_mem_pieces
    (fun piece => piece.kind.isTrivia = false → Relexes piece.kind piece.lexeme.toList)
    (fun _ => Cursor.relexes_piece) _ token listed shown

/-- The lexemes of the tokens of a source, each on a line of its own, are read as these tokens again, the
first on the first line and so on, and the end of the input behind the last of them. -/
theorem tokenize_onLines (source : String) :
    ∃ tokens last, tokenize source = tokens ++ [Token.endOfInput last] ∧
      (∀ token ∈ tokens, token.isEnd = false) ∧
      tokenize (onLines (tokens.map Token.lexeme)) =
        (tokens.mapIdx fun index token => { token with line := UInt32.ofNat (index + 1) }) ++
          [Token.endOfInput (UInt32.ofNat (tokens.length + 1))] := by
  refine ⟨_, _, tokenize_eq source, fun token member => ?_, ?_⟩
  · exact Cursor.forall_mem_pieces (fun piece => piece.isEnd = false)
      (fun cursor _ => cursor.piece_unended) _ token (List.mem_filter.mp member).1
  have each : ∀ token ∈ significant (lexemes source), Relexes token.kind token.lexeme.toList :=
    fun _ => relexes_of_mem_significant
  rw [tokenize_eq, lexemes, Cursor.atStart, toList_onLines, Cursor.significant_onLines each,
    Cursor.lastLine, newlines_onLines each]
  simp only [one_add_ofNat]

end ClassSyntax

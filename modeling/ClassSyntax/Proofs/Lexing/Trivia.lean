import ClassSyntax.Proofs.Lexing.Context
import ClassSyntax.Proofs.Lexing.Ending

/-!
# What separates tokens

At a place of a source the lexer reads a token, or passes over a comment, a newline or whitespace. Blanks may
be passed over one by one.

* `nextMatch_lineComment`, `nextMatch_blockComment`: a comment is next where one starts.
* `nextMatch_isTrivia_iff`: where trivia are next.
* `Cursor.significant_of_shown`, `Cursor.significant_of_trivia`: one step of the lexer.
* `Cursor.significant_newline`, `Cursor.significant_blank`, `Cursor.significant_lineComment`,
  `Cursor.significant_blockComment`: what is passed over.
-/

namespace ClassSyntax

open Lexeme

/-! ## Comments -/

/-- A match is inside the text. -/
theorem nextMatch_length_le {text : List Char} (unread : text ≠ []) :
    (nextMatch text).length ≤ text.length := by
  obtain ⟨lexeme, same, after, whole, -⟩ := nextMatch_matches unread
  rw [← same, whole, List.length_append]
  exact Nat.le_add_right _ _

/-- The rest of a line, and what stands from its end on. -/
theorem exists_lineEnd (text : List Char) :
    ∃ line rest, text = line ++ rest ∧ '\n' ∉ line ∧ rest.head?.all (· == '\n') = true := by
  obtain ⟨rest, whole, stopped⟩ := exists_takeWhile (· != '\n') text
  refine ⟨_, rest, whole, notMem_takeWhile (by decide) _, ?_⟩
  cases rest with
  | nil => rfl
  | cons c rest => simpa using stopped

/-- A comment that starts with a hash goes on up to the end of its line. -/
theorem nextMatch_lineComment {line rest : List Char} (oneLine : '\n' ∉ line)
    (ended : rest.head?.all (· == '\n') = true) :
    nextMatch ('#' :: (line ++ rest)) = ⟨.lineComment, line.length + 1⟩ := by
  refine nextMatch_of_first (show patterns = [⟨.blockComment, blockComment⟩] ++
    ⟨.lineComment, lineComment⟩ :: _ from rfl) ?_ ?_ fun other behind length measured => ?_
  · simp [blockComment]
  · have taken : (line ++ rest).takeWhile (· != '\n') = line := by
      refine takeWhile_append_of_stop ?_ ?_
      · rintro c member
        rw [bne_iff_ne]
        rintro rfl
        exact oneLine member
      · cases rest with
        | nil => rfl
        | cons c rest => simpa using ended
    exact congrArg some ((Nat.add_comm 1 _).trans (congrArg (·.length + 1) taken))
  · have listed : other ∈ patterns := List.mem_cons_of_mem _ (List.mem_cons_of_mem _ behind)
    have noComment : ¬ ['/', '*'] <+: '#' :: line := by
      rintro ⟨_, same⟩
      exact absurd (List.cons.inj same).1 (by decide)
    cases rest with
    | nil =>
        obtain ⟨lexeme, rfl, after, whole, -⟩ := (patterns_measure other listed).found measured
        have total := congrArg List.length whole
        simp only [List.append_nil, List.length_cons, List.length_append] at total
        omega
    | cons c rest =>
        obtain rfl : c = '\n' := by simpa using ended
        have bound := length_le_of_newline noComment listed measured
        rwa [List.length_cons, Nat.max_eq_right (by omega)] at bound

/-- Where a block comment starts, other categories match one character at most. -/
theorem length_le_one_of_startMark {pattern : Pattern} (listed : pattern ∈ patterns)
    (other : pattern.kind ≠ .blockComment) {more : List Char} {length : Nat}
    (measured : pattern.scan ('/' :: '*' :: more) = some length) : length ≤ 1 := by
  obtain ⟨lexeme, rfl, after, whole, matched, -⟩ :=
    (patterns_measure pattern listed).found measured
  have unlike := Kind.not_startsComment other matched
  rcases lexeme with _ | ⟨c, _ | ⟨d, lexeme⟩⟩
  · exact Nat.zero_le 1
  · exact Nat.le_refl 1
  · obtain ⟨rfl, rfl, -⟩ : '/' = c ∧ '*' = d ∧ more = lexeme ++ after := by simpa using whole
    exact absurd ⟨lexeme, rfl⟩ unlike

theorem scan_blockComment_of_kind {pattern : Pattern} (listed : pattern ∈ patterns)
    (block : pattern.kind = .blockComment) : pattern.scan = blockComment := by
  rw [← (patterns_measure pattern listed).preferred, block, Regex.scan_blockComment]

/-- A block comment is next where one starts that is closed. -/
theorem nextMatch_blockComment {text : List Char} {length : Nat}
    (measured : blockComment text = some length) : nextMatch text = ⟨.blockComment, length⟩ := by
  refine nextMatch_of_first (show patterns = [] ++ ⟨.blockComment, blockComment⟩ :: _ from rfl)
    (by simp) measured fun other behind longer found => ?_
  have listed : other ∈ patterns := List.mem_cons_of_mem _ behind
  by_cases block : other.kind = .blockComment
  · rw [scan_blockComment_of_kind listed block, measured] at found
    exact Nat.le_of_eq (Option.some.inj found).symm
  · obtain ⟨inner, after, rfl, rfl, -⟩ := blockComment_eq_some.mp measured
    have one := length_le_one_of_startMark listed block found
    omega

theorem exists_blockCommentEnd {text : List Char} (closed : ['~', '*', '/'] <:+: text)
    (read : Nat) : ∃ length, blockCommentEnd read text = some length := by
  fun_induction blockCommentEnd read text with
  | case1 => exact ⟨_, rfl⟩
  | case2 read c text noMark ih =>
      rcases List.infix_cons_iff.mp closed with here | behind
      · obtain ⟨rest, same⟩ := here
        obtain ⟨rfl, rfl⟩ := List.cons.inj same
        exact absurd rfl (noMark rest rfl)
      · exact ih behind
  | case3 => exact absurd closed (by decide)

/-! ## Where trivia start -/

/-- Trivia stand at the start of this text. -/
inductive StartsTrivia : List Char → Prop where
  | blockComment {inner : List Char} (first : ¬ ['~', '*', '/'] <:+: inner ++ ['~', '*'])
      (after : List Char) :
      StartsTrivia ('/' :: '*' :: '~' :: (inner ++ '~' :: '*' :: '/' :: after))
  | lineComment (more : List Char) : StartsTrivia ('#' :: more)
  | newline (more : List Char) : StartsTrivia ('\n' :: more)
  | blank {c : Char} (blank : c = ' ' ∨ c = '\t' ∨ c = '\r') (more : List Char) :
      StartsTrivia (c :: more)

/-- What a category of trivia matches starts like this. -/
theorem startsTrivia_of_matches {kind : Kind} (trivia : kind.isTrivia = true)
    {text word : List Char} (matched : kind.Matches text word) : StartsTrivia text := by
  have ⟨after, whole, inside, _⟩ := matched
  subst whole
  cases kind with
  | blockComment =>
      obtain ⟨inner, after, same, -, first⟩ := matches_blockComment.mp matched
      exact same ▸ .blockComment first after
  | lineComment =>
      obtain ⟨c, more, rfl, mark, -⟩ := Regex.matches_seq_char.mp inside
      obtain rfl : c = '#' := by simpa using mark
      exact .lineComment _
  | newline =>
      obtain ⟨c, mark, rfl⟩ := Regex.matches_char.mp inside
      obtain rfl : c = '\n' := by simpa using mark
      exact .newline _
  | whitespace =>
      obtain ⟨c, more, rfl, mark, -⟩ := Regex.matches_seq_char.mp inside
      exact .blank (by simpa using mark) _
  | _ => exact Bool.noConfusion trivia

theorem isTrivia_of_startsTrivia {text : List Char} (starts : StartsTrivia text) :
    (nextMatch text).kind.isTrivia = true := by
  cases starts with
  | blockComment first after =>
      rw [nextMatch_blockComment (blockComment_eq_some.mpr ⟨_, after, rfl, rfl, first⟩)]
      rfl
  | lineComment more =>
      obtain ⟨line, rest, rfl, oneLine, ended⟩ := exists_lineEnd more
      rw [nextMatch_lineComment oneLine ended]
      rfl
  | newline more => rw [nextMatch_newline]; rfl
  | blank blank more => rw [nextMatch_of_blank blank]; rfl

/-- Trivia are next exactly where they start. -/
theorem nextMatch_isTrivia_iff {text : List Char} (unread : text ≠ []) :
    (nextMatch text).kind.isTrivia = true ↔ StartsTrivia text := by
  refine ⟨fun trivia => ?_, isTrivia_of_startsTrivia⟩
  obtain ⟨lexeme, -, matched⟩ := nextMatch_matches unread
  exact startsTrivia_of_matches trivia matched

/-! ## One step of the lexer -/

namespace Cursor

variable {kind : Kind} {word rest : List Char}

theorem next_eq {cursor : Cursor} {found : Match} (matched : nextMatch cursor.rest = found) :
    cursor.next = ⟨cursor.rest.drop found.length,
      cursor.line + UInt32.ofNat (Text.newlines (cursor.rest.take found.length))⟩ := by
  rw [next, matched, ← rest_pass]
  rfl

theorem piece_eq {cursor : Cursor} {found : Match} (matched : nextMatch cursor.rest = found) :
    cursor.piece = ⟨found.kind, String.ofList (cursor.rest.take found.length), cursor.line⟩ := by
  rw [piece, matched]
  rfl

/-- The lexer reads the lexeme of a token. -/
theorem significant_of_shown (matched : nextMatch (word ++ rest) = ⟨kind, word.length⟩)
    (filled : word ≠ []) (shown : kind.isTrivia = false) (oneLine : '\n' ∉ word) (line : UInt32) :
    significant (pieces ⟨word ++ rest, line⟩) =
      ⟨kind, String.ofList word, line⟩ :: significant (pieces ⟨rest, line⟩) := by
  let here : Cursor := ⟨word ++ rest, line⟩
  have matched : nextMatch here.rest = ⟨kind, word.length⟩ := matched
  have unread : here.rest ≠ [] := List.append_ne_nil_of_left_ne_nil filled _
  have piece : here.piece = ⟨kind, String.ofList word, line⟩ := by
    rw [piece_eq matched]
    exact congrArg (Token.mk kind · line) (congrArg String.ofList List.take_left)
  have next : here.next = ⟨rest, line⟩ := by
    rw [next_eq matched, List.drop_left, List.take_left, Text.newlines,
      List.count_eq_zero_of_not_mem oneLine]
    exact congrArg (Cursor.mk _) (UInt32.add_zero line)
  rw [significant_pieces_of_shown unread (by rw [piece]; exact shown), piece, next]

/-- The lexer passes over what is no token. -/
theorem significant_of_trivia (matched : nextMatch (word ++ rest) = ⟨kind, word.length⟩)
    (filled : word ≠ []) (trivia : kind.isTrivia = true) (line : UInt32) :
    significant (pieces ⟨word ++ rest, line⟩) =
      significant (pieces ⟨rest, line + UInt32.ofNat (Text.newlines word)⟩) := by
  let here : Cursor := ⟨word ++ rest, line⟩
  have matched : nextMatch here.rest = ⟨kind, word.length⟩ := matched
  have unread : here.rest ≠ [] := List.append_ne_nil_of_left_ne_nil filled _
  have next : here.next = ⟨rest, line + UInt32.ofNat (Text.newlines word)⟩ := by
    rw [next_eq matched, List.drop_left, List.take_left]
  rw [significant_pieces_of_trivia unread (by rw [piece_eq matched]; exact trivia), next]

/-! ## What is passed over -/

/-- The same on the same line. -/
theorem significant_of_trivia_oneLine (matched : nextMatch (word ++ rest) = ⟨kind, word.length⟩)
    (filled : word ≠ []) (trivia : kind.isTrivia = true) (oneLine : '\n' ∉ word) (line : UInt32) :
    significant (pieces ⟨word ++ rest, line⟩) = significant (pieces ⟨rest, line⟩) := by
  rw [significant_of_trivia matched filled trivia, Text.newlines,
    List.count_eq_zero_of_not_mem oneLine]
  exact congrArg (fun line => significant (pieces ⟨rest, line⟩)) (UInt32.add_zero line)

theorem significant_newline (text : List Char) (line : UInt32) :
    significant (pieces ⟨'\n' :: text, line⟩) = significant (pieces ⟨text, line + 1⟩) := by
  have matched : nextMatch (['\n'] ++ text) = ⟨.newline, ['\n'].length⟩ := nextMatch_newline text
  exact significant_of_trivia matched (List.cons_ne_nil _ _) rfl line

theorem significant_lineComment {comment rest : List Char} (oneLine : '\n' ∉ comment)
    (ended : rest.head?.all (· == '\n') = true) (line : UInt32) :
    significant (pieces ⟨'#' :: (comment ++ rest), line⟩) = significant (pieces ⟨rest, line⟩) :=
  significant_of_trivia_oneLine (nextMatch_lineComment oneLine ended) (List.cons_ne_nil _ _) rfl
    (by simpa using oneLine) line

theorem significant_blockComment {inner : List Char}
    (first : ¬ ['~', '*', '/'] <:+: inner ++ ['~', '*']) (after : List Char) (line : UInt32) :
    significant (pieces ⟨'/' :: '*' :: '~' :: (inner ++ '~' :: '*' :: '/' :: after), line⟩) =
      significant (pieces ⟨after, line + UInt32.ofNat (Text.newlines inner)⟩) := by
  let comment : List Char := '/' :: '*' :: '~' :: (inner ++ ['~', '*', '/'])
  have whole : '/' :: '*' :: '~' :: (inner ++ '~' :: '*' :: '/' :: after) = comment ++ after := by
    simp [comment]
  have newlines : Text.newlines comment = Text.newlines inner := by
    simp [comment, Text.newlines]
  have matched : nextMatch (comment ++ after) = ⟨.blockComment, comment.length⟩ := by
    rw [length_blockComment]
    exact nextMatch_blockComment (blockComment_eq_some.mpr ⟨inner, after, whole.symm, rfl, first⟩)
  rw [whole, significant_of_trivia matched (List.cons_ne_nil _ _) rfl, newlines]

/-- Whitespace is passed over as a whole. -/
theorem significant_whitespace {c : Char} (blank : c = ' ' ∨ c = '\t' ∨ c = '\r')
    {blanks after : List Char}
    (taken : (blanks ++ after).takeWhile [' ', '\t', '\r'].contains = blanks) (line : UInt32) :
    significant (pieces ⟨c :: (blanks ++ after), line⟩) = significant (pieces ⟨after, line⟩) := by
  have matched := nextMatch_of_blank blank (blanks ++ after)
  rw [taken] at matched
  have inside : '\n' ∉ blanks := taken ▸ notMem_takeWhile (by decide) _
  have other : '\n' ≠ c := by rcases blank with rfl | rfl | rfl <;> decide
  exact significant_of_trivia_oneLine matched (List.cons_ne_nil _ _) rfl
    (by simp [inside, other]) line

/-- It comes to the same to pass over blanks one by one. -/
theorem significant_blank {c : Char} (blank : c = ' ' ∨ c = '\t' ∨ c = '\r') (text : List Char)
    (line : UInt32) :
    significant (pieces ⟨c :: text, line⟩) = significant (pieces ⟨text, line⟩) := by
  obtain ⟨after, whole, -⟩ := exists_takeWhile [' ', '\t', '\r'].contains text
  generalize taken : text.takeWhile [' ', '\t', '\r'].contains = blanks at whole
  subst whole
  rw [significant_whitespace blank taken]
  cases blanks with
  | nil => rfl
  | cons d blanks =>
      have inside : [' ', '\t', '\r'].contains d = true :=
        List.mem_takeWhile_imp (taken.symm ▸ List.mem_cons_self)
      rw [List.cons_append, List.takeWhile_cons_of_pos inside] at taken
      exact (significant_whitespace (by simpa using inside) (List.cons.inj taken).2 line).symm

end Cursor

end ClassSyntax

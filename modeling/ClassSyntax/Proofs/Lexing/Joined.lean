import ClassSyntax.Proofs.Lexing.Relexing

/-!
# Texts read one after the other

A source that ends with a newline, and leaves no block comment open, is read like any source that starts with
it: its tokens come first, and those of the rest follow on later lines. Only block comments go on over a
newline, and where one ends is not up to what follows it.

* `nextMatch_append`: the next lexeme of a text is that of a longer one.
* `Cursor.pieces_append`: the lexemes of two texts, one after the other.
* `tokenize_append`: the tokens of two sources, one after the other.
-/

namespace ClassSyntax

open Lexeme

/-! ## One lexeme -/

/-- A block comment that starts this text ends in it. -/
def ClosesComment (text : List Char) : Prop :=
  ['/', '*', '~'] <+: text → ['~', '*', '/'] <:+: text.drop 3

instance (text : List Char) : Decidable (ClosesComment text) :=
  inferInstanceAs (Decidable (_ → _))

theorem blockCommentEnd_append {read length : Nat} {text : List Char}
    (found : blockCommentEnd read text = some length) (more : List Char) :
    blockCommentEnd read (text ++ more) = some length := by
  obtain ⟨inner, after, rfl, measure, first⟩ := blockCommentEnd_eq_some.mp found
  exact blockCommentEnd_eq_some.mpr ⟨inner, after ++ more, by simp, measure, first⟩

/-- A text on several lines that starts like a longer one starts with its whole start mark. -/
theorem startMark_of_append {text more inside : List Char} (ended : text.getLast? = some '\n')
    (starts : text ++ more = '/' :: '*' :: '~' :: inside) :
    ∃ front, text = '/' :: '*' :: '~' :: front := by
  rcases text with _ | ⟨c, _ | ⟨d, _ | ⟨e, front⟩⟩⟩
  · exact nomatch ended
  · obtain rfl : c = '\n' := by simpa using ended
    exact absurd (List.cons.inj starts).1 (by decide)
  · obtain rfl : d = '\n' := by simpa using ended
    exact absurd (List.cons.inj (List.cons.inj starts).2).1 (by decide)
  · obtain ⟨rfl, rfl, rfl, -⟩ : c = '/' ∧ d = '*' ∧ e = '~' ∧ front ++ more = inside := by
      simpa using starts
    exact ⟨front, rfl⟩

section

variable {text : List Char}

theorem ne_nil_of_ended (ended : text.getLast? = some '\n') : text ≠ [] := by
  rintro rfl
  exact nomatch ended

/-- No word goes on over the end of the text. -/
theorem atWordEnd_of_ended {word after : List Char} (ended : (word ++ after).getLast? = some '\n')
    (inWord : endsInWord word = true) (more : List Char) :
    atWordEnd after = atWordEnd (after ++ more) := by
  cases after with
  | cons => rfl
  | nil =>
      rw [List.append_nil, List.getLast?_eq_some_iff] at ended
      obtain ⟨front, rfl⟩ := ended
      rw [endsInWord_append front (List.cons_ne_nil _ _)] at inWord
      exact absurd inWord (by decide)

/-- Where a block comment that is closed ends is not up to what follows the text. -/
theorem blockComment_append (ended : text.getLast? = some '\n') (closed : ClosesComment text)
    {more : List Char} {length : Nat} (measured : blockComment (text ++ more) = some length) :
    blockComment text = some length := by
  obtain ⟨inner, after, starts, -, -⟩ := blockComment_eq_some.mp measured
  obtain ⟨front, rfl⟩ := startMark_of_append ended starts
  have inside : ['~', '*', '/'] <:+: front := closed ⟨front, rfl⟩
  obtain ⟨here, found⟩ := exists_blockCommentEnd inside 3
  have same : blockCommentEnd 3 (front ++ more) = some length := measured
  rw [blockCommentEnd_append found more] at same
  exact found.trans same

/-- No lexeme gets longer by what follows the text. -/
theorem length_le_of_append (ended : text.getLast? = some '\n') (closed : ClosesComment text)
    {more : List Char} {pattern : Pattern} (listed : pattern ∈ patterns) {length : Nat}
    (measured : pattern.scan (text ++ more) = some length) :
    length ≤ (nextMatch text).length := by
  have unread := ne_nil_of_ended ended
  by_cases block : pattern.kind = .blockComment
  · obtain ⟨-, -, -, -, -, -, -, longest⟩ := nextMatch_scans unread
    refine longest pattern listed length ?_
    rw [scan_blockComment_of_kind listed block] at measured ⊢
    exact blockComment_append ended closed measured
  obtain ⟨lexeme, rfl, matched⟩ := (patterns_measure pattern listed).found measured
  have ⟨rest, whole, one, _⟩ := matched
  by_cases newline : pattern.kind = .newline
  · rw [newline] at one
    obtain ⟨_, -, rfl⟩ := Regex.matches_char.mp one
    exact nextMatch_pos text
  -- a lexeme on one line ends before the newline at the end of the text
  have oneLine := patterns_oneLine pattern listed block newline _ _ measured
  rw [whole, List.take_left] at oneLine
  rcases List.append_eq_append_iff.mp whole with ⟨inside, rfl, -⟩ | ⟨after, rfl, rfl⟩
  · exact absurd (List.mem_append_left _ (List.mem_of_getLast? ended)) oneLine
  · have filled : lexeme ≠ [] :=
      List.length_pos_iff.mp (patterns_positive pattern listed _ _ measured)
    rw [List.append_assoc] at matched
    exact length_le_nextMatch listed filled matched fun inWord =>
      (atWordEnd_of_ended ended inWord more).symm

/-- The next lexeme of a text that ends with a newline is not up to what follows the text. -/
theorem nextMatch_append (ended : text.getLast? = some '\n') (closed : ClosesComment text)
    (more : List Char) : nextMatch (text ++ more) = nextMatch text := by
  have unread := ne_nil_of_ended ended
  obtain ⟨lexeme, measure, ⟨after, whole, -⟩⟩ := nextMatch_matches unread
  have filled : lexeme ≠ [] := List.length_pos_iff.mp (measure ▸ nextMatch_pos text)
  subst whole
  rw [List.append_assoc]
  refine nextMatch_elsewhere filled measure.symm (fun inWord => ?_)
    fun pattern listed length found => ?_
  · exact atWordEnd_of_ended ended inWord more
  · rw [← List.append_assoc] at found
    exact measure ▸ length_le_of_append ended closed listed found

end

/-! ## All lexemes -/

/-- The same token so many lines further down. -/
def Token.lower (lines : UInt32) (token : Token) : Token :=
  { token with line := token.line + lines }

theorem add_right_comm_lines (line lines more : UInt32) : line + lines + more = line + more + lines := by
  rw [UInt32.add_assoc, UInt32.add_comm lines, UInt32.add_assoc]

theorem significant_append (first second : List Token) :
    significant (first ++ second) = significant first ++ significant second :=
  List.filter_append first second

theorem significant_lower (lines : UInt32) (tokens : List Token) :
    significant (tokens.map (Token.lower lines)) = (significant tokens).map (Token.lower lines) :=
  List.filter_map

namespace Cursor

/-- The places at which the lexer stands from here on. -/
def places (cursor : Cursor) : List Cursor :=
  if _ : cursor.rest = [] then [] else cursor :: cursor.next.places
termination_by cursor.rest.length
decreasing_by exact length_pass_lt ‹_› (nextMatch_pos _)

/-- No block comment that the lexer comes to is left open. -/
def ClosesComments (cursor : Cursor) : Prop := ∀ place ∈ cursor.places, ClosesComment place.rest

instance (cursor : Cursor) : Decidable cursor.ClosesComments :=
  inferInstanceAs (Decidable (∀ place ∈ cursor.places, ClosesComment place.rest))

theorem closesComments_of_unread {cursor : Cursor} (unread : cursor.rest ≠ []) :
    cursor.ClosesComments ↔ ClosesComment cursor.rest ∧ cursor.next.ClosesComments := by
  rw [ClosesComments, places, dif_neg unread, List.forall_mem_cons]
  rfl

/-- The same place, with other lines in front of the source. -/
def lower (lines : UInt32) (cursor : Cursor) : Cursor := ⟨cursor.rest, cursor.line + lines⟩

theorem lower_next (lines : UInt32) (cursor : Cursor) :
    (cursor.lower lines).next = cursor.next.lower lines := by
  rw [next_eq rfl, next_eq rfl]
  exact congrArg (Cursor.mk _) (add_right_comm_lines _ _ _)

theorem pieces_lower (lines : UInt32) (cursor : Cursor) :
    (cursor.lower lines).pieces = cursor.pieces.map (Token.lower lines) := by
  fun_induction pieces cursor with
  | case1 cursor ended => exact pieces_of_atEnd ended
  | case2 cursor unread ih =>
      have lowered : (cursor.lower lines).rest ≠ [] := unread
      rw [pieces_of_unread lowered, lower_next, ih]
      rfl

/-- The same place, with more text behind the source. -/
def extend (more : List Char) (cursor : Cursor) : Cursor := ⟨cursor.rest ++ more, cursor.line⟩

section

variable {cursor : Cursor}

/-- What the lexer does at a place is not up to what follows. -/
theorem step_extend (ended : cursor.rest.getLast? = some '\n')
    (closed : ClosesComment cursor.rest) (more : List Char) :
    (cursor.extend more).piece = cursor.piece ∧
      (cursor.extend more).next = cursor.next.extend more := by
  have inside := nextMatch_length_le (ne_nil_of_ended ended)
  have same : nextMatch (cursor.extend more).rest = nextMatch cursor.rest :=
    nextMatch_append ended closed more
  have taken : (cursor.extend more).rest.take (nextMatch cursor.rest).length =
      cursor.rest.take (nextMatch cursor.rest).length := List.take_append_of_le_length inside
  have left : (cursor.extend more).rest.drop (nextMatch cursor.rest).length =
      cursor.rest.drop (nextMatch cursor.rest).length ++ more :=
    List.drop_append_of_le_length inside
  rw [piece_eq same, next_eq same, taken, left, next_eq rfl]
  exact ⟨rfl, rfl⟩

theorem ended_next (ended : cursor.rest.getLast? = some '\n') :
    cursor.next.rest = [] ∨ cursor.next.rest.getLast? = some '\n' := by
  rw [or_iff_not_imp_left]
  intro unread
  rw [← piece_append_rest_next, List.getLast?_append_of_ne_nil _ unread] at ended
  exact ended

/-- The lexemes of a text that ends with a newline come first, and then those of what follows it. -/
theorem pieces_extend (ended : cursor.rest = [] ∨ cursor.rest.getLast? = some '\n')
    (closed : cursor.ClosesComments) (more : List Char) :
    (cursor.extend more).pieces = cursor.pieces ++ pieces ⟨more, cursor.lastLine⟩ := by
  fun_induction pieces cursor with
  | case1 cursor atEnd =>
      rw [extend, atEnd, lastLine, atEnd, List.nil_append, List.nil_append]
      exact congrArg (fun line => pieces ⟨more, line⟩) (UInt32.add_zero _).symm
  | case2 cursor unread ih =>
      have newline := ended.resolve_left unread
      obtain ⟨here, later⟩ := (closesComments_of_unread unread).mp closed
      obtain ⟨piece, next⟩ := step_extend newline here more
      have extended : (cursor.extend more).rest ≠ [] :=
        List.append_ne_nil_of_left_ne_nil unread more
      rw [pieces_of_unread extended, piece, next,
        ih (ended_next newline) later, lastLine_next, List.cons_append]

end

end Cursor

/-- How many lines a source ends before what follows it. -/
def linesOf (source : String) : UInt32 := UInt32.ofNat (Text.newlines source.toList)

theorem lexemes_append {first second : String}
    (ended : first = "" ∨ first.toList.getLast? = some '\n')
    (closed : (Cursor.atStart first).ClosesComments) :
    lexemes (first ++ second) =
      lexemes first ++ (lexemes second).map (Token.lower (linesOf first)) := by
  have joined : Cursor.atStart (first ++ second) =
      (Cursor.atStart first).extend second.toList := by
    rw [Cursor.atStart, String.toList_append]
    rfl
  rw [lexemes, joined, Cursor.pieces_extend (ended.imp_left String.toList_eq_nil_iff.mpr) closed,
    lexemes, lexemes, ← Cursor.pieces_lower]
  rfl

theorem lastLine_append (first second : String) :
    (Cursor.atStart (first ++ second)).lastLine =
      (Cursor.atStart second).lastLine + linesOf first := by
  simp only [Cursor.lastLine, Cursor.atStart, String.toList_append, Text.newlines_append, linesOf,
    UInt32.ofNat_add]
  rw [← UInt32.add_assoc, add_right_comm_lines]

/-- Where a source ends with a newline and leaves no block comment open, what follows it is read as a source
of its own, so many lines further down. -/
theorem tokenize_append {first second : String}
    (ended : first = "" ∨ first.toList.getLast? = some '\n')
    (closed : (Cursor.atStart first).ClosesComments) :
    ∃ tokens last, tokenize first = tokens ++ [Token.endOfInput last] ∧
      tokenize (first ++ second) =
        tokens ++ (tokenize second).map (Token.lower (linesOf first)) := by
  refine ⟨_, _, tokenize_eq first, ?_⟩
  rw [tokenize_eq, tokenize_eq, lexemes_append ended closed, significant_append,
    significant_lower, lastLine_append, List.map_append, List.append_assoc]
  rfl

/-- A string that a backslash and the end of the line leave open, and a start mark in another comment. -/
theorem openString_joined :
    (Cursor.atStart "\"\\\n#/*~\n").ClosesComments ∧
      tokenize ("\"\\\n#/*~\n" ++ "*/") =
        [⟨.invalid, "\"", 1⟩, ⟨.invalid, "\\", 1⟩, ⟨.operator, "*", 3⟩, ⟨.operator, "/", 3⟩,
          Token.endOfInput 3] := by
  have closed : (Cursor.atStart "\"\\\n#/*~\n").ClosesComments := by decide +kernel
  obtain ⟨tokens, last, alone, joined⟩ :=
    @tokenize_append "\"\\\n#/*~\n" "*/" (.inr (by decide)) closed
  have first : tokenize "\"\\\n#/*~\n" =
      [⟨.invalid, "\"", 1⟩, ⟨.invalid, "\\", 1⟩] ++ [Token.endOfInput 3] := by decide +kernel
  have second : tokenize "*/" =
      [⟨.operator, "*", 1⟩, ⟨.operator, "/", 1⟩, Token.endOfInput 1] := by decide +kernel
  obtain ⟨rfl, -⟩ := List.append_inj' (alone.symm.trans first) rfl
  refine ⟨closed, joined.trans ?_⟩
  rw [second]
  decide

end ClassSyntax

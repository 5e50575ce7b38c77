import ClassSyntax.Proofs.Lexing.Partition
import ClassSyntax.Proofs.Records.OneRecord

/-!
# Token records are read back

A token list is read back from its records exactly when it is well formed, and both the lexer and the
reader of records give only well-formed lists.

* `Text.linesFrom_flatMap`: the lines of a text that is written line by line.
* `Record.foldl_next_render`: written records are read one after the other.
* `Record.foldl_next_sound`: whatever is read, the tokens read so far can be written.
* `Record.round_trip`: the four facts together.
-/

namespace ClassSyntax

namespace Text

theorem dropReturn_of_ne {line : List Char} (other : line.head? ≠ some '\r') :
    dropReturn line = line := by
  unfold dropReturn
  split
  · exact absurd rfl other
  · rfl

theorem linesFrom_append {line : List Char} (oneLine : '\n' ∉ line) (current : List Char)
    (done : List (List Char)) (text : List Char) :
    linesFrom current done (line ++ text) = linesFrom (line.reverse ++ current) done text := by
  induction line generalizing current with
  | nil => rfl
  | cons c line ih =>
      rw [List.mem_cons, not_or] at oneLine
      rw [List.cons_append, linesFrom, if_neg (Ne.symm oneLine.1), ih oneLine.2,
        List.reverse_cons, List.append_assoc, List.singleton_append]

/-- A line with its end, when it has no newline and ends in something visible. -/
def Plain (line : List Char) : Prop := '\n' ∉ line ∧ line.getLast? ≠ some '\r'

/-- The lines of a text that is written line by line. -/
theorem linesFrom_flatMap {written : List (List Char)} (plain : ∀ line ∈ written, Plain line)
    (done : List (List Char)) :
    linesFrom [] done (written.flatMap (· ++ ['\n'])) = done.reverse ++ written := by
  induction written generalizing done with
  | nil => simp [linesFrom]
  | cons line written ih =>
      obtain ⟨⟨oneLine, visible⟩, others⟩ := List.forall_mem_cons.mp plain
      rw [List.flatMap_cons, List.append_assoc, linesFrom_append oneLine, List.append_nil,
        List.singleton_append, linesFrom, if_pos rfl,
        dropReturn_of_ne (by rwa [List.head?_reverse]), List.reverse_reverse, ih others,
        List.reverse_cons, List.append_assoc, List.singleton_append]

/-- A line never holds a newline. -/
theorem oneLine_of_mem_linesFrom (text : List Char) {current : List Char}
    {done : List (List Char)}
    (before : '\n' ∉ current) (earlier : ∀ line ∈ done, '\n' ∉ line) :
    ∀ line ∈ linesFrom current done text, '\n' ∉ line := by
  fun_induction linesFrom current done text with
  | case1 current done =>
      intro line member
      rw [List.mem_reverse] at member
      split at member
      · exact earlier line member
      · rcases List.mem_cons.mp member with rfl | inDone
        · rwa [List.mem_reverse]
        · exact earlier line inDone
  | case2 current done text ih =>
      refine ih (by simp) (List.forall_mem_cons.mpr ⟨?_, earlier⟩)
      rw [List.mem_reverse]
      unfold dropReturn
      split
      · exact fun member => before (List.mem_cons_of_mem _ member)
      · exact before
  | case3 current done c text other ih =>
      exact ih (by simpa [Ne.symm other] using before) earlier

theorem oneLine_of_mem_lines (text : List Char) : ∀ line ∈ lines text, '\n' ∉ line :=
  oneLine_of_mem_linesFrom text (by simp) (by simp)

end Text

namespace Record

/-! ## Well-formed lists -/

/-- Tokens that can be written, none of them the end of the input. -/
def Unclosed (tokens : List Token) : Prop :=
  ∀ token ∈ tokens, token.Writable ∧ token.isEnd = false

/-- Tokens that can be written, of which the last and no other is the end of the input. -/
def WellFormed (tokens : List Token) : Prop :=
  ∃ body last, tokens = body ++ [last] ∧ Unclosed body ∧ last.Writable ∧ last.isEnd = true

theorem writable_endOfInput (line : UInt32) : (Token.endOfInput line).Writable :=
  ⟨rfl, show "EOF" ≠ "" by decide, show '\n' ∉ "EOF".toList by decide⟩

theorem Unclosed.concat_endOfInput {tokens : List Token} (unclosed : Unclosed tokens)
    (line : UInt32) : WellFormed (tokens ++ [Token.endOfInput line]) :=
  ⟨tokens, _, rfl, unclosed, writable_endOfInput line, rfl⟩

theorem WellFormed.writable {tokens : List Token} (wellFormed : WellFormed tokens) :
    ∀ token ∈ tokens, token.Writable := by
  obtain ⟨body, last, rfl, unclosed, writable, -⟩ := wellFormed
  intro token member
  rcases List.mem_append.mp member with inBody | isLast
  · exact (unclosed token inBody).1
  · exact List.mem_singleton.mp isLast ▸ writable

theorem close_of_wellFormed {tokens : List Token} (wellFormed : WellFormed tokens) :
    close tokens = tokens := by
  obtain ⟨body, last, rfl, -, -, ended⟩ := wellFormed
  rw [close, isClosed, List.getLast?_concat, if_pos ended]

theorem close_of_unclosed {tokens : List Token} (unclosed : Unclosed tokens) :
    close tokens = tokens ++ [Token.endOfInput (lastLine tokens)] := by
  rw [close, if_neg]
  rw [isClosed, Bool.not_eq_true]
  split
  · rename_i token last
    exact (unclosed token (List.mem_of_getLast? last)).2
  · rfl

/-! ## Reading what was written -/

theorem getLast?_render (token : Token) : token.render.toList.getLast? = some '>' := by
  rw [toList_render, ← List.cons_append]
  exact List.getLast?_concat

theorem plain_render {token : Token} (writable : token.Writable) :
    Text.Plain token.render.toList := by
  refine ⟨?_, by simp [getLast?_render]⟩
  have number : '\n' ∉ Nat.toDigits 10 token.line.toNat := toDigits_plain (by decide)
  have name := (spelling_plain token.kind).2
  rw [toList_render]
  simp [number, name, writable.oneLine]

theorem trim_render (token : Token) : Text.trim token.render.toList = token.render.toList := by
  refine Text.trim_eq_self ?_ ?_
  · rintro c first
    obtain rfl : '<' = c := by simpa [toList_render] using first
    decide
  · rintro c last
    obtain rfl : '>' = c := by simpa [getLast?_render] using last
    decide

/-- The reader takes a written record for its token. -/
theorem next_render {progress : Progress} (unended : progress.ended = false) {token : Token}
    (writable : token.Writable) :
    progress.next token.render.toList =
      ⟨token :: progress.tokens, progress.skipped, progress.line + 1, token.isEnd⟩ := by
  have filled : token.render.toList.isEmpty = false := by rw [toList_render]; rfl
  simp only [Progress.next, trim_render, filled, unended, read?_render writable,
    Bool.false_eq_true, if_false]

/-- The reader takes the written records of tokens before the end of the input for these tokens. -/
theorem foldl_next_render {tokens : List Token} (unclosed : Unclosed tokens)
    (progress : Progress) (unended : progress.ended = false) :
    ∃ line, (tokens.map fun token => token.render.toList).foldl Progress.next progress =
      ⟨tokens.reverse ++ progress.tokens, progress.skipped, line, false⟩ := by
  induction tokens generalizing progress with
  | nil => exact ⟨progress.line, by rw [← unended]; rfl⟩
  | cons token tokens ih =>
      obtain ⟨⟨writable, other⟩, others⟩ := List.forall_mem_cons.mp unclosed
      rw [List.map_cons, List.foldl_cons, next_render unended writable]
      obtain ⟨line, rest⟩ := ih others
        ⟨token :: progress.tokens, progress.skipped, progress.line + 1, token.isEnd⟩
        other
      exact ⟨line, by rw [rest, List.reverse_cons, List.append_assoc]; rfl⟩

theorem lines_writeAll {tokens : List Token} (writable : ∀ token ∈ close tokens, token.Writable) :
    Text.lines (writeAll tokens).toList =
      (close tokens).map fun token => token.render.toList := by
  have written : (writeAll tokens).toList =
      ((close tokens).map fun token => token.render.toList).flatMap (· ++ ['\n']) := by
    rw [writeAll, String.toList_join, List.flatMap_map, List.flatMap_map]
    simp
  have plain : ∀ line ∈ (close tokens).map fun token => token.render.toList,
      Text.Plain line := by
    intro line member
    obtain ⟨token, listed, rfl⟩ := List.mem_map.mp member
    exact plain_render (writable token listed)
  rw [written, Text.lines, Text.linesFrom_flatMap plain, List.reverse_nil, List.nil_append]

theorem readAll_writeAll {tokens : List Token} (wellFormed : WellFormed (close tokens)) :
    readAll (writeAll tokens) = ⟨close tokens, []⟩ := by
  have lines := lines_writeAll wellFormed.writable
  have closed := close_of_wellFormed wellFormed
  obtain ⟨body, last, same, unclosed, writable, ended⟩ := wellFormed
  obtain ⟨line, read⟩ := foldl_next_render unclosed Progress.start rfl
  rw [same] at closed
  simp only [readAll, lines, same, List.map_append, List.map_cons, List.map_nil,
    List.foldl_append, List.foldl_cons, List.foldl_nil, read]
  rw [next_render rfl writable]
  simp only [Progress.start, List.append_nil, List.reverse_cons, List.reverse_reverse,
    List.reverse_nil, closed]

/-! ## Reading anything -/

/-- The tokens read so far can be written, and after the end of the input there are no others. -/
def Progress.Sound (progress : Progress) : Prop :=
  if progress.ended then WellFormed progress.tokens.reverse
  else Unclosed progress.tokens.reverse

theorem Progress.sound_start : Progress.start.Sound := fun _ => nofun

theorem next_sound {progress : Progress} (sound : progress.Sound) {text : List Char}
    (oneLine : '\n' ∉ text) : (progress.next text).Sound := by
  unfold Progress.next
  simp only
  split
  · exact sound
  · split
    · exact sound
    · rename_i unended
      rw [Progress.Sound, if_neg unended] at sound
      split
      · rename_i token read
        have writable := writable_of_read? (fun member => oneLine (Text.mem_of_mem_trim member)) read
        unfold Progress.Sound
        simp only [List.reverse_cons]
        split
        · rename_i ended
          exact ⟨_, token, rfl, sound, writable, ended⟩
        · rename_i other
          rw [Bool.not_eq_true] at other
          intro some member
          rcases List.mem_append.mp member with before | isLast
          · exact sound some before
          · exact List.mem_singleton.mp isLast ▸ ⟨writable, other⟩
      · rw [Progress.Sound, Progress.skip, if_neg unended]
        exact sound

theorem foldl_next_sound {texts : List (List Char)} (oneLine : ∀ text ∈ texts, '\n' ∉ text)
    {progress : Progress} (sound : progress.Sound) :
    (texts.foldl Progress.next progress).Sound := by
  induction texts generalizing progress with
  | nil => exact sound
  | cons text texts ih =>
      obtain ⟨here, later⟩ := List.forall_mem_cons.mp oneLine
      exact ih later (next_sound sound here)

theorem wellFormed_readAll (text : String) : WellFormed (readAll text).tokens := by
  have sound : ((Text.lines text.toList).foldl Progress.next Progress.start).Sound :=
    foldl_next_sound (Text.oneLine_of_mem_lines text.toList) Progress.sound_start
  simp only [readAll]
  unfold Progress.Sound at sound
  split at sound
  · rwa [close_of_wellFormed sound]
  · rw [close_of_unclosed sound]
    exact sound.concat_endOfInput _

theorem wellFormed_tokenize (source : String) : WellFormed (tokenize source) := by
  rw [tokenize_eq]
  refine Unclosed.concat_endOfInput ?_ _
  intro token member
  obtain ⟨listed, shown⟩ := List.mem_filter.mp member
  rw [Bool.not_eq_true'] at shown
  have each := Cursor.forall_mem_pieces
    (fun piece => piece.lexeme ≠ "" ∧ piece.isEnd = false ∧
      (piece.kind.isTrivia = false → '\n' ∉ piece.lexeme.toList))
    (fun cursor unread =>
      ⟨Cursor.piece_filled unread, cursor.piece_unended, Cursor.piece_oneLine unread⟩)
    _ token listed
  exact ⟨⟨shown, each.1, each.2.2 shown⟩, each.2.1⟩

/-! ## The round trip -/

/-- Exactly the well-formed lists are read back as they were written. A list that lacks only the end
of the input gets one, on its last line. What was read, as records or as a source, is well formed and
is read back again. -/
theorem round_trip :
    (∀ tokens, readAll (writeAll tokens) = ⟨tokens, []⟩ ↔ WellFormed tokens) ∧
      (∀ tokens, Unclosed tokens → readAll (writeAll tokens) =
        ⟨tokens ++ [Token.endOfInput (lastLine tokens)], []⟩) ∧
      (∀ text, WellFormed (readAll text).tokens ∧
        readAll (writeAll (readAll text).tokens) = ⟨(readAll text).tokens, []⟩) ∧
      ∀ source, WellFormed (tokenize source) ∧
        readAll (writeAll (tokenize source)) = ⟨tokenize source, []⟩ := by
  have back : ∀ tokens, WellFormed tokens → readAll (writeAll tokens) = ⟨tokens, []⟩ := by
    intro tokens wellFormed
    have closed := close_of_wellFormed wellFormed
    have read := readAll_writeAll (closed.symm ▸ wellFormed)
    rwa [closed] at read
  refine ⟨fun tokens => ⟨fun same => ?_, back tokens⟩, fun tokens unclosed => ?_, fun text => ?_,
    fun source => ?_⟩
  · have wellFormed := wellFormed_readAll (writeAll tokens)
    rwa [same] at wellFormed
  · have closed := close_of_unclosed unclosed
    rw [← closed]
    exact readAll_writeAll (closed.symm ▸ unclosed.concat_endOfInput _)
  · exact ⟨wellFormed_readAll text, back _ (wellFormed_readAll text)⟩
  · exact ⟨wellFormed_tokenize source, back _ (wellFormed_tokenize source)⟩

/-- A comma between carriage returns. -/
theorem round_trip_comma :
    readAll (writeAll [⟨.punctuation, ",", 7⟩, ⟨.invalid, "\r,>\r", 8⟩]) =
      ⟨[⟨.punctuation, ",", 7⟩, ⟨.invalid, "\r,>\r", 8⟩, Token.endOfInput 8], []⟩ := by
  refine round_trip.2.1 _ ?_
  intro token member
  rcases List.mem_cons.mp member with rfl | later
  · exact ⟨⟨rfl, by decide, by decide⟩, rfl⟩
  · obtain rfl := List.mem_singleton.mp later
    exact ⟨⟨rfl, by decide, by decide⟩, rfl⟩

end Record

end ClassSyntax

import ClassSyntax.Proofs.Lexing.Trivia

/-!
# Carriage returns at the ends of lines

A source is read the same when a carriage return stands in front of each newline. It is whitespace there, or a
part of a comment, and no token reaches up to it.

* `Text.exists_of_prefix`, `Text.infix_of_withReturns`: what the two texts have in common.
* `nextMatch_withReturns`: the lexeme of a token is the next one in both.
* `ReturnsIgnored.all`: so are all tokens from a place on.
* `tokenize_withReturns`: the tokens of both sources.
-/

namespace ClassSyntax

open Lexeme

/-! ## The text with carriage returns -/

namespace Text

/-- The text with a carriage return in front of each newline. -/
def withReturns (text : List Char) : List Char :=
  text.flatMap fun c => if c = '\n' then ['\r', '\n'] else [c]

@[simp] theorem withReturns_newline (text : List Char) :
    withReturns ('\n' :: text) = '\r' :: '\n' :: withReturns text := rfl

theorem withReturns_cons {c : Char} (other : c ≠ '\n') (text : List Char) :
    withReturns (c :: text) = c :: withReturns text := by
  rw [withReturns, List.flatMap_cons, if_neg other]
  rfl

@[simp] theorem withReturns_append (left right : List Char) :
    withReturns (left ++ right) = withReturns left ++ withReturns right := List.flatMap_append

theorem withReturns_oneLine {text : List Char} (oneLine : '\n' ∉ text) : withReturns text = text := by
  induction text with
  | nil => rfl
  | cons c text ih =>
      rw [List.mem_cons, not_or] at oneLine
      rw [withReturns_cons (Ne.symm oneLine.1), ih oneLine.2]

theorem newlines_withReturns (text : List Char) : newlines (withReturns text) = newlines text := by
  induction text with
  | nil => rfl
  | cons c text ih =>
      by_cases newline : c = '\n'
      · subst newline
        simpa [newlines] using ih
      · rw [withReturns_cons newline, newlines, newlines, List.count_cons_of_ne newline,
          List.count_cons_of_ne newline]
        exact ih

/-- A piece on one line at the start of the one text is at the start of the other, unless it takes a carriage
return with it. -/
theorem exists_of_prefix {piece behind text : List Char} (oneLine : '\n' ∉ piece)
    (visible : piece.getLast? ≠ some '\r') (whole : withReturns text = piece ++ behind) :
    ∃ after, text = piece ++ after ∧ behind = withReturns after := by
  induction piece generalizing text with
  | nil => exact ⟨text, rfl, whole.symm⟩
  | cons c piece ih =>
      rw [List.mem_cons, not_or] at oneLine
      cases text with
      | nil => exact nomatch whole
      | cons d text =>
          by_cases newline : d = '\n'
          · subst newline
            obtain ⟨rfl, more⟩ : '\r' = c ∧ '\n' :: withReturns text = piece ++ behind := by
              simpa using whole
            cases piece with
            | nil => exact absurd rfl visible
            | cons e piece =>
                obtain rfl := (List.cons.inj more).1
                exact absurd List.mem_cons_self oneLine.2
          · rw [withReturns_cons newline, List.cons_append] at whole
            obtain ⟨rfl, more⟩ := List.cons.inj whole
            have visible : piece.getLast? ≠ some '\r' := by
              intro ended
              rw [List.getLast?_cons, ended] at visible
              exact visible rfl
            obtain ⟨after, rfl, same⟩ := ih oneLine.2 visible more
            exact ⟨after, rfl, same⟩

/-- A piece that has no part in the end of a line is found in both texts. -/
theorem infix_of_withReturns {piece text : List Char} (oneLine : '\n' ∉ piece) (other : '\r' ∉ piece)
    (found : piece <:+: withReturns text) : piece <:+: text := by
  have visible : piece.getLast? ≠ some '\r' := fun ended => other (List.mem_of_getLast? ended)
  induction text with
  | nil => exact found
  | cons c text ih =>
      have start : piece <+: withReturns (c :: text) → piece <:+: c :: text := by
        rintro ⟨behind, whole⟩
        obtain ⟨after, same, -⟩ := exists_of_prefix oneLine visible whole.symm
        exact ⟨[], after, same.symm⟩
      by_cases newline : c = '\n'
      · subst newline
        rw [withReturns_newline, List.infix_cons_iff, List.infix_cons_iff] at found
        rcases found with here | ⟨behind, whole⟩ | later
        · exact start here
        · cases piece with
          | nil => exact List.nil_infix
          | cons d piece => exact absurd (by simp [(List.cons.inj whole).1]) oneLine
        · exact (ih later).trans (List.suffix_cons _ _).isInfix
      · rw [withReturns_cons newline, List.infix_cons_iff] at found
        rcases found with here | later
        · exact start (by rwa [withReturns_cons newline])
        · exact (ih later).trans (List.suffix_cons _ _).isInfix

theorem atWordEnd_withReturns (text : List Char) :
    atWordEnd (withReturns text) = atWordEnd text := by
  cases text with
  | nil => rfl
  | cons c text =>
      by_cases newline : c = '\n'
      · subst newline
        rfl
      · rw [withReturns_cons newline]
        rfl

end Text

/-! ## One lexeme -/

section

variable {text word after : List Char}

/-- No trivia come into being but at the end of a line. -/
theorem startsTrivia_of_withReturns (starts : StartsTrivia (Text.withReturns text)) :
    StartsTrivia text := by
  cases text with
  | nil => exact nomatch starts
  | cons c text =>
      by_cases newline : c = '\n'
      · subst newline
        exact .newline text
      · rw [Text.withReturns_cons newline] at starts
        generalize whole : c :: Text.withReturns text = returned at starts
        cases starts with
        | @blockComment inner first after =>
            rw [← Text.withReturns_cons newline] at whole
            obtain ⟨more, same, inside⟩ :=
              @Text.exists_of_prefix ['/', '*', '~'] _ _ (by decide) (by decide) whole
            have closed : ['~', '*', '/'] <:+: Text.withReturns more :=
              ⟨inner, after, by rw [← inside]; simp⟩
            obtain ⟨length, found⟩ := exists_blockCommentEnd
              (Text.infix_of_withReturns (by decide) (by decide) closed) 3
            obtain ⟨inner, after, rfl, -, first⟩ := blockCommentEnd_eq_some.mp found
            exact same ▸ .blockComment first after
        | lineComment more =>
            obtain ⟨rfl, -⟩ := List.cons.inj whole
            exact .lineComment text
        | newline more => exact absurd (List.cons.inj whole).1 newline
        | blank blank more =>
            obtain ⟨rfl, -⟩ := List.cons.inj whole
            exact .blank blank text

/-- No pattern measures more than the lexeme of the token that is next without the carriage returns. -/
theorem length_le_of_withReturns (unread : text ≠ [])
    (shown : (nextMatch text).kind.isTrivia = false) {pattern : Pattern}
    (listed : pattern ∈ patterns) {length : Nat}
    (measured : pattern.scan (Text.withReturns text) = some length) :
    length ≤ (nextMatch text).length := by
  -- what is measured is no trivia, so that it ends before the end of its line
  have noTrivia : ¬ StartsTrivia text := by
    rw [← nextMatch_isTrivia_iff unread, shown]
    exact Bool.false_ne_true
  obtain ⟨lexeme, rfl, matched⟩ := (patterns_measure pattern listed).found measured
  have visible : pattern.kind.isTrivia = false := by
    rw [← Bool.not_eq_true]
    exact fun trivia => noTrivia (startsTrivia_of_withReturns (startsTrivia_of_matches trivia matched))
  have ⟨behind, whole, _⟩ := matched
  have oneLine : '\n' ∉ lexeme := by
    have without := patterns_oneLine_of_shown listed visible _ _ measured
    rwa [whole, List.take_left] at without
  have ends : lexeme.getLast? ≠ some '\r' := by
    have last := patterns_endVisibly pattern listed visible _ _ (fun starts => ?_) measured
    · rwa [whole, List.take_left] at last
    · obtain ⟨more, same⟩ := List.head?_eq_some_iff.mp starts
      exact noTrivia (startsTrivia_of_withReturns (same ▸ .blank (.inr (.inr rfl)) more))
  obtain ⟨rest, rfl, rfl⟩ := Text.exists_of_prefix oneLine ends whole
  have filled : lexeme ≠ [] :=
    List.length_pos_iff.mp (patterns_positive pattern listed _ _ measured)
  rw [whole] at matched
  exact length_le_nextMatch listed filled matched fun _ => Text.atWordEnd_withReturns rest

/-- The lexeme of a token is the next one with the carriage returns as well. -/
theorem nextMatch_withReturns (filled : word ≠ [])
    (measure : (nextMatch (word ++ after)).length = word.length)
    (shown : (nextMatch (word ++ after)).kind.isTrivia = false) :
    nextMatch (word ++ Text.withReturns after) = nextMatch (word ++ after) := by
  have unread : word ++ after ≠ [] := List.append_ne_nil_of_left_ne_nil filled after
  have oneLine := notMem_of_shown filled measure shown
  refine nextMatch_elsewhere filled measure (fun _ => (Text.atWordEnd_withReturns after).symm)
    fun pattern listed length measured => ?_
  rw [← measure]
  refine length_le_of_withReturns unread shown listed ?_
  rwa [Text.withReturns_append, Text.withReturns_oneLine oneLine]

end

/-! ## All tokens -/

/-- On whatever line this text starts, the carriage returns make no difference to its tokens. -/
def ReturnsIgnored (text : List Char) : Prop :=
  ∀ line, significant (Cursor.pieces ⟨Text.withReturns text, line⟩) =
    significant (Cursor.pieces ⟨text, line⟩)

namespace ReturnsIgnored

open Cursor

variable {word more : List Char}

theorem newline (ignored : ReturnsIgnored more) : ReturnsIgnored ('\n' :: more) := by
  intro line
  rw [Text.withReturns_newline, significant_blank (.inr (.inr rfl)), significant_newline,
    significant_newline, ignored]

theorem blank {c : Char} (blank : c = ' ' ∨ c = '\t' ∨ c = '\r') (ignored : ReturnsIgnored more) :
    ReturnsIgnored (c :: more) := by
  intro line
  have other : c ≠ '\n' := by rcases blank with rfl | rfl | rfl <;> decide
  rw [Text.withReturns_cons other, significant_blank blank, significant_blank blank, ignored]

/-- A line comment takes the carriage return at its end with it. -/
theorem lineComment (oneLine : '\n' ∉ word) (ended : more.head?.all (· == '\n') = true)
    (ignored : ReturnsIgnored more) : ReturnsIgnored ('#' :: (word ++ more)) := by
  intro line
  rw [Text.withReturns_cons (by decide), Text.withReturns_append, Text.withReturns_oneLine oneLine,
    significant_lineComment oneLine ended, ← ignored]
  cases more with
  | nil => exact significant_lineComment oneLine rfl line
  | cons c more =>
      obtain rfl : c = '\n' := by simpa using ended
      have longer : '\n' ∉ word ++ ['\r'] := by simpa using oneLine
      rw [Text.withReturns_newline, List.append_cons, significant_lineComment longer rfl,
        significant_blank (.inr (.inr rfl))]

/-- A block comment ends at the same mark. -/
theorem blockComment (first : ¬ ['~', '*', '/'] <:+: word ++ ['~', '*'])
    (ignored : ReturnsIgnored more) :
    ReturnsIgnored ('/' :: '*' :: '~' :: (word ++ '~' :: '*' :: '/' :: more)) := by
  intro line
  have still : ¬ ['~', '*', '/'] <:+: Text.withReturns word ++ ['~', '*'] := by
    have same : Text.withReturns (word ++ ['~', '*']) = Text.withReturns word ++ ['~', '*'] :=
      Text.withReturns_append _ _
    rw [← same]
    exact mt (Text.infix_of_withReturns (by decide) (by decide)) first
  have same : Text.withReturns ('/' :: '*' :: '~' :: (word ++ '~' :: '*' :: '/' :: more)) =
      '/' :: '*' :: '~' :: (Text.withReturns word ++ '~' :: '*' :: '/' :: Text.withReturns more) := by
    simp [Text.withReturns]
  rw [same, significant_blockComment still, significant_blockComment first,
    Text.newlines_withReturns, ignored]

theorem token (filled : word ≠ []) (measure : (nextMatch (word ++ more)).length = word.length)
    (shown : (nextMatch (word ++ more)).kind.isTrivia = false) (ignored : ReturnsIgnored more) :
    ReturnsIgnored (word ++ more) := by
  intro line
  have oneLine := notMem_of_shown filled measure shown
  have next : nextMatch (word ++ more) = ⟨(nextMatch (word ++ more)).kind, word.length⟩ :=
    Match.eq_of_parts rfl measure
  have returned := (nextMatch_withReturns filled measure shown).trans next
  rw [Text.withReturns_append, Text.withReturns_oneLine oneLine,
    significant_of_shown next filled shown oneLine,
    significant_of_shown returned filled shown oneLine, ignored]

theorem trivia {text : List Char} (starts : StartsTrivia text)
    (shorter : ∀ more, more.length < text.length → ReturnsIgnored more) : ReturnsIgnored text := by
  cases starts with
  | blockComment first after =>
      refine .blockComment first (shorter after ?_)
      simp only [List.length_cons, List.length_append]
      omega
  | lineComment more =>
      obtain ⟨comment, rest, rfl, oneLine, ended⟩ := exists_lineEnd more
      refine .lineComment oneLine ended (shorter rest ?_)
      simp only [List.length_cons, List.length_append]
      omega
  | newline more => exact .newline (shorter more (by simp))
  | blank isBlank more => exact .blank isBlank (shorter more (by simp))

/-- From every place on the same tokens are read. -/
theorem all (text : List Char) : ReturnsIgnored text := by
  induction size : text.length using Nat.strongRecOn generalizing text with
  | ind _ ih =>
      subst size
      have shorter (more : List Char) (less : more.length < text.length) : ReturnsIgnored more :=
        ih _ less more rfl
      by_cases unread : text = []
      · rw [unread]
        exact fun _ => rfl
      by_cases starts : StartsTrivia text
      · exact .trivia starts shorter
      · rw [← nextMatch_isTrivia_iff unread, Bool.not_eq_true] at starts
        obtain ⟨word, measure, ⟨after, rfl, -⟩⟩ := nextMatch_matches unread
        have filled : 0 < word.length := measure ▸ nextMatch_pos _
        exact .token (List.length_pos_iff.mp filled) measure.symm starts
          (shorter after (by rw [List.length_append]; omega))

end ReturnsIgnored

/-- The source with a carriage return in front of each newline. -/
def withReturns (source : String) : String := String.ofList (Text.withReturns source.toList)

example : withReturns "a\n\nb\r\nc" = "a\r\n\r\nb\r\r\nc" := by decide

/-- The tokens of a source do not depend on how its lines end. -/
theorem tokenize_withReturns (source : String) : tokenize (withReturns source) = tokenize source := by
  rw [tokenize_eq, tokenize_eq, lexemes, lexemes, Cursor.atStart, Cursor.atStart, withReturns,
    String.toList_ofList, ReturnsIgnored.all source.toList, Cursor.lastLine, Cursor.lastLine,
    Text.newlines_withReturns]

end ClassSyntax

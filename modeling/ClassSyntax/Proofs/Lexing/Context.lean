import ClassSyntax.Proofs.Lexing.LongestMatch

/-!
# Lexemes in front of another text

Which lexeme is next depends on more than its own characters: what stands behind it may make it longer, or
make it a part of a word. An expression looks behind its word only to see whether a word goes on there.

* `Regex.Matches.elsewhere`: what an expression needs to know of the text behind its word.
* `Kind.ends`: the lexeme of a token does not end inside a word.
* `nextMatch_elsewhere`: when the lexeme of one text is that of another one.
* `nextMatch_newline`, `nextMatch_before_newline`: a newline is one, and leaves the lexeme in front of it.
-/

namespace ClassSyntax

open Lexeme

namespace Regex

/-- Never looks at what is around its word. -/
def unbounded : Regex → Bool
  | empty | char _ => true
  | boundary => false
  | seq first second | either first second => first.unbounded && second.unbounded
  | many _ body => body.unbounded

namespace Matches

variable {regex : Regex} {before : Option Char} {word after other : List Char}

theorem atWordEnd_append (right : List Char) (same : atWordEnd after = atWordEnd other) :
    atWordEnd (right ++ after) = atWordEnd (right ++ other) := by
  cases right with
  | nil => exact same
  | cons => rfl

/-- Of the text behind its word an expression sees no more than whether a word goes on there. -/
theorem elsewhere (matched : regex.Matches before word after)
    (same : atWordEnd after = atWordEnd other) : regex.Matches before word other := by
  induction matched generalizing other with
  | empty => exact .empty
  | char inside => exact .char inside
  | boundary between =>
      rw [atWordEnd_eq, atWordEnd_eq, Bool.not_inj_iff] at same
      exact .boundary (by rwa [isBoundary, ← same])
  | seq _ _ ihFirst ihSecond => exact .seq (ihFirst (atWordEnd_append _ same)) (ihSecond same)
  | left _ ih => exact .left (ih same)
  | right _ ih => exact .right (ih same)
  | manyNone => exact .manyNone
  | manyMore _ filled _ ihBody ihRest =>
      exact .manyMore (ihBody (atWordEnd_append _ same)) filled (ihRest same)

/-- Without boundaries an expression sees nothing of it. -/
theorem anywhere (matched : regex.Matches before word after) (unbounded : regex.unbounded = true)
    (other : List Char) : regex.Matches before word other := by
  induction matched generalizing other with
  | empty => exact .empty
  | char inside => exact .char inside
  | boundary => exact Bool.noConfusion unbounded
  | seq _ _ ihFirst ihSecond =>
      obtain ⟨one, two⟩ := Bool.and_eq_true_iff.mp unbounded
      exact .seq (ihFirst one _) (ihSecond two _)
  | left _ ih => exact .left (ih (Bool.and_eq_true_iff.mp unbounded).1 _)
  | right _ ih => exact .right (ih (Bool.and_eq_true_iff.mp unbounded).2 _)
  | manyNone => exact .manyNone
  | manyMore _ filled _ ihBody ihRest =>
      exact .manyMore (ihBody unbounded _) filled (ihRest unbounded _)

end Matches

end Regex

/-! ## Lexemes do not end inside a word -/

/-- The last character is one of a word. -/
def endsInWord (word : List Char) : Bool := (lastChar none word).any isWordChar

theorem endsInWord_of_forall {word : List Char} (filled : word ≠ [])
    (inWord : ∀ c ∈ word, isWordChar c = true) : endsInWord word = true :=
  any_lastChar none filled inWord

theorem endsInWord_append (left : List Char) {right : List Char} (filled : right ≠ []) :
    endsInWord (left ++ right) = endsInWord right := by
  obtain ⟨c, right, rfl⟩ := List.exists_cons_of_ne_nil filled
  rw [endsInWord, lastChar_append]
  rfl

theorem endsInWord_wholeWord {inner : Regex} {word after : List Char}
    (matched : (Regex.wholeWord inner).Matches none word after)
    (ends : inner.Matches none word after → endsInWord word = true) :
    endsInWord word = true ∧ atWordEnd after = true := by
  obtain ⟨inside, -, closes⟩ := Regex.matches_wholeWord.mp matched
  rw [isBoundary, ← endsInWord, ends inside, Bool.true_bne, ← atWordEnd_eq] at closes
  exact ⟨ends inside, closes⟩

theorem endsInWord_quoted {quote : Char} {word after : List Char} (other : isWordChar quote = false)
    (matched : (Regex.quoted quote).Matches none word after) : endsInWord word = false := by
  obtain ⟨c, tail, rfl, -, more⟩ := Regex.matches_seq_char.mp matched
  obtain ⟨between, last, rfl, -, closing⟩ := Regex.matches_seq.mp more
  obtain ⟨d, inside, rfl⟩ := Regex.matches_char.mp closing
  obtain rfl : d = quote := by simpa using inside
  rw [← List.cons_append, endsInWord_append _ (List.cons_ne_nil _ _)]
  exact other

/-- The lexeme of a token is a whole word or a number, or does not end with a word at all. -/
theorem Kind.ends {kind : Kind} {word after : List Char} (shown : kind.isTrivia = false)
    (valid : kind ≠ .invalid) (matched : kind.regex.Matches none word after) :
    if kind.regex.unbounded then endsInWord word = false
    else endsInWord word = true ∧ atWordEnd after = true := by
  cases kind with
  | blockComment | lineComment | newline | whitespace => exact Bool.noConfusion shown
  | invalid => exact absurd rfl valid
  | endOfInput =>
      obtain ⟨_, inside, rfl⟩ := Regex.matches_char.mp matched
      exact absurd inside (by simp)
  | keyword =>
      have each : ∀ word ∈ reservedWords, endsInWord word.toList = true := by decide
      refine endsInWord_wholeWord matched fun inside => ?_
      obtain ⟨listed, member, rfl⟩ := Regex.matches_words.mp inside
      exact each listed member
  | booleanLiteral =>
      have each : ∀ word ∈ truthValues, endsInWord word.toList = true := by decide
      refine endsInWord_wholeWord matched fun inside => ?_
      obtain ⟨listed, member, rfl⟩ := Regex.matches_words.mp inside
      exact each listed member
  | operator =>
      have each : ∀ symbol ∈ operators, endsInWord symbol.toList = false := by decide
      obtain ⟨listed, member, rfl⟩ := Regex.matches_words.mp matched
      exact each listed member
  | floatLiteral =>
      refine endsInWord_wholeWord matched fun inside => ?_
      obtain ⟨front, fraction, rfl, -, filled, digits⟩ := matches_floatLiteral.mp inside
      rw [List.append_cons, endsInWord_append _ filled]
      exact endsInWord_of_forall filled fun c member => isWordChar_of_isDigit (digits c member)
  | intLiteral =>
      refine endsInWord_wholeWord matched fun inside => ?_
      obtain ⟨filled, digits⟩ := Regex.matches_repeated_char.mp inside
      exact endsInWord_of_forall filled fun c member =>
        isWordChar_of_isDigit (by simpa using digits c member)
  | identifier =>
      refine endsInWord_wholeWord matched fun inside => ?_
      obtain ⟨c, tail, rfl, starts, more⟩ := Regex.matches_seq_char.mp inside
      rw [CharSet.has_wordStart] at starts
      have rest := Regex.matches_many_char.mp more
      refine endsInWord_of_forall (List.cons_ne_nil _ _) (List.forall_mem_cons.mpr
        ⟨isWordChar_of_isWordStart starts, fun d member => by simpa using rest d member⟩)
  | invalidIdentifier =>
      refine endsInWord_wholeWord matched fun inside => ?_
      obtain ⟨number, tail, rfl, digits, more⟩ := Regex.matches_seq.mp inside
      obtain ⟨filled, digits⟩ := Regex.matches_repeated_char.mp digits
      have rest := Regex.matches_many_char.mp more
      refine endsInWord_of_forall (List.append_ne_nil_of_left_ne_nil filled _)
        (List.forall_mem_append.mpr ⟨fun c member => isWordChar_of_isDigit ?_, fun c member => ?_⟩)
      · simpa using digits c member
      · simpa using rest c member
  | punctuation =>
      have each : (punctuationMarks.all fun c => !endsInWord [c]) = true := by decide
      obtain ⟨c, inside, rfl⟩ := Regex.matches_char.mp matched
      have other : endsInWord [c] = false := by
        simpa using List.all_eq_true.mp each c (by simpa using inside)
      exact other
  | stringLiteral | charLiteral => exact endsInWord_quoted (by decide) matched

/-- Trivia and invalid characters have no boundaries. -/
theorem Kind.shown_of_bounded {kind : Kind} (bounded : kind.regex.unbounded = false) :
    kind.isTrivia = false ∧ kind ≠ .invalid := by
  revert bounded
  cases kind <;> decide

/-- No character of a word is invalid. -/
theorem not_invalid_of_isWordChar {c : Char} {text : List Char} (inWord : isWordChar c = true) :
    (nextMatch (c :: text)).kind ≠ .invalid := by
  intro invalid
  have unread : c :: text ≠ [] := List.cons_ne_nil _ _
  obtain ⟨lexeme, measure, matched⟩ := nextMatch_matches unread
  have one := measure ▸ length_of_invalid (invalid ▸ matched)
  have others := scan_of_invalid unread invalid one
  cases digit : c.isDigit with
  | true =>
      have none := others ⟨.invalidIdentifier, invalidIdentifier⟩ (by simp [patterns]) (by decide)
      simp [invalidIdentifier, digit] at none
  | false =>
      have starts : isWordStart c = true := by
        simpa [isWordChar, isWordStart, Char.isAlphanum, digit] using inWord
      have none := others ⟨.identifier, identifier⟩ (by simp [patterns]) (by decide)
      simp [identifier, starts] at none

theorem Kind.matches_append {kind : Kind} {word after : List Char} :
    kind.Matches (word ++ after) word ↔ kind.regex.Matches none word after ∧
      (kind = .blockComment → ¬ ['~', '*', '/'] <:+: (word.drop 3).dropLast) := by
  constructor
  · rintro ⟨behind, same, matched, first⟩
    rw [List.append_cancel_left same]
    exact ⟨matched, first⟩
  · rintro ⟨matched, first⟩
    exact ⟨after, rfl, matched, first⟩

section

variable {word after other : List Char}

/-- The next match is a match of its category, as a word in front of what is left. -/
theorem nextMatch_matches_append (filled : word ≠ [])
    (measure : (nextMatch (word ++ after)).length = word.length) :
    (nextMatch (word ++ after)).kind.Matches (word ++ after) word := by
  obtain ⟨lexeme, length, matched⟩ :=
    nextMatch_matches (List.append_ne_nil_of_left_ne_nil filled after)
  have ⟨_, whole, _⟩ := matched
  obtain ⟨rfl, -⟩ := List.append_inj whole (measure.symm.trans length.symm)
  exact matched

/-- The lexeme of a token is on one line, whatever follows it. -/
theorem notMem_of_shown (filled : word ≠ [])
    (measure : (nextMatch (word ++ after)).length = word.length)
    (shown : (nextMatch (word ++ after)).kind.isTrivia = false) : '\n' ∉ word := by
  have without := nextMatch_oneLine (List.append_ne_nil_of_left_ne_nil filled after) shown
  rwa [measure, List.take_left] at without

/-- The lexeme of a token does not end inside a word. -/
theorem nextMatch_ends (filled : word ≠ [])
    (measure : (nextMatch (word ++ after)).length = word.length)
    (shown : (nextMatch (word ++ after)).kind.isTrivia = false)
    (inWord : endsInWord word = true) : atWordEnd after = true := by
  have matched := nextMatch_matches_append filled measure
  by_cases invalid : (nextMatch (word ++ after)).kind = .invalid
  · have one := invalid ▸ matched
    obtain ⟨c, -, rfl⟩ := Regex.matches_char.mp (Kind.matches_append.mp one).1
    exact absurd invalid (not_invalid_of_isWordChar inWord)
  · have ends := Kind.ends shown invalid (Kind.matches_append.mp matched).1
    split at ends
    · exact Bool.noConfusion (ends.symm.trans inWord)
    · exact ends.2

/-- What a category matches in front of one text it matches in front of another, unless that makes the word
longer. -/
theorem Kind.Matches.elsewhere {kind : Kind} (matched : kind.Matches (word ++ after) word)
    (same : endsInWord word = true → atWordEnd after = atWordEnd other) :
    kind.Matches (word ++ other) word := by
  obtain ⟨here, first⟩ := Kind.matches_append.mp matched
  refine Kind.matches_append.mpr ⟨?_, first⟩
  cases unbounded : kind.regex.unbounded with
  | true => exact here.anywhere unbounded _
  | false =>
      obtain ⟨significant, valid⟩ := Kind.shown_of_bounded unbounded
      have whole := Kind.ends significant valid here
      rw [unbounded, if_neg (by decide)] at whole
      exact here.elsewhere (same whole.1)

/-- What a category matches in front of one text is no longer than the lexeme in front of another, unless that
makes the word longer. -/
theorem length_le_nextMatch {pattern : Pattern} (listed : pattern ∈ patterns) (filled : word ≠ [])
    (matched : pattern.kind.Matches (word ++ other) word)
    (same : endsInWord word = true → atWordEnd other = atWordEnd after) :
    word.length ≤ (nextMatch (word ++ after)).length := by
  obtain ⟨-, -, -, -, -, -, -, longest⟩ :=
    nextMatch_scans (List.append_ne_nil_of_left_ne_nil filled after)
  obtain ⟨length, scanned, enough⟩ :=
    (patterns_measure pattern listed).longest (matched.elsewhere same)
  exact enough.trans (longest pattern listed length scanned)

theorem Match.eq_of_parts :
    {left right : Match} → left.kind = right.kind → left.length = right.length → left = right
  | ⟨_, _⟩, ⟨_, _⟩, rfl, rfl => rfl

/-- Of two places in a list, they are the same or one of them comes first. -/
theorem same_or_before {α : Type} {before after others more : List α} {one other : α}
    (same : before ++ one :: after = others ++ other :: more) :
    one = other ∨ one ∈ others ∨ other ∈ before := by
  rcases List.append_eq_append_iff.mp same with ⟨inside, rfl, rest⟩ | ⟨inside, rfl, rest⟩
  · cases inside with
    | nil => exact .inl (List.cons.inj rest).1
    | cons => exact .inr (.inl (by simp [(List.cons.inj rest).1]))
  · cases inside with
    | nil => exact .inl (List.cons.inj rest).1.symm
    | cons => exact .inr (.inr (by simp [(List.cons.inj rest).1]))

/-- When one text starts with the lexeme of another one, this is its next lexeme as well, unless a word goes
on behind it in one of them only, or something longer matches. -/
theorem nextMatch_elsewhere (filled : word ≠ [])
    (measure : (nextMatch (word ++ after)).length = word.length)
    (same : endsInWord word = true → atWordEnd after = atWordEnd other)
    (bound : ∀ pattern ∈ patterns, ∀ length, pattern.scan (word ++ other) = some length →
      length ≤ word.length) :
    nextMatch (word ++ other) = nextMatch (word ++ after) := by
  have still := (nextMatch_matches_append filled measure).elsewhere same
  obtain ⟨sooner, pattern, later, split, kind, measured, shorter, -⟩ :=
    nextMatch_scans (List.append_ne_nil_of_left_ne_nil filled after)
  obtain ⟨others, winner, more, again, wins, won, less, longest⟩ :=
    nextMatch_scans (List.append_ne_nil_of_left_ne_nil filled other)
  have listed : pattern ∈ patterns := split ▸ List.mem_append_right _ List.mem_cons_self
  have present : winner ∈ patterns := again ▸ List.mem_append_right _ List.mem_cons_self
  obtain ⟨length, found, enough⟩ := (patterns_measure pattern listed).longest (kind ▸ still)
  have least := longest pattern listed length found
  have most := bound winner present _ won
  have length : (nextMatch (word ++ other)).length = word.length := by omega
  rcases same_or_before (split.symm.trans again) with rfl | first | first
  · exact Match.eq_of_parts (wins.symm.trans kind) (length.trans measure.symm)
  · have := less pattern first _ found
    omega
  · obtain ⟨lexeme, taken, matched⟩ := (patterns_measure winner present).found won
    have ⟨_, whole, _⟩ := matched
    obtain ⟨rfl, -⟩ := List.append_inj whole (length.symm.trans taken.symm)
    obtain ⟨_, scanned, enough⟩ := (patterns_measure winner present).longest
      (matched.elsewhere fun inWord => (same inWord).symm)
    have := shorter winner first _ scanned
    omega

/-! ## Newlines -/

/-- Nothing else starts as a block comment does. -/
theorem Kind.not_startsComment {kind : Kind} (other : kind ≠ .blockComment)
    (matched : kind.regex.Matches none word after) : ¬ ['/', '*'] <+: word := by
  rintro ⟨rest, rfl⟩
  have slash : isBoundary none (['/', '*'] ++ rest ++ after) = false := rfl
  cases kind with
  | blockComment => exact absurd rfl other
  | keyword | booleanLiteral | floatLiteral | intLiteral | identifier | invalidIdentifier =>
      obtain ⟨-, opens, -⟩ := Regex.matches_wholeWord.mp matched
      exact Bool.noConfusion (slash.symm.trans opens)
  | operator =>
      have each : ∀ symbol ∈ operators, symbol.toList.take 2 ≠ ['/', '*'] := by decide
      obtain ⟨symbol, member, same⟩ := Regex.matches_words.mp matched
      exact each symbol member (same ▸ rfl)
  | punctuation | newline | invalid | endOfInput =>
      obtain ⟨_, -, same⟩ := Regex.matches_char.mp matched
      exact nomatch same
  | lineComment | stringLiteral | charLiteral | whitespace =>
      obtain ⟨c, _, same, mark, -⟩ := Regex.matches_seq_char.mp matched
      obtain rfl := (List.cons.inj same).1
      revert mark
      decide

/-- Nothing but a comment goes on over a newline, and a newline stands for itself. -/
theorem length_le_of_newline (noComment : ¬ ['/', '*'] <+: word) {rest : List Char}
    {pattern : Pattern} (listed : pattern ∈ patterns) {length : Nat}
    (measured : pattern.scan (word ++ '\n' :: rest) = some length) :
    length ≤ max 1 word.length := by
  obtain ⟨lexeme, rfl, matched⟩ := (patterns_measure pattern listed).found measured
  have ⟨_, whole, one, _⟩ := matched
  by_cases block : pattern.kind = .blockComment
  · rw [block] at matched
    obtain ⟨_, _, comment, -, -⟩ := matches_blockComment.mp matched
    rcases word with _ | ⟨c, _ | ⟨d, word⟩⟩
    · exact absurd (List.cons.inj comment).1 (by decide)
    · exact absurd (List.cons.inj (List.cons.inj comment).2).1 (by decide)
    · obtain ⟨rfl, behind⟩ := List.cons.inj comment
      obtain ⟨rfl, -⟩ := List.cons.inj behind
      exact absurd ⟨word, rfl⟩ noComment
  by_cases newline : pattern.kind = .newline
  · rw [newline] at one
    obtain ⟨_, -, rfl⟩ := Regex.matches_char.mp one
    exact Nat.le_max_left _ _
  · refine Nat.le_trans (Nat.le_of_not_lt fun longer => ?_) (Nat.le_max_right _ _)
    have without := patterns_oneLine pattern listed block newline _ _ measured
    rw [whole, List.take_left] at without
    have inside : word ++ ['\n'] <+: lexeme :=
      List.prefix_of_prefix_length_le ⟨rest, (List.append_cons _ _ _).symm⟩ ⟨_, whole.symm⟩
        (by rw [List.length_append]; exact longer)
    exact without (inside.subset (by simp))

/-- The lexeme of a token stays the same when a newline comes behind it. -/
theorem nextMatch_before_newline (filled : word ≠ [])
    (measure : (nextMatch (word ++ after)).length = word.length)
    (shown : (nextMatch (word ++ after)).kind.isTrivia = false) (rest : List Char) :
    nextMatch (word ++ '\n' :: rest) = nextMatch (word ++ after) := by
  have matched := (Kind.matches_append.mp (nextMatch_matches_append filled measure)).1
  have noBlock : (nextMatch (word ++ after)).kind ≠ .blockComment := by
    rintro block
    rw [block] at shown
    exact Bool.noConfusion shown
  have one : 1 ≤ word.length := List.length_pos_iff.mpr filled
  refine nextMatch_elsewhere filled measure (nextMatch_ends filled measure shown)
    fun pattern listed length measured => ?_
  have bound := length_le_of_newline (Kind.not_startsComment noBlock matched) listed measured
  rwa [Nat.max_eq_right one] at bound

/-- A newline is next where one stands. -/
theorem nextMatch_newline (rest : List Char) : nextMatch ('\n' :: rest) = ⟨.newline, 1⟩ := by
  have alone : nextMatch (['\n'] ++ []) = ⟨.newline, 1⟩ := by decide +kernel
  rw [← alone]
  refine nextMatch_elsewhere (List.cons_ne_nil _ _) (by rw [alone]; rfl)
    (fun inWord => absurd inWord (by decide)) fun pattern listed length measured => ?_
  have noComment : ¬ ['/', '*'] <+: [] := by decide
  exact length_le_of_newline noComment listed measured

end

end ClassSyntax

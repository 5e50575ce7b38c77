import ClassSyntax.Proofs.Lexing.Context

/-!
# Words and numbers are whole

A text that starts with a letter, a digit or an underscore starts with a longest word, and this word is the
next lexeme, or with a point and a fraction behind it, if it is a number that has one. What category it has
is said by the word alone. No other text starts with a word or a number.

* `Kind.startsWord_iff`: the categories of words and numbers are those that start with a character of a word.
* `LongestWord.floatLiteral_eq_some_iff`, `LongestWord.scan_eq`: what each scanner measures at a word.
* `nextMatch_wholeWord`: what the next lexeme is, on every text.
-/

namespace ClassSyntax

open Lexeme

/-- The longest word at the start of a text, in front of the rest of the text. -/
structure LongestWord (word after : List Char) : Prop where
  filled : word ≠ []
  inWord : ∀ c ∈ word, isWordChar c = true
  ended : atWordEnd after = true

/-- Behind a word of digits stand a point and the digits of a fraction, and no word goes on behind them. -/
structure HasFraction (word after fraction : List Char) : Prop where
  whole : ∀ c ∈ word, c.isDigit = true
  behindPoint : ∃ rest, after = '.' :: (fraction ++ rest) ∧ atWordEnd rest = true
  filled : fraction ≠ []
  digits : ∀ c ∈ fraction, c.isDigit = true

/-- The category of a word that has no fraction. -/
def wordKind (word : List Char) : Kind :=
  if String.ofList word ∈ reservedWords then .keyword
  else if String.ofList word ∈ truthValues then .booleanLiteral
  else if word.all Char.isDigit then .intLiteral
  else if word.head?.any Char.isDigit then .invalidIdentifier
  else .identifier

namespace Kind

/-- The categories of words and numbers. -/
def ofWords : List Kind :=
  [keyword, booleanLiteral, floatLiteral, intLiteral, identifier, invalidIdentifier]

/-- The category takes a word like this as a whole, fractions apart. -/
def takes : Kind → List Char → Bool
  | keyword, word => reservedWords.contains (String.ofList word)
  | booleanLiteral, word => truthValues.contains (String.ofList word)
  | intLiteral, word => word.all Char.isDigit
  | identifier, word => word.head?.any isWordStart
  | invalidIdentifier, word => word.head?.any Char.isDigit
  | _, _ => false

theorem takes_of_notMem {kind : Kind} {word : List Char} (other : kind ∉ ofWords) :
    kind.takes word = false := by
  revert other
  cases kind <;> simp [ofWords, takes]

/-! ## First characters -/

section

variable {c : Char} {word after : List Char} {marks : List Char}

theorem not_startsWord_of_mark (others : marks.all (!isWordChar ·) = true)
    (matched : (Regex.char (.of marks)).Matches none (c :: word) after) :
    ¬ isWordChar c = true := by
  obtain ⟨_, inside, same⟩ := Regex.matches_char.mp matched
  obtain ⟨rfl, -⟩ := List.cons.inj same
  rw [CharSet.has_of, List.contains_iff_mem] at inside
  simpa using List.all_eq_true.mp others c inside

theorem not_startsWord_behind_mark {more : Regex} (others : marks.all (!isWordChar ·) = true)
    (matched : (Regex.seq (.char (.of marks)) more).Matches none (c :: word) after) :
    ¬ isWordChar c = true := by
  obtain ⟨front, _, same, mark, -⟩ := Regex.matches_seq.mp matched
  have first := mark
  obtain ⟨_, -, rfl⟩ := Regex.matches_char.mp first
  obtain ⟨rfl, -⟩ := List.cons.inj same
  exact not_startsWord_of_mark others mark

/-- The lexemes that start with a character of a word are words and numbers, invalid characters apart. -/
theorem startsWord_iff {kind : Kind} (valid : kind ≠ .invalid)
    (matched : kind.regex.Matches none (c :: word) after) :
    isWordChar c = true ↔ kind ∈ ofWords := by
  have starts {inner : Regex} (matched : (Regex.wholeWord inner).Matches none (c :: word) after) :
      isWordChar c = true := by
    obtain ⟨-, opens, -⟩ := Regex.matches_wholeWord.mp matched
    rwa [Regex.isBoundary_none] at opens
  cases kind with
  | keyword | booleanLiteral | floatLiteral | intLiteral | identifier | invalidIdentifier =>
      exact iff_of_true (starts matched) (by decide)
  | invalid => exact absurd rfl valid
  | endOfInput =>
      obtain ⟨_, inside, -⟩ := Regex.matches_char.mp matched
      exact absurd inside (by simp)
  | blockComment =>
      obtain ⟨_, _, same, opens, -⟩ := Regex.matches_seq.mp matched
      obtain rfl := Regex.matches_literal.mp opens
      obtain ⟨rfl, -⟩ := List.cons.inj same
      exact iff_of_false (by decide) (by decide)
  | operator =>
      have each : ∀ symbol ∈ operators, symbol.toList.head?.any isWordChar = false := by decide
      obtain ⟨symbol, member, same⟩ := Regex.matches_words.mp matched
      have other := each symbol member
      rw [← same] at other
      exact iff_of_false (by simpa using other) (by decide)
  | lineComment | stringLiteral | charLiteral | whitespace =>
      exact iff_of_false (not_startsWord_behind_mark (by decide) matched) (by decide)
  | newline | punctuation =>
      exact iff_of_false (not_startsWord_of_mark (by decide) matched) (by decide)

end

end Kind

theorem Pattern.startsWord_iff {pattern : Pattern} (listed : pattern ∈ patterns)
    (valid : pattern.kind ≠ .invalid) {c : Char} {text : List Char} {length : Nat}
    (measured : pattern.scan (c :: text) = some length) :
    isWordChar c = true ↔ pattern.kind ∈ Kind.ofWords := by
  have positive := patterns_positive pattern listed _ _ measured
  obtain ⟨lexeme, rfl, after, whole, matched, -⟩ := (patterns_measure pattern listed).found measured
  obtain ⟨d, lexeme, rfl⟩ := List.exists_cons_of_length_pos positive
  obtain ⟨rfl, -⟩ := List.cons.inj whole
  exact Kind.startsWord_iff valid matched

theorem scan_floatLiteral : ∀ pattern ∈ patterns, pattern.kind = .floatLiteral →
    pattern.scan = floatLiteral := by
  simp [patterns]

/-- A digit is no letter and no underscore. -/
theorem not_isWordStart_of_isDigit {c : Char} (digit : c.isDigit = true) :
    isWordStart c = false := by
  rw [Bool.eq_false_iff]
  intro starts
  delta isWordStart Char.isAlpha Char.isUpper Char.isLower at starts
  simp only [Char.isDigit, Bool.and_eq_true, Bool.or_eq_true, decide_eq_true_eq, beq_iff_eq,
    ge_iff_le, UInt32.le_iff_toNat_le] at digit starts
  have high : c.val.toNat ≤ 57 := digit.2
  rcases starts with (upper | lower) | underscore
  · have : 65 ≤ c.val.toNat := upper.1
    omega
  · have : 97 ≤ c.val.toNat := lower.1
    omega
  · subst underscore
    exact absurd high (by decide)

/-! ## What the scanners measure at a word -/

namespace LongestWord

variable {word after : List Char}

theorem unique {other rest : List Char} (longest : LongestWord word after)
    (again : LongestWord other rest) (same : word ++ after = other ++ rest) :
    word = other ∧ after = rest := by
  have first : word = other := by
    rw [← word_append longest.inWord longest.ended, same, word_append again.inWord again.ended]
  exact ⟨first, List.append_cancel_left (first ▸ same)⟩

theorem oneOfWords_eq (longest : LongestWord word after) (listed : List String) :
    oneOfWords listed (word ++ after) =
      if String.ofList word ∈ listed then some word.length else none := by
  unfold oneOfWords
  rw [word_append longest.inWord longest.ended]
  simp only [ne_eq, longest.filled, not_false_eq_true, true_and]

/-- A scanner that looks at the first character of a word. -/
theorem scan_of_head (longest : LongestWord word after) {scan : Scanner} {p : Char → Bool}
    (atHead : ∀ c text,
      scan (c :: text) = if p c then some (1 + (Lexeme.word text).length) else none) :
    scan (word ++ after) = if word.head?.any p then some word.length else none := by
  obtain ⟨c, tail, rfl⟩ := List.exists_cons_of_ne_nil longest.filled
  have inTail := (List.forall_mem_cons.mp longest.inWord).2
  rw [List.cons_append, atHead, word_append inTail longest.ended, List.length_cons, Nat.add_comm]
  rfl

theorem intLiteral_eq (longest : LongestWord word after) :
    intLiteral (word ++ after) = if word.all Char.isDigit then some word.length else none := by
  split
  · rename_i inside
    have whole : digits (word ++ after) = word :=
      digits_append (List.all_eq_true.mp inside) (not_digit_of_atWordEnd longest.ended)
    simp [intLiteral, whole, longest.filled, longest.ended]
  · rename_i other
    rw [Option.eq_none_iff_forall_ne_some]
    intro length measured
    -- digits that are a whole word would be this word
    obtain ⟨front, rest, same, rfl, matched⟩ := intLiteral_decides.found measured
    obtain ⟨inside, -, closes⟩ := Regex.matches_wholeWord.mp matched
    obtain ⟨filled, digits⟩ := Regex.matches_repeated_char.mp inside
    have inWord : ∀ c ∈ front, isWordChar c = true := fun c member =>
      isWordChar_of_isDigit (by simpa using digits c member)
    rw [Regex.isBoundary_lastChar none filled inWord] at closes
    obtain ⟨rfl, rfl⟩ := longest.unique ⟨filled, inWord, closes⟩ same
    exact other (by simpa using digits)

theorem floatLiteral_eq_some_iff (longest : LongestWord word after) {length : Nat} :
    floatLiteral (word ++ after) = some length ↔
      ∃ fraction, HasFraction word after fraction ∧ length = (word ++ '.' :: fraction).length := by
  constructor
  · intro measured
    obtain ⟨front, rest, same, rfl, matched⟩ := floatLiteral_decides.found measured
    obtain ⟨inside, opens, closes⟩ := Regex.matches_wholeWord.mp matched
    obtain ⟨whole, fraction, rfl, digits, filled, others⟩ := matches_floatLiteral.mp inside
    rw [isBoundary_fraction filled others] at closes
    have point : LongestWord whole ('.' :: (fraction ++ rest)) := by
      refine ⟨?_, fun c member => isWordChar_of_isDigit (digits c member), rfl⟩
      rintro rfl
      exact Bool.noConfusion opens
    obtain ⟨rfl, rfl⟩ := longest.unique point (by simpa using same)
    exact ⟨fraction, ⟨digits, ⟨rest, rfl, closes⟩, filled, others⟩, rfl⟩
  · rintro ⟨fraction, ⟨digits, ⟨rest, rfl, ended⟩, filled, others⟩, rfl⟩
    have matched : Kind.floatLiteral.regex.Matches none (word ++ '.' :: fraction) rest := by
      refine Regex.matches_wholeWord.mpr
        ⟨matches_floatLiteral.mpr ⟨_, _, rfl, digits, filled, others⟩, ?_, ?_⟩
      · obtain ⟨c, tail, rfl⟩ := List.exists_cons_of_ne_nil longest.filled
        rw [Regex.isBoundary_none]
        exact longest.inWord c List.mem_cons_self
      · rwa [isBoundary_fraction filled others]
    simpa using floatLiteral_decides.only matched

/-- But for numbers with a fraction and invalid characters, a scanner measures the whole word or nothing. -/
theorem scan_eq (longest : LongestWord word after) : ∀ pattern ∈ patterns,
    pattern.kind ≠ .invalid → pattern.kind ≠ .floatLiteral →
      pattern.scan (word ++ after) =
        if pattern.kind.takes word then some word.length else none := by
  have ofWord : ∀ pattern ∈ patterns, pattern.kind ∈ Kind.ofWords → pattern.kind ≠ .floatLiteral →
      pattern.scan (word ++ after) =
        if pattern.kind.takes word then some word.length else none := by
    have identifier : identifier (word ++ after) =
        if word.head?.any isWordStart then some word.length else none :=
      longest.scan_of_head fun _ _ => rfl
    have invalidIdentifier : invalidIdentifier (word ++ after) =
        if word.head?.any Char.isDigit then some word.length else none :=
      longest.scan_of_head fun _ _ => rfl
    simp [patterns, Kind.ofWords, Kind.takes, keyword, booleanLiteral, longest.oneOfWords_eq,
      longest.intLiteral_eq, identifier, invalidIdentifier]
  intro pattern listed valid whole
  by_cases member : pattern.kind ∈ Kind.ofWords
  · exact ofWord pattern listed member whole
  · rw [Kind.takes_of_notMem member, if_neg (by decide), Option.eq_none_iff_forall_ne_some]
    intro length measured
    obtain ⟨c, tail, rfl⟩ := List.exists_cons_of_ne_nil longest.filled
    exact member ((Pattern.startsWord_iff listed valid measured).mp
      (longest.inWord c List.mem_cons_self))

/-- Without a fraction this includes the scanner of numbers that have one. -/
theorem scan_of_noFraction (longest : LongestWord word after)
    (noFraction : ∀ fraction, ¬ HasFraction word after fraction) : ∀ pattern ∈ patterns,
    pattern.kind ≠ .invalid →
      pattern.scan (word ++ after) =
        if pattern.kind.takes word then some word.length else none := by
  have floatLiteral : floatLiteral (word ++ after) = none := by
    rw [Option.eq_none_iff_forall_ne_some]
    intro length measured
    obtain ⟨fraction, has, -⟩ := longest.floatLiteral_eq_some_iff.mp measured
    exact noFraction fraction has
  intro pattern listed valid
  by_cases float : pattern.kind = .floatLiteral
  · have untaken : Kind.takes .floatLiteral word = false := rfl
    rw [scan_floatLiteral pattern listed float, float, untaken, floatLiteral, if_neg (by decide)]
  · exact longest.scan_eq pattern listed valid float

/-- No scanner measures more than the word, fractions apart. -/
theorem length_le_of_scan (longest : LongestWord word after) {pattern : Pattern}
    (listed : pattern ∈ patterns) (whole : pattern.kind ≠ .floatLiteral) {length : Nat}
    (measured : pattern.scan (word ++ after) = some length) : length ≤ word.length := by
  by_cases invalid : pattern.kind = .invalid
  · obtain ⟨lexeme, rfl, matched⟩ := (patterns_measure pattern listed).found measured
    rw [length_of_invalid (invalid ▸ matched)]
    exact List.length_pos_iff.mpr longest.filled
  · rw [longest.scan_eq pattern listed invalid whole, Option.ite_none_right_eq_some] at measured
    exact Nat.le_of_eq (Option.some.inj measured.2).symm

/-! ## The lexeme at a word -/

/-- Without a fraction the first category that takes the word gets it. -/
theorem nextMatch_of_takes (longest : LongestWord word after)
    (noFraction : ∀ fraction, ¬ HasFraction word after fraction) {pattern : Pattern}
    (first : (patterns.find? fun pattern => pattern.kind.takes word) = some pattern) :
    nextMatch (word ++ after) = ⟨pattern.kind, word.length⟩ := by
  have scan_eq := longest.scan_of_noFraction noFraction
  obtain ⟨takes, before, later, split, others⟩ := List.find?_eq_some_iff_append.mp first
  have last := invalid_last
  rw [split] at last
  refine nextMatch_of_first split (fun earlier sooner => ?_) ?_ fun other behind longer found => ?_
  · have valid : earlier.kind ≠ .invalid :=
      (List.pairwise_append.mp last).2.2 earlier sooner pattern List.mem_cons_self
    have untaken : earlier.kind.takes word = false := by simpa using others earlier sooner
    rw [scan_eq earlier (split ▸ List.mem_append_left _ sooner) valid, untaken,
      if_neg (by decide)]
  · have valid : pattern.kind ≠ .invalid := by
      rintro invalid
      rw [invalid] at takes
      exact Bool.noConfusion takes
    rw [scan_eq pattern (split ▸ List.mem_append_right _ List.mem_cons_self) valid, if_pos takes]
  · have listed : other ∈ patterns :=
      split ▸ List.mem_append_right _ (List.mem_cons_of_mem _ behind)
    by_cases float : other.kind = .floatLiteral
    · have untaken : Kind.takes .floatLiteral word = false := rfl
      rw [scan_eq other listed (by rw [float]; decide), float, untaken, if_neg (by decide)] at found
      exact nomatch found
    · exact longest.length_le_of_scan listed float found

/-- A word starts either with a digit or as identifiers do. -/
theorem starts (longest : LongestWord word after) :
    word.head?.any isWordStart = !word.head?.any Char.isDigit := by
  obtain ⟨c, tail, rfl⟩ := List.exists_cons_of_ne_nil longest.filled
  have inWord := longest.inWord c List.mem_cons_self
  simp only [List.head?_cons, Option.any_some]
  cases digit : c.isDigit with
  | true => exact not_isWordStart_of_isDigit digit
  | false => simpa [isWordChar, isWordStart, Char.isAlphanum, digit] using inWord

theorem find?_takes (longest : LongestWord word after) :
    ∃ pattern, (patterns.find? fun pattern => pattern.kind.takes word) = some pattern ∧
      pattern.kind = wordKind word := by
  have starts := longest.starts
  unfold wordKind
  split_ifs with reserved truth number digit
  · exact ⟨⟨.keyword, keyword⟩, by simp [patterns, Kind.takes, reserved], rfl⟩
  · exact ⟨⟨.booleanLiteral, booleanLiteral⟩, by simp [patterns, Kind.takes, reserved, truth], rfl⟩
  · exact ⟨⟨.intLiteral, intLiteral⟩, by simp [patterns, Kind.takes, reserved, truth, number], rfl⟩
  · exact ⟨⟨.invalidIdentifier, invalidIdentifier⟩,
      by simp [patterns, Kind.takes, reserved, truth, number, starts, digit], rfl⟩
  · exact ⟨⟨.identifier, identifier⟩,
      by simp [patterns, Kind.takes, reserved, truth, number, starts, digit], rfl⟩

/-- A number with a fraction is longer than all else. -/
theorem nextMatch_of_fraction (longest : LongestWord word after) {fraction : List Char}
    (has : HasFraction word after fraction) :
    nextMatch (word ++ after) = ⟨.floatLiteral, (word ++ '.' :: fraction).length⟩ := by
  have float := longest.floatLiteral_eq_some_iff.mpr ⟨fraction, has, rfl⟩
  obtain ⟨before, pattern, later, split, kind, measured, -, most⟩ :=
    nextMatch_scans (List.append_ne_nil_of_left_ne_nil longest.filled after)
  have listed : pattern ∈ patterns := split ▸ List.mem_append_right _ List.mem_cons_self
  have enough := most ⟨.floatLiteral, floatLiteral⟩ (by simp [patterns]) _ float
  have isFloat : pattern.kind = .floatLiteral := by
    by_contra whole
    have short := longest.length_le_of_scan listed whole measured
    rw [List.length_append, List.length_cons] at enough
    omega
  rw [scan_floatLiteral pattern listed isFloat, float] at measured
  exact Match.eq_of_parts (kind.symm.trans isFloat) (Option.some.inj measured).symm

end LongestWord

theorem exists_longestWord {text : List Char} (starts : text.head?.any isWordChar = true) :
    ∃ word after, text = word ++ after ∧ LongestWord word after := by
  obtain ⟨after, whole, ended⟩ := exists_word text
  refine ⟨word text, after, whole, fun empty => ?_, fun _ => isWordChar_of_mem_word, ended⟩
  rw [empty, List.nil_append] at whole
  rw [atWordEnd_eq, ← whole, starts] at ended
  exact Bool.noConfusion ended

/-- At a character of a word the longest word is next, with the fraction behind it where it is a number that
has one, and its characters decide on its category. At any other place no word and no number is next. -/
theorem nextMatch_wholeWord (text : List Char) :
    (text.head?.any isWordChar = true →
      ∃ word after, text = word ++ after ∧ LongestWord word after ∧
        (∀ fraction, HasFraction word after fraction →
          nextMatch text = ⟨.floatLiteral, (word ++ '.' :: fraction).length⟩) ∧
        ((∀ fraction, ¬ HasFraction word after fraction) →
          nextMatch text = ⟨wordKind word, word.length⟩)) ∧
      (text.head?.any isWordChar = false → (nextMatch text).kind ∉ Kind.ofWords) := by
  constructor
  · intro starts
    obtain ⟨word, after, rfl, longest⟩ := exists_longestWord starts
    refine ⟨word, after, rfl, longest, fun fraction has => longest.nextMatch_of_fraction has,
      fun noFraction => ?_⟩
    obtain ⟨pattern, first, kind⟩ := longest.find?_takes
    rw [longest.nextMatch_of_takes noFraction first, kind]
  · intro other member
    cases text with
    | nil => exact absurd member (by decide +kernel)
    | cons c text =>
        obtain ⟨pattern, listed, kind, measured⟩ := nextMatch_mem (List.cons_ne_nil c text)
        rw [← kind] at member
        have valid : pattern.kind ≠ .invalid := by
          rintro invalid
          rw [invalid] at member
          exact absurd member (by decide)
        have inWord := (Pattern.startsWord_iff listed valid measured).mpr member
        exact Bool.noConfusion (inWord.symm.trans other)

/-- Points in numbers: a second one, one with a word behind its digit, and one with no digit in front. -/
theorem points_wholeWord :
    nextMatch "1.5.2".toList = ⟨.floatLiteral, 3⟩ ∧ nextMatch "1.5x".toList = ⟨.intLiteral, 1⟩ ∧
      (nextMatch ".5".toList).kind ∉ Kind.ofWords := by
  have one {after : List Char} (ended : atWordEnd after = true) : LongestWord ['1'] after :=
    ⟨by decide, List.forall_mem_singleton.mpr (by decide), ended⟩
  refine ⟨?_, ?_, (nextMatch_wholeWord ".5".toList).2 (by decide)⟩
  · obtain ⟨word, after, whole, longest, number, -⟩ :=
      (nextMatch_wholeWord "1.5.2".toList).1 (by decide)
    obtain ⟨rfl, rfl⟩ : word = ['1'] ∧ after = ".5.2".toList :=
      longest.unique (one (by decide)) whole.symm
    exact number ['5'] ⟨List.forall_mem_singleton.mpr (by decide),
      ⟨".2".toList, by decide, by decide⟩, by decide, List.forall_mem_singleton.mpr (by decide)⟩
  · obtain ⟨word, after, whole, longest, -, alone⟩ :=
      (nextMatch_wholeWord "1.5x".toList).1 (by decide)
    obtain ⟨rfl, rfl⟩ : word = ['1'] ∧ after = ".5x".toList :=
      longest.unique (one (by decide)) whole.symm
    refine alone fun fraction has => ?_
    obtain ⟨rest, same, ended⟩ := has.behindPoint
    -- behind the digit a word goes on
    rcases fraction with _ | ⟨c, _ | ⟨d, fraction⟩⟩
    · exact has.filled rfl
    · obtain ⟨-, rfl⟩ : '5' = c ∧ ['x'] = rest := by simpa using same
      exact absurd ended (by decide)
    · obtain ⟨-, rfl, -⟩ : '5' = c ∧ 'x' = d ∧ [] = fraction ++ rest := by simpa using same
      exact absurd (has.digits 'x' (by simp)) (by decide)

end ClassSyntax

import ClassSyntax.Proofs.Lexing.OneLine
import ClassSyntax.Proofs.Lexing.Regex

/-!
# The lexicon

The regular expression of each category. The scanner of a category finds what a matcher of its expression
finds that prefers the first alternative of a choice and, but for the text of block comments, another round
of a loop.

* `Kind.regex`: the table.
* `Scanner.Decides`: the scanner measures the only match of an expression. So it is with words, numbers,
  quoted literals and single characters.
-/

namespace ClassSyntax

open Lexeme

namespace CharSet

def digit : CharSet := ⟨false, [('0', '9')]⟩

def wordStart : CharSet := ⟨false, [('a', 'z'), ('A', 'Z'), ('_', '_')]⟩

def wordChar : CharSet := ⟨false, [('a', 'z'), ('A', 'Z'), ('0', '9'), ('_', '_')]⟩

@[simp] theorem has_digit (c : Char) : digit.has c = c.isDigit := by
  simp [digit, has, Char.isDigit, Char.le_def]

theorem eq_iff_between (c d : Char) : c = d ↔ d ≤ c ∧ c ≤ d := by
  constructor
  · rintro rfl
    exact ⟨Char.le_refl _, Char.le_refl _⟩
  · exact fun ⟨below, above⟩ => Char.le_antisymm above below

@[simp] theorem has_wordStart (c : Char) : wordStart.has c = isWordStart c := by
  rw [Bool.eq_iff_iff]
  delta isWordStart Char.isAlpha Char.isUpper Char.isLower
  simp [wordStart, has, eq_iff_between c '_', Char.le_def, or_assoc, or_left_comm]

@[simp] theorem has_wordChar (c : Char) : wordChar.has c = isWordChar c := by
  rw [Bool.eq_iff_iff]
  delta isWordChar Char.isAlphanum Char.isAlpha Char.isUpper Char.isLower Char.isDigit
  simp [wordChar, has, eq_iff_between c '_', Char.le_def, or_assoc, or_left_comm]

end CharSet

namespace Regex

/-- Between two word boundaries. -/
def wholeWord (inner : Regex) : Regex := all [boundary, inner, boundary]

/-- One of these words. -/
def words (words : List String) : Regex := oneOf (words.map fun word => literal word.toList)

/-- One character between quotes, or a backslash and the character that it takes with it. -/
def quotedChar (quote : Char) : Regex :=
  either (char (.but [quote, '\\', '\n'])) (seq (char (.of ['\\'])) (char (.but ['\n'])))

/-- Characters on one line between two of these quotes. -/
def quoted (quote : Char) : Regex :=
  seq (char (.of [quote])) (seq (many true (quotedChar quote)) (char (.of [quote])))

end Regex

open Regex in
/-- The regular expression of a category. No text is matched as the end of the input. -/
def Kind.regex : Kind → Regex
  | blockComment =>
      all [literal ['/', '*', '~'], many false (char (.but [])), literal ['~', '*', '/']]
  | lineComment => seq (char (.of ['#'])) (many true (char (.but ['\n'])))
  | keyword => wholeWord (words reservedWords)
  | booleanLiteral => wholeWord (words truthValues)
  | operator => words operators
  | floatLiteral =>
      wholeWord (all [many true (char .digit), literal ['.'], repeated (char .digit)])
  | intLiteral => wholeWord (repeated (char .digit))
  | identifier => wholeWord (all [char .wordStart, many true (char .wordChar)])
  | invalidIdentifier => wholeWord (all [repeated (char .digit), many true (char .wordChar)])
  | stringLiteral => quoted '"'
  | charLiteral => quoted '\''
  | punctuation => char (.of punctuationMarks)
  | newline => char (.of ['\n'])
  | whitespace => repeated (char (.of [' ', '\t', '\r']))
  | invalid => char (.but ['\n'])
  | endOfInput => oneOf []

/-! ## Scanners and expressions -/

/-- The scanner measures the only match of the expression at the start of a text. -/
structure Scanner.Decides (scan : Scanner) (regex : Regex) : Prop where
  found : ∀ {text length}, scan text = some length →
    ∃ word after, text = word ++ after ∧ word.length = length ∧ regex.Matches none word after
  only : ∀ {word after}, regex.Matches none word after → scan (word ++ after) = some word.length

/-- The only match is the preferred one. -/
theorem Scanner.Decides.scan_eq {scan : Scanner} {regex : Regex} (decides : scan.Decides regex) :
    regex.scan = scan := by
  funext text
  cases measured : scan text with
  | none =>
      cases preferred : regex.scan text with
      | none => rfl
      | some length =>
          obtain ⟨word, after, rfl, -, matched⟩ := Regex.matches_of_scan preferred
          exact nomatch measured.symm.trans (decides.only matched)
  | some length =>
      obtain ⟨word, after, rfl, rfl, matched⟩ := decides.found measured
      obtain ⟨other, preferred⟩ := Regex.scan_of_matches matched
      obtain ⟨again, rest, same, rfl, rematched⟩ := Regex.matches_of_scan preferred
      rw [preferred, ← measured, same, decides.only rematched]

/-! ## Whole words -/

theorem takeWhile_append_of_stop {p : Char → Bool} {front after : List Char}
    (inside : ∀ c ∈ front, p c = true) (stop : after.head?.any p = false) :
    (front ++ after).takeWhile p = front := by
  rw [List.takeWhile_append_of_pos inside]
  cases after with
  | nil => simp
  | cons c after => rw [List.takeWhile_cons_of_neg (by simpa using stop), List.append_nil]

/-- What a predicate cuts off at the start of a text, and the rest. -/
theorem exists_takeWhile (p : Char → Bool) (text : List Char) :
    ∃ after, text = text.takeWhile p ++ after ∧ after.head?.any p = false := by
  refine ⟨text.dropWhile p, List.takeWhile_append_dropWhile.symm, ?_⟩
  have stopped := List.head?_dropWhile_not p text
  cases rest : text.dropWhile p with
  | nil => rfl
  | cons c after => simpa [rest] using stopped

theorem atWordEnd_eq (text : List Char) : atWordEnd text = !text.head?.any isWordChar := by
  cases text <;> rfl

theorem lastChar_append (before : Option Char) (left right : List Char) :
    lastChar before (left ++ right) = lastChar (lastChar before left) right := by
  induction left generalizing before with
  | nil => rfl
  | cons c left ih => exact ih (some c)

/-- A word of word characters ends with one. -/
theorem any_lastChar (before : Option Char) {front : List Char} (filled : front ≠ [])
    (inWord : ∀ c ∈ front, isWordChar c = true) :
    (lastChar before front).any isWordChar = true := by
  induction front generalizing before with
  | nil => exact absurd rfl filled
  | cons c front ih =>
      rw [List.forall_mem_cons] at inWord
      cases front with
      | nil => exact inWord.1
      | cons d front => exact ih (some c) (List.cons_ne_nil _ _) inWord.2

namespace Regex

variable {inner : Regex} {front after : List Char}

theorem matches_words {before : Option Char} {listed : List String} :
    (words listed).Matches before front after ↔ ∃ word ∈ listed, front = word.toList := by
  rw [words, matches_oneOf]
  simp

theorem matches_wholeWord :
    (wholeWord inner).Matches none front after ↔ inner.Matches none front after ∧
      isBoundary none (front ++ after) = true ∧ isBoundary (lastChar none front) after = true := by
  simp only [wholeWord, all, matches_seq, matches_boundary]
  constructor
  · rintro ⟨_, _, rfl, ⟨rfl, opens⟩, _, _, rfl, matched, rfl, closes⟩
    simp only [List.append_nil, List.nil_append] at opens ⊢
    exact ⟨matched, opens, closes⟩
  · rintro ⟨matched, opens, closes⟩
    exact ⟨[], front, rfl, ⟨rfl, opens⟩, front, [], (List.append_nil _).symm, matched, rfl, closes⟩

/-- At the start of a text a boundary is in front of a word. -/
theorem isBoundary_none (text : List Char) :
    isBoundary none text = text.head?.any isWordChar := by
  rw [isBoundary, Option.any_none, Bool.false_bne]

/-- Behind a word character a boundary is where no word goes on. -/
theorem isBoundary_lastChar (before : Option Char) (filled : front ≠ [])
    (inWord : ∀ c ∈ front, isWordChar c = true) :
    isBoundary (lastChar before front) after = atWordEnd after := by
  rw [isBoundary, any_lastChar before filled inWord, atWordEnd_eq, Bool.true_bne]

/-- An expression for words alone matches whole words. -/
theorem matches_wholeWord_of_inWord
    (inWord : inner.Matches none front after → front ≠ [] ∧ ∀ c ∈ front, isWordChar c = true) :
    (wholeWord inner).Matches none front after ↔
      inner.Matches none front after ∧ atWordEnd after = true := by
  rw [matches_wholeWord]
  refine and_congr_right fun matched => ?_
  obtain ⟨filled, inside⟩ := inWord matched
  rw [isBoundary_lastChar none filled inside, isBoundary_none]
  obtain ⟨c, front, rfl⟩ := List.exists_cons_of_ne_nil filled
  exact and_iff_right (inside c List.mem_cons_self)

end Regex

/-! ## Words and numbers -/

theorem word_append {front after : List Char} (inWord : ∀ c ∈ front, isWordChar c = true)
    (ended : atWordEnd after = true) : word (front ++ after) = front :=
  takeWhile_append_of_stop inWord (by simpa [atWordEnd_eq] using ended)

theorem digits_append {front after : List Char} (inside : ∀ c ∈ front, c.isDigit = true)
    (ended : after.head?.any Char.isDigit = false) : digits (front ++ after) = front :=
  takeWhile_append_of_stop inside ended

/-- No number goes on where no word goes on. -/
theorem not_digit_of_atWordEnd {after : List Char} (ended : atWordEnd after = true) :
    after.head?.any Char.isDigit = false := by
  cases after with
  | nil => rfl
  | cons c after =>
      have other : isWordChar c = false := by simpa [atWordEnd] using ended
      exact isDigit_of_not_isWordChar other

/-- The word at the start of a text, and the rest. -/
theorem exists_word (text : List Char) :
    ∃ after, text = word text ++ after ∧ atWordEnd after = true := by
  obtain ⟨after, whole, stopped⟩ := exists_takeWhile isWordChar text
  exact ⟨after, whole, by rw [atWordEnd_eq, stopped]; rfl⟩

theorem digits_append_drop (text : List Char) :
    text = digits text ++ text.drop (digits text).length := by
  have cut := List.take_append_drop (digits text).length text
  rw [digits, take_length_takeWhile] at cut
  exact cut.symm

theorem isWordChar_of_mem_word {c : Char} {text : List Char} (member : c ∈ word text) :
    isWordChar c = true := List.mem_takeWhile_imp member

theorem isDigit_of_mem_digits {c : Char} {text : List Char} (member : c ∈ digits text) :
    c.isDigit = true := List.mem_takeWhile_imp member

/-- Listed words are found as whole words. -/
theorem oneOfWords_decides {listed : List String}
    (checked : (listed.all fun word =>
      !word.toList.isEmpty && word.toList.all isWordChar) = true) :
    Scanner.Decides (oneOfWords listed) (.wholeWord (.words listed)) := by
  have inWords : ∀ word ∈ listed, word.toList ≠ [] ∧ ∀ c ∈ word.toList, isWordChar c = true := by
    simpa using checked
  constructor
  · intro text length measured
    simp only [oneOfWords, Option.ite_none_right_eq_some, Option.some.injEq] at measured
    obtain ⟨⟨filled, member⟩, rfl⟩ := measured
    obtain ⟨after, whole, ended⟩ := exists_word text
    have matched : (Regex.words listed).Matches none (word text) after :=
      Regex.matches_words.mpr ⟨_, member, String.toList_ofList.symm⟩
    exact ⟨word text, after, whole, rfl, (Regex.matches_wholeWord_of_inWord fun _ =>
      ⟨filled, fun _ => isWordChar_of_mem_word⟩).mpr ⟨matched, ended⟩⟩
  · intro front after matched
    have inWord : (Regex.words listed).Matches none front after →
        front ≠ [] ∧ ∀ c ∈ front, isWordChar c = true := by
      intro matched
      obtain ⟨word, member, rfl⟩ := Regex.matches_words.mp matched
      exact inWords word member
    obtain ⟨matched, ended⟩ := (Regex.matches_wholeWord_of_inWord inWord).mp matched
    obtain ⟨filled, inside⟩ := inWord matched
    obtain ⟨word, member, rfl⟩ := Regex.matches_words.mp matched
    have listedWord : String.ofList word.toList ∈ listed := String.ofList_toList.symm ▸ member
    unfold oneOfWords
    rw [word_append inside ended]
    exact if_pos ⟨filled, listedWord⟩

theorem intLiteral_decides : Scanner.Decides intLiteral Kind.intLiteral.regex := by
  have inWord : ∀ {front after : List Char},
      (Regex.repeated (.char .digit)).Matches none front after →
        front ≠ [] ∧ ∀ c ∈ front, isWordChar c = true := by
    intro front after matched
    obtain ⟨filled, inside⟩ := Regex.matches_repeated_char.mp matched
    exact ⟨filled, fun c member => isWordChar_of_isDigit (by simpa using inside c member)⟩
  constructor
  · intro text length measured
    simp only [intLiteral, Option.ite_none_right_eq_some, Option.some.injEq] at measured
    obtain ⟨⟨filled, ended⟩, rfl⟩ := measured
    have matched : (Regex.repeated (.char .digit)).Matches none (digits text)
        (text.drop (digits text).length) :=
      Regex.matches_repeated_char.mpr ⟨filled, fun c member => by
        simpa using isDigit_of_mem_digits member⟩
    exact ⟨digits text, _, digits_append_drop text, rfl,
      (Regex.matches_wholeWord_of_inWord inWord).mpr ⟨matched, ended⟩⟩
  · intro front after matched
    obtain ⟨matched, ended⟩ := (Regex.matches_wholeWord_of_inWord inWord).mp matched
    obtain ⟨filled, inside⟩ := Regex.matches_repeated_char.mp matched
    have whole : digits (front ++ after) = front :=
      digits_append (by simpa using inside) (not_digit_of_atWordEnd ended)
    unfold intLiteral
    dsimp only
    rw [whole, List.drop_left, if_pos ⟨filled, ended⟩]

/-- A scanner that looks at the first character of a word decides an expression that does. -/
theorem decides_of_head {scan : Scanner} {inner : Regex} {p : Char → Bool}
    (inWord : ∀ c, p c = true → isWordChar c = true) (atEnd : scan [] = none)
    (atHead : ∀ c text, scan (c :: text) = if p c then some (1 + (word text).length) else none)
    (headed : ∀ {front after}, inner.Matches none front after ↔
      ∃ c tail, front = c :: tail ∧ p c = true ∧ ∀ d ∈ tail, isWordChar d = true) :
    Scanner.Decides scan (.wholeWord inner) := by
  have inWords : ∀ {front after}, inner.Matches none front after →
      front ≠ [] ∧ ∀ c ∈ front, isWordChar c = true := by
    intro front after matched
    obtain ⟨c, tail, rfl, first, others⟩ := headed.mp matched
    exact ⟨List.cons_ne_nil _ _, List.forall_mem_cons.mpr ⟨inWord c first, others⟩⟩
  constructor
  · intro text length measured
    cases text with
    | nil => exact nomatch atEnd.symm.trans measured
    | cons c text =>
        rw [atHead, Option.ite_none_right_eq_some, Option.some.injEq] at measured
        obtain ⟨first, rfl⟩ := measured
        obtain ⟨after, whole, ended⟩ := exists_word text
        have matched : inner.Matches none (c :: word text) after :=
          headed.mpr ⟨c, word text, rfl, first, fun _ => isWordChar_of_mem_word⟩
        exact ⟨c :: word text, after, congrArg (c :: ·) whole, Nat.add_comm _ _,
          (Regex.matches_wholeWord_of_inWord inWords).mpr ⟨matched, ended⟩⟩
  · intro front after matched
    obtain ⟨matched, ended⟩ := (Regex.matches_wholeWord_of_inWord inWords).mp matched
    obtain ⟨c, tail, rfl, first, others⟩ := headed.mp matched
    rw [List.cons_append, atHead, if_pos first, word_append others ended, List.length_cons,
      Nat.add_comm]

theorem identifier_decides : Scanner.Decides identifier Kind.identifier.regex := by
  refine decides_of_head (fun c => isWordChar_of_isWordStart) rfl (fun c text => rfl)
    fun {front after} => ?_
  simp only [Regex.all, Regex.matches_seq_char, Regex.matches_many_char,
    CharSet.has_wordStart, CharSet.has_wordChar]

/-- The digits behind the first one are word characters as well. -/
theorem invalidIdentifier_decides :
    Scanner.Decides invalidIdentifier Kind.invalidIdentifier.regex := by
  refine decides_of_head (fun c => isWordChar_of_isDigit) rfl (fun c text => rfl)
    fun {front after} => ?_
  simp only [Regex.all, Regex.matches_seq, Regex.matches_repeated_char,
    Regex.matches_many_char, CharSet.has_digit, CharSet.has_wordChar]
  constructor
  · rintro ⟨left, right, rfl, ⟨filled, inside⟩, others⟩
    obtain ⟨c, left, rfl⟩ := List.exists_cons_of_ne_nil filled
    rw [List.forall_mem_cons] at inside
    exact ⟨c, left ++ right, rfl, inside.1, List.forall_mem_append.mpr
      ⟨fun d member => isWordChar_of_isDigit (inside.2 d member), others⟩⟩
  · rintro ⟨c, tail, rfl, first, others⟩
    exact ⟨[c], tail, rfl, ⟨List.cons_ne_nil _ _, by simpa using first⟩, others⟩

theorem matches_floatLiteral {front after : List Char} :
    (Regex.all [.many true (.char .digit), .literal ['.'], .repeated (.char .digit)]).Matches none
        front after ↔
      ∃ whole fraction, front = whole ++ '.' :: fraction ∧ (∀ c ∈ whole, c.isDigit = true) ∧
        fraction ≠ [] ∧ ∀ c ∈ fraction, c.isDigit = true := by
  simp only [Regex.all, Regex.matches_seq, Regex.matches_repeated_char,
    Regex.matches_many_char, Regex.matches_literal, CharSet.has_digit]
  constructor
  · rintro ⟨whole, _, rfl, inside, _, fraction, rfl, rfl, filled, others⟩
    exact ⟨whole, fraction, rfl, inside, filled, others⟩
  · rintro ⟨whole, fraction, rfl, inside, filled, others⟩
    exact ⟨whole, _, rfl, inside, _, fraction, rfl, rfl, filled, others⟩

/-- Behind a fraction a boundary is where no word goes on. -/
theorem isBoundary_fraction {whole fraction after : List Char} (filled : fraction ≠ [])
    (inside : ∀ c ∈ fraction, c.isDigit = true) :
    isBoundary (lastChar none (whole ++ '.' :: fraction)) after = atWordEnd after := by
  rw [lastChar_append, lastChar]
  exact Regex.isBoundary_lastChar _ filled fun c member => isWordChar_of_isDigit (inside c member)

/-- Without digits in front of the point there is no boundary in front of it. -/
theorem floatLiteral_decides : Scanner.Decides floatLiteral Kind.floatLiteral.regex := by
  constructor
  · intro text length measured
    simp only [floatLiteral] at measured
    split at measured
    · rename_i rest point
      simp only [Option.ite_none_right_eq_some, Option.some.injEq] at measured
      obtain ⟨⟨filled, fractionFilled, ended⟩, rfl⟩ := measured
      have cut : text = digits text ++ '.' :: digits rest ++ rest.drop (digits rest).length := by
        rw [List.append_assoc, List.cons_append, ← digits_append_drop rest, ← point]
        exact digits_append_drop text
      have measure : (digits text ++ '.' :: digits rest).length =
          (digits text).length + 1 + (digits rest).length := by
        rw [List.length_append, List.length_cons]
        omega
      refine ⟨_, _, cut, measure, Regex.matches_wholeWord.mpr
        ⟨matches_floatLiteral.mpr ⟨_, _, rfl, fun _ => isDigit_of_mem_digits, fractionFilled,
          fun _ => isDigit_of_mem_digits⟩, ?_, ?_⟩⟩
      · obtain ⟨c, tail, same⟩ := List.exists_cons_of_ne_nil filled
        have digit : c.isDigit = true := isDigit_of_mem_digits (same ▸ List.mem_cons_self)
        rw [same, Regex.isBoundary_none]
        exact isWordChar_of_isDigit digit
      · rwa [isBoundary_fraction fractionFilled fun _ => isDigit_of_mem_digits]
    · simp at measured
  · intro front after matched
    obtain ⟨matched, opens, closes⟩ := Regex.matches_wholeWord.mp matched
    obtain ⟨whole, fraction, rfl, inside, filled, others⟩ := matches_floatLiteral.mp matched
    rw [isBoundary_fraction filled others] at closes
    have wholeFilled : whole ≠ [] := by
      rintro rfl
      exact Bool.noConfusion opens
    have wholeRead : digits (whole ++ '.' :: (fraction ++ after)) = whole :=
      digits_append inside rfl
    have fractionRead : digits (fraction ++ after) = fraction :=
      digits_append others (not_digit_of_atWordEnd closes)
    rw [List.append_assoc, List.cons_append]
    simp only [floatLiteral, wholeRead, List.drop_left, fractionRead]
    rw [if_pos ⟨wholeFilled, filled, closes⟩, List.length_append, List.length_cons, Nat.add_assoc,
      Nat.add_comm 1]

/-! ## Quoted literals and single characters -/

section

variable {quote : Char} {before : Option Char} {front after : List Char}

theorem matches_quotedChar :
    (Regex.quotedChar quote).Matches before front after ↔
      (∃ c, (c ≠ quote ∧ c ≠ '\\' ∧ c ≠ '\n') ∧ front = [c]) ∨
        ∃ c, c ≠ '\n' ∧ front = ['\\', c] := by
  rw [Regex.quotedChar, Regex.matches_either, Regex.matches_char, Regex.matches_seq_char]
  refine or_congr (by simp) ⟨?_, ?_⟩
  · rintro ⟨d, _, rfl, backslash, taken⟩
    obtain rfl : d = '\\' := by simpa using backslash
    obtain ⟨c, plain, rfl⟩ := Regex.matches_char.mp taken
    exact ⟨c, by simpa using plain, rfl⟩
  · rintro ⟨c, plain, rfl⟩
    exact ⟨'\\', [c], rfl, by simp, Regex.matches_char.mpr ⟨c, by simpa using plain, rfl⟩⟩

theorem quoteEnd_quote (read : Nat) (text : List Char) :
    quoteEnd quote read (quote :: text) = some (read + 1) := by
  rw [quoteEnd.eq_def]
  exact if_pos rfl

theorem quoteEnd_plain {c : Char} (plain : c ≠ quote ∧ c ≠ '\\' ∧ c ≠ '\n') (read : Nat)
    (text : List Char) : quoteEnd quote read (c :: text) = quoteEnd quote (read + 1) text := by
  rw [quoteEnd.eq_def]
  simp only [if_neg plain.1, if_neg plain.2.1, if_neg plain.2.2]

theorem quoteEnd_escaped (other : quote ≠ '\\') {c : Char} (plain : c ≠ '\n') (read : Nat)
    (text : List Char) :
    quoteEnd quote read ('\\' :: c :: text) = quoteEnd quote (read + 2) text := by
  rw [quoteEnd.eq_def]
  simp [other.symm, plain]

/-- What stands between quotes does not end them. -/
theorem quoteEnd_append (other : quote ≠ '\\') {read : Nat} {text : List Char}
    (between : (Regex.many true (.quotedChar quote)).Matches before front after) :
    quoteEnd quote read (front ++ text) = quoteEnd quote (read + front.length) text := by
  generalize same : Regex.many true (.quotedChar quote) = regex at between
  induction between generalizing read with
  | manyNone => rfl
  | manyMore one filled more _ ih =>
      obtain ⟨rfl, rfl⟩ := Regex.many.inj same
      rw [List.append_assoc, List.length_append, ← Nat.add_assoc, ← ih rfl]
      rcases matches_quotedChar.mp one with ⟨c, plain, rfl⟩ | ⟨c, plain, rfl⟩
      · exact quoteEnd_plain plain read _
      · exact quoteEnd_escaped other plain read _
  | _ => exact nomatch same

/-- The closing quote is the first that no backslash takes with it. -/
theorem exists_quoteEnd {read length : Nat} {text : List Char}
    (found : quoteEnd quote read text = some length) (before : Option Char) :
    ∃ front after, text = front ++ quote :: after ∧ length = read + front.length + 1 ∧
      (Regex.many true (.quotedChar quote)).Matches before front (quote :: after) := by
  fun_induction quoteEnd quote read text generalizing before with
  | case2 read text =>
      exact ⟨[], text, rfl, (Option.some.inj found).symm, .manyNone⟩
  | case6 read escaped rest plain noQuote _ ih =>
      obtain ⟨front, after, rfl, rfl, more⟩ := ih found (some escaped)
      refine ⟨'\\' :: escaped :: front, after, rfl, by simp only [List.length_cons]; omega, ?_⟩
      exact .manyMore (matches_quotedChar.mpr (.inr ⟨escaped, plain, rfl⟩)) (List.cons_ne_nil _ _)
        more
  | case7 read c text noQuote plain noSlash ih =>
      obtain ⟨front, after, rfl, rfl, more⟩ := ih found (some c)
      refine ⟨c :: front, after, rfl, by simp only [List.length_cons]; omega, ?_⟩
      exact .manyMore (matches_quotedChar.mpr (.inl ⟨c, ⟨noQuote, noSlash, plain⟩, rfl⟩))
        (List.cons_ne_nil _ _) more
  | _ => simp at found

theorem quoted_decides (other : quote ≠ '\\') :
    Scanner.Decides (quoted quote) (.quoted quote) := by
  constructor
  · intro text length measured
    unfold quoted at measured
    split at measured
    · rename_i c text
      rw [Option.ite_none_right_eq_some] at measured
      obtain ⟨rfl, ended⟩ := measured
      obtain ⟨front, after, rfl, rfl, between⟩ := exists_quoteEnd ended (some c)
      have closing : (Regex.char (.of [c])).Matches (lastChar (some c) front) [c] after :=
        .char (by simp)
      refine ⟨c :: (front ++ [c]), after, by simp, ?_,
        Regex.matches_seq_char.mpr ⟨c, _, rfl, by simp, .seq between closing⟩⟩
      rw [List.length_cons, List.length_append, List.length_singleton]
      omega
    · exact nomatch measured
  · intro front after matched
    obtain ⟨c, _, rfl, opening, more⟩ := Regex.matches_seq_char.mp matched
    obtain ⟨left, _, rfl, between, closing⟩ := Regex.matches_seq.mp more
    obtain ⟨d, closes, rfl⟩ := Regex.matches_char.mp closing
    obtain rfl : c = quote := by simpa using opening
    obtain rfl : d = c := by simpa using closes
    rw [List.cons_append, List.append_assoc, quoted, if_pos rfl, quoteEnd_append other between,
      List.singleton_append, quoteEnd_quote, List.length_cons, List.length_append,
      List.length_singleton, Nat.add_comm 1, Nat.add_right_comm]

/-- One character of a set is the only match of the set. -/
theorem single_decides {p : Char → Bool} {set : CharSet} (same : ∀ c, set.has c = p c) :
    Scanner.Decides (single p) (.char set) := by
  constructor
  · intro text length measured
    unfold single at measured
    split at measured
    · rename_i c text
      rw [Option.ite_none_right_eq_some, Option.some.injEq] at measured
      obtain ⟨inside, rfl⟩ := measured
      exact ⟨[c], text, rfl, rfl, .char ((same c).trans inside)⟩
    · exact nomatch measured
  · intro front after matched
    obtain ⟨c, inside, rfl⟩ := Regex.matches_char.mp matched
    exact if_pos ((same c).symm.trans inside)

end

end ClassSyntax

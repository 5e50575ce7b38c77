import ClassSyntax.Pattern
import Mathlib.Data.List.TakeWhile

/-!
# Lexemes on one line

A scanner leaves out a character that none of its lexemes holds. Only block comments and newlines hold a
newline. In particular the lexeme of a token does not, and `nextMatch` always finds one of the patterns.

* `patterns_oneLine`: the patterns of all other categories measure lexemes on one line.
* `nextMatch_mem`: where a text goes on, some pattern matches.
* `nextMatch_oneLine`: the lexeme of a token is on one line.
-/

namespace ClassSyntax

namespace Scanner

/-- Never measures a lexeme that this character is in. -/
def LeavesOut (excluded : Char) (scan : Scanner) : Prop :=
  ∀ text length, scan text = some length → excluded ∉ text.take length

end Scanner

namespace Lexeme

variable {excluded : Char}

theorem notMem_takeWhile {p : Char → Bool} (other : p excluded = false) (text : List Char) :
    excluded ∉ text.takeWhile p := by
  intro member
  rw [List.mem_takeWhile_imp member] at other
  exact Bool.noConfusion other

/-- What a predicate cuts off at the start of a text is what its length cuts off. -/
theorem take_length_takeWhile (p : Char → Bool) (text : List Char) :
    text.take (text.takeWhile p).length = text.takeWhile p :=
  (List.prefix_iff_eq_take.mp (List.takeWhile_prefix p)).symm

/-- The same behind a character that is cut off as well. -/
theorem take_succ_takeWhile (p : Char → Bool) (c : Char) (text : List Char) :
    (c :: text).take (1 + (text.takeWhile p).length) = c :: text.takeWhile p := by
  rw [Nat.add_comm, List.take_succ_cons, take_length_takeWhile]

/-- And behind several characters. -/
theorem take_append_takeWhile (front : List Char) (c : Char) (p : Char → Bool)
    (text : List Char) :
    (front ++ c :: text).take (front.length + 1 + (text.takeWhile p).length) =
      front ++ c :: text.takeWhile p := by
  rw [Nat.add_assoc, List.take_length_add_append, take_succ_takeWhile]

theorem take_length_of_isPrefixOf {front text : List Char}
    (starts : front.isPrefixOf text = true) : text.take front.length = front :=
  (List.prefix_iff_eq_take.mp (List.isPrefixOf_iff_prefix.mp starts)).symm

theorem lineComment_oneLine : Scanner.LeavesOut '\n' lineComment := by
  intro text length found
  unfold lineComment at found
  split at found
  · obtain rfl := Option.some.inj found
    rw [take_succ_takeWhile]
    simpa using notMem_takeWhile (by decide) _
  · simp at found

/-! ## Words and numbers -/

theorem isWordChar_of_isDigit {c : Char} (digit : c.isDigit = true) : isWordChar c = true := by
  simp [isWordChar, Char.isAlphanum, digit]

theorem isWordChar_of_isWordStart {c : Char} (starts : isWordStart c = true) :
    isWordChar c = true := by
  rcases Bool.or_eq_true_iff.mp starts with letter | underscore
  · simp [isWordChar, Char.isAlphanum, letter]
  · simp [isWordChar, underscore]

/-- No word starts with a character that no word holds. -/
theorem ne_of_isWordChar {c : Char} (other : isWordChar excluded = false)
    (inWord : isWordChar c = true) : excluded ≠ c := by
  rintro rfl
  exact Bool.noConfusion (inWord.symm.trans other)

theorem isDigit_of_not_isWordChar (other : isWordChar excluded = false) :
    excluded.isDigit = false := by
  rw [← Bool.not_eq_true]
  exact fun digit => Bool.noConfusion ((isWordChar_of_isDigit digit).symm.trans other)

theorem digits_leaveOut (other : isWordChar excluded = false) (text : List Char) :
    excluded ∉ digits text :=
  notMem_takeWhile (isDigit_of_not_isWordChar other) text

theorem oneOfWords_leavesOut (other : isWordChar excluded = false) (words : List String) :
    Scanner.LeavesOut excluded (oneOfWords words) := by
  intro text length found
  simp only [oneOfWords, Option.ite_none_right_eq_some, Option.some.injEq] at found
  obtain ⟨-, rfl⟩ := found
  rw [word, take_length_takeWhile]
  exact notMem_takeWhile other text

theorem identifier_leavesOut (other : isWordChar excluded = false) :
    Scanner.LeavesOut excluded identifier := by
  intro text length found
  unfold identifier at found
  split at found
  · rename_i c text
    simp only [Option.ite_none_right_eq_some, Option.some.injEq] at found
    obtain ⟨starts, rfl⟩ := found
    rw [word, take_succ_takeWhile, List.mem_cons, not_or]
    exact ⟨ne_of_isWordChar other (isWordChar_of_isWordStart starts), notMem_takeWhile other text⟩
  · simp at found

theorem invalidIdentifier_leavesOut (other : isWordChar excluded = false) :
    Scanner.LeavesOut excluded invalidIdentifier := by
  intro text length found
  unfold invalidIdentifier at found
  split at found
  · rename_i c text
    simp only [Option.ite_none_right_eq_some, Option.some.injEq] at found
    obtain ⟨starts, rfl⟩ := found
    rw [word, take_succ_takeWhile, List.mem_cons, not_or]
    exact ⟨ne_of_isWordChar other (isWordChar_of_isDigit starts), notMem_takeWhile other text⟩
  · simp at found

theorem intLiteral_leavesOut (other : isWordChar excluded = false) :
    Scanner.LeavesOut excluded intLiteral := by
  intro text length found
  simp only [intLiteral, Option.ite_none_right_eq_some, Option.some.injEq] at found
  obtain ⟨-, rfl⟩ := found
  rw [digits, take_length_takeWhile]
  exact digits_leaveOut other text

theorem floatLiteral_leavesOut (other : isWordChar excluded = false) (noPoint : excluded ≠ '.') :
    Scanner.LeavesOut excluded floatLiteral := by
  intro text length found
  simp only [floatLiteral] at found
  split at found
  · rename_i rest point
    simp only [Option.ite_none_right_eq_some, Option.some.injEq] at found
    obtain ⟨-, rfl⟩ := found
    -- the text is its digits, the point and what follows
    have whole : digits text ++ '.' :: rest = text := by
      conv => rhs; rw [← List.take_append_drop (digits text).length text]
      rw [point, digits, take_length_takeWhile]
    have measured := take_append_takeWhile (digits text) '.' Char.isDigit rest
    rw [whole, ← digits] at measured
    rw [measured, List.mem_append, List.mem_cons, not_or, not_or]
    exact ⟨digits_leaveOut other text, noPoint, digits_leaveOut other rest⟩
  · simp at found

/-! ## Quoted literals, operators and single characters -/

theorem quoteEnd_oneLine {quote : Char} (other : quote ≠ '\n') {read length : Nat}
    {text : List Char} (found : quoteEnd quote read text = some length) :
    ∃ taken, length = read + taken ∧ '\n' ∉ text.take taken := by
  fun_induction quoteEnd quote read text with
  | case2 read text =>
      exact ⟨1, (Option.some.inj found).symm, by simpa using other.symm⟩
  | case6 read escaped rest plain _ _ ih =>
      obtain ⟨taken, rfl, without⟩ := ih found
      refine ⟨taken + 2, by omega, ?_⟩
      simp only [List.take_succ_cons, List.mem_cons, not_or]
      exact ⟨by decide, Ne.symm plain, without⟩
  | case7 read c text _ plain _ ih =>
      obtain ⟨taken, rfl, without⟩ := ih found
      refine ⟨taken + 1, by omega, ?_⟩
      simp only [List.take_succ_cons, List.mem_cons, not_or]
      exact ⟨Ne.symm plain, without⟩
  | _ => simp at found

theorem quoted_oneLine {quote : Char} (other : quote ≠ '\n') :
    Scanner.LeavesOut '\n' (quoted quote) := by
  intro text length found
  unfold quoted at found
  split at found
  · simp only [Option.ite_none_right_eq_some] at found
    obtain ⟨rfl, ended⟩ := found
    obtain ⟨taken, rfl, without⟩ := quoteEnd_oneLine other ended
    rw [Nat.add_comm, List.take_succ_cons, List.mem_cons, not_or]
    exact ⟨other.symm, without⟩
  · simp at found

theorem operator_leavesOut (other : ∀ symbol ∈ operators, excluded ∉ symbol.toList) :
    Scanner.LeavesOut excluded operator := by
  intro text length found
  obtain ⟨symbol, first, rfl⟩ := Option.map_eq_some_iff.mp found
  have starts := List.find?_some first
  rw [← String.length_toList, take_length_of_isPrefixOf starts]
  exact other symbol (List.mem_of_find?_eq_some first)

theorem single_leavesOut {p : Char → Bool} (other : p excluded = false) :
    Scanner.LeavesOut excluded (single p) := by
  intro text length found
  unfold single at found
  split at found
  · rename_i c text
    simp only [Option.ite_none_right_eq_some, Option.some.injEq] at found
    obtain ⟨chosen, rfl⟩ := found
    rw [List.take_succ_cons, List.take_zero, List.mem_singleton]
    rintro rfl
    rw [chosen] at other
    exact Bool.noConfusion other
  · simp at found

theorem whitespace_oneLine : Scanner.LeavesOut '\n' whitespace := by
  intro text length found
  simp only [whitespace, Option.ite_none_right_eq_some, Option.some.injEq] at found
  obtain ⟨-, rfl⟩ := found
  rw [take_length_takeWhile]
  exact notMem_takeWhile (by decide) text

end Lexeme

theorem patterns_oneLine : ∀ pattern ∈ patterns,
    pattern.kind ≠ .blockComment → pattern.kind ≠ .newline →
      Scanner.LeavesOut '\n' pattern.scan := by
  simp only [patterns, List.forall_mem_cons]
  refine ⟨fun block _ => absurd rfl block, fun _ _ => Lexeme.lineComment_oneLine,
    fun _ _ => Lexeme.oneOfWords_leavesOut (by decide) _,
    fun _ _ => Lexeme.oneOfWords_leavesOut (by decide) _,
    fun _ _ => Lexeme.operator_leavesOut (by decide),
    fun _ _ => Lexeme.floatLiteral_leavesOut (by decide) (by decide),
    fun _ _ => Lexeme.intLiteral_leavesOut (by decide),
    fun _ _ => Lexeme.identifier_leavesOut (by decide),
    fun _ _ => Lexeme.invalidIdentifier_leavesOut (by decide),
    fun _ _ => Lexeme.quoted_oneLine (by decide), fun _ _ => Lexeme.quoted_oneLine (by decide),
    fun _ _ => Lexeme.single_leavesOut (by decide), fun _ newline => absurd rfl newline,
    fun _ _ => Lexeme.whitespace_oneLine, fun _ _ => Lexeme.single_leavesOut (by decide),
    by simp⟩

/-- The lexeme of a token is on one line. -/
theorem patterns_oneLine_of_shown {pattern : Pattern} (listed : pattern ∈ patterns)
    (shown : pattern.kind.isTrivia = false) : Scanner.LeavesOut '\n' pattern.scan := by
  refine patterns_oneLine pattern listed ?_ ?_
  all_goals
    rintro trivia
    rw [trivia] at shown
    exact Bool.noConfusion shown

/-! ## What the next match is -/

theorem Match.firstLongest_eq_none {candidates : List Match} :
    firstLongest candidates = none ↔ candidates = [] := by
  cases candidates with
  | nil => simp [firstLongest]
  | cons first rest =>
      simp only [firstLongest, reduceCtorEq, iff_false]
      split
      · simp
      · split <;> simp

/-- Where nothing is longer than the first match, it is chosen. -/
theorem Match.firstLongest_cons {first : Match} {rest : List Match}
    (bound : ∀ other ∈ rest, other.length ≤ first.length) :
    firstLongest (first :: rest) = some first := by
  rw [firstLongest]
  split
  · rfl
  · rename_i best longest
    rw [if_neg (Nat.not_lt.mpr (bound best (firstLongest_mem longest)))]

/-- Where a text goes on, a newline or else any other character matches. -/
theorem Match.all_patterns_ne_nil {text : List Char} (unread : text ≠ []) :
    all patterns text ≠ [] := by
  obtain ⟨c, rest, rfl⟩ := List.exists_cons_of_ne_nil unread
  by_cases newline : c = '\n'
  · refine List.ne_nil_of_mem (a := ⟨.newline, 1⟩) (List.mem_filterMap.mpr ?_)
    exact ⟨⟨.newline, Lexeme.newline⟩, by simp [patterns], by simp [Lexeme.newline,
      Lexeme.single, newline]⟩
  · refine List.ne_nil_of_mem (a := ⟨.invalid, 1⟩) (List.mem_filterMap.mpr ?_)
    exact ⟨⟨.invalid, Lexeme.anyChar⟩, by simp [patterns], by simp [Lexeme.anyChar,
      Lexeme.single, newline]⟩

/-- Where a text goes on, the patterns compete for its next match, and none is made up. -/
theorem firstLongest_nextMatch {text : List Char} (unread : text ≠ []) :
    Match.firstLongest (Match.all patterns text) = some (nextMatch text) := by
  unfold nextMatch
  cases longest : Match.firstLongest (Match.all patterns text) with
  | none => exact absurd (Match.firstLongest_eq_none.mp longest) (Match.all_patterns_ne_nil unread)
  | some best => rfl

/-- The first category that has a lexeme takes it, unless a later one has a longer lexeme. -/
theorem nextMatch_of_first {before later : List Pattern} {pattern : Pattern} {text : List Char}
    {length : Nat} (split : patterns = before ++ pattern :: later)
    (missed : ∀ earlier ∈ before, earlier.scan text = none)
    (measured : pattern.scan text = some length)
    (bound : ∀ other ∈ later, ∀ longer, other.scan text = some longer → longer ≤ length) :
    nextMatch text = ⟨pattern.kind, length⟩ := by
  have none : Match.all before text = [] :=
    List.filterMap_eq_nil_iff.mpr fun earlier listed =>
      Option.map_eq_none_iff.mpr (missed earlier listed)
  have candidates : Match.all patterns text = ⟨pattern.kind, length⟩ :: Match.all later text := by
    rw [split, Match.all, List.filterMap_append, ← Match.all, none, List.nil_append,
      List.filterMap_cons, measured]
    rfl
  rw [nextMatch, candidates, Match.firstLongest_cons]
  · rfl
  · intro other member
    obtain ⟨candidate, listed, scanned⟩ := List.mem_filterMap.mp member
    obtain ⟨longer, found, rfl⟩ := Option.map_eq_some_iff.mp scanned
    exact bound candidate listed longer found

/-- Where a text goes on, its next match is that of a pattern. -/
theorem nextMatch_mem {text : List Char} (unread : text ≠ []) :
    ∃ pattern ∈ patterns, pattern.kind = (nextMatch text).kind ∧
      pattern.scan text = some (nextMatch text).length := by
  have longest := Match.firstLongest_mem (firstLongest_nextMatch unread)
  obtain ⟨pattern, listed, scanned⟩ := List.mem_filterMap.mp longest
  obtain ⟨length, measured, same⟩ := Option.map_eq_some_iff.mp scanned
  rw [← same]
  exact ⟨pattern, listed, rfl, measured⟩

theorem nextMatch_oneLine {text : List Char} (unread : text ≠ [])
    (significant : (nextMatch text).kind.isTrivia = false) :
    '\n' ∉ text.take (nextMatch text).length := by
  obtain ⟨pattern, listed, kind, measured⟩ := nextMatch_mem unread
  exact patterns_oneLine_of_shown listed (kind ▸ significant) text _ measured

theorem patterns_kind_ne_endOfInput : ∀ pattern ∈ patterns, pattern.kind ≠ .endOfInput := by
  simp [patterns]

theorem nextMatch_kind_ne_endOfInput (text : List Char) : (nextMatch text).kind ≠ .endOfInput := by
  by_cases unread : text = []
  · rw [unread]
    decide
  · obtain ⟨pattern, listed, kind, -⟩ := nextMatch_mem unread
    rw [← kind]
    exact patterns_kind_ne_endOfInput pattern listed

end ClassSyntax

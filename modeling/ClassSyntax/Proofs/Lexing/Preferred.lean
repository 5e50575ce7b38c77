import ClassSyntax.Proofs.Lexing.Lexicon

/-!
# Preferred matches

Line comments, whitespace, operators and block comments may match a text in more than one way. A matcher
prefers the most rounds of a line comment or of whitespace, the operator that is listed first, and the
fewest rounds of a block comment.

* `Regex.scan_greedy_cons`, `Regex.scan_words`, `Regex.scan_blockComment`: what is preferred.
* `Regex.length_le_of_greedy`, `operator_longest`: it is longest.
* `blockComment_eq_some`: a block comment ends with the first end mark.
-/

namespace ClassSyntax

open Lexeme

theorem Split.map_behind_nil (found : List Split) : found.map (Split.behind []) = found :=
  List.map_id found

namespace Regex

variable {before : Option Char}

/-! ## Loops over a set of characters -/

theorem splits_many_char_cons (greedy : Bool) (set : CharSet) (c : Char) (text : List Char) :
    (many greedy (char set)).splits before (c :: text) =
      if set.has c then
        let more := ((many greedy (char set)).splits (some c) text).map (Split.behind [c])
        if greedy then more ++ [⟨[], c :: text⟩] else ⟨[], c :: text⟩ :: more
      else [⟨[], c :: text⟩] := by
  rw [splits, rounds_eq]
  cases inside : set.has c <;> cases greedy <;> simp [splits, inside, lastChar]

theorem splits_many_char_nil (greedy : Bool) (set : CharSet) :
    (many greedy (char set)).splits before [] = [⟨[], []⟩] := by
  rw [splits, rounds_eq]
  cases greedy <;> rfl

/-- Most rounds take all the characters of the set. -/
theorem head?_splits_greedy (set : CharSet) (text : List Char) :
    ((many true (char set)).splits before text).head? =
      some ⟨text.takeWhile set.has, text.dropWhile set.has⟩ := by
  induction text generalizing before with
  | nil =>
      rw [splits_many_char_nil]
      rfl
  | cons c text ih =>
      rw [splits_many_char_cons]
      cases inside : set.has c with
      | true =>
          rw [if_pos rfl, if_pos rfl, List.head?_append, List.head?_map, ih]
          simp [inside, Split.behind]
      | false =>
          rw [if_neg (by decide), List.takeWhile_cons_of_neg (by simpa using inside),
            List.dropWhile_cons_of_neg (by simpa using inside)]
          rfl

theorem splits_seq_char_cons (set : CharSet) (more : Regex) (c : Char) (text : List Char) :
    (seq (char set) more).splits before (c :: text) =
      if set.has c then (more.splits (some c) text).map (Split.behind [c]) else [] := by
  cases inside : set.has c <;> simp [splits, inside, lastChar]

/-- A character of one set and as many as possible of another. -/
def greedy (first others : CharSet) : Regex := seq (char first) (many true (char others))

theorem scan_greedy_cons (first others : CharSet) (c : Char) (text : List Char) :
    (greedy first others).scan (c :: text) =
      if first.has c then some (1 + (text.takeWhile others.has).length) else none := by
  rw [scan, greedy, splits_seq_char_cons]
  cases first.has c with
  | true =>
      rw [if_pos rfl, if_pos rfl, List.head?_map, head?_splits_greedy]
      exact congrArg some (Nat.add_comm _ _)
  | false => rfl

/-- All matches are as long as the preferred one at most. -/
theorem length_le_of_greedy {first others : CharSet} {front after : List Char}
    (matched : (greedy first others).Matches none front after) :
    ∃ length, (greedy first others).scan (front ++ after) = some length ∧
      front.length ≤ length := by
  obtain ⟨c, tail, rfl, inside, more⟩ := matches_seq_char.mp matched
  rw [List.cons_append, scan_greedy_cons, if_pos inside,
    List.takeWhile_append_of_pos (matches_many_char.mp more)]
  refine ⟨_, rfl, ?_⟩
  rw [List.length_cons, List.length_append]
  omega

/-! ## Words in the order of a list -/

theorem splits_literal (letters text : List Char) :
    (literal letters).splits before text =
      if letters.isPrefixOf text then [⟨letters, text.drop letters.length⟩] else [] := by
  induction letters generalizing before text with
  | nil => rfl
  | cons c letters ih =>
      cases text with
      | nil => rfl
      | cons d text =>
          rw [literal, splits_seq_char_cons, ih, CharSet.has_of, List.isPrefixOf_cons_cons]
          by_cases same : c = d
          · subst same
            cases letters.isPrefixOf text <;> simp [Split.behind]
          · simp [same, Ne.symm same]

theorem scan_words (listed : List String) (text : List Char) :
    (words listed).scan text =
      (listed.find? fun word => word.toList.isPrefixOf text).map String.length := by
  induction listed with
  | nil => cases text <;> rfl
  | cons word listed ih =>
      have parts : (words (word :: listed)).splits none text =
          (literal word.toList).splits none text ++ (words listed).splits none text := rfl
      unfold scan at ih ⊢
      rw [parts, splits_literal]
      cases starts : word.toList.isPrefixOf text with
      | true => simp [List.find?_cons_of_pos, starts, String.length_toList]
      | false => simpa [List.find?_cons_of_neg, starts] using ih

end Regex

/-- No operator is the start of a later one. -/
theorem operators_pairwise :
    operators.Pairwise fun first later => ¬ first.toList <+: later.toList := by decide

/-- The first operator at the start of a text is the longest. -/
theorem operator_longest {text : List Char} {symbol other : String}
    (found : (operators.find? fun symbol => symbol.toList.isPrefixOf text) = some symbol)
    (listed : other ∈ operators) (starts : other.toList <+: text) :
    other.length ≤ symbol.length := by
  obtain ⟨here, before, later, split, noneBefore⟩ := List.find?_eq_some_iff_append.mp found
  have ordered := operators_pairwise
  rw [split] at listed ordered
  have begins := List.isPrefixOf_iff_prefix.mp here
  rcases List.mem_append.mp listed with sooner | rest
  · have excluded := noneBefore other sooner
    rw [List.isPrefixOf_iff_prefix.mpr starts] at excluded
    exact nomatch excluded
  · rcases List.mem_cons.mp rest with rfl | behind
    · exact Nat.le_refl _
    · have unlike := (List.pairwise_cons.mp (List.pairwise_append.mp ordered).2.1).1 other behind
      rcases List.prefix_or_prefix_of_prefix begins starts with inside | inside
      · exact absurd inside unlike
      · simpa [String.length_toList] using inside.length_le

/-! ## Block comments -/

namespace Regex

variable {before : Option Char}

/-- Fewest rounds first: with none of them, and then with one more than the rest of the text allows. -/
theorem splits_lazy_cons (set : CharSet) (more : Regex) (c : Char) (text : List Char) :
    (seq (many false (char set)) more).splits before (c :: text) =
      more.splits before (c :: text) ++
        if set.has c then
          ((seq (many false (char set)) more).splits (some c) text).map (Split.behind [c])
        else [] := by
  rw [splits, splits_many_char_cons]
  cases set.has c with
  | true =>
      simp only [if_true, Bool.false_eq_true, if_false, List.flatMap_cons, List.flatMap_map, splits,
        List.map_flatMap, List.map_map, Split.map_behind_nil]
      rfl
  | false =>
      simp only [Bool.false_eq_true, if_false, List.flatMap_singleton, List.append_nil,
        Split.map_behind_nil]
      rfl

theorem splits_lazy_nil (set : CharSet) (more : Regex) :
    (seq (many false (char set)) more).splits before [] = more.splits before [] := by
  rw [splits, splits_many_char_nil, List.flatMap_singleton, Split.map_behind_nil]
  rfl

/-- The end mark that is found is the first one. -/
theorem head?_splits_commentEnd (read : Nat) (text : List Char) (before : Option Char) :
    blockCommentEnd read text =
      ((seq (many false (char (.but []))) (literal ['~', '*', '/'])).splits before text).head?.map
        fun split => read + split.word.length := by
  fun_induction blockCommentEnd read text generalizing before with
  | case1 read text =>
      rw [splits_lazy_cons, splits_literal]
      rfl
  | case2 read c text other ih =>
      have noMark : ['~', '*', '/'].isPrefixOf (c :: text) = false := by
        rw [← Bool.not_eq_true, List.isPrefixOf_iff_prefix]
        rintro ⟨tail, same⟩
        obtain ⟨rfl, rfl⟩ := List.cons_eq_cons.mp same
        exact other tail rfl rfl
      have any : (CharSet.but []).has c = true := by simp
      rw [splits_lazy_cons, splits_literal, if_neg (by simp [noMark]), if_pos any, List.nil_append,
        List.head?_map, ih (some c), Option.map_map]
      congr 1
      funext split
      simp [Split.behind]
      omega
  | case3 read =>
      rw [splits_lazy_nil, splits_literal]
      rfl

theorem scan_blockComment : Kind.blockComment.regex.scan = blockComment := by
  funext text
  simp only [scan, Kind.regex, all]
  rw [splits, splits_literal]
  by_cases starts : ['/', '*', '~'].isPrefixOf text
  · obtain ⟨text, rfl⟩ := List.isPrefixOf_iff_prefix.mp starts
    rw [if_pos starts, List.flatMap_singleton, List.head?_map, Option.map_map]
    refine Eq.trans (congrArg (Option.map · _) (funext fun split => ?_))
      (head?_splits_commentEnd 3 text (some '~')).symm
    exact List.length_append
  · rw [if_neg starts, List.flatMap_nil, blockComment]
    · rfl
    · rintro rest rfl
      exact starts rfl

end Regex

/-- An end mark before the one that a comment ends with is the next one, or is behind the next
character. -/
theorem endMark_infix_cons (c : Char) (inner after : List Char) :
    ['~', '*', '/'] <:+: c :: inner ++ ['~', '*'] ↔
      ['~', '*', '/'] <+: c :: (inner ++ '~' :: '*' :: '/' :: after) ∨
        ['~', '*', '/'] <:+: inner ++ ['~', '*'] := by
  have longer : c :: inner ++ ['~', '*'] <+: c :: (inner ++ '~' :: '*' :: '/' :: after) :=
    ⟨'/' :: after, by simp⟩
  rw [List.cons_append, List.infix_cons_iff]
  refine or_congr_left ⟨fun next => next.trans longer, fun next => ?_⟩
  exact List.prefix_of_prefix_length_le next longer (by simp)

/-- The end mark that is found is the first one. -/
theorem blockCommentEnd_eq_some {read length : Nat} {text : List Char} :
    blockCommentEnd read text = some length ↔
      ∃ inner after, text = inner ++ '~' :: '*' :: '/' :: after ∧
        length = read + inner.length + 3 ∧ ¬ ['~', '*', '/'] <:+: inner ++ ['~', '*'] := by
  fun_induction blockCommentEnd read text with
  | case1 read text =>
      constructor
      · intro found
        exact ⟨[], text, rfl, (Option.some.inj found).symm, by decide⟩
      · rintro ⟨inner, after, same, rfl, first⟩
        cases inner with
        | nil => rfl
        | cons c inner =>
            rw [endMark_infix_cons c inner after] at first
            exact absurd (.inl ⟨text, same⟩) first
  | case2 read c text noMark ih =>
      rw [ih]
      constructor
      · rintro ⟨inner, after, rfl, rfl, first⟩
        refine ⟨c :: inner, after, rfl, by rw [List.length_cons]; omega, ?_⟩
        rw [endMark_infix_cons c inner after, not_or]
        refine ⟨?_, first⟩
        rintro ⟨more, same⟩
        obtain ⟨rfl, next⟩ := List.cons_eq_cons.mp same
        exact noMark more rfl next.symm
      · rintro ⟨inner, after, same, rfl, first⟩
        cases inner with
        | nil =>
            obtain ⟨rfl, rfl⟩ := List.cons_eq_cons.mp same
            exact absurd rfl (noMark after rfl)
        | cons d inner =>
            obtain ⟨rfl, rfl⟩ := List.cons_eq_cons.mp same
            rw [endMark_infix_cons c inner after, not_or] at first
            exact ⟨inner, after, rfl, by rw [List.length_cons]; omega, first.2⟩
  | case3 read =>
      refine iff_of_false (by simp) ?_
      rintro ⟨inner, after, same, -⟩
      exact absurd same.symm (by simp)

theorem blockComment_eq_some {length : Nat} {text : List Char} :
    blockComment text = some length ↔
      ∃ inner after, text = '/' :: '*' :: '~' :: (inner ++ '~' :: '*' :: '/' :: after) ∧
        length = 3 + inner.length + 3 ∧ ¬ ['~', '*', '/'] <:+: inner ++ ['~', '*'] := by
  unfold blockComment
  split
  · simp only [blockCommentEnd_eq_some, List.cons.injEq, true_and]
  · rename_i noStart
    refine iff_of_false (by simp) ?_
    rintro ⟨inner, after, rfl, -⟩
    exact noStart _ rfl

/-! ## Comments up to the end of a line, whitespace, operators -/

theorem has_of_eq (chars : List Char) : (CharSet.of chars).has = chars.contains :=
  funext (CharSet.has_of chars)

theorem has_newline : (CharSet.of ['\n']).has = (· == '\n') := by
  funext c
  by_cases newline : c = '\n' <;> simp [newline]

theorem has_notNewline : (CharSet.but ['\n']).has = (· != '\n') := by
  funext c
  by_cases newline : c = '\n' <;> simp [newline]

theorem scan_lineComment : Kind.lineComment.regex.scan = lineComment := by
  funext text
  cases text with
  | nil => rfl
  | cons c text =>
      refine (Regex.scan_greedy_cons (.of ['#']) (.but ['\n']) c text).trans ?_
      rw [has_notNewline]
      by_cases hash : c = '#'
      · subst hash
        rfl
      · rw [if_neg (by simpa using hash), lineComment]
        exact fun rest same => hash (List.cons_eq_cons.mp same).1

theorem scan_whitespace : Kind.whitespace.regex.scan = whitespace := by
  funext text
  cases text with
  | nil => rfl
  | cons c text =>
      refine (Regex.scan_greedy_cons (.of [' ', '\t', '\r']) _ c text).trans ?_
      rw [has_of_eq, whitespace, List.takeWhile_cons]
      cases [' ', '\t', '\r'].contains c with
      | true => exact congrArg some (Nat.add_comm _ _)
      | false => rfl

/-- The first operator of the table is the one that is preferred. -/
theorem scan_operator : Kind.operator.regex.scan = operator :=
  funext (Regex.scan_words operators)

theorem length_le_of_operator {front after : List Char}
    (matched : Kind.operator.regex.Matches none front after) :
    ∃ length, Kind.operator.regex.scan (front ++ after) = some length ∧
      front.length ≤ length := by
  obtain ⟨length, preferred⟩ := Regex.scan_of_matches matched
  refine ⟨length, preferred, ?_⟩
  obtain ⟨other, listed, rfl⟩ := Regex.matches_words.mp matched
  rw [scan_operator, operator] at preferred
  obtain ⟨symbol, found, rfl⟩ := Option.map_eq_some_iff.mp preferred
  rw [String.length_toList]
  exact operator_longest found listed (List.prefix_append _ _)

end ClassSyntax

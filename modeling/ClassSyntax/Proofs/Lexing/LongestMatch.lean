import ClassSyntax.Proofs.Lexing.Preferred

/-!
# Maximal munch

The lexeme at the start of a text is the longest that any category matches there, and the first of the
categories with one as long takes it. A scanner measures the preferred match of its expression, so this
rests on the preferred match being the longest. A block comment has but one that ends with the first end
mark.

* `Pattern.Measures`: what a scanner measures, and the words of its category.
* `Match.firstLongest_wins`: the first of the longest matches is chosen.
* `nextMatch_maximal`: the next match is the maximal munch.
-/

namespace ClassSyntax

open Lexeme

/-! ## The words of a category -/

/-- The category matches this word at the start of a text. A block comment ends with the first end
mark behind its start mark. -/
def Kind.Matches (kind : Kind) (text word : List Char) : Prop :=
  ∃ after, text = word ++ after ∧ kind.regex.Matches none word after ∧
    (kind = .blockComment → ¬ ['~', '*', '/'] <:+: (word.drop 3).dropLast)

theorem matches_blockComment {text word : List Char} :
    Kind.blockComment.Matches text word ↔
      ∃ inner after, text = '/' :: '*' :: '~' :: (inner ++ '~' :: '*' :: '/' :: after) ∧
        word = '/' :: '*' :: '~' :: (inner ++ ['~', '*', '/']) ∧
          ¬ ['~', '*', '/'] <:+: inner ++ ['~', '*'] := by
  have middle (inner : List Char) :
      (('/' :: '*' :: '~' :: (inner ++ ['~', '*', '/'])).drop 3).dropLast = inner ++ ['~', '*'] :=
    List.dropLast_append_of_ne_nil (List.cons_ne_nil _ _)
  simp only [Kind.Matches, Kind.regex, Regex.all, Regex.matches_seq, Regex.matches_literal,
    Regex.matches_many_char, forall_const]
  constructor
  · rintro ⟨after, rfl, ⟨_, _, rfl, rfl, inner, _, rfl, -, rfl⟩, first⟩
    refine ⟨inner, after, by simp, rfl, ?_⟩
    rw [← middle]
    exact first
  · rintro ⟨inner, after, rfl, rfl, first⟩
    refine ⟨after, by simp, ⟨_, _, rfl, rfl, inner, _, rfl, by simp, rfl⟩, ?_⟩
    rwa [middle]

theorem length_blockComment (inner : List Char) :
    ('/' :: '*' :: '~' :: (inner ++ ['~', '*', '/'])).length = 3 + inner.length + 3 := by
  simp only [List.length_cons, List.length_append, List.length_nil]
  omega

/-- A scanner finds the match that is preferred, and there is no longer word. -/
structure Pattern.Measures (pattern : Pattern) : Prop where
  preferred : pattern.kind.regex.scan = pattern.scan
  found : ∀ {text length}, pattern.scan text = some length →
    ∃ word, word.length = length ∧ pattern.kind.Matches text word
  longest : ∀ {text word}, pattern.kind.Matches text word →
    ∃ length, pattern.scan text = some length ∧ word.length ≤ length

namespace Pattern.Measures

variable {kind : Kind} {scan : Scanner}

/-- What is preferred is the longest match. -/
theorem of_longest (other : kind ≠ .blockComment) (preferred : kind.regex.scan = scan)
    (bound : ∀ {word after}, kind.regex.Matches none word after →
      ∃ length, kind.regex.scan (word ++ after) = some length ∧ word.length ≤ length) :
    Measures ⟨kind, scan⟩ where
  preferred := preferred
  found := by
    intro text length measured
    obtain ⟨word, after, rfl, rfl, matched⟩ :=
      Regex.matches_of_scan ((congrFun preferred text).trans measured)
    exact ⟨word, rfl, after, rfl, matched, fun block => absurd block other⟩
  longest := by
    rintro text word ⟨after, rfl, matched, -⟩
    exact preferred ▸ bound matched

/-- There is but one match. -/
theorem of_decides (other : kind ≠ .blockComment) (decides : scan.Decides kind.regex) :
    Measures ⟨kind, scan⟩ := by
  refine of_longest other decides.scan_eq fun {word after} matched => ?_
  exact ⟨word.length, decides.scan_eq ▸ decides.only matched, Nat.le_refl _⟩

theorem of_blockComment : Measures ⟨.blockComment, blockComment⟩ where
  preferred := Regex.scan_blockComment
  found := by
    intro text length measured
    obtain ⟨inner, after, rfl, rfl, first⟩ := blockComment_eq_some.mp measured
    refine ⟨_, ?_, matches_blockComment.mpr ⟨inner, after, rfl, rfl, first⟩⟩
    rw [length_blockComment]
  longest := by
    intro text word matched
    obtain ⟨inner, after, same, rfl, first⟩ := matches_blockComment.mp matched
    refine ⟨_, blockComment_eq_some.mpr ⟨inner, after, same, rfl, first⟩, ?_⟩
    rw [length_blockComment]

end Pattern.Measures

theorem patterns_measure : ∀ pattern ∈ patterns, pattern.Measures := by
  simp only [patterns, List.forall_mem_cons]
  exact ⟨.of_blockComment,
    .of_longest (by decide) scan_lineComment Regex.length_le_of_greedy,
    .of_decides (by decide) (oneOfWords_decides (by decide)),
    .of_decides (by decide) (oneOfWords_decides (by decide)),
    .of_longest (by decide) scan_operator length_le_of_operator,
    .of_decides (by decide) floatLiteral_decides,
    .of_decides (by decide) intLiteral_decides,
    .of_decides (by decide) identifier_decides,
    .of_decides (by decide) invalidIdentifier_decides,
    .of_decides (by decide) (quoted_decides (by decide)),
    .of_decides (by decide) (quoted_decides (by decide)),
    .of_decides (by decide) (single_decides (CharSet.has_of _)),
    .of_decides (by decide) (single_decides (congrFun has_newline)),
    .of_longest (by decide) scan_whitespace Regex.length_le_of_greedy,
    .of_decides (by decide) (single_decides (congrFun has_notNewline)), by simp⟩

/-! ## The winner -/

namespace Match

/-- The first of the longest: those before it are shorter, and those behind it are no longer. -/
def Wins (best : Match) (candidates : List Match) : Prop :=
  ∃ before later, candidates = before ++ best :: later ∧
    (∀ other ∈ before, other.length < best.length) ∧ ∀ other ∈ later, other.length ≤ best.length

theorem Wins.le {best other : Match} {candidates : List Match} (wins : best.Wins candidates)
    (member : other ∈ candidates) : other.length ≤ best.length := by
  obtain ⟨before, later, rfl, shorter, bound⟩ := wins
  rcases List.mem_append.mp member with sooner | rest
  · exact Nat.le_of_lt (shorter other sooner)
  · rcases List.mem_cons.mp rest with rfl | behind
    · exact Nat.le_refl _
    · exact bound other behind

theorem firstLongest_wins {candidates : List Match} {best : Match}
    (longest : firstLongest candidates = some best) : best.Wins candidates := by
  induction candidates generalizing best with
  | nil => simp [firstLongest] at longest
  | cons first rest ih =>
      rw [firstLongest] at longest
      split at longest
      · rename_i noOther
        obtain rfl := Option.some.inj longest
        rw [firstLongest_eq_none.mp noOther]
        exact ⟨[], [], rfl, by simp, by simp⟩
      · rename_i other others
        split at longest
        · rename_i more
          obtain rfl := Option.some.inj longest
          obtain ⟨before, later, rfl, shorter, bound⟩ := ih others
          exact ⟨first :: before, later, rfl, List.forall_mem_cons.mpr ⟨more, shorter⟩, bound⟩
        · rename_i noMore
          obtain rfl := Option.some.inj longest
          exact ⟨[], rest, rfl, by simp, fun later member =>
            ((ih others).le member).trans (Nat.le_of_not_lt noMore)⟩

theorem mem_all {candidates : List Pattern} {pattern : Pattern} {text : List Char} {length : Nat}
    (listed : pattern ∈ candidates) (measured : pattern.scan text = some length) :
    ⟨pattern.kind, length⟩ ∈ all candidates text :=
  List.mem_filterMap.mpr ⟨pattern, listed, congrArg (Option.map _) measured⟩

/-- Scanners before the one that wins measure less, and none measures more. -/
theorem Wins.scans {candidates : List Pattern} {text : List Char} {best : Match}
    (wins : best.Wins (all candidates text)) :
    ∃ before pattern later, candidates = before ++ pattern :: later ∧
      pattern.kind = best.kind ∧ pattern.scan text = some best.length ∧
      (∀ earlier ∈ before, ∀ length, earlier.scan text = some length → length < best.length) ∧
      ∀ other ∈ candidates, ∀ length, other.scan text = some length → length ≤ best.length := by
  have longest : ∀ other ∈ candidates, ∀ length, other.scan text = some length →
      length ≤ best.length := fun other listed length measured =>
    wins.le (mem_all listed measured)
  obtain ⟨sooner, behind, split, shorter, -⟩ := wins
  -- patterns that measure nothing stand between those whose matches are listed
  obtain ⟨before, rest, rfl, rfl, others⟩ := List.filterMap_eq_append_iff.mp split
  obtain ⟨skipped, pattern, later, rfl, missed, scanned, -⟩ := List.filterMap_eq_cons_iff.mp others
  obtain ⟨length, measured, rfl⟩ := Option.map_eq_some_iff.mp scanned
  refine ⟨before ++ skipped, pattern, later, by simp, rfl, measured, ?_, longest⟩
  rw [List.forall_mem_append]
  refine ⟨fun earlier listed length found => shorter _ (mem_all listed found), ?_⟩
  intro earlier listed length found
  rw [Option.map_eq_none_iff.mp (missed earlier listed)] at found
  exact nomatch found

end Match

/-! ## Maximal munch -/

/-- Every category but the last has its say before a character is invalid. -/
theorem invalid_last : patterns.Pairwise fun first _ => first.kind ≠ .invalid := by
  simp [patterns]

/-- Scanners of categories before the one that wins measure less, and none measures more. -/
theorem nextMatch_scans {text : List Char} (unread : text ≠ []) :
    ∃ before pattern later, patterns = before ++ pattern :: later ∧
      pattern.kind = (nextMatch text).kind ∧ pattern.scan text = some (nextMatch text).length ∧
      (∀ earlier ∈ before, ∀ length, earlier.scan text = some length →
        length < (nextMatch text).length) ∧
      ∀ other ∈ patterns, ∀ length, other.scan text = some length →
        length ≤ (nextMatch text).length :=
  (Match.firstLongest_wins (firstLongest_nextMatch unread)).scans

theorem nextMatch_matches {text : List Char} (unread : text ≠ []) :
    ∃ lexeme, lexeme.length = (nextMatch text).length ∧
      (nextMatch text).kind.Matches text lexeme := by
  obtain ⟨pattern, listed, kind, measured⟩ := nextMatch_mem unread
  rw [← kind]
  exact (patterns_measure pattern listed).found measured

/-- Where an invalid character is next, no other scanner measures a lexeme. -/
theorem scan_of_invalid {text : List Char} (unread : text ≠ [])
    (invalid : (nextMatch text).kind = .invalid) (one : (nextMatch text).length = 1) :
    ∀ pattern ∈ patterns, pattern.kind ≠ .invalid → pattern.scan text = none := by
  intro other listed valid
  obtain ⟨before, pattern, later, split, kind, -, shorter, -⟩ := nextMatch_scans unread
  have sooner : other ∈ before := by
    have last := invalid_last
    rw [split] at last listed
    rcases List.mem_append.mp listed with sooner | rest
    · exact sooner
    · rcases List.mem_cons.mp rest with rfl | behind
      · exact absurd (kind.trans invalid) valid
      · exact absurd (kind.trans invalid)
          ((List.pairwise_cons.mp (List.pairwise_append.mp last).2.1).1 other behind)
  rw [Option.eq_none_iff_forall_ne_some]
  intro length measured
  -- a lexeme that is shorter than one character would be empty
  have positive := patterns_positive other listed text length measured
  have less := shorter other sooner length measured
  omega

theorem length_of_invalid {text word : List Char} (matched : Kind.invalid.Matches text word) :
    word.length = 1 := by
  obtain ⟨_, -, matched, -⟩ := matched
  obtain ⟨c, -, rfl⟩ := Regex.matches_char.mp matched
  rfl

/-- The operator that is next is the longest of the table that the text starts with. -/
theorem nextMatch_operator {text lexeme : List Char} (unread : text ≠ [])
    (isOperator : (nextMatch text).kind = .operator) (starts : lexeme <+: text)
    (length : lexeme.length = (nextMatch text).length) :
    ∃ symbol ∈ operators, lexeme = symbol.toList ∧
      ∀ other ∈ operators, other.toList <+: text → other.length ≤ symbol.length := by
  obtain ⟨pattern, listed, kind, measured⟩ := nextMatch_mem unread
  rw [← (patterns_measure pattern listed).preferred, kind, isOperator, scan_operator,
    ← length] at measured
  obtain ⟨symbol, found, same⟩ := Option.map_eq_some_iff.mp measured
  refine ⟨symbol, List.mem_of_find?_eq_some found, ?_, fun other => operator_longest found⟩
  have begins := List.find?_some found
  rw [← take_length_of_isPrefixOf begins, String.length_toList, same]
  exact List.prefix_iff_eq_take.mp starts

/-- The longest lexeme at the start of a text, of the first category that it belongs to. -/
structure MaximalMunch (text : List Char) (kind : Kind) (lexeme : List Char) : Prop where
  filled : lexeme ≠ []
  matched : kind.Matches text lexeme
  longest : ∀ pattern ∈ patterns, ∀ word, pattern.kind.Matches text word →
    word.length ≤ lexeme.length
  first : ∃ before pattern later, patterns = before ++ pattern :: later ∧ pattern.kind = kind ∧
    ∀ earlier ∈ before, ∀ word, earlier.kind.Matches text word → word.length < lexeme.length
  invalid : kind = .invalid → lexeme.length = 1 ∧
    ∀ pattern ∈ patterns, pattern.kind ≠ .invalid → ∀ word, ¬ pattern.kind.Matches text word
  operator : kind = .operator → ∃ symbol ∈ operators, lexeme = symbol.toList ∧
    ∀ other ∈ operators, other.toList <+: text → other.length ≤ symbol.length

/-- The next match is the maximal munch of the rest of the source, and it is that of a pattern. Each
scanner measures what is preferred of its expression. -/
theorem nextMatch_maximal {text : List Char} (unread : text ≠ []) :
    ∃ lexeme after, text = lexeme ++ after ∧ lexeme.length = (nextMatch text).length ∧
      MaximalMunch text (nextMatch text).kind lexeme ∧
      Match.firstLongest (Match.all patterns text) = some (nextMatch text) ∧
      ∀ pattern ∈ patterns, pattern.kind.regex.scan text = pattern.scan text := by
  obtain ⟨lexeme, measure, matched⟩ := nextMatch_matches unread
  have ⟨after, whole, _⟩ := matched
  obtain ⟨before, pattern, later, split, kind, -, shorter, longest⟩ := nextMatch_scans unread
  refine ⟨lexeme, after, whole, measure, ?_, firstLongest_nextMatch unread,
    fun other listed => congrFun (patterns_measure other listed).preferred text⟩
  constructor
  case filled => exact List.length_pos_iff.mp (measure ▸ nextMatch_pos text)
  case matched => exact matched
  case longest =>
    intro other listed word fits
    obtain ⟨length, scanned, bound⟩ := (patterns_measure other listed).longest fits
    exact bound.trans (measure ▸ longest other listed length scanned)
  case first =>
    refine ⟨before, pattern, later, split, kind, fun earlier sooner word fits => ?_⟩
    have listed : earlier ∈ patterns := split ▸ List.mem_append_left _ sooner
    obtain ⟨length, scanned, bound⟩ := (patterns_measure earlier listed).longest fits
    exact bound.trans_lt (measure ▸ shorter earlier sooner length scanned)
  case invalid =>
    intro invalid
    have one := length_of_invalid (invalid ▸ matched)
    refine ⟨one, fun other listed valid word fits => ?_⟩
    obtain ⟨length, scanned, -⟩ := (patterns_measure other listed).longest fits
    rw [scan_of_invalid unread invalid (measure ▸ one) other listed valid] at scanned
    exact nomatch scanned
  case operator =>
    exact fun isOperator => nextMatch_operator unread isOperator ⟨after, whole.symm⟩ measure

/-- A keyword that another one starts, and that is an identifier as well. -/
theorem finally_maximal :
    ['f', 'i', 'n', 'a', 'l', 'l', 'y', '('] ≠ [] ∧
      nextMatch ['f', 'i', 'n', 'a', 'l', 'l', 'y', '('] = ⟨.keyword, 7⟩ ∧
      MaximalMunch ['f', 'i', 'n', 'a', 'l', 'l', 'y', '('] .keyword
        ['f', 'i', 'n', 'a', 'l', 'l', 'y'] := by
  have unread : ['f', 'i', 'n', 'a', 'l', 'l', 'y', '('] ≠ [] := by decide
  have next : nextMatch ['f', 'i', 'n', 'a', 'l', 'l', 'y', '('] = ⟨.keyword, 7⟩ := by
    decide +kernel
  obtain ⟨lexeme, after, whole, measure, munched, -⟩ := nextMatch_maximal unread
  rw [next] at measure munched
  have taken : lexeme = ['f', 'i', 'n', 'a', 'l', 'l', 'y'] := by
    rw [← List.take_left' measure, ← whole]
    rfl
  exact ⟨unread, next, taken ▸ munched⟩

end ClassSyntax

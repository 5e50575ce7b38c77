import ClassSyntax.Lexeme
import Mathlib.Data.List.Basic

/-!
# Regular expressions

The regular expressions of a lexer: sets of characters, word boundaries, and what can be built of them. A
relation says which words an expression matches, and a list in which order a matcher that prefers the
left alternative, and more or fewer rounds of a loop, finds them.

* `Regex.Matches`: the words of an expression between what comes before and what comes behind.
* `Regex.splits`: the matches at the start of a text, the preferred ones first.
* `Regex.mem_splits`: they are the words of the expression.
-/

namespace ClassSyntax

/-- A set of characters: those in some range, or those in none. -/
structure CharSet where
  excluded : Bool
  ranges : List (Char × Char)
  deriving DecidableEq, Repr

namespace CharSet

def has (set : CharSet) (c : Char) : Bool :=
  (set.ranges.any fun range => decide (range.1 ≤ c) && decide (c ≤ range.2)) != set.excluded

/-- These characters. -/
def of (chars : List Char) : CharSet := ⟨false, chars.map fun c => (c, c)⟩

/-- All but these characters. -/
def but (chars : List Char) : CharSet := ⟨true, chars.map fun c => (c, c)⟩

theorem any_single (chars : List Char) (c : Char) :
    ((chars.map fun c => (c, c)).any fun range => decide (range.1 ≤ c) && decide (c ≤ range.2)) =
      chars.contains c := by
  rw [List.any_map, Bool.eq_iff_iff]
  simp only [List.any_eq_true, Function.comp_apply, Bool.and_eq_true, decide_eq_true_eq,
    List.contains_iff_mem]
  constructor
  · rintro ⟨other, member, below, above⟩
    exact Char.le_antisymm below above ▸ member
  · exact fun member => ⟨c, member, Char.le_refl c, Char.le_refl c⟩

@[simp] theorem has_of (chars : List Char) (c : Char) : (of chars).has c = chars.contains c := by
  rw [has, of, any_single, Bool.bne_false]

@[simp] theorem has_but (chars : List Char) (c : Char) : (but chars).has c = !chars.contains c := by
  rw [has, but, any_single, Bool.bne_true]

end CharSet

inductive Regex where
  /-- The empty word. -/
  | empty
  /-- One character of a set. -/
  | char (set : CharSet)
  /-- The empty word between a word character and none. -/
  | boundary
  | seq (first second : Regex)
  /-- `first`, or else `second`. -/
  | either (first second : Regex)
  /-- As many rounds as possible, or as few. -/
  | many (greedy : Bool) (body : Regex)
  deriving DecidableEq, Repr

/-- A text as a word at its start and the rest behind it. -/
structure Split where
  word : List Char
  rest : List Char
  deriving DecidableEq, Repr

/-- The same with another word in front. -/
def Split.behind (front : List Char) (split : Split) : Split := ⟨front ++ split.word, split.rest⟩

/-- The last character of a word, or what comes before it when the word is empty. -/
def lastChar (before : Option Char) : List Char → Option Char
  | [] => before
  | c :: word => lastChar (some c) word

/-- Exactly one of the characters before and behind is in a word. -/
def isBoundary (before : Option Char) (text : List Char) : Bool :=
  before.any Lexeme.isWordChar != text.head?.any Lexeme.isWordChar

namespace Regex

def all : List Regex → Regex
  | [] => empty
  | [regex] => regex
  | regex :: more => seq regex (all more)

/-- The first of these that matches. -/
def oneOf : List Regex → Regex
  | [] => char (.of [])
  | regex :: more => either regex (oneOf more)

/-- These characters, one after the other. -/
def literal : List Char → Regex
  | [] => empty
  | c :: word => seq (char (.of [c])) (literal word)

/-- At least one round, and as many as possible. -/
def repeated (body : Regex) : Regex := seq body (many true body)

/-! ## Matches -/

/-- `regex.Matches before word after`: behind the character `before`, if any, and in front of the text
`after` the expression matches the word. A round that takes nothing is no round. -/
inductive Matches : Regex → Option Char → List Char → List Char → Prop
  | empty {before : Option Char} {after : List Char} : Matches .empty before [] after
  | char {set : CharSet} {before : Option Char} {c : Char} {after : List Char} :
      set.has c = true → Matches (.char set) before [c] after
  | boundary {before : Option Char} {after : List Char} :
      isBoundary before after = true → Matches .boundary before [] after
  | seq {first second : Regex} {before : Option Char} {left right after : List Char} :
      Matches first before left (right ++ after) →
      Matches second (lastChar before left) right after →
      Matches (.seq first second) before (left ++ right) after
  | left {first second : Regex} {before : Option Char} {word after : List Char} :
      Matches first before word after → Matches (.either first second) before word after
  | right {first second : Regex} {before : Option Char} {word after : List Char} :
      Matches second before word after → Matches (.either first second) before word after
  | manyNone {greedy : Bool} {body : Regex} {before : Option Char} {after : List Char} :
      Matches (.many greedy body) before [] after
  | manyMore {greedy : Bool} {body : Regex} {before : Option Char} {left right after : List Char} :
      Matches body before left (right ++ after) → left ≠ [] →
      Matches (.many greedy body) (lastChar before left) right after →
      Matches (.many greedy body) before (left ++ right) after

/-- Rounds of a matcher one after the other, each of which takes something. -/
def rounds (step : Option Char → List Char → List Split) (greedy : Bool) (before : Option Char)
    (text : List Char) : List Split :=
  let more := ((step before text).filter fun split =>
      split.rest.length < text.length).attach.flatMap fun ⟨split, _⟩ =>
    (rounds step greedy (lastChar before split.word) split.rest).map (Split.behind split.word)
  if greedy then more ++ [⟨[], text⟩] else ⟨[], text⟩ :: more
termination_by text.length
decreasing_by
  rename_i inside
  simpa using (List.mem_filter.mp inside).2

/-- The matches at the start of a text, the preferred ones first. -/
def splits : Regex → Option Char → List Char → List Split
  | empty, _, text => [⟨[], text⟩]
  | char _, _, [] => []
  | char set, _, c :: text => if set.has c then [⟨[c], text⟩] else []
  | boundary, before, text => if isBoundary before text then [⟨[], text⟩] else []
  | seq first second, before, text =>
      (first.splits before text).flatMap fun split =>
        (second.splits (lastChar before split.word) split.rest).map (Split.behind split.word)
  | either first second, before, text => first.splits before text ++ second.splits before text
  | many greedy body, before, text => rounds body.splits greedy before text

/-- The length of the preferred match at the start of a text that nothing comes before. -/
def scan (regex : Regex) : Scanner := fun text =>
  (regex.splits none text).head?.map fun split => split.word.length

/-! ## When an expression matches -/

section

variable {before : Option Char} {word after : List Char} {first second : Regex}

@[simp] theorem matches_empty : Matches .empty before word after ↔ word = [] := by
  constructor
  · intro matched
    cases matched
    rfl
  · rintro rfl
    exact .empty

@[simp] theorem matches_char {set : CharSet} :
    Matches (.char set) before word after ↔ ∃ c, set.has c = true ∧ word = [c] := by
  constructor
  · intro matched
    cases matched with
    | char inside => exact ⟨_, inside, rfl⟩
  · rintro ⟨c, inside, rfl⟩
    exact .char inside

@[simp] theorem matches_boundary :
    Matches .boundary before word after ↔ word = [] ∧ isBoundary before after = true := by
  constructor
  · intro matched
    cases matched with
    | boundary between => exact ⟨rfl, between⟩
  · rintro ⟨rfl, between⟩
    exact .boundary between

theorem matches_seq :
    Matches (.seq first second) before word after ↔
      ∃ left right, word = left ++ right ∧ first.Matches before left (right ++ after) ∧
        second.Matches (lastChar before left) right after := by
  constructor
  · intro matched
    cases matched with
    | seq one two => exact ⟨_, _, rfl, one, two⟩
  · rintro ⟨left, right, rfl, one, two⟩
    exact .seq one two

theorem matches_either :
    Matches (.either first second) before word after ↔
      first.Matches before word after ∨ second.Matches before word after := by
  constructor
  · intro matched
    cases matched with
    | left one => exact .inl one
    | right two => exact .inr two
  · rintro (one | two)
    · exact .left one
    · exact .right two

theorem matches_many {greedy : Bool} {body : Regex} :
    Matches (.many greedy body) before word after ↔
      word = [] ∨ ∃ left right, word = left ++ right ∧ left ≠ [] ∧
        body.Matches before left (right ++ after) ∧
          Matches (.many greedy body) (lastChar before left) right after := by
  constructor
  · intro matched
    cases matched with
    | manyNone => exact .inl rfl
    | manyMore one filled more => exact .inr ⟨_, _, rfl, filled, one, more⟩
  · rintro (rfl | ⟨left, right, rfl, filled, one, more⟩)
    · exact .manyNone
    · exact .manyMore one filled more

end

/-! ## The preferred matches are the matches -/

section

variable {before : Option Char} {text : List Char} {split : Split}

theorem rounds_eq (step : Option Char → List Char → List Split) (greedy : Bool)
    (before : Option Char) (text : List Char) :
    rounds step greedy before text =
      let more := ((step before text).filter fun split =>
          split.rest.length < text.length).flatMap fun split =>
        (rounds step greedy (lastChar before split.word) split.rest).map (Split.behind split.word)
      if greedy then more ++ [⟨[], text⟩] else ⟨[], text⟩ :: more := by
  rw [rounds, List.flatMap_subtype fun _ _ => rfl, List.unattach_attach]

/-- Each round takes something at the start of the text, and in the end nothing is taken. -/
theorem mem_rounds {step : Option Char → List Char → List Split} {greedy : Bool} :
    split ∈ rounds step greedy before text ↔
      split = ⟨[], text⟩ ∨ ∃ first ∈ step before text, first.rest.length < text.length ∧
        ∃ later ∈ rounds step greedy (lastChar before first.word) first.rest,
          split = later.behind first.word := by
  rw [rounds_eq]
  cases greedy <;> simp [List.mem_flatMap, and_assoc, eq_comm, or_comm]

/-- What a matcher finds at the start of a text is what the expression matches there. -/
def FindsMatches (regex : Regex) : Prop :=
  ∀ before text split, split ∈ regex.splits before text ↔
    text = split.word ++ split.rest ∧ regex.Matches before split.word split.rest

theorem FindsMatches.many {body : Regex} (finds : FindsMatches body) (greedy : Bool) :
    FindsMatches (.many greedy body) := by
  intro before text split
  induction remaining : text.length using Nat.strongRecOn generalizing before text split with
  | ind _ ih =>
      subst remaining
      rw [splits, mem_rounds, matches_many]
      constructor
      · rintro (rfl | ⟨first, one, inside, later, more, rfl⟩)
        · exact ⟨rfl, .inl rfl⟩
        · obtain ⟨whole, others⟩ := (ih _ inside _ _ _ rfl).mp more
          obtain ⟨rfl, matched⟩ := (finds _ _ _).mp one
          have filled : first.word ≠ [] := by
            rintro none
            rw [none] at inside
            exact Nat.lt_irrefl _ inside
          rw [whole] at matched ⊢
          exact ⟨(List.append_assoc _ _ _).symm, .inr ⟨_, _, rfl, filled, matched, others⟩⟩
      · obtain ⟨word, rest⟩ := split
        rintro ⟨rfl, rfl | ⟨left, right, rfl, filled, one, more⟩⟩
        · exact .inl rfl
        · have shorter : (right ++ rest).length < (left ++ right ++ rest).length := by
            have := List.length_pos_iff.mpr filled
            simp only [List.length_append]
            omega
          exact .inr ⟨⟨left, right ++ rest⟩, (finds _ _ _).mpr ⟨List.append_assoc _ _ _, one⟩, shorter,
            ⟨right, rest⟩, (ih _ shorter _ _ _ rfl).mpr ⟨rfl, more⟩, rfl⟩

theorem FindsMatches.seq {first second : Regex} (one : FindsMatches first)
    (two : FindsMatches second) : FindsMatches (.seq first second) := by
  rintro before text ⟨word, rest⟩
  simp only [splits, List.mem_flatMap, List.mem_map, matches_seq]
  constructor
  · rintro ⟨left, foundLeft, right, foundRight, same⟩
    obtain ⟨rfl, matchedLeft⟩ := (one _ _ _).mp foundLeft
    obtain ⟨whole, matchedRight⟩ := (two _ _ _).mp foundRight
    obtain ⟨rfl, rfl⟩ := Split.mk.inj same
    rw [whole] at matchedLeft ⊢
    exact ⟨(List.append_assoc _ _ _).symm, _, _, rfl, matchedLeft, matchedRight⟩
  · rintro ⟨rfl, left, right, rfl, matchedLeft, matchedRight⟩
    exact ⟨⟨left, right ++ rest⟩, (one _ _ _).mpr ⟨List.append_assoc _ _ _, matchedLeft⟩,
      ⟨right, rest⟩, (two _ _ _).mpr ⟨rfl, matchedRight⟩, rfl⟩

/-- The splits of a text are the matches at its start. -/
theorem mem_splits (regex : Regex) : FindsMatches regex := by
  induction regex with
  | empty =>
      rintro before text ⟨word, rest⟩
      rw [splits, matches_empty]
      constructor
      · intro found
        obtain ⟨rfl, rfl⟩ := Split.mk.inj (List.mem_singleton.mp found)
        exact ⟨rfl, rfl⟩
      · rintro ⟨rfl, rfl⟩
        exact List.mem_singleton_self _
  | char set =>
      rintro before text ⟨word, rest⟩
      rw [matches_char]
      cases text with
      | nil =>
          constructor
          · exact fun found => absurd found List.not_mem_nil
          · rintro ⟨same, c, -, rfl⟩
            exact nomatch same
      | cons c text =>
          simp only [splits, List.mem_ite_nil_right, List.mem_singleton, Split.mk.injEq]
          constructor
          · rintro ⟨inside, rfl, rfl⟩
            exact ⟨rfl, c, inside, rfl⟩
          · rintro ⟨same, c, inside, rfl⟩
            obtain ⟨rfl, rfl⟩ := List.cons_eq_cons.mp same
            exact ⟨inside, rfl, rfl⟩
  | boundary =>
      rintro before text ⟨word, rest⟩
      rw [matches_boundary]
      simp only [splits, List.mem_ite_nil_right, List.mem_singleton, Split.mk.injEq]
      constructor
      · rintro ⟨between, rfl, rfl⟩
        exact ⟨rfl, rfl, between⟩
      · rintro ⟨rfl, rfl, between⟩
        exact ⟨between, rfl, rfl⟩
  | seq first second ihFirst ihSecond => exact ihFirst.seq ihSecond
  | either first second ihFirst ihSecond =>
      intro before text split
      rw [splits, List.mem_append, ihFirst, ihSecond, matches_either, and_or_left]
  | many greedy body ih => exact ih.many greedy

/-- What is found is the word of a match. -/
theorem matches_of_scan {regex : Regex} {length : Nat} (found : regex.scan text = some length) :
    ∃ word after, text = word ++ after ∧ word.length = length ∧ regex.Matches none word after := by
  obtain ⟨⟨word, after⟩, first, rfl⟩ := Option.map_eq_some_iff.mp found
  obtain ⟨whole, matched⟩ := (regex.mem_splits _ _ _).mp (List.mem_of_head? first)
  exact ⟨word, after, whole, rfl, matched⟩

/-- Where there is a match, one is found. -/
theorem scan_of_matches {regex : Regex} {word after : List Char}
    (matched : regex.Matches none word after) :
    ∃ length, regex.scan (word ++ after) = some length := by
  have listed := (regex.mem_splits none (word ++ after) ⟨word, after⟩).mpr ⟨rfl, matched⟩
  unfold scan
  cases found : regex.splits none (word ++ after) with
  | nil =>
      rw [found] at listed
      exact absurd listed List.not_mem_nil
  | cons first others => exact ⟨_, rfl⟩

end

/-! ## Words of some expressions -/

section

variable {before : Option Char} {word after : List Char}

@[simp] theorem matches_literal {letters : List Char} :
    (literal letters).Matches before word after ↔ word = letters := by
  induction letters generalizing before word with
  | nil => rw [literal, matches_empty]
  | cons c letters ih =>
      rw [literal, matches_seq]
      simp only [matches_char, ih]
      constructor
      · rintro ⟨_, _, rfl, ⟨d, same, rfl⟩, rfl⟩
        obtain rfl : d = c := by simpa using same
        rfl
      · rintro rfl
        exact ⟨[c], letters, rfl, ⟨c, by simp, rfl⟩, rfl⟩

theorem matches_oneOf {regexes : List Regex} :
    (oneOf regexes).Matches before word after ↔
      ∃ regex ∈ regexes, regex.Matches before word after := by
  induction regexes with
  | nil => simp [oneOf]
  | cons regex regexes ih => rw [oneOf, matches_either, ih, List.exists_mem_cons_iff]

theorem matches_many_char {greedy : Bool} {set : CharSet} :
    (many greedy (char set)).Matches before word after ↔ ∀ c ∈ word, set.has c = true := by
  induction word generalizing before with
  | nil => exact iff_of_true .manyNone nofun
  | cons c word ih =>
      rw [matches_many, List.forall_mem_cons]
      simp only [matches_char]
      constructor
      · rintro (none | ⟨_, right, same, -, ⟨d, inside, rfl⟩, more⟩)
        · exact nomatch none
        · obtain ⟨rfl, rfl⟩ := List.cons_eq_cons.mp same
          exact ⟨inside, ih.mp more⟩
      · rintro ⟨inside, others⟩
        exact .inr ⟨[c], word, rfl, List.cons_ne_nil _ _, ⟨c, inside, rfl⟩, ih.mpr others⟩

theorem matches_seq_char {set : CharSet} {more : Regex} :
    (seq (char set) more).Matches before word after ↔
      ∃ c tail, word = c :: tail ∧ set.has c = true ∧ more.Matches (some c) tail after := by
  rw [matches_seq]
  simp only [matches_char]
  constructor
  · rintro ⟨_, tail, rfl, ⟨c, inside, rfl⟩, later⟩
    exact ⟨c, tail, rfl, inside, later⟩
  · rintro ⟨c, tail, rfl, inside, later⟩
    exact ⟨[c], tail, rfl, ⟨c, inside, rfl⟩, later⟩

theorem matches_repeated_char {set : CharSet} :
    (repeated (char set)).Matches before word after ↔
      word ≠ [] ∧ ∀ c ∈ word, set.has c = true := by
  rw [repeated, matches_seq_char]
  constructor
  · rintro ⟨c, tail, rfl, inside, others⟩
    exact ⟨List.cons_ne_nil _ _, List.forall_mem_cons.mpr ⟨inside, matches_many_char.mp others⟩⟩
  · rintro ⟨filled, inside⟩
    obtain ⟨c, tail, rfl⟩ := List.exists_cons_of_ne_nil filled
    rw [List.forall_mem_cons] at inside
    exact ⟨c, tail, rfl, inside.1, matches_many_char.mpr inside.2⟩

end

end Regex

end ClassSyntax

import ClassSyntax.Token

/-!
# Lexemes

What the lexemes of each category look like. A scanner measures the lexeme that stands at the start
of a text, looking at nothing before it, and gives `none` when there is no such lexeme. Letters,
digits and word boundaries are those of ASCII. The main fact is `Scanner.Positive`: a lexeme is
never empty.
-/

namespace ClassSyntax

/-- Measures the lexeme at the start of a text. -/
abbrev Scanner := List Char → Option Nat

namespace Scanner

/-- Never measures an empty lexeme. -/
def Positive (scan : Scanner) : Prop := ∀ text length, scan text = some length → 0 < length

end Scanner

namespace Lexeme

/-! ## Comments -/

/-- The length up to and including the next block comment end, when `read` characters come before. -/
def blockCommentEnd (read : Nat) : List Char → Option Nat
  | '~' :: '*' :: '/' :: _ => some (read + 3)
  | _ :: text => blockCommentEnd (read + 1) text
  | [] => none

/-- A block comment, which ends at the first end mark after its start mark. -/
def blockComment : Scanner
  | '/' :: '*' :: '~' :: text => blockCommentEnd 3 text
  | _ => none

/-- A comment up to the end of its line. -/
def lineComment : Scanner
  | '#' :: text => some (1 + (text.takeWhile (· != '\n')).length)
  | _ => none

/-! ## Words and numbers -/

def isWordStart (c : Char) : Bool := c.isAlpha || c == '_'

def isWordChar (c : Char) : Bool := c.isAlphanum || c == '_'

/-- The word characters at the start of a text. -/
def word (text : List Char) : List Char := text.takeWhile isWordChar

/-- The digits at the start of a text. -/
def digits (text : List Char) : List Char := text.takeWhile Char.isDigit

/-- One of the listed words, as a whole word. -/
def oneOfWords (words : List String) : Scanner := fun text =>
  let read := word text
  if read ≠ [] ∧ String.ofList read ∈ words then some read.length else none

def keyword : Scanner := oneOfWords reservedWords

def booleanLiteral : Scanner := oneOfWords truthValues

def identifier : Scanner
  | c :: text => if isWordStart c then some (1 + (word text).length) else none
  | [] => none

/-- A word that starts with a digit. -/
def invalidIdentifier : Scanner
  | c :: text => if c.isDigit then some (1 + (word text).length) else none
  | [] => none

/-- No word goes on at the start of this text. -/
def atWordEnd : List Char → Bool
  | c :: _ => !isWordChar c
  | [] => true

/-- Digits that are a whole word. -/
def intLiteral : Scanner := fun text =>
  let whole := digits text
  if whole ≠ [] ∧ atWordEnd (text.drop whole.length) then some whole.length else none

/-- Digits on both sides of a point, where no word goes on after them. -/
def floatLiteral : Scanner := fun text =>
  let whole := digits text
  match text.drop whole.length with
  | '.' :: rest =>
      let fraction := digits rest
      if whole ≠ [] ∧ fraction ≠ [] ∧ atWordEnd (rest.drop fraction.length) then
        some (whole.length + 1 + fraction.length)
      else none
  | _ => none

/-! ## Quoted literals -/

/-- The length up to and including the closing quote, when `read` characters come before. A
backslash takes the next character with it; neither may be, or be followed by, a newline. -/
def quoteEnd (quote : Char) (read : Nat) : List Char → Option Nat
  | [] => none
  | c :: text =>
      if c = quote then some (read + 1)
      else if c = '\n' then none
      else if c = '\\' then
        match text with
        | [] => none
        | escaped :: text => if escaped = '\n' then none else quoteEnd quote (read + 2) text
      else quoteEnd quote (read + 1) text

/-- A literal between two of these quotes, on one line. -/
def quoted (quote : Char) : Scanner
  | c :: text => if c = quote then quoteEnd quote 1 text else none
  | [] => none

/-! ## Operators and single characters -/

/-- The operators. One that starts with another stands before it. -/
def operators : List String :=
  ["<<=", ">>=", "<<", ">>", "<=>", "<>", "=>", "++", "--", "==", "!=", "<=", ">=", "&&", "||",
    "+", "-", "*", "/", "%", "=", "<", ">", "!"]

def operator : Scanner := fun text =>
  (operators.find? fun symbol => symbol.toList.isPrefixOf text).map String.length

/-- Exactly one character with this property. -/
def single (p : Char → Bool) : Scanner
  | c :: _ => if p c then some 1 else none
  | [] => none

def punctuationMarks : List Char :=
  ['(', ')', '\x7b', '\x7d', '[', ']', ';', ',', '.', ':', '@', '#']

def punctuation : Scanner := single punctuationMarks.contains

def newline : Scanner := single (· == '\n')

/-- Any character that is not a newline. -/
def anyChar : Scanner := single (· != '\n')

/-- Spaces, tabs and carriage returns. -/
def whitespace : Scanner := fun text =>
  let blanks := text.takeWhile [' ', '\t', '\r'].contains
  if blanks ≠ [] then some blanks.length else none

/-! ## Lexemes are not empty -/

theorem blockCommentEnd_pos {read length : Nat} {text : List Char}
    (found : blockCommentEnd read text = some length) : 0 < length := by
  fun_induction blockCommentEnd read text with
  | case1 => simp_all; omega
  | case2 _ _ _ _ ih => exact ih found
  | case3 => simp at found

theorem quoteEnd_pos {quote : Char} {read length : Nat} {text : List Char}
    (found : quoteEnd quote read text = some length) : 0 < length := by
  fun_induction quoteEnd quote read text with
  | case2 => simp at found; omega
  | case6 _ _ _ _ _ _ ih => exact ih found
  | case7 _ _ _ _ _ _ ih => exact ih found
  | _ => simp at found

theorem blockComment_positive : Scanner.Positive blockComment := by
  intro text length found
  unfold blockComment at found
  split at found
  · exact blockCommentEnd_pos found
  · simp at found

theorem lineComment_positive : Scanner.Positive lineComment := by
  intro text length found
  unfold lineComment at found
  split at found
  · simp at found; omega
  · simp at found

theorem oneOfWords_positive (words : List String) : Scanner.Positive (oneOfWords words) := by
  intro text length found
  simp only [oneOfWords, Option.ite_none_right_eq_some, Option.some.injEq] at found
  obtain ⟨⟨nonempty, -⟩, rfl⟩ := found
  exact List.length_pos_iff.mpr nonempty

theorem identifier_positive : Scanner.Positive identifier := by
  intro text length found
  unfold identifier at found
  split at found
  · simp only [Option.ite_none_right_eq_some, Option.some.injEq] at found; omega
  · simp at found

theorem invalidIdentifier_positive : Scanner.Positive invalidIdentifier := by
  intro text length found
  unfold invalidIdentifier at found
  split at found
  · simp only [Option.ite_none_right_eq_some, Option.some.injEq] at found; omega
  · simp at found

theorem intLiteral_positive : Scanner.Positive intLiteral := by
  intro text length found
  simp only [intLiteral, Option.ite_none_right_eq_some, Option.some.injEq] at found
  obtain ⟨⟨nonempty, -⟩, rfl⟩ := found
  exact List.length_pos_iff.mpr nonempty

theorem floatLiteral_positive : Scanner.Positive floatLiteral := by
  intro text length found
  simp only [floatLiteral] at found
  split at found
  · simp only [Option.ite_none_right_eq_some, Option.some.injEq] at found; omega
  · simp at found

theorem quoted_positive (quote : Char) : Scanner.Positive (quoted quote) := by
  intro text length found
  unfold quoted at found
  split at found
  · simp only [Option.ite_none_right_eq_some] at found
    exact quoteEnd_pos found.2
  · simp at found

theorem operators_nonempty : ∀ symbol ∈ operators, 0 < symbol.length := by decide

theorem operator_positive : Scanner.Positive operator := by
  intro text length found
  obtain ⟨symbol, listed, rfl⟩ := Option.map_eq_some_iff.mp found
  exact operators_nonempty symbol (List.mem_of_find?_eq_some listed)

theorem single_positive (p : Char → Bool) : Scanner.Positive (single p) := by
  intro text length found
  unfold single at found
  split at found
  · simp only [Option.ite_none_right_eq_some, Option.some.injEq] at found; omega
  · simp at found

theorem whitespace_positive : Scanner.Positive whitespace := by
  intro text length found
  simp only [whitespace, Option.ite_none_right_eq_some, Option.some.injEq] at found
  obtain ⟨nonempty, rfl⟩ := found
  exact List.length_pos_iff.mpr nonempty

end Lexeme

end ClassSyntax

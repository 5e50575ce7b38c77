import ClassSyntax.CommandLine
import ClassSyntax.Proofs.Lexing.Partition
import ClassSyntax.Proofs.Policies.Foreign

/-!
# Stopping early changes no verdict

The lexer may stop at the first invalid token, or leave the invalid tokens to the parser. The message
differs, but a source is refused either way.

* `tokenizeWith_abort`: to stop early is to collect everything and look for an objection afterwards.
* `rejected_of_stopped`: a source at which the lexer stops is rejected.
* `CommandLine.exitCode_strict`: nor does it change the exit code.
-/

namespace ClassSyntax

/-! ## Objections -/

/-- The first objection to a token of the list. -/
def firstObjection? (tokens : List Token) : Option Fault := tokens.findSome? Token.objection?

theorem Token.foreign_of_objection {token : Token} {fault : Fault}
    (objected : token.objection? = some fault) : token.kind ∈ Kind.foreign := by
  obtain ⟨kind, lexeme, line⟩ := token
  cases kind with
  | invalid | invalidIdentifier => simp [Kind.foreign]
  | _ => cases objected

theorem foreign_of_firstObjection {tokens : List Token} {fault : Fault}
    (objected : firstObjection? tokens = some fault) :
    ∃ token ∈ tokens, token.kind ∈ Kind.foreign := by
  obtain ⟨token, member, objection⟩ := List.exists_of_findSome?_eq_some objected
  exact ⟨token, member, Token.foreign_of_objection objection⟩

/-- The lexer stops at the first significant lexeme with an objection. -/
theorem collectValid_eq (read : Array Token) (cursor : Cursor) :
    collectValid read cursor =
      match firstObjection? (significant cursor.pieces) with
      | some fault => .error fault
      | none => .ok (collectTokens read cursor) := by
  fun_induction collectValid read cursor with
  | case1 read cursor last found =>
      obtain ⟨none, line⟩ := Cursor.nextToken_none found
      rw [collectTokens_eq, none, ← line]
      simp [firstObjection?]
  | case2 read cursor token later found fault objected =>
      rw [(Cursor.nextToken_some found).1, firstObjection?, List.findSome?_cons, objected]
  | case3 read cursor token later found unobjected ih =>
      obtain ⟨same, line⟩ := Cursor.nextToken_some found
      rw [ih, same, collectTokens_eq, collectTokens_eq, same, line]
      simp [firstObjection?, unobjected]

/-- The end of the input is never objected to. -/
theorem firstObjection?_endOfInput (tokens : List Token) (line : UInt32) :
    firstObjection? (tokens ++ [Token.endOfInput line]) = firstObjection? tokens := by
  rw [firstObjection?, List.findSome?_append]
  exact Option.or_none

theorem firstObjection?_tokenize (source : String) :
    firstObjection? (tokenize source) = firstObjection? (significant (lexemes source)) := by
  rw [tokenize_eq, firstObjection?_endOfInput]

/-- To stop early is to collect everything and look for an objection afterwards. -/
theorem tokenizeWith_abort (source : String) :
    tokenizeWith .abort source =
      match firstObjection? (tokenize source) with
      | some fault => .error fault
      | none => .ok (tokenize source) := by
  rw [firstObjection?_tokenize]
  exact collectValid_eq #[] (Cursor.atStart source)

/-- What the lexer stops at is not accepted either. -/
theorem rejected_of_stopped {policy : Policy} {source : String} {fault : Fault}
    (stopped : tokenizeWith policy source = .error fault) :
    (check (tokenize source)).isAccepted = false := by
  cases policy with
  | collect => cases stopped
  | abort =>
      rw [tokenizeWith_abort] at stopped
      split at stopped
      · rename_i objected
        obtain ⟨token, member, foreign⟩ := foreign_of_firstObjection objected
        rw [← Bool.not_eq_true]
        intro accepted
        exact native_of_isAccepted accepted token member foreign
      · cases stopped

/-- Where the lexer does not stop, the policy makes no difference. -/
theorem tokenize_of_kept {policy : Policy} {source : String} {tokens : List Token}
    (kept : tokenizeWith policy source = .ok tokens) : tokenize source = tokens := by
  cases policy with
  | collect => exact Except.ok.inj kept
  | abort =>
      rw [tokenizeWith_abort] at kept
      split at kept
      · cases kept
      · exact Except.ok.inj kept

/-! ## The program -/

namespace CommandLine

/-- The tokens of a file, whatever the policy. -/
def Flags.tokens (flags : Flags) (content : String) : List Token :=
  if flags.fromTokens then (Record.readAll content).tokens else tokenize content

variable {flags : Flags} {path : String} {writeError : Option String}

theorem judge_succeeded {content errors : String} {tokens : List Token} {before : List Output} :
    (judge flags path content tokens before errors).succeeded = (check tokens).isAccepted := by
  unfold judge
  cases check tokens <;> rfl

/-- The tokens have to be written where they are asked for, and to be accepted. -/
theorem finish_succeeded {content errors : String} {tokens : List Token}
    (parsing : flags.tokensOnly = false) :
    ((Front.ready content errors tokens).finish flags path writeError).succeeded =
      ((flags.emit.isNone || writeError.isNone) && (check tokens).isAccepted) := by
  unfold Front.finish
  cases flags.emit <;> cases writeError <;> simp [parsing, judge_succeeded]

/-- The program succeeds when the tokens of the file are accepted. Where the lexer stopped they are
not, so the policy does not matter. -/
theorem run_succeeded (flags : Flags) (parsing : flags.tokensOnly = false) (content : String) :
    (run flags path (.ok content) writeError).succeeded =
      ((flags.emit.isNone || writeError.isNone) && (check (flags.tokens content)).isAccepted) := by
  unfold run Front.ofFile Flags.tokens
  dsimp only
  split
  · exact finish_succeeded parsing
  · split
    · rename_i stopped
      rw [rejected_of_stopped stopped, Bool.and_false]
      rfl
    · rename_i kept
      rw [tokenize_of_kept kept]
      exact finish_succeeded parsing

/-- Stopping early does not change how the program ends. -/
theorem exitCode_strict (parsing : flags.tokensOnly = false) (file : Except String String) :
    (run { flags with strict := true } path file writeError).exitCode =
      (run { flags with strict := false } path file writeError).exitCode := by
  cases file with
  | error message => rfl
  | ok content =>
      have ended (strict : Bool) :
          (run { flags with strict := strict } path (.ok content) writeError).succeeded =
            ((flags.emit.isNone || writeError.isNone) && (check (flags.tokens content)).isAccepted) :=
        run_succeeded { flags with strict := strict } parsing content
      rw [Transcript.exitCode, Transcript.exitCode, ended true, ended false]

end CommandLine

open CommandLine in
/-- No accepted list holds a foreign token. So the lexer stops at no source that is accepted, its
tokens are the same under both policies where it does not stop, and the program ends alike. -/
theorem strict_keeps_verdict :
    (∀ tokens, (check tokens).isAccepted = true → ∀ token ∈ tokens, token.kind ∉ Kind.foreign) ∧
      (∀ source fault, tokenizeWith .abort source = .error fault →
        (checkSource source).isAccepted = false) ∧
      (∀ source tokens, tokenizeWith .abort source = .ok tokens →
        tokenizeWith .collect source = .ok tokens) ∧
      ∀ (flags : Flags) (path : String) (file : Except String String) (writeError : Option String),
        flags.tokensOnly = false →
          (run { flags with strict := true } path file writeError).exitCode =
            (run { flags with strict := false } path file writeError).exitCode := by
  refine ⟨fun _ accepted => native_of_isAccepted accepted, fun _ _ => rejected_of_stopped, ?_, ?_⟩
  · intro source tokens kept
    rw [tokenizeWith, tokenize_of_kept kept]
  · intro flags path file writeError parsing
    exact exitCode_strict parsing file

/-- The tokens of `class A { public static void main(String[] a) {} }`. -/
def emptyEntry : List Token :=
  [⟨.keyword, "class", 1⟩, ⟨.identifier, "A", 1⟩, ⟨.punctuation, "\x7b", 1⟩,
    ⟨.keyword, "public", 1⟩, ⟨.keyword, "static", 1⟩, ⟨.keyword, "void", 1⟩,
    ⟨.identifier, "main", 1⟩, ⟨.punctuation, "(", 1⟩, ⟨.identifier, "String", 1⟩,
    ⟨.punctuation, "[", 1⟩, ⟨.punctuation, "]", 1⟩, ⟨.identifier, "a", 1⟩,
    ⟨.punctuation, ")", 1⟩, ⟨.punctuation, "\x7b", 1⟩, ⟨.punctuation, "\x7d", 1⟩,
    ⟨.punctuation, "\x7d", 1⟩, Token.endOfInput 1]

/-- Nothing is wrong with this source, and the other one is stopped at and rejected. -/
theorem misspelled_keeps_verdict :
    ((check emptyEntry).isAccepted = true ∧ ∀ token ∈ emptyEntry, token.kind ∉ Kind.foreign) ∧
      (tokenizeWith .abort "class A { public static void main(String[] a) {} }" = .ok emptyEntry ∧
        tokenizeWith .collect "class A { public static void main(String[] a) {} }" =
          .ok emptyEntry) ∧
      (tokenizeWith .abort "class A { int 2x; }" = .error ⟨.invalidIdentifier "2x", 1⟩ ∧
        (checkSource "class A { int 2x; }").isAccepted = false) ∧
      (CommandLine.run ⟨false, true, false, none⟩ "A" (.ok "class A { int 2x; }") none).exitCode =
        (CommandLine.run ⟨false, false, false, none⟩ "A" (.ok "class A { int 2x; }")
          none).exitCode := by
  obtain ⟨native, rejected, kept, ended⟩ := strict_keeps_verdict
  have accepted : check emptyEntry = .accepted "A" :=
    check_eq_of_checkWithin 1000 (by decide +kernel)
  have correct : tokenizeWith .abort "class A { public static void main(String[] a) {} }" =
      .ok emptyEntry := by decide +kernel
  have stopped : tokenizeWith .abort "class A { int 2x; }" =
      .error ⟨.invalidIdentifier "2x", 1⟩ := by decide +kernel
  have isAccepted : (check emptyEntry).isAccepted = true := by rw [accepted]; rfl
  exact ⟨⟨isAccepted, native _ isAccepted⟩, ⟨correct, kept _ _ correct⟩,
    ⟨stopped, rejected _ _ stopped⟩, ended ⟨false, false, false, none⟩ "A" _ none rfl⟩

end ClassSyntax

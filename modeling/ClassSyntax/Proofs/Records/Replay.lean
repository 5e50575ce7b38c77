import ClassSyntax.Proofs.Policies.Strict
import ClassSyntax.Proofs.Records.RoundTrip

/-!
# Written tokens replay a run

A run on a source may write the tokens of the source to a file. A run on that file finds the same
tokens and skips no line, so that it comes to the same verdict. It cannot quote the source, and says
everything else again.

* `Front.emission_source`: what a run on a source writes.
* `Front.ofFile_written`: a written file holds the tokens of the source.
* `errors_judge`: what a run says about a verdict.
* `written_tokens_replay`: the two runs, side by side.
-/

namespace ClassSyntax.CommandLine

variable {flags : Flags} {path content : String}

/-- The tokens of a source are read back from the text they were written to, with no line skipped. -/
theorem readAll_writeAll_tokenize (source : String) :
    Record.readAll (Record.writeAll (tokenize source)) = ⟨tokenize source, []⟩ := by
  have wellFormed := Record.wellFormed_tokenize source
  have closed := Record.close_of_wellFormed wellFormed
  rw [Record.readAll_writeAll (closed.symm ▸ wellFormed), closed]

/-! ## What is written and read -/

/-- Tokens of a source are written only where the lexer did not stop, and then they are all of its
tokens. -/
theorem Front.emission_source {out text : String} (source : flags.fromTokens = false)
    (emitted : (Front.ofFile flags path (.ok content)).emission flags = some (out, text)) :
    Front.ofFile flags path (.ok content) = .ready content "" (tokenize content) ∧
      flags.emit = some out ∧ text = Record.writeAll (tokenize content) := by
  unfold Front.ofFile at emitted ⊢
  simp only [source, Bool.false_eq_true, if_false] at emitted ⊢
  cases kept : tokenizeWith flags.policy content with
  | error fault =>
      rw [kept] at emitted
      exact nomatch emitted
  | ok tokens =>
      rw [kept] at emitted
      obtain ⟨asked, written, same⟩ := Option.map_eq_some_iff.mp emitted
      obtain ⟨rfl, rfl⟩ := Prod.mk.inj same
      rw [tokenize_of_kept kept]
      exact ⟨rfl, written, rfl⟩

/-- A file of written tokens holds the tokens of the source, and nothing in it is skipped. -/
theorem Front.ofFile_written (records : flags.fromTokens = true) (source : String) :
    let text := Record.writeAll (tokenize source)
    Front.ofFile flags path (.ok text) = .ready text "" (tokenize source) := by
  unfold Front.ofFile
  simp only [records, if_true, readAll_writeAll_tokenize, List.map_nil]
  rfl

/-! ## What is said -/

/-- The last line about tokens that are not accepted. -/
def lastWord (accepted : Bool) : String := if accepted then "" else "Parsing failed\n"

theorem errors_judge {errors : String} {tokens : List Token} {before : List Output} :
    (judge flags path content tokens before errors).errors =
      errors ++ String.join ((check tokens).diagnostics.map (complaint flags path content)) ++
        lastWord (check tokens).isAccepted := by
  unfold judge lastWord
  cases check tokens with
  | accepted name => simp [Verdict.diagnostics, Verdict.isAccepted]
  | rejected diagnostics => rfl

/-- Where the tokens are to be shown, they follow on the line about the file that they were written to. -/
theorem finish_showing {tokens : List Token} (showing : flags.tokensOnly = true) :
    (Front.ready content "" tokens).finish flags path none =
      ⟨.tokenized :: (flags.emit.toList.map fun out => .line ("Tokens written to " ++ out)) ++
          tokens.map fun token => .line token.render, "", true⟩ := by
  unfold Front.finish
  cases flags.emit <;> simp [showing]

/-- Where they are to be parsed, the verdict decides what is said. -/
theorem errors_finish {tokens : List Token} (parsing : flags.tokensOnly = false) :
    ((Front.ready content "" tokens).finish flags path none).errors =
      String.join ((check tokens).diagnostics.map (complaint flags path content)) ++
        lastWord (check tokens).isAccepted := by
  unfold Front.finish
  cases flags.emit <;> simp [parsing, errors_judge]

/-! ## Two runs -/

section

variable {again : Flags} {out text : String}

/-- To show the tokens always succeeds, and to parse them depends on the tokens only. -/
theorem succeeded_finish_again {tokens : List Token} (alike : again.tokensOnly = flags.tokensOnly) :
    ((Front.ready text "" tokens).finish again out none).succeeded =
      ((Front.ready content "" tokens).finish flags path none).succeeded := by
  cases showing : flags.tokensOnly with
  | true => rw [finish_showing (alike.trans showing), finish_showing showing]
  | false => simp [finish_succeeded (alike.trans showing), finish_succeeded showing]

/-- A run on a source writes its tokens to `out`, and a run on that file, which shows or parses tokens
like the first, ends with the same exit code. It reads the tokens of the source and skips nothing. It
shows the same tokens, or says the same about each diagnostic without quoting the source, and the same
in the end; and if it writes its tokens in turn, it writes the same text. -/
theorem written_tokens_replay (source : flags.fromTokens = false)
    (emitted : (Front.ofFile flags path (.ok content)).emission flags = some (out, text))
    (records : again.fromTokens = true) (alike : again.tokensOnly = flags.tokensOnly) :
    let first := run flags path (.ok content) none
    let second := run again out (.ok text) none
    let shown := (tokenize content).map fun token => Output.line token.render
    let diagnostics := (checkSource content).diagnostics
    let written (flags : Flags) :=
      flags.emit.toList.map fun out => Output.line ("Tokens written to " ++ out)
    second.exitCode = first.exitCode ∧
      Front.ofFile again out (.ok text) = .ready text "" (tokenize content) ∧
      (flags.tokensOnly = true →
        first.output = .tokenized :: written flags ++ shown ∧ first.errors = "" ∧
          second.output = .tokenized :: written again ++ shown ∧ second.errors = "") ∧
      (flags.tokensOnly = false →
        first.errors =
            String.join (diagnostics.map fun diagnostic =>
              diagnostic.render ++ "\n" ++ (Fault.ofDiagnostic diagnostic).report content path) ++
            lastWord first.succeeded ∧
          second.errors =
            String.join (diagnostics.map fun diagnostic => diagnostic.render ++ "\n") ++
            lastWord first.succeeded) ∧
      ∀ copy, again.emit = some copy →
        (Front.ofFile again out (.ok text)).emission again = some (copy, text) := by
  obtain ⟨ready, -, rfl⟩ := Front.emission_source source emitted
  have reread : Front.ofFile again out (.ok (Record.writeAll (tokenize content))) = _ :=
    Front.ofFile_written records content
  intro first second shown diagnostics written
  have begun : first = (Front.ready content "" (tokenize content)).finish flags path none :=
    congrArg (Front.finish flags path none) ready
  have repeated : second = (Front.ready _ "" (tokenize content)).finish again out none :=
    congrArg (Front.finish again out none) reread
  refine ⟨?_, reread, fun showing => ?_, fun parsing => ?_, fun copy asked => ?_⟩
  · rw [Transcript.exitCode, Transcript.exitCode, begun, repeated, succeeded_finish_again alike]
  · rw [begun, repeated, finish_showing showing, finish_showing (alike.trans showing)]
    exact ⟨rfl, rfl, rfl, rfl⟩
  · have verdict : first.succeeded = (check (tokenize content)).isAccepted := by
      rw [begun, finish_succeeded parsing, Option.isNone_none, Bool.or_true, Bool.true_and]
    rw [verdict, begun, repeated, errors_finish parsing, errors_finish (alike.trans parsing)]
    unfold complaint
    simp only [source, records, Bool.false_eq_true, if_false, if_true, String.append_empty]
    exact ⟨rfl, rfl⟩
  · rw [reread, Front.emission, asked]
    rfl

/-- A misspelled name is complained about once more when its tokens are read again. -/
theorem misspelled_replays :
    let source := "class A { int 2x; }"
    let first := run ⟨false, false, false, some "A.tokens"⟩ "A" (.ok source) none
    let second := run ⟨true, false, false, none⟩ "A.tokens"
      (.ok (Record.writeAll (tokenize source))) none
    second.exitCode = first.exitCode ∧
      second.errors =
        (⟨1, "member name", .lexeme "2x", .expectation⟩ : Diagnostic).render ++ "\n" ++
          lastWord first.succeeded := by
  intro source first second
  have emitted : (Front.ofFile ⟨false, false, false, some "A.tokens"⟩ "A" (.ok source)).emission
      ⟨false, false, false, some "A.tokens"⟩ =
        some ("A.tokens", Record.writeAll (tokenize source)) := by decide +kernel
  have rejected : checkSource source =
      .rejected [⟨1, "member name", .lexeme "2x", .expectation⟩] :=
    check_eq_of_checkWithin 1000 (by decide +kernel)
  have records : Flags.fromTokens ⟨true, false, false, none⟩ = true := rfl
  obtain ⟨ended, -, -, said, -⟩ := written_tokens_replay rfl emitted records rfl
  have complaint := (said rfl).2
  rw [rejected] at complaint
  exact ⟨ended, complaint⟩

end

end ClassSyntax.CommandLine

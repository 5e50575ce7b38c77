import ClassSyntax.Proofs.Frontier.Locality
import ClassSyntax.Proofs.Language.Recognition

/-!
# The error frontier is exact

Where a program cannot be read, the furthest failure stands where it goes wrong: what comes before it
is the start of a program, and what comes after it makes no difference.

* `Frontier.position_noteAll`: the frontier is the furthest failure.
* `exists_continuation`: the tokens in front of a failure are the start of a unit.
* `failed_reading_is_at_frontier`: both, for the furthest failure.
-/

namespace ClassSyntax

/-! ## The furthest failure -/

namespace Frontier

theorem position_le_note (frontier : Frontier) (failure : Failure) :
    frontier.position ≤ (frontier.note failure).position ∧
      failure.position ≤ (frontier.note failure).position := by
  unfold note
  split
  · rename_i further
    exact ⟨Nat.le_of_lt further, Nat.le_refl _⟩
  · rename_i near
    split <;> exact ⟨Nat.le_refl _, Nat.le_of_not_lt near⟩

theorem position_note (frontier : Frontier) (failure : Failure) :
    (frontier.note failure).position = frontier.position ∨
      (frontier.note failure).position = failure.position := by
  unfold note
  split
  · exact .inr rfl
  · split <;> exact .inl rfl

theorem position_le_noteAll (frontier : Frontier) (log : List Failure) :
    frontier.position ≤ (frontier.noteAll log).position ∧
      ∀ failure ∈ log, failure.position ≤ (frontier.noteAll log).position := by
  unfold noteAll
  induction log generalizing frontier with
  | nil => exact ⟨Nat.le_refl _, nofun⟩
  | cons failure log ih =>
      obtain ⟨before, rest⟩ := ih (frontier.note failure)
      obtain ⟨start, here⟩ := frontier.position_le_note failure
      exact ⟨Nat.le_trans start before,
        List.forall_mem_cons.mpr ⟨Nat.le_trans here before, rest⟩⟩

theorem position_noteAll_mem (frontier : Frontier) (log : List Failure) :
    (frontier.noteAll log).position = frontier.position ∨
      ∃ failure ∈ log, (frontier.noteAll log).position = failure.position := by
  unfold noteAll
  induction log generalizing frontier with
  | nil => exact .inl rfl
  | cons failure log ih =>
      rw [List.foldl_cons]
      rcases ih (frontier.note failure) with same | ⟨later, member, same⟩
      · rw [same]
        rcases frontier.position_note failure with before | here
        · exact .inl before
        · exact .inr ⟨failure, List.mem_cons_self, here⟩
      · exact .inr ⟨later, List.mem_cons_of_mem _ member, same⟩

/-- The frontier is at the furthest failure, if there is one. -/
theorem position_noteAll {log : List Failure} (missed : log ≠ []) :
    (∃ failure ∈ log, failure.position = (start.noteAll log).position) ∧
      ∀ failure ∈ log, failure.position ≤ (start.noteAll log).position := by
  have furthest := (start.position_le_noteAll log).2
  refine ⟨?_, furthest⟩
  rcases start.position_noteAll_mem log with none | ⟨failure, member, same⟩
  · -- then all failures are at the first token
    obtain ⟨failure, rest, rfl⟩ := List.exists_cons_of_ne_nil missed
    have first := furthest failure List.mem_cons_self
    rw [none] at first ⊢
    exact ⟨failure, List.mem_cons_self, Nat.le_zero.mp first⟩
  · exact ⟨failure, member, same.symm⟩

end Frontier

/-! ## What comes before a failure -/

/-- Two streams that spell the same word agree on it. -/
theorem Spells.agree {stream other : TokenStream} {start stop last : Nat} {word : List Token}
    (spells : Spells stream start word stop) (again : Spells other start word last) {place : Nat}
    (behind : start ≤ place) (inside : place < stop) : other.get place = stream.get place := by
  induction word generalizing start with
  | nil =>
      obtain rfl := spells_nil.mp spells
      omega
  | cons token word ih =>
      rcases Nat.eq_or_lt_of_le behind with rfl | further
      · rw [spells.1, again.1]
      · exact ih spells.2 again.2 further

/-- The tokens in front of a failure are the start of a unit. -/
theorem exists_continuation {stream : TokenStream} {outcome : Outcome} {log : List Failure}
    (read : Reads stream "" (.rule .program) 0 outcome log) {failure : Failure}
    (member : failure ∈ log) :
    ∃ others : List Token,
      (∀ place < failure.position, (TokenStream.ofTokens others).get place = stream.get place) ∧
        ∃ outline, Accepts (TokenStream.ofTokens others) "" (.rule .program) 0
          (TokenStream.ofTokens others).size outline := by
  obtain ⟨word, rest, outline, spells, derived⟩ :=
    (read.covered (by decide)).missed failure member
  have whole := spells_ofTokens derived.isEnd_eq_false
  obtain ⟨middle, front, -⟩ := spells_append.mp whole
  refine ⟨word ++ rest, fun place before => spells.agree front (Nat.zero_le _) before, outline, ?_⟩
  rw [accepts_program_iff, (spells_body _).unique whole]
  exact derived

/-! ## What is reported -/

/-- What a diagnostic says, but for the line. -/
def Diagnostic.gist (diagnostic : Diagnostic) : String × Found :=
  (diagnostic.expected, diagnostic.found)

section

variable {stream other : TokenStream}

theorem gist_missing {place : Nat} (alike : (other.get place).Alike (stream.get place))
    (expected : String) :
    (Diagnostic.missing (other.get place) expected).gist =
      (Diagnostic.missing (stream.get place) expected).gist :=
  congrArg (Prod.mk expected) alike.found

/-- Where the tokens at the failures are the same, the same is reported. -/
theorem gist_ofReading {failure : Failure} {log : List Failure}
    (here : (other.get failure.position).Alike (stream.get failure.position))
    (furthest : (other.get (Frontier.start.noteAll log).position).Alike
      (stream.get (Frontier.start.noteAll log).position)) :
    (Verdict.ofReading other (.fail failure, log)).diagnostics.map Diagnostic.gist =
      (Verdict.ofReading stream (.fail failure, log)).diagnostics.map Diagnostic.gist := by
  have same : ((Frontier.start.noteAll log).diagnostics other).map Diagnostic.gist =
      ((Frontier.start.noteAll log).diagnostics stream).map Diagnostic.gist := by
    unfold Frontier.diagnostics
    rw [List.map_map, List.map_map]
    exact List.map_congr_left fun expected _ => gist_missing furthest expected
  have empty : ∀ some : TokenStream,
      ((Frontier.start.noteAll log).diagnostics some).isEmpty =
        (Frontier.start.noteAll log).expected.isEmpty :=
    fun some => List.isEmpty_map
  simp only [Verdict.ofReading, Verdict.diagnostics, empty]
  split
  · rw [List.map_singleton, List.map_singleton]
    exact congrArg (fun gist => [gist]) (gist_missing here failure.expected)
  · exact same

end

/-- Where no program can be read, the frontier is the furthest failure. The tokens before it are the
start of a unit; and whatever comes after it, or after one more token when a point stands there, the
reading fails and the same is reported. -/
theorem failed_reading_is_at_frontier {tokens : List Token} {failure : Failure}
    {log : List Failure}
    (failed : Rule.program.read (TokenStream.ofTokens tokens) "" 0 = (.fail failure, log)) :
    let stream := TokenStream.ofTokens tokens
    let frontier := (Frontier.start.noteAll log).position
    ((∃ missed ∈ log, missed.position = frontier) ∧
        ∀ missed ∈ log, missed.position ≤ frontier) ∧
      (∃ others : List Token,
        (∀ place < frontier, (TokenStream.ofTokens others).get place = stream.get place) ∧
          ∃ outline more, Rule.program.read (TokenStream.ofTokens others) "" 0 =
            (.ok (TokenStream.ofTokens others).size outline, more)) ∧
      ∀ others : List Token, AgreesTo stream (TokenStream.ofTokens others) frontier →
        (∃ another more, Rule.program.read (TokenStream.ofTokens others) "" 0 =
          (.fail another, more)) ∧
        (check others).diagnostics.map Diagnostic.gist =
          (check tokens).diagnostics.map Diagnostic.gist := by
  intro stream frontier
  have read : Reads stream "" (.rule .program) 0 _ log := Phrase.read_eq_iff.mp failed
  have met := read.failure_mem rfl
  obtain ⟨⟨missed, member, position⟩, furthest⟩ :=
    Frontier.position_noteAll (List.ne_nil_of_mem met)
  refine ⟨⟨⟨missed, member, position⟩, furthest⟩, ?_, fun others agrees => ?_⟩
  · obtain ⟨others, agree, outline, more, again⟩ := exists_continuation read member
    rw [position] at agree
    exact ⟨others, agree, outline, more, Phrase.read_eq_iff.mpr again⟩
  · obtain ⟨another, again, same⟩ :=
      read.on_other rfl agrees ⟨furthest failure met, furthest⟩
    obtain rfl := Outcome.ending_eq_error.mp same
    have fails : Rule.program.read (TokenStream.ofTokens others) "" 0 = (.fail failure, log) :=
      Phrase.read_eq_iff.mpr again
    refine ⟨⟨failure, log, fails⟩, ?_⟩
    rw [check_eq fails, check_eq failed]
    exact gist_ofReading (agrees.upTo _ (furthest failure met)) (agrees.upTo _ (Nat.le_refl _))

/-- The tokens of `class A extends B . {`, where the name is not finished. -/
def unfinishedName : List Token :=
  [⟨.keyword, "class", 1⟩, ⟨.identifier, "A", 1⟩, ⟨.keyword, "extends", 1⟩,
    ⟨.identifier, "B", 1⟩, ⟨.punctuation, ".", 1⟩, ⟨.punctuation, "\x7b", 1⟩]

/-- A point that no name follows is looked past, and then it is the point that is wrong. -/
theorem unfinishedName_is_at_frontier :
    Rule.program.read (TokenStream.ofTokens unfinishedName) "" 0 =
        (.fail ⟨4, "\x7b"⟩, [⟨4, "\x7b"⟩]) ∧
      ∀ others : List Token,
        AgreesTo (TokenStream.ofTokens unfinishedName) (TokenStream.ofTokens others) 4 →
          (check others).diagnostics.map Diagnostic.gist = [("\x7b", .lexeme ".")] := by
  have failed : Rule.program.read (TokenStream.ofTokens unfinishedName) "" 0 =
      (.fail ⟨4, "\x7b"⟩, [⟨4, "\x7b"⟩]) :=
    Rule.read_eq_of_readWithin 1000 (by decide +kernel)
  refine ⟨failed, fun others agrees => ?_⟩
  obtain ⟨-, -, same⟩ := failed_reading_is_at_frontier failed
  rw [(same others agrees).2, check_eq failed]
  decide +kernel

end ClassSyntax

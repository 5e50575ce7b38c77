import Mathlib.Logic.Equiv.Basic
import ClassSyntax.Proofs.Renaming.Readings
import ClassSyntax.Verdict

/-!
# Renamed verdicts

What a verdict says depends on how names are spelled only in that it repeats them.

* `entryClass_renamed`: the arrangement of the classes, by their renamed names.
* `check_renamed`: the verdicts on two token lists of which one is the other renamed.
-/

namespace ClassSyntax

/-- The same reason, about renamed classes. -/
def Reason.rename (rename : String → String) : Reason → Reason
  | duplicateEntryClass name => duplicateEntryClass (rename name)
  | entryClassNotLast name => entryClassNotLast (rename name)
  | reason => reason

/-- The other diagnostic says the same of the opposite token. -/
structure Diagnostic.Renamed (rename : String → String) (tokens others : List Token)
    (diagnostic again : Diagnostic) : Prop where
  reason : again.reason = diagnostic.reason.rename rename
  expected : again.expected = diagnostic.expected
  opposite : ∃ token other, Token.Opposite tokens others token other ∧
    diagnostic.line = token.line ∧ diagnostic.found = Found.ofToken token ∧
    again.line = other.line ∧ again.found = Found.ofToken other

theorem Diagnostic.renamed_ofToken {rename : String → String} {tokens others : List Token}
    {token other : Token} (opposite : Token.Opposite tokens others token other) (reason : Reason)
    (expected : String) :
    (ofToken token reason expected).Renamed rename tokens others
      (ofToken other (reason.rename rename) expected) where
  reason := rfl
  expected := rfl
  opposite := ⟨token, other, opposite, rfl, rfl, rfl, rfl⟩

section

variable {rename : String → String} {tokens others : List Token}

/-! ## The arrangement of the classes -/

theorem ClassHeader.Renamed.diagnostic
    (alike : List.Forall₂ (Token.Renamed rename) tokens others) {header again : ClassHeader}
    (renamed : header.Renamed rename (.ofTokens tokens) (.ofTokens others) again)
    (reason : Reason) :
    (header.diagnostic reason).Renamed rename tokens others
      (again.diagnostic (reason.rename rename)) := by
  obtain ⟨place, here, there⟩ := renamed.place
  have opposite : Token.Opposite tokens others header.name again.name := by
    rw [here, there]
    exact Token.opposite_get alike place
  cases reason <;> exact Diagnostic.renamed_ofToken opposite _ _

/-- Renamed classes have the same first class of which something holds that does not hang on names. -/
theorem find?_renamed {stream other : TokenStream} {classes again : List ClassHeader}
    (renamed : List.Forall₂ (ClassHeader.Renamed rename stream other) classes again)
    (test : Nat → Bool) :
    Option.Rel (ClassHeader.Renamed rename stream other)
      (classes.find? fun header => test header.entryMethods)
      (again.find? fun header => test header.entryMethods) := by
  induction renamed with
  | nil => exact .none
  | @cons header other _ _ same _ ih =>
      rw [List.find?_cons, List.find?_cons, same.entryMethods]
      split
      · exact .some same
      · exact ih

/-- Renamed classes have renamed entry classes, or the same is wrong with both. -/
theorem entryClass_renamed (alike : List.Forall₂ (Token.Renamed rename) tokens others)
    {classes again : List ClassHeader}
    (renamed : List.Forall₂ (ClassHeader.Renamed rename (.ofTokens tokens) (.ofTokens others))
      classes again)
    {next following : Token} (opposite : Token.Opposite tokens others next following)
    (ends : following.isEnd = next.isEnd) :
    (∃ name, entryClass classes next = .ok name ∧
        entryClass again following = .ok (rename name)) ∨
      ∃ diagnostic other, entryClass classes next = .error diagnostic ∧
        entryClass again following = .error other ∧
          diagnostic.Renamed rename tokens others other := by
  induction renamed with
  | nil => exact .inr ⟨_, _, rfl, rfl, Diagnostic.renamed_ofToken opposite .missingEntryClass _⟩
  | @cons entry other later rest same more ih =>
      unfold entryClass
      by_cases none : entry.entryMethods = 0
      · rw [List.dropWhile_cons_of_pos (by simpa using none),
          List.dropWhile_cons_of_pos (by simpa [same.entryMethods] using none)]
        exact ih
      · rw [List.dropWhile_cons_of_neg (by simpa using none),
          List.dropWhile_cons_of_neg (by simpa [same.entryMethods] using none)]
        dsimp only
        rw [same.entryMethods, same.lexeme]
        split
        · exact .inr ⟨_, _, rfl, rfl, same.diagnostic alike (.duplicateEntryClass _)⟩
        · have found := find?_renamed more (fun count => decide (0 < count))
          generalize later.find? _ = second at found ⊢
          generalize rest.find? _ = another at found ⊢
          cases found with
          | some second =>
              refine .inr ⟨_, _, rfl, rfl, ?_⟩
              rw [second.lexeme]
              exact second.diagnostic alike (.duplicateEntryClass _)
          | none =>
              cases more with
              | cons first _ =>
                  exact .inr ⟨_, _, rfl, rfl, first.diagnostic alike (.entryClassNotLast _)⟩
              | nil =>
                  dsimp only
                  rw [ends]
                  split
                  · exact .inl ⟨_, rfl, rfl⟩
                  · exact .inr ⟨_, _, rfl, rfl, Diagnostic.renamed_ofToken opposite .trailingTokens _⟩

/-! ## The verdict -/

/-- Failures at one place of the two streams are reported alike. -/
theorem diagnostics_renamed (alike : List.Forall₂ (Token.Renamed rename) tokens others)
    (place : Nat) (expected : List String) :
    List.Forall₂ (Diagnostic.Renamed rename tokens others)
      (expected.map (Diagnostic.missing ((TokenStream.ofTokens tokens).get place)))
      (expected.map (Diagnostic.missing ((TokenStream.ofTokens others).get place))) := by
  induction expected with
  | nil => exact .nil
  | cons label expected ih =>
      exact .cons
        (Diagnostic.renamed_ofToken (Token.opposite_get alike place) .expectation label) ih

/-- Renamed streams are read as programs alike, and the same is missed. -/
theorem program_renamed {stream other : TokenStream} (faithful : Renaming rename)
    (renamed : stream.Renamed rename other) :
    ∃ again, Rule.program.read other "" 0 = (again, (Rule.program.read stream "" 0).2) ∧
      (Rule.program.read stream "" 0).1.Renamed rename stream other True again := by
  have read := Rule.reads_read stream "" .program 0
  have stands : (Phrase.rule .program).NameStands stream "" 0 := nofun
  obtain ⟨again, more, elsewhere, same, logs⟩ :=
    read.renamed faithful renamed rfl True fun _ => stands
  refine ⟨again, ?_, same⟩
  rw [← logs trivial]
  exact Phrase.read_eq_of_reads (elsewhere.in_any_class (by decide) "")

/-- How names, literals and other lexemes are spelled that the grammar does not know, and on which lines
the tokens stand, makes no difference: the verdicts on two token lists of which one is the other renamed
agree, and report renamed classes and opposite tokens. -/
theorem check_renamed (faithful : Renaming rename)
    (alike : List.Forall₂ (Token.Renamed rename) tokens others) :
    (check others).isAccepted = (check tokens).isAccepted ∧
      (check others).entryClass? = (check tokens).entryClass?.map rename ∧
      List.Forall₂ (Diagnostic.Renamed rename tokens others)
        (check tokens).diagnostics (check others).diagnostics := by
  have renamed := TokenStream.renamed_ofTokens alike
  obtain ⟨again, elsewhere, same⟩ := program_renamed faithful renamed
  unfold check
  dsimp only
  rw [elsewhere]
  generalize Rule.program.read (TokenStream.ofTokens tokens) "" 0 = ending at same ⊢
  obtain ⟨outcome, log⟩ := ending
  cases same with
  | @ok stop outline another body =>
      have opposite := Token.opposite_get alike stop
      unfold Verdict.ofReading
      dsimp only
      rcases entryClass_renamed alike body.classes opposite (renamed stop).isEnd with
        ⟨name, here, there⟩ | ⟨diagnostic, other, here, there, reported⟩
      · rw [here, there]
        exact ⟨rfl, rfl, .nil⟩
      · rw [here, there]
        exact ⟨rfl, rfl, .cons reported .nil⟩
  | @fail failure another equal =>
      obtain rfl := equal trivial
      have furthest := diagnostics_renamed alike (Frontier.start.noteAll log).position
        (Frontier.start.noteAll log).expected
      refine ⟨rfl, rfl, ?_⟩
      simp only [Verdict.ofReading, Verdict.diagnostics, Frontier.diagnostics, List.isEmpty_map]
      split
      · exact diagnostics_renamed alike another.position [another.expected]
      · exact furthest

end

/-! ## Two classes that change their names -/

/-- The token one line further down, and under its new name if it is one. -/
def Token.respell (rename : String → String) (token : Token) : Token :=
  ⟨token.kind, if token.kind = .identifier then rename token.lexeme else token.lexeme, token.line + 1⟩

theorem Token.renamed_respell (rename : String → String) (token : Token) :
    token.Renamed rename (token.respell rename) where
  kind := rfl
  fixed := fun listed => if_neg fun named => by simp [named] at listed
  name := fun named => if_pos named

/-- The tokens of `class A { public static void main(String[] x) { } } class B { }`. -/
def misplacedEntry : List Token :=
  [⟨.keyword, "class", 1⟩, ⟨.identifier, "A", 1⟩, ⟨.punctuation, "\x7b", 1⟩,
    ⟨.keyword, "public", 1⟩, ⟨.keyword, "static", 1⟩, ⟨.keyword, "void", 1⟩,
    ⟨.identifier, "main", 1⟩, ⟨.punctuation, "(", 1⟩, ⟨.identifier, "String", 1⟩,
    ⟨.punctuation, "[", 1⟩, ⟨.punctuation, "]", 1⟩, ⟨.identifier, "x", 1⟩,
    ⟨.punctuation, ")", 1⟩, ⟨.punctuation, "\x7b", 1⟩, ⟨.punctuation, "\x7d", 1⟩,
    ⟨.punctuation, "\x7d", 1⟩, ⟨.keyword, "class", 2⟩, ⟨.identifier, "B", 2⟩,
    ⟨.punctuation, "\x7b", 2⟩, ⟨.punctuation, "\x7d", 2⟩]

/-- When two classes swap their names, the misplaced entry class is reported by its new name. -/
theorem misplacedEntry_renamed :
    let swap := Equiv.swap "A" "B"
    Renaming swap ∧
      List.Forall₂ (Token.Renamed swap) misplacedEntry (misplacedEntry.map (Token.respell swap)) ∧
      (check misplacedEntry).diagnostics =
        [⟨2, "entry class as the last class", .lexeme "B", .entryClassNotLast "A"⟩] ∧
      (check (misplacedEntry.map (Token.respell swap))).diagnostics.map Diagnostic.reason =
        [.entryClassNotLast "B"] := by
  intro swap
  have faithful : Renaming swap := ⟨swap.injective, by decide⟩
  have alike : List.Forall₂ (Token.Renamed swap) misplacedEntry
      (misplacedEntry.map (Token.respell swap)) :=
    List.forall₂_map_right_iff.mpr
      (List.forall₂_same.mpr fun token _ => Token.renamed_respell swap token)
  have verdict : check misplacedEntry = .rejected
      [⟨2, "entry class as the last class", .lexeme "B", .entryClassNotLast "A"⟩] :=
    check_eq_of_checkWithin 1000 (by decide +kernel)
  obtain ⟨-, -, reported⟩ := check_renamed faithful alike
  rw [verdict] at reported ⊢
  refine ⟨faithful, alike, rfl, ?_⟩
  obtain ⟨again, rest, same, none, listed⟩ := List.forall₂_cons_left_iff.mp reported
  obtain rfl := List.forall₂_nil_left_iff.mp none
  rw [listed, List.map_singleton, same.reason]
  decide

end ClassSyntax

import ClassSyntax.Proofs.Language.Accepts
import ClassSyntax.Proofs.Renaming.Tokens

/-!
# Renamed readings

On a renamed stream a phrase is read in the same way. Only where the name of a class is missing could a
name get into what is reported; and it never is, since a constructor is read only where one was seen.

* `Phrase.NameStands`: where a phrase asks for the name of the class, the name stands.
* `Reads.renamed`: the reading of a phrase on a renamed stream.
* `Reads.in_any_class`: a phrase that never asks for the name of a class is read alike in all of them.
-/

namespace ClassSyntax

/-! ## What a phrase looks at -/

namespace Phrase

/-- All tokens are looked at through blind terminals, or through the name of the class. -/
def blind : Phrase → Bool
  | expect choices _ => choices.all Terminal.blind
  | seq first second | orElse first second => first.blind && second.blind
  | ifNext ahead yes no =>
      (ahead.all fun choices => choices.all Terminal.blind) && yes.blind && no.blind
  | whileNext ahead body => (ahead.all fun choices => choices.all Terminal.blind) && body.blind
  | ifAhead trial yes no => trial.blind && yes.blind && no.blind
  | inClass body => body.blind
  | _ => true

/-- The phrase itself does not ask for the name of the class, trials apart. -/
def impersonal : Phrase → Bool
  | expectOwnName => false
  | rule called => called != .constructor
  | seq first second | orElse first second => first.impersonal && second.impersonal
  | ifNext _ yes no | ifAhead _ yes no => yes.impersonal && no.impersonal
  | whileNext _ body | inClass body => body.impersonal
  | _ => true

/-- Where the reading of the phrase asks for the name of the class, trials apart, the name stands. -/
def NameStands (stream : TokenStream) : String → Phrase → Nat → Prop
  | own, expectOwnName, start => (Terminal.named own).admits (stream.get start) = true
  | own, rule called, start =>
      called = .constructor → ∀ stop outline,
        Accepts stream own (.rule .modifiers) start stop outline →
          (Terminal.named own).admits (stream.get stop) = true
  | own, seq first second, start =>
      first.NameStands stream own start ∧ ∀ middle outline,
        Accepts stream own first start middle outline → second.NameStands stream own middle
  | own, orElse first second, start =>
      first.NameStands stream own start ∧ second.NameStands stream own start
  | own, ifNext _ yes no, start => yes.NameStands stream own start ∧ no.NameStands stream own start
  | own, whileNext _ body, _ => ∀ place, body.NameStands stream own place
  | own, ifAhead trial yes no, start =>
      ((∃ stop outline, Accepts stream own trial start stop outline) →
          yes.NameStands stream own start) ∧ no.NameStands stream own start
  | _, inClass body, start => body.NameStands stream (stream.get start).lexeme (start + 1)
  | _, _, _ => True

theorem nameStands_of_impersonal {stream : TokenStream} {phrase : Phrase}
    (impersonal : phrase.impersonal = true) (own : String) (start : Nat) :
    phrase.NameStands stream own start := by
  induction phrase generalizing own start with
  | expectOwnName => exact Bool.noConfusion impersonal
  | rule called =>
      intro constructor
      simp [Phrase.impersonal, constructor] at impersonal
  | seq first second ihFirst ihSecond =>
      simp only [Phrase.impersonal, Bool.and_eq_true] at impersonal
      exact ⟨ihFirst impersonal.1 own start, fun middle _ _ => ihSecond impersonal.2 own middle⟩
  | orElse first second ihFirst ihSecond =>
      simp only [Phrase.impersonal, Bool.and_eq_true] at impersonal
      exact ⟨ihFirst impersonal.1 own start, ihSecond impersonal.2 own start⟩
  | ifNext ahead yes no ihYes ihNo =>
      simp only [Phrase.impersonal, Bool.and_eq_true] at impersonal
      exact ⟨ihYes impersonal.1 own start, ihNo impersonal.2 own start⟩
  | ifAhead trial yes no _ ihYes ihNo =>
      simp only [Phrase.impersonal, Bool.and_eq_true] at impersonal
      exact ⟨fun _ => ihYes impersonal.1 own start, ihNo impersonal.2 own start⟩
  | whileNext ahead body ih => exact fun place => ih impersonal own place
  | inClass body ih => exact ih impersonal _ _
  | done | expect | fail | countEntry => trivial

end Phrase

namespace Rule

theorem body_blind (rule : Rule) : rule.body.blind = true := by
  cases rule with
  | declarators role | declarator role => rfl
  | binaryExpr level => cases level <;> decide
  | _ => decide

theorem body_impersonal {rule : Rule} (noConstructor : rule ≠ .constructor)
    (noMember : rule ≠ .member) : rule.body.impersonal = true := by
  cases rule with
  | declarators role | declarator role => rfl
  | binaryExpr level => cases level <;> decide
  | constructor => exact absurd rfl noConstructor
  | member => exact absurd rfl noMember
  | _ => decide

/-- In front of a constructor the name of the class was seen behind the modifiers. -/
theorem body_nameStands {stream : TokenStream} {own : String} {rule : Rule} {start : Nat}
    (stands : (Phrase.rule rule).NameStands stream own start) :
    rule.body.NameStands stream own start := by
  by_cases isConstructor : rule = .constructor
  · subst isConstructor
    refine ⟨nofun, fun middle outline accepted => ⟨stands rfl middle outline accepted, ?_⟩⟩
    exact fun place _ _ => Phrase.nameStands_of_impersonal rfl own place
  · by_cases isMember : rule = .member
    · subst isMember
      refine ⟨Phrase.nameStands_of_impersonal rfl own start, ?_, ?_⟩
      · rintro ⟨stop, outline, headed⟩ - middle behind accepted
        obtain ⟨place, _, _, modifiers, rest, -⟩ := accepts_seq.mp headed
        obtain ⟨rfl, -⟩ := modifiers.unique accepted
        obtain ⟨_, _, _, named, -, -⟩ := accepts_seq.mp rest
        exact (accepts_expectOwnName.mp named).1
      · exact Phrase.nameStands_of_impersonal rfl own start
    · exact Phrase.nameStands_of_impersonal (body_impersonal isConstructor isMember) own start

end Rule

/-! ## What was read -/

section

variable {rename : String → String} {stream other : TokenStream}

/-- The names of the two classes stand at the same place, and one is the other renamed. -/
structure ClassHeader.Renamed (rename : String → String) (stream other : TokenStream)
    (header again : ClassHeader) : Prop where
  place : ∃ place, header.name = stream.get place ∧ again.name = other.get place
  lexeme : again.name.lexeme = rename header.name.lexeme
  entryMethods : again.entryMethods = header.entryMethods

/-- The same classes, by renamed names. -/
structure Outline.Renamed (rename : String → String) (stream other : TokenStream)
    (outline again : Outline) : Prop where
  classes : List.Forall₂ (ClassHeader.Renamed rename stream other) outline.classes again.classes
  entryMethods : again.entryMethods = outline.entryMethods

/-- Both readings end well at the same place, or both fail; at the same failure if `exact` holds. -/
inductive Outcome.Renamed (rename : String → String) (stream other : TokenStream) (exact : Prop) :
    Outcome → Outcome → Prop
  | ok {stop : Nat} {outline again : Outline} :
      outline.Renamed rename stream other again →
      Outcome.Renamed rename stream other exact (.ok stop outline) (.ok stop again)
  | fail {failure again : Failure} :
      (exact → again = failure) →
      Outcome.Renamed rename stream other exact (.fail failure) (.fail again)

theorem Outline.Renamed.empty : Outline.empty.Renamed rename stream other .empty := ⟨.nil, rfl⟩

theorem Outline.Renamed.entryMethod :
    Outline.entryMethod.Renamed rename stream other .entryMethod :=
  ⟨.nil, rfl⟩

theorem Outline.Renamed.append {before after first second : Outline}
    (left : before.Renamed rename stream other first)
    (right : after.Renamed rename stream other second) :
    (before ++ after).Renamed rename stream other (first ++ second) where
  classes := List.rel_append left.classes right.classes
  entryMethods := congrArg₂ (· + ·) left.entryMethods right.entryMethods

theorem Outcome.Renamed.after {exact : Prop} {before first : Outline} {outcome again : Outcome}
    (left : before.Renamed rename stream other first)
    (right : outcome.Renamed rename stream other exact again) :
    (outcome.after before).Renamed rename stream other exact (again.after first) := by
  cases right with
  | ok right => exact .ok (left.append right)
  | fail same => exact .fail same

theorem Outcome.Renamed.close {exact : Prop} {outcome again : Outcome} {place : Nat}
    (named : (other.get place).lexeme = rename (stream.get place).lexeme)
    (body : outcome.Renamed rename stream other exact again) :
    (outcome.close (stream.get place)).Renamed rename stream other exact
      (again.close (other.get place)) := by
  cases body with
  | ok body =>
      refine .ok ⟨List.rel_append body.classes (.cons ⟨⟨place, rfl, rfl⟩, named, ?_⟩ .nil), rfl⟩
      exact body.entryMethods
  | fail same => exact .fail same

end

/-! ## Readings on the renamed stream -/

/-- On a renamed stream a phrase is read alike. If the name of the class stands where it is asked for,
the same is missed. -/
theorem Reads.renamed {rename : String → String} {stream other : TokenStream}
    (faithful : Renaming rename) (renamed : stream.Renamed rename other) {own : String}
    {phrase : Phrase} {start : Nat} {outcome : Outcome} {log : List Failure}
    (read : Reads stream own phrase start outcome log) (blind : phrase.blind = true)
    (exact : Prop) (stands : exact → phrase.NameStands stream own start) :
    ∃ again more, Reads other (rename own) phrase start again more ∧
      outcome.Renamed rename stream other exact again ∧ (exact → more = log) := by
  induction read generalizing exact with
  | done => exact ⟨_, _, .done, .ok .empty, fun _ => rfl⟩
  | countEntry => exact ⟨_, _, .countEntry, .ok .entryMethod, fun _ => rfl⟩
  | fail => exact ⟨_, _, .fail, .fail fun _ => rfl, fun _ => rfl⟩
  | expectFound found =>
      rw [← (renamed _).allow faithful blind] at found
      exact ⟨_, _, .expectFound found, .ok .empty, fun _ => rfl⟩
  | expectMissing missing =>
      rw [← (renamed _).allow faithful blind] at missing
      exact ⟨_, _, .expectMissing missing, .fail fun _ => rfl, fun _ => rfl⟩
  | ownFound found =>
      rw [← (renamed _).admits_named faithful] at found
      exact ⟨_, _, .ownFound found, .ok .empty, fun _ => rfl⟩
  | ownMissing missing =>
      -- here alone is a name reported, and it is not missing where it has to stand
      have absent : ¬ exact := fun holds =>
        Bool.noConfusion (missing.symm.trans (stands holds))
      rw [← (renamed _).admits_named faithful] at missing
      exact ⟨_, _, .ownMissing missing, .fail (absurd · absent), (absurd · absent)⟩
  | rule _ ih =>
      obtain ⟨again, more, body, same, logs⟩ :=
        ih (Rule.body_blind _) exact fun holds => Rule.body_nameStands (stands holds)
      exact ⟨again, more, .rule body, same, logs⟩
  | seqOk one _ ihFirst ihSecond =>
      simp only [Phrase.blind, Bool.and_eq_true] at blind
      obtain ⟨_, log, first, ⟨left⟩, logFirst⟩ := ihFirst blind.1 exact fun holds => (stands holds).1
      obtain ⟨again, more, second, right, logSecond⟩ :=
        ihSecond blind.2 exact fun holds => (stands holds).2 _ _ ⟨_, one⟩
      exact ⟨_, _, .seqOk first second, .after left right,
        fun holds => congrArg₂ (· ++ ·) (logFirst holds) (logSecond holds)⟩
  | seqFail _ ih =>
      simp only [Phrase.blind, Bool.and_eq_true] at blind
      obtain ⟨_, log, first, _ | same, logs⟩ := ih blind.1 exact fun holds => (stands holds).1
      exact ⟨_, _, .seqFail first, .fail same, logs⟩
  | ifNextYes next _ ih =>
      simp only [Phrase.blind, Bool.and_eq_true] at blind
      rw [← renamed.startsWith faithful blind.1.1] at next
      obtain ⟨again, more, yes, same, logs⟩ := ih blind.1.2 exact fun holds => (stands holds).1
      exact ⟨again, more, .ifNextYes next yes, same, logs⟩
  | ifNextNo next _ ih =>
      simp only [Phrase.blind, Bool.and_eq_true] at blind
      rw [← renamed.startsWith faithful blind.1.1] at next
      obtain ⟨again, more, no, same, logs⟩ := ih blind.2 exact fun holds => (stands holds).2
      exact ⟨again, more, .ifNextNo next no, same, logs⟩
  | whileStop next =>
      simp only [Phrase.blind, Bool.and_eq_true] at blind
      rw [← renamed.startsWith faithful blind.1] at next
      exact ⟨_, _, .whileStop next, .ok .empty, fun _ => rfl⟩
  | whileMore next _ _ ihBody ihRest =>
      obtain ⟨again, more, rest, right, logRest⟩ := ihRest blind exact fun holds => stands holds
      simp only [Phrase.blind, Bool.and_eq_true] at blind
      rw [← renamed.startsWith faithful blind.1] at next
      obtain ⟨_, log, body, ⟨left⟩, logBody⟩ := ihBody blind.2 exact fun holds => stands holds _
      exact ⟨_, _, .whileMore next body rest, .after left right,
        fun holds => congrArg₂ (· ++ ·) (logBody holds) (logRest holds)⟩
  | whileFail next _ ih =>
      simp only [Phrase.blind, Bool.and_eq_true] at blind
      rw [← renamed.startsWith faithful blind.1] at next
      obtain ⟨_, log, body, _ | same, logs⟩ := ih blind.2 exact fun holds => stands holds _
      exact ⟨_, _, .whileFail next body, .fail same, logs⟩
  | orElseFirst _ ih =>
      simp only [Phrase.blind, Bool.and_eq_true] at blind
      obtain ⟨_, log, first, ⟨same⟩, logs⟩ := ih blind.1 exact fun holds => (stands holds).1
      exact ⟨_, _, .orElseFirst first, .ok same, logs⟩
  | orElseSecond _ _ ihFirst ihSecond =>
      simp only [Phrase.blind, Bool.and_eq_true] at blind
      obtain ⟨_, log, first, _ | _, logFirst⟩ := ihFirst blind.1 exact fun holds => (stands holds).1
      obtain ⟨again, more, second, same, logSecond⟩ :=
        ihSecond blind.2 exact fun holds => (stands holds).2
      exact ⟨_, _, .orElseSecond first second, same,
        fun holds => congrArg₂ (· ++ ·) (logFirst holds) (logSecond holds)⟩
  | ifAheadYes tried _ ihTrial ih =>
      simp only [Phrase.blind, Bool.and_eq_true] at blind
      -- what a trial misses is not reported, so that any name may be missing in it
      obtain ⟨_, _, trial, ⟨_⟩, -⟩ := ihTrial blind.1.1 False False.elim
      obtain ⟨again, more, yes, same, logs⟩ :=
        ih blind.1.2 exact fun holds => (stands holds).1 ⟨_, _, _, tried⟩
      exact ⟨again, more, .ifAheadYes trial yes, same, logs⟩
  | ifAheadNo _ _ ihTrial ih =>
      simp only [Phrase.blind, Bool.and_eq_true] at blind
      obtain ⟨_, _, trial, _ | _, -⟩ := ihTrial blind.1.1 False False.elim
      obtain ⟨again, more, no, same, logs⟩ := ih blind.2 exact fun holds => (stands holds).2
      exact ⟨again, more, .ifAheadNo trial no, same, logs⟩
  | classFound found _ ih =>
      have named := (renamed _).name_of_admits found
      obtain ⟨again, more, body, same, logs⟩ := ih blind exact fun holds => stands holds
      rw [← (renamed _).admits faithful rfl] at found
      rw [← named] at body
      exact ⟨_, _, .classFound found body, same.close named, logs⟩
  | classMissing missing =>
      rw [← (renamed _).admits faithful rfl] at missing
      exact ⟨_, _, .classMissing missing, .fail fun _ => rfl, fun _ => rfl⟩

/-! ## Outside of classes -/

/-- The rules that are read outside of classes. -/
def Rule.outerRules : List Rule := [program, importDecl, qualifiedName, modifiers, classDecl]

/-- The phrase does not ask for the name of a class around it. -/
def Phrase.classless : Phrase → Bool
  | expectOwnName => false
  | rule called => Rule.outerRules.contains called
  | seq first second | orElse first second => first.classless && second.classless
  | ifNext _ yes no => yes.classless && no.classless
  | whileNext _ body => body.classless
  | ifAhead trial yes no => trial.classless && yes.classless && no.classless
  | _ => true

theorem Rule.body_classless {rule : Rule} (outer : (Phrase.rule rule).classless = true) :
    rule.body.classless = true := by
  simp only [Phrase.classless, List.contains_iff_mem] at outer
  have decided : ∀ rule ∈ outerRules, rule.body.classless = true := by decide
  exact decided rule outer

/-- What does not ask for the name of a class is read alike in all of them. -/
theorem Reads.in_any_class {stream : TokenStream} {own : String} {phrase : Phrase} {start : Nat}
    {outcome : Outcome} {log : List Failure} (read : Reads stream own phrase start outcome log)
    (classless : phrase.classless = true) (another : String) :
    Reads stream another phrase start outcome log := by
  induction read with
  | done => exact .done
  | countEntry => exact .countEntry
  | fail => exact .fail
  | expectFound found => exact .expectFound found
  | expectMissing missing => exact .expectMissing missing
  | ownFound | ownMissing => exact Bool.noConfusion classless
  | classFound found body _ => exact .classFound found body
  | classMissing missing => exact .classMissing missing
  | rule _ ih => exact .rule (ih (Rule.body_classless classless))
  | seqOk _ _ ihFirst ihSecond =>
      simp only [Phrase.classless, Bool.and_eq_true] at classless
      exact .seqOk (ihFirst classless.1) (ihSecond classless.2)
  | seqFail _ ih =>
      simp only [Phrase.classless, Bool.and_eq_true] at classless
      exact .seqFail (ih classless.1)
  | ifNextYes next _ ih =>
      simp only [Phrase.classless, Bool.and_eq_true] at classless
      exact .ifNextYes next (ih classless.1)
  | ifNextNo next _ ih =>
      simp only [Phrase.classless, Bool.and_eq_true] at classless
      exact .ifNextNo next (ih classless.2)
  | whileStop next => exact .whileStop next
  | whileMore next _ _ ihBody ihRest => exact .whileMore next (ihBody classless) (ihRest classless)
  | whileFail next _ ih => exact .whileFail next (ih classless)
  | orElseFirst _ ih =>
      simp only [Phrase.classless, Bool.and_eq_true] at classless
      exact .orElseFirst (ih classless.1)
  | orElseSecond _ _ ihFirst ihSecond =>
      simp only [Phrase.classless, Bool.and_eq_true] at classless
      exact .orElseSecond (ihFirst classless.1) (ihSecond classless.2)
  | ifAheadYes _ _ ihTrial ih =>
      simp only [Phrase.classless, Bool.and_eq_true] at classless
      exact .ifAheadYes (ihTrial classless.1.1) (ih classless.1.2)
  | ifAheadNo _ _ ihTrial ih =>
      simp only [Phrase.classless, Bool.and_eq_true] at classless
      exact .ifAheadNo (ihTrial classless.1.1) (ih classless.2)

end ClassSyntax

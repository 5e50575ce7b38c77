import ClassSyntax.Proofs.Language.Coverage

/-!
# Every token of a first set starts a word

That a word starts with a token of the first set is in `Derives.starts`. Here is the converse. The
nonterminals are ordered by how far a production can go down before its first token, and the first set of each
is found again in its production, where every other part has a word. Only the first sets of constructors are
too large, whose names are not up to them.

* `production_opening`: a first set is found again in the production.
* `Form.opens`: every token that is found in a form starts a word of it.
* `Nonterminal.first_exact`: first sets are exact.
-/

namespace ClassSyntax

namespace Nonterminal

/-- How far a production can go down before its first token. -/
def slope : Nonterminal → Nat
  | typeName | classDecl | constructor | primary | assignment | increment | call => 1
  | unit | attributeDecl | method | param | varDecl | simple | unary => 2
  | member | forInit => 3
  | binary level => 3 + level.depth
  | expr => 9
  | stmt => 10
  | _ => 0

/-- The tokens with which words start in every class. -/
def opening : Nonterminal → Terminals
  | constructor => First.modifier
  | name => name.first

end Nonterminal

namespace Form

/-- The empty word is a word of the form. -/
def skippable : Form → Bool
  | empty | many _ => true
  | token _ | ownName | symbol _ | guarded _ _ | unlike _ _ | inClass _ | countEntry => false
  | seq first second => first.skippable && second.skippable
  | alt left right => left.skippable || right.skippable

/-- The tokens that are found at the start of the form, below nonterminals of less than this slope. -/
def opening (bound : Nat) : Form → Terminals
  | empty | ownName | guarded _ _ | unlike _ _ | countEntry => []
  | token choices => choices
  | symbol name => if name.slope < bound then name.opening else []
  | seq first second =>
      (if second.fruitful 10 then first.opening bound else []) ++
        if first.skippable then second.opening bound else []
  | alt left right => left.opening bound ++ right.opening bound
  | many body => body.opening bound
  | inClass body => if body.fruitful 10 then [.identifier] else []

/-- In every class some word of the form starts with the token. -/
def Opens (form : Form) (token : Token) : Prop :=
  ∀ own, ∃ rest outline, Derives Nonterminal.production own form (token :: rest) outline

theorem derives_of_skippable {form : Form} (skippable : form.skippable = true) (own : String) :
    Derives Nonterminal.production own form [] .empty := by
  induction form with
  | empty => exact .empty
  | many => exact .manyNone
  | seq first second ihFirst ihSecond =>
      rw [Form.skippable, Bool.and_eq_true] at skippable
      have both := Derives.seq (ihFirst skippable.1) (ihSecond skippable.2)
      rwa [Outline.empty_append] at both
  | alt left right ihLeft ihRight =>
      rw [Form.skippable, Bool.or_eq_true] at skippable
      cases skippable with
      | inl skippable => exact .left (ihLeft skippable)
      | inr skippable => exact .right (ihRight skippable)
  | _ => exact Bool.noConfusion skippable

end Form

/-- The first set of a nonterminal is found again in its production. -/
theorem production_opening {name : Nonterminal} (other : name ≠ .member) :
    name.opening.within (name.production.opening name.slope) = true := by
  cases name with
  | member => exact absurd rfl other
  | binary level => cases level <;> decide
  | _ => decide

section

variable {token : Token}

/-- A set that is only there on a condition holds no token unless the condition holds. -/
theorem allow_ite {condition : Bool} {choices : Terminals}
    (allowed : Terminals.allow (if condition then choices else []) token = true) :
    condition = true ∧ choices.allow token = true := by
  cases condition with
  | true => exact ⟨rfl, allowed⟩
  | false => exact Bool.noConfusion allowed

theorem opens_step {bound : Nat}
    (lower : ∀ name : Nonterminal, name.slope < bound → name.opening.allow token = true →
      (Form.symbol name).Opens token)
    {form : Form} (allowed : (form.opening bound).allow token = true) : form.Opens token := by
  induction form with
  | empty | ownName | guarded | unlike | countEntry => exact Bool.noConfusion allowed
  | token choices => exact fun own => ⟨_, _, .token allowed⟩
  | symbol name =>
      unfold Form.opening at allowed
      split at allowed
      · rename_i below
        exact lower name below allowed
      · exact Bool.noConfusion allowed
  | seq first second ihFirst ihSecond =>
      rw [Form.opening, Terminals.allow_append, Bool.or_eq_true] at allowed
      intro own
      cases allowed with
      | inl allowed =>
          obtain ⟨fruitful, allowed⟩ := allow_ite allowed
          obtain ⟨front, before, one⟩ := ihFirst allowed own
          obtain ⟨back, after, two⟩ := exists_derives fruitful own
          exact ⟨front ++ back, _, .seq one two⟩
      | inr allowed =>
          obtain ⟨skippable, allowed⟩ := allow_ite allowed
          obtain ⟨rest, after, two⟩ := ihSecond allowed own
          exact ⟨rest, _, .seq (Form.derives_of_skippable skippable own) two⟩
  | alt left right ihLeft ihRight =>
      rw [Form.opening, Terminals.allow_append, Bool.or_eq_true] at allowed
      intro own
      cases allowed with
      | inl allowed =>
          obtain ⟨rest, outline, derived⟩ := ihLeft allowed own
          exact ⟨rest, outline, .left derived⟩
      | inr allowed =>
          obtain ⟨rest, outline, derived⟩ := ihRight allowed own
          exact ⟨rest, outline, .right derived⟩
  | many body ih =>
      intro own
      obtain ⟨rest, outline, derived⟩ := ih allowed own
      have round := Derives.manyMore derived .manyNone
      rw [List.append_nil] at round
      exact ⟨rest, _, round⟩
  | inClass body =>
      obtain ⟨fruitful, named⟩ := allow_ite allowed
      rw [Terminals.allow_singleton] at named
      intro own
      obtain ⟨rest, outline, derived⟩ := exists_derives fruitful token.lexeme
      exact ⟨rest, _, .inClass named derived⟩

/-- A word of a method that starts like an entry method is replaced by one. -/
theorem opens_member (opens : (Form.symbol .method).Opens token) :
    (Form.symbol .member).Opens token := by
  intro own
  obtain ⟨rest, outline, derived⟩ := opens own
  cases like : startsLike MemberKind.entryHeader (token :: rest) with
  | false =>
      exact ⟨rest, outline, .symbol (.right (.unlike (.right (.right derived)) like))⟩
  | true =>
      have long := length_le_of_startsLike like
      rw [← startsLike_take] at like
      have short : ((token :: rest).take MemberKind.entryHeader.length).length =
          MemberKind.entryHeader.length := by
        rw [List.length_take, Nat.min_eq_left long]
      obtain ⟨more, isEntry⟩ := exists_entryMethod own like short
      have counted := Derives.seq isEntry .countEntry
      exact ⟨_, _, .symbol (.left counted)⟩

/-- Every token of the set starts a word, whatever class encloses it. -/
theorem Nonterminal.opens {name : Nonterminal} (allowed : name.opening.allow token = true) :
    (Form.symbol name).Opens token := by
  induction slope : name.slope using Nat.strongRecOn generalizing name with
  | ind _ ih =>
      subst slope
      by_cases isMember : name = .member
      · subst isMember
        have lower : (Form.symbol .method).Opens token := @ih 2 (by decide) .method allowed rfl
        exact opens_member lower
      · have inside := Terminals.allow_of_within (production_opening isMember) allowed
        intro own
        obtain ⟨rest, outline, derived⟩ :=
          opens_step (fun other lower starts => ih other.slope lower starts rfl) inside own
        exact ⟨rest, outline, .symbol derived⟩

/-- Every token that is found at the start of a form starts a word of it. -/
theorem Form.opens {form : Form} (allowed : (form.opening 11).allow token = true) :
    form.Opens token :=
  opens_step (fun _ _ starts => Nonterminal.opens starts) allowed

/-- First sets are exact, but for the names of constructors. -/
theorem Nonterminal.first_exact {name : Nonterminal} (other : name ≠ .constructor) :
    name.first.allow token = true ↔ (Form.symbol name).Opens token := by
  constructor
  · intro allowed
    have same : name.opening = name.first := by
      cases name with
      | constructor => exact absurd rfl other
      | _ => rfl
    exact Nonterminal.opens (same.symm ▸ allowed)
  · intro opens
    obtain ⟨rest, outline, derived⟩ := opens ""
    exact derived.starts

end

end ClassSyntax

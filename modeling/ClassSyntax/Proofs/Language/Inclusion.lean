import ClassSyntax.Proofs.Language.Starts

/-!
# Inclusion of forms

A test for whether every word of one form is a word of another in the grammar of the language. It
compares the two forms part by part and looks up symbols where the parts differ.

* `Derives.mono`: the test is right when it says yes.
-/

namespace ClassSyntax

namespace Nonterminal

/-- The nonterminals that no rule reads by itself. -/
def inlined : List Nonterminal := [modifier, forInit, assignment, increment, call]

end Nonterminal

namespace Form

section

variable (test : Form → Form → Bool)

/-- Takes the first form apart. -/
def innerWithin (inner outer : Form) : Bool :=
  match inner with
  | alt left right => test left outer && test right outer
  | guarded _ body | unlike _ body => test body outer
  | seq first empty => test first outer
  | seq first (alt left right) => test (seq first left) outer && test (seq first right) outer
  | symbol name => decide (name ∈ Nonterminal.inlined) && test name.production outer
  | _ => false

/-- Takes the second form apart. -/
def outerWithin (inner outer : Form) : Bool :=
  match outer with
  | alt left right => test inner left || test inner right
  | guarded choices body => inner.first.within choices && test inner body
  | seq first empty => test inner first
  | symbol name => test inner name.production
  | _ => false

/-- Takes both forms apart. -/
def partsWithin (inner outer : Form) : Bool :=
  match inner, outer with
  | token choices, token others => choices.within others
  | seq first second, seq third fourth => test first third && test second fourth
  | many body, many other => test body other
  | inClass body, inClass other => test body other
  | _, _ => false

end

/-- Every word of the first form is a word of the second, as can be seen in so many steps. -/
def within : Nat → Form → Form → Bool
  | 0, _, _ => false
  | fuel + 1, inner, outer =>
      decide (inner = outer) || innerWithin (within fuel) inner outer ||
        outerWithin (within fuel) inner outer || partsWithin (within fuel) inner outer

end Form

theorem opensWith_of_begins {form : Form} {choices : Terminals} {word : List Token}
    (begins : form.Begins word) (inside : form.first.within choices = true) :
    opensWith choices word = true := by
  cases word with
  | nil => rfl
  | cons head _ => exact Terminals.allow_of_within inside begins

theorem Derives.many_mono {table : Nonterminal → Form} {body other : Form}
    (mono : ∀ {own word outline}, Derives table own body word outline →
      Derives table own other word outline)
    {own : String} {word : List Token} {outline : Outline}
    (derived : Derives table own (.many body) word outline) :
    Derives table own (.many other) word outline := by
  generalize same : Form.many body = form at derived
  induction derived with
  | manyNone => exact .manyNone
  | manyMore first _ _ ihRest =>
      obtain rfl := Form.many.inj same
      exact .manyMore (mono first) (ihRest rfl)
  | _ => exact nomatch same

/-- Whenever the test says so, every word of the first form is a word of the second. -/
def Form.Sound (test : Form → Form → Bool) : Prop :=
  ∀ {inner outer : Form}, test inner outer = true →
    ∀ {own : String} {word : List Token} {outline : Outline},
      Derives Nonterminal.production own inner word outline →
        Derives Nonterminal.production own outer word outline

namespace Form.Sound

variable {test : Form → Form → Bool}

theorem inner (sound : Sound test) : Sound (innerWithin test) := by
  intro inner outer inside own word outline derived
  unfold innerWithin at inside
  split at inside
  · simp only [Bool.and_eq_true] at inside
    rcases derives_alt.mp derived with left | right
    · exact sound inside.1 left
    · exact sound inside.2 right
  · exact sound inside (derives_guarded.mp derived).1
  · exact sound inside (derives_unlike.mp derived).1
  · obtain ⟨left, right, before, after, first, none, rfl, rfl⟩ := derives_seq.mp derived
    obtain ⟨rfl, rfl⟩ := derives_empty.mp none
    simpa using sound inside first
  · simp only [Bool.and_eq_true] at inside
    obtain ⟨left, right, before, after, first, second, rfl, rfl⟩ := derives_seq.mp derived
    rcases derives_alt.mp second with second | second
    · exact sound inside.1 (.seq first second)
    · exact sound inside.2 (.seq first second)
  · simp only [Bool.and_eq_true] at inside
    exact sound inside.2 (derives_symbol.mp derived)
  · exact Bool.noConfusion inside

theorem outer (sound : Sound test) : Sound (outerWithin test) := by
  intro inner outer inside own word outline derived
  unfold outerWithin at inside
  split at inside
  · simp only [Bool.or_eq_true] at inside
    rcases inside with inside | inside
    · exact .left (sound inside derived)
    · exact .right (sound inside derived)
  · simp only [Bool.and_eq_true] at inside
    exact .guarded (sound inside.2 derived) (opensWith_of_begins derived.begins inside.1)
  · simpa using Derives.seq (sound inside derived) .empty
  · exact .symbol (sound inside derived)
  · exact Bool.noConfusion inside

theorem parts (sound : Sound test) : Sound (partsWithin test) := by
  intro inner outer inside own word outline derived
  unfold partsWithin at inside
  split at inside
  · obtain ⟨token, allowed, rfl, rfl⟩ := derives_token.mp derived
    exact .token (Terminals.allow_of_within inside allowed)
  · simp only [Bool.and_eq_true] at inside
    obtain ⟨left, right, before, after, first, second, rfl, rfl⟩ := derives_seq.mp derived
    exact .seq (sound inside.1 first) (sound inside.2 second)
  · exact derived.many_mono (sound inside)
  · obtain ⟨name, rest, inner, admitted, held, rfl, rfl⟩ := derives_inClass.mp derived
    exact .inClass admitted (sound inside held)
  · exact Bool.noConfusion inside

end Form.Sound

theorem Form.sound_within (fuel : Nat) : Form.Sound (Form.within fuel) := by
  induction fuel with
  | zero => exact fun inside => Bool.noConfusion inside
  | succ fuel ih =>
      intro inner outer inside own word outline derived
      simp only [Form.within, Bool.or_eq_true, decide_eq_true_eq] at inside
      rcases inside with ((rfl | inside) | inside) | inside
      · exact derived
      · exact ih.inner inside derived
      · exact ih.outer inside derived
      · exact ih.parts inside derived

/-- What the test includes is included. -/
theorem Derives.mono (fuel : Nat) {inner outer : Form}
    (inside : inner.within fuel outer = true) {own : String} {word : List Token}
    {outline : Outline} (derived : Derives Nonterminal.production own inner word outline) :
    Derives Nonterminal.production own outer word outline :=
  Form.sound_within fuel inside derived

end ClassSyntax

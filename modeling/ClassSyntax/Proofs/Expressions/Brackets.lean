import Mathlib.Algebra.Ring.Int.Defs
import ClassSyntax.Proofs.Language.Words

/-!
# Brackets in words of the grammar

The words of every nonterminal close the brackets that they open, and close no others. Whether a word of a
form does so, and whether binary operators stand in it only inside brackets, is computed from the form.

* `Derives.sways`: how the nesting changes along a word.
* `Derives.shielded`: outside its brackets the word of an operand holds no binary operator.
-/

namespace ClassSyntax

/-- The brackets that open. -/
def opening : Terminals := [.mark "(", .mark "[", .mark "\x7b"]

/-- The brackets that close. -/
def closing : Terminals := [.mark ")", .mark "]", .mark "\x7d"]

/-- By how much a token changes the nesting. -/
def Token.bracket (token : Token) : Int :=
  if opening.allow token then 1 else if closing.allow token then -1 else 0

/-- The brackets opened in a word, less the brackets closed in it. -/
def nesting (word : List Token) : Int := (word.map Token.bracket).sum

@[simp] theorem nesting_nil : nesting [] = 0 := rfl

@[simp] theorem nesting_cons (token : Token) (word : List Token) :
    nesting (token :: word) = token.bracket + nesting word := by
  simp [nesting]

@[simp] theorem nesting_append (left right : List Token) :
    nesting (left ++ right) = nesting left + nesting right := by
  simp [nesting]

/-- By how much every token of the set changes the nesting, if they agree. -/
def Terminals.bracket (choices : Terminals) : Option Int :=
  if choices.within opening then some 1
  else if choices.within closing then some (-1)
  else if choices.apart (opening ++ closing) then some 0
  else none

theorem Terminals.bracket_of_allow {choices : Terminals} {token : Token} {change : Int}
    (settled : choices.bracket = some change) (allowed : choices.allow token = true) :
    token.bracket = change := by
  unfold Terminals.bracket at settled
  unfold Token.bracket
  split at settled
  · rename_i inside
    rw [if_pos (Terminals.allow_of_within inside allowed)]
    exact Option.some.inj settled
  · split at settled
    · rename_i inside
      have closes := Terminals.allow_of_within inside allowed
      have other : closing.apart opening = true := by decide
      rw [Terminals.not_allow_of_apart other closes, if_neg (by decide), if_pos closes]
      exact Option.some.inj settled
    · split at settled
      · rename_i apart
        have none := Terminals.not_allow_of_apart apart allowed
        rw [Terminals.allow_append, Bool.or_eq_false_iff] at none
        rw [none.1, none.2]
        exact Option.some.inj settled
      · exact nomatch settled

/-! ## How the nesting changes along a word -/

/-- Along the word the nesting never falls below `low`, and in the end it has changed by `change`. -/
structure Sways (low change : Int) (word : List Token) : Prop where
  settles : nesting word = change
  stays : ∀ before after, word = before ++ after → low ≤ nesting before

/-- How the nesting changes along the words of a form, if it does so in the same way along all of them. -/
def Form.sway : Form → Option (Int × Int)
  | empty | ownName | countEntry | symbol _ => some (0, 0)
  | token choices => choices.bracket.map fun change => (min 0 change, change)
  | seq first second =>
      match first.sway, second.sway with
      | some (low, change), some (other, more) => some (min low (change + other), change + more)
      | _, _ => none
  | alt left right =>
      match left.sway, right.sway with
      | some (low, change), some (other, same) =>
          if change = same then some (min low other, change) else none
      | _, _ => none
  | many body =>
      match body.sway with
      | some (low, 0) => some (min 0 low, 0)
      | _ => none
  | guarded _ body | unlike _ body | inClass body => body.sway

theorem production_sway (name : Nonterminal) : name.production.sway = some (0, 0) := by
  cases name with
  | binary level => cases level <;> decide
  | _ => decide

namespace Sways

variable {low change other more : Int} {word left right : List Token}

theorem nil : Sways 0 0 [] where
  settles := rfl
  stays := by
    intro before after same
    obtain ⟨rfl, -⟩ := List.append_eq_nil_iff.mp same.symm
    exact Int.le_refl 0

theorem single {token : Token} : Sways (min 0 token.bracket) token.bracket [token] where
  settles := by simp
  stays := by
    intro before after same
    cases before with
    | nil => exact Int.min_le_left _ _
    | cons head before =>
        obtain ⟨rfl, rest⟩ := List.cons.inj same
        obtain ⟨rfl, -⟩ := List.append_eq_nil_iff.mp rest.symm
        rw [nesting_cons, nesting_nil, Int.add_zero]
        exact Int.min_le_right _ _

/-- A name is no bracket. -/
theorem name {token : Token} (named : Terminal.identifier.admits token = true) :
    Sways 0 0 [token] := by
  have plain : Terminals.bracket [.identifier] = some 0 := by decide
  have single : Sways (min 0 token.bracket) token.bracket [token] := .single
  rwa [Terminals.bracket_of_allow plain (by rwa [Terminals.allow_singleton]), Int.min_self] at single

theorem low_le (sways : Sways low change word) : low ≤ 0 := sways.stays [] word rfl

theorem append (first : Sways low change left) (second : Sways other more right) :
    Sways (min low (change + other)) (change + more) (left ++ right) where
  settles := by rw [nesting_append, first.settles, second.settles]
  stays := by
    intro before after same
    rcases List.append_eq_append_iff.mp same with ⟨inside, rfl, rest⟩ | ⟨inside, rest, -⟩
    · have := second.stays inside after rest
      rw [nesting_append, first.settles]
      omega
    · have := first.stays before inside rest
      omega

theorem weaken (sways : Sways low change word) (lower : other ≤ low) : Sways other change word where
  settles := sways.settles
  stays := fun before after same => Int.le_trans lower (sways.stays before after same)

end Sways

/-- Along its words the nesting changes as the form says. -/
theorem Derives.sways {own : String} {form : Form} {word : List Token} {outline : Outline}
    (derived : Derives Nonterminal.production own form word outline) {low change : Int}
    (settled : form.sway = some (low, change)) : Sways low change word := by
  induction derived generalizing low change with
  | empty | countEntry =>
      obtain ⟨rfl, rfl⟩ := Prod.mk.inj (Option.some.inj settled)
      exact .nil
  | token allowed =>
      obtain ⟨_, found, same⟩ := Option.map_eq_some_iff.mp settled
      obtain ⟨rfl, rfl⟩ := Prod.mk.inj same
      rw [← Terminals.bracket_of_allow found allowed]
      exact .single
  | ownName admitted =>
      obtain ⟨rfl, rfl⟩ := Prod.mk.inj (Option.some.inj settled)
      exact .name (identifier_of_named admitted)
  | symbol _ ih =>
      obtain ⟨rfl, rfl⟩ := Prod.mk.inj (Option.some.inj settled)
      exact ih (production_sway _)
  | seq _ _ ihFirst ihSecond =>
      unfold Form.sway at settled
      split at settled
      · rename_i first second
        obtain ⟨rfl, rfl⟩ := Prod.mk.inj (Option.some.inj settled)
        exact (ihFirst first).append (ihSecond second)
      · exact nomatch settled
  | left _ ih =>
      unfold Form.sway at settled
      split at settled
      · rename_i left right
        split at settled
        · obtain ⟨rfl, rfl⟩ := Prod.mk.inj (Option.some.inj settled)
          exact (ih left).weaken (Int.min_le_left _ _)
        · exact nomatch settled
      · exact nomatch settled
  | right _ ih =>
      unfold Form.sway at settled
      split at settled
      · rename_i left right
        split at settled
        · rename_i same
          obtain ⟨rfl, rfl⟩ := Prod.mk.inj (Option.some.inj settled)
          exact same ▸ (ih right).weaken (Int.min_le_right _ _)
        · exact nomatch settled
      · exact nomatch settled
  | manyNone =>
      unfold Form.sway at settled
      split at settled
      · obtain ⟨rfl, rfl⟩ := Prod.mk.inj (Option.some.inj settled)
        exact Sways.nil.weaken (Int.min_le_left _ _)
      · exact nomatch settled
  | manyMore _ _ ihFirst ihRest =>
      have rest := ihRest settled
      unfold Form.sway at settled
      split at settled
      · rename_i round
        obtain ⟨rfl, rfl⟩ := Prod.mk.inj (Option.some.inj settled)
        exact ((ihFirst round).append rest).weaken (by omega)
      · exact nomatch settled
  | guarded _ _ ih | unlike _ _ ih => exact ih settled
  | inClass admitted _ ih =>
      have rest := ih settled
      have lowest := rest.low_le
      have whole := (Sways.name admitted).append rest
      rw [Int.zero_add, Int.zero_add] at whole
      exact whole.weaken (by omega)

/-! ## Operators inside brackets -/

/-- Outside its brackets the words of this nonterminal hold no binary operator. -/
def Nonterminal.shielded : Nonterminal → Bool
  | qualifiedName | target | primary | creation | args => true
  | _ => false

/-- Where words of the form stand at this depth, no binary operator in them stands outside all brackets. -/
def Form.shielded (depth : Int) : Form → Bool
  | empty | ownName | countEntry => true
  | token choices => decide (depth ≠ 0) || choices.apart Form.binaryOperators
  | symbol name => decide (0 < depth) || decide (depth = 0) && name.shielded
  | seq first second =>
      first.shielded depth &&
        first.sway.any fun (_, change) => second.shielded (depth + change)
  | alt left right => left.shielded depth && right.shielded depth
  | many body => body.shielded depth && body.sway.any fun (_, change) => change == 0
  | guarded _ body | unlike _ body => body.shielded depth
  | inClass _ => false

theorem production_shielded {name : Nonterminal} (shielded : name.shielded = true) :
    name.production.shielded 0 = true := by
  revert shielded
  cases name with
  | binary level => nofun
  | _ => decide

/-- A token of a word that is reached at this nesting, when the word stands at this depth. -/
def Exposes (depth : Int) (word : List Token) (token : Token) : Prop :=
  ∃ before after, word = before ++ token :: after ∧ depth + nesting before = 0

theorem exposes_append {depth change : Int} {left right : List Token} {token : Token}
    (settles : nesting left = change) (exposed : Exposes depth (left ++ right) token) :
    Exposes depth left token ∨ Exposes (depth + change) right token := by
  obtain ⟨before, after, same, outside⟩ := exposed
  rcases List.append_eq_append_iff.mp same with ⟨inside, rfl, rest⟩ | ⟨inside, rfl, rest⟩
  · refine .inr ⟨inside, after, rest, ?_⟩
    rw [nesting_append, settles] at outside
    omega
  · cases inside with
    | nil =>
        refine .inr ⟨[], after, rest.symm, ?_⟩
        rw [List.append_nil] at settles
        simpa [settles] using outside
    | cons head inside =>
        obtain ⟨rfl, -⟩ := List.cons.inj rest
        exact .inl ⟨before, inside, rfl, outside⟩

theorem exposes_single {depth : Int} {only token : Token} (exposed : Exposes depth [only] token) :
    token = only ∧ depth = 0 := by
  obtain ⟨before, after, same, outside⟩ := exposed
  cases before with
  | nil =>
      obtain ⟨rfl, -⟩ := List.cons.inj same
      exact ⟨rfl, by simpa using outside⟩
  | cons head before =>
      obtain ⟨-, none⟩ := List.cons.inj same
      exact absurd none (by simp)

/-- No binary operator stands outside all brackets. -/
theorem Derives.shielded {own : String} {form : Form} {word : List Token} {outline : Outline}
    (derived : Derives Nonterminal.production own form word outline) {depth : Int}
    (shielded : form.shielded depth = true) {token : Token} (exposed : Exposes depth word token) :
    Form.binaryOperators.allow token = false := by
  induction derived generalizing depth with
  | empty | manyNone | countEntry =>
      obtain ⟨_, _, same, -⟩ := exposed
      exact absurd same (by simp)
  | token allowed =>
      obtain ⟨rfl, rfl⟩ := exposes_single exposed
      exact Terminals.not_allow_of_apart shielded allowed
  | ownName admitted =>
      obtain ⟨rfl, -⟩ := exposes_single exposed
      have apart : Terminals.apart [.identifier] Form.binaryOperators = true := by decide
      exact Terminals.not_allow_of_apart apart (by simpa using identifier_of_named admitted)
  | symbol derived ih =>
      rcases Bool.or_eq_true_iff.mp shielded with inside | atStart
      · -- the brackets around the word are not closed in it
        obtain ⟨before, after, same, outside⟩ := exposed
        have stays := (derived.sways (production_sway _)).stays before _ same
        have := of_decide_eq_true inside
        omega
      · obtain ⟨zero, shielded⟩ := Bool.and_eq_true_iff.mp atStart
        obtain rfl := of_decide_eq_true zero
        exact ih (production_shielded shielded) exposed
  | seq first _ ihFirst ihSecond =>
      obtain ⟨inFirst, inSecond⟩ := Bool.and_eq_true_iff.mp shielded
      obtain ⟨⟨low, change⟩, settled, inSecond⟩ := (Option.any_eq_true _ _).mp inSecond
      rcases exposes_append (first.sways settled).settles exposed with here | there
      · exact ihFirst inFirst here
      · exact ihSecond inSecond there
  | left _ ih => exact ih (Bool.and_eq_true_iff.mp shielded).1 exposed
  | right _ ih => exact ih (Bool.and_eq_true_iff.mp shielded).2 exposed
  | manyMore first _ ihFirst ihRest =>
      obtain ⟨inRound, stays⟩ := Bool.and_eq_true_iff.mp shielded
      obtain ⟨⟨low, change⟩, settled, zero⟩ := (Option.any_eq_true _ _).mp stays
      obtain rfl := eq_of_beq zero
      rcases exposes_append (first.sways settled).settles exposed with here | there
      · exact ihFirst inRound here
      · rw [Int.add_zero] at there
        exact ihRest shielded there
  | guarded _ _ ih | unlike _ _ ih => exact ih shielded exposed
  | inClass => exact Bool.noConfusion shielded

end ClassSyntax

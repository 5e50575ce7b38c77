import ClassSyntax.Proofs.Language.Recognition

/-!
# Tokens that no program holds

Invalid tokens and trivia are in no word of the grammar, and so in no accepted list of tokens. That no
terminal of a production admits one is computed from the table of productions.

* `Nonterminal.production_native`: every terminal of every production is native.
* `Derives.native`: no word of a native form holds a foreign token.
* `native_of_isAccepted`: nor does an accepted list of tokens.
-/

namespace ClassSyntax

/-- The categories of which no program holds a token. -/
def Kind.foreign : List Kind := [.invalid, .invalidIdentifier] ++ Kind.trivia

/-- The terminal asks for a category that is not foreign. -/
def Terminal.native : Terminal → Bool
  | spelled kind _ | category kind => decide (kind ∉ Kind.foreign)
  | anything => false

/-- All terminals of the form are native. -/
def Form.native : Form → Bool
  | token choices => choices.all Terminal.native
  | empty | ownName | symbol _ | countEntry => true
  | seq first second => first.native && second.native
  | alt left right => left.native && right.native
  | many body | guarded _ body | unlike _ body | inClass body => body.native

/-! ## What is admitted -/

theorem Terminal.native_of_admits {terminal : Terminal} {token : Token}
    (native : terminal.native = true) (admitted : terminal.admits token = true) :
    token.kind ∉ Kind.foreign := by
  cases terminal with
  | anything => exact Bool.noConfusion native
  | category kind =>
      obtain ⟨-, rfl⟩ := admits_category.mp admitted
      exact of_decide_eq_true native
  | spelled kind lexeme =>
      obtain ⟨-, rfl, -⟩ := admits_spelled.mp admitted
      exact of_decide_eq_true native

theorem Terminals.native_of_allow {choices : Terminals} {token : Token}
    (native : choices.all Terminal.native = true) (allowed : choices.allow token = true) :
    token.kind ∉ Kind.foreign := by
  obtain ⟨terminal, member, admitted⟩ := allow_iff.mp allowed
  exact Terminal.native_of_admits (List.all_eq_true.mp native terminal member) admitted

/-! ## What is derived -/

theorem Nonterminal.production_native (name : Nonterminal) : name.production.native = true := by
  cases name with
  | binary level => cases level <;> decide
  | _ => decide

section

variable {own : String} {form : Form} {word : List Token} {outline : Outline}

theorem Derives.native (derived : Derives Nonterminal.production own form word outline)
    (native : form.native = true) : ∀ token ∈ word, token.kind ∉ Kind.foreign := by
  induction derived with
  | empty | manyNone | countEntry => simp
  | token allowed => simpa using Terminals.native_of_allow native allowed
  | ownName admitted =>
      simpa using Terminal.native_of_admits rfl (identifier_of_named admitted)
  | @symbol _ name _ _ _ ih => exact ih name.production_native
  | seq _ _ ihLeft ihRight =>
      simp only [Form.native, Bool.and_eq_true] at native
      intro token member
      rcases List.mem_append.mp member with inLeft | inRight
      · exact ihLeft native.1 token inLeft
      · exact ihRight native.2 token inRight
  | left _ ih =>
      simp only [Form.native, Bool.and_eq_true] at native
      exact ih native.1
  | right _ ih =>
      simp only [Form.native, Bool.and_eq_true] at native
      exact ih native.2
  | guarded _ _ ih | unlike _ _ ih => exact ih native
  | manyMore _ _ ihLeft ihRight =>
      intro token member
      rcases List.mem_append.mp member with inLeft | inRight
      · exact ihLeft native token inLeft
      · exact ihRight native token inRight
  | inClass admitted _ ih =>
      intro token member
      rcases List.mem_cons.mp member with rfl | inRest
      · exact Terminal.native_of_admits rfl admitted
      · exact ih native token inRest

end

/-! ## What is accepted -/

/-- The end of the input is not foreign, and the other tokens of an accepted list are a word. -/
theorem native_of_isAccepted {tokens : List Token} (accepted : (check tokens).isAccepted = true) :
    ∀ token ∈ tokens, token.kind ∉ Kind.foreign := by
  obtain ⟨name, named⟩ := Verdict.isAccepted_iff.mp accepted
  obtain ⟨outline, last, derived, -⟩ := entryClass?_check.mp named
  intro token member
  cases ended : token.isEnd with
  | true =>
      have kind : token.kind = .endOfInput := beq_iff_eq.mp ended
      rw [kind]
      decide
  | false => exact derived.native rfl token (List.mem_filter.mpr ⟨member, by simp [ended]⟩)

end ClassSyntax

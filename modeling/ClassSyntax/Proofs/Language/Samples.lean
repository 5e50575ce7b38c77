import ClassSyntax.Proofs.Language.Words

/-!
# Every form has words

What was read so far can always be completed. For that every form needs a word; the nonterminals are
ordered by height, and each has a production that gets along with lower ones.

* `exists_derives`: every fruitful form has a word.
-/

namespace ClassSyntax

namespace Terminal

/-- A token that is admitted, if any token is. -/
def sample : Terminal → Token
  | spelled kind lexeme => ⟨kind, lexeme, 1⟩
  | category kind => ⟨kind, "x", 1⟩
  | anything => ⟨.identifier, "x", 1⟩

end Terminal

namespace Nonterminal

/-- A nonterminal has a word that is built from lower ones. -/
def height : Nonterminal → Nat
  | unary | importDecl | attributeDecl | param | constructor | method | entryMethod | varDecl
  | increment | call | creation | forStmt | tryStmt => 1
  | member | simple | forInit => 2
  | binary level => 2 + level.depth
  | expr => 8
  | ifStmt | whileStmt | assignment | throwStmt => 9
  | _ => 0

end Nonterminal

namespace Form

/-- The form has a word that is built from nonterminals below this height. -/
def fruitful (bound : Nat) : Form → Bool
  | empty | ownName | many _ | countEntry => true
  | token choices => choices.any fun terminal => terminal.admits terminal.sample
  | symbol name => name.height < bound
  | seq first second => first.fruitful bound && second.fruitful bound
  | alt left right => left.fruitful bound || right.fruitful bound
  | guarded _ _ | unlike _ _ => false
  | inClass body => body.fruitful bound

end Form

theorem production_fruitful (name : Nonterminal) :
    name.production.fruitful name.height = true := by
  cases name with
  | binary level => cases level <;> decide
  | _ => decide

/-- The form has a word inside every class. -/
def Form.Inhabited (form : Form) : Prop :=
  ∀ own, ∃ word outline, Derives Nonterminal.production own form word outline

theorem inhabited_step {bound : Nat}
    (lower : ∀ name : Nonterminal, name.height < bound → (Form.symbol name).Inhabited)
    {form : Form} (fruitful : form.fruitful bound = true) : form.Inhabited := by
  induction form with
  | empty => exact fun _ => ⟨_, _, .empty⟩
  | countEntry => exact fun _ => ⟨_, _, .countEntry⟩
  | many body => exact fun _ => ⟨_, _, .manyNone⟩
  | ownName =>
      exact fun own => ⟨[⟨.identifier, own, 1⟩], _,
        .ownName (by simp [Terminal.named, Terminal.admits_spelled, Token.isEnd])⟩
  | token choices =>
      obtain ⟨terminal, member, admitted⟩ := List.any_eq_true.mp fruitful
      exact fun _ => ⟨_, _, .token (Terminals.allow_iff.mpr ⟨terminal, member, admitted⟩)⟩
  | symbol name =>
      simp only [Form.fruitful, decide_eq_true_eq] at fruitful
      exact lower name fruitful
  | seq first second ihFirst ihSecond =>
      simp only [Form.fruitful, Bool.and_eq_true] at fruitful
      intro own
      obtain ⟨_, _, left⟩ := ihFirst fruitful.1 own
      obtain ⟨_, _, right⟩ := ihSecond fruitful.2 own
      exact ⟨_, _, .seq left right⟩
  | alt left right ihLeft ihRight =>
      simp only [Form.fruitful, Bool.or_eq_true] at fruitful
      intro own
      rcases fruitful with fruitful | fruitful
      · obtain ⟨_, _, derived⟩ := ihLeft fruitful own
        exact ⟨_, _, .left derived⟩
      · obtain ⟨_, _, derived⟩ := ihRight fruitful own
        exact ⟨_, _, .right derived⟩
  | guarded _ _ _ | unlike _ _ _ => exact Bool.noConfusion fruitful
  | inClass body ih =>
      intro own
      obtain ⟨_, _, derived⟩ := ih fruitful "x"
      exact ⟨⟨.identifier, "x", 1⟩ :: _, _, .inClass (by decide) derived⟩

theorem symbol_inhabited (name : Nonterminal) : (Form.symbol name).Inhabited := by
  induction height : name.height using Nat.strongRecOn generalizing name with
  | ind _ ih =>
      subst height
      intro own
      obtain ⟨word, outline, derived⟩ :=
        inhabited_step (fun other lower => ih other.height lower other rfl)
          (production_fruitful name) own
      exact ⟨word, outline, .symbol derived⟩

/-- Every fruitful form has a word. -/
theorem exists_derives {form : Form} (fruitful : form.fruitful 10 = true) (own : String) :
    ∃ word outline, Derives Nonterminal.production own form word outline :=
  inhabited_step (fun name _ => symbol_inhabited name) fruitful own

end ClassSyntax

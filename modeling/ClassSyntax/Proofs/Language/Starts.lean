import ClassSyntax.Proofs.Language.Productions

/-!
# How words start

The tokens with which the words of a form may start, and whether the empty word is among them. Both
are computed; for the nonterminals they are read off a table, and `production_first` and
`production_nullable` check the table against the productions.

* `Derives.starts`: a word that is not empty starts with a token of the first set.
* `Derives.nullable`: only the words of a nullable form are empty.
-/

namespace ClassSyntax

namespace Terminal

/-- No token is admitted by both. -/
def apart : Terminal → Terminal → Bool
  | spelled kind lexeme, spelled other another => kind != other || lexeme != another
  | spelled kind _, category other | category kind, spelled other _
  | category kind, category other => kind != other
  | anything, _ | _, anything => false

theorem admits_spelled {kind : Kind} {lexeme : String} {token : Token} :
    (spelled kind lexeme).admits token = true ↔
      token.isEnd = false ∧ token.kind = kind ∧ token.lexeme = lexeme := by
  simp [admits, Token.is]

theorem admits_category {kind : Kind} {token : Token} :
    (category kind).admits token = true ↔ token.isEnd = false ∧ token.kind = kind := by
  simp [admits]

theorem not_admits_of_apart {left right : Terminal} {token : Token}
    (different : left.apart right = true) (admitted : left.admits token = true) :
    right.admits token = false := by
  rw [← Bool.not_eq_true]
  intro also
  cases left <;> cases right <;>
    simp_all [apart, admits_spelled, admits_category]

end Terminal

namespace Terminals

/-- Every terminal of the first set is in the second. -/
def within (inner outer : Terminals) : Bool := inner.all fun terminal => decide (terminal ∈ outer)

/-- No token is in both sets. -/
def apart (left right : Terminals) : Bool :=
  left.all fun terminal => right.all fun other => terminal.apart other

variable {left right : Terminals} {token : Token}

theorem allow_iff {choices : Terminals} :
    choices.allow token = true ↔ ∃ terminal ∈ choices, terminal.admits token = true := by
  simp [allow]

theorem allow_of_within (inside : left.within right = true) (allowed : left.allow token = true) :
    right.allow token = true := by
  obtain ⟨terminal, member, admitted⟩ := allow_iff.mp allowed
  have listed := List.all_eq_true.mp inside terminal member
  exact allow_iff.mpr ⟨terminal, of_decide_eq_true listed, admitted⟩

theorem not_allow_of_within (inside : left.within right = true)
    (refused : right.allow token = false) : left.allow token = false := by
  rw [← Bool.not_eq_true] at refused ⊢
  exact fun allowed => refused (allow_of_within inside allowed)

theorem not_allow_of_apart (different : left.apart right = true)
    (allowed : left.allow token = true) : right.allow token = false := by
  obtain ⟨terminal, member, admitted⟩ := allow_iff.mp allowed
  rw [← Bool.not_eq_true]
  intro also
  obtain ⟨other, present, accepted⟩ := allow_iff.mp also
  have pairs := List.all_eq_true.mp (List.all_eq_true.mp different terminal member) other present
  rw [Terminal.not_admits_of_apart pairs admitted] at accepted
  exact Bool.noConfusion accepted

theorem not_both (different : left.apart right = true) (one : left.allow token = true)
    (other : right.allow token = true) : False :=
  Bool.noConfusion ((not_allow_of_apart different one).symm.trans other)

@[simp] theorem allow_append :
    Terminals.allow (left ++ right) token = (left.allow token || right.allow token) := by
  simp [allow]

@[simp] theorem allow_nil : Terminals.allow [] token = false := rfl

@[simp] theorem allow_singleton {terminal : Terminal} :
    Terminals.allow [terminal] token = terminal.admits token := by
  simp [allow]

theorem not_startsWith_of_within {stream : TokenStream} {start : Nat}
    (inside : left.within right = true) (refused : right.allow (stream.get start) = false) :
    stream.startsWith [left] start = false := by
  rw [TokenStream.startsWith, not_allow_of_within inside refused, Bool.false_and]

theorem not_startsWith_of_apart {stream : TokenStream} {start : Nat}
    (different : left.apart right = true) (allowed : left.allow (stream.get start) = true) :
    stream.startsWith [right] start = false := by
  rw [TokenStream.startsWith, not_allow_of_apart different allowed, Bool.false_and]

end Terminals

namespace Nonterminal

def nullable : Nonterminal → Bool
  | unit => true
  | _ => false

def first : Nonterminal → Terminals
  | unit => First.importDecl ++ First.classDecl
  | importDecl => First.importDecl
  | qualifiedName | declarator => [.identifier]
  | classDecl => First.classDecl
  | modifier => First.modifier
  | member | method => First.member
  | entryMethod => [.keyword "public"]
  | attributeDecl => First.modifier ++ First.typeName
  | constructor => First.modifier ++ [.identifier]
  | params | args => [.mark "("]
  | param | varDecl => First.param
  | typeName => First.typeName
  | block => [.mark "\x7b"]
  | stmt => First.statement
  | ifStmt => [.keyword "if"]
  | whileStmt => [.keyword "while"]
  | forStmt => [.keyword "for"]
  | forInit => First.param ++ First.target ++ First.stepOperator
  | returnStmt => [.keyword "return"]
  | jumpStmt => [.keyword "break", .keyword "continue"]
  | throwStmt => [.keyword "throw"]
  | tryStmt => [.keyword "try"]
  | simple | increment => First.target ++ First.stepOperator
  | assignment | call | target => First.target
  | expr | binary _ | unary => First.expression
  | primary => First.target ++ First.literal ++ [.keyword "new", .mark "("]
  | creation => [.keyword "new"]

end Nonterminal

namespace Form

/-- The empty word may be a word of the form. -/
def nullable : Form → Bool
  | empty | many _ | countEntry => true
  | token _ | ownName | inClass _ => false
  | symbol name => name.nullable
  | seq first second => first.nullable && second.nullable
  | alt left right => left.nullable || right.nullable
  | guarded _ body | unlike _ body => body.nullable

/-- The tokens with which the words of the form may start. -/
def first : Form → Terminals
  | empty | countEntry => []
  | token choices => choices
  | ownName | inClass _ => [.identifier]
  | symbol name => name.first
  | seq left right => left.first ++ if left.nullable then right.first else []
  | alt left right => left.first ++ right.first
  | many body | unlike _ body => body.first
  | guarded choices _ => choices

end Form

theorem production_nullable (name : Nonterminal) :
    name.production.nullable = name.nullable := by
  cases name with
  | binary level => cases level <;> rfl
  | _ => rfl

theorem production_first (name : Nonterminal) :
    name.production.first.within name.first = true := by
  cases name with
  | binary level => cases level <;> decide
  | _ => decide

theorem identifier_of_named {name : String} {token : Token}
    (admitted : (Terminal.named name).admits token = true) :
    Terminal.identifier.admits token = true := by
  simp only [Terminal.named, Terminal.admits_spelled] at admitted
  simp only [Terminal.identifier, Terminal.admits_category]
  exact ⟨admitted.1, admitted.2.1⟩

section

variable {own : String} {form : Form} {word : List Token} {outline : Outline}

/-- The word is empty only where it may be, and starts as it may. -/
def Form.Begins (form : Form) (word : List Token) : Prop :=
  match word with
  | [] => form.nullable = true
  | head :: _ => form.first.allow head = true

theorem Derives.begins (derived : Derives Nonterminal.production own form word outline) :
    form.Begins word := by
  induction derived with
  | empty | manyNone | countEntry => rfl
  | token allowed => exact allowed
  | ownName admitted => simpa [Form.Begins, Form.first] using identifier_of_named admitted
  | @symbol _ name word _ _ ih =>
      cases word with
      | nil => exact (production_nullable name).symm.trans ih
      | cons token _ => exact Terminals.allow_of_within (production_first name) ih
  | @seq _ _ _ left right _ _ _ _ ihLeft ihRight =>
      cases left with
      | cons token _ => simp_all [Form.Begins, Form.first]
      | nil => cases right <;> simp_all [Form.Begins, Form.first, Form.nullable]
  | @left _ _ _ word _ _ ih | @right _ _ _ word _ _ ih =>
      cases word <;> simp_all [Form.Begins, Form.first, Form.nullable]
  | @manyMore _ _ left right _ _ _ _ ihLeft ihRight =>
      cases left with
      | cons token _ => exact ihLeft
      | nil => cases right <;> simp_all [Form.Begins, Form.first, Form.nullable]
  | @guarded _ _ _ word _ _ opens ih =>
      cases word with
      | nil => exact ih
      | cons _ _ => exact opens
  | @unlike _ _ _ word _ _ _ ih => cases word <;> exact ih
  | inClass admitted => simpa [Form.Begins, Form.first] using admitted

theorem Derives.starts {token : Token}
    (derived : Derives Nonterminal.production own form (token :: word) outline) :
    form.first.allow token = true := derived.begins

theorem Derives.nullable (derived : Derives Nonterminal.production own form [] outline) :
    form.nullable = true := derived.begins

theorem Derives.ne_nil (derived : Derives Nonterminal.production own form word outline)
    (filled : form.nullable = false) : word ≠ [] := by
  rintro rfl
  rw [derived.nullable] at filled
  exact Bool.noConfusion filled

end

end ClassSyntax

import ClassSyntax.Grammar.Level
import ClassSyntax.Outline

/-!
# Forms and derivations

A grammar as such, which says what words there are and not how they are read. A form describes words,
a table gives the form of each nonterminal, and `Derives` is the derivation relation of a table.

* `Derives.isEnd_eq_false`: no word holds the end of the input.
-/

namespace ClassSyntax

inductive Nonterminal where
  | unit
  | importDecl
  | qualifiedName
  | classDecl
  | modifier
  | member
  | entryMethod
  | attributeDecl
  | declarator
  | constructor
  | method
  | params
  | param
  | typeName
  | block
  | stmt
  | ifStmt
  | whileStmt
  | forStmt
  | forInit
  | returnStmt
  | jumpStmt
  | throwStmt
  | tryStmt
  | varDecl
  | simple
  | assignment
  | increment
  | call
  | target
  | expr
  | binary (level : Level)
  | unary
  | primary
  | creation
  | args
  deriving DecidableEq, Repr

inductive Form where
  /-- The empty word. -/
  | empty
  /-- One token of a set. -/
  | token (choices : Terminals)
  /-- The name of the enclosing class. -/
  | ownName
  | symbol (name : Nonterminal)
  | seq (first second : Form)
  | alt (left right : Form)
  /-- Any number of words of `body`, one after the other. -/
  | many (body : Form)
  /-- The words of `body` that are empty or start with a token of the set. -/
  | guarded (choices : Terminals) (body : Form)
  /-- The words of `body` that do not start like this. -/
  | unlike (header : List Terminals) (body : Form)
  /-- A class name, and a body for which it is the name of the enclosing class. -/
  | inClass (body : Form)
  /-- The empty word, counted as an entry method. -/
  | countEntry
  deriving DecidableEq, Repr

namespace Form

/-- No word at all. -/
def never : Form := token []

def all : List Form → Form
  | [] => empty
  | [form] => form
  | form :: forms => seq form (all forms)

def any : List Form → Form
  | [] => never
  | [form] => form
  | form :: forms => alt form (any forms)

def optional (form : Form) : Form := alt form empty

/-- `form` any number of times, with a comma between. -/
def separated (form : Form) : Form := seq form (many (seq (token [.mark ","]) form))

def keyword (word : String) : Form := token [.keyword word]

def operator (symbol : String) : Form := token [.operator symbol]

def mark (symbol : String) : Form := token [.mark symbol]

def named (name : String) : Form := token [.named name]

def identifier : Form := token [.identifier]

end Form

/-- The first tokens of the word are admitted by these sets, one after the other. -/
def startsLike : List Terminals → List Token → Bool
  | [], _ => true
  | _ :: _, [] => false
  | choices :: more, token :: word => choices.allow token && startsLike more word

/-- The word is empty or its first token is in the set. -/
def opensWith (choices : Terminals) : List Token → Bool
  | [] => true
  | token :: _ => choices.allow token

/-- `Derives table own form word outline`: inside the class `own`, `word` is a word of `form`, and
`outline` holds the classes and entry methods in it. -/
inductive Derives (table : Nonterminal → Form) : String → Form → List Token → Outline → Prop
  | empty {own : String} : Derives table own .empty [] .empty
  | token {own : String} {choices : Terminals} {token : Token} :
      choices.allow token = true → Derives table own (.token choices) [token] .empty
  | ownName {own : String} {token : Token} :
      (Terminal.named own).admits token = true → Derives table own .ownName [token] .empty
  | symbol {own : String} {name : Nonterminal} {word : List Token} {outline : Outline} :
      Derives table own (table name) word outline → Derives table own (.symbol name) word outline
  | seq {own : String} {first second : Form} {left right : List Token}
      {before after : Outline} :
      Derives table own first left before → Derives table own second right after →
      Derives table own (.seq first second) (left ++ right) (before ++ after)
  | left {own : String} {left right : Form} {word : List Token} {outline : Outline} :
      Derives table own left word outline → Derives table own (.alt left right) word outline
  | right {own : String} {left right : Form} {word : List Token} {outline : Outline} :
      Derives table own right word outline → Derives table own (.alt left right) word outline
  | manyNone {own : String} {body : Form} : Derives table own (.many body) [] .empty
  | manyMore {own : String} {body : Form} {left right : List Token} {before after : Outline} :
      Derives table own body left before → Derives table own (.many body) right after →
      Derives table own (.many body) (left ++ right) (before ++ after)
  | guarded {own : String} {choices : Terminals} {body : Form} {word : List Token}
      {outline : Outline} :
      Derives table own body word outline → opensWith choices word = true →
      Derives table own (.guarded choices body) word outline
  | unlike {own : String} {header : List Terminals} {body : Form} {word : List Token}
      {outline : Outline} :
      Derives table own body word outline → startsLike header word = false →
      Derives table own (.unlike header body) word outline
  | inClass {own : String} {body : Form} {name : Token} {word : List Token}
      {outline : Outline} :
      Terminal.identifier.admits name = true → Derives table name.lexeme body word outline →
      Derives table own (.inClass body) (name :: word) (outline.close name)
  | countEntry {own : String} : Derives table own .countEntry [] .entryMethod

/-! ## Words of each form -/

section

variable {table : Nonterminal → Form} {own : String} {word : List Token} {outline : Outline}

@[simp] theorem derives_empty :
    Derives table own .empty word outline ↔ word = [] ∧ outline = .empty := by
  constructor
  · rintro ⟨⟩
    exact ⟨rfl, rfl⟩
  · rintro ⟨rfl, rfl⟩
    exact .empty

@[simp] theorem derives_token {choices : Terminals} :
    Derives table own (.token choices) word outline ↔
      ∃ token, choices.allow token = true ∧ word = [token] ∧ outline = .empty := by
  constructor
  · intro derived
    cases derived with
    | token allowed => exact ⟨_, allowed, rfl, rfl⟩
  · rintro ⟨token, allowed, rfl, rfl⟩
    exact .token allowed

@[simp] theorem derives_ownName :
    Derives table own .ownName word outline ↔
      ∃ token, (Terminal.named own).admits token = true ∧ word = [token] ∧ outline = .empty := by
  constructor
  · intro derived
    cases derived with
    | ownName admitted => exact ⟨_, admitted, rfl, rfl⟩
  · rintro ⟨token, admitted, rfl, rfl⟩
    exact .ownName admitted

theorem derives_symbol {name : Nonterminal} :
    Derives table own (.symbol name) word outline ↔
      Derives table own (table name) word outline := by
  constructor
  · intro derived
    cases derived with
    | symbol derived => exact derived
  · exact .symbol

theorem derives_seq {first second : Form} :
    Derives table own (.seq first second) word outline ↔
      ∃ left right before after, Derives table own first left before ∧
        Derives table own second right after ∧ word = left ++ right ∧
          outline = before ++ after := by
  constructor
  · intro derived
    cases derived with
    | seq first second => exact ⟨_, _, _, _, first, second, rfl, rfl⟩
  · rintro ⟨left, right, before, after, first, second, rfl, rfl⟩
    exact .seq first second

theorem derives_alt {left right : Form} :
    Derives table own (.alt left right) word outline ↔
      Derives table own left word outline ∨ Derives table own right word outline := by
  constructor
  · intro derived
    cases derived with
    | left derived => exact .inl derived
    | right derived => exact .inr derived
  · rintro (derived | derived)
    · exact .left derived
    · exact .right derived

theorem derives_many {body : Form} :
    Derives table own (.many body) word outline ↔
      (word = [] ∧ outline = .empty) ∨
        ∃ left right before after, Derives table own body left before ∧
          Derives table own (.many body) right after ∧ word = left ++ right ∧
            outline = before ++ after := by
  constructor
  · intro derived
    cases derived with
    | manyNone => exact .inl ⟨rfl, rfl⟩
    | manyMore first rest => exact .inr ⟨_, _, _, _, first, rest, rfl, rfl⟩
  · rintro (⟨rfl, rfl⟩ | ⟨left, right, before, after, first, rest, rfl, rfl⟩)
    · exact .manyNone
    · exact .manyMore first rest

@[simp] theorem derives_guarded {choices : Terminals} {body : Form} :
    Derives table own (.guarded choices body) word outline ↔
      Derives table own body word outline ∧ opensWith choices word = true := by
  constructor
  · intro derived
    cases derived with
    | guarded derived opens => exact ⟨derived, opens⟩
  · rintro ⟨derived, opens⟩
    exact .guarded derived opens

@[simp] theorem derives_unlike {header : List Terminals} {body : Form} :
    Derives table own (.unlike header body) word outline ↔
      Derives table own body word outline ∧ startsLike header word = false := by
  constructor
  · intro derived
    cases derived with
    | unlike derived different => exact ⟨derived, different⟩
  · rintro ⟨derived, different⟩
    exact .unlike derived different

theorem derives_inClass {body : Form} :
    Derives table own (.inClass body) word outline ↔
      ∃ name rest inner, Terminal.identifier.admits name = true ∧
        Derives table name.lexeme body rest inner ∧ word = name :: rest ∧
          outline = inner.close name := by
  constructor
  · intro derived
    cases derived with
    | inClass admitted derived => exact ⟨_, _, _, admitted, derived, rfl, rfl⟩
  · rintro ⟨name, rest, inner, admitted, derived, rfl, rfl⟩
    exact .inClass admitted derived

@[simp] theorem derives_countEntry :
    Derives table own .countEntry word outline ↔ word = [] ∧ outline = .entryMethod := by
  constructor
  · rintro ⟨⟩
    exact ⟨rfl, rfl⟩
  · rintro ⟨rfl, rfl⟩
    exact .countEntry

@[simp] theorem not_derives_never : ¬ Derives table own .never word outline := by
  simp [Form.never, Terminals.allow]

theorem derives_optional {form : Form} :
    Derives table own (.optional form) word outline ↔
      Derives table own form word outline ∨ word = [] ∧ outline = .empty := by
  rw [Form.optional, derives_alt, derives_empty]

/-- No word holds the end of the input. -/
theorem Derives.isEnd_eq_false {form : Form} (derived : Derives table own form word outline) :
    ∀ token ∈ word, token.isEnd = false := by
  induction derived with
  | empty | manyNone | countEntry => simp
  | token allowed => simpa using Terminals.isEnd_of_allow allowed
  | ownName admitted => simpa using Terminal.isEnd_of_admits admitted
  | symbol _ ih | left _ ih | right _ ih | guarded _ _ ih | unlike _ _ ih => exact ih
  | seq _ _ ihLeft ihRight | manyMore _ _ ihLeft ihRight =>
      intro token member
      rcases List.mem_append.mp member with inLeft | inRight
      · exact ihLeft token inLeft
      · exact ihRight token inRight
  | inClass admitted _ ih =>
      intro token member
      rcases List.mem_cons.mp member with rfl | inRest
      · exact Terminal.isEnd_of_admits admitted
      · exact ih token inRest

end

end ClassSyntax

import ClassSyntax.Grammar.Level

/-!
# Phrases

Grammar as data. A phrase says how a piece of a program is read: which tokens are expected, in which
order, what is decided by the next tokens and what by trial. The meaning of phrases is in
`Grammar.Meaning`, the phrase of each rule in `Grammar.Rules`.
-/

namespace ClassSyntax

/-- The rules of the grammar. `role` is what a diagnostic calls a declared name. -/
inductive Rule where
  | program
  | importDecl
  | qualifiedName
  | modifiers
  | classDecl
  | member
  | unknownMember
  | entryMethod
  | declarators (role : String)
  | declarator (role : String)
  | attributeDecl
  | constructor
  | method
  | params
  | param
  | typeName
  | returnType
  | arraySuffix
  | block
  | stmt
  | trialStmt
  | varDecl
  | varDeclStmt
  | simpleStmt
  | ifStmt
  | whileStmt
  | forStmt
  | returnStmt
  | jumpStmt
  | throwStmt
  | tryStmt
  | expr
  | binaryExpr (level : Level)
  | unaryExpr
  | primaryExpr
  | target
  | callChain
  | args
  | grouping
  | newExpr
  deriving DecidableEq, Repr

inductive Phrase where
  /-- Nothing. -/
  | done
  /-- One token of a set; `label` is what a diagnostic calls it. -/
  | expect (choices : Terminals) (label : String)
  /-- The name of the enclosing class. -/
  | expectOwnName
  /-- Always wrong. -/
  | fail (label : String)
  /-- What the rule stands for. -/
  | rule (rule : Rule)
  /-- One phrase and then another. -/
  | seq (first second : Phrase)
  /-- `yes` when the next tokens are in these sets, `no` otherwise. -/
  | ifNext (ahead : List Terminals) (yes no : Phrase)
  /-- As often as the next tokens are in these sets. -/
  | whileNext (ahead : List Terminals) (body : Phrase)
  /-- `second` from the start when `first` fails. -/
  | orElse (first second : Phrase)
  /-- `yes` when `trial` could be read from here, `no` otherwise; the trial leaves no trace. -/
  | ifAhead (trial yes no : Phrase)
  /-- A class name, and a body for which it is the name of the enclosing class. -/
  | inClass (body : Phrase)
  /-- Counts what was read as an entry method. -/
  | countEntry
  deriving DecidableEq, Repr

namespace Phrase

/-- One phrase after the other. -/
def all : List Phrase → Phrase
  | [] => done
  | [phrase] => phrase
  | phrase :: phrases => seq phrase (all phrases)

/-- A token that is known by its spelling. -/
def token (terminal : Terminal) : Phrase := expect [terminal] terminal.lexeme

def keyword (word : String) : Phrase := token (.keyword word)

def operator (symbol : String) : Phrase := token (.operator symbol)

def mark (symbol : String) : Phrase := token (.mark symbol)

def named (name : String) : Phrase := token (.named name)

/-- An identifier in this role. -/
def identifier (role : String) : Phrase := expect [.identifier] role

/-- The token and then `yes` when it comes next, `no` otherwise. -/
def ifToken (terminal : Terminal) (yes no : Phrase) : Phrase :=
  ifNext [[terminal]] (seq (token terminal) yes) no

/-- The token and then `body`, as often as the token comes next. -/
def whileToken (terminal : Terminal) (body : Phrase) : Phrase :=
  whileNext [[terminal]] (seq (token terminal) body)

/-- `phrase` when the next token is in the set. -/
def optional (choices : Terminals) (phrase : Phrase) : Phrase := ifNext [choices] phrase done

/-- The first case whose set the next token is in, or else the last phrase. -/
def dispatch (cases : List (Terminals × Phrase)) (otherwise : Phrase) : Phrase :=
  cases.foldr (fun item rest => ifNext [item.1] item.2 rest) otherwise

/-- `phrase` any number of times, with a comma between. -/
def separated (phrase : Phrase) : Phrase := seq phrase (whileToken (.mark ",") phrase)

end Phrase

end ClassSyntax

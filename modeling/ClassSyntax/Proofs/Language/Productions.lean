import Mathlib.Algebra.GroupWithZero.Nat
import ClassSyntax.Grammar.Rules
import ClassSyntax.Proofs.Language.Form

/-!
# The grammar of the language

The form of each nonterminal. Nothing here says how a word is read: the grammar is ambiguous where
an `else` follows two conditionals and where a name is called.

* `Nonterminal.production`: the table of the language.
* `Nonterminal.freeProduction`: the table in which `new` may be called on a primitive type.
* `IsProgram`: a unit whose only entry method is in its last class.
-/

namespace ClassSyntax

namespace Form

open Nonterminal

def modifiers : Form := many (symbol modifier)

def dottedNames : Form := many (seq (mark ".") identifier)

def brackets : Form := many (seq (mark "[") (mark "]"))

def declarators : Form := seq (symbol typeName) (separated (symbol declarator))

/-- Further members of a value, each with or without a call. -/
def memberCalls : Form := many (all [mark ".", identifier, optional (symbol args)])

def newArray : Form := all [mark "[", symbol expr, mark "]", brackets]

def catchClause : Form :=
  all [keyword "catch", mark "(", symbol typeName, identifier, mark ")", symbol block]

def finallyClause : Form := seq (keyword "finally") (symbol block)

/-- The operands of a level are the expressions of the next tighter one. -/
def operand (level : Level) : Form :=
  match level.tighter with
  | some next => symbol (binary next)
  | none => symbol unary

end Form

namespace Nonterminal

open Form

def production : Nonterminal → Form
  | unit => seq (many (symbol importDecl)) (many (symbol classDecl))
  | importDecl =>
      all [keyword "import", symbol qualifiedName,
        alt (mark ";") (all [mark ".", operator "*", mark ";"])]
  | qualifiedName => seq identifier dottedNames
  | classDecl =>
      all [modifiers, keyword "class",
        inClass (all
          [optional (seq (keyword "extends") (symbol qualifiedName)),
            optional (seq (keyword "implements") (separated (symbol qualifiedName))),
            mark "\x7b", many (symbol member), mark "\x7d"])]
  | modifier => token First.modifier
  | member =>
      alt (seq (symbol entryMethod) countEntry)
        (unlike MemberKind.entryHeader
          (any [symbol attributeDecl, symbol constructor, symbol method]))
  | entryMethod =>
      all [keyword "public", keyword "static", keyword "void", named "main", mark "(",
        named "String",
        alt (all [mark "[", mark "]", identifier]) (all [identifier, mark "[", mark "]"]),
        mark ")", symbol block]
  | attributeDecl => all [modifiers, declarators, mark ";"]
  | declarator => seq identifier (optional (seq (operator "=") (symbol expr)))
  | constructor => all [modifiers, ownName, symbol params, symbol block]
  | method =>
      all [modifiers, alt (symbol typeName) (keyword "void"), identifier, symbol params,
        alt (symbol block) (mark ";")]
  | params => all [mark "(", optional (separated (symbol param)), mark ")"]
  | param => all [optional (keyword "final"), symbol typeName, identifier, brackets]
  | typeName => seq (alt (token First.primitiveType) (symbol qualifiedName)) brackets
  | block => all [mark "\x7b", many (symbol stmt), mark "\x7d"]
  | stmt =>
      any [symbol block, symbol ifStmt, symbol whileStmt, symbol forStmt, symbol returnStmt,
        symbol jumpStmt, symbol throwStmt, symbol tryStmt, mark ";",
        seq (symbol varDecl) (mark ";"), seq (symbol simple) (mark ";"),
        seq (symbol expr) (mark ";")]
  | ifStmt =>
      all [keyword "if", mark "(", symbol expr, mark ")", symbol stmt,
        optional (seq (keyword "else") (symbol stmt))]
  | whileStmt => all [keyword "while", mark "(", symbol expr, mark ")", symbol stmt]
  | forStmt =>
      all [keyword "for", mark "(", optional (symbol forInit), mark ";",
        optional (symbol expr), mark ";", optional (symbol simple), mark ")", symbol stmt]
  | forInit => alt (symbol varDecl) (symbol simple)
  | returnStmt => all [keyword "return", optional (symbol expr), mark ";"]
  | jumpStmt => seq (token [.keyword "break", .keyword "continue"]) (mark ";")
  | throwStmt => all [keyword "throw", symbol expr, mark ";"]
  | tryStmt =>
      all [keyword "try", symbol block,
        alt (all [catchClause, many catchClause, optional finallyClause]) finallyClause]
  | varDecl => seq (optional (keyword "final")) declarators
  | simple => any [symbol assignment, symbol increment, symbol call]
  | assignment => all [symbol target, token First.assignmentOperator, symbol expr]
  | increment =>
      alt (seq (symbol target) (token First.stepOperator))
        (seq (token First.stepOperator) (symbol target))
  | call => all [symbol target, symbol args, optional (symbol args), memberCalls]
  | target => seq (token [.identifier, .keyword "this", .keyword "super"]) dottedNames
  | expr => symbol (binary .logicalOr)
  | binary level => seq (operand level) (many (seq (token level.terminals) (operand level)))
  | unary => alt (seq (token First.unaryOperator) (symbol unary)) (symbol primary)
  | primary =>
      any [all [symbol target, optional (symbol args), memberCalls], token First.literal,
        all [mark "(", symbol expr, mark ")"], symbol creation]
  | creation =>
      seq (keyword "new")
        (alt (seq (token First.primitiveType) newArray)
          (seq (symbol qualifiedName) (alt (symbol args) newArray)))
  | args => all [mark "(", optional (separated (symbol expr)), mark ")"]

/-- Here a primitive type may be called like a class. -/
def freeProduction : Nonterminal → Form
  | creation =>
      all [keyword "new", alt (token First.primitiveType) (symbol qualifiedName),
        alt (symbol args) newArray]
  | name => name.production

end Nonterminal

/-- The tokens but for the ends of the input are a unit of this table. Exactly one entry method
occurs in it, and it is in the last class, which has this name. -/
def IsProgram (table : Nonterminal → Form) (tokens : List Token) (entryClass : String) : Prop :=
  ∃ outline last,
    Derives table "" (.symbol .unit) (tokens.filter fun token => !token.isEnd) outline ∧
      outline.classes.getLast? = some last ∧ last.entryMethods = 1 ∧
        (outline.classes.map ClassHeader.entryMethods).sum = 1 ∧ last.name.lexeme = entryClass

end ClassSyntax

import ClassSyntax.Grammar.First
import ClassSyntax.Grammar.Phrase

/-!
# The rules of the language

The phrase of each rule. A rule is entered after one look at the next token; a second token is looked
at only behind a point. Two decisions need a trial: what kind of member a class goes on with, and
whether a statement that starts with a name is a declaration, an assignment or call, or an
expression.
-/

namespace ClassSyntax

/-- The forms that a member of a class can take. -/
inductive MemberKind where
  | entryMethod
  | attributeDecl
  | constructor
  | method
  | unknown
  deriving DecidableEq, Repr

namespace MemberKind

/-- The tokens that start an entry method, and no other member. -/
def entryHeader : List Terminals :=
  [[.keyword "public"], [.keyword "static"], [.keyword "void"], [.named "main"]]

end MemberKind

namespace Phrase

/-- Further identifiers, each behind a point. A point that no identifier follows is left alone. -/
def dottedNames : Phrase :=
  whileNext [[.mark "."], [.identifier]] (seq (mark ".") (identifier "identifier"))

/-- A pair of square brackets around nothing. -/
def emptyBrackets : Phrase := seq (mark "[") (mark "]")

/-- How a constructor starts. -/
def constructorHead : Phrase := all [rule .modifiers, expectOwnName, mark "("]

/-- How a method starts. -/
def methodHead : Phrase :=
  all [rule .modifiers, rule .returnType, identifier "method name", mark "("]

/-- How an attribute starts. -/
def attributeHead : Phrase :=
  all [rule .modifiers, rule .typeName, identifier "attribute name",
    expect [.operator "=", .mark ";", .mark ","] "= or ; or ,"]

/-- The length of a new array and the brackets of its further dimensions, or else a failure. -/
def arrayLength (label : String) : Phrase :=
  ifToken (.mark "[") (all [rule .expr, mark "]", rule .arraySuffix]) (fail label)

/-- `catch` with its parameter and block, behind the keyword. -/
def catchClause : Phrase :=
  all [mark "(", rule .typeName, identifier "exception name", mark ")", rule .block]

end Phrase

namespace Rule

open Phrase

/-- The operands of a level are the expressions of the next tighter one. -/
def operand (level : Level) : Rule :=
  match level.tighter with
  | some next => binaryExpr next
  | none => unaryExpr

/-- What a rule stands for. -/
def body : Rule → Phrase
  | program =>
      seq (whileNext [First.importDecl] (rule importDecl))
        (whileNext [First.classDecl] (rule classDecl))
  | importDecl =>
      all [keyword "import", rule qualifiedName,
        ifToken (.mark ";") done
          (ifToken (.mark ".") (all [operator "*", mark ";"]) (fail ";"))]
  | qualifiedName => seq (identifier "identifier") dottedNames
  | modifiers => whileNext [First.modifier] (expect First.modifier "modifier")
  | classDecl =>
      all [rule modifiers, keyword "class",
        inClass (all
          [ifToken (.keyword "extends") (rule qualifiedName) done,
            ifToken (.keyword "implements") (separated (rule qualifiedName)) done,
            mark "\x7b", whileNext [First.member] (rule member), mark "\x7d"])]
  | member =>
      ifNext MemberKind.entryHeader (seq (rule entryMethod) countEntry)
        (ifAhead constructorHead (rule constructor)
          (ifAhead methodHead (rule method)
            (ifAhead attributeHead (rule attributeDecl)
              (rule unknownMember))))
  | unknownMember =>
      all [rule modifiers, rule returnType, identifier "member name", fail "( or = or ;"]
  | entryMethod =>
      all [keyword "public", keyword "static", keyword "void", named "main", mark "(",
        named "String",
        ifToken (.mark "[")
          (all [mark "]", identifier "parameter name"])
          (all [identifier "parameter name", mark "[", mark "]"]),
        mark ")", rule block]
  | declarators role => seq (rule typeName) (separated (rule (declarator role)))
  | declarator role => seq (identifier role) (ifToken (.operator "=") (rule expr) done)
  | attributeDecl => all [rule modifiers, rule (declarators "attribute name"), mark ";"]
  | constructor => all [rule modifiers, expectOwnName, rule params, rule block]
  | method =>
      all [rule modifiers, rule returnType, identifier "method name", rule params,
        ifToken (.mark ";") done (rule block)]
  | params => all [mark "(", optional First.param (separated (rule param)), mark ")"]
  | param =>
      all [ifToken (.keyword "final") done done, rule typeName, identifier "parameter name",
        rule arraySuffix]
  | typeName =>
      seq (dispatch
          [(First.primitiveType, expect First.primitiveType "type"),
            ([.identifier], rule qualifiedName)]
          (fail "type"))
        (rule arraySuffix)
  | returnType => ifToken (.keyword "void") done (rule typeName)
  | arraySuffix => whileNext [[.mark "["]] emptyBrackets
  | block => all [mark "\x7b", whileNext [First.statement] (rule stmt), mark "\x7d"]
  | stmt =>
      dispatch
        [([.keyword "if"], rule ifStmt),
          ([.keyword "while"], rule whileStmt),
          ([.keyword "for"], rule forStmt),
          ([.keyword "return"], rule returnStmt),
          ([.keyword "break", .keyword "continue"], rule jumpStmt),
          ([.keyword "throw"], rule throwStmt),
          ([.keyword "try"], rule tryStmt),
          (.keyword "final" :: First.primitiveType, rule varDeclStmt),
          ([.mark "\x7b"], rule block),
          ([.mark ";"], mark ";")]
        (rule trialStmt)
  | trialStmt =>
      orElse (rule varDeclStmt)
        (orElse (seq (rule simpleStmt) (mark ";"))
          (orElse (seq (rule expr) (mark ";"))
            (fail "statement")))
  | varDecl => seq (ifToken (.keyword "final") done done) (rule (declarators "variable name"))
  | varDeclStmt => seq (rule varDecl) (mark ";")
  | simpleStmt =>
      ifNext [First.stepOperator] (seq (expect First.stepOperator "++ or --") (rule target))
        (seq (rule target)
          (dispatch
            [(First.assignmentOperator,
                seq (expect First.assignmentOperator "assignment") (rule expr)),
              (First.stepOperator, expect First.stepOperator "++ or --"),
              ([.mark "("], seq (rule args) (rule callChain))]
            (fail "assignment or call")))
  | ifStmt =>
      all [keyword "if", mark "(", rule expr, mark ")", rule stmt,
        ifToken (.keyword "else") (rule stmt) done]
  | whileStmt => all [keyword "while", mark "(", rule expr, mark ")", rule stmt]
  | forStmt =>
      all [keyword "for", mark "(",
        ifNext [[.mark ";"]] done (orElse (rule varDecl) (rule simpleStmt)), mark ";",
        ifNext [[.mark ";"]] done (rule expr), mark ";",
        ifNext [[.mark ")"]] done (rule simpleStmt), mark ")",
        rule stmt]
  | returnStmt => all [keyword "return", optional First.expression (rule expr), mark ";"]
  | jumpStmt => seq (optional [.anything] (expect [.anything] "break or continue")) (mark ";")
  | throwStmt => all [keyword "throw", rule expr, mark ";"]
  | tryStmt =>
      all [keyword "try", rule block,
        ifNext [[.keyword "catch", .keyword "finally"]]
          (seq (whileToken (.keyword "catch") catchClause)
            (ifToken (.keyword "finally") (rule block) done))
          (fail "catch or finally")]
  | expr => rule (binaryExpr .logicalOr)
  | binaryExpr level =>
      seq (rule (operand level))
        (whileNext [level.terminals]
          (seq (expect level.terminals "operator") (rule (operand level))))
  | unaryExpr =>
      ifNext [First.unaryOperator] (seq (expect First.unaryOperator "operator") (rule unaryExpr))
        (rule primaryExpr)
  | primaryExpr =>
      dispatch
        [(First.target, seq (rule target) (rule callChain)),
          (First.literal, expect First.literal "literal"),
          ([.mark "("], rule grouping),
          ([.keyword "new"], rule newExpr)]
        (fail "expression")
  | target =>
      ifNext [[.keyword "this", .keyword "super"]]
        (seq (expect [.keyword "this", .keyword "super"] "this or super") dottedNames)
        (rule qualifiedName)
  | callChain =>
      seq (optional [.mark "("] (rule args))
        (whileToken (.mark ".")
          (seq (identifier "member name") (optional [.mark "("] (rule args))))
  | args => all [mark "(", optional First.expression (separated (rule expr)), mark ")"]
  | grouping => all [mark "(", rule expr, mark ")"]
  | newExpr =>
      seq (keyword "new")
        (ifNext [First.primitiveType]
          (seq (expect First.primitiveType "type") (arrayLength "["))
          (seq (rule qualifiedName)
            (ifNext [[.mark "("]] (rule args) (arrayLength "( or ["))))

end Rule

end ClassSyntax

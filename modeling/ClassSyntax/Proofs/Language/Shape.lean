import ClassSyntax.Proofs.Language.Productions

/-!
# The grammar in the phrases

What a phrase reads, without how it decides. Lookahead becomes a guard, trials become alternatives. The
forms of the phrases are compared with the productions of the language.

* `Rule.form`: the part of the language that a rule is to read.
* `Phrase.form`: the form of a phrase, when the forms of the rules are given and forms for the
  places where the phrase always fails.
-/

namespace ClassSyntax

namespace Rule

open Nonterminal Form

/-- What a rule reads. In front of a jump the rule takes any token: only statements that start with
`break` or `continue` lead there. -/
def form : Rule → Form
  | program => symbol unit
  | importDecl => symbol .importDecl
  | qualifiedName => symbol .qualifiedName
  | modifiers => Form.modifiers
  | classDecl => symbol .classDecl
  | member => symbol .member
  | entryMethod => symbol .entryMethod
  | declarators _ => Form.declarators
  | declarator _ => symbol .declarator
  | attributeDecl => symbol .attributeDecl
  | constructor => symbol .constructor
  | method | unknownMember => symbol .method
  | params => symbol .params
  | param => symbol .param
  | typeName => symbol .typeName
  | returnType => alt (symbol .typeName) (Form.keyword "void")
  | arraySuffix => brackets
  | block => symbol .block
  | stmt => symbol .stmt
  | trialStmt =>
      any [seq (symbol .varDecl) (mark ";"), seq (symbol simple) (mark ";"),
        seq (symbol .expr) (mark ";")]
  | varDecl => symbol .varDecl
  | varDeclStmt => seq (symbol .varDecl) (mark ";")
  | simpleStmt => symbol simple
  | ifStmt => symbol .ifStmt
  | whileStmt => symbol .whileStmt
  | forStmt => symbol .forStmt
  | returnStmt => symbol .returnStmt
  | jumpStmt => seq (optional (Form.token [.anything])) (mark ";")
  | throwStmt => symbol .throwStmt
  | tryStmt => symbol .tryStmt
  | expr => symbol .expr
  | binaryExpr level => symbol (binary level)
  | unaryExpr => symbol unary
  | primaryExpr => symbol primary
  | target => symbol .target
  | callChain => seq (optional (symbol .args)) memberCalls
  | args => symbol .args
  | grouping => all [mark "(", symbol .expr, mark ")"]
  | newExpr => symbol creation

/-- The words on which a rule must end well. -/
def wanted : Rule → Form
  | unknownMember => never
  | jumpStmt => symbol .jumpStmt
  | rule => rule.form

end Rule

/-- The form of a phrase. -/
def Phrase.form (rules : Rule → Form) (gaps : String → Form) : Phrase → Form
  | done => .empty
  | expect choices _ => .token choices
  | expectOwnName => .ownName
  | fail label => gaps label
  | rule called => rules called
  | seq first second => .seq (first.form rules gaps) (second.form rules gaps)
  | ifNext [choices] yes no =>
      .alt (.guarded choices (yes.form rules gaps)) (no.form rules gaps)
  | ifNext ahead yes no => .alt (yes.form rules gaps) (.unlike ahead (no.form rules gaps))
  | whileNext _ body => .many (body.form rules gaps)
  | orElse first second => .alt (first.form rules gaps) (second.form rules gaps)
  | ifAhead _ yes no => .alt (yes.form rules gaps) (no.form rules gaps)
  | inClass body => .inClass (body.form rules gaps)
  | countEntry => .countEntry

/-- The words of a phrase on which it must end well. -/
def Phrase.wanted (phrase : Phrase) : Form := phrase.form Rule.wanted fun _ => .never

end ClassSyntax

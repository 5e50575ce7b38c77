import ClassSyntax.Grammar.Terminal

/-!
# First sets

The terminals with which the repeated and optional parts of the grammar may start. A part is entered
exactly when the next token is in its set.
-/

namespace ClassSyntax.First

open Terminal

def modifier : Terminals :=
  ["public", "private", "protected", "static", "final", "abstract"].map keyword

def primitiveType : Terminals := ["int", "double", "char", "boolean", "string"].map keyword

def assignmentOperator : Terminals := ["=", "<<=", ">>="].map operator

def stepOperator : Terminals := ["++", "--"].map operator

def unaryOperator : Terminals := ["-", "!"].map operator

def literal : Terminals :=
  [.stringLiteral, .charLiteral, .booleanLiteral, .intLiteral, .floatLiteral].map category

def importDecl : Terminals := [keyword "import"]

def classDecl : Terminals := modifier ++ [keyword "class"]

def typeName : Terminals := primitiveType ++ [identifier]

def member : Terminals := modifier ++ typeName ++ [keyword "void"]

def param : Terminals := keyword "final" :: typeName

/-- The starts of a name that is called or assigned to. -/
def target : Terminals := [identifier, keyword "this", keyword "super"]

def expression : Terminals := target ++ literal ++ [keyword "new", mark "("] ++ unaryOperator

def statement : Terminals :=
  ["if", "while", "for", "return", "break", "continue", "throw", "try", "final"].map keyword ++
    primitiveType ++ [mark "\x7b", mark ";"] ++ stepOperator ++ expression

end ClassSyntax.First

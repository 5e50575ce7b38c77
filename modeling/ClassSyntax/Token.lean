/-!
# Tokens

A token is a lexical category, the text it was read from and the line it starts on. Twelve of the
sixteen categories may be emitted; the other four are trivia, which only separate tokens.
-/

namespace ClassSyntax

/-- The lexical categories. The last four are trivia. -/
inductive Kind where
  | keyword
  | identifier
  | invalidIdentifier
  | punctuation
  | operator
  | stringLiteral
  | charLiteral
  | booleanLiteral
  | intLiteral
  | floatLiteral
  | invalid
  | endOfInput
  | blockComment
  | lineComment
  | newline
  | whitespace
  deriving DecidableEq, Repr

namespace Kind

/-- The categories that a token may have. -/
def emitted : List Kind :=
  [keyword, identifier, invalidIdentifier, punctuation, operator, stringLiteral, charLiteral,
    booleanLiteral, intLiteral, floatLiteral, invalid, endOfInput]

/-- The categories that are matched and dropped. -/
def trivia : List Kind := [blockComment, lineComment, newline, whitespace]

def isTrivia (kind : Kind) : Bool := trivia.contains kind

/-- The five literal categories stand for a value by themselves. -/
def isLiteral : Kind → Bool
  | stringLiteral | charLiteral | booleanLiteral | intLiteral | floatLiteral => true
  | _ => false

/-- The name of a category in a token record. -/
def spelling : Kind → String
  | keyword => "Keyword"
  | identifier => "Identifier"
  | invalidIdentifier => "Invalid_Identifier"
  | punctuation => "Punctuation"
  | operator => "Operator"
  | stringLiteral => "string_const"
  | charLiteral => "char_const"
  | booleanLiteral => "boolean_const"
  | intLiteral => "int_const"
  | floatLiteral => "float_const"
  | invalid => "INVALID"
  | endOfInput => "EOF"
  | blockComment => "multi_line_comment"
  | lineComment => "single_line_comment"
  | newline => "NEWLINE"
  | whitespace => "WHITESPACE"

/-- Reads the name of an emitted category; the names of trivia are refused. -/
def ofSpelling? (name : String) : Option Kind := emitted.find? (·.spelling == name)

theorem mem_emitted_iff (kind : Kind) : kind ∈ emitted ↔ kind.isTrivia = false := by
  cases kind <;> decide

theorem spelling_inj {left right : Kind} (same : left.spelling = right.spelling) :
    left = right := by
  revert same
  cases left <;> cases right <;> decide

theorem ofSpelling?_spelling {kind : Kind} (shown : kind.isTrivia = false) :
    ofSpelling? kind.spelling = some kind := by
  revert shown
  cases kind <;> decide

end Kind

/-- A classified piece of text and the line on which it starts. -/
structure Token where
  kind : Kind
  lexeme : String
  line : UInt32
  deriving DecidableEq, Repr

namespace Token

/-- The token that closes a stream. -/
def endOfInput (line : UInt32) : Token := ⟨.endOfInput, "EOF", line⟩

/-- Of this category and spelled this way. -/
def is (token : Token) (kind : Kind) (lexeme : String) : Bool :=
  token.kind == kind && token.lexeme == lexeme

/-- Of this category and spelled in one of these ways. -/
def isOneOf (token : Token) (kind : Kind) (lexemes : List String) : Bool :=
  token.kind == kind && lexemes.contains token.lexeme

def isEnd (token : Token) : Bool := token.kind == .endOfInput

/-- The token as a record: line, category and lexeme between angle brackets. -/
def render (token : Token) : String :=
  "<" ++ toString token.line.toNat ++ "," ++ token.kind.spelling ++ "," ++ token.lexeme ++ ">"

end Token

/-- The words that are keywords when they stand alone. -/
def reservedWords : List String :=
  ["class", "function", "if", "else", "return", "int", "double", "char", "boolean", "void",
    "const", "static", "enum", "break", "continue", "for", "while", "public", "private",
    "protected", "interface", "extends", "implements", "this", "super", "new", "abstract", "try",
    "catch", "finally", "throw", "final", "string", "import"]

/-- The words that are truth values when they stand alone. -/
def truthValues : List String := ["true", "false"]

example : reservedWords.Nodup := by decide

example : Token.render ⟨.punctuation, ",", 7⟩ = "<7,Punctuation,,>" := by decide

end ClassSyntax

import ClassSyntax.Grammar.Terminal

/-!
# Levels of binary operators

The binary operators in six levels, from the loosest to the tightest. All are left associative.
-/

namespace ClassSyntax

inductive Level where
  | logicalOr
  | logicalAnd
  | equality
  | relational
  | additive
  | multiplicative
  deriving DecidableEq, Repr

namespace Level

def all : List Level := [logicalOr, logicalAnd, equality, relational, additive, multiplicative]

def operators : Level → List String
  | logicalOr => ["||"]
  | logicalAnd => ["&&"]
  | equality => ["==", "!="]
  | relational => ["<", ">", "<=", ">="]
  | additive => ["+", "-"]
  | multiplicative => ["*", "/", "%"]

/-- The next tighter level. The operands of the tightest level are unary expressions. -/
def tighter : Level → Option Level
  | logicalOr => some logicalAnd
  | logicalAnd => some equality
  | equality => some relational
  | relational => some additive
  | additive => some multiplicative
  | multiplicative => none

/-- The name of an expression of a level. -/
def label : Level → String
  | logicalOr => "logical-or expression"
  | logicalAnd => "logical-and expression"
  | equality => "equality expression"
  | relational => "relational expression"
  | additive => "additive expression"
  | multiplicative => "multiplicative expression"

/-- How many levels are tighter. -/
def depth : Level → Nat
  | logicalOr => 5
  | logicalAnd => 4
  | equality => 3
  | relational => 2
  | additive => 1
  | multiplicative => 0

/-- Binds less tightly. -/
def looserThan (left right : Level) : Bool := right.depth < left.depth

/-- The operators of a level as terminals. -/
def terminals (level : Level) : Terminals := level.operators.map Terminal.operator

theorem depth_tighter {level next : Level} (found : level.tighter = some next) :
    next.depth + 1 = level.depth := by
  revert found
  cases level <;> cases next <;> decide

end Level

end ClassSyntax

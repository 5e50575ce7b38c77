/-!
# Line numbers in decimal

Reads an unsigned 32-bit number from ASCII digits. One plus sign may stand in front, leading zeros
are allowed, and a value that does not fit is refused.
-/

namespace ClassSyntax.Text

/-- The value of a digit sequence, most significant first, continued from `value`. -/
def digitsValue (value : Nat) (digits : List Char) : Nat :=
  digits.foldl (fun sum digit => 10 * sum + (digit.toNat - '0'.toNat)) value

/-- The text without one leading plus sign. -/
def dropPlus : List Char → List Char
  | '+' :: text => text
  | text => text

/-- Reads a number that fits 32 bits. -/
def readUInt32? (text : List Char) : Option UInt32 :=
  let digits := dropPlus text
  if digits.isEmpty || !digits.all Char.isDigit then none
  else
    let value := digitsValue 0 digits
    if value < UInt32.size then some (UInt32.ofNat value) else none

example : readUInt32? "+0042".toList = some 42 := by decide

example : readUInt32? "4294967295".toList = some 4294967295 := by decide

example : readUInt32? "4294967296".toList = none ∧ readUInt32? "+".toList = none ∧
    readUInt32? "-1".toList = none ∧ readUInt32? [] = none := by decide

end ClassSyntax.Text

import ClassSyntax.Text.Unprintable

/-!
# Quoted text

A text between double quotes. The double quote, the backslash and four controls have a short escape;
every other character that cannot be shown is written by its number in lower-case hexadecimal.
-/

namespace ClassSyntax.Text

/-- The escape of a character by its number. -/
def numericEscape (c : Char) : List Char :=
  '\\' :: 'u' :: '\x7b' :: (Nat.toDigits 16 c.toNat ++ ['\x7d'])

/-- One character as it stands between the quotes. -/
def quotedChar (c : Char) : List Char :=
  if c = '"' then ['\\', '"']
  else if c = '\\' then ['\\', '\\']
  else if c = '\n' then ['\\', 'n']
  else if c = '\r' then ['\\', 'r']
  else if c = '\t' then ['\\', 't']
  else if c = '\x00' then ['\\', '0']
  else if isUnprintable c then numericEscape c
  else [c]

/-- The text between double quotes. -/
def quote (text : String) : String :=
  String.ofList ('"' :: (text.toList.flatMap quotedChar ++ ['"']))

example : quote "a\"\\\n\x01é" = "\"a\\\"\\\\\\n\\u\x7b1\x7dé\"" := by decide +kernel

end ClassSyntax.Text

import ClassSyntax.Grammar.Machine

/-!
# Kinds of members

Which form the member at a position takes, decided by trial and without taking a token.
-/

namespace ClassSyntax

/-- The phrase can be read from here. -/
def Phrase.fits (stream : TokenStream) (own : String) (phrase : Phrase)
    (progressive : phrase.progressive = true) (start : Nat) : Bool :=
  (phrase.read stream own progressive start).1.succeeds

namespace MemberKind

/-- The kind of the member at a position inside the class `own`. -/
def classify (stream : TokenStream) (own : String) (start : Nat) : MemberKind :=
  if stream.startsWith entryHeader start then .entryMethod
  else if Phrase.constructorHead.fits stream own rfl start then .constructor
  else if Phrase.methodHead.fits stream own rfl start then .method
  else if Phrase.attributeHead.fits stream own rfl start then .attributeDecl
  else .unknown

end MemberKind

end ClassSyntax

import ClassSyntax.Diagnostic

/-!
# Outlines

What is kept of a piece of program once it has been recognized: the classes in it, and the entry
methods that are not yet counted for a class.
-/

namespace ClassSyntax

/-- A class, by its name and the number of its entry methods. -/
structure ClassHeader where
  name : Token
  entryMethods : Nat
  deriving DecidableEq, Repr

namespace ClassHeader

/-- A diagnostic at the name of a class. -/
def diagnostic (header : ClassHeader) (reason : Reason) : Diagnostic :=
  let expected := match reason with
    | .duplicateEntryClass _ => "single entry class"
    | .entryClassNotLast _ => "entry class as the last class"
    | _ => "entry class"
  Diagnostic.ofToken header.name reason expected

end ClassHeader

structure Outline where
  classes : List ClassHeader
  entryMethods : Nat
  deriving DecidableEq, Repr

namespace Outline

def empty : Outline := ⟨[], 0⟩

/-- One entry method. -/
def entryMethod : Outline := ⟨[], 1⟩

/-- The outline of two pieces that follow each other. -/
def append (left right : Outline) : Outline :=
  ⟨left.classes ++ right.classes, left.entryMethods + right.entryMethods⟩

instance : Append Outline := ⟨append⟩

/-- The class with this name and this body: the entry methods of the body become its own. -/
def close (body : Outline) (name : Token) : Outline :=
  ⟨body.classes ++ [⟨name, body.entryMethods⟩], 0⟩

@[simp] theorem empty_append (outline : Outline) : Outline.empty ++ outline = outline := by
  show Outline.append .empty outline = outline
  simp [append, empty]

@[simp] theorem append_empty (outline : Outline) : outline ++ Outline.empty = outline := by
  show Outline.append outline .empty = outline
  simp [append, empty]

theorem append_assoc (first second third : Outline) :
    first ++ second ++ third = first ++ (second ++ third) := by
  show Outline.append (Outline.append first second) third =
    Outline.append first (Outline.append second third)
  simp [append, Nat.add_assoc]

end Outline

end ClassSyntax

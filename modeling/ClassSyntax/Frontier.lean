import ClassSyntax.Grammar.Meaning

/-!
# The error frontier

The furthest position at which something was missing, and what was missing there, each thing once and
in the order in which it was first missed. Failures further back are forgotten.
-/

namespace ClassSyntax

structure Frontier where
  position : Nat
  expected : List String
  deriving DecidableEq, Repr

namespace Frontier

/-- Nothing was missing so far. -/
def start : Frontier := ⟨0, []⟩

/-- Takes note of a failure. -/
def note (frontier : Frontier) (failure : Failure) : Frontier :=
  if frontier.position < failure.position then ⟨failure.position, [failure.expected]⟩
  else if failure.position = frontier.position ∧ failure.expected ∉ frontier.expected then
    ⟨frontier.position, frontier.expected ++ [failure.expected]⟩
  else frontier

/-- Takes note of several failures, in order. -/
def noteAll (frontier : Frontier) (log : List Failure) : Frontier := log.foldl note frontier

/-- A diagnostic for each thing that was missing, all at the same token. -/
def diagnostics (frontier : Frontier) (stream : TokenStream) : List Diagnostic :=
  frontier.expected.map (Diagnostic.missing (stream.get frontier.position))

end Frontier

/-- The diagnostic of a failure in a stream. -/
def Failure.diagnostic (failure : Failure) (stream : TokenStream) : Diagnostic :=
  Diagnostic.missing (stream.get failure.position) failure.expected

end ClassSyntax

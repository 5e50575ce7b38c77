import ClassSyntax.Frontier
import ClassSyntax.Grammar.Bounded
import ClassSyntax.Lexer

/-!
# Verdicts

A program is a sequence of classes of which the last, and no other, has an entry method, and has only
one. The verdict on a program is its entry class, or the reasons why it has none.
-/

namespace ClassSyntax

inductive Verdict where
  | accepted (entryClass : String)
  | rejected (diagnostics : List Diagnostic)
  deriving DecidableEq, Repr

namespace Verdict

def isAccepted : Verdict → Bool
  | accepted _ => true
  | rejected _ => false

def entryClass? : Verdict → Option String
  | accepted entryClass => some entryClass
  | rejected _ => none

def diagnostics : Verdict → List Diagnostic
  | accepted _ => []
  | rejected diagnostics => diagnostics

end Verdict

/-- The entry class among the classes of a program, when `next` is the token after them, or the first
objection to their arrangement. -/
def entryClass (classes : List ClassHeader) (next : Token) : Except Diagnostic String :=
  match classes.dropWhile fun header => header.entryMethods == 0 with
  | [] => .error (Diagnostic.ofToken next .missingEntryClass "entry class")
  | entry :: later =>
      if 1 < entry.entryMethods then
        .error (entry.diagnostic (.duplicateEntryClass entry.name.lexeme))
      else
        match later.find? fun header => 0 < header.entryMethods with
        | some second => .error (second.diagnostic (.duplicateEntryClass second.name.lexeme))
        | none =>
            match later with
            | header :: _ => .error (header.diagnostic (.entryClassNotLast entry.name.lexeme))
            | [] =>
                if next.isEnd then .ok entry.name.lexeme
                else .error (Diagnostic.ofToken next .trailingTokens "end of input")

/-- The verdict on the outcome of reading a stream as a program. Where reading failed, everything
that was missing at the furthest point is reported. -/
def Verdict.ofReading (stream : TokenStream) : Outcome × List Failure → Verdict
  | (.ok stop outline, _) =>
      match entryClass outline.classes (stream.get stop) with
      | .ok name => .accepted name
      | .error diagnostic => .rejected [diagnostic]
  | (.fail failure, log) =>
      let furthest := (Frontier.start.noteAll log).diagnostics stream
      .rejected (if furthest.isEmpty then [failure.diagnostic stream] else furthest)

/-- The verdict on a token list. -/
def check (tokens : List Token) : Verdict :=
  let stream := TokenStream.ofTokens tokens
  Verdict.ofReading stream (Rule.program.read stream "" 0)

/-- The verdict on a source. -/
def checkSource (source : String) : Verdict := check (tokenize source)

/-- The verdict as far as it is known after so many steps. -/
def checkWithin (steps : Nat) (tokens : List Token) : Option Verdict :=
  let stream := TokenStream.ofTokens tokens
  (Rule.program.readWithin steps stream "" 0).map (Verdict.ofReading stream)

theorem check_eq_of_checkWithin {tokens : List Token} {verdict : Verdict} (steps : Nat)
    (found : checkWithin steps tokens = some verdict) : check tokens = verdict := by
  obtain ⟨result, ended, rfl⟩ := Option.map_eq_some_iff.mp found
  simp only [check, Rule.read_eq_of_readWithin steps ended]

example : checkSource "class A { public static void main(String[] a) { x = -1; } }" =
    .accepted "A" :=
  check_eq_of_checkWithin 1000 (by decide +kernel)

example : checkSource "class A {}\nclass B { int 2x; }" =
    .rejected [⟨2, "member name", .lexeme "2x", .expectation⟩] :=
  check_eq_of_checkWithin 1000 (by decide +kernel)

end ClassSyntax

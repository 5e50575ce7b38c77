import ClassSyntax.CommandLine
import ClassSyntax.Text.Duration

/-!
# The program

Reads a file, writes another one when asked to, and prints what `CommandLine` says.
-/

namespace ClassSyntax.Main

open CommandLine

/-- What the system says about a file that cannot be used. -/
def describe : IO.Error → String
  | .noFileOrDirectory .. => "No such file or directory (os error 2)"
  | .permissionDenied .. => "Permission denied (os error 13)"
  | error => toString error

def readText (path : String) : IO (Except String String) := do
  try
    let bytes ← IO.FS.readBinFile path
    match String.fromUTF8? bytes with
    | some text => return .ok text
    | none => return .error "stream did not contain valid UTF-8"
  catch error => return .error (describe error)

/-- Writes a file; the answer is what went wrong. -/
def writeText (path text : String) : IO (Option String) := do
  try
    IO.FS.writeFile path text
    return none
  catch error => return some (describe error)

def run (flags : Flags) (path : String) : IO UInt32 := do
  let started ← IO.monoNanosNow
  let front := Front.ofFile flags path (← readText path)
  let writeError ← match front.emission flags with
    | some (out, text) => writeText out text
    | none => pure none
  let tokenized ← IO.monoNanosNow
  let transcript := front.finish flags path writeError
  IO.eprint transcript.errors
  let parsed ← IO.monoNanosNow
  for output in transcript.output do
    IO.print (output.render (Text.duration (tokenized - started)) (Text.duration (parsed - tokenized)))
  return transcript.exitCode

end ClassSyntax.Main

def main (arguments : List String) : IO UInt32 := do
  match ClassSyntax.CommandLine.readArguments? arguments with
  | some (flags, path) => ClassSyntax.Main.run flags path
  | none =>
      IO.eprintln ClassSyntax.CommandLine.usage
      return 2

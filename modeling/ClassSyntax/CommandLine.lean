import ClassSyntax.Report
import ClassSyntax.Verdict

/-!
# The command line

What the program prints and writes, as a function of its flags, of the file it reads and of whether it
can write the file it is asked to write. The times it prints are the only thing left open.
-/

namespace ClassSyntax.CommandLine

structure Flags where
  /-- The file holds token records and not a source. -/
  fromTokens : Bool
  /-- Stop at the first invalid token. -/
  strict : Bool
  /-- Show the tokens and do not parse them. -/
  tokensOnly : Bool
  /-- Where to write the tokens. -/
  emit : Option String
  deriving DecidableEq, Repr

/-- A line of the standard output. -/
inductive Output where
  | line (text : String)
  /-- How long it took to read and tokenize the file. -/
  | tokenized
  /-- How long it took to parse the tokens. -/
  | parsed
  deriving DecidableEq, Repr

/-- The text of a line, given the two times. -/
def Output.render (tokenizing parsing : String) : Output → String
  | line text => text ++ "\n"
  | tokenized => "Tokenized in " ++ tokenizing ++ "\n"
  | parsed => "Parsed in " ++ parsing ++ "\n"

/-- What a run of the program leaves behind. -/
structure Transcript where
  output : List Output
  errors : String
  succeeded : Bool
  deriving DecidableEq, Repr

/-- What the program returns when it ends. -/
def Transcript.exitCode (transcript : Transcript) : UInt32 := if transcript.succeeded then 0 else 1

/-- What there is once the file was read: a reason to stop, or tokens to go on with. -/
inductive Front where
  | stopped (errors : String)
  | ready (content errors : String) (tokens : List Token)
  deriving DecidableEq, Repr

/-- The message about a file that cannot be read or written. -/
def fileError (path message : String) : String :=
  "Error: " ++ (Fault.ofFile path message).render ++ "\n"

def Flags.policy (flags : Flags) : Policy := if flags.strict then .abort else .collect

/-- Reads the tokens of the file, which is given by its content or by what is wrong with it. -/
def Front.ofFile (flags : Flags) (path : String) (file : Except String String) : Front :=
  match file with
  | .error message => .stopped (fileError path message)
  | .ok content =>
      if flags.fromTokens then
        let reading := Record.readAll content
        let errors := String.join (reading.skipped.map fun fault => "Skipping " ++ fault.render ++ "\n")
        .ready content errors reading.tokens
      else
        match tokenizeWith flags.policy content with
        | .error fault => .stopped (fault.report content path)
        | .ok tokens => .ready content "" tokens

/-- The file to write, by its path and its text. -/
def Front.emission (flags : Flags) : Front → Option (String × String)
  | stopped _ => none
  | ready _ _ tokens => flags.emit.map fun path => (path, Record.writeAll tokens)

/-- What is said about a diagnostic: one line, and for a source the place as well. -/
def complaint (flags : Flags) (path content : String) (diagnostic : Diagnostic) : String :=
  diagnostic.render ++ "\n" ++
    if flags.fromTokens then "" else (Fault.ofDiagnostic diagnostic).report content path

/-- Parses the tokens and reports the verdict, after what was printed before. -/
def judge (flags : Flags) (path content : String) (tokens : List Token) (before : List Output)
    (errors : String) : Transcript :=
  match check tokens with
  | .accepted _ => ⟨before ++ [.parsed, .line "Parsing successful"], errors, true⟩
  | .rejected diagnostics =>
      let complaints := String.join (diagnostics.map (complaint flags path content))
      ⟨before ++ [.parsed], errors ++ complaints ++ "Parsing failed\n", false⟩

/-- Goes on with the tokens once they were written, or could not be for this reason. -/
def Front.finish (flags : Flags) (path : String) (writeError : Option String) :
    Front → Transcript
  | stopped errors => ⟨[], errors, false⟩
  | ready content errors tokens =>
      match flags.emit, writeError with
      | some out, some message => ⟨[.tokenized], errors ++ fileError out message, false⟩
      | emit, _ =>
          let written := emit.toList.map fun out => Output.line ("Tokens written to " ++ out)
          if flags.tokensOnly then
            let shown := tokens.map fun token => Output.line token.render
            ⟨.tokenized :: written ++ shown, errors, true⟩
          else judge flags path content tokens (.tokenized :: written) errors

/-- A whole run of the program. -/
def run (flags : Flags) (path : String) (file : Except String String)
    (writeError : Option String) : Transcript :=
  (Front.ofFile flags path file).finish flags path writeError

/-! ## Arguments -/

/-- What was read of the arguments: the flags, and the path of the file. -/
structure Arguments where
  flags : Flags
  path : Option String
  deriving DecidableEq, Repr

/-- Adds one argument; the flags `fromTokens`, `strict` and `tokensOnly` and the path may be given
once. -/
def Arguments.add? (arguments : Arguments) (argument : String) : Option Arguments :=
  let flags := arguments.flags
  match argument with
  | "--from-tokens" =>
      if flags.fromTokens then none
      else some { arguments with flags := { flags with fromTokens := true } }
  | "--strict" =>
      if flags.strict then none else some { arguments with flags := { flags with strict := true } }
  | "--tokens-only" =>
      if flags.tokensOnly then none
      else some { arguments with flags := { flags with tokensOnly := true } }
  | path =>
      if path.startsWith "-" || arguments.path.isSome then none
      else some { arguments with path := some path }

/-- Reads the arguments after those already read. -/
def Arguments.read? (arguments : Arguments) : List String → Option Arguments
  | [] => some arguments
  | "--emit-tokens" :: path :: rest =>
      if arguments.flags.emit.isSome then none
      else read? { arguments with flags := { arguments.flags with emit := some path } } rest
  | argument :: rest =>
      match arguments.add? argument with
      | some more => more.read? rest
      | none => none

/-- The flags and the path that a list of arguments gives. -/
def readArguments? (arguments : List String) : Option (Flags × String) := do
  let read ← Arguments.read? ⟨⟨false, false, false, none⟩, none⟩ arguments
  return (read.flags, ← read.path)

def usage : String :=
  "Usage: class-syntax [--from-tokens] [--strict] [--tokens-only] [--emit-tokens <PATH>] <PATH>"

end ClassSyntax.CommandLine

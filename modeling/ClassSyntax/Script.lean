import ClassSyntax.Parser

/-!
# Scripts

Sequences of commands to a parser, and the answers to them. Attempts and lookahead are commands that
hold scripts themselves, and positions can be remembered under a name.
-/

namespace ClassSyntax

/-- What can be asked of the grammar at a position. -/
inductive Query where
  /-- Read a rule inside the class `own`. -/
  | read (own : String) (rule : Rule)
  /-- Which kind of member comes next in the class `own`? -/
  | memberKind (own : String)
  /-- Skip a type; could one be read? -/
  | skipType
  deriving DecidableEq, Repr

inductive Command where
  | current
  | currentKind
  | peek (distance : Nat)
  | advance
  | hasTokens
  | position
  | mark (name : String)
  | restore (name : String)
  | fail (expected : String)
  | check (kind : Kind) (lexeme : String)
  | checkKind (kind : Kind)
  | eat (kind : Kind) (lexeme : String)
  | expect (kind : Kind) (lexeme : String)
  | expectIdentifier (role : String)
  | diagnostics
  | query (query : Query)
  /-- Stops at the first failure and goes back to where it began. -/
  | attempt (script : List Command)
  /-- Runs to its end, failures or not, and goes back to where it began. -/
  | lookAhead (script : List Command)

mutual

/-- The value that a command gives. -/
inductive Answer where
  | nothing
  | flag (holds : Bool)
  | number (count : Nat)
  | kind (kind : Kind)
  | token (token : Token)
  | diagnostics (found : List Diagnostic)
  | header (header : ClassHeader)
  | headers (classes : List ClassHeader)
  | memberKind (kind : MemberKind)
  | answers (values : List Answer)
  | steps (steps : List Step)

/-- The result of one command, with the position and the missing things after it. -/
inductive Step where
  | mk (result : Except Diagnostic Answer) (position : Nat) (expected : List String)

end

namespace Query

/-- The value of a rule that was read from the current position. -/
def answer (parser : Parser) (own : String) (rule : Rule) (outline : Outline) : Answer :=
  match rule with
  | .program => .headers outline.classes
  | .classDecl =>
      match outline.classes with
      | header :: _ => .header header
      | [] => .nothing
  | .qualifiedName => .token parser.current
  | .member => .memberKind (parser.memberKind own)
  | _ => .nothing

def run : Query → Parse Answer
  | read own rule => fun parser =>
      match Parser.rule own rule parser with
      | (.ok outline, after) => (.ok (answer parser own rule outline), after)
      | (.error diagnostic, after) => (.error diagnostic, after)
  | memberKind own => fun parser => (.ok (.memberKind (parser.memberKind own)), parser)
  | skipType => fun parser =>
      match Parser.rule "" .typeName parser with
      | (.ok _, after) => (.ok (.flag true), after)
      | (.error _, after) => (.ok (.flag false), after)

end Query

namespace Script

/-- A parser and the positions that have a name, the latest first. -/
structure Session where
  parser : Parser
  marks : List (String × Nat)

namespace Session

def start (tokens : List Token) : Session := ⟨Parser.start tokens, []⟩

/-- Does what leaves the marks alone. -/
def parse {α : Type} (session : Session) (body : Parse α) (answer : α → Answer) :
    Except Diagnostic Answer × Session :=
  match body session.parser with
  | (.ok value, after) => (.ok (answer value), { session with parser := after })
  | (.error diagnostic, after) => (.error diagnostic, { session with parser := after })

/-- Back to the position of an earlier session. -/
def backTo (session earlier : Session) : Session :=
  { session with parser := session.parser.restore earlier.parser.position }

/-- One lookahead more. -/
def deeper (session : Session) : Session :=
  { session with parser := { session.parser with depth := session.parser.depth + 1 } }

/-- One lookahead less. -/
def shallower (session : Session) : Session :=
  { session with parser := { session.parser with depth := session.parser.depth - 1 } }

end Session

open Session

mutual

/-- Runs one command. -/
def runOne : Command → Session → Except Diagnostic Answer × Session
  | .current, session => (.ok (.token session.parser.current), session)
  | .currentKind, session => (.ok (.kind session.parser.current.kind), session)
  | .peek distance, session => (.ok (.token (session.parser.peek distance)), session)
  | .advance, session => session.parse Parser.advance .token
  | .hasTokens, session => (.ok (.flag session.parser.hasTokens), session)
  | .position, session => (.ok (.number session.parser.position), session)
  | .mark name, session =>
      (.ok .nothing, { session with marks := (name, session.parser.position) :: session.marks })
  | .restore name, session =>
      match session.marks.lookup name with
      | some position => (.ok .nothing, { session with parser := session.parser.restore position })
      | none => (.ok .nothing, session)
  | .fail expected, session => session.parse (Parser.fail expected) id
  | .check kind lexeme, session => (.ok (.flag (session.parser.current.is kind lexeme)), session)
  | .checkKind kind, session => (.ok (.flag (session.parser.current.kind == kind)), session)
  | .eat kind lexeme, session => session.parse (Parser.eat kind lexeme) .flag
  | .expect kind lexeme, session => session.parse (Parser.expect kind lexeme) .token
  | .expectIdentifier role, session => session.parse (Parser.expectIdentifier role) .token
  | .diagnostics, session => (.ok (.diagnostics session.parser.diagnostics), session)
  | .query query, session => session.parse query.run id
  | .attempt script, session =>
      match runWell script session with
      | (.ok values, after) => (.ok (.answers values), after)
      | (.error diagnostic, after) => (.error diagnostic, after.backTo session)
  | .lookAhead script, session =>
      let (steps, after) := runAll script session.deeper
      (.ok (.steps steps), (after.backTo session).shallower)

/-- Runs a script up to the first failure. -/
def runWell : List Command → Session → Except Diagnostic (List Answer) × Session
  | [], session => (.ok [], session)
  | command :: script, session =>
      match runOne command session with
      | (.error diagnostic, after) => (.error diagnostic, after)
      | (.ok value, after) =>
          match runWell script after with
          | (.ok values, last) => (.ok (value :: values), last)
          | (.error diagnostic, last) => (.error diagnostic, last)

/-- Runs a script to its end. -/
def runAll : List Command → Session → List Step × Session
  | [], session => ([], session)
  | command :: script, session =>
      let (result, after) := runOne command session
      let step := Step.mk result after.parser.position after.parser.frontier.expected
      let (steps, last) := runAll script after
      (step :: steps, last)

end

/-- The steps of a script on a fresh parser. -/
def run (tokens : List Token) (script : List Command) : List Step :=
  (runAll script (Session.start tokens)).1

end Script

end ClassSyntax

import ClassSyntax.Proofs.Frontier.Locality
import ClassSyntax.Proofs.Locality.Abandoned
import ClassSyntax.Proofs.Locality.Dropped
import ClassSyntax.Proofs.Sessions.Speculation
import ClassSyntax.Proofs.Statements.Running

/-!
# Rules are local

What a rule answers depends on the tokens from the current one on and on nothing else: neither on what
was recorded, nor on lookahead, nor on what comes in front. And if it can be read, it depends on the
tokens that are read and the next two.

* `Query.run_of_same`: the same question at the same place of the same stream.
* `Query.run_elsewhere`: a rule that was read is read wherever the tokens are alike.
* `rules_are_local`: both, and the answers in the course of a program.
-/

namespace ClassSyntax

/-! ## Kinds of members -/

section

variable {stream other : TokenStream} {own : String} {start bound : Nat}

/-- A trial that stays within the bound ends alike on a stream that agrees up to there. -/
theorem Phrase.fits_on_other {phrase : Phrase} (progressive : phrase.progressive = true)
    (near : phrase.looksNear = true) (agrees : AgreesTo stream other bound)
    (stays : Stays stream own phrase start bound) :
    phrase.fits other own progressive start = phrase.fits stream own progressive start := by
  have read := phrase.reads_read stream own progressive start
  obtain ⟨again, reread, alike⟩ := read.alike_on_other near agrees (read.confined stays)
  have whole := phrase.reads_read other own progressive start
  unfold Phrase.fits
  rw [(whole.unique reread).1]
  exact alike.succeeds

theorem Phrase.fits_of_accepts {phrase : Phrase} (progressive : phrase.progressive = true)
    {stop : Nat} {outline : Outline} (accepted : Accepts stream own phrase start stop outline) :
    phrase.fits stream own progressive start = true := by
  obtain ⟨_, read⟩ := accepted
  unfold Phrase.fits
  rw [Phrase.read_eq_of_reads read]
  rfl

/-- The kind of a member that stays within the bound is seen on a stream that agrees up to there. -/
theorem MemberKind.classify_on_other (agrees : AgreesTo stream other bound)
    (stays : Stays stream own Rule.member.body start bound) :
    classify other own start = classify stream own start := by
  have header : other.startsWith entryHeader start = stream.startsWith entryHeader start :=
    startsWith_congr fun k short before => agrees.upTo _ (entryHeader_seen short before stays)
  have trial : ∀ {trial yes no : Phrase} (progressive : trial.progressive = true),
      (trial, yes, no) ∈ Phrase.memberTrials → trial.looksNear = true →
        Stays stream own (.ifAhead trial yes no) start bound →
          (trial.fits other own progressive start = true) =
            (trial.fits stream own progressive start = true) :=
    fun progressive listed near stays => congrArg (· = true)
      (Phrase.fits_on_other progressive near agrees (stays_trial listed stays))
  have later : ∀ {trial yes no : Phrase} (progressive : trial.progressive = true),
      Stays stream own (.ifAhead trial yes no) start bound →
        ¬ trial.fits stream own progressive start = true → Stays stream own no start bound := by
    intro trial yes no progressive stays unfit
    rcases stays_ifAhead stays with ⟨⟨_, _, accepted⟩, -⟩ | ⟨-, rest⟩
    · exact absurd (Phrase.fits_of_accepts progressive accepted) unfit
    · exact rest
  -- a trial stays within the bound only where those before it have failed
  unfold classify
  rw [header]
  refine ite_congr rfl (fun _ => rfl) fun noHeader => ?_
  have asConstructor := stays_ifNext.mp stays
  rw [if_neg noHeader] at asConstructor
  refine ite_congr (trial rfl (by decide) rfl asConstructor) (fun _ => rfl) fun noConstructor => ?_
  have asMethod := later rfl asConstructor noConstructor
  refine ite_congr (trial rfl (by decide) rfl asMethod) (fun _ => rfl) fun noMethod => ?_
  have asAttribute := later rfl asMethod noMethod
  exact ite_congr (trial rfl (by decide) rfl asAttribute) (fun _ => rfl) fun _ => rfl

end

/-! ## What a rule depends on -/

/-- The same value of a rule, but for lines. -/
inductive Answer.Alike : Answer → Answer → Prop
  | nothing : Alike .nothing .nothing
  | memberKind {kind : MemberKind} : Alike (.memberKind kind) (.memberKind kind)
  | token {one other : Token} : one.Alike other → Alike (.token one) (.token other)
  | header {one other : ClassHeader} : one.Alike other → Alike (.header one) (.header other)
  | headers {one other : List ClassHeader} :
      List.Forall₂ ClassHeader.Alike one other → Alike (.headers one) (.headers other)

namespace Parser

variable {parser other : Parser} {own : String} {rule : Rule}

theorem rule_of_same (stream : parser.stream = other.stream)
    (position : parser.position = other.position) (own : String) (rule : Rule) :
    (Parser.rule own rule parser).1 = (Parser.rule own rule other).1 ∧
      (Parser.rule own rule parser).2.position = (Parser.rule own rule other).2.position := by
  unfold Parser.rule
  rw [stream, position]
  generalize rule.read other.stream own other.position = ending
  obtain ⟨outcome, log⟩ := ending
  cases outcome <;> exact ⟨rfl, rfl⟩

/-- From here on the other parser finds tokens that are alike, so many and the next two. -/
def SeesAlike (parser other : Parser) (distance : Nat) : Prop :=
  ∀ further < distance + 2, (other.peek further).Alike (parser.peek further)

/-- Without the tokens in front the streams of the two parsers agree. -/
theorem SeesAlike.agrees {distance : Nat} (alike : parser.SeesAlike other distance) :
    AgreesTo (parser.stream.drop parser.position) (other.stream.drop other.position) distance where
  upTo place inside := by
    rw [TokenStream.get_drop, TokenStream.get_drop]
    exact alike place (by omega)
  behindPoint _ := by
    rw [TokenStream.get_drop, TokenStream.get_drop]
    exact alike (distance + 1) (by omega)

end Parser

/-- Without the tokens in front a rule that is read well ends where it has missed most. -/
theorem Accepts.confined_drop {stream : TokenStream} {own : String} {rule : Rule}
    {start distance : Nat} {outline : Outline}
    (accepted : Accepts stream own (.rule rule) start (start + distance) outline) :
    ∃ log, Reads (stream.drop start) own (.rule rule) 0 (.ok distance outline) log ∧
      Confined distance (.ok distance outline) log := by
  obtain ⟨log, read⟩ := accepted
  have here : Reads stream own (.rule rule) (start + 0) (.ok (start + distance) outline) log := read
  obtain ⟨again, missed, reread, ended, -⟩ := here.drop rfl
  obtain rfl := Outcome.behind_eq_ok.mp ended.symm
  exact ⟨missed, reread, reread.confined_of_ok rfl⟩

namespace Query

variable {parser other : Parser} {own : String} {rule : Rule}

/-- The same question at the same place of the same stream has the same answer, and leaves the parser in
the same place. -/
theorem run_of_same (stream : parser.stream = other.stream)
    (position : parser.position = other.position) (query : Query) :
    (query.run parser).1 = (query.run other).1 ∧
      (query.run parser).2.position = (query.run other).2.position := by
  have place : ∀ own, parser.memberKind own = other.memberKind own := by
    intro own
    rw [Parser.memberKind, stream, position, Parser.memberKind]
  cases query with
  | memberKind own =>
      exact ⟨congrArg (fun kind => Except.ok (Answer.memberKind kind)) (place own), position⟩
  | read own rule =>
      have same := Parser.rule_of_same stream position own rule
      have value : ∀ outline, answer parser own rule outline = answer other own rule outline := by
        intro outline
        unfold answer
        rw [place, Parser.current, Parser.current, Parser.peek, Parser.peek, stream, position]
      unfold run
      dsimp only
      rcases one : Parser.rule own rule parser with ⟨result, after⟩
      rcases two : Parser.rule own rule other with ⟨again, later⟩
      rw [one, two] at same
      obtain ⟨rfl, stopped⟩ := same
      cases result with
      | ok outline => exact ⟨congrArg Except.ok (value outline), stopped⟩
      | error diagnostic => exact ⟨rfl, stopped⟩
  | skipType =>
      have same := Parser.rule_of_same stream position "" .typeName
      unfold run
      dsimp only
      rcases one : Parser.rule "" .typeName parser with ⟨result, after⟩
      rcases two : Parser.rule "" .typeName other with ⟨again, later⟩
      rw [one, two] at same
      obtain ⟨rfl, stopped⟩ := same
      cases result <;> exact ⟨rfl, stopped⟩

/-- What is read alike has alike values. -/
theorem answer_alike {distance : Nat} {outline again : Outline} {log : List Failure}
    (alike : parser.SeesAlike other distance)
    (read : Reads (parser.stream.drop parser.position) own (.rule rule) 0 (.ok distance outline) log)
    (confined : Confined distance (.ok distance outline) log) (same : again.Alike outline) :
    (answer other own rule again).Alike (answer parser own rule outline) := by
  cases rule with
  | program => exact .headers same.classes
  | classDecl =>
      obtain ⟨classes, count⟩ := outline
      obtain ⟨others, another⟩ := again
      cases same.classes with
      | nil => exact .nothing
      | cons first _ => exact .header first
  | qualifiedName => exact .token (alike 0 (by omega))
  | member =>
      -- the kind of a member is not in its outline, but found by the trials once more
      have kind := MemberKind.classify_on_other alike.agrees
        (stays_rule.mp ⟨_, _, read, confined⟩)
      rw [MemberKind.classify_drop, MemberKind.classify_drop] at kind
      have known : other.memberKind own = parser.memberKind own := kind
      unfold answer
      rw [known]
      exact .memberKind
  | _ => exact .nothing

theorem position_le_of_run {value : Answer} {after : Parser}
    (ended : (Query.read own rule).run parser = (.ok value, after)) :
    parser.position ≤ after.position := by
  obtain ⟨_, -, accepted⟩ := accepts_of_run ended
  exact accepted.start_le_stop

/-- A rule that was read is read wherever the tokens are alike up to the second behind it. -/
theorem run_elsewhere {value : Answer} {after : Parser}
    (ended : (Query.read own rule).run parser = (.ok value, after))
    (alike : parser.SeesAlike other (after.position - parser.position)) :
    ∃ again later, (Query.read own rule).run other = (.ok again, later) ∧
      later.position = other.position + (after.position - parser.position) ∧
        again.Alike value := by
  obtain ⟨outline, rfl, accepted⟩ := accepts_of_run ended
  rw [← Nat.add_sub_of_le accepted.start_le_stop] at accepted
  obtain ⟨log, read, confined⟩ := accepted.confined_drop
  obtain ⟨_, reread, ⟨like⟩⟩ := read.alike_on_other rfl alike.agrees confined
  obtain ⟨later, again, moved⟩ := run_of_accepts ⟨_, reread.behind⟩
  exact ⟨_, later, again, moved, answer_alike alike read confined like⟩

end Query

namespace Script

/-- Two sessions at the same place of the same stream give the same answer to a question. -/
theorem query_of_same {one other : Session} (stream : one.parser.stream = other.parser.stream)
    (position : one.parser.position = other.parser.position) (query : Query) :
    (runOne (.query query) one).1 = (runOne (.query query) other).1 ∧
      (runOne (.query query) one).2.parser.position =
        (runOne (.query query) other).2.parser.position := by
  obtain ⟨same, stopped⟩ := query.run_of_same stream position
  have result : ∀ session : Session,
      (runOne (.query query) session).1 = (query.run session.parser).1 := by
    intro session
    rw [runOne, Session.parse]
    split
    · rename_i ended
      rw [ended, id]
    · rename_i ended
      rw [ended]
  rw [result, result, runOne, runOne, parser_parse, parser_parse]
  exact ⟨same, stopped⟩

end Script

/-! ## Locality -/

open Script in
/-- Questions have the same answer at the same place of the same stream, whatever was recorded and
however many lookaheads are under way: in particular behind an attempt that failed, and wherever a program
that looks ahead goes back to the place. A rule that was read is read wherever the tokens are alike, up to
the second behind what is read: it takes as many tokens, and has the same value but for lines. -/
theorem rules_are_local :
    (∀ (query : Query) (one other : Parser), one.stream = other.stream →
      one.position = other.position →
        (query.run one).1 = (query.run other).1 ∧
          (query.run one).2.position = (query.run other).2.position) ∧
      (∀ (query : Query) (script : List Command) (session : Session) (diagnostic : Diagnostic),
        let tried := runOne (.attempt script) session
        tried.1 = .error diagnostic →
          (runOne (.query query) tried.2).1 = (runOne (.query query) session).1 ∧
            (runOne (.query query) tried.2).2.parser.position =
              (runOne (.query query) session).2.parser.position) ∧
      (∀ (query : Query) (session inside : Session) (depth : Nat), session.Visits depth inside →
        let back := inside.backTo session
        (runOne (.query query) back).1 = (runOne (.query query) session).1 ∧
          (runOne (.query query) back).2.parser.position =
            (runOne (.query query) session).2.parser.position) ∧
      ∀ (own : String) (rule : Rule) (parser other after : Parser) (value : Answer),
        (Query.read own rule).run parser = (.ok value, after) →
          let distance := after.position - parser.position
          (∀ further < distance + 2, (other.peek further).Alike (parser.peek further)) →
            after.position = parser.position + distance ∧
              ∃ again later, (Query.read own rule).run other = (.ok again, later) ∧
                later.position = other.position + distance ∧ again.Alike value := by
  refine ⟨fun query _ _ stream position => query.run_of_same stream position,
    fun query script session _ => ?_, fun query _ _ _ visits => ?_,
    fun own rule parser other after value ended alike => ⟨?_, ?_⟩⟩
  · intro tried failed
    exact query_of_same (runOne_notes _ session).stream (position_attempt failed) query
  · intro back
    have stream : back.parser.stream = _ := visits.stream_eq
    exact query_of_same stream rfl query
  · exact (Nat.add_sub_of_le (Query.position_le_of_run ended)).symm
  · exact Query.run_elsewhere ended alike

/-- The tokens of `x = 1;` and a brace, all on one line. -/
def assignment (line : UInt32) : List Token :=
  [⟨.identifier, "x", line⟩, ⟨.operator, "=", line⟩, ⟨.intLiteral, "1", line⟩,
    ⟨.punctuation, ";", line⟩, ⟨.punctuation, "\x7d", line⟩]

/-- An assignment, which is tried as a declaration first, is also read behind a semicolon on another line,
inside two lookaheads and when something was missed further on. In its own place it is read in the same
way behind an attempt and inside two lookaheads. -/
theorem assignment_is_local :
    let statement := Query.read "" .trialStmt
    let other : Parser :=
      ⟨TokenStream.ofTokens (⟨.punctuation, ";", 7⟩ :: assignment 8), 1, ⟨4, ["type"]⟩, 2⟩
    let session := Script.Session.start (assignment 1)
    let tried := Script.runOne (.attempt [.advance, .fail "type"]) session
    (∃ later, statement.run other = (.ok .nothing, later) ∧ later.position = 5) ∧
      (Script.runOne (.query statement) tried.2).1 =
        (Script.runOne (.query statement) session).1 ∧
      (Script.runOne (.query statement) session.deeper.deeper).1 =
        (Script.runOne (.query statement) session).1 := by
  intro statement other session tried
  obtain ⟨-, attempts, ahead, elsewhere⟩ := rules_are_local
  have read : Rule.trialStmt.read (TokenStream.ofTokens (assignment 1)) "" 0 =
      (.ok 4 .empty, [⟨1, "variable name"⟩]) := Rule.read_eq_of_readWithin 1000 (by decide +kernel)
  have accepted : Accepts session.parser.stream "" (.rule .trialStmt) session.parser.position 4
      .empty := ⟨_, Phrase.read_eq_iff.mp read⟩
  obtain ⟨after, ended, stopped⟩ := Query.run_of_accepts accepted
  have alike : ∀ further < 4 - 0 + 2, (other.peek further).Alike (session.parser.peek further) := by
    decide +kernel
  rw [← stopped] at alike
  obtain ⟨-, again, later, found, moved, same⟩ := elsewhere _ _ _ other _ _ ended alike
  obtain rfl : again = .nothing := by
    cases same
    rfl
  rw [stopped] at moved
  exact ⟨⟨later, found, moved⟩, (attempts statement _ session _ rfl).1,
    (ahead statement session session.deeper.deeper 2
      (.inside .rest (.inside .rest (.here .rest)))).1⟩

end ClassSyntax

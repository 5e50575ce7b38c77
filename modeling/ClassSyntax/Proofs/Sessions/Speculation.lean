import ClassSyntax.Proofs.Frontier.History
import ClassSyntax.Proofs.Progress.NestedReadings

/-!
# Speculation

A program on a parser may try things and look ahead as it likes, go back to positions that it has
marked, and do so inside of what it tries. `Session.Runs` is what such a program can come to.

* `Reads.missed_le`, `Reaches.place_le`: reading stays on the stored tokens.
* `Session.Runs.keeps`: what every program keeps.
* `speculation_keeps_session`: the state in which every program finds the parser, and what an attempt
  and a lookahead leave behind.
-/

namespace ClassSyntax

/-! ## Stored tokens -/

namespace TokenStream

/-- The tokens as they are stored: the body, and one end of the input behind it. -/
def stored (stream : TokenStream) : List Token :=
  stream.body.toList ++ [.endOfInput stream.endLine]

theorem stored_ofTokens (tokens : List Token) :
    (ofTokens tokens).stored =
      tokens.filter (fun token => !token.isEnd) ++ [.endOfInput (Record.lastLine tokens)] := rfl

@[simp] theorem length_stored (stream : TokenStream) : stream.stored.length = stream.size + 1 := by
  simp [stored, size]

/-- To read a position is to read the stored tokens there, or the last of them. -/
theorem getElem?_stored (stream : TokenStream) (place : Nat) :
    stream.stored[min place (stream.stored.length - 1)]? = some (stream.get place) := by
  rw [length_stored, Nat.add_sub_cancel, stored]
  rcases Nat.lt_or_ge place stream.size with inside | beyond
  · have here : place < stream.body.size := inside
    rw [Nat.min_eq_left (Nat.le_of_lt inside),
      List.getElem?_append_left (by simpa using here), get]
    simp [here]
  · rw [Nat.min_eq_right beyond, get_of_size_le beyond]
    simp [size]

end TokenStream

section Range

variable {stream : TokenStream} {own : String} {phrase : Phrase} {start : Nat}

/-- Nothing is missed behind the end of the input. -/
theorem Reads.missed_le {outcome : Outcome} {log : List Failure}
    (read : Reads stream own phrase start outcome log) :
    ∀ failure ∈ log, failure.position ≤ max start stream.size := by
  induction read with
  | done | expectFound | ownFound | whileStop | countEntry => exact nofun
  | expectMissing | ownMissing | fail | classMissing =>
      exact List.forall_mem_singleton.mpr (Nat.le_max_left _ _)
  | rule _ ih | seqFail _ ih | ifNextYes _ _ ih | ifNextNo _ _ ih | whileFail _ _ ih
  | orElseFirst _ ih | ifAheadYes _ _ _ ih | ifAheadNo _ _ _ ih => exact ih
  | orElseSecond _ _ ihFirst ihSecond => exact List.forall_mem_append.mpr ⟨ihFirst, ihSecond⟩
  | seqOk read _ ihFirst ihSecond | whileMore _ read _ ihFirst ihSecond =>
      refine List.forall_mem_append.mpr ⟨ihFirst, fun failure member => ?_⟩
      refine Nat.le_trans (ihSecond failure member) (Nat.max_le.mpr ⟨?_, Nat.le_max_right _ _⟩)
      exact read.stop_le
  | classFound found _ ih =>
      intro failure member
      have inside := TokenStream.lt_size_of_admits found
      exact Nat.le_trans (ih failure member) (Nat.max_le.mpr
        ⟨Nat.le_trans inside (Nat.le_max_right _ _), Nat.le_max_right _ _⟩)

/-- Nothing is read from a place behind the end of the input. -/
theorem Reaches.place_le {inner : String} {part : Phrase} {place : Nat}
    (reached : Reaches stream own phrase start inner part place) :
    place ≤ max start stream.size := by
  induction reached with
  | here => exact Nat.le_max_left _ _
  | seqSecond read _ ih | whileAgain _ read _ ih =>
      exact Nat.le_trans ih (Nat.max_le.mpr ⟨read.stop_le, Nat.le_max_right _ _⟩)
  | classBody found _ ih =>
      have inside := TokenStream.lt_size_of_admits found
      exact Nat.le_trans ih (Nat.max_le.mpr
        ⟨Nat.le_trans inside (Nat.le_max_right _ _), Nat.le_max_right _ _⟩)
  | rule _ ih | seqFirst _ ih | orElseFirst _ ih | ifAheadTrial _ ih => exact ih
  | ifNextYes _ _ ih | ifNextNo _ _ ih | whileRound _ _ ih | orElseSecond _ _ ih => exact ih
  | ifAheadYes _ _ ih | ifAheadNo _ _ ih => exact ih

end Range

/-! ## Positions of a parser -/

namespace Parser

/-- The parser stands on a stored token of this stream, and so does its frontier. -/
structure Within (stream : TokenStream) (parser : Parser) : Prop where
  same : parser.stream = stream
  position : parser.position ≤ stream.size
  furthest : parser.frontier.position ≤ stream.size

theorem within_start (tokens : List Token) :
    (start tokens).Within (TokenStream.ofTokens tokens) :=
  ⟨rfl, Nat.zero_le _, Nat.zero_le _⟩

namespace Within

variable {stream : TokenStream} {parser : Parser}

theorem restore (within : parser.Within stream) {position : Nat} (inside : position ≤ stream.size) :
    (parser.restore position).Within stream :=
  ⟨within.same, inside, within.furthest⟩

theorem skip (within : parser.Within stream) : parser.skip.Within stream := by
  unfold Parser.skip
  split
  · rename_i more
    -- a token that is not the end of the input has another one behind it
    refine ⟨within.same, Nat.lt_of_not_le fun beyond => ?_, within.furthest⟩
    rw [← within.same, ← TokenStream.get_isEnd_iff] at beyond
    rw [hasTokens, current, peek, Nat.add_zero, beyond] at more
    exact nomatch more
  · exact within

theorem note (within : parser.Within stream) {log : List Failure}
    (inside : ∀ failure ∈ log, failure.position ≤ stream.size) :
    (parser.note log).Within stream := by
  unfold Parser.note
  split
  · refine ⟨within.same, within.position, ?_⟩
    rcases parser.frontier.position_noteAll_mem log with kept | ⟨failure, member, furthest⟩
    · exact kept ▸ within.furthest
    · exact furthest ▸ inside failure member
  · exact within

/-- To miss something where the parser stands. -/
theorem note_here (within : parser.Within stream) (expected : String) :
    (parser.note [⟨parser.position, expected⟩]).Within stream :=
  within.note (List.forall_mem_singleton.mpr within.position)

theorem rule (within : parser.Within stream) (own : String) (rule : Rule) :
    (Parser.rule own rule parser).2.Within stream := by
  have read := rule.reads_read parser.stream own parser.position
  have bound : max parser.position parser.stream.size ≤ stream.size :=
    Nat.max_le.mpr ⟨within.position, Nat.le_of_eq (congrArg _ within.same)⟩
  have noted := within.note fun failure member => Nat.le_trans (read.missed_le failure member) bound
  have stopped := noted.restore (Nat.le_trans read.stop_le bound)
  unfold Parser.rule
  generalize rule.read parser.stream own parser.position = ending at stopped
  obtain ⟨outcome, log⟩ := ending
  cases outcome <;> exact stopped

theorem query (within : parser.Within stream) (query : Query) :
    (query.run parser).2.Within stream := by
  cases query with
  | read own rule =>
      have after := within.rule own rule
      unfold Query.run
      dsimp only
      split <;> rename_i result <;> rwa [result] at after
  | memberKind own => exact within
  | skipType =>
      have after := within.rule "" .typeName
      unfold Query.run
      dsimp only
      split <;> rename_i result <;> rwa [result] at after

end Within

end Parser

/-! ## Programs -/

namespace Script

open Session

namespace Session

/-- `before.Runs after`: a program that starts in `before` can come to `after`. It runs commands, gives up
what it has tried, and looks ahead, whatever it does with the answers. To try something that succeeds is
to go on with it. -/
inductive Runs : Session → Session → Prop
  | rest {session : Session} : Runs session session
  | command {before after : Session} (command : Command) :
      Runs before after → Runs before (runOne command after).2
  | giveUp {before middle inside : Session} :
      Runs before middle → Runs middle inside → Runs before (inside.backTo middle)
  | lookAhead {before middle inside : Session} :
      Runs before middle → Runs middle.deeper inside →
      Runs before (inside.backTo middle).shallower

/-- `outer.Visits depth inner`: a program that starts in `outer` can come to `inner` with so many
lookaheads under way. -/
inductive Visits : Session → Nat → Session → Prop
  | here {outer inner : Session} : Runs outer inner → Visits outer 0 inner
  | inside {outer middle inner : Session} {depth : Nat} :
      Runs outer middle → Visits middle.deeper depth inner → Visits outer (depth + 1) inner

/-- All positions of a session are on stored tokens of this stream. -/
structure Within (stream : TokenStream) (session : Session) : Prop where
  parser : session.parser.Within stream
  marks : ∀ mark ∈ session.marks, mark.2 ≤ stream.size

theorem within_start (tokens : List Token) :
    (start tokens).Within (TokenStream.ofTokens tokens) :=
  ⟨Parser.within_start tokens, nofun⟩

@[simp] theorem marks_parse {α : Type} (session : Session) (body : Parse α) (answer : α → Answer) :
    (session.parse body answer).2.marks = session.marks := by
  unfold Session.parse
  split <;> rfl

namespace Within

variable {stream : TokenStream} {session inside : Session}

theorem parse {α : Type} {body : Parse α} (within : session.Within stream)
    (after : (body session.parser).2.Within stream) (answer : α → Answer) :
    (session.parse body answer).2.Within stream :=
  ⟨by rwa [parser_parse], by rw [marks_parse]; exact within.marks⟩

theorem deeper (within : session.Within stream) : session.deeper.Within stream :=
  ⟨⟨within.parser.same, within.parser.position, within.parser.furthest⟩, within.marks⟩

theorem shallower (within : session.Within stream) : session.shallower.Within stream :=
  ⟨⟨within.parser.same, within.parser.position, within.parser.furthest⟩, within.marks⟩

theorem backTo (within : inside.Within stream) (earlier : session.Within stream) :
    (inside.backTo session).Within stream :=
  ⟨within.parser.restore earlier.parser.position, within.marks⟩

end Within

end Session

section Steps

variable {stream : TokenStream}

mutual

/-- A command keeps all positions on stored tokens. -/
theorem runOne_within (command : Command) {session : Session} (within : session.Within stream) :
    (runOne command session).2.Within stream := by
  match command with
  | .current | .currentKind | .peek _ | .hasTokens | .position | .check _ _ | .checkKind _
  | .diagnostics => exact within
  | .mark name =>
      exact ⟨within.parser, List.forall_mem_cons.mpr ⟨within.parser.position, within.marks⟩⟩
  | .restore name =>
      unfold runOne
      split
      · rename_i position found
        obtain ⟨later, sooner, marks, -⟩ := List.lookup_eq_some_iff.mp found
        have listed : (name, position) ∈ session.marks := by simp [marks]
        exact ⟨within.parser.restore (within.marks _ listed), within.marks⟩
      · exact within
  | .advance => exact within.parse within.parser.skip _
  | .fail expected => exact within.parse (within.parser.note_here expected) _
  | .eat kind lexeme =>
      refine within.parse ?_ _
      unfold Parser.eat
      split
      · exact within.parser.skip
      · exact within.parser
  | .expect kind lexeme =>
      refine within.parse ?_ _
      unfold Parser.expect
      split
      · exact within.parser.skip
      · exact within.parser.note_here lexeme
  | .expectIdentifier role =>
      refine within.parse ?_ _
      unfold Parser.expectIdentifier
      split
      · exact within.parser.skip
      · exact within.parser.note_here role
  | .query query => exact within.parse (within.parser.query query) _
  | .attempt script =>
      have after := runWell_within script within
      unfold runOne
      split <;> rename_i result <;> rw [result] at after
      · exact after
      · exact after.backTo within
  | .lookAhead script => exact ((runAll_within script within.deeper).backTo within).shallower

theorem runWell_within (script : List Command) {session : Session}
    (within : session.Within stream) : (runWell script session).2.Within stream := by
  match script with
  | [] => exact within
  | command :: script =>
      have first := runOne_within command within
      unfold runWell
      split <;> rename_i after result <;> rw [result] at first
      · exact first
      · have rest := runWell_within script first
        split <;> rename_i last <;> rwa [last] at rest

theorem runAll_within (script : List Command) {session : Session}
    (within : session.Within stream) : (runAll script session).2.Within stream := by
  match script with
  | [] => exact within
  | command :: script => exact runAll_within script (runOne_within command within)

end

end Steps

/-- The steps of a script are a program. -/
theorem runs_runAll (script : List Command) {before session : Session}
    (earlier : before.Runs session) : before.Runs (runAll script session).2 := by
  induction script generalizing session with
  | nil => exact earlier
  | cons command script ih => exact ih (.command command earlier)

namespace Session

variable {stream : TokenStream} {before after inner : Session}

/-- A program keeps all positions on stored tokens. -/
theorem Runs.within (runs : before.Runs after) (within : before.Within stream) :
    after.Within stream := by
  induction runs with
  | rest => exact within
  | command command _ ih => exact runOne_within command (ih within)
  | giveUp _ _ ihBefore ihInside => exact (ihInside (ihBefore within)).backTo (ihBefore within)
  | lookAhead _ _ ihBefore ihInside =>
      exact ((ihInside (ihBefore within).deeper).backTo (ihBefore within)).shallower

/-- What a program has noted. -/
theorem Runs.notes (runs : before.Runs after) :
    ∃ log, before.parser.Notes log after.parser := by
  induction runs with
  | rest => exact ⟨[], .refl _⟩
  | command command _ ih =>
      obtain ⟨log, notes⟩ := ih
      exact ⟨_, notes.trans (runOne_notes command _)⟩
  | giveUp _ _ ihBefore ihInside =>
      obtain ⟨_, first⟩ := ihBefore
      obtain ⟨_, second⟩ := ihInside
      exact ⟨_, (first.trans second).restore _⟩
  | lookAhead _ _ ihBefore ihInside =>
      obtain ⟨_, first⟩ := ihBefore
      obtain ⟨_, second⟩ := ihInside
      exact ⟨_, first.trans (second.lookAhead _)⟩

/-- Looking ahead leaves the parser as it was. -/
theorem Runs.parser_lookAhead {inside : Session} (runs : before.deeper.Runs inside) :
    (inside.backTo before).shallower.parser = before.parser := by
  obtain ⟨_, notes⟩ := runs.notes
  have kept : before.parser.Notes [] (inside.backTo before).shallower.parser :=
    notes.lookAhead before.parser.position
  -- the position was put back; that the rest is as it was is what the notes say
  have stream : inside.parser.stream = before.parser.stream := kept.stream
  have depth : inside.parser.depth - 1 = before.parser.depth := kept.depth
  have frontier : inside.parser.frontier = before.parser.frontier := by
    have same := kept.frontier
    rwa [Parser.note_nil] at same
  simp only [shallower, backTo, Parser.restore, stream, frontier, depth]

theorem Visits.within {depth : Nat} (visits : before.Visits depth inner)
    (within : before.Within stream) : inner.Within stream := by
  induction visits with
  | here runs => exact runs.within within
  | inside runs _ ih => exact ih (runs.within within).deeper

theorem Visits.stream_eq {depth : Nat} (visits : before.Visits depth inner) :
    inner.parser.stream = before.parser.stream := by
  induction visits with
  | here runs =>
      obtain ⟨_, notes⟩ := runs.notes
      exact notes.stream
  | inside runs _ ih =>
      obtain ⟨_, notes⟩ := runs.notes
      exact ih.trans notes.stream

/-- As many lookaheads are under way as were entered. -/
theorem Visits.depth {depth : Nat} (visits : before.Visits depth inner) :
    inner.parser.depth = before.parser.depth + depth := by
  induction visits with
  | here runs =>
      obtain ⟨_, notes⟩ := runs.notes
      exact notes.depth
  | inside runs _ ih =>
      obtain ⟨_, notes⟩ := runs.notes
      simp only [ih, deeper, notes.depth]
      omega

end Session

/-- An attempt that fails goes back to where it began. -/
theorem position_attempt {script : List Command} {session : Session} {diagnostic : Diagnostic}
    (failed : (runOne (.attempt script) session).1 = .error diagnostic) :
    (runOne (.attempt script) session).2.parser.position = session.parser.position := by
  unfold runOne at failed ⊢
  split at failed
  · exact nomatch failed
  · rfl

/-- An attempt that succeeds stays where its script stopped. -/
theorem attempt_eq_runWell {script : List Command} {session : Session} {answer : Answer}
    (well : (runOne (.attempt script) session).1 = .ok answer) :
    (runOne (.attempt script) session).2 = (runWell script session).2 := by
  unfold runOne at well ⊢
  split at well
  · rename_i result
    rw [result]
  · exact nomatch well

/-! ## Speculation -/

/-- Wherever a program on a fresh parser comes to, the tokens are stored as they were, with one end of the
input behind them; the parser and its frontier stand on stored tokens, which is where all tokens are read
from; and as many lookaheads are under way as were entered. An attempt that fails goes back to where it
began, and one that succeeds stays where its script stopped. To look ahead leaves the parser as it was,
whatever is done meanwhile. -/
theorem speculation_keeps_session :
    (∀ (tokens : List Token) (depth : Nat) (inner : Session),
      (Session.start tokens).Visits depth inner →
        let parser := inner.parser
        let stored := parser.stream.stored
        stored = tokens.filter (fun token => !token.isEnd) ++
            [.endOfInput (Record.lastLine tokens)] ∧
          parser.position < stored.length ∧
          parser.frontier.position < stored.length ∧
          (∀ distance, stored[min (parser.position + distance) (stored.length - 1)]? =
            some (parser.peek distance)) ∧
          (∀ own rule inside part place,
            Reaches parser.stream own (.rule rule) parser.position inside part place →
              place < stored.length) ∧
          parser.depth = depth) ∧
      (∀ (script : List Command) (session : Session),
        let ended := runOne (.attempt script) session
        (∀ diagnostic, ended.1 = .error diagnostic →
          ended.2.parser.position = session.parser.position) ∧
          ∀ answer, ended.1 = .ok answer → ended.2 = (runWell script session).2) ∧
      (∀ before inside : Session, before.deeper.Runs inside →
        (inside.backTo before).shallower.parser = before.parser) ∧
      ∀ (script : List Command) (session : Session),
        (runOne (.lookAhead script) session).2.parser = session.parser := by
  refine ⟨fun tokens depth inner visits => ?_, fun script session =>
    ⟨fun _ failed => position_attempt failed, fun _ well => attempt_eq_runWell well⟩,
    fun before inside runs => runs.parser_lookAhead,
    fun script session => (runs_runAll script .rest).parser_lookAhead⟩
  obtain ⟨⟨same, position, furthest⟩, -⟩ := visits.within (Session.within_start tokens)
  intro parser stored
  have length : stored.length = (TokenStream.ofTokens tokens).size + 1 := by
    rw [← same]
    exact TokenStream.length_stored _
  rw [length]
  refine ⟨?_, Nat.lt_succ_of_le position, Nat.lt_succ_of_le furthest, fun distance => ?_,
    fun own rule inside part place reached => ?_, ?_⟩
  · rw [← TokenStream.stored_ofTokens, ← same]
  · rw [← length]
    exact TokenStream.getElem?_stored _ _
  · have bound := reached.place_le
    rw [same] at bound
    exact Nat.lt_succ_of_le (Nat.le_trans bound (Nat.max_le.mpr ⟨position, Nat.le_refl _⟩))
  · rw [visits.depth]
    exact Nat.zero_add depth

/-- Behind the operator of `- a`, where the operator itself is marked. -/
def behindOperator : Session :=
  (runAll [.mark "operator", .advance] (Session.start Parser.negation)).2

/-- Two lookaheads further in, the marked position is still a stored token; and looking back to it, or
failing in an attempt behind it, does not move the parser. -/
theorem behindOperator_keeps_session :
    let inner := (runOne (.restore "operator") behindOperator.deeper.deeper).2
    (inner.parser.position < inner.parser.stream.stored.length ∧ inner.parser.depth = 2) ∧
      (runOne (.attempt [.advance, .fail "type"]) behindOperator).2.parser.position = 1 ∧
      (runOne (.attempt [.advance]) behindOperator).2.parser.position = 2 ∧
      (runOne (.lookAhead [.fail "type", .restore "operator"]) behindOperator).2.parser =
        behindOperator.parser := by
  obtain ⟨valid, attempts, looking, -⟩ := speculation_keeps_session
  have reached : (Session.start Parser.negation).Runs behindOperator := runs_runAll _ .rest
  have visits : (Session.start Parser.negation).Visits 2
      (runOne (.restore "operator") behindOperator.deeper.deeper).2 :=
    .inside reached (.inside .rest (.here (.command _ .rest)))
  obtain ⟨-, position, -, -, -, depth⟩ := valid _ _ _ visits
  have failed := (attempts [.advance, .fail "type"] behindOperator).1 _ rfl
  have succeeded := (attempts [.advance] behindOperator).2 _ rfl
  have kept := looking behindOperator _
    (runs_runAll [.fail "type", .restore "operator"] .rest)
  exact ⟨⟨position, depth⟩, failed, by rw [succeeded]; decide, kept⟩

end Script

end ClassSyntax

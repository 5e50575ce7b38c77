import ClassSyntax.Grammar.Progress

/-!
# The reading machine

Computes readings with a stack of its own, so that the nesting of a program is bounded by memory and
not by the depth of calls. `Machine.leads` walks through any reading step by step, which shows that
the machine stops, and on the outcome and log that `Reads` describes.

* `Phrase.reads_read`: `Phrase.read` computes a reading.
* `Phrase.read_eq_iff`: it is the only one.
-/

namespace ClassSyntax

namespace Machine

/-- What is to be done with the outcome of the phrase that is being read. -/
inductive Frame where
  /-- Go on with the next phrase. -/
  | andThen (own : String) (next : Phrase)
  /-- Go on with the next round of a loop. -/
  | andAgain (own : String) (ahead : List Terminals) (body : Phrase)
  /-- Put the outline of what came before in front. -/
  | join (before : Outline)
  /-- Read another phrase from the start after a failure. -/
  | otherwise (own : String) (start : Nat) (second : Phrase)
  /-- Go back to the start, to the log from before the trial, and to one of two phrases. -/
  | choose (own : String) (start : Nat) (log : List Failure) (yes no : Phrase)
  /-- Close the class with this name. -/
  | close (name : Token)

/-- Either a phrase is to be read from a position, or an outcome is to be handed to the stack. The
log is kept backwards. -/
inductive Config where
  | reading (own : String) (phrase : Phrase) (start : Nat) (stack : List Frame)
      (log : List Failure)
  | ended (outcome : Outcome) (stack : List Frame) (log : List Failure)

/-- A failure, met and returned. -/
def failAt (position : Nat) (label : String) (stack : List Frame) (log : List Failure) : Config :=
  .ended (.fail ⟨position, label⟩) stack (⟨position, label⟩ :: log)

/-- The next step of reading a phrase. -/
def enter (stream : TokenStream) (own : String) (phrase : Phrase) (start : Nat)
    (stack : List Frame) (log : List Failure) : Config :=
  match phrase with
  | .done => .ended (.ok start .empty) stack log
  | .expect choices label =>
      if choices.allow (stream.get start) then .ended (.ok (start + 1) .empty) stack log
      else failAt start label stack log
  | .expectOwnName =>
      if (Terminal.named own).admits (stream.get start) then
        .ended (.ok (start + 1) .empty) stack log
      else failAt start own stack log
  | .fail label => failAt start label stack log
  | .rule rule => .reading own rule.body start stack log
  | .seq first second => .reading own first start (.andThen own second :: stack) log
  | .ifNext ahead yes no =>
      .reading own (if stream.startsWith ahead start then yes else no) start stack log
  | .whileNext ahead body =>
      if stream.startsWith ahead start then
        .reading own body start (.andAgain own ahead body :: stack) log
      else .ended (.ok start .empty) stack log
  | .orElse first second => .reading own first start (.otherwise own start second :: stack) log
  | .ifAhead trial yes no => .reading own trial start (.choose own start log yes no :: stack) log
  | .inClass body =>
      if Terminal.identifier.admits (stream.get start) then
        .reading (stream.get start).lexeme body (start + 1) (.close (stream.get start) :: stack) log
      else failAt start "class name" stack log
  | .countEntry => .ended (.ok start .entryMethod) stack log

/-- The next step of handing an outcome to the topmost frame. -/
def leave (outcome : Outcome) (frame : Frame) (stack : List Frame) (log : List Failure) : Config :=
  match frame, outcome with
  | .andThen own next, .ok stop outline => .reading own next stop (.join outline :: stack) log
  | .andThen _ _, .fail failure => .ended (.fail failure) stack log
  | .andAgain own ahead body, .ok stop outline =>
      .reading own (.whileNext ahead body) stop (.join outline :: stack) log
  | .andAgain _ _ _, .fail failure => .ended (.fail failure) stack log
  | .join before, outcome => .ended (outcome.after before) stack log
  | .otherwise _ _ _, .ok stop outline => .ended (.ok stop outline) stack log
  | .otherwise own start second, .fail _ => .reading own second start stack log
  | .choose own start log yes _, .ok _ _ => .reading own yes start stack log
  | .choose own start log _ no, .fail _ => .reading own no start stack log
  | .close name, outcome => .ended (outcome.close name) stack log

/-- One step; `none` when an outcome is left and no frame to hand it to. -/
def step (stream : TokenStream) : Config → Option Config
  | .reading own phrase start stack log => some (enter stream own phrase start stack log)
  | .ended outcome (frame :: stack) log => some (leave outcome frame stack log)
  | .ended _ [] _ => none

/-! ## The machine stops -/

/-- The machine stops from this configuration on. -/
def Halts (stream : TokenStream) (config : Config) : Prop :=
  Acc (fun later earlier => step stream earlier = some later) config

/-- The machine gets from one configuration to another. -/
inductive Leads (stream : TokenStream) : Config → Config → Prop
  | refl {config : Config} : Leads stream config config
  | step {first second last : Config} :
      step stream first = some second → Leads stream second last → Leads stream first last

namespace Leads

variable {stream : TokenStream} {first second last : Config}

theorem trans (left : Leads stream first second) (right : Leads stream second last) :
    Leads stream first last := by
  induction left with
  | refl => exact right
  | step moved _ ih => exact .step moved (ih right)

theorem halts (path : Leads stream first last) (halts : Halts stream last) :
    Halts stream first := by
  induction path with
  | refl => exact halts
  | step moved _ ih =>
      refine Acc.intro _ fun later next => ?_
      rw [moved, Option.some.injEq] at next
      exact next ▸ ih halts

end Leads

/-- A reading leads the machine to its outcome and adds its log, whatever the stack. -/
theorem leads {stream : TokenStream} {own : String} {phrase : Phrase} {start : Nat}
    {outcome : Outcome} {log : List Failure}
    (read : Reads stream own phrase start outcome log) (stack : List Frame)
    (before : List Failure) :
    Leads stream (.reading own phrase start stack before)
      (.ended outcome stack (log.reverse ++ before)) := by
  induction read generalizing stack before with
  | done => exact .step rfl .refl
  | expectFound found => exact .step (by simp [step, enter, found]) .refl
  | expectMissing missing => exact .step (by simp [step, enter, missing, failAt]) .refl
  | ownFound found => exact .step (by simp [step, enter, found]) .refl
  | ownMissing missing => exact .step (by simp [step, enter, missing, failAt]) .refl
  | fail => exact .step rfl .refl
  | rule _ ih => exact .step rfl (ih stack before)
  | seqOk _ _ ihFirst ihSecond =>
      refine .step rfl ((ihFirst _ before).trans (.step rfl ((ihSecond _ _).trans (.step rfl ?_))))
      simp only [leave, List.reverse_append, List.append_assoc]
      exact .refl
  | seqFail _ ih => exact .step rfl ((ih _ before).trans (.step rfl .refl))
  | ifNextYes ahead _ ih =>
      exact .step (by simp only [step, enter, ahead, if_true]) (ih stack before)
  | ifNextNo ahead _ ih =>
      exact .step (by simp only [step, enter, ahead, Bool.false_eq_true, if_false])
        (ih stack before)
  | whileStop ahead => exact .step (by simp [step, enter, ahead]) .refl
  | whileMore ahead _ _ ihBody ihRest =>
      refine .step (by simp only [step, enter, ahead, if_true]; rfl)
        ((ihBody _ before).trans (.step rfl ((ihRest _ _).trans (.step rfl ?_))))
      simp only [leave, List.reverse_append, List.append_assoc]
      exact .refl
  | whileFail ahead _ ih =>
      exact .step (by simp only [step, enter, ahead, if_true]; rfl)
        ((ih _ before).trans (.step rfl .refl))
  | orElseFirst _ ih => exact .step rfl ((ih _ before).trans (.step rfl .refl))
  | orElseSecond _ _ ihFirst ihSecond =>
      refine .step rfl ((ihFirst _ before).trans (.step rfl ?_))
      simp only [List.reverse_append, List.append_assoc]
      exact ihSecond _ _
  | ifAheadYes _ _ ihTrial ihRest =>
      exact .step rfl ((ihTrial _ before).trans (.step rfl (ihRest stack before)))
  | ifAheadNo _ _ ihTrial ihRest =>
      exact .step rfl ((ihTrial _ before).trans (.step rfl (ihRest stack before)))
  | classFound found _ ih =>
      exact .step (by simp only [step, enter, found, if_true]; rfl)
        ((ih _ before).trans (.step rfl .refl))
  | classMissing missing => exact .step (by simp [step, enter, missing, failAt]) .refl
  | countEntry => exact .step rfl .refl

/-- The machine stops on every phrase whose loops all take tokens. -/
theorem halts (stream : TokenStream) (own : String) {phrase : Phrase}
    (progressive : phrase.progressive = true) (start : Nat) :
    Halts stream (.reading own phrase start [] []) := by
  obtain ⟨_, _, read⟩ := Reads.total stream progressive start own
  exact (leads read [] []).halts (Acc.intro _ fun _ next => nomatch next)

/-! ## Running -/

instance (stream : TokenStream) : WellFoundedRelation {config : Config // Halts stream config} :=
  Acc.wfRel

/-- Steps until no step is left. -/
def run (stream : TokenStream) (config : Config) (halts : Halts stream config) :
    Outcome × List Failure :=
  match moved : step stream config with
  | some later => run stream later (halts.inv moved)
  | none =>
      match config with
      | .ended outcome _ log => (outcome, log.reverse)
      | .reading own phrase start stack log => nomatch moved
termination_by (⟨config, halts⟩ : {config : Config // Halts stream config})
decreasing_by exact moved

theorem run_of_leads {stream : TokenStream} {first last : Config}
    (path : Leads stream first last) (halts : Halts stream first) (ended : Halts stream last) :
    run stream first halts = run stream last ended := by
  induction path with
  | refl => rfl
  | step moved _ ih =>
      rw [run.eq_def]
      split
      · rename_i later next
        have same := Option.some.inj (moved.symm.trans next)
        subst same
        exact ih _ ended
      · rename_i stuck
        simp [moved] at stuck

theorem run_ended {stream : TokenStream} {outcome : Outcome} {log : List Failure}
    (halts : Halts stream (.ended outcome [] log)) :
    run stream (.ended outcome [] log) halts = (outcome, log.reverse) := by
  rw [run.eq_def]
  rfl

end Machine

namespace Phrase

/-- Reads a phrase from a position. -/
def read (stream : TokenStream) (own : String) (phrase : Phrase)
    (progressive : phrase.progressive = true) (start : Nat) : Outcome × List Failure :=
  Machine.run stream (.reading own phrase start [] [])
    (Machine.halts stream own progressive start)

theorem read_eq_of_reads {stream : TokenStream} {own : String} {phrase : Phrase}
    {progressive : phrase.progressive = true} {start : Nat} {outcome : Outcome}
    {log : List Failure} (read : Reads stream own phrase start outcome log) :
    phrase.read stream own progressive start = (outcome, log) := by
  unfold Phrase.read
  have ended : Machine.Halts stream (.ended outcome [] (log.reverse ++ [])) :=
    Acc.intro _ fun _ next => nomatch next
  rw [Machine.run_of_leads (Machine.leads read [] []) _ ended, Machine.run_ended]
  simp

/-- What is computed is a reading. -/
theorem reads_read (stream : TokenStream) (own : String) {phrase : Phrase}
    (progressive : phrase.progressive = true) (start : Nat) :
    Reads stream own phrase start (phrase.read stream own progressive start).1
      (phrase.read stream own progressive start).2 := by
  obtain ⟨outcome, log, read⟩ := Reads.total stream progressive start own
  rw [read_eq_of_reads read]
  exact read

/-- What is computed is the one reading that there is. -/
theorem read_eq_iff {stream : TokenStream} {own : String} {phrase : Phrase}
    {progressive : phrase.progressive = true} {start : Nat} {outcome : Outcome}
    {log : List Failure} :
    phrase.read stream own progressive start = (outcome, log) ↔
      Reads stream own phrase start outcome log := by
  refine ⟨fun computed => ?_, read_eq_of_reads⟩
  have read := reads_read stream own progressive start
  rwa [computed] at read

end Phrase

namespace Rule

/-- Reads a rule from a position. -/
def read (stream : TokenStream) (own : String) (rule : Rule) (start : Nat) :
    Outcome × List Failure :=
  (Phrase.rule rule).read stream own rfl start

/-- What is computed for a rule is a reading. -/
theorem reads_read (stream : TokenStream) (own : String) (rule : Rule) (start : Nat) :
    Reads stream own (.rule rule) start (rule.read stream own start).1
      (rule.read stream own start).2 :=
  Phrase.reads_read stream own rfl start

end Rule

end ClassSyntax

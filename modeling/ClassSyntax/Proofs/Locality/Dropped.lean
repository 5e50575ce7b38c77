import ClassSyntax.Grammar.Classify

/-!
# Tokens in front are not looked at

A reading never looks back: on a stream without its first tokens it goes as it goes behind these tokens
on the whole stream.

* `TokenStream.get_drop`, `TokenStream.startsWith_drop`: a stream without its first tokens.
* `Reads.behind`, `Reads.drop`: readings with and without the tokens in front.
* `MemberKind.classify_drop`: kinds of members.
-/

namespace ClassSyntax

/-! ## Streams without their first tokens -/

namespace TokenStream

/-- The stream without its first tokens. -/
def drop (stream : TokenStream) (count : Nat) : TokenStream where
  body := (stream.body.toList.drop count).toArray
  endLine := stream.endLine
  unended := fun token member =>
    stream.unended token (Array.mem_toList_iff.mp (List.mem_of_mem_drop (List.mem_toArray.mp member)))

@[simp] theorem get_drop (stream : TokenStream) (count place : Nat) :
    (stream.drop count).get place = stream.get (count + place) := by
  simp [get, drop]

theorem startsWith_drop (stream : TokenStream) (count : Nat) (ahead : List Terminals)
    (place : Nat) :
    (stream.drop count).startsWith ahead place = stream.startsWith ahead (count + place) := by
  induction ahead generalizing place with
  | nil => rfl
  | cons choices more ih => rw [startsWith, startsWith, get_drop, ih, Nat.add_assoc]

end TokenStream

/-! ## Readings without the tokens in front -/

/-- So many tokens further on. -/
def Failure.behind (count : Nat) (failure : Failure) : Failure :=
  ⟨count + failure.position, failure.expected⟩

/-- So many tokens further on. -/
def Outcome.behind (count : Nat) : Outcome → Outcome
  | ok stop outline => ok (count + stop) outline
  | fail failure => fail (failure.behind count)

namespace Outcome

variable {count : Nat} {outcome : Outcome}

@[simp] theorem behind_after (before : Outline) :
    (outcome.after before).behind count = (outcome.behind count).after before := by
  cases outcome <;> rfl

@[simp] theorem behind_close (name : Token) :
    (outcome.close name).behind count = (outcome.behind count).close name := by
  cases outcome <;> rfl

theorem behind_eq_ok {stop : Nat} {outline : Outline} :
    outcome.behind count = .ok (count + stop) outline ↔ outcome = .ok stop outline := by
  cases outcome <;> simp [behind]

end Outcome

section

variable {stream : TokenStream} {count : Nat} {own : String} {phrase : Phrase} {start : Nat}

/-- A reading goes on in the same way behind tokens that are put in front. -/
theorem Reads.behind {outcome : Outcome} {log : List Failure}
    (read : Reads (stream.drop count) own phrase start outcome log) :
    Reads stream own phrase (count + start) (outcome.behind count)
      (log.map (Failure.behind count)) := by
  induction read with
  | done => exact .done
  | countEntry => exact .countEntry
  | fail => exact .fail
  | expectFound found =>
      rw [TokenStream.get_drop] at found
      exact .expectFound found
  | expectMissing missing =>
      rw [TokenStream.get_drop] at missing
      exact .expectMissing missing
  | ownFound found =>
      rw [TokenStream.get_drop] at found
      exact .ownFound found
  | ownMissing missing =>
      rw [TokenStream.get_drop] at missing
      exact .ownMissing missing
  | rule _ ih => exact .rule ih
  | seqOk _ _ ihFirst ihSecond =>
      rw [List.map_append, Outcome.behind_after]
      exact .seqOk ihFirst ihSecond
  | seqFail _ ih => exact .seqFail ih
  | ifNextYes next _ ih =>
      rw [TokenStream.startsWith_drop] at next
      exact .ifNextYes next ih
  | ifNextNo next _ ih =>
      rw [TokenStream.startsWith_drop] at next
      exact .ifNextNo next ih
  | whileStop next =>
      rw [TokenStream.startsWith_drop] at next
      exact .whileStop next
  | whileMore next _ _ ihBody ihRest =>
      rw [TokenStream.startsWith_drop] at next
      rw [List.map_append, Outcome.behind_after]
      exact .whileMore next ihBody ihRest
  | whileFail next _ ih =>
      rw [TokenStream.startsWith_drop] at next
      exact .whileFail next ih
  | orElseFirst _ ih => exact .orElseFirst ih
  | orElseSecond _ _ ihFirst ihSecond =>
      rw [List.map_append]
      exact .orElseSecond ihFirst ihSecond
  | ifAheadYes _ _ ihTrial ih => exact .ifAheadYes ihTrial ih
  | ifAheadNo _ _ ihTrial ih => exact .ifAheadNo ihTrial ih
  | classFound found _ ih =>
      rw [TokenStream.get_drop] at found
      rw [TokenStream.get_drop] at ih
      rw [TokenStream.get_drop, Outcome.behind_close]
      exact .classFound found ih
  | classMissing missing =>
      rw [TokenStream.get_drop] at missing
      exact .classMissing missing

/-- What is read behind some tokens is read in the same way without them. -/
theorem Reads.drop {outcome : Outcome} {log : List Failure}
    (read : Reads stream own phrase (count + start) outcome log)
    (progressive : phrase.progressive = true) :
    ∃ again missed, Reads (stream.drop count) own phrase start again missed ∧
      outcome = again.behind count ∧ log = missed.map (Failure.behind count) := by
  -- without the tokens there is some reading, and with them there is no other one
  obtain ⟨again, missed, reread⟩ := Reads.total (stream.drop count) progressive start own
  exact ⟨again, missed, reread, read.unique reread.behind⟩

theorem Phrase.fits_drop (progressive : phrase.progressive = true) :
    phrase.fits (stream.drop count) own progressive start =
      phrase.fits stream own progressive (count + start) := by
  have read := (phrase.reads_read (stream.drop count) own progressive start).behind
  have whole := phrase.reads_read stream own progressive (count + start)
  unfold Phrase.fits
  rw [(whole.unique read).1]
  cases (phrase.read (stream.drop count) own progressive start).1 <;> rfl

theorem MemberKind.classify_drop :
    classify (stream.drop count) own start = classify stream own (count + start) := by
  have trial : ∀ {trial : Phrase} (progressive : trial.progressive = true),
      (trial.fits (stream.drop count) own progressive start = true) =
        (trial.fits stream own progressive (count + start) = true) :=
    fun progressive => congrArg (· = true) (Phrase.fits_drop progressive)
  unfold classify
  rw [TokenStream.startsWith_drop]
  refine ite_congr rfl (fun _ => rfl) fun _ => ?_
  refine ite_congr (trial rfl) (fun _ => rfl) fun _ => ?_
  refine ite_congr (trial rfl) (fun _ => rfl) fun _ => ?_
  exact ite_congr (trial rfl) (fun _ => rfl) fun _ => rfl

end

end ClassSyntax

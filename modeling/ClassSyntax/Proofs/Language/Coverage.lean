import ClassSyntax.Proofs.Language.Completeness
import ClassSyntax.Proofs.Language.Samples

/-!
# What a reading covers

A reading that ends well is to have read a word of its phrase, and wherever a reading misses something,
what it has read so far is to be the start of such a word. `Covers` says both; here it is carried from
the parts of a phrase to the phrase.

* `Covers.seq`: one phrase behind another.
* `Covers.guarded`: a phrase that the next token leads to.
* `Covers.unlikeEntry`: a member that does not start as an entry method does.
-/

namespace ClassSyntax

/-- Something that may stand where a rule always fails. -/
def remedy : String → Form
  | ";" => .mark ";"
  | "( or = or ;" => .seq (.symbol .params) (.mark ";")
  | "type" => .token First.primitiveType
  | "statement" => .seq (.symbol .expr) (.mark ";")
  | "assignment or call" => .token First.stepOperator
  | "catch or finally" => Form.finallyClause
  | "expression" => .token First.literal
  | "[" | "( or [" => Form.newArray
  | _ => .never

namespace Phrase

/-- The words that a phrase may read, or may go on to read where it fails. -/
def covering (phrase : Phrase) : Form := phrase.form Rule.form remedy

/-- Every part of the phrase has a word, and more than one token is only looked at in front of an
entry method. -/
def fruitful : Phrase → Bool
  | seq first second | orElse first second => first.fruitful && second.fruitful
  | ifNext ahead yes no =>
      (ifNext ahead yes no).covering.fruitful 10 && yes.fruitful && no.fruitful &&
        (ahead.length == 1 ||
          decide (ahead = MemberKind.entryHeader ∧ yes = seq (rule .entryMethod) countEntry))
  | whileNext _ body | inClass body => body.fruitful
  | ifAhead _ yes no => yes.fruitful && no.fruitful
  | phrase => phrase.covering.fruitful 10

theorem covering_fruitful {phrase : Phrase} (fruitful : phrase.fruitful = true) :
    phrase.covering.fruitful 10 = true := by
  induction phrase with
  | seq first second ihFirst ihSecond =>
      simp only [Phrase.fruitful, Bool.and_eq_true] at fruitful
      show (Form.seq first.covering second.covering).fruitful 10 = true
      rw [Form.fruitful, ihFirst fruitful.1, ihSecond fruitful.2]
      rfl
  | orElse first second ihFirst _ =>
      simp only [Phrase.fruitful, Bool.and_eq_true] at fruitful
      show (Form.alt first.covering second.covering).fruitful 10 = true
      rw [Form.fruitful, ihFirst fruitful.1]
      rfl
  | ifAhead trial yes no _ ihYes _ =>
      simp only [Phrase.fruitful, Bool.and_eq_true] at fruitful
      show (Form.alt yes.covering no.covering).fruitful 10 = true
      rw [Form.fruitful, ihYes fruitful.1]
      rfl
  | ifNext ahead yes no _ _ =>
      simp only [Phrase.fruitful, Bool.and_eq_true] at fruitful
      exact fruitful.1.1.1
  | whileNext ahead body _ => rfl
  | inClass body ih => exact ih fruitful
  | _ => exact fruitful

end Phrase

theorem Rule.body_fruitful (rule : Rule) : rule.body.fruitful = true := by
  cases rule with
  | declarators role | declarator role => rfl
  | binaryExpr level => cases level <;> decide
  | _ => decide

/-- What was read up to a place is the start of a word. -/
def Viable (stream : TokenStream) (own : String) (form : Form) (start place : Nat) : Prop :=
  ∃ word rest outline, Spells stream start word place ∧
    Derives Nonterminal.production own form (word ++ rest) outline

/-- Where a reading ends well, a word was read, and where something was missing, the start of one. -/
structure Covers (stream : TokenStream) (own : String) (form : Form) (start : Nat)
    (outcome : Outcome) (log : List Failure) : Prop where
  read : ∀ {stop outline}, outcome = .ok stop outline →
    ∃ word, Spells stream start word stop ∧ Derives Nonterminal.production own form word outline
  missed : ∀ failure ∈ log, Viable stream own form start failure.position

section

variable {stream : TokenStream} {own : String} {start : Nat} {outcome : Outcome}
  {log : List Failure}

theorem viable_start {form : Form} (fruitful : form.fruitful 10 = true) :
    Viable stream own form start start := by
  obtain ⟨word, outline, derived⟩ := exists_derives fruitful own
  exact ⟨[], word, outline, rfl, derived⟩

namespace Covers

variable {form other : Form}

theorem mono (covers : Covers stream own form start outcome log)
    (inside : ∀ {word outline}, Derives Nonterminal.production own form word outline →
      Derives Nonterminal.production own other word outline) :
    Covers stream own other start outcome log where
  read := fun same => by
    obtain ⟨word, spells, derived⟩ := covers.read same
    exact ⟨word, spells, inside derived⟩
  missed := fun failure member => by
    obtain ⟨word, rest, outline, spells, derived⟩ := covers.missed failure member
    exact ⟨word, rest, outline, spells, inside derived⟩

theorem ofWord {word : List Token} {stop : Nat} {outline : Outline}
    (spells : Spells stream start word stop)
    (derived : Derives Nonterminal.production own form word outline) :
    Covers stream own form start (.ok stop outline) [] where
  read := fun same => by
    obtain ⟨rfl, rfl⟩ := Outcome.ok.inj same
    exact ⟨word, spells, derived⟩
  missed := by simp

theorem ofFailure {failure : Failure}
    (missed : ∀ failure ∈ log, Viable stream own form start failure.position) :
    Covers stream own form start (.fail failure) log where
  read := nofun
  missed := missed

theorem ofMissing (fruitful : form.fruitful 10 = true) (label : String) :
    Covers stream own form start (.fail ⟨start, label⟩) [⟨start, label⟩] :=
  ofFailure fun _ member => List.mem_singleton.mp member ▸ viable_start fruitful

theorem append {more : List Failure} (covers : Covers stream own form start outcome more)
    (missed : ∀ failure ∈ log, Viable stream own form start failure.position) :
    Covers stream own form start outcome (log ++ more) where
  read := covers.read
  missed := fun failure member =>
    (List.mem_append.mp member).elim (missed failure) (covers.missed failure)

/-- The first of two phrases is only begun. -/
theorem viable_seq {second : Form} {place : Nat} (fruitful : second.fruitful 10 = true)
    (viable : Viable stream own form start place) :
    Viable stream own (.seq form second) start place := by
  obtain ⟨word, rest, outline, spells, derived⟩ := viable
  obtain ⟨more, further, behind⟩ := exists_derives fruitful own
  refine ⟨word, rest ++ more, outline ++ further, spells, ?_⟩
  rw [← List.append_assoc]
  exact .seq derived behind

/-- The second of two phrases follows the first. -/
theorem seq {second : Form} {middle : Nat} {outline : Outline} {more : List Failure}
    (fruitful : second.fruitful 10 = true)
    (one : Covers stream own form start (.ok middle outline) log)
    (two : Covers stream own second middle outcome more) :
    Covers stream own (.seq form second) start (outcome.after outline) (log ++ more) := by
  obtain ⟨front, spellsFront, derivedFront⟩ := one.read rfl
  refine append ⟨fun same => ?_, fun failure member => ?_⟩
    fun failure member => viable_seq fruitful (one.missed failure member)
  · obtain ⟨rest, rfl, rfl⟩ := Outcome.after_eq_ok.mp same
    obtain ⟨back, spellsBack, derivedBack⟩ := two.read rfl
    exact ⟨front ++ back, spellsFront.append spellsBack, .seq derivedFront derivedBack⟩
  · obtain ⟨word, rest, further, spells, derived⟩ := two.missed failure member
    refine ⟨front ++ word, rest, outline ++ further, spellsFront.append spells, ?_⟩
    rw [List.append_assoc]
    exact .seq derivedFront derived

/-- A reading that the next token leads to, as a word that starts with it. -/
theorem guarded {choices : Terminals} {no : Form}
    (fruitful : (Form.alt (.guarded choices form) no).fruitful 10 = true)
    (next : stream.startsWith [choices] start = true)
    (covers : Covers stream own form start outcome log) :
    Covers stream own (.alt (.guarded choices form) no) start outcome log := by
  rw [startsWith_singleton] at next
  refine ⟨fun same => ?_, fun failure member => ?_⟩
  · obtain ⟨word, spells, derived⟩ := covers.read same
    exact ⟨word, spells, .left (.guarded derived (spells.opensWith next))⟩
  · obtain ⟨word, rest, outline, spells, derived⟩ := covers.missed failure member
    cases word with
    | nil =>
        obtain rfl := spells_nil.mp spells
        exact (spells_nil.mp spells).symm ▸ viable_start fruitful
    | cons head word =>
        refine ⟨head :: word, rest, outline, spells, .left (.guarded derived ?_)⟩
        rwa [spells.1] at next

theorem inClass (found : Terminal.identifier.admits (stream.get start) = true)
    (covers : Covers stream (stream.get start).lexeme form (start + 1) outcome log) :
    Covers stream own (.inClass form) start (outcome.close (stream.get start)) log := by
  refine ⟨fun same => ?_, fun failure member => ?_⟩
  · obtain ⟨body, rfl, rfl⟩ := Outcome.close_eq_ok.mp same
    obtain ⟨word, spells, derived⟩ := covers.read rfl
    exact ⟨stream.get start :: word, ⟨rfl, spells⟩, .inClass found derived⟩
  · obtain ⟨word, rest, outline, spells, derived⟩ := covers.missed failure member
    exact ⟨stream.get start :: word, rest, outline.close (stream.get start), ⟨rfl, spells⟩,
      .inClass found derived⟩

end Covers

/-! ## Entry methods that are only begun -/

theorem startsLike_take (header : List Terminals) (word : List Token) :
    startsLike header (word.take header.length) = startsLike header word := by
  induction header generalizing word with
  | nil => rfl
  | cons choices more ih =>
      cases word with
      | nil => rfl
      | cons token word => simp only [List.length_cons, List.take_succ_cons, startsLike, ih]

theorem length_le_of_startsLike {header : List Terminals} {word : List Token}
    (like : startsLike header word = true) : header.length ≤ word.length := by
  induction header generalizing word with
  | nil => exact Nat.zero_le _
  | cons choices more ih =>
      cases word with
      | nil => exact Bool.noConfusion like
      | cons token word =>
          simp only [startsLike, Bool.and_eq_true] at like
          exact Nat.succ_le_succ (ih like.2)

/-- What stands behind `main` in an entry method. -/
def Form.entryRest : Form :=
  .all [Form.mark "(", Form.named "String",
    .alt (.all [Form.mark "[", Form.mark "]", Form.identifier])
      (.all [Form.identifier, Form.mark "[", Form.mark "]"]),
    Form.mark ")", .symbol .block]

/-- What starts as an entry method must start can be completed to one. -/
theorem exists_entryMethod (own : String) {header : List Token}
    (like : startsLike MemberKind.entryHeader header = true)
    (short : header.length = MemberKind.entryHeader.length) :
    ∃ rest, IsWord own (.symbol .entryMethod) (header ++ rest) := by
  match header, short with
  | [first, second, third, fourth], _ =>
      simp only [MemberKind.entryHeader, startsLike, Bool.and_eq_true] at like
      have fruitful : Form.entryRest.fruitful 10 = true := by decide
      obtain ⟨rest, outline, derived⟩ := exists_derives fruitful own
      obtain ⟨-, isRest⟩ := derived.isWord rfl
      have isHeader : IsWord own
          (.seq (Form.keyword "public") (.seq (Form.keyword "static") (.seq (Form.keyword "void")
            (.seq (Form.named "main") Form.entryRest))))
          ([first] ++ ([second] ++ ([third] ++ ([fourth] ++ rest)))) :=
        IsWord.seq (.token like.1) (IsWord.seq (.token like.2.1)
          (IsWord.seq (.token like.2.2.1) (IsWord.seq (.token like.2.2.2.1) isRest)))
      exact ⟨rest, isWord_symbol.mpr isHeader⟩

/-- A member that may still become an entry method, and one that may not. -/
theorem Covers.unlikeEntry {no : Form}
    (other : stream.startsWith MemberKind.entryHeader start = false)
    (covers : Covers stream own no start outcome log) :
    Covers stream own
      (.alt (.seq (.symbol .entryMethod) .countEntry) (.unlike MemberKind.entryHeader no))
      start outcome log := by
  have unlike : ∀ {word : List Token} {stop : Nat}, Spells stream start word stop →
      startsLike MemberKind.entryHeader word = false := by
    intro word stop spells
    rw [← Bool.not_eq_true]
    intro like
    rw [spells.startsWith like] at other
    exact Bool.noConfusion other
  refine ⟨fun same => ?_, fun failure member => ?_⟩
  · obtain ⟨word, spells, derived⟩ := covers.read same
    exact ⟨word, spells, .right (.unlike derived (unlike spells))⟩
  · obtain ⟨word, rest, outline, spells, derived⟩ := covers.missed failure member
    cases like : startsLike MemberKind.entryHeader (word ++ rest) with
    | false => exact ⟨word, rest, outline, spells, .right (.unlike derived like)⟩
    | true =>
        -- the word is shorter than the header, which is completed instead
        have long := length_le_of_startsLike like
        rw [← startsLike_take] at like
        rcases Nat.lt_or_ge word.length MemberKind.entryHeader.length with shorter | longer
        · rw [List.take_append, List.take_of_length_le (Nat.le_of_lt shorter)] at like
          rw [List.length_append] at long
          obtain ⟨more, isEntry⟩ := exists_entryMethod own like (by
            rw [List.length_append, List.length_take]
            omega)
          rw [List.append_assoc] at isEntry
          have counted := Derives.seq isEntry .countEntry
          rw [List.append_nil] at counted
          exact ⟨word, _, _, spells, .left counted⟩
        · rw [List.take_append_of_le_length longer, startsLike_take, unlike spells] at like
          exact Bool.noConfusion like

end

end ClassSyntax

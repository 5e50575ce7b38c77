import ClassSyntax.Proofs.Progress.NestedReadings
import ClassSyntax.Proofs.Statements.LongestStatement
import ClassSyntax.Proofs.Statements.Running

/-!
# Which conditional takes an `else`

An `else` goes to the nearest conditional that is still without one. Nothing is built while reading, so this
shows only in where readings end: behind a statement that ends with a conditional without `else` no `else`
is left over, and an `else` that was read stands behind a body that does not end with such a conditional.

* `EndsInIf`: statements that end with a conditional without `else`.
* `Accepts.no_else`: no `else` is left behind such a statement.
* `elsesTaken_step`, `elsesTakenBelow`: every `else` that is read is taken by a conditional, and by the
  nearest one.
* `stmt_is_longest`: a statement is read to the end of the longest one.
-/

namespace ClassSyntax

/-! ## Conditionals without `else` -/

/-- The statement ends with a conditional without `else`, perhaps inside other conditionals and loops. -/
inductive EndsInIf (own : String) : List Token → Prop
  | here {header body : List Token} :
      IsFreeWord own (.all (Form.condition "if")) header → IsFreeWord own (.symbol .stmt) body →
      EndsInIf own (header ++ body)
  | inElse {header body mark other : List Token} :
      IsFreeWord own (.all (Form.condition "if")) header → IsFreeWord own (.symbol .stmt) body →
      IsFreeWord own (Form.keyword "else") mark → EndsInIf own other →
      EndsInIf own (header ++ (body ++ (mark ++ other)))
  | inWhile {header body : List Token} :
      IsFreeWord own (.all (Form.condition "while")) header → EndsInIf own body →
      EndsInIf own (header ++ body)
  | inFor {header body : List Token} :
      IsFreeWord own (.all Form.forHeader) header → EndsInIf own body → EndsInIf own (header ++ body)

section

variable {own : String}

/-- A conditional is a statement. -/
theorem IsFreeWord.conditional {header body branch : List Token}
    (isHeader : IsFreeWord own (.all (Form.condition "if")) header)
    (isBody : IsFreeWord own (.symbol .stmt) body)
    (isBranch : IsFreeWord own Form.elseBranch branch) :
    IsFreeWord own (.symbol .stmt) (header ++ (body ++ branch)) := by
  have whole : IsFreeWord own (.symbol .ifStmt) (header ++ (body ++ branch)) :=
    .symbol (isHeader.all_concat (isBody.seq isBranch.left) (List.cons_ne_nil _ _))
  exact .symbol (.right (.left whole))

/-- An `else` and a statement behind the statement make one statement with it. -/
theorem EndsInIf.absorbs {word branch : List Token} (ends : EndsInIf own word)
    (isBranch : IsFreeWord own Form.elseBranch branch) :
    IsFreeWord own (.symbol .stmt) (word ++ branch) := by
  induction ends with
  | here isHeader isBody =>
      rw [List.append_assoc]
      exact isHeader.conditional isBody isBranch
  | inElse isHeader isBody isMark _ ih =>
      simp only [List.append_assoc]
      exact isHeader.conditional isBody (isMark.seq ih)
  | inWhile isHeader _ ih =>
      rw [List.append_assoc]
      have whole : IsFreeWord own (.symbol .whileStmt) _ :=
        .symbol (isHeader.all_concat ih (List.cons_ne_nil _ _))
      exact .symbol (.right (.right (.left whole)))
  | inFor isHeader _ ih =>
      rw [List.append_assoc]
      have whole : IsFreeWord own (.symbol .forStmt) _ :=
        .symbol (isHeader.all_concat ih (List.cons_ne_nil _ _))
      exact .symbol (.right (.right (.right (.left whole))))

end

section

variable {stream : TokenStream} {own : String} {start stop : Nat} {outline : Outline}

/-- No `else` is left behind a statement that ends with a conditional without `else`. -/
theorem Accepts.no_else (accepted : Accepts stream own (.rule .stmt) start stop outline)
    {word : List Token} (spells : Spells stream start word stop) (ends : EndsInIf own word) :
    (Terminal.keyword "else").admits (stream.get stop) = false := by
  rw [← Bool.not_eq_true]
  intro isElse
  have semicolon : IsFreeWord own (.symbol .stmt) [⟨.punctuation, ";", 1⟩] :=
    IsWord.free ((isWord_token.mpr ⟨_, rfl, rfl⟩ : IsWord own (Form.mark ";") _).mono 16 (by decide))
  have mark : IsFreeWord own (Form.keyword "else") [stream.get stop] :=
    IsWord.free (isWord_token.mpr ⟨_, by rwa [Terminals.allow_singleton], rfl⟩)
  have longer := ends.absorbs (mark.seq semicolon)
  refine accepted.not_longer_free spells (fun point => ?_) longer
  rw [Terminal.keyword, Terminal.admits_spelled] at isElse
  simp [Token.is, isElse] at point

/-! ## Who takes an `else` -/

/-- The conditional read from `first` up to `last` takes the `else` at `place`: its condition is read up to
`middle` and its body up to `place`, and the body does not end with a conditional without `else`. -/
structure TakesElse (stream : TokenStream) (own : String) (first middle place last : Nat) : Prop where
  whole : ∃ outline, Accepts stream own (.rule .ifStmt) first last outline
  header : ∃ outline, Accepts stream own (.all (Phrase.condition "if")) first middle outline
  body : ∃ outline, Accepts stream own (.rule .stmt) middle place outline
  nearest : ∀ word, Spells stream middle word place → ¬ EndsInIf own word
  branch : ∃ outline, Accepts stream own (.rule .stmt) (place + 1) last outline

/-- The `else` at `place` is taken by a conditional that reading the phrase comes to, and that ends by `stop`. -/
def TakenIn (stream : TokenStream) (own : String) (phrase : Phrase) (start stop place : Nat) : Prop :=
  ∃ first middle last, Reaches stream own phrase start own (.rule .ifStmt) first ∧ last ≤ stop ∧
    TakesElse stream own first middle place last

/-- Every `else` from `start` up to `stop` is taken. -/
def ElsesTaken (stream : TokenStream) (own : String) (phrase : Phrase) (start stop : Nat) : Prop :=
  ∀ place, start ≤ place → place < stop → (Terminal.keyword "else").admits (stream.get place) = true →
    TakenIn stream own phrase start stop place

/-- A conditional that is come to inside a phrase is come to. -/
theorem TakenIn.lift {inner outer : Phrase} {begin ending place : Nat}
    (taken : TakenIn stream own inner begin ending place)
    (reach : ∀ {first}, Reaches stream own inner begin own (.rule .ifStmt) first →
      Reaches stream own outer start own (.rule .ifStmt) first)
    (inside : ending ≤ stop) : TakenIn stream own outer start stop place := by
  obtain ⟨first, middle, last, reached, before, takes⟩ := taken
  exact ⟨first, middle, last, reach reached, Nat.le_trans before inside, takes⟩

namespace ElsesTaken

variable {phrase : Phrase}

theorem nothing : ElsesTaken stream own phrase start start :=
  fun _ behind before => absurd before (Nat.not_lt_of_le behind)

theorem single (other : (Terminal.keyword "else").admits (stream.get start) = false) :
    ElsesTaken stream own phrase start (start + 1) := by
  intro place behind before isElse
  obtain rfl : place = start := by omega
  exact Bool.noConfusion (other.symm.trans isElse)

theorem lift {outer : Phrase} (taken : ElsesTaken stream own phrase start stop)
    (reach : ∀ {first}, Reaches stream own phrase start own (.rule .ifStmt) first →
      Reaches stream own outer start own (.rule .ifStmt) first) :
    ElsesTaken stream own outer start stop :=
  fun place behind before isElse => (taken place behind before isElse).lift reach (Nat.le_refl _)

/-- Two phrases that are read one after the other. -/
theorem append {first second whole : Phrase} {middle : Nat} (before : ElsesTaken stream own first start middle)
    (after : ElsesTaken stream own second middle stop) (ends : middle ≤ stop)
    (reachFirst : ∀ {place}, Reaches stream own first start own (.rule .ifStmt) place →
      Reaches stream own whole start own (.rule .ifStmt) place)
    (reachSecond : ∀ {place}, Reaches stream own second middle own (.rule .ifStmt) place →
      Reaches stream own whole start own (.rule .ifStmt) place) :
    ElsesTaken stream own whole start stop := by
  intro place behind inside isElse
  rcases Nat.lt_or_ge place middle with isBefore | isAfter
  · exact (before place behind isBefore isElse).lift reachFirst ends
  · exact (after place isAfter inside isElse).lift reachSecond (Nat.le_refl _)

end ElsesTaken

namespace Phrase

/-- Takes an `else` only in conditionals, and comes to no class. In front of a jump any token is taken, but
only a jump leads there. -/
def elseless : Phrase → Bool
  | expect choices _ => choices.apart [.keyword "else"]
  | rule called => decide (called ∉ [Rule.program, .classDecl, .jumpStmt])
  | ifNext ahead yes no =>
      (yes.elseless || decide (yes = rule .jumpStmt ∧ ahead = [[.keyword "break", .keyword "continue"]])) &&
        no.elseless
  | ifAhead _ first second | orElse first second | seq first second => first.elseless && second.elseless
  | whileNext _ body => body.elseless
  | inClass _ => false
  | done | expectOwnName | fail _ | countEntry => true

end Phrase

theorem Rule.body_elseless {rule : Rule} (listed : rule ∉ [Rule.program, .classDecl, .jumpStmt, .ifStmt]) :
    rule.body.elseless = true := by
  cases rule with
  | declarators role | declarator role => rfl
  | binaryExpr level => cases level <;> decide
  | program | classDecl | jumpStmt | ifStmt => exact absurd (by decide) listed
  | _ => decide

theorem not_else_of_allow {choices : Terminals} {place : Nat}
    (apart : choices.apart [.keyword "else"] = true)
    (allowed : choices.allow (stream.get place) = true) :
    (Terminal.keyword "else").admits (stream.get place) = false := by
  simpa using Terminals.not_allow_of_apart apart allowed

/-- Where nothing is read no rule is reached. -/
theorem not_reaches_of_done {called : Rule} {place : Nat} :
    ¬ Reaches stream own .done start own (.rule called) place := by
  intro reached
  cases reached

/-- A jump holds no `else`. -/
theorem elsesTaken_jump {phrase : Phrase}
    (next : stream.startsWith [[.keyword "break", .keyword "continue"]] start = true)
    (accepted : Accepts stream own (.rule .jumpStmt) start stop outline) :
    ElsesTaken stream own phrase start stop := by
  rw [startsWith_singleton] at next
  obtain ⟨middle, _, _, first, last, -⟩ := accepts_seq.mp (accepts_rule.mp accepted)
  obtain ⟨isMark, rfl, -⟩ := accepts_expect.mp last
  have jump : Terminals.allow [.anything] (stream.get start) = true := by
    simp [Terminals.allow, Terminal.admits, Terminals.isEnd_of_allow next]
  rw [Phrase.optional, accepts_ifNext, startsWith_singleton, if_pos jump] at first
  obtain ⟨-, rfl, -⟩ := accepts_expect.mp first
  have front : ElsesTaken stream own phrase start (start + 1) :=
    .single (not_else_of_allow (by decide) next)
  have back : ElsesTaken stream own .done (start + 1) (start + 1 + 1) :=
    .single (not_else_of_allow (by decide) isMark)
  exact front.append back (Nat.le_succ _) id fun reached => absurd reached not_reaches_of_done

/-! ## The parts of a conditional -/

section

variable {phrases : List Phrase} {last : Phrase} {middle : Nat}

/-- What the first phrases come to is come to. -/
theorem Reaches.all_front {called : Rule} {place : Nat} (some : phrases ≠ [])
    (reached : Reaches stream own (.all phrases) start own (.rule called) place) :
    Reaches stream own (.all (phrases ++ [last])) start own (.rule called) place := by
  induction phrases generalizing start with
  | nil => exact absurd rfl some
  | cons phrase phrases ih =>
      cases phrases with
      | nil => exact .seqFirst reached
      | cons next phrases =>
          cases reached with
          | seqFirst first => exact .seqFirst first
          | seqSecond read second => exact .seqSecond read (ih (List.cons_ne_nil _ _) second)

/-- What the last phrase comes to is come to when the others are read. -/
theorem Reaches.all_last {called : Rule} {place : Nat} (some : phrases ≠ [])
    (front : Accepts stream own (.all phrases) start middle outline)
    (reached : Reaches stream own last middle own (.rule called) place) :
    Reaches stream own (.all (phrases ++ [last])) start own (.rule called) place := by
  induction phrases generalizing start outline with
  | nil => exact absurd rfl some
  | cons phrase phrases ih =>
      cases phrases with
      | nil =>
          obtain ⟨_, read⟩ := front
          exact .seqSecond read reached
      | cons next phrases =>
          obtain ⟨_, _, _, ⟨_, one⟩, more, -⟩ := accepts_seq.mp front
          exact .seqSecond one (ih (List.cons_ne_nil _ _) more)

end

/-- In readings of fewer tokens every `else` is taken. -/
def ElsesTakenBelow (stream : TokenStream) (own : String) (length : Nat) : Prop :=
  ∀ (phrase : Phrase) (start stop : Nat) (outline : Outline), stop - start < length →
    Accepts stream own phrase start stop outline → phrase.elseless = true →
      ElsesTaken stream own phrase start stop

/-- A conditional takes the `else` that its condition and its branches leave. -/
theorem elsesTaken_conditional {length : Nat} (shorter : ElsesTakenBelow stream own length)
    (bounded : stop - start ≤ length) (accepted : Accepts stream own (.rule .ifStmt) start stop outline) :
    ElsesTaken stream own (.rule .ifStmt) start stop := by
  have some : Phrase.condition "if" ≠ [] := List.cons_ne_nil _ _
  obtain ⟨middle, _, _, header, rest⟩ : ∃ middle before after,
      Accepts stream own (.all (Phrase.condition "if")) start middle before ∧
        Accepts stream own (.seq (.rule .stmt) (.ifToken (.keyword "else") (.rule .stmt) .done)) middle
          stop after := accepts_of_all_concat some (accepts_rule.mp accepted)
  obtain ⟨place, _, _, body, behind, -⟩ := accepts_seq.mp rest
  have := header.start_lt_stop (by decide)
  have := body.start_lt_stop (by decide)
  have := behind.start_le_stop
  have inHeader := shorter _ _ _ _ (by omega) header (by decide)
  have inBody := shorter _ _ _ _ (by omega) body (by decide)
  have front : ElsesTaken stream own (.rule .ifStmt) start place :=
    inHeader.append inBody (by omega) (fun reached => .rule (reached.all_front some))
      (fun reached => .rule (.all_last some header (.seqFirst reached)))
  have behind := accepts_ifNext.mp behind
  cases next : stream.startsWith [[.keyword "else"]] place with
  | false =>
      rw [next, if_neg (by decide)] at behind
      obtain ⟨rfl, -⟩ := accepts_done.mp behind
      exact front
  | true =>
      rw [next, if_pos rfl] at behind
      obtain ⟨_, _, _, ⟨_, mark⟩, branch, -⟩ := accepts_seq.mp behind
      obtain ⟨isElse, rfl, -⟩ := accepts_expect.mp ⟨_, mark⟩
      have inBranch := shorter _ _ _ _ (by omega) branch (by decide)
      have takes : TakesElse stream own start middle place stop :=
        ⟨⟨_, accepted⟩, ⟨_, header⟩, ⟨_, body⟩, fun word spells ends => by
          rw [Terminals.allow_singleton, body.no_else spells ends] at isElse
          exact Bool.noConfusion isElse, ⟨_, branch⟩⟩
      obtain ⟨_, bodyRead⟩ := body
      intro here behind before other
      rcases Nat.lt_trichotomy here place with isBefore | rfl | isAfter
      · exact (front here behind isBefore other).lift id (by omega)
      · exact ⟨start, middle, stop, .here, Nat.le_refl _, takes⟩
      · exact (inBranch here isAfter before other).lift (fun reached => .rule (.all_last some header
          (.seqSecond bodyRead (.ifNextYes next (.seqSecond mark reached))))) (Nat.le_refl _)

/-- Every `else` that is read is taken by a conditional that is come to. -/
theorem elsesTaken_step {length : Nat} (shorter : ElsesTakenBelow stream own length)
    {phrase : Phrase} {outcome : Outcome} {log : List Failure}
    (read : Reads stream own phrase start outcome log) (well : outcome = .ok stop outline)
    (elseless : phrase.elseless = true) (bounded : stop - start ≤ length) :
    ElsesTaken stream own phrase start stop := by
  induction read generalizing stop outline with
  | done | countEntry | whileStop =>
      obtain ⟨rfl, -⟩ := Outcome.ok.inj well
      exact .nothing
  | expectFound found =>
      obtain ⟨rfl, -⟩ := Outcome.ok.inj well
      exact .single (not_else_of_allow elseless found)
  | ownFound found =>
      obtain ⟨rfl, -⟩ := Outcome.ok.inj well
      exact .single (Terminal.not_admits_of_apart (by decide) (identifier_of_named found))
  | expectMissing | ownMissing | fail | seqFail | whileFail | classMissing => exact nomatch well
  | @rule _ called _ _ _ body ih =>
      by_cases conditional : called = .ifStmt
      · subst conditional well
        exact elsesTaken_conditional shorter bounded ⟨_, .rule body⟩
      · have listed : called ∉ [Rule.program, .classDecl, .jumpStmt, .ifStmt] := by
          have := of_decide_eq_true elseless
          simp_all
        exact (ih shorter well (Rule.body_elseless listed) bounded).lift .rule
  | seqOk first second ihFirst ihSecond =>
      obtain ⟨rest, rfl, rfl⟩ := Outcome.after_eq_ok.mp well
      obtain ⟨one, two⟩ := Bool.and_eq_true_iff.mp elseless
      have before := first.start_le_stop
      have after := second.start_le_stop
      rw [Outcome.stop_ok] at before after
      exact (ihFirst shorter rfl one (by omega)).append (ihSecond shorter rfl two (by omega)) after
        .seqFirst (.seqSecond first)
  | ifNextYes next read ih =>
      obtain ⟨yes, -⟩ := Bool.and_eq_true_iff.mp elseless
      rcases Bool.or_eq_true_iff.mp yes with yes | jump
      · exact (ih shorter well yes bounded).lift (.ifNextYes next)
      · obtain ⟨rfl, rfl⟩ := of_decide_eq_true jump
        subst well
        exact elsesTaken_jump next ⟨_, read⟩
  | ifNextNo next _ ih =>
      obtain ⟨-, no⟩ := Bool.and_eq_true_iff.mp elseless
      exact (ih shorter well no bounded).lift (.ifNextNo next)
  | whileMore next round rest ihRound ihRest =>
      obtain ⟨last, rfl, rfl⟩ := Outcome.after_eq_ok.mp well
      have before := round.start_le_stop
      have after := rest.start_le_stop
      rw [Outcome.stop_ok] at before after
      exact (ihRound shorter rfl elseless (by omega)).append (ihRest shorter rfl elseless (by omega))
        after (.whileRound next) (.whileAgain next round)
  | orElseFirst _ ih =>
      obtain ⟨one, -⟩ := Bool.and_eq_true_iff.mp elseless
      exact (ih shorter well one bounded).lift .orElseFirst
  | orElseSecond failed _ _ ih =>
      obtain ⟨-, two⟩ := Bool.and_eq_true_iff.mp elseless
      exact (ih shorter well two bounded).lift (.orElseSecond failed)
  | ifAheadYes tried _ _ ih =>
      obtain ⟨yes, -⟩ := Bool.and_eq_true_iff.mp elseless
      exact (ih shorter well yes bounded).lift (.ifAheadYes tried)
  | ifAheadNo tried _ _ ih =>
      obtain ⟨-, no⟩ := Bool.and_eq_true_iff.mp elseless
      exact (ih shorter well no bounded).lift (.ifAheadNo tried)
  | classFound => exact Bool.noConfusion elseless

theorem elsesTakenBelow (stream : TokenStream) (own : String) (length : Nat) :
    ElsesTakenBelow stream own length := by
  induction length with
  | zero => exact fun _ _ _ _ fewer => absurd fewer (Nat.not_lt_zero _)
  | succ length ih =>
      rintro phrase start stop outline fewer ⟨_, read⟩ elseless
      exact elsesTaken_step ih read rfl elseless (Nat.le_of_lt_succ fewer)

end

/-! ## Statements on a parser -/

/-- A statement is read to the end of the longest one: what is read is a statement of the grammar, and no
longer word at the same place is one, even where primitive types may be called. Behind a statement that ends
with a conditional without `else` stands no `else`, and every `else` that was read has been taken by the
nearest conditional that was without one. -/
theorem stmt_is_longest (own : String) (parser : Parser)
    (well : (Parser.rule own .stmt parser).1.isOk = true) :
    let stream := parser.stream
    let start := parser.position
    let stop := (Parser.rule own .stmt parser).2.position
    (∃ word, Spells stream start word stop ∧ IsFreeWord own (.symbol .stmt) word) ∧
      (∀ word place, Spells stream start word place → IsFreeWord own (.symbol .stmt) word →
        place ≤ stop) ∧
      (∀ word, Spells stream start word stop → EndsInIf own word →
        (Terminal.keyword "else").admits (stream.get stop) = false) ∧
      ElsesTaken stream own (.rule .stmt) start stop := by
  intro stream start stop
  obtain ⟨outline, accepted⟩ : ∃ outline, Accepts stream own (.rule .stmt) start stop outline :=
    Parser.accepts_of_isOk rfl well
  obtain ⟨word, spells, derived⟩ := accepted.derives rfl
  exact ⟨⟨word, spells, _, derived.free⟩, fun _ _ => accepted.longest, fun _ => accepted.no_else,
    elsesTakenBelow stream own _ _ _ _ _ (Nat.lt_succ_self _) accepted (by decide)⟩

/-- The tokens of `if (a) if (b) ; else ;`. -/
def nestedConditionals : List Token :=
  [⟨.keyword, "if", 1⟩, ⟨.punctuation, "(", 1⟩, ⟨.identifier, "a", 1⟩, ⟨.punctuation, ")", 1⟩,
    ⟨.keyword, "if", 1⟩, ⟨.punctuation, "(", 1⟩, ⟨.identifier, "b", 1⟩, ⟨.punctuation, ")", 1⟩,
    ⟨.punctuation, ";", 1⟩, ⟨.keyword, "else", 1⟩, ⟨.punctuation, ";", 1⟩]

/-- All of it is read, and the `else` is taken by the inner conditional. -/
theorem nestedConditionals_bind_inward :
    let parser := Parser.start nestedConditionals
    let read := Parser.rule "" .stmt parser
    (read.1.isOk = true ∧ read.2.position = 11) ∧
      ∃ middle last, Reaches parser.stream "" (.rule .stmt) 0 "" (.rule .ifStmt) 4 ∧
        TakesElse parser.stream "" 4 middle 9 last := by
  intro parser read
  have accepted : Accepts parser.stream "" (.rule .stmt) 0 11 .empty :=
    .of_readWithin 1000 (by decide +kernel)
  have ends : read.1.isOk = true ∧ read.2.position = 11 := Parser.isOk_of_accepts rfl accepted
  obtain ⟨-, -, -, taken⟩ := stmt_is_longest "" parser ends.1
  rw [show (Parser.rule "" .stmt parser).2.position = 11 from ends.2] at taken
  obtain ⟨first, middle, last, reached, -, takes⟩ := taken 9 (by decide) (by decide) (by decide)
  obtain ⟨_, header⟩ := takes.header
  obtain ⟨_, body⟩ := takes.body
  obtain ⟨_, _, _, opens, -, -⟩ := accepts_seq.mp header
  obtain ⟨isIf, -, -⟩ := accepts_expect.mp opens
  have before : first < 9 :=
    Nat.lt_trans (header.start_lt_stop (by decide)) (body.start_lt_stop (by decide))
  have candidates : ∀ first < 9, Terminals.allow [.keyword "if"] (parser.stream.get first) = true →
      first = 0 ∨ first = 4 := by decide +kernel
  rcases candidates first before isIf with rfl | rfl
  · -- the body of the outer conditional goes further
    have condition : Accepts parser.stream "" (.rule .expr) 2 3 .empty :=
      .of_readWithin 1000 (by decide +kernel)
    have outer : Accepts parser.stream "" (.all (Phrase.condition "if")) 0 4 _ :=
      Accepts.seq (accepts_expect.mpr ⟨by decide, rfl, rfl⟩)
        (Accepts.seq (accepts_expect.mpr ⟨by decide, rfl, rfl⟩)
          (condition.seq (accepts_expect.mpr ⟨by decide, rfl, rfl⟩)))
    have inner : Accepts parser.stream "" (.rule .stmt) 4 11 .empty :=
      .of_readWithin 1000 (by decide +kernel)
    obtain ⟨rfl, -⟩ := outer.unique header
    exact absurd (inner.unique body).1 (by decide)
  · exact ⟨ends, middle, last, reached, takes⟩

end ClassSyntax

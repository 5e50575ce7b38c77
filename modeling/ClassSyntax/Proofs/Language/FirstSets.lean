import ClassSyntax.Proofs.Frontier.FurthestFailure
import ClassSyntax.Proofs.Language.Openings
import ClassSyntax.Proofs.Statements.Running

/-!
# What a look at a first set settles

Loops and optional parts are entered after a look at one token. A look at a first set is right in both
ways: with a token of the set the part can be read, and without one its reading fails where it starts.

* `refuses_at_once`: what starts in a set is not begun without a token of the set.
* `Phrase.exists_reading`: every token of the set starts something that is read.
* `first_sets_are_exact`: both, for the rules and for every part that is entered by their first sets.
-/

namespace ClassSyntax

/-- The first sets by which rules are entered, each with its rule. -/
def First.entries : List (Terminals × Rule) :=
  [(importDecl, .importDecl), (classDecl, .classDecl), (member, .member), (typeName, .typeName),
    (param, .param), (target, .target), (expression, .expr), (statement, .stmt)]

namespace Phrase

/-- The parts of a phrase that are entered after a look at one token, each with the set that is looked
for. -/
def guarded : Phrase → List (Terminals × Phrase)
  | done | expect _ _ | expectOwnName | fail _ | rule _ | countEntry => []
  | seq first second | orElse first second => first.guarded ++ second.guarded
  | ifNext [choices] yes no => (choices, yes) :: (yes.guarded ++ no.guarded)
  | ifNext _ yes no => yes.guarded ++ no.guarded
  | whileNext [choices] body => (choices, body) :: body.guarded
  | whileNext _ body => body.guarded
  | ifAhead trial yes no => trial.guarded ++ yes.guarded ++ no.guarded
  | inClass body => body.guarded

/-- Whatever the phrase reads starts with a token of the set. -/
def startsIn (choices : Terminals) (phrase : Phrase) : Bool :=
  phrase.progressive && phrase.fruitful && !phrase.covering.nullable &&
    phrase.covering.first.within choices

/-- Every token of the set starts something that the phrase reads. -/
def opensOn (choices : Terminals) : Phrase → Bool
  | seq first second => first.opensOn choices && second.decided 13 && second.wanted.skippable
  | phrase => phrase.decided 13 && choices.within (phrase.wanted.opening 11)

/-- The phrase is begun by the tokens of the set and by no others. -/
def begunBy (choices : Terminals) (phrase : Phrase) : Bool :=
  phrase.startsIn choices && phrase.opensOn choices

end Phrase

variable {stream : TokenStream} {own : String} {start : Nat} {choices : Terminals} {phrase : Phrase}

/-! ## Without a token of the set -/

/-- The reading fails where it starts. -/
def RefusesAtOnce (stream : TokenStream) (own : String) (phrase : Phrase) (start : Nat) : Prop :=
  ∃ expected log, Reads stream own phrase start (.fail ⟨start, expected⟩) log

/-- A token that starts no word of a form begins none. -/
theorem Spells.eq_nil {form : Form} {word rest : List Token} {outline : Outline} {stop : Nat}
    (spells : Spells stream start word stop)
    (derived : Derives Nonterminal.production own form (word ++ rest) outline)
    (missing : form.first.allow (stream.get start) = false) : word = [] := by
  cases word with
  | nil => rfl
  | cons head word =>
      rw [spells.1, derived.starts] at missing
      exact Bool.noConfusion missing

/-- What starts in a set is not begun without a token of the set. -/
theorem refuses_at_once (starts : phrase.startsIn choices = true)
    (missing : choices.allow (stream.get start) = false) : RefusesAtOnce stream own phrase start := by
  simp only [Phrase.startsIn, Bool.and_eq_true, Bool.not_eq_true'] at starts
  obtain ⟨⟨⟨progressive, fruitful⟩, filled⟩, inside⟩ := starts
  have none := Terminals.not_allow_of_within inside missing
  obtain ⟨outcome, log, read⟩ := Reads.total stream progressive start own
  have covers := read.covered fruitful
  cases outcome with
  | ok stop outline =>
      -- then a word was read, and it would have to be empty
      obtain ⟨word, spells, derived⟩ := covers.read rfl
      have some := derived.ne_nil filled
      rw [← List.append_nil word] at derived
      exact absurd (spells.eq_nil derived none) some
  | fail failure =>
      obtain ⟨position, expected⟩ := failure
      obtain ⟨word, rest, outline, spells, derived⟩ := covers.missed _ (read.failure_mem rfl)
      obtain rfl := spells.eq_nil derived none
      obtain rfl : position = start := spells_nil.mp spells
      exact ⟨expected, log, read⟩

/-- A parser that is refused at once stays where it is. -/
theorem Parser.run_of_refused {parser : Parser} (progressive : phrase.progressive = true)
    (refused : RefusesAtOnce parser.stream own phrase parser.position) :
    (run own phrase progressive parser).1.isOk = false ∧
      (run own phrase progressive parser).2.position = parser.position := by
  obtain ⟨expected, log, read⟩ := refused
  obtain ⟨ended, stopped, -⟩ := run_of_reads progressive read
  exact ⟨ended, stopped⟩

/-! ## With a token of the set -/

/-- A phrase that one look ahead settles is read up to the end of the input. -/
theorem accepts_of_decided (decided : phrase.decided 13 = true) {word : List Token}
    {outline : Outline} (derived : Derives Nonterminal.production own phrase.wanted word outline)
    (spells : Spells stream start word stream.size) :
    Accepts stream own phrase start stream.size outline :=
  Phrase.exact_of_decided decided (rulesExact stream word.length 13) (Nat.le_refl _) derived spells
    (stream.not_allow_size _)

/-- Every token of the set starts something that is read up to the end of the input. -/
theorem Phrase.exists_reading {token : Token} (opens : phrase.opensOn choices = true)
    (allowed : choices.allow token = true) (own : String) :
    ∃ rest : List Token, (∀ other ∈ rest, other.isEnd = false) ∧
      ∀ (stream : TokenStream) (start : Nat), Spells stream start (token :: rest) stream.size →
        ∃ outline, Accepts stream own phrase start stream.size outline := by
  induction phrase with
  | seq first second ih _ =>
      simp only [opensOn, Bool.and_eq_true] at opens
      obtain ⟨rest, unended, reads⟩ := ih opens.1.1
      refine ⟨rest, unended, fun stream start spells => ?_⟩
      obtain ⟨outline, read⟩ := reads stream start spells
      have nothing := Form.derives_of_skippable opens.2 own
      exact ⟨_, read.seq (accepts_of_decided opens.1.2 nothing (spells_nil.mpr rfl))⟩
  | _ =>
      simp only [opensOn, Bool.and_eq_true] at opens
      obtain ⟨rest, outline, derived⟩ := Form.opens (Terminals.allow_of_within opens.2 allowed) own
      exact ⟨rest, fun other member => derived.isEnd_eq_false other (List.mem_cons_of_mem _ member),
        fun stream start spells => ⟨outline, accepts_of_decided opens.1 derived spells⟩⟩

/-- Behind any token of a stream other tokens may follow. -/
theorem exists_other_rest (unended : (stream.get start).isEnd = false) {rest : List Token}
    (others : ∀ token ∈ rest, token.isEnd = false) :
    ∃ other : TokenStream, (∀ place ≤ start, other.get place = stream.get place) ∧
      Spells other start (stream.get start :: rest) other.size := by
  have front := spells_front (Nat.le_of_lt (TokenStream.lt_size_of_isEnd unended))
  have earlier : ∀ token ∈ stream.body.toList.take start, token.isEnd = false :=
    fun token member =>
      stream.unended token (Array.mem_toList_iff.mp (List.mem_of_mem_take member))
  generalize stream.body.toList.take start = before at front earlier
  have whole := spells_ofTokens
    (List.forall_mem_append.mpr ⟨earlier, List.forall_mem_cons.mpr ⟨unended, others⟩⟩)
  generalize TokenStream.ofTokens (before ++ stream.get start :: rest) = other at whole
  obtain ⟨middle, again, behind⟩ := spells_append.mp whole
  obtain rfl : middle = start := again.stop_eq.trans front.stop_eq.symm
  have here : Spells other middle [stream.get middle] (middle + 1) := ⟨behind.1, rfl⟩
  refine ⟨other, fun place inside => ?_, behind⟩
  exact (front.append spells_next).agree (again.append here) (Nat.zero_le _)
    (Nat.lt_succ_of_le inside)

/-! ## The rules and their parts -/

theorem First.entries_begun {rule : Rule} (entry : (choices, rule) ∈ First.entries) :
    (Phrase.rule rule).begunBy choices = true := by
  have all : ∀ entry ∈ First.entries, (Phrase.rule entry.2).begunBy entry.1 = true := by decide
  exact all (choices, rule) entry

/-- A look at one of the first sets leads to what is begun by just the tokens of the set. -/
theorem Rule.guarded_begun {rule : Rule} {part : Phrase}
    (guarded : (choices, part) ∈ rule.body.guarded)
    (looked : choices ∈ First.entries.map Prod.fst) : part.begunBy choices = true := by
  have all : (rule.body.guarded.all fun item =>
      item.1 ∉ First.entries.map Prod.fst || item.2.begunBy item.1) = true := by
    cases rule with
    | binaryExpr level => cases level <;> decide
    | declarators role | declarator role => rfl
    | _ => decide
  have checked := List.all_eq_true.mp all (choices, part) guarded
  simpa [looked] using checked

/-- The first sets are exact. A rule that is entered by its first set can be read behind every token of the
set, with some tokens after it, and fails on every other token without taking it. So it is for every part
of a rule that is entered by such a set: what comes before the token makes no difference. -/
theorem first_sets_are_exact :
    (∀ choices rule, (choices, rule) ∈ First.entries → ∀ own,
        (∀ token : Token, choices.allow token = true →
          ∃ rest, (Parser.rule own rule (Parser.start (token :: rest))).1.isOk = true) ∧
        ∀ parser : Parser, choices.allow parser.current = false →
          (Parser.rule own rule parser).1.isOk = false ∧
            (Parser.rule own rule parser).2.position = parser.position) ∧
      ∀ (rule : Rule) (choices : Terminals) (part : Phrase),
        (choices, part) ∈ rule.body.guarded → choices ∈ First.entries.map Prod.fst →
          ∀ (stream : TokenStream) (own : String) (start : Nat),
            (choices.allow (stream.get start) = true →
              ∃ other : TokenStream, (∀ place ≤ start, other.get place = stream.get place) ∧
                ∃ stop outline, Accepts other own part start stop outline) ∧
            (choices.allow (stream.get start) = false →
              RefusesAtOnce stream own part start) := by
  constructor
  · intro choices rule entry own
    obtain ⟨starts, opens⟩ := Bool.and_eq_true_iff.mp (First.entries_begun entry)
    refine ⟨fun token allowed => ?_, fun parser missing => ?_⟩
    · obtain ⟨rest, others, reads⟩ := Phrase.exists_reading opens allowed own
      have unended := Terminals.isEnd_of_allow allowed
      obtain ⟨outline, accepted⟩ :=
        reads _ 0 (spells_ofTokens (List.forall_mem_cons.mpr ⟨unended, others⟩))
      rw [Parser.rule_eq_run]
      exact ⟨rest, (Parser.isOk_of_accepts rfl accepted).1⟩
    · rw [Parser.rule_eq_run]
      exact Parser.run_of_refused rfl (refuses_at_once starts missing)
  · intro rule choices part guarded looked stream own start
    obtain ⟨starts, opens⟩ := Bool.and_eq_true_iff.mp (Rule.guarded_begun guarded looked)
    refine ⟨fun allowed => ?_, refuses_at_once starts⟩
    obtain ⟨rest, others, reads⟩ := Phrase.exists_reading opens allowed own
    obtain ⟨other, same, spells⟩ := exists_other_rest (Terminals.isEnd_of_allow allowed) others
    obtain ⟨outline, accepted⟩ := reads other start spells
    exact ⟨other, same, other.size, outline, accepted⟩

/-- The tokens of `\x7b ++ else \x7d`. -/
def strayElse : List Token :=
  [⟨.punctuation, "\x7b", 1⟩, ⟨.operator, "++", 1⟩, ⟨.keyword, "else", 1⟩,
    ⟨.punctuation, "\x7d", 1⟩]

/-- `++` starts a statement and `else` does not, whether it is read by itself or in a block. -/
theorem step_starts_statement :
    (∃ rest, (Parser.rule "A" .stmt (Parser.start (⟨.operator, "++", 1⟩ :: rest))).1.isOk = true) ∧
      ((Parser.rule "A" .stmt (Parser.start [⟨.keyword, "else", 1⟩])).1.isOk = false ∧
        (Parser.rule "A" .stmt (Parser.start [⟨.keyword, "else", 1⟩])).2.position = 0) ∧
      (∃ other : TokenStream,
        (∀ place ≤ 1, other.get place = (TokenStream.ofTokens strayElse).get place) ∧
          ∃ stop outline, Accepts other "A" (.rule .stmt) 1 stop outline) ∧
      RefusesAtOnce (TokenStream.ofTokens strayElse) "A" (.rule .stmt) 2 := by
  obtain ⟨rules, parts⟩ := first_sets_are_exact
  obtain ⟨begun, refused⟩ := rules First.statement .stmt (by decide) "A"
  have inBlock : (First.statement, Phrase.rule .stmt) ∈ Rule.block.body.guarded := by decide
  have behind := parts .block _ _ inBlock (by decide) (TokenStream.ofTokens strayElse) "A"
  exact ⟨begun _ (by decide), refused _ (by decide), (behind 1).1 (by decide),
    (behind 2).2 (by decide)⟩

end ClassSyntax

import ClassSyntax.Parser

/-!
# Nested readings

Reading a phrase comes to read its parts, and through them the phrases of other rules. `Reaches` says
which phrase is read from where on the way, trials included.

* `Reaches.moves_or_descends`: a rule that is entered before a token was taken has a lower rank.
* `Reaches.progressive`: every loop that is come to takes a token each time around.
* `Parser.rule_progresses`: a rule ends, takes tokens before it is entered again, and leaves the parser
  between where it started and the end of the input.
-/

namespace ClassSyntax

/-- `Reaches stream own phrase start inner part place`: inside the class `own`, reading `phrase` from
`start` comes to read `part` from `place`, inside the class `inner`. -/
inductive Reaches (stream : TokenStream) :
    String → Phrase → Nat → String → Phrase → Nat → Prop
  | here {own : String} {phrase : Phrase} {start : Nat} :
      Reaches stream own phrase start own phrase start
  | rule {own inner : String} {rule : Rule} {part : Phrase} {start place : Nat} :
      Reaches stream own rule.body start inner part place →
      Reaches stream own (.rule rule) start inner part place
  | seqFirst {own inner : String} {first second part : Phrase} {start place : Nat} :
      Reaches stream own first start inner part place →
      Reaches stream own (.seq first second) start inner part place
  | seqSecond {own inner : String} {first second part : Phrase} {start middle place : Nat}
      {outline : Outline} {log : List Failure} :
      Reads stream own first start (.ok middle outline) log →
      Reaches stream own second middle inner part place →
      Reaches stream own (.seq first second) start inner part place
  | ifNextYes {own inner : String} {ahead : List Terminals} {yes no part : Phrase}
      {start place : Nat} :
      stream.startsWith ahead start = true →
      Reaches stream own yes start inner part place →
      Reaches stream own (.ifNext ahead yes no) start inner part place
  | ifNextNo {own inner : String} {ahead : List Terminals} {yes no part : Phrase}
      {start place : Nat} :
      stream.startsWith ahead start = false →
      Reaches stream own no start inner part place →
      Reaches stream own (.ifNext ahead yes no) start inner part place
  | whileRound {own inner : String} {ahead : List Terminals} {body part : Phrase}
      {start place : Nat} :
      stream.startsWith ahead start = true →
      Reaches stream own body start inner part place →
      Reaches stream own (.whileNext ahead body) start inner part place
  | whileAgain {own inner : String} {ahead : List Terminals} {body part : Phrase}
      {start middle place : Nat} {outline : Outline} {log : List Failure} :
      stream.startsWith ahead start = true →
      Reads stream own body start (.ok middle outline) log →
      Reaches stream own (.whileNext ahead body) middle inner part place →
      Reaches stream own (.whileNext ahead body) start inner part place
  | orElseFirst {own inner : String} {first second part : Phrase} {start place : Nat} :
      Reaches stream own first start inner part place →
      Reaches stream own (.orElse first second) start inner part place
  | orElseSecond {own inner : String} {first second part : Phrase} {start place : Nat}
      {failure : Failure} {log : List Failure} :
      Reads stream own first start (.fail failure) log →
      Reaches stream own second start inner part place →
      Reaches stream own (.orElse first second) start inner part place
  | ifAheadTrial {own inner : String} {trial yes no part : Phrase} {start place : Nat} :
      Reaches stream own trial start inner part place →
      Reaches stream own (.ifAhead trial yes no) start inner part place
  | ifAheadYes {own inner : String} {trial yes no part : Phrase} {start stop place : Nat}
      {outline : Outline} {hidden : List Failure} :
      Reads stream own trial start (.ok stop outline) hidden →
      Reaches stream own yes start inner part place →
      Reaches stream own (.ifAhead trial yes no) start inner part place
  | ifAheadNo {own inner : String} {trial yes no part : Phrase} {start place : Nat}
      {failure : Failure} {hidden : List Failure} :
      Reads stream own trial start (.fail failure) hidden →
      Reaches stream own no start inner part place →
      Reaches stream own (.ifAhead trial yes no) start inner part place
  | classBody {own inner : String} {body part : Phrase} {start place : Nat} :
      Terminal.identifier.admits (stream.get start) = true →
      Reaches stream (stream.get start).lexeme body (start + 1) inner part place →
      Reaches stream own (.inClass body) start inner part place

namespace Reaches

variable {stream : TokenStream} {own inner : String} {phrase part : Phrase} {start place : Nat}

/-- Nothing is read from a place before the start. -/
theorem start_le (reached : Reaches stream own phrase start inner part place) :
    start ≤ place := by
  induction reached with
  | here => exact Nat.le_refl _
  | seqSecond read _ ih | whileAgain _ read _ ih => exact Nat.le_trans read.start_le_stop ih
  | classBody _ _ ih => exact Nat.le_trans (Nat.le_succ _) ih
  | rule _ ih | seqFirst _ ih | orElseFirst _ ih | ifAheadTrial _ ih => exact ih
  | ifNextYes _ _ ih | ifNextNo _ _ ih | whileRound _ _ ih | orElseSecond _ _ ih => exact ih
  | ifAheadYes _ _ ih | ifAheadNo _ _ ih => exact ih

/-- A rule is entered behind the start, or else it is below the rank that bounds the phrase: the
measure is the number of tokens left, and then the rank. -/
theorem moves_or_descends {called : Rule} {bound : Nat}
    (reached : Reaches stream own phrase start inner (.rule called) place)
    (below : phrase.leftBelow bound = true) :
    start < place ∨ place = start ∧ called.rank < bound := by
  generalize same : Phrase.rule called = part at reached
  induction reached generalizing bound with
  | here =>
      subst same
      exact .inr ⟨rfl, by simpa [Phrase.leftBelow] using below⟩
  | @rule _ _ rule _ _ _ _ ih =>
      have lower : rule.rank < bound := by simpa [Phrase.leftBelow] using below
      rcases ih rule.body_leftBelow same with moved | ⟨here, descended⟩
      · exact .inl moved
      · exact .inr ⟨here, Nat.lt_trans descended lower⟩
  | seqFirst _ ih =>
      simp only [Phrase.leftBelow, Bool.and_eq_true] at below
      exact ih below.1 same
  | seqSecond read rest ih =>
      simp only [Phrase.leftBelow, Bool.and_eq_true, Bool.or_eq_true] at below
      have behind := rest.start_le
      rcases Nat.eq_or_lt_of_le read.start_le_stop with stayed | moved
      · rcases below.2 with taking | below
        · exact absurd (read.start_lt_stop rfl taking) (Nat.not_lt.mpr (Nat.le_of_eq stayed.symm))
        · rw [stayed]
          exact ih below same
      · exact .inl (Nat.lt_of_lt_of_le moved behind)
  | ifNextYes _ _ ih | orElseFirst _ ih =>
      simp only [Phrase.leftBelow, Bool.and_eq_true] at below
      exact ih below.1 same
  | ifNextNo _ _ ih | orElseSecond _ _ ih =>
      simp only [Phrase.leftBelow, Bool.and_eq_true] at below
      exact ih below.2 same
  | whileRound _ _ ih => exact ih below same
  | whileAgain _ read rest ih =>
      rcases Nat.eq_or_lt_of_le read.start_le_stop with stayed | moved
      · rw [stayed]
        exact ih below same
      · exact .inl (Nat.lt_of_lt_of_le moved rest.start_le)
  | ifAheadTrial _ ih =>
      simp only [Phrase.leftBelow, Bool.and_eq_true] at below
      exact ih below.1.1 same
  | ifAheadYes _ _ ih =>
      simp only [Phrase.leftBelow, Bool.and_eq_true] at below
      exact ih below.1.2 same
  | ifAheadNo _ _ ih =>
      simp only [Phrase.leftBelow, Bool.and_eq_true] at below
      exact ih below.2 same
  | classBody _ rest _ => exact .inl rest.start_le

/-- Where all loops of a phrase take tokens, so do those that it comes to. -/
theorem progressive (reached : Reaches stream own phrase start inner part place)
    (looping : phrase.progressive = true) : part.progressive = true := by
  induction reached with
  | here => exact looping
  | rule _ ih => exact ih (Rule.body_progressive _)
  | seqFirst _ ih | orElseFirst _ ih | ifNextYes _ _ ih =>
      simp only [Phrase.progressive, Bool.and_eq_true] at looping
      exact ih looping.1
  | seqSecond _ _ ih | orElseSecond _ _ ih | ifNextNo _ _ ih | whileRound _ _ ih =>
      simp only [Phrase.progressive, Bool.and_eq_true] at looping
      exact ih looping.2
  | whileAgain _ _ _ ih => exact ih looping
  | ifAheadTrial _ ih =>
      simp only [Phrase.progressive, Bool.and_eq_true] at looping
      exact ih looping.1.1
  | ifAheadYes _ _ ih =>
      simp only [Phrase.progressive, Bool.and_eq_true] at looping
      exact ih looping.1.2
  | ifAheadNo _ _ ih =>
      simp only [Phrase.progressive, Bool.and_eq_true] at looping
      exact ih looping.2
  | classBody _ _ ih => exact ih looping

/-- A round of a loop that is read well takes a token. -/
theorem round_moves {ahead : List Terminals} {body : Phrase} {middle : Nat} {outline : Outline}
    {log : List Failure}
    (reached : Reaches stream own phrase start inner (.whileNext ahead body) place)
    (looping : phrase.progressive = true)
    (round : Reads stream inner body place (.ok middle outline) log) : place < middle := by
  have taking := reached.progressive looping
  simp only [Phrase.progressive, Bool.and_eq_true] at taking
  exact round.start_lt_stop rfl taking.1

end Reaches

/-! ## Rules that are entered again -/

namespace Rule

/-- The rule without what a diagnostic calls the names that it declares. -/
def unlabelled : Rule → Rule
  | declarators _ => declarators ""
  | declarator _ => declarator ""
  | rule => rule

theorem rank_unlabelled (rule : Rule) : rule.unlabelled.rank = rule.rank := by
  cases rule <;> rfl

/-- Between two nested entries of a rule a token is taken. -/
theorem reenters_behind {stream : TokenStream} {own inner : String} {rule again : Rule}
    {start place : Nat} (reached : Reaches stream own rule.body start inner (.rule again) place)
    (same : again.unlabelled = rule.unlabelled) : start < place := by
  rcases reached.moves_or_descends rule.body_leftBelow with moved | ⟨-, descended⟩
  · exact moved
  · rw [← rank_unlabelled again, same, rank_unlabelled] at descended
    exact absurd descended (Nat.lt_irrefl _)

end Rule

namespace Parser

/-- A rule leaves the parser where its reading ends. -/
theorem position_rule (own : String) (rule : Rule) (parser : Parser) :
    (Parser.rule own rule parser).2.position =
      (rule.read parser.stream own parser.position).1.stop := by
  unfold Parser.rule
  generalize rule.read parser.stream own parser.position = ending
  obtain ⟨outcome, log⟩ := ending
  cases outcome <;> rfl

theorem succeeds_of_rule_eq_ok {own : String} {rule : Rule} {parser : Parser} {outline : Outline}
    (well : (Parser.rule own rule parser).1 = .ok outline) :
    (rule.read parser.stream own parser.position).1.succeeds = true := by
  unfold Parser.rule at well
  generalize rule.read parser.stream own parser.position = ending at well ⊢
  obtain ⟨outcome, log⟩ := ending
  cases outcome with
  | ok stop outline => rfl
  | fail failure => exact nomatch well

/-- From every position of every stream a rule ends. It is not entered again, and no loop goes around
once more, before a token was taken; and the parser is left at or behind where it was, and behind it
when a rule was read well that is not made of optional parts only. It is not left behind the end of the
input unless it was there before. -/
theorem rule_progresses (own : String) (rule : Rule) (parser : Parser) :
    let start := parser.position
    let after := (Parser.rule own rule parser).2
    (∃ outcome log, Reads parser.stream own (.rule rule) start outcome log ∧
        after.position = outcome.stop) ∧
      (∀ inner again place, Reaches parser.stream own rule.body start inner (.rule again) place →
        again.unlabelled = rule.unlabelled → start < place) ∧
      (∀ inner ahead body place middle outline log,
        Reaches parser.stream own (.rule rule) start inner (.whileNext ahead body) place →
        Reads parser.stream inner body place (.ok middle outline) log → place < middle) ∧
      (∀ outline, (Parser.rule own rule parser).1 = .ok outline →
        rule ∉ [.program, .modifiers, .arraySuffix, .callChain] → start < after.position) ∧
      start ≤ after.position ∧
      (start ≤ parser.stream.size → after.position ≤ parser.stream.size) := by
  intro start after
  have read := rule.reads_read parser.stream own start
  have ended : after.position = _ := position_rule own rule parser
  refine ⟨⟨_, _, read, ended⟩, fun _ _ _ => Rule.reenters_behind, ?_, ?_, ?_, ?_⟩
  · intro _ _ _ _ _ _ _ reached round
    exact reached.round_moves rfl round
  · intro outline well other
    have taking : (Phrase.rule rule).consumes = true := by
      cases rule <;> first | rfl | exact absurd (by decide) other
    rw [ended]
    exact read.start_lt_stop (succeeds_of_rule_eq_ok well) taking
  · rw [ended]
    exact read.start_le_stop
  · intro inside
    rw [ended]
    exact Nat.le_trans read.stop_le (Nat.max_le.mpr ⟨inside, Nat.le_refl _⟩)

/-- The tokens of `- a`. -/
def negation : List Token := [⟨.operator, "-", 1⟩, ⟨.identifier, "a", 1⟩]

/-- Behind its operator a unary expression is entered again, one token further on. -/
theorem unaryExpr_progresses :
    (start negation).position ≤ (start negation).stream.size ∧
      Reaches (start negation).stream "" Rule.unaryExpr.body 0 "" (.rule .unaryExpr) 1 ∧ 0 < 1 ∧
      (Parser.rule "" .unaryExpr (start negation)).2.position ≤ 2 := by
  have inside : (start negation).position ≤ (start negation).stream.size := by decide
  have reached :
      Reaches (start negation).stream "" Rule.unaryExpr.body 0 "" (.rule .unaryExpr) 1 :=
    .ifNextYes (by decide) (.seqSecond (.expectFound (by decide)) .here)
  obtain ⟨-, nested, -, -, -, notBehind⟩ := rule_progresses "" .unaryExpr (start negation)
  exact ⟨inside, reached, nested _ _ _ reached rfl, notBehind inside⟩

end Parser

end ClassSyntax

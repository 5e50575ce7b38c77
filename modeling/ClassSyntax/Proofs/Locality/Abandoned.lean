import ClassSyntax.Proofs.Frontier.MemberTrials
import ClassSyntax.Proofs.Language.Trials

/-!
# Abandoned alternatives look no further

Where an alternative is given up and the next one goes through, the first one has not come further than
the next. So a reading that ends well has missed nothing behind the token at which it stops.

* `stays_varDecl_of_simple`, `stays_varDecl_of_expr`, `stays_simple_of_expr`: the statements that start
  with a name.
* `stays_abandoned`: all alternatives.
* `Reads.confined_of_ok`: what a reading that ends well has missed.
-/

namespace ClassSyntax

variable {stream : TokenStream} {own : String} {start bound : Nat}

/-! ## The first operand of an expression -/

/-- Behind the operands of a level comes one of its operators, or the expression ends. -/
theorem behind_operands {level : Level} {body : Phrase} {stop : Nat} {outline : Outline}
    (loop : Accepts stream own (.whileNext [level.terminals] body) start stop outline) :
    start = stop ∨ Form.binaryOperators.allow (stream.get start) = true := by
  cases next : stream.startsWith [level.terminals] start with
  | false => exact .inl ((accepts_whileNext_of_stop next).mp loop).1.symm
  | true =>
      rw [startsWith_singleton] at next
      exact .inr (Terminals.allow_of_within (by cases level <;> decide) next)

/-- An expression starts with a unary expression, behind which an operator comes or the expression
ends. -/
theorem first_operand (level : Level) {stop : Nat} {outline : Outline}
    (accepted : Accepts stream own (.rule (.binaryExpr level)) start stop outline)
    (stays : Stays stream own (.rule (.binaryExpr level)) start bound) :
    Stays stream own (.rule .unaryExpr) start bound ∧ ∃ behind inner,
      Accepts stream own (.rule .unaryExpr) start behind inner ∧
        (behind = stop ∨ Form.binaryOperators.allow (stream.get behind) = true) := by
  obtain ⟨middle, inner, _, operand, loop, -⟩ := accepts_seq.mp (accepts_rule.mp accepted)
  have operandStays := (stays_seq.mp (stays_rule.mp stays)).1
  -- by recursion down to the tightest level, whose operands are unary expressions
  cases tighter : level.tighter with
  | none =>
      have tightest : Rule.operand level = .unaryExpr := by rw [Rule.operand, tighter]
      rw [tightest] at operand operandStays
      exact ⟨operandStays, middle, inner, operand, behind_operands loop⟩
  | some next =>
      have looser : Rule.operand level = .binaryExpr next := by rw [Rule.operand, tighter]
      rw [looser] at operand operandStays
      have descends := Level.depth_tighter tighter
      obtain ⟨unaryStays, behind, inner, unary, rfl | sign⟩ := first_operand next operand operandStays
      · exact ⟨unaryStays, behind, inner, unary, behind_operands loop⟩
      · exact ⟨unaryStays, behind, inner, unary, .inr sign⟩
termination_by level.depth

/-- Where a semicolon follows an expression, an operator or the semicolon follows its first operand. -/
theorem first_operand_of_ended {stop : Nat} {outline : Outline}
    (accepted : Accepts stream own (.seq (.rule .expr) (Phrase.mark ";")) start stop outline)
    (stays : Stays stream own (.seq (.rule .expr) (Phrase.mark ";")) start bound) :
    Stays stream own (.rule .unaryExpr) start bound ∧ ∃ behind inner,
      Accepts stream own (.rule .unaryExpr) start behind inner ∧
        Terminals.allow (.mark ";" :: Form.binaryOperators) (stream.get behind) = true := by
  obtain ⟨middle, _, _, expr, semicolon, -⟩ := accepts_seq.mp accepted
  obtain ⟨unaryStays, behind, inner, unary, next⟩ := first_operand .logicalOr
    (accepts_rule.mp expr) (stays_rule.mp (stays_seq.mp stays).1)
  refine ⟨unaryStays, behind, inner, unary, ?_⟩
  rcases next with rfl | sign
  · exact Terminals.allow_of_within (by decide) (accepts_expect.mp semicolon).1
  · exact Terminals.allow_of_within (by decide) sign

theorem refuses_unaryExpr_of_other (other : First.expression.allow (stream.get start) = false) :
    Refuses stream own (.rule .unaryExpr) start :=
  refuses_rule.mpr (refuses_ifNext_of_other (Terminals.not_startsWith_of_within (by decide) other)
    (refuses_rule.mpr
      (refuses_ifNext_of_other (Terminals.not_startsWith_of_within (by decide) other)
        (refuses_ifNext_of_other (Terminals.not_startsWith_of_within (by decide) other)
          (refuses_ifNext_of_other (Terminals.not_startsWith_of_within (by decide) other)
            (refuses_ifNext_of_other (Terminals.not_startsWith_of_within (by decide) other)
              refuses_fail))))))

theorem starts_unaryExpr {stop : Nat} {outline : Outline}
    (accepted : Accepts stream own (.rule .unaryExpr) start stop outline) :
    First.expression.allow (stream.get start) = true := by
  rw [← Bool.not_eq_false]
  exact fun other => accepted.not_refuses (refuses_unaryExpr_of_other other)

/-- An operand that starts with a target goes on with calls. -/
def Phrase.call : Phrase := seq (rule .target) (rule .callChain)

theorem accepts_call {stop : Nat} {outline : Outline}
    (named : First.target.allow (stream.get start) = true)
    (accepted : Accepts stream own (.rule .unaryExpr) start stop outline) :
    Accepts stream own Phrase.call start stop outline := by
  have unary := accepts_ifNext.mp (accepts_rule.mp accepted)
  rw [Terminals.not_startsWith_of_apart (by decide) named, if_neg (by decide)] at unary
  have primary := accepts_ifNext.mp (accepts_rule.mp unary)
  rwa [startsWith_singleton, if_pos named] at primary

theorem stays_call (named : First.target.allow (stream.get start) = true)
    (stays : Stays stream own (.rule .unaryExpr) start bound) :
    Stays stream own Phrase.call start bound := by
  have unary := stays_ifNext.mp (stays_rule.mp stays)
  rw [Terminals.not_startsWith_of_apart (by decide) named, if_neg (by decide)] at unary
  have primary := stays_ifNext.mp (stays_rule.mp unary)
  rwa [startsWith_singleton, if_pos named] at primary

/-- What stands where the members behind a call are over, or there are none. -/
theorem behind_members {body : Phrase} {stop : Nat} {outline : Outline} {behind : Terminals}
    (loop : Accepts stream own (.whileNext [[.mark "."]] body) start stop outline)
    (next : behind.allow (stream.get stop) = true) :
    Terminals.allow (.mark "." :: behind) (stream.get start) = true := by
  cases point : stream.startsWith [[.mark "."]] start with
  | false =>
      obtain ⟨rfl, -⟩ := (accepts_whileNext_of_stop point).mp loop
      exact Terminals.allow_iff.mpr (by
        obtain ⟨terminal, listed, admitted⟩ := Terminals.allow_iff.mp next
        exact ⟨terminal, List.mem_cons_of_mem _ listed, admitted⟩)
  | true =>
      rw [startsWith_singleton, Terminals.allow_singleton] at point
      exact Terminals.allow_iff.mpr ⟨_, List.mem_cons_self, point⟩

/-! ## Declarations that are given up -/

theorem stays_varDecl_of_other (other : First.param.allow (stream.get start) = false)
    (inside : start ≤ bound) : Stays stream own (.rule .varDecl) start bound := by
  have read : Reads stream own (.rule .varDecl) start _ _ :=
    .rule (.seqOk (.ifNextNo (Terminals.not_startsWith_of_within (by decide) other) .done)
      (.rule (.seqFail (.rule (.seqFail
        (.ifNextNo (Terminals.not_startsWith_of_within (by decide) other)
          (.ifNextNo (Terminals.not_startsWith_of_within (by decide) other) .fail)))))))
  exact ⟨_, _, read, inside, List.forall_mem_singleton.mpr inside⟩

/-- A declaration is given up behind its type, where no name comes. -/
theorem stays_varDecl_of_target {middle : Nat} {outline : Outline}
    (accepted : Accepts stream own (.rule .target) start middle outline)
    (stays : Stays stream own (.rule .target) start bound)
    (behind : Terminals.allow [.mark "[", .identifier] (stream.get middle) = false) :
    Stays stream own (.rule .varDecl) start bound := by
  cases keyword : stream.startsWith [[.keyword "this", .keyword "super"]] start with
  | true =>
      rw [startsWith_singleton] at keyword
      exact stays_varDecl_of_other (Terminals.not_allow_of_apart (by decide) keyword) stays.start_le
  | false =>
      have qualified := accepts_ifNext.mp (accepts_rule.mp accepted)
      rw [keyword, if_neg (by decide)] at qualified
      have nameStays := stays_ifNext.mp (stays_rule.mp stays)
      rw [keyword, if_neg (by decide)] at nameStays
      obtain ⟨_, _, _, first, -, -⟩ := accepts_seq.mp (accepts_rule.mp qualified)
      have named := (accepts_expect.mp first).1
      have noPrimitive : stream.startsWith [First.primitiveType] start = false :=
        Terminals.not_startsWith_of_apart (by decide) named
      have isName : stream.startsWith [[.identifier]] start = true := by
        rwa [startsWith_singleton]
      have noBracket : stream.startsWith [[.mark "["]] middle = false :=
        Terminals.not_startsWith_of_within (by decide) behind
      have noName : Terminals.allow [.identifier] (stream.get middle) = false :=
        Terminals.not_allow_of_within (by decide) behind
      have inside := stays.stop_le accepted
      -- the whole target is read as a type, and the name to be declared is missing behind it
      obtain ⟨_, name⟩ := qualified
      have type : Reads stream own (.rule .typeName) start _ _ :=
        .rule (.seqOk (.ifNextNo noPrimitive (.ifNextYes isName name))
          (.rule (.whileStop noBracket)))
      have read : Reads stream own (.rule .varDecl) start _ _ :=
        .rule (.seqOk (.ifNextNo (Terminals.not_startsWith_of_apart (by decide) named) .done)
          (.rule (.seqOk type (.seqFail (.rule (.seqFail (.expectMissing noName)))))))
      refine ⟨_, _, read, inside, ?_⟩
      simpa [or_imp, forall_and] using ⟨(name.confined nameStays).missed, inside⟩

/-- Where a simple statement can be read, a declaration is given up in time. -/
theorem stays_varDecl_of_simple {stop : Nat} {outline : Outline}
    (accepted : Accepts stream own (.rule .simpleStmt) start stop outline)
    (stays : Stays stream own (.rule .simpleStmt) start bound) :
    Stays stream own (.rule .varDecl) start bound := by
  cases step : stream.startsWith [First.stepOperator] start with
  | true =>
      rw [startsWith_singleton] at step
      exact stays_varDecl_of_other (Terminals.not_allow_of_apart (by decide) step) stays.start_le
  | false =>
      have read := accepts_ifNext.mp (accepts_rule.mp accepted)
      rw [step, if_neg (by decide)] at read
      have readStays := stays_ifNext.mp (stays_rule.mp stays)
      rw [step, if_neg (by decide)] at readStays
      obtain ⟨middle, _, _, target, rest, -⟩ := accepts_seq.mp read
      refine stays_varDecl_of_target target (stays_seq.mp readStays).1 ?_
      have behind : First.behindSimple.allow (stream.get middle) = true := by
        rw [← Bool.not_eq_false]
        exact fun other => rest.not_refuses (refuses_behindTarget other)
      exact Terminals.not_allow_of_apart (by decide) behind

/-- Behind a target that calls follow comes no name and no bracket. -/
theorem behind_target_of_call {middle stop : Nat} {outline : Outline}
    (chain : Accepts stream own (.rule .callChain) middle stop outline)
    (next : Terminals.allow (.mark ";" :: Form.binaryOperators) (stream.get stop) = true) :
    Terminals.allow (.mark "(" :: .mark "." :: .mark ";" :: Form.binaryOperators)
      (stream.get middle) = true := by
  obtain ⟨place, _, _, args, members, -⟩ := accepts_seq.mp (accepts_rule.mp chain)
  have args := accepts_ifNext.mp args
  cases opening : stream.startsWith [[.mark "("]] middle with
  | true =>
      rw [startsWith_singleton] at opening
      exact Terminals.allow_of_within (by decide) opening
  | false =>
      rw [opening, if_neg (by decide)] at args
      obtain ⟨rfl, -⟩ := accepts_done.mp args
      exact Terminals.allow_of_within (by decide) (behind_members members next)

/-- Where an expression is a statement, a declaration is given up in time. -/
theorem stays_varDecl_of_expr {stop : Nat} {outline : Outline}
    (accepted : Accepts stream own (.seq (.rule .expr) (Phrase.mark ";")) start stop outline)
    (stays : Stays stream own (.seq (.rule .expr) (Phrase.mark ";")) start bound) :
    Stays stream own (.rule .varDecl) start bound := by
  obtain ⟨unaryStays, behind, _, unary, next⟩ := first_operand_of_ended accepted stays
  cases named : First.target.allow (stream.get start) with
  | false =>
      have starts := starts_unaryExpr unary
      rw [show First.expression = First.target ++ (First.literal ++
        [.keyword "new", .mark "("] ++ First.unaryOperator) from rfl,
        Terminals.allow_append, named, Bool.false_or] at starts
      exact stays_varDecl_of_other (Terminals.not_allow_of_apart (by decide) starts) stays.start_le
  | true =>
      obtain ⟨middle, _, _, target, chain, -⟩ := accepts_seq.mp (accepts_call named unary)
      exact stays_varDecl_of_target target (stays_seq.mp (stays_call named unaryStays)).1
        (Terminals.not_allow_of_apart (by decide) (behind_target_of_call chain next))

/-! ## Simple statements that are given up -/

theorem stays_target_of_other (other : First.target.allow (stream.get start) = false)
    (inside : start ≤ bound) : Stays stream own (.rule .target) start bound := by
  have read : Reads stream own (.rule .target) start _ _ :=
    .rule (.ifNextNo (Terminals.not_startsWith_of_within (by decide) other)
      (.rule (.seqFail (.expectMissing (Terminals.not_allow_of_within (by decide) other)))))
  exact ⟨_, _, read, inside, List.forall_mem_singleton.mpr inside⟩

theorem stays_behindTarget_of_other (other : First.behindSimple.allow (stream.get start) = false)
    (inside : start ≤ bound) : Stays stream own Phrase.behindTarget start bound := by
  have read : Reads stream own Phrase.behindTarget start _ _ :=
    .ifNextNo (Terminals.not_startsWith_of_within (by decide) other)
      (.ifNextNo (Terminals.not_startsWith_of_within (by decide) other)
        (.ifNextNo (Terminals.not_startsWith_of_within (by decide) other) .fail))
  exact ⟨_, _, read, inside, List.forall_mem_singleton.mpr inside⟩

/-- A simple statement reads a call as an expression does. -/
theorem stays_behindTarget_of_call {stop : Nat} {outline : Outline}
    (chain : Accepts stream own (.rule .callChain) start stop outline)
    (stays : Stays stream own (.rule .callChain) start bound)
    (next : Terminals.allow (.mark ";" :: Form.binaryOperators) (stream.get stop) = true) :
    Stays stream own Phrase.behindTarget start bound := by
  cases opening : stream.startsWith [[.mark "("]] start with
  | false =>
      have inside := stays.start_le
      refine stays_behindTarget_of_other ?_ inside
      have behind := behind_target_of_call chain next
      rw [startsWith_singleton] at opening
      rw [show (.mark "(" :: .mark "." :: .mark ";" :: Form.binaryOperators : Terminals) =
        [.mark "("] ++ (.mark "." :: .mark ";" :: Form.binaryOperators) from rfl,
        Terminals.allow_append, opening, Bool.false_or] at behind
      exact Terminals.not_allow_of_apart (by decide) behind
  | true =>
      obtain ⟨place, _, _, args, members, -⟩ := accepts_seq.mp (accepts_rule.mp chain)
      obtain ⟨argsStays, membersStays⟩ := stays_seq.mp (stays_rule.mp stays)
      have membersStays := membersStays place _ args
      have args := accepts_ifNext.mp args
      rw [opening, if_pos rfl] at args
      have argsStays := stays_ifNext.mp argsStays
      rw [opening, if_pos rfl] at argsStays
      -- behind the first arguments no second ones come, as an expression has no place for them
      have noMore : stream.startsWith [[.mark "("]] place = false :=
        Terminals.not_startsWith_of_apart (by decide) (behind_members members next)
      have none : Accepts stream own (Phrase.optional [.mark "("] (.rule .args)) place place
          .empty := by
        refine accepts_ifNext.mpr ?_
        rw [noMore, if_neg (by decide)]
        exact accepts_done.mpr ⟨rfl, rfl⟩
      have noneStays : Stays stream own (Phrase.optional [.mark "("] (.rule .args)) place bound :=
        ⟨_, _, .ifNextNo noMore .done, membersStays.start_le, nofun⟩
      have chainStays : Stays stream own (.rule .callChain) place bound :=
        stays_rule.mpr (noneStays.seq_of_accepted none membersStays)
      rw [startsWith_singleton] at opening
      refine stays_ifNext.mpr ?_
      rw [Terminals.not_startsWith_of_apart (by decide) opening, if_neg (by decide)]
      refine stays_ifNext.mpr ?_
      rw [Terminals.not_startsWith_of_apart (by decide) opening, if_neg (by decide)]
      refine stays_ifNext.mpr ?_
      rw [startsWith_singleton, if_pos opening]
      exact argsStays.seq_of_accepted args chainStays

/-- Where an expression is a statement, a simple statement is given up in time. -/
theorem stays_simple_of_expr {stop : Nat} {outline : Outline}
    (accepted : Accepts stream own (.seq (.rule .expr) (Phrase.mark ";")) start stop outline)
    (stays : Stays stream own (.seq (.rule .expr) (Phrase.mark ";")) start bound) :
    Stays stream own (.rule .simpleStmt) start bound := by
  obtain ⟨unaryStays, behind, _, unary, next⟩ := first_operand_of_ended accepted stays
  refine stays_rule.mpr (stays_ifNext.mpr ?_)
  rw [Terminals.not_startsWith_of_apart (by decide) (starts_unaryExpr unary), if_neg (by decide)]
  cases named : First.target.allow (stream.get start) with
  | false =>
      have refused : Refuses stream own (.rule .target) start :=
        refuses_rule.mpr (refuses_ifNext_of_other (Terminals.not_startsWith_of_within (by decide) named)
          (refuses_rule.mpr (refuses_seq_of_first
            (refuses_expect (Terminals.not_allow_of_within (by decide) named)))))
      exact (stays_target_of_other named stays.start_le).seq_of_refused refused
  | true =>
      obtain ⟨middle, _, _, target, chain, -⟩ := accepts_seq.mp (accepts_call named unary)
      obtain ⟨targetStays, chainStays⟩ := stays_seq.mp (stays_call named unaryStays)
      exact targetStays.seq_of_accepted target
        (stays_behindTarget_of_call chain (chainStays middle _ target) next)

/-! ## All alternatives -/

/-- With the semicolon behind it an alternative stays as close, unless it is not given up. -/
theorem stays_ended_of_refused {phrase : Phrase}
    (refused : Refuses stream own (.seq phrase (Phrase.mark ";")) start)
    (stays : Stays stream own phrase start bound) :
    Stays stream own (.seq phrase (Phrase.mark ";")) start bound :=
  stays_seq.mpr ⟨stays, fun _ _ accepted =>
    stays_of_refused (refused.second accepted) (stays.stop_le accepted)⟩

namespace Phrase

/-- An expression that is a statement. -/
def exprStmt : Phrase := orElse (seq (rule .expr) (mark ";")) (fail "statement")

/-- A statement that is no declaration. -/
def otherStmt : Phrase := orElse (seq (rule .simpleStmt) (mark ";")) exprStmt

/-- The alternatives, with what is read when they are given up. -/
def alternatives : List (Phrase × Phrase) :=
  [(rule .varDecl, rule .simpleStmt), (rule .varDeclStmt, otherStmt),
    (seq (rule .simpleStmt) (mark ";"), exprStmt), (seq (rule .expr) (mark ";"), fail "statement")]

/-- All alternatives are known ones, trials apart. -/
def knownAlternatives : Phrase → Bool
  | seq first second => first.knownAlternatives && second.knownAlternatives
  | orElse first second =>
      first.knownAlternatives && second.knownAlternatives && decide ((first, second) ∈ alternatives)
  | ifNext _ yes no | ifAhead _ yes no => yes.knownAlternatives && no.knownAlternatives
  | whileNext _ body | inClass body => body.knownAlternatives
  | _ => true

end Phrase

theorem Rule.body_knownAlternatives (rule : Rule) : rule.body.knownAlternatives = true := by
  cases rule with
  | declarators role | declarator role => rfl
  | binaryExpr level => cases level <;> decide
  | _ => decide

/-- An expression that is a statement has no other alternative. -/
theorem expr_of_exprStmt {stop : Nat} {outline : Outline}
    (accepted : Accepts stream own Phrase.exprStmt start stop outline)
    (stays : Stays stream own Phrase.exprStmt start bound) :
    Accepts stream own (.seq (.rule .expr) (Phrase.mark ";")) start stop outline ∧
      Stays stream own (.seq (.rule .expr) (Phrase.mark ";")) start bound := by
  refine ⟨?_, (stays_orElse stays).1⟩
  rcases accepts_orElse.mp accepted with expr | ⟨-, failed⟩
  · exact expr
  · exact absurd failed not_accepts_fail

/-- Where the next alternative can be read, the first one is given up in time. -/
theorem stays_abandoned {first second : Phrase} {stop : Nat} {outline : Outline}
    (listed : (first, second) ∈ Phrase.alternatives) (refused : Refuses stream own first start)
    (accepted : Accepts stream own second start stop outline)
    (stays : Stays stream own second start bound) : Stays stream own first start bound := by
  simp only [Phrase.alternatives, List.mem_cons, Prod.mk.injEq, List.not_mem_nil, or_false]
    at listed
  rcases listed with ⟨rfl, rfl⟩ | ⟨rfl, rfl⟩ | ⟨rfl, rfl⟩ | ⟨rfl, rfl⟩
  · exact stays_varDecl_of_simple accepted stays
  · refine stays_rule.mpr (stays_ended_of_refused (refuses_rule.mp refused) ?_)
    obtain ⟨simpleStays, rest⟩ := stays_orElse stays
    rcases accepts_orElse.mp accepted with simple | ⟨declined, other⟩
    · obtain ⟨_, _, _, simple, -, -⟩ := accepts_seq.mp simple
      exact stays_varDecl_of_simple simple (stays_seq.mp simpleStays).1
    · obtain ⟨expr, exprStays⟩ := expr_of_exprStmt other (rest declined)
      exact stays_varDecl_of_expr expr exprStays
  · obtain ⟨expr, exprStays⟩ := expr_of_exprStmt accepted stays
    exact stays_ended_of_refused refused (stays_simple_of_expr expr exprStays)
  · exact absurd accepted not_accepts_fail

/-- A reading that ends well has missed nothing behind where it stops. -/
theorem Reads.missed_le_stop {phrase : Phrase} {outcome : Outcome} {log : List Failure}
    (read : Reads stream own phrase start outcome log) (known : phrase.knownAlternatives = true)
    {stop : Nat} {outline : Outline} (well : outcome = .ok stop outline) :
    ∀ failure ∈ log, failure.position ≤ stop := by
  induction read generalizing stop outline with
  | done | expectFound | ownFound | whileStop | countEntry => exact nofun
  | expectMissing | ownMissing | fail | seqFail | whileFail | classMissing => exact nomatch well
  | rule _ ih => exact ih (Rule.body_knownAlternatives _) well
  | ifNextYes _ _ ih | ifAheadYes _ _ _ ih =>
      simp only [Phrase.knownAlternatives, Bool.and_eq_true] at known
      exact ih known.1 well
  | ifNextNo _ _ ih | ifAheadNo _ _ _ ih =>
      simp only [Phrase.knownAlternatives, Bool.and_eq_true] at known
      exact ih known.2 well
  | orElseFirst _ ih =>
      simp only [Phrase.knownAlternatives, Bool.and_eq_true] at known
      exact ih known.1.1 well
  | orElseSecond one two _ ihSecond =>
      simp only [Phrase.knownAlternatives, Bool.and_eq_true, decide_eq_true_eq] at known
      subst well
      -- only here does a reading leave failures behind and go on well
      have behind := ihSecond known.1.2 rfl
      have abandoned := stays_abandoned known.2 ⟨_, _, one⟩ ⟨_, two⟩
        ⟨_, _, two, Nat.le_refl _, behind⟩
      exact List.forall_mem_append.mpr ⟨(one.confined abandoned).missed, behind⟩
  | seqOk _ two ihFirst ihSecond =>
      simp only [Phrase.knownAlternatives, Bool.and_eq_true] at known
      obtain ⟨rest, rfl, rfl⟩ := Outcome.after_eq_ok.mp well
      exact List.forall_mem_append.mpr ⟨fun failure member =>
        Nat.le_trans (ihFirst known.1 rfl failure member) two.start_le_stop, ihSecond known.2 rfl⟩
  | whileMore _ _ rest ihBody ihRest =>
      obtain ⟨last, rfl, rfl⟩ := Outcome.after_eq_ok.mp well
      exact List.forall_mem_append.mpr ⟨fun failure member =>
        Nat.le_trans (ihBody known rfl failure member) rest.start_le_stop, ihRest known rfl⟩
  | classFound _ _ ih =>
      obtain ⟨body, rfl, rfl⟩ := Outcome.close_eq_ok.mp well
      exact ih known rfl

theorem Reads.confined_of_ok {phrase : Phrase} {stop : Nat} {outline : Outline}
    {log : List Failure} (read : Reads stream own phrase start (.ok stop outline) log)
    (known : phrase.knownAlternatives = true) : Confined stop (.ok stop outline) log :=
  ⟨Nat.le_refl _, read.missed_le_stop known rfl⟩

end ClassSyntax

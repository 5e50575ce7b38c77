import ClassSyntax.Proofs.Language.Members
import ClassSyntax.Proofs.Language.Statements

/-!
# Every word is read

All rules are exact. The argument is by induction on the length of the word and, for one length, on the
rank of the rule: what a rule enters before it takes a token has a lower rank.

* `Rule.exactOn`: every rule reads every word that is wanted from it.
* `accepts_of_derives`: the same without a bound on the length.
-/

namespace ClassSyntax

variable {stream : TokenStream} {length : Nat}

/-- A rule is exact when the rules that it may enter are. -/
theorem Rule.exact_step {rule : Rule} (rules : RulesExact stream rule.rank length) :
    rule.ExactOn stream length := by
  cases rule with
  | importDecl => exact exact_importDecl rules
  | member => exact exact_member rules
  | unknownMember => exact fun _ _ _ _ _ _ derived => absurd derived not_derives_never
  | stmt => exact exact_stmt rules
  | trialStmt => exact exact_trialStmt rules
  | ifStmt => exact exact_ifStmt rules
  | forStmt => exact exact_forStmt rules
  | jumpStmt => exact exact_jumpStmt
  | tryStmt => exact exact_tryStmt rules
  | primaryExpr => exact exact_primaryExpr rules
  | target => exact exact_target rules
  | binaryExpr level => exact exact_of_settled (by cases level <;> decide) rules
  | declarators role | declarator role => exact exact_of_settled rfl rules
  | _ => exact exact_of_settled (by decide) rules

theorem rulesExact (stream : TokenStream) (length bound : Nat) :
    RulesExact stream bound length := by
  induction length using Nat.strongRecOn generalizing bound with
  | ind length ih =>
      have shorter : ∀ less, less < length → ∀ rule : Rule, rule.ExactOn stream less :=
        fun less fewer rule => (ih less fewer 13).lower rule rule.rank_lt
      refine ⟨?_, shorter⟩
      induction bound with
      | zero => exact fun rule below => absurd below (Nat.not_lt_zero _)
      | succ bound ihBound =>
          intro rule below
          exact Rule.exact_step ⟨fun other lower => ihBound other (by omega), shorter⟩

/-- Every rule reads every word that is wanted from it. -/
theorem Rule.exactOn (rule : Rule) (stream : TokenStream) (length : Nat) :
    rule.ExactOn stream length :=
  (rulesExact stream length 13).lower rule rule.rank_lt

/-- A word of a rule is read up to its end when the reading cannot go on there. -/
theorem accepts_of_derives {rule : Rule} {own : String} {start stop : Nat} {word : List Token}
    {outline : Outline}
    (derived : Derives Nonterminal.production own rule.wanted word outline)
    (spells : Spells stream start word stop)
    (ended : rule.goesOn.allow (stream.get stop) = false) :
    Accepts stream own (.rule rule) start stop outline :=
  (rule.exactOn stream word.length).phrase (Nat.le_refl _) derived spells ended

end ClassSyntax

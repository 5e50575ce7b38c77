import ClassSyntax.Grammar.Machine

/-!
# Bounded runs

The machine with a bound on its steps. Where the bound suffices the result is that of the whole run,
so that readings of closed programs can be evaluated.
-/

namespace ClassSyntax.Machine

/-- The result of a run of fewer than so many steps, if it ends by then. -/
def within (stream : TokenStream) : Nat → Config → Option (Outcome × List Failure)
  | 0, _ => none
  | steps + 1, .reading own phrase start stack log =>
      within stream steps (enter stream own phrase start stack log)
  | steps + 1, .ended outcome (frame :: stack) log =>
      within stream steps (leave outcome frame stack log)
  | _ + 1, .ended outcome [] log => some (outcome, log.reverse)

theorem run_eq_of_within {stream : TokenStream} {config : Config}
    {result : Outcome × List Failure} (steps : Nat)
    (found : within stream steps config = some result) (halts : Halts stream config) :
    run stream config halts = result := by
  induction steps generalizing config with
  | zero => simp [within] at found
  | succ steps ih =>
      cases config with
      | reading own phrase start stack log =>
          rw [run.eq_def]
          exact ih found _
      | ended outcome stack log =>
          cases stack with
          | nil =>
              rw [run_ended]
              exact Option.some.inj found
          | cons frame stack =>
              rw [run.eq_def]
              exact ih found _

end ClassSyntax.Machine

namespace ClassSyntax.Rule

/-- The reading of a rule, if it takes fewer than so many steps. -/
def readWithin (steps : Nat) (stream : TokenStream) (own : String) (rule : Rule) (start : Nat) :
    Option (Outcome × List Failure) :=
  Machine.within stream steps (.reading own (.rule rule) start [] [])

theorem read_eq_of_readWithin {stream : TokenStream} {own : String} {rule : Rule} {start : Nat}
    {result : Outcome × List Failure} (steps : Nat)
    (found : rule.readWithin steps stream own start = some result) :
    rule.read stream own start = result :=
  Machine.run_eq_of_within steps found _

end ClassSyntax.Rule

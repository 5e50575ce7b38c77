/-!
# Durations

A number of nanoseconds in the largest unit of which it is at least one, with as many decimals as it
has.
-/

namespace ClassSyntax.Text

/-- A remainder as the decimals behind a point: filled up to `width` digits, without the zeros at its
end, and nothing when nothing remains. -/
def decimals (width remainder : Nat) : List Char :=
  let digits := Nat.toDigits 10 remainder
  let filled := List.replicate (width - digits.length) '0' ++ digits
  match (filled.reverse.dropWhile (· == '0')).reverse with
  | [] => []
  | shown => '.' :: shown

/-- `nanoseconds` in a unit of `10 ^ width` of them. -/
def inUnit (nanoseconds width : Nat) (unit : String) : String :=
  let one := Nat.pow 10 width
  toString (nanoseconds / one) ++ String.ofList (decimals width (nanoseconds % one)) ++ unit

def duration (nanoseconds : Nat) : String :=
  if Nat.pow 10 9 ≤ nanoseconds then inUnit nanoseconds 9 "s"
  else if Nat.pow 10 6 ≤ nanoseconds then inUnit nanoseconds 6 "ms"
  else if Nat.pow 10 3 ≤ nanoseconds then inUnit nanoseconds 3 "µs"
  else inUnit nanoseconds 0 "ns"

example : duration 1002500 = "1.0025ms" ∧ duration 999 = "999ns" ∧ duration 2000000000 = "2s" := by
  decide +kernel

end ClassSyntax.Text

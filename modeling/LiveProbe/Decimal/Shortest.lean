import LiveProbe.Decimal.Binary64

/-!
The shortest decimal that reads back as a given floating-point number. The reals that round to the
number form an interval; among the multiples of powers of ten in it those of the greatest power
are the shortest, and of two of them the nearer is taken.
-/
namespace LiveProbe.Decimal

structure Scaled where
  coefficient : Nat
  exponent : Int
  deriving DecidableEq, Repr

inductive Tie where
  | even
  | up
  deriving DecidableEq, Repr

/-- The interval of reals that round to `middle`, its ends and middle measured in `2 ^ power`. Its
ends belong to it if the significand is even. -/
structure Interval where
  low : Nat
  middle : Nat
  high : Nat
  power : Int
  closed : Bool

/-- The gap below a power of two is half the gap above it, the smallest one apart. -/
def interval (significand : Nat) (power : Int) : Interval where
  low := 4 * significand - (if significand = fractionSize ∧ power ≠ -1074 then 1 else 2)
  middle := 4 * significand
  high := 4 * significand + 2
  power := power - 2
  closed := significand % 2 == 0

/-- Factors `up` and `down` with `up / down = 2 ^ power / 10 ^ exponent`. -/
def ratio (power exponent : Int) : Nat × Nat :=
  (Nat.pow 2 power.toNat * Nat.pow 10 (-exponent).toNat,
    Nat.pow 2 (-power).toNat * Nat.pow 10 exponent.toNat)

def Interval.holds (i : Interval) (exponent : Int) (n : Nat) : Bool :=
  let (up, down) := ratio i.power exponent
  if i.closed then i.low * up ≤ n * down && n * down ≤ i.high * up
  else i.low * up < n * down && n * down < i.high * up

/-- Of the two multiples of a power of ten around the middle, the one in the interval, or the nearer
if both are. -/
def Interval.multiple? (i : Interval) (tie : Tie) (exponent : Int) : Option Nat :=
  let (up, down) := ratio i.power exponent
  let below := i.middle * up / down
  let rest := i.middle * up % down
  match i.holds exponent below, i.holds exponent (below + 1) with
  | true, false => some below
  | false, true => some (below + 1)
  | false, false => none
  | true, true =>
    if 2 * rest < down then some below
    else if 2 * rest > down then some (below + 1)
    else match tie with
      | .up => some (below + 1)
      | .even => some (if below % 2 = 0 then below else below + 1)

def topExponent (significand : Nat) (power : Int) : Int :=
  (significand.log2 + 2 + power) * 30103 / 100000 + 1

/-- The shortest decimal of `significand · 2 ^ power`; zero has the coefficient zero. -/
def shortest (tie : Tie) (significand : Nat) (power : Int) : Scaled :=
  if significand = 0 then ⟨0, 0⟩
  else
    let i := interval significand power
    let top := topExponent significand power
    ((List.range 40).findSome? fun (step : Nat) =>
      (i.multiple? tie (top - step)).map fun n => ⟨n, top - step⟩).getD ⟨0, 0⟩

end LiveProbe.Decimal

set_option autoImplicit false

/- The shortest decimal that reads back as a given binary fraction, in exact arithmetic. -/
namespace Tether.Decimal

/-- The number `coefficient * 10 ^ exponent`. -/
structure Scaled where
  coefficient : Nat
  exponent : Int
deriving Repr, DecidableEq

/-- The reals that round to one binary fraction, over a common denominator. The ends belong to
the interval when `closed` is set. -/
structure Interval where
  low : Nat
  value : Nat
  high : Nat
  denominator : Nat
  closed : Bool
deriving Repr

def Interval.holds (interval : Interval) (point : Nat) : Bool :=
  if interval.closed then interval.low ≤ point && point ≤ interval.high
  else interval.low < point && point < interval.high

/-- The interval of `mantissa * 2 ^ exponent`. Below a power of two the next smaller number is
half as far away, which `narrow` says. -/
def Interval.ofBinary (mantissa : Nat) (exponent : Int) (narrow : Bool) : Interval :=
  let scale := Nat.pow 2 (exponent - 2).toNat
  { low := (4 * mantissa - (if narrow then 1 else 2)) * scale
    value := 4 * mantissa * scale
    high := (4 * mantissa + 2) * scale
    denominator := Nat.pow 2 (2 - exponent).toNat
    closed := mantissa % 2 == 0 }

/-- The neighbour of the value on the grid of multiples of `10 ^ exponent` that reads back, if
either does. Of two the nearer is taken, and the larger when they are equally near. -/
def Interval.onGrid? (interval : Interval) (exponent : Int) : Option Nat :=
  let unit := interval.denominator * Nat.pow 10 exponent.toNat
  let shift := Nat.pow 10 (-exponent).toNat
  let shifted : Interval :=
    { interval with
      low := interval.low * shift, value := interval.value * shift, high := interval.high * shift }
  let below := shifted.value / unit
  let remainder := shifted.value % unit
  match shifted.holds (below * unit), shifted.holds ((below + 1) * unit) with
  | true, true => some (if 2 * remainder < unit then below else below + 1)
  | true, false => some below
  | false, true => some (below + 1)
  | false, false => none

/-- Tries ever finer grids, `steps` of them at most, from the given exponent downwards. -/
def Interval.search (interval : Interval) : Nat → Int → Scaled
  | 0, exponent => ⟨interval.value * Nat.pow 10 (-exponent).toNat / interval.denominator, exponent⟩
  | steps + 1, exponent =>
      match interval.onGrid? exponent with
      | some coefficient => ⟨coefficient, exponent⟩
      | none => interval.search steps (exponent - 1)

/-- Every binary fraction lies on the grid whose exponent is minus the power of its denominator,
so the number of grids tried is bounded by that power and the length of the whole part. -/
def Interval.shortest (interval : Interval) : Scaled :=
  let whole := (Nat.toDigits 10 (interval.value / interval.denominator)).length
  interval.search (whole + Nat.log2 interval.denominator + 1) whole

/-- Positional notation, with neither an exponent nor a trailing point. -/
def Scaled.text (number : Scaled) : String :=
  let digits := Nat.toDigits 10 number.coefficient
  if 0 ≤ number.exponent then
    String.ofList (digits ++ List.replicate number.exponent.toNat '0')
  else
    let places := (-number.exponent).toNat
    let padded := List.replicate (places + 1 - digits.length) '0' ++ digits
    let split := padded.length - places
    String.ofList (padded.take split ++ '.' :: padded.drop split)

end Tether.Decimal

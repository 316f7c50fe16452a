import Tether.Decimal.Shortest

set_option autoImplicit false

/- Double precision numbers: their exact value, their text and their remainder. -/
namespace Tether.Double

/-- The number `mantissa * 2 ^ exponent` with a sign, which zero has as well. -/
structure Binary where
  negative : Bool
  mantissa : Nat
  exponent : Int
deriving Repr, DecidableEq

inductive Content where
  | nan
  | infinite (negative : Bool)
  | finite (number : Binary)
deriving Repr, DecidableEq

def signBit (x : Float) : Bool :=
  x.toBits >>> 63 == 1

def exponentField (x : Float) : Nat :=
  (x.toBits >>> 52 &&& 0x7ff).toNat

def fractionField (x : Float) : Nat :=
  (x.toBits &&& 0xfffffffffffff).toNat

def content (x : Float) : Content :=
  let fraction := fractionField x
  match exponentField x with
  | 0x7ff => if fraction == 0 then .infinite (signBit x) else .nan
  | 0 => .finite ⟨signBit x, fraction, -1074⟩
  | field => .finite ⟨signBit x, Nat.pow 2 52 + fraction, (field : Int) - 1075⟩

/-- The double of an exactly representable number. -/
def ofBinary (number : Binary) : Float :=
  let sign : Nat := if number.negative then Nat.pow 2 63 else 0
  if number.mantissa == 0 then Float.ofBits sign.toUInt64
  else
    let exponent := max (number.exponent + Nat.log2 number.mantissa - 52) (-1074)
    let mantissa :=
      number.mantissa * Nat.pow 2 (number.exponent - exponent).toNat /
        Nat.pow 2 (exponent - number.exponent).toNat
    let magnitude :=
      if mantissa < Nat.pow 2 52 then mantissa
      else (exponent + 1075).toNat * Nat.pow 2 52 + (mantissa - Nat.pow 2 52)
    Float.ofBits (sign + magnitude).toUInt64

def nan : Float :=
  Float.ofBits 0x7ff8000000000000

/-- The nearest double, the even one of two equally near. -/
def ofInt (n : Int64) : Float :=
  Float.ofInt n.toInt

/-- The exact remainder of division truncated toward zero; it keeps the sign of the dividend. -/
def remainder (x y : Float) : Float :=
  match content x, content y with
  | .finite a, .finite b =>
      if b.mantissa == 0 then nan
      else
        let exponent := min a.exponent b.exponent
        let dividend := a.mantissa * Nat.pow 2 (a.exponent - exponent).toNat
        let divisor := b.mantissa * Nat.pow 2 (b.exponent - exponent).toNat
        ofBinary ⟨a.negative, dividend % divisor, exponent⟩
  | .finite _, .infinite _ => x
  | _, _ => nan

def signText (negative : Bool) : String :=
  if negative then "-" else ""

/-- The fewest digits that read back, always in positional notation. -/
def text (x : Float) : String :=
  match content x with
  | .nan => "NaN"
  | .infinite negative => signText negative ++ "inf"
  | .finite number =>
      if number.mantissa == 0 then signText number.negative ++ "0"
      else
        let narrow := fractionField x == 0 && exponentField x > 1
        let interval := Decimal.Interval.ofBinary number.mantissa number.exponent narrow
        signText number.negative ++ interval.shortest.text

end Tether.Double

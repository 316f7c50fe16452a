set_option autoImplicit false

/- Numbers in hexadecimal. Writing uses small letters; reading takes capital ones as well. -/
namespace Tether.Text

def hexDigits (n : Nat) : List Char :=
  Nat.toDigits 16 n

/-- A number in hexadecimal, filled with zeros to `width` digits. -/
def paddedHex (width n : Nat) : String :=
  let digits := hexDigits n
  String.ofList (List.replicate (width - digits.length) '0' ++ digits)

def hexValue? (c : Char) : Option Nat :=
  if '0' ≤ c ∧ c ≤ '9' then some (c.toNat - '0'.toNat)
  else if 'a' ≤ c ∧ c ≤ 'f' then some (c.toNat - 'a'.toNat + 10)
  else if 'A' ≤ c ∧ c ≤ 'F' then some (c.toNat - 'A'.toNat + 10)
  else none

def ofHex? (digits : List Char) : Option Nat :=
  digits.foldlM (fun number c => (hexValue? c).map (16 * number + ·)) 0

end Tether.Text

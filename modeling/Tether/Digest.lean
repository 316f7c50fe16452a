set_option autoImplicit false

/- A 64-bit digest of a byte string: four lanes absorb stripes of 32 bytes, the rest is folded in
by eights, fours and ones, and a final scramble spreads every bit. -/
namespace Tether.Digest

def prime1 : UInt64 := 0x9e3779b185ebca87
def prime2 : UInt64 := 0xc2b2ae3d27d4eb4f
def prime3 : UInt64 := 0x165667b19e3779f9
def prime4 : UInt64 := 0x85ebca77c2b2ae63
def prime5 : UInt64 := 0x27d4eb2f165667c5

def rotate (x count : UInt64) : UInt64 :=
  (x <<< count) ||| (x >>> (64 - count))

/-- Reads bytes as one number, the lowest first. -/
def littleEndian (bytes : List UInt8) : UInt64 :=
  bytes.foldr (fun byte rest => (rest <<< 8) ||| byte.toUInt64) 0

def absorb (lane word : UInt64) : UInt64 :=
  rotate (lane + word * prime2) 31 * prime1

structure Lanes where
  first : UInt64
  second : UInt64
  third : UInt64
  fourth : UInt64

def Lanes.start : Lanes :=
  ⟨prime1 + prime2, prime2, 0, 0 - prime1⟩

def Lanes.absorb (lanes : Lanes) (stripe : List UInt8) : Lanes :=
  let word (index : Nat) := littleEndian ((stripe.drop (8 * index)).take 8)
  ⟨Digest.absorb lanes.first (word 0), Digest.absorb lanes.second (word 1),
    Digest.absorb lanes.third (word 2), Digest.absorb lanes.fourth (word 3)⟩

def Lanes.combine (lanes : Lanes) : UInt64 :=
  let merge (hash lane : UInt64) := (hash ^^^ Digest.absorb 0 lane) * prime1 + prime4
  let mixed := rotate lanes.first 1 + rotate lanes.second 7 + rotate lanes.third 12 +
    rotate lanes.fourth 18
  merge (merge (merge (merge mixed lanes.first) lanes.second) lanes.third) lanes.fourth

/-- Absorbs every whole stripe and returns the bytes left over, fewer than 32. -/
def stripes (lanes : Lanes) (bytes : List UInt8) : Lanes × List UInt8 :=
  if _ : 32 ≤ bytes.length then stripes (lanes.absorb (bytes.take 32)) (bytes.drop 32)
  else (lanes, bytes)
termination_by bytes.length
decreasing_by simp only [List.length_drop]; omega

def foldByte (hash : UInt64) (byte : UInt8) : UInt64 :=
  rotate (hash ^^^ byte.toUInt64 * prime5) 11 * prime1

def foldFour (hash : UInt64) (bytes : List UInt8) : UInt64 :=
  rotate (hash ^^^ littleEndian bytes * prime1) 23 * prime2 + prime3

def foldEight (hash : UInt64) (bytes : List UInt8) : UInt64 :=
  rotate (hash ^^^ absorb 0 (littleEndian bytes)) 27 * prime1 + prime4

def foldRest (hash : UInt64) (bytes : List UInt8) : UInt64 :=
  if _ : 8 ≤ bytes.length then foldRest (foldEight hash (bytes.take 8)) (bytes.drop 8)
  else if 4 ≤ bytes.length then (bytes.drop 4).foldl foldByte (foldFour hash (bytes.take 4))
  else bytes.foldl foldByte hash
termination_by bytes.length
decreasing_by simp only [List.length_drop]; omega

def scramble (hash : UInt64) : UInt64 :=
  let hash := (hash ^^^ (hash >>> 33)) * prime2
  let hash := (hash ^^^ (hash >>> 29)) * prime3
  hash ^^^ (hash >>> 32)

def ofBytes (bytes : List UInt8) : UInt64 :=
  let (lanes, rest) := stripes Lanes.start bytes
  let start := if 32 ≤ bytes.length then lanes.combine else prime5
  scramble (foldRest (start + bytes.length.toUInt64) rest)

def ofText (text : String) : UInt64 :=
  ofBytes text.toUTF8.toList

end Tether.Digest

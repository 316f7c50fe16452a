import Tether.Digest
import Tether.Text.Quoted

set_option autoImplicit false

/- Types are known by 64-bit tags computed from their names, so built-in kinds and host types
share one space. The zero tag marks an empty slot. -/
namespace Tether

structure TypeTag where
  code : UInt64
deriving DecidableEq, Repr, Inhabited

namespace TypeTag

def ofName (name : String) : TypeTag :=
  ⟨0x2fac10b63a6cc57c ^^^ Digest.ofText name⟩

def empty : TypeTag := ⟨0⟩
def bool : TypeTag := ⟨0x1e0c8fa4cced99c1⟩
def int : TypeTag := ⟨0x4f5e5320cd1c92bf⟩
def double : TypeTag := ⟨0xeb125587f6c2a79b⟩
def string : TypeTag := ⟨0x7a8d5fb1ba695978⟩
def list : TypeTag := ⟨0xa01b4d5b9a9cf394⟩
def function : TypeTag := ⟨0xdf10f2c0c4475842⟩
def object : TypeTag := ⟨0x7453af4894759ab5⟩
def type : TypeTag := ⟨0x507fcfa206f01436⟩

def isEmpty (tag : TypeTag) : Bool :=
  tag == empty

/-- The built-in types and their names. -/
def builtins : List (TypeTag × String) :=
  [(empty, "null"), (bool, "bool"), (int, "int"), (double, "double"), (string, "string"),
    (list, "list"), (function, "function"), (object, "object"), (type, "type")]

def name? (tag : TypeTag) : Option String :=
  builtins.lookup tag

def text (tag : TypeTag) : String :=
  match tag.name? with
  | some name => name
  | none => "0x" ++ Text.paddedHex 16 tag.code.toNat

def describe (tag : TypeTag) : String :=
  "TypeHash(" ++ tag.text ++ ")"

def isNumeric (tag : TypeTag) : Bool :=
  tag == int || tag == double

/-- Types whose values are never null. -/
def isValueType (tag : TypeTag) : Bool :=
  tag == bool || tag == int || tag == double

def positionMarkers : Array UInt64 := #[
  0x9e3779b97f4a7c15, 0xbf58476d1ce4e5b9, 0x94d049bb133111eb, 0xd6e8feb86659fd93,
  0xe7037ed1a0b428db, 0xc6a4a7935bd1e995, 0x8648dbbc94d49b8d, 0xa2b48b2c69e0d657,
  0x7c3e9f2a5b8d1403, 0x5d8c7b4a3e9f2106, 0x3f1e9d8c7b5a4203, 0x1a2b3c4d5e6f7089,
  0x9f8e7d6c5b4a3210, 0x2468ace013579bdf, 0xfdb97531eca86420, 0x123456789abcdef0]

/-- The marker mixed into the tag at a position; past the table it counts on from the first. -/
def positionMarker (position : Nat) : UInt64 :=
  positionMarkers.getD position (0x9e3779b97f4a7c15 + position.toUInt64)

/-- Extends the digest of the types before `position`. -/
def foldSequence (hash : UInt64) (position : Nat) : List TypeTag → UInt64
  | [] => hash
  | tag :: rest =>
      foldSequence (hash * 0x4bc94d6bd06053ad + (positionMarker position ^^^ tag.code))
        (position + 1) rest

/-- One tag for an ordered sequence of types. -/
def ofSequence (tags : List TypeTag) : TypeTag :=
  ⟨foldSequence 0x6b1d3c5f8e2a9047 0 tags⟩

end TypeTag

end Tether

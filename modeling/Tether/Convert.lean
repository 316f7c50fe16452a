import Tether.Error
import Tether.Value

set_option autoImplicit false

/- Converting a value to a declared type, and reading it as a plain datum. -/
namespace Tether.Value

def mismatch (expected : String) (value : Value) : EvalError :=
  .typeMismatch expected value.typeName

/-- A value keeps its type or becomes `object` unchanged, an integer widens to a double, and null
passes for every type that is not a value type. -/
def convert (value : Value) (tag : TypeTag) : Except EvalError Value :=
  if tag == .object || value.tag == tag then .ok value
  else
    match value with
    | .int number =>
        if tag == .double then .ok (.double (Double.ofInt number))
        else .error (mismatch tag.text value)
    | .null => if tag.isValueType then .error (mismatch tag.text value) else .ok .null
    | _ => .error (mismatch tag.text value)

/-- A kind of fixed-width integer: its name and the numbers it holds. -/
structure IntegerKind where
  name : String
  least : Int
  greatest : Int

namespace IntegerKind

def signed (width : Nat) : IntegerKind :=
  ⟨s!"i{width}", -(Int.pow 2 (width - 1)), Int.pow 2 (width - 1) - 1⟩

def unsigned (width : Nat) : IntegerKind :=
  ⟨s!"u{width}", 0, Int.pow 2 width - 1⟩

def size : IntegerKind :=
  ⟨"usize", 0, Int.pow 2 64 - 1⟩

def all : List IntegerKind :=
  size :: [8, 16, 32, 64].flatMap fun width => [signed width, unsigned width]

end IntegerKind

def toInteger (kind : IntegerKind) : Value → Except EvalError Int
  | .int number =>
      if kind.least ≤ number.toInt ∧ number.toInt ≤ kind.greatest then .ok number.toInt
      else .error (.typeMismatch kind.name ("int " ++ toString number.toInt))
  | value => .error (mismatch kind.name value)

def toDouble (value : Value) : Except EvalError Float :=
  match value.asDouble? with
  | some number => .ok number
  | none => .error (mismatch "double" value)

def toBool (value : Value) : Except EvalError Bool :=
  match value.asBool? with
  | some flag => .ok flag
  | none => .error (mismatch "bool" value)

def toText (value : Value) : Except EvalError String :=
  match value.asString? with
  | some text => .ok text
  | none => .error (mismatch "string" value)

/-- Null reads as nothing, whatever the datum. -/
def toOption {α : Type} (read : Value → Except EvalError α) (value : Value) :
    Except EvalError (Option α) :=
  if value.isNull then .ok none else (read value).map some

end Tether.Value

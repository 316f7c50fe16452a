import Tether.Table
import Tether.Value

set_option autoImplicit false

/- Notes that travel with a compilation or a call: named values of three kinds, which are kept
apart when they are read. -/
namespace Tether

inductive Datum where
  | bool (flag : Bool)
  | string (text : String)
  | int (number : Int64)
deriving DecidableEq, Repr

def Datum.toValue : Datum → Value
  | .bool flag => .bool flag
  | .string text => .string text
  | .int number => .int number

abbrev Metadata := Table String Datum

namespace Metadata

def getBool? (metadata : Metadata) (key : String) : Option Bool :=
  match metadata.get? key with
  | some (.bool flag) => some flag
  | _ => none

def getString? (metadata : Metadata) (key : String) : Option String :=
  match metadata.get? key with
  | some (.string text) => some text
  | _ => none

def getInt? (metadata : Metadata) (key : String) : Option Int64 :=
  match metadata.get? key with
  | some (.int number) => some number
  | _ => none

/-- The entry as a value, null when there is none. -/
def valueOf (metadata : Metadata) (key : String) : Value :=
  match metadata.get? key with
  | some datum => datum.toValue
  | none => .null

/-- Names the keys in order. -/
def describe (metadata : Metadata) : String :=
  let keys := metadata.keys.mergeSort (fun left right => left ≤ right)
  "MetadataContext \x7b keys: [" ++ ", ".intercalate (keys.map Text.quoted) ++ "] \x7d"

/-- How a key is shown on its own. -/
def describeKey (key : String) : String :=
  "MetadataKey(" ++ key ++ ")"

end Metadata

end Tether

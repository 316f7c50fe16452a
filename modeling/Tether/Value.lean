import Tether.Double
import Tether.TypeTag

set_option autoImplicit false

/- Values that flow through expressions. Objects and functions are handles: what they do is
kept elsewhere, and two of them are equal exactly when they are the same one. -/
namespace Tether

/-- A host object, known by its number. -/
structure ObjectRef where
  id : Nat
  name : String
  typeName : String
  tag : TypeTag
deriving DecidableEq, Repr

/-- A function, known by its number. -/
structure FunctionRef where
  id : Nat
  arity : Nat
deriving DecidableEq, Repr

inductive Value where
  | null
  | bool (flag : Bool)
  | int (number : Int64)
  | double (number : Float)
  | string (text : String)
  | list (items : List Value)
  | object (handle : ObjectRef)
  | function (handle : FunctionRef)
deriving Inhabited

namespace Value

def tag : Value → TypeTag
  | .null => .empty
  | .bool _ => .bool
  | .int _ => .int
  | .double _ => .double
  | .string _ => .string
  | .list _ => .list
  | .object handle => handle.tag
  | .function _ => .function

def typeName : Value → String
  | .object handle => handle.typeName
  | value => value.tag.text

def isNull : Value → Bool
  | .null => true
  | _ => false

def asBool? : Value → Option Bool
  | .bool flag => some flag
  | _ => none

def asInt? : Value → Option Int64
  | .int number => some number
  | _ => none

/-- Integers count as doubles too. -/
def asDouble? : Value → Option Float
  | .int number => some (Double.ofInt number)
  | .double number => some number
  | _ => none

def asString? : Value → Option String
  | .string text => some text
  | _ => none

def asList? : Value → Option (List Value)
  | .list items => some items
  | _ => none

def asObject? : Value → Option ObjectRef
  | .object handle => some handle
  | _ => none

def asFunction? : Value → Option FunctionRef
  | .function handle => some handle
  | _ => none

mutual

/-- Equality as expressions see it: an integer equals the double it widens to, no NaN equals
anything, and handles are compared by identity. -/
def equals : Value → Value → Bool
  | .null, .null => true
  | .bool left, .bool right => left == right
  | .int left, .int right => left == right
  | .double left, .double right => left == right
  | .int left, .double right => Double.ofInt left == right
  | .double left, .int right => Double.ofInt right == left
  | .string left, .string right => left == right
  | .list left, .list right => equalsAll left right
  | .object left, .object right => left.id == right.id
  | .function left, .function right => left.id == right.id
  | _, _ => false

def equalsAll : List Value → List Value → Bool
  | [], [] => true
  | left :: lefts, right :: rights => left.equals right && equalsAll lefts rights
  | _, _ => false

end

mutual

/-- The text of a value for people, empty for null. -/
def text : Value → String
  | .null => ""
  | .bool flag => if flag then "true" else "false"
  | .int number => toString number.toInt
  | .double number => Double.text number
  | .string text => text
  | .list items => "[" ++ ", ".intercalate (texts items) ++ "]"
  | .object handle => handle.typeName
  | .function _ => "<function>"

def texts : List Value → List String
  | [] => []
  | item :: items => item.text :: texts items

end

mutual

/-- The text of a value for diagnosis, which shows its kind. -/
def describe : Value → String
  | .null => "Null"
  | .bool flag => "Bool(" ++ (if flag then "true" else "false") ++ ")"
  | .int number => "Int(" ++ toString number.toInt ++ ")"
  | .double number => "Double(" ++ Double.text number ++ ")"
  | .string text => "String(" ++ Text.quoted text ++ ")"
  | .list items => "[" ++ ", ".intercalate (describeAll items) ++ "]"
  | .object handle => "Object(Host(" ++ handle.name ++ "))"
  | .function handle => "Function(arity=" ++ toString handle.arity ++ ")"

def describeAll : List Value → List String
  | [] => []
  | item :: items => item.describe :: describeAll items

end

/-- The text of a value as it stands in source: null by name, strings in quotes. -/
def literal : Value → String
  | .null => "null"
  | .string text => Text.quoted text
  | value => value.text

end Value

/-- What a call supplies for one slot: a value and the type declared for it. An empty type marks
an empty slot. -/
structure Argument where
  tag : TypeTag
  value : Value

namespace Argument

def ofValue (value : Value) : Argument :=
  ⟨value.tag, value⟩

def empty : Argument :=
  ⟨.empty, .null⟩

def isEmpty (argument : Argument) : Bool :=
  argument.tag.isEmpty

def equals (left right : Argument) : Bool :=
  left.tag == right.tag && left.value.equals right.value

def describe (argument : Argument) : String :=
  "ParameterValue \x7b ty: " ++ argument.tag.describe ++ ", value: " ++ argument.value.describe ++
    " \x7d"

end Argument

end Tether

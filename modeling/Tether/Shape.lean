import Tether.Value

set_option autoImplicit false

/- The types of an argument list. One argument has a form of its own. -/
namespace Tether

inductive Shape where
  | single (tag : TypeTag)
  | sequence (tags : List TypeTag)
deriving DecidableEq, Repr

namespace Shape

def ofTypes : List TypeTag → Shape
  | [tag] => .single tag
  | tags => .sequence tags

def ofArguments (arguments : List Argument) : Shape :=
  ofTypes (arguments.map Argument.tag)

def types : Shape → List TypeTag
  | .single tag => [tag]
  | .sequence tags => tags

def size (shape : Shape) : Nat :=
  shape.types.length

def isEmpty (shape : Shape) : Bool :=
  shape.types.isEmpty

/-- The number that stands for the shape where shapes are hashed. -/
def hash (shape : Shape) : UInt64 :=
  (TypeTag.ofSequence shape.types).code

def describe : Shape → String
  | .single tag => "Single(" ++ tag.describe ++ ")"
  | .sequence tags => "Sequence([" ++ ", ".intercalate (tags.map TypeTag.describe) ++ "])"

end Shape

end Tether

import Tether.Access

set_option autoImplicit false

/- Paths of members and items, their text, and reading along them. -/
namespace Tether

inductive Segment where
  | member (name : String)
  | index (arguments : List Value)

abbrev Path := List Segment

namespace Path

/-- The text of a path after one more segment. A point stands before a member unless nothing
comes before it. -/
def extendText (text : String) : Segment → String
  | .member name => if text.isEmpty then name else text ++ "." ++ name
  | .index arguments => text ++ "[" ++ ", ".intercalate (arguments.map Value.literal) ++ "]"

def text (path : Path) : String :=
  path.foldl extendText ""

def readSegment {κ : Type} (call : Caller κ) (value : Value) : Segment → Eval κ Value
  | .member name => value.member call name
  | .index arguments => value.item call arguments

/-- What stands at the end of the path, starting from a value. -/
def read {κ : Type} (call : Caller κ) (start : Value) (path : Path) : Eval κ Value :=
  path.foldlM (readSegment call) start

end Path

end Tether

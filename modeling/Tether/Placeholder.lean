import Tether.Value

set_option autoImplicit false

/- Placeholders stand for values that each call supplies: a path of members and items read from
some root. -/
namespace Tether

/-- The kinds of expression nodes. -/
inductive Kind where
  | constant
  | member
  | index
  | call
  | unary
  | binary
  | condition
  | lambda
  | parameter
  | placeholder
deriving DecidableEq, Repr

namespace Kind

def name : Kind → String
  | .constant => "Constant"
  | .member => "Member"
  | .index => "Index"
  | .call => "MethodCall"
  | .unary => "Unary"
  | .binary => "Binary"
  | .condition => "Condition"
  | .lambda => "Lambda"
  | .parameter => "Parameter"
  | .placeholder => "BindingMember"

def all : List Kind :=
  [.constant, .member, .index, .call, .unary, .binary, .condition, .lambda, .parameter,
    .placeholder]

def ofName? (text : String) : Option Kind :=
  all.find? (·.name == text)

end Kind

/-- How a placeholder's owner is meant to watch it. -/
structure MemberFlags where
  observable : Bool := false
  observableMethods : Bool := false
  optional : Bool := false
  stablePath : Bool := false
  target : Bool := false
deriving DecidableEq, Repr

namespace MemberFlags

/-- The flags as the bits of a number, `observable` the lowest. -/
def toNat (flags : MemberFlags) : Nat :=
  flags.observable.toNat + 2 * flags.observableMethods.toNat + 4 * flags.optional.toNat +
    8 * flags.stablePath.toNat + 16 * flags.target.toNat

def ofNat (bits : Nat) : MemberFlags :=
  ⟨bits.testBit 0, bits.testBit 1, bits.testBit 2, bits.testBit 3, bits.testBit 4⟩

def names (flags : MemberFlags) : List String :=
  [(flags.observable, "OBSERVABLE"), (flags.observableMethods, "OBSERVABLE_METHODS"),
    (flags.optional, "OPTIONAL"), (flags.stablePath, "STABLE_PATH"),
    (flags.target, "TARGET")].filterMap fun (set, name) => if set then some name else none

def describe (flags : MemberFlags) : String :=
  let names := flags.names
  "MemberFlags(" ++ (if names.isEmpty then "0x0" else " | ".intercalate names) ++ ")"

end MemberFlags

/-- Where a path starts. -/
inductive Root where
  | target
  | source
  | static (name : String) (tag : TypeTag) (statics : Value)
  | resource (name : String) (value : Value)

/-- What tells two roots apart. -/
inductive RootKey where
  | target
  | source
  | static (tag : TypeTag)
  | resource (name : String)
deriving DecidableEq, Repr

def RootKey.describe : RootKey → String
  | .target => "Target"
  | .source => "Source"
  | .static tag => "Static(" ++ tag.describe ++ ")"
  | .resource name => "Resource(" ++ Text.quoted name ++ ")"

namespace Root

def key : Root → RootKey
  | .target => .target
  | .source => .source
  | .static _ tag _ => .static tag
  | .resource name _ => .resource name

def text : Root → String
  | .target => "$target"
  | .source => "$source"
  | .static name _ _ => "$" ++ name
  | .resource name _ => "$" ++ name

end Root

/-- A root followed by a path, with a point between them where the path asks for one. -/
def rootedPath (root path : String) : String :=
  if path.isEmpty then root
  else if path.startsWith "[" then root ++ path
  else root ++ "." ++ path

structure Placeholder where
  path : String
  root : Root
  flags : MemberFlags
  kind : Kind
  method : Option String := none

/-- Placeholders with equal keys stand for the same value. -/
structure PlaceholderKey where
  path : String
  method : Option String
  flags : MemberFlags
  root : RootKey
  kind : Kind
deriving DecidableEq, Repr

namespace Placeholder

def key (member : Placeholder) : PlaceholderKey :=
  ⟨member.path, member.method, member.flags, member.root.key, member.kind⟩

def text (member : Placeholder) : String :=
  rootedPath member.root.text member.path

def describe (member : Placeholder) (index : Int) : String :=
  let method :=
    match member.method with
    | some name => "Some(" ++ Text.quoted name ++ ")"
    | none => "None"
  "BindingMemberNode \x7b index: " ++ toString index ++ ", path: " ++ Text.quoted member.path ++
    ", root: " ++ member.root.key.describe ++ ", flags: " ++ member.flags.describe ++
    ", method_name: " ++ method ++ " \x7d"

end Placeholder

end Tether

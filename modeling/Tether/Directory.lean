import Tether.Table
import Tether.Value

set_option autoImplicit false

/- The types and resources that expressions may name as roots. -/
namespace Tether

/-- A type with its static members. -/
structure NamedType where
  name : String
  tag : TypeTag
  statics : Value

/-- The type whose static members an object holds. -/
def NamedType.ofObject (name : String) (statics : ObjectRef) : NamedType :=
  ⟨name, statics.tag, .object statics⟩

structure Directory where
  types : Table String NamedType := {}
  resources : Table String Value := {}

namespace Directory

def register (directory : Directory) (type : NamedType) : Directory :=
  { directory with types := directory.types.insert type.name type }

def addResource (directory : Directory) (name : String) (value : Value) : Directory :=
  { directory with resources := directory.resources.insert name value }

def ofLists (types : List NamedType) (resources : List (String × Value)) : Directory :=
  resources.foldl (fun directory (name, value) => directory.addResource name value)
    (types.foldl register {})

end Directory

end Tether

import Tether.Expr.Traversal
import Tether.Table

set_option autoImplicit false

/- Slots of placeholders. A slot belongs to the node, so every tree that shares the node sees it
change; a negative slot is none. -/
namespace Tether

abbrev Slots := NodeId → Int

namespace Slots

def none : Slots := fun _ => -1

def assign (slots : Slots) (id : NodeId) (slot : Int) : Slots :=
  fun other => if other = id then slot else slots other

end Slots

/-- Placeholders in the order in which their keys were first met, each with the node it was met
in. -/
structure Numbering where
  members : List (NodeId × Placeholder) := []
  positions : Table PlaceholderKey Nat := {}

namespace Numbering

/-- There are no more slots than this. -/
def capacity : Nat := Nat.pow 2 31

/-- Finds the position of a placeholder's key, or gives it the next one while there is one. -/
def position? (numbering : Numbering) (id : NodeId) (reference : Placeholder) :
    Option (Nat × Numbering) :=
  match numbering.positions.get? reference.key with
  | some known => some (known, numbering)
  | none =>
      let next := numbering.members.length
      if next < capacity then
        some (next,
          { members := numbering.members ++ [(id, reference)]
            positions := numbering.positions.insert reference.key next })
      else none

/-- Numbers one placeholder and assigns the number to its node. Past the last slot the node
keeps the slot it has. -/
def visit (state : Numbering × Slots) (found : NodeId × Placeholder) : Numbering × Slots :=
  match state.1.position? found.1 found.2 with
  | some (position, numbering) => (numbering, state.2.assign found.1 position)
  | none => state

/-- Numbers the placeholders of an expression in preorder. -/
def collect (numbering : Numbering) (slots : Slots) (expr : Expr) : Numbering × Slots :=
  let watch (node : Expr) : StateM (Numbering × Slots) Unit :=
    match node.placeholder? with
    | some reference => modify (visit · (node.id, reference))
    | none => pure ()
  ((expr.survey watch).run (numbering, slots)).2

end Numbering

end Tether

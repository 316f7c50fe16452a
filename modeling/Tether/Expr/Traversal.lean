import Tether.Expr.Basic

set_option autoImplicit false

/- Walking a tree and replacing nodes. A subtree in which nothing was replaced stays the same
subtree, identity included. -/
namespace Tether

inductive Order where
  | preorder
  | postorder
deriving DecidableEq, Repr

namespace Expr

variable {m : Type → Type} [Monad m]

/-- Replaces the children of a node by what their computations return, in order. The node stays
itself when every child does; otherwise it is made anew. -/
def rebuild (fresh : m NodeId) (id : NodeId) (node : Node (Expr × m Expr)) : m Expr := do
  let current := node.map Prod.fst
  let results ← node.children.mapM Prod.snd
  if results.map Expr.id == current.children.map Expr.id then
    pure (.mk id current)
  else
    match current.withChildren? results with
    | some rebuilt => return .mk (← fresh) rebuilt
    | none => pure (.mk id current)

/-- Offers every node to `visit`, parents first, along with computations that walk its children.
A node that `visit` answers with another is replaced by it as a whole; below any other the walk
goes on. -/
def descend (fresh : m NodeId) (visit : NodeId → Node (Expr × m Expr) → m Expr) : Expr → m Expr :=
  para fun id node => do
    let visited ← visit id node
    if visited.id != id then pure visited else rebuild fresh id node

/-- Offers every node to `visit`: before its children, or after them and already rebuilt. -/
def accept (fresh : m NodeId) (order : Order) (visit : Expr → m Expr) : Expr → m Expr :=
  match order with
  | .preorder => descend fresh fun id node => visit (.mk id (node.map Prod.fst))
  | .postorder => para fun id node => do visit (← rebuild fresh id node)

/-- Shows every node to `watch`, parents first. Nothing is replaced, so that no identity is ever
asked for. -/
def survey (watch : Expr → m Unit) (expr : Expr) : m Unit := do
  let _ ← expr.accept (pure 0) .preorder fun node => do
    watch node
    pure node

end Expr

end Tether

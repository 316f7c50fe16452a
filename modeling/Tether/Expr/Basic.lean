import Tether.Operator
import Tether.Placeholder

set_option autoImplicit false

/- Expression trees. Every node has an identity of its own, so that a tree can say which of its
parts it shares with another. -/
namespace Tether

/-- The identity of a node. -/
abbrev NodeId := Nat

/-- One node over children of type `α`. A member, item or method without a target belongs to the
default root. -/
inductive Node (α : Type) where
  | constant (value : Value)
  | member (target : Option α) (name : String)
  | index (target : Option α) (arguments : List α)
  | call (target : Option α) (method : String) (arguments : List α)
  | unary (op : UnaryOp) (operand : α)
  | binary (op : BinaryOp) (left right : α)
  | condition (test whenTrue whenFalse : α)
  | lambda (parameters : List String) (body : α)
  | parameter (name : String)
  | placeholder (reference : Placeholder)

namespace Node

variable {α β : Type}

def map (f : α → β) : Node α → Node β
  | .constant value => .constant value
  | .member target name => .member (target.map f) name
  | .index target arguments => .index (target.map f) (arguments.map f)
  | .call target method arguments => .call (target.map f) method (arguments.map f)
  | .unary op operand => .unary op (f operand)
  | .binary op left right => .binary op (f left) (f right)
  | .condition test whenTrue whenFalse => .condition (f test) (f whenTrue) (f whenFalse)
  | .lambda parameters body => .lambda parameters (f body)
  | .parameter name => .parameter name
  | .placeholder reference => .placeholder reference

/-- The children in the order in which they are evaluated. -/
def children : Node α → List α
  | .constant _ => []
  | .member target _ => target.toList
  | .index target arguments => target.toList ++ arguments
  | .call target _ arguments => target.toList ++ arguments
  | .unary _ operand => [operand]
  | .binary _ left right => [left, right]
  | .condition test whenTrue whenFalse => [test, whenTrue, whenFalse]
  | .lambda _ body => [body]
  | .parameter _ => []
  | .placeholder _ => []

/-- Puts replacements over a list from its start; where they run out the list stays. -/
def overlay (items replacements : List α) : List α :=
  replacements.take items.length ++ items.drop replacements.length

/-- The same node over other children. A missing child stays, a surplus one is dropped, and a
node that never has children gives nothing. -/
def withChildren? (node : Node α) (children : List α) : Option (Node α) :=
  match node with
  | .member target name => some (.member (target.map (children.getD 0)) name)
  | .index target arguments =>
      some (.index (target.map (children.getD 0))
        (overlay arguments (children.drop target.toList.length)))
  | .call target method arguments =>
      some (.call (target.map (children.getD 0)) method
        (overlay arguments (children.drop target.toList.length)))
  | .unary op operand => some (.unary op (children.getD 0 operand))
  | .binary op left right => some (.binary op (children.getD 0 left) (children.getD 1 right))
  | .condition test whenTrue whenFalse =>
      some (.condition (children.getD 0 test) (children.getD 1 whenTrue)
        (children.getD 2 whenFalse))
  | .lambda parameters body => some (.lambda parameters (children.getD 0 body))
  | .constant _ | .parameter _ | .placeholder _ => none

def kind : Node α → Kind
  | .constant _ => .constant
  | .member _ _ => .member
  | .index _ _ => .index
  | .call _ _ _ => .call
  | .unary _ _ => .unary
  | .binary _ _ _ => .binary
  | .condition _ _ _ => .condition
  | .lambda _ _ => .lambda
  | .parameter _ => .parameter
  | .placeholder _ => .placeholder

end Node

inductive Expr where
  | mk (id : NodeId) (node : Node Expr)

namespace Expr

def id : Expr → NodeId
  | .mk id _ => id

def node : Expr → Node Expr
  | .mk _ node => node

def children (expr : Expr) : List Expr :=
  expr.node.children

def kind (expr : Expr) : Kind :=
  expr.node.kind

def constant? (expr : Expr) : Option Value :=
  match expr.node with
  | .constant value => some value
  | _ => none

def placeholder? (expr : Expr) : Option Placeholder :=
  match expr.node with
  | .placeholder reference => some reference
  | _ => none

/-- Induction over trees with one case for each kind of node. -/
@[elab_as_elim]
theorem induct {motive : Expr → Prop}
    (constant : ∀ id value, motive (.mk id (.constant value)))
    (name : ∀ id name, motive (.mk id (.member none name)))
    (member : ∀ id target name, motive target → motive (.mk id (.member (some target) name)))
    (index : ∀ id target arguments, (∀ owner ∈ target, motive owner) →
      (∀ argument ∈ arguments, motive argument) → motive (.mk id (.index target arguments)))
    (call : ∀ id target method arguments, (∀ owner ∈ target, motive owner) →
      (∀ argument ∈ arguments, motive argument) → motive (.mk id (.call target method arguments)))
    (unary : ∀ id op operand, motive operand → motive (.mk id (.unary op operand)))
    (binary : ∀ id op left right, motive left → motive right →
      motive (.mk id (.binary op left right)))
    (condition : ∀ id test whenTrue whenFalse, motive test → motive whenTrue → motive whenFalse →
      motive (.mk id (.condition test whenTrue whenFalse)))
    (lambda : ∀ id parameters body, motive body → motive (.mk id (.lambda parameters body)))
    (parameter : ∀ id name, motive (.mk id (.parameter name)))
    (placeholder : ∀ id reference, motive (.mk id (.placeholder reference)))
    (expr : Expr) : motive expr := by
  refine @Expr.rec motive (fun node => ∀ id, motive (.mk id node))
    (fun target => ∀ owner ∈ target, motive owner)
    (fun arguments => ∀ argument ∈ arguments, motive argument)
    ?_ ?_ ?_ ?_ ?_ ?_ ?_ ?_ ?_ ?_ ?_ ?_ ?_ ?_ ?_ expr
  · exact fun id node made => made id
  · exact fun value id => constant id value
  · intro target found ih id
    cases target with
    | none => exact name id found
    | some target => exact member id target found (ih target rfl)
  · exact fun target arguments owners ih id => index id target arguments owners ih
  · exact fun target method arguments owners ih id => call id target method arguments owners ih
  · exact fun op operand ih id => unary id op operand ih
  · exact fun op left right first second id => binary id op left right first second
  · exact fun test whenTrue whenFalse first second third id =>
      condition id test whenTrue whenFalse first second third
  · exact fun parameters body ih id => lambda id parameters body ih
  · exact fun found id => parameter id found
  · exact fun reference id => placeholder id reference
  · exact fun owner found => nomatch found
  · intro target ih owner found
    cases found
    exact ih
  · exact fun argument found => nomatch found
  · intro first rest head tail argument found
    cases found with
    | head => exact head
    | tail _ found => exact tail argument found

section Recursion

variable {α : Type} (step : NodeId → Node (Expr × α) → α)

mutual

/-- Computes a result for every node from the node's children and their results. -/
def para : Expr → α
  | .mk id node => step id (paraNode node)

def paraNode : Node Expr → Node (Expr × α)
  | .constant value => .constant value
  | .member target name => .member (paraOption target) name
  | .index target arguments => .index (paraOption target) (paraList arguments)
  | .call target method arguments => .call (paraOption target) method (paraList arguments)
  | .unary op operand => .unary op (operand, para operand)
  | .binary op left right => .binary op (left, para left) (right, para right)
  | .condition test whenTrue whenFalse =>
      .condition (test, para test) (whenTrue, para whenTrue) (whenFalse, para whenFalse)
  | .lambda parameters body => .lambda parameters (body, para body)
  | .parameter name => .parameter name
  | .placeholder reference => .placeholder reference

def paraOption : Option Expr → Option (Expr × α)
  | none => none
  | some expr => some (expr, para expr)

def paraList : List Expr → List (Expr × α)
  | [] => []
  | expr :: rest => (expr, para expr) :: paraList rest

end

theorem paraOption_eq (target : Option Expr) :
    paraOption step target = target.map fun expr => (expr, para step expr) := by
  cases target <;> rfl

theorem paraList_eq (arguments : List Expr) :
    paraList step arguments = arguments.map fun expr => (expr, para step expr) := by
  induction arguments with
  | nil => rfl
  | cons expr rest ih => simp only [paraList, List.map_cons, ih]

theorem paraNode_eq (node : Node Expr) :
    paraNode step node = node.map fun expr => (expr, para step expr) := by
  cases node <;> simp only [paraNode, Node.map, paraOption_eq, paraList_eq]

theorem para_mk (id : NodeId) (node : Node Expr) :
    para step (.mk id node) = step id (node.map fun expr => (expr, para step expr)) := by
  rw [para, paraNode_eq]

end Recursion

/-- Computes a result for every node from the results of its children. -/
def fold {α : Type} (step : NodeId → Node α → α) : Expr → α :=
  para fun id node => step id (node.map Prod.snd)

/-- The node and everything below it, parents before children and left before right. -/
def preorder : Expr → List Expr :=
  para fun id node =>
    .mk id (node.map Prod.fst) :: (node.children.map Prod.snd).flatten

/-- The placeholders of a tree with the nodes they stand in, in preorder. -/
def placeholders (expr : Expr) : List (NodeId × Placeholder) :=
  expr.preorder.filterMap fun node => node.placeholder?.map fun reference => (node.id, reference)

end Expr

end Tether

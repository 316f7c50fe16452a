import Tether.Expr.Basic

set_option autoImplicit false

/- The text of an expression, and equality of expressions as trees. -/
namespace Tether

/-- The text of a node from the texts of its children. -/
def Node.text : Node String → String
  | .constant value => value.literal
  | .member (some target) name => target ++ "." ++ name
  | .member none name => name
  | .index target arguments => target.getD "" ++ "[" ++ ", ".intercalate arguments ++ "]"
  | .call target method arguments =>
      let owner :=
        match target with
        | some target => target ++ "."
        | none => ""
      owner ++ method ++ "(" ++ ", ".intercalate arguments ++ ")"
  | .unary op operand => op.symbol ++ operand
  | .binary op left right => "(" ++ left ++ " " ++ op.symbol ++ " " ++ right ++ ")"
  | .condition test whenTrue whenFalse =>
      "(" ++ test ++ " ? " ++ whenTrue ++ " : " ++ whenFalse ++ ")"
  | .lambda parameters body => "(" ++ ", ".intercalate parameters ++ ") => " ++ body
  | .parameter name => name
  | .placeholder reference => reference.text

namespace Expr

def text : Expr → String :=
  fold fun _ => Node.text

def matchTarget (left : Option (Expr → Bool)) (right : Option Expr) : Bool :=
  match left, right with
  | none, none => true
  | some left, some right => left right
  | _, _ => false

def matchAll : List (Expr → Bool) → List Expr → Bool
  | [], [] => true
  | left :: lefts, right :: rights => left right && matchAll lefts rights
  | _, _ => false

/-- Equality as trees, whatever the identities: placeholders are equal when they have one slot
and one path. -/
def equals (slot : NodeId → Int) : Expr → Expr → Bool :=
  fold fun id node other =>
    match node, other.node with
    | .constant left, .constant right => left.equals right
    | .member target name, .member target' name' => name == name' && matchTarget target target'
    | .index target arguments, .index target' arguments' =>
        matchTarget target target' && matchAll arguments arguments'
    | .call target method arguments, .call target' method' arguments' =>
        method == method' && matchTarget target target' && matchAll arguments arguments'
    | .unary op operand, .unary op' operand' => op == op' && operand operand'
    | .binary op left right, .binary op' left' right' => op == op' && left left' && right right'
    | .condition test whenTrue whenFalse, .condition test' whenTrue' whenFalse' =>
        test test' && whenTrue whenTrue' && whenFalse whenFalse'
    | .lambda parameters body, .lambda parameters' body' =>
        parameters == parameters' && body body'
    | .parameter name, .parameter name' => name == name'
    | .placeholder member, .placeholder member' =>
        slot id == slot other.id && member.path == member'.path
    | _, _ => false

end Expr

end Tether

import Tether.Access
import Tether.Arithmetic
import Tether.Metadata

set_option autoImplicit false

/- Code that an expression compiles to, and its evaluation in a frame. -/
namespace Tether

/-- What code can read: the values of the call's slots, the call's metadata, and the arguments of
the enclosing lambdas, outermost first. -/
structure Frame where
  slots : List Value := []
  metadata : Option Metadata := none
  locals : List Value := []

namespace Frame

/-- Slots that do not exist hold null. -/
def slot (frame : Frame) (index : Nat) : Value :=
  frame.slots.getD index .null

def localAt (frame : Frame) (index : Nat) : Value :=
  frame.locals.getD index .null

end Frame

mutual

/-- The binary operators come in the forms that static types select. Code that a builder brings
along is `custom`, and does in each frame what its script says. -/
inductive Code where
  | constant (value : Value)
  | slot (index : Nat) (tag : TypeTag)
  | localAt (index : Nat)
  | unary (op : UnaryOp) (operand : Code)
  | logical (stopOn : Bool) (left right : Code)
  | coalesce (left right : Code)
  | compare (op : BinaryOp) (left right : Code)
  | intBinary (op : BinaryOp) (left right : Code)
  | doubleBinary (op : BinaryOp) (left right : Code)
  | concat (left right : Code)
  | binary (op : BinaryOp) (left right : Code)
  | condition (test whenTrue whenFalse : Code)
  | member (target : Code) (name : String)
  | index (target : Code) (arguments : List Code)
  | call (target : Code) (method : String) (arguments : List Code)
  | lambda (arity : Nat) (body : Code)
  | custom (script : Frame → Script)

/-- What custom code does: it makes remarks, evaluates other code, in any frame and as often as it
likes, goes by what comes of that, failures included, and ends with a result of its own. Whatever
can be asked of a value is code on a constant, and functions are made by the code of lambdas. -/
inductive Script where
  | done (result : Except EvalError Value)
  | remark (text : String) (next : Script)
  | evaluate (code : Code) (frame : Frame) (next : Except EvalError Value → Script)

end

/-- A lambda together with the frame it was made in. -/
structure Closure where
  frame : Frame
  body : Code

namespace Code

/-- Integers by integer arithmetic, and anything else by the general rules. -/
def combineInts (op : BinaryOp) (left right : Value) : Except EvalError Value :=
  match left, right with
  | .int a, .int b => Value.intBinary op a b
  | _, _ => Value.binary op left right

/-- Numbers by double arithmetic, and anything else by the general rules. -/
def combineDoubles (op : BinaryOp) (left right : Value) : Except EvalError Value :=
  match left.asDouble?, right.asDouble? with
  | some a, some b => Value.doubleBinary op a b
  | _, _ => Value.binary op left right

section Evaluation

variable {κ : Type} (keep : Closure → κ) (caller : Caller κ)

mutual

/-- Evaluates code from left to right. Logical operators, `??` and conditions evaluate only the
operand they need. `keep` says how a world of closures of type `κ` holds a new one. -/
def eval (frame : Frame) : Code → Eval κ Value
  | .constant value => pure value
  | .slot position tag => (frame.slot position).convert tag
  | .localAt position => pure (frame.localAt position)
  | .unary op operand => do
      let value ← eval frame operand
      Value.unary op value
  | .logical stopOn left right => do
      let first ← (← eval frame left).toBool
      if first == stopOn then pure (.bool first)
      else
        let second ← (← eval frame right).toBool
        pure (.bool second)
  | .coalesce left right => do
      let first ← eval frame left
      if first.isNull then eval frame right else pure first
  | .compare op left right => do
      let first ← eval frame left
      let second ← eval frame right
      let answer ← Value.compare op first second
      pure (.bool answer)
  | .intBinary op left right => do
      let first ← eval frame left
      let second ← eval frame right
      combineInts op first second
  | .doubleBinary op left right => do
      let first ← eval frame left
      let second ← eval frame right
      combineDoubles op first second
  | .concat left right => do
      let first ← eval frame left
      let second ← eval frame right
      pure (Value.concat first second)
  | .binary op left right => do
      let first ← eval frame left
      let second ← eval frame right
      Value.binary op first second
  | .condition test whenTrue whenFalse => do
      if ← (← eval frame test).toBool then eval frame whenTrue else eval frame whenFalse
  | .member target name => do
      let owner ← eval frame target
      owner.member caller name
  | .index target arguments => do
      let owner ← eval frame target
      let values ← evalAll frame arguments
      owner.item caller values
  | .call target method arguments => do
      let owner ← eval frame target
      let values ← evalAll frame arguments
      owner.method caller method values
  | .lambda arity body => do
      let handle ← World.newFunction arity (.closure (keep ⟨frame, body⟩))
      pure (.function handle)
  | .custom script => follow (script frame)

def evalAll (frame : Frame) : List Code → Eval κ (List Value)
  | [] => pure []
  | code :: rest => do
      let first ← eval frame code
      let others ← evalAll frame rest
      pure (first :: others)

def follow : Script → Eval κ Value
  | .done result => result
  | .remark text next => do
      World.record (.remark text)
      follow next
  | .evaluate code frame next => do
      let result ← Eval.attempt (eval frame code)
      follow (next result)

end

end Evaluation

end Code

/-- Runs a closure's body with the arguments after the locals it was made with. -/
def Closure.enter {κ : Type} (keep : Closure → κ) (caller : Caller κ) (closure : Closure)
    (arguments : List Value) : Eval κ Value :=
  closure.body.eval keep caller { closure.frame with locals := closure.frame.locals ++ arguments }

/-- Calls a function of the world. -/
def callFunction : Caller Closure :=
  callInRoom (Closure.enter id)

/-- Compiled code with the type its values are known to have, and its value where that is known
already. -/
structure Fragment where
  tag : TypeTag
  constant : Option Value := none
  code : Code

namespace Fragment

def ofValue (value : Value) : Fragment :=
  ⟨value.tag, some value, .constant value⟩

/-- Reads a slot as its declared type; of an empty slot nothing is known. -/
def ofSlot (index : Nat) (tag : TypeTag) : Fragment :=
  { tag := if tag.isEmpty then .object else tag, code := .slot index tag }

def eval (fragment : Fragment) (frame : Frame) : Eval Closure Value :=
  fragment.code.eval id callFunction frame

def describe (fragment : Fragment) : String :=
  let constant :=
    match fragment.constant with
    | some value => "Some(" ++ value.describe ++ ")"
    | none => "None"
  "Fragment \x7b ty: " ++ fragment.tag.describe ++ ", constant: " ++ constant ++ ", .. \x7d"

end Fragment

end Tether

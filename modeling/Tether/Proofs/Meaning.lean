import Tether.Code
import Tether.Directory
import Tether.Expr.Basic

set_option autoImplicit false

/- The meaning of an expression, read off its tree. No name is resolved and no code is built
beforehand: a lambda keeps its body as a tree and evaluates it on every call. -/
namespace Tether

/-- What an expression is evaluated in: the two ends of its binding, which of them plain names
belong to, the types and resources that it may name, and what its placeholders stand for. -/
structure Surroundings where
  target : Value
  source : Value
  isTarget : Bool
  directory : Directory
  placeholder : NodeId → Placeholder → Except EvalError Value

/-- The arguments of the enclosing lambdas, innermost first. Of one lambda's arguments the last
comes first, so that it is found where a name is declared twice. -/
abbrev Bindings := List (String × Value)

def Bindings.enter (bindings : Bindings) (parameters : List String) (arguments : List Value) :
    Bindings :=
  (parameters.zip arguments).reverse ++ bindings

/-- What a function is made of where trees are evaluated: a lambda with all that it was made in.
A function that was compiled before stays what it is. -/
inductive Thunk where
  | compiled (closure : Closure)
  | lambda (surroundings : Surroundings) (bindings : Bindings) (parameters : List String)
      (body : Expr)

namespace Surroundings

/-- The value that plain names belong to. -/
def root (surroundings : Surroundings) : Value :=
  if surroundings.isTarget then surroundings.target else surroundings.source

/-- The value of a name after `$` or `$$`. -/
def named {κ : Type} (caller : Caller κ) (surroundings : Surroundings) (name : String) :
    Eval κ Value :=
  match name with
  | "target" | "self" | "this" => pure surroundings.target
  | "source" => pure surroundings.source
  | "context" => surroundings.target.member caller "DataContext"
  | _ =>
      match surroundings.directory.types.get? name with
      | some type => pure type.statics
      | none =>
          match surroundings.directory.resources.get? name with
          | some value => pure value
          | none => throw (.failure (.unknownMember name "$"))

end Surroundings

/-- Evaluates only the operands that the operator needs, from left to right. -/
def BinaryOp.evaluate {κ : Type} (op : BinaryOp) (left right : Eval κ Value) : Eval κ Value :=
  match op with
  | .and => do
      if ← (← left).toBool then
        let second ← (← right).toBool
        pure (.bool second)
      else pure (.bool false)
  | .or => do
      if ← (← left).toBool then pure (.bool true)
      else
        let second ← (← right).toBool
        pure (.bool second)
  | .coalesce => do
      let first ← left
      if first.isNull then right else pure first
  | _ => do
      let first ← left
      let second ← right
      Value.binary op first second

namespace Expr

variable (caller : Caller Thunk) (surroundings : Surroundings)

/-- The value of a target. Without one it is the value that plain names belong to. -/
def evaluateTarget (target : Option (Expr × (Bindings → Eval Thunk Value))) (bindings : Bindings) :
    Eval Thunk Value :=
  match target with
  | none => pure surroundings.root
  | some (_, evaluate) => evaluate bindings

def evaluateAll (arguments : List (Expr × (Bindings → Eval Thunk Value))) (bindings : Bindings) :
    Eval Thunk (List Value) :=
  arguments.mapM fun argument => argument.2 bindings

/-- The value of a node from the values of its children. -/
def evaluateNode (id : NodeId) (node : Node (Expr × (Bindings → Eval Thunk Value)))
    (bindings : Bindings) : Eval Thunk Value :=
  match node with
  | .constant value => pure value
  | .placeholder reference => surroundings.placeholder id reference
  | .parameter name =>
      match bindings.lookup name with
      | some value => pure value
      | none => throw (.failure (.unknownMember name ""))
  | .member none name =>
      match bindings.lookup name with
      | some value => pure value
      | none => surroundings.root.member caller name
  | .member (some (_, target)) name => do
      let owner ← target bindings
      owner.member caller name
  | .index target arguments => do
      let owner ← evaluateTarget surroundings target bindings
      let values ← evaluateAll arguments bindings
      owner.item caller values
  | .call target method arguments => do
      let owner ← evaluateTarget surroundings target bindings
      let values ← evaluateAll arguments bindings
      owner.method caller method values
  | .unary op (operand, evaluate) =>
      if op.namesRoot then
        match operand.node with
        | .member none name => surroundings.named caller name
        | _ => throw (.failure (.unknownMember "" "$"))
      else do
        let value ← evaluate bindings
        Value.unary op value
  | .binary op (_, left) (_, right) => op.evaluate (left bindings) (right bindings)
  | .condition (_, test) (_, whenTrue) (_, whenFalse) => do
      if ← (← test bindings).toBool then whenTrue bindings else whenFalse bindings
  | .lambda parameters (body, _) => do
      let handle ←
        World.newFunction parameters.length
          (.closure (.lambda surroundings bindings parameters body))
      pure (.function handle)

def evaluate : Expr → Bindings → Eval Thunk Value :=
  para (evaluateNode caller surroundings)

variable {caller surroundings} {id : NodeId} {bindings : Bindings}

theorem evaluate_constant (value : Value) :
    evaluate caller surroundings (.mk id (.constant value)) bindings = pure value := rfl

theorem evaluate_placeholder (reference : Placeholder) :
    evaluate caller surroundings (.mk id (.placeholder reference)) bindings =
      liftM (surroundings.placeholder id reference) := rfl

theorem evaluate_parameter (name : String) :
    evaluate caller surroundings (.mk id (.parameter name)) bindings =
      match bindings.lookup name with
      | some value => pure value
      | none => throw (.failure (.unknownMember name "")) := rfl

theorem evaluate_name (name : String) :
    evaluate caller surroundings (.mk id (.member none name)) bindings =
      match bindings.lookup name with
      | some value => pure value
      | none => surroundings.root.member caller name := rfl

theorem evaluate_member (target : Expr) (name : String) :
    evaluate caller surroundings (.mk id (.member (some target) name)) bindings = (do
      let owner ← target.evaluate caller surroundings bindings
      owner.member caller name) := rfl

theorem evaluateTarget_map (target : Option Expr) :
    evaluateTarget surroundings (target.map fun expr => (expr, evaluate caller surroundings expr))
        bindings =
      target.elim (pure surroundings.root) (evaluate caller surroundings · bindings) := by
  cases target <;> rfl

theorem evaluateAll_map (arguments : List Expr) :
    evaluateAll (arguments.map fun expr => (expr, evaluate caller surroundings expr)) bindings =
      arguments.mapM (evaluate caller surroundings · bindings) := by
  rw [evaluateAll, List.mapM_map]
  rfl

theorem evaluate_index (target : Option Expr) (arguments : List Expr) :
    evaluate caller surroundings (.mk id (.index target arguments)) bindings = (do
      let owner ← target.elim (pure surroundings.root) (evaluate caller surroundings · bindings)
      let values ← arguments.mapM (evaluate caller surroundings · bindings)
      owner.item caller values) := by
  rw [← evaluateTarget_map, ← evaluateAll_map, evaluate, para_mk]
  rfl

theorem evaluate_call (target : Option Expr) (method : String) (arguments : List Expr) :
    evaluate caller surroundings (.mk id (.call target method arguments)) bindings = (do
      let owner ← target.elim (pure surroundings.root) (evaluate caller surroundings · bindings)
      let values ← arguments.mapM (evaluate caller surroundings · bindings)
      owner.method caller method values) := by
  rw [← evaluateTarget_map, ← evaluateAll_map, evaluate, para_mk]
  rfl

theorem evaluate_unary {op : UnaryOp} (computes : ¬ op.namesRoot) (operand : Expr) :
    evaluate caller surroundings (.mk id (.unary op operand)) bindings = (do
      let value ← operand.evaluate caller surroundings bindings
      Value.unary op value) := by
  rw [evaluate, para_mk]
  exact if_neg computes

theorem evaluate_root {op : UnaryOp} (namesRoot : op.namesRoot) (inner : NodeId) (name : String) :
    evaluate caller surroundings (.mk id (.unary op (.mk inner (.member none name)))) bindings =
      surroundings.named caller name := by
  rw [evaluate, para_mk]
  exact if_pos namesRoot

theorem evaluate_binary (op : BinaryOp) (left right : Expr) :
    evaluate caller surroundings (.mk id (.binary op left right)) bindings =
      op.evaluate (left.evaluate caller surroundings bindings)
        (right.evaluate caller surroundings bindings) := rfl

theorem evaluate_condition (test whenTrue whenFalse : Expr) :
    evaluate caller surroundings (.mk id (.condition test whenTrue whenFalse)) bindings = (do
      if ← (← test.evaluate caller surroundings bindings).toBool then
        whenTrue.evaluate caller surroundings bindings
      else whenFalse.evaluate caller surroundings bindings) := rfl

theorem evaluate_lambda (parameters : List String) (body : Expr) :
    evaluate caller surroundings (.mk id (.lambda parameters body)) bindings = (do
      let handle ←
        World.newFunction parameters.length
          (.closure (.lambda surroundings bindings parameters body))
      pure (.function handle)) := rfl

end Expr

def Thunk.enter (caller : Caller Thunk) (thunk : Thunk) (arguments : List Value) :
    Eval Thunk Value :=
  match thunk with
  | .compiled closure => closure.enter .compiled caller arguments
  | .lambda surroundings bindings parameters body =>
      body.evaluate caller surroundings (bindings.enter parameters arguments)

/-- Calls a function where trees are evaluated. -/
def callThunk : Caller Thunk :=
  callInRoom Thunk.enter

/-- The same world for the evaluation of trees. -/
def World.forTrees (world : World Closure) : World Thunk :=
  { world with
    functions := world.functions.map fun function =>
      { arity := function.arity
        callable :=
          match function.callable with
          | .host behavior => .host behavior
          | .closure closure => .closure (.compiled closure) } }

/-- What a run shows: its result, and the requests that were made of the host up to then. -/
def Eval.observe {κ α : Type} (run : Eval κ α) (world : World κ) :
    Except (Halt EvalError) α × Array Event :=
  match run world with
  | .ok value after => (.ok value, after.log)
  | .error halt after => (.error halt, after.log)

/-- The meaning of a whole expression in a world. -/
def Expr.meaning (expr : Expr) (surroundings : Surroundings) (world : World Closure) :
    Except (Halt EvalError) Value × Array Event :=
  Eval.observe (expr.evaluate callThunk surroundings []) world.forTrees

end Tether

import Tether.Code
import Tether.Expr.Text
import Tether.Numbering

set_option autoImplicit false

/- Building fragments. Builders are asked in turn about every node; a node that all of them leave
alone falls back to a table. -/
namespace Tether

/-- What the fallback table knows a node by: placeholders by slot and path, others by identity. -/
inductive FragmentKey where
  | placeholder (slot : Int) (path : String)
  | node (id : NodeId)
deriving DecidableEq, Repr

def FragmentKey.ofPlaceholder (slots : Slots) (id : NodeId) (reference : Placeholder) :
    FragmentKey :=
  .placeholder (slots id) reference.path

def FragmentKey.ofExpr (slots : Slots) (expr : Expr) : FragmentKey :=
  match expr.placeholder? with
  | some reference => ofPlaceholder slots expr.id reference
  | none => .node expr.id

/-- The state of a build: metadata of its own, the fallback table, and the parameters of the
lambdas around the node at hand, outermost first. -/
structure BuildContext where
  slots : Slots := Slots.none
  metadata : Metadata := {}
  fallbacks : Table FragmentKey Fragment := {}
  parameters : List String := []

namespace BuildContext

/-- A context with a copy of the compilation's metadata. -/
def start (slots : Slots) (metadata : Option Metadata) : BuildContext :=
  { slots, metadata := Table.merge {} (metadata.getD {}) }

def push (context : BuildContext) (names : List String) : BuildContext :=
  { context with parameters := context.parameters ++ names }

def pop (context : BuildContext) (count : Nat) : BuildContext :=
  { context with
    parameters := context.parameters.take (context.parameters.length - count) }

/-- The position of the last of several equal names. -/
def lastIndex? (name : String) : List String → Option Nat
  | [] => none
  | first :: rest =>
      match lastIndex? name rest with
      | some index => some (index + 1)
      | none => if first == name then some 0 else none

def parameter? (context : BuildContext) (name : String) : Option Nat :=
  lastIndex? name context.parameters

def fallback? (context : BuildContext) (expr : Expr) : Option Fragment :=
  context.fallbacks.get? (.ofExpr context.slots expr)

def setFallback (context : BuildContext) (key : FragmentKey) (fragment : Fragment) :
    BuildContext :=
  { context with fallbacks := context.fallbacks.insert key fragment }

end BuildContext

/-- What a build step leaves: its result, the context, and the remarks made on the way. -/
structure Built (α : Type) where
  result : Except CompileError α
  context : BuildContext
  remarks : List String := []

/-- A build step. It sees the context but not the remarks made before it. -/
def Build (α : Type) := BuildContext → Built α

namespace Build

variable {α β : Type}

def bind (first : Build α) (next : α → Build β) : Build β := fun context =>
  let before := first context
  match before.result with
  | .ok value =>
      let after := next value before.context
      { after with remarks := before.remarks ++ after.remarks }
  | .error error => { before with result := .error error }

instance monad : Monad Build where
  pure value := fun context => { result := .ok value, context }
  bind := bind

/-- A result that needs nothing of the context is a build step as well. -/
instance liftExcept : MonadLift (Except CompileError) Build where
  monadLift result := fun context => { result, context }

def fail (error : CompileError) : Build α := fun context =>
  { result := .error error, context }

def context : Build BuildContext := fun context =>
  { result := .ok context, context }

def modifyContext (change : BuildContext → BuildContext) : Build Unit := fun context =>
  { result := .ok (), context := change context }

def remark (text : String) : Build Unit := fun context =>
  { result := .ok (), context, remarks := [text] }

/-- Runs a step under more parameters and drops them again, even when the step fails. -/
def underParameters (names : List String) (step : Build α) : Build α := fun context =>
  let built := step (context.push names)
  { built with context := built.context.pop names.length }

end Build

/-- A node offered to a builder, with a step that builds each of its children. -/
structure Offer where
  id : NodeId
  node : Node (Expr × Build Fragment)

namespace Offer

def expr (offer : Offer) : Expr :=
  .mk offer.id (offer.node.map Prod.fst)

def text (offer : Offer) : String :=
  offer.expr.text

end Offer

/-- A builder answers the nodes it knows and leaves the others alone. -/
structure Builder where
  priority : Int
  respond : Offer → Build (Option Fragment)

namespace Builder

/-- Builders in the order in which they are asked: by falling priority, and as registered among
equals. -/
def sort (builders : List Builder) : List Builder :=
  builders.mergeSort fun first second => second.priority ≤ first.priority

/-- Registers one more builder behind those of its priority. -/
def add (chain : List Builder) (builder : Builder) : List Builder :=
  sort (chain ++ [builder])

/-- The first answer of a chain of builders. -/
def firstAnswer (offer : Offer) : List Builder → Build (Option Fragment)
  | [] => pure none
  | builder :: rest => do
      match ← builder.respond offer with
      | some fragment => pure (some fragment)
      | none => firstAnswer offer rest

/-- Builds one node. -/
def answer (chain : List Builder) (offer : Offer) : Build Fragment := do
  match ← firstAnswer offer chain with
  | some fragment => pure fragment
  | none =>
      match (← Build.context).fallback? offer.expr with
      | some fragment => pure fragment
      | none => Build.fail (.cannotCompile offer.text)

/-- Builds an expression with a chain of builders. -/
def build (chain : List Builder) : Expr → Build Fragment :=
  Expr.para fun id node => answer chain ⟨id, node⟩

end Builder

end Tether

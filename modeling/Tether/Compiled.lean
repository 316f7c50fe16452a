import Tether.Builder.Standard
import Tether.Shape

set_option autoImplicit false

/- Compiled expressions. Code is built for each shape of arguments when it is first met, and
kept. -/
namespace Tether

/-- Code for one shape of arguments. -/
structure Invoker where
  shape : Shape
  root : Fragment

def Invoker.resultType (invoker : Invoker) : TypeTag :=
  invoker.root.tag

def Invoker.invoke (invoker : Invoker) (frame : Frame) : Eval Closure Value :=
  invoker.root.eval frame

/-- The placeholder of every slot, and the node it was found in; slots may be left out. -/
abbrev SlotMembers := List (Option (NodeId × Placeholder))

namespace SlotMembers

/-- Enters a placeholder under its slot. It needs one, and two placeholders of one slot need one
path. -/
def enter (slots : Slots) (members : SlotMembers) (found : NodeId × Placeholder) :
    Except CompileError SlotMembers :=
  let slot := slots found.1
  if slot < 0 then .error (.unresolvedMember found.2.text slot)
  else
    let grown := members ++ List.replicate (slot.toNat + 1 - members.length) none
    match grown[slot.toNat]? with
    | some (some known) =>
        if known.2.path == found.2.path then .ok grown
        else
          .error (.internal
            s!"binding members {known.2.text} and {found.2.text} share index {slot}")
    | _ => .ok (grown.set slot.toNat (some found))

/-- The members of an expression, entered in preorder. -/
def ofExpr (slots : Slots) (expr : Expr) : Except CompileError SlotMembers :=
  let watch (node : Expr) : StateT SlotMembers (Except CompileError) Unit := do
    match node.placeholder? with
    | some reference => set (← enter slots (← get) (node.id, reference))
    | none => pure ()
  Prod.snd <$> (expr.survey watch).run []

end SlotMembers

structure Compiled where
  expression : Expr
  members : SlotMembers
  chain : List Builder
  metadata : Option Metadata
  cache : Table Shape Invoker := {}

namespace Compiled

def compile (chain : List Builder) (slots : Slots) (expression : Expr)
    (metadata : Option Metadata) : Except CompileError Compiled := do
  let members ← SlotMembers.ofExpr slots expression
  pure { expression, members, chain, metadata }

def memberCount (compiled : Compiled) : Nat :=
  compiled.members.length

/-- One more than the members, for the metadata of the call. -/
def frameSize (compiled : Compiled) : Nat :=
  compiled.memberCount + 1

def member? (compiled : Compiled) (slot : Nat) : Option (NodeId × Placeholder) :=
  compiled.members.getD slot none

def shapes (compiled : Compiled) : List Shape :=
  compiled.cache.keys

/-- Declares the type of every slot, for the placeholders found in it. -/
def declare (context : BuildContext) (position : Nat) :
    SlotMembers → List TypeTag → BuildContext
  | some (id, reference) :: members, tag :: tags =>
      declare
        (context.setFallback (.ofPlaceholder context.slots id reference) (.ofSlot position tag))
        (position + 1) members tags
  | none :: members, _ :: tags => declare context (position + 1) members tags
  | _, _ => context

/-- Builds code for a shape, from the compilation's metadata alone. -/
def build (compiled : Compiled) (slots : Slots) (shape : Shape) : Built Invoker :=
  let context :=
    declare (.start slots compiled.metadata) 0 compiled.members shape.types
  let step : Build Invoker := do
    let root ← Builder.build compiled.chain compiled.expression
    pure { shape, root }
  step context

/-- What a request for code leaves: the code or an error, the expression with its cache, and the
remarks of a build if there was one. -/
structure Fetched where
  result : Except CompileError Invoker
  compiled : Compiled
  remarks : List String := []

/-- The code for a shape, from the cache or newly built. A failed build is not kept. -/
def fetch (compiled : Compiled) (slots : Slots) (shape : Shape) : Fetched :=
  match compiled.cache.get? shape with
  | some invoker => { result := .ok invoker, compiled }
  | none =>
      let built := compiled.build slots shape
      match built.result with
      | .ok invoker =>
          { result := .ok invoker
            compiled := { compiled with cache := compiled.cache.insert shape invoker }
            remarks := built.remarks }
      | .error error => { result := .error error, compiled, remarks := built.remarks }

/-- Calls the expression. The expression comes back with what its cache has gained. -/
def invoke (compiled : Compiled) (slots : Slots) (arguments : List Argument)
    (metadata : Option Metadata) (world : World Closure) :
    Except (Halt Error) Value × Compiled × World Closure :=
  if arguments.length != compiled.memberCount then
    (.error (.failure (.eval (.argumentCount compiled.memberCount arguments.length))),
      compiled, world)
  else
    let fetched := compiled.fetch slots (.ofArguments arguments)
    let world := world.remark fetched.remarks
    match fetched.result with
    | .error error => (.error (.failure (.compile error)), fetched.compiled, world)
    | .ok invoker =>
        match invoker.invoke { slots := arguments.map Argument.value, metadata } world with
        | .ok value world => (.ok value, fetched.compiled, world)
        | .error halt world => (.error (halt.map .eval), fetched.compiled, world)

def describe (compiled : Compiled) : String :=
  "CompiledExpression \x7b expression: " ++ Text.quoted compiled.expression.text ++
    ", members: " ++ toString compiled.memberCount ++ ", cached_shapes: " ++
    toString compiled.cache.size ++ " \x7d"

end Compiled

end Tether

import Tether.Resolve
import Tether.Strategy

set_option autoImplicit false

/- From an expression to calls: resolve the names, number the placeholders, compile. -/
namespace Tether

/-- Everything that outlives a call: the world, the next unused identity, and the slots. -/
structure Store where
  world : World Closure := {}
  next : NodeId := 0
  slots : Slots := Slots.none

/-- An expression ready to be called, with its placeholders in slot order. -/
structure Prepared where
  expression : Expr
  members : List (NodeId × Placeholder)
  callee : Callee

structure Engine where
  settings : ResolveSettings := {}
  directory : Directory := {}
  strategies : List Strategy := [.compiling Builder.standard]

namespace Engine

def describe (engine : Engine) : String :=
  "BindingExpressionCompiler \x7b settings: " ++ engine.settings.describe ++ ", strategies: " ++
    toString engine.strategies.length ++ " \x7d"

def resolver (engine : Engine) (isTarget : Bool) : Resolver :=
  { settings := engine.settings, directory := engine.directory, isTarget }

def resolve (engine : Engine) (expr : Expr) (isTarget : Bool) (store : Store) :
    Except (Halt ResolveError) Expr × Store :=
  let (result, world, next) :=
    (engine.resolver isTarget).resolve callFunction expr store.world store.next
  (result, { store with world, next })

/-- Compiles with the first strategy that accepts the expression. -/
def compile (engine : Engine) (expr : Expr) (metadata : Option Metadata) (store : Store) :
    Except CompileError Callee × Store :=
  let (result, remarks) := Strategy.compile store.slots expr metadata engine.strategies
  (result, { store with world := store.world.remark remarks })

def prepare (engine : Engine) (expr : Expr) (isTarget : Bool) (metadata : Option Metadata)
    (store : Store) : Except (Halt Error) Prepared × Store :=
  match engine.resolve expr isTarget store with
  | (.error halt, store) => (.error (halt.map .resolve), store)
  | (.ok expression, store) =>
      let (numbering, slots) := Numbering.collect {} store.slots expression
      match engine.compile expression metadata { store with slots } with
      | (.error error, store) => (.error (.failure (.compile error)), store)
      | (.ok callee, store) => (.ok { expression, members := numbering.members, callee }, store)

end Engine

namespace Prepared

def member? (prepared : Prepared) (slot : Nat) : Option (NodeId × Placeholder) :=
  prepared.members[slot]?

def invoke (prepared : Prepared) (arguments : List Argument) (metadata : Option Metadata)
    (store : Store) : Except (Halt Error) Value × Prepared × Store :=
  let (result, callee, world) :=
    prepared.callee.invoke store.slots arguments metadata store.world
  (result, { prepared with callee }, { store with world })

/-- Calls and reads the result as a plain datum. -/
def invokeAs {α : Type} (read : Value → Except EvalError α) (prepared : Prepared)
    (arguments : List Argument) (metadata : Option Metadata) (store : Store) :
    Except (Halt Error) α × Prepared × Store :=
  let (result, prepared, store) := prepared.invoke arguments metadata store
  match result with
  | .error halt => (.error halt, prepared, store)
  | .ok value => ((read value).mapError fun error => .failure (.eval error), prepared, store)

/-- Asks for the argument of every placeholder in slot order, and calls with them. -/
def evaluate (prepared : Prepared) (ask : Placeholder → Eval Closure Argument)
    (metadata : Option Metadata) (store : Store) :
    Except (Halt Error) Value × Prepared × Store :=
  match (prepared.members.mapM fun entry => ask entry.2) store.world with
  | .ok arguments world => prepared.invoke arguments metadata { store with world }
  | .error halt world => (.error (halt.map .eval), prepared, { store with world })

def describe (prepared : Prepared) : String :=
  let members := prepared.members.map fun entry => Text.quoted entry.2.text
  "PreparedExpression \x7b expression: " ++ Text.quoted prepared.expression.text ++
    ", members: [" ++ ", ".intercalate members ++ "], .. \x7d"

end Prepared

end Tether

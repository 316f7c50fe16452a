import Tether.Directory
import Tether.Expr.Text
import Tether.Expr.Traversal
import Tether.Path

set_option autoImplicit false

/- Resolution of names. Every chain of members that starts at a root becomes a placeholder, or a
constant if it is to be evaluated at once; names that a lambda declares become parameters; what
hangs on something only known at run time keeps its form. -/
namespace Tether

structure ResolveSettings where
  /-- Flags of every placeholder made. -/
  flags : MemberFlags := { observable := true }
  /-- Whether placeholders for the receivers of calls carry the name of the method. -/
  observeMethods : Bool := false
  /-- Whether an index with constant arguments is part of a path. -/
  flattenIndexers : Bool := true
deriving DecidableEq, Repr

def ResolveSettings.describe (settings : ResolveSettings) : String :=
  let flag (set : Bool) := if set then "true" else "false"
  "MemberVisitorSettings \x7b flags: " ++ settings.flags.describe ++ ", observe_methods: " ++
    flag settings.observeMethods ++ ", flatten_constant_indexers: " ++
    flag settings.flattenIndexers ++ " \x7d"

/-- A chain of members and items that starts at a root. -/
structure Chain where
  root : Root
  isStatic : Bool := false
  path : Path := []

def Chain.push (chain : Chain) (segment : Segment) : Chain :=
  { chain with path := chain.path ++ [segment] }

/-- What a resolution goes by. Plain names belong to the target when `isTarget` is set and to the
source otherwise. -/
structure Resolver where
  settings : ResolveSettings := {}
  directory : Directory := {}
  isTarget : Bool := false

/-- Whether a static chain starts at a type or at a resource. -/
inductive StaticKind where
  | type
  | resource
deriving DecidableEq, Repr

/-- The state of one resolution: the world that static chains are read from, the next unused
identity, the placeholders made so far and the static chains evaluated so far. -/
structure Progress (κ : Type) where
  world : World κ
  next : NodeId
  members : Table PlaceholderKey Expr := {}
  statics : Table (StaticKind × String) Expr := {}

/-- A step of a resolution under the parameters of the enclosing lambdas. -/
abbrev Resolve (κ : Type) := ReaderT (List String) (EStateM (Halt ResolveError) (Progress κ))

namespace Resolver

variable {κ : Type} (resolver : Resolver)

def defaultRoot : Root :=
  if resolver.isTarget then .target else .source

/-- The chain that a name after `$` or `$$` starts: a fixed root, or else a type, or else a
resource. -/
def namedRoot (name : String) (isStatic : Bool) : Except ResolveError Chain :=
  match name with
  | "target" | "self" | "this" => .ok { root := .target, isStatic }
  | "source" => .ok { root := .source, isStatic }
  | "context" => .ok { root := .target, isStatic, path := [.member "DataContext"] }
  | _ =>
      match resolver.directory.types.get? name with
      | some type => .ok { root := .static type.name type.tag type.statics, isStatic }
      | none =>
          match resolver.directory.resources.get? name with
          | some value => .ok { root := .resource name value, isStatic }
          | none => .error (.unknownRoot name)

def constants (arguments : List Expr) : Option (List Value) :=
  arguments.mapM Expr.constant?

/-- The chain an expression is, or nothing when it does not start at a root. -/
def flatten (scope : List String) : Expr → Except ResolveError (Option Chain)
  | .mk _ (.member none name) =>
      if scope.contains name then .ok none
      else .ok (some (Chain.push { root := resolver.defaultRoot } (.member name)))
  | .mk _ (.member (some target) name) => do
      let chain ← flatten scope target
      pure (chain.map (·.push (.member name)))
  | .mk _ (.index target arguments) =>
      if resolver.settings.flattenIndexers then
        match constants arguments with
        | none => .ok none
        | some values =>
            match target with
            | none => .ok (some (Chain.push { root := resolver.defaultRoot } (.index values)))
            | some target => do
                let chain ← flatten scope target
                pure (chain.map (·.push (.index values)))
      else .ok none
  | .mk id (.unary op operand) =>
      if op.namesRoot then
        match operand.node with
        | .member none name => (resolver.namedRoot name (op == .static)).map some
        | _ => .error (.cannotFlatten (Expr.text (.mk id (.unary op operand))))
      else .ok none
  | _ => .ok none

/-- An identity that no node has yet. -/
def fresh : Resolve κ NodeId :=
  modifyGet fun progress => (progress.next, { progress with next := progress.next + 1 })

def newNode (node : Node Expr) : Resolve κ Expr :=
  return .mk (← fresh) node

/-- What stands for a path. Placeholders of the target, and those of method receivers, are flagged
as such. -/
def reference (path : String) (root : Root) (kind : Kind) (method : Option String) :
    Placeholder :=
  let flags := resolver.settings.flags
  { path, root, kind, method
    flags :=
      { flags with
        target := flags.target || root.key == .target
        observableMethods := flags.observableMethods || method.isSome } }

/-- The placeholder for a path, the same node for every request with one key. -/
def placeholder (path : String) (root : Root) (kind : Kind) (method : Option String) :
    Resolve κ Expr := do
  let reference := resolver.reference path root kind method
  match (← get).members.get? reference.key with
  | some known => pure known
  | none =>
      let made ← newNode (.placeholder reference)
      modify fun progress =>
        { progress with members := progress.members.insert reference.key made }
      pure made

/-- Reads a path in the world of the resolution; what fails is reported about `expression`. -/
def readPath (call : Caller κ) (expression : String) (start : Value) (path : Path) :
    Resolve κ Value := do
  match (Path.read call start path).run (← get).world with
  | .ok value world =>
      modify fun progress => { progress with world }
      pure value
  | .error halt world =>
      modify fun progress => { progress with world }
      throw (halt.map fun error => .staticEvaluation expression error.message)

/-- The constant for a static path, which is read once for every key. -/
def staticValue (call : Caller κ) (expression : String) (key : StaticKind × String)
    (start : Value) (path : Path) : Resolve κ Expr := do
  match (← get).statics.get? key with
  | some known => pure known
  | none =>
      let value ← readPath call expression start path
      let made ← newNode (.constant value)
      modify fun progress => { progress with statics := progress.statics.insert key made }
      pure made

/-- Evaluates a static chain, once for every root and path text. -/
def foldStatic (call : Caller κ) (root : Root) (path : Path) : Resolve κ Expr :=
  let text := path.text
  let expression := "$" ++ rootedPath root.text text
  match root with
  | .static name _ statics =>
      staticValue call expression (.type, name ++ ":" ++ text) statics path
  | .resource name value =>
      staticValue call expression (.resource, name ++ ":" ++ text) value path
  | .target | .source =>
      throw (.failure (.staticEvaluation expression
        "binding target and source are only known at runtime"))

/-- The node that replaces a chain. -/
def materialize (call : Caller κ) (chain : Chain) (kind : Kind) (method : Option String) :
    Resolve κ Expr :=
  if chain.isStatic then foldStatic call chain.root chain.path
  else
    match chain.root, chain.path with
    | .static _ _ statics, [] => newNode (.constant statics)
    | root, path => resolver.placeholder path.text root kind method

/-- The replacement of an expression that is a chain. -/
def replaceChain (call : Caller κ) (expr : Expr) : Resolve κ (Option Expr) := do
  match ← resolver.flatten (← read) expr with
  | some chain => some <$> resolver.materialize call chain expr.kind none
  | none => pure none

/-- The receiver of an index or a call. -/
def replaceReceiver (call : Caller κ) (target : Option (Expr × Resolve κ Expr)) (kind : Kind)
    (method : Option String) : Resolve κ Expr := do
  match target with
  | none => resolver.placeholder "" resolver.defaultRoot kind method
  | some (target, walk) =>
      match ← resolver.flatten (← read) target with
      | some chain => resolver.materialize call chain kind method
      | none => walk

/-- The replacement of one node, or the node itself where there is nothing to do. -/
def visit (call : Caller κ) (id : NodeId) (node : Node (Expr × Resolve κ Expr)) :
    Resolve κ Expr := do
  let whole : Expr := .mk id (node.map Prod.fst)
  match node with
  | .member none name =>
      if (← read).contains name then newNode (.parameter name)
      else return (← resolver.replaceChain call whole).getD whole
  | .member (some _) _ => return (← resolver.replaceChain call whole).getD whole
  | .index target arguments =>
      match ← resolver.replaceChain call whole with
      | some replaced => pure replaced
      | none =>
          let target ← resolver.replaceReceiver call target .index none
          let arguments ← arguments.mapM Prod.snd
          newNode (.index (some target) arguments)
  | .call target method arguments =>
      let observed := if resolver.settings.observeMethods then some method else none
      let target ← resolver.replaceReceiver call target .call observed
      let arguments ← arguments.mapM Prod.snd
      newNode (.call (some target) method arguments)
  | .lambda parameters (body, walk) =>
      let walked ← withReader (· ++ parameters) walk
      if walked.id == body.id then pure whole else newNode (.lambda parameters walked)
  | .unary op _ =>
      if op.namesRoot then return (← resolver.replaceChain call whole).getD whole
      else pure whole
  | _ => pure whole

/-- Resolves every name below a node. -/
def walk (call : Caller κ) : Expr → Resolve κ Expr :=
  Expr.descend fresh (resolver.visit call)

/-- Resolves an expression with nothing remembered from before. The world and the next unused
identity are returned whatever the outcome. -/
def resolve (call : Caller κ) (expr : Expr) (world : World κ) (next : NodeId) :
    Except (Halt ResolveError) Expr × World κ × NodeId :=
  match (resolver.walk call expr).run [] |>.run { world, next } with
  | .ok resolved progress => (.ok resolved, progress.world, progress.next)
  | .error halt progress => (.error halt, progress.world, progress.next)

end Resolver

end Tether

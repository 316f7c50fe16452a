import Tether.Convert

set_option autoImplicit false

/- Everything outside an expression: host objects, functions, and the record of what was asked
of them. A closure's content is a parameter, so that one world serves every way of running code. -/
namespace Tether

/-- What a host does about a request. It answers, or answers nothing and leaves that to the owner
of the part; before that it may look up and change what the hosts remember, and call functions,
whose failures it may handle. -/
inductive Reply where
  | done (result : Option (Except EvalError Value))
  | consult (next : Value → Reply)
  | remember (memory : Value) (next : Reply)
  | call (handle : FunctionRef) (arguments : List Value) (next : Except EvalError Value → Reply)

/-- How a host part answers a request. -/
abbrev Behavior := List Value → Reply

namespace Behavior

def constantly (value : Value) : Behavior := fun _ =>
  .done (some (.ok value))

/-- Answers with the list of arguments. -/
def echo : Behavior := fun arguments =>
  .done (some (.ok (.list arguments)))

def fail (message : String) : Behavior := fun _ =>
  .done (some (.error (.host message)))

/-- Answers a single argument with the entry of the first equal key. -/
def lookup (entries : List (Value × Value)) : Behavior
  | [key] =>
      .done ((entries.find? fun entry => entry.1.equals key).map fun entry => .ok entry.2)
  | _ => .done none

/-- Calls the function that comes as first argument. -/
def apply : Behavior
  | .function handle :: rest => .call handle rest fun result => .done (some result)
  | _ => .done (some (.error (.host "apply needs a function")))

end Behavior

/-- The parts of a host object. -/
structure HostObject where
  members : List (String × Behavior) := []
  methods : List (String × Behavior) := []
  indexer : Option Behavior := none

inductive Callable (κ : Type) where
  | host (behavior : Behavior)
  | closure (content : κ)

/-- A function and the number of arguments it takes. -/
structure Function (κ : Type) where
  arity : Nat
  callable : Callable κ

/-- One request made of the host, or a remark made on the way. -/
inductive Event where
  | member (owner : ObjectRef) (name : String)
  | method (owner : ObjectRef) (name : String) (arguments : List Value)
  | item (owner : ObjectRef) (arguments : List Value)
  | call (handle : FunctionRef) (arguments : List Value)
  | remark (text : String)

def argumentTexts (arguments : List Value) : String :=
  ", ".intercalate (Value.texts arguments)

def Event.text : Event → String
  | .member owner name => s!"get {owner.name}.{name}"
  | .method owner name arguments => s!"call {owner.name}.{name}({argumentTexts arguments})"
  | .item owner arguments => s!"index {owner.name}[{argumentTexts arguments}]"
  | .call _ arguments => s!"fn({argumentTexts arguments})"
  | .remark text => text

/-- Objects and functions are found under the numbers of their handles; `log` lists the requests
made of the host, oldest first; `memory` is what the hosts remember, and `room` is how deep calls
may nest. -/
structure World (κ : Type) where
  objects : Array HostObject := #[]
  functions : Array (Function κ) := #[]
  log : Array Event := #[]
  memory : Value := .null
  room : Nat := 1000000

/-- A computation that may ask the host. What it has asked stays recorded when it fails. -/
abbrev Eval (κ : Type) := EStateM (Halt EvalError) (World κ)

/-- A result that asks nothing is a computation as well. -/
instance liftExcept {ε σ : Type} : MonadLift (Except ε) (EStateM (Halt ε) σ) where
  monadLift
    | .ok value => pure value
    | .error error => throw (.failure error)

/-- A computation whose failure is a result. Where the room does not suffice there is none. -/
def Eval.attempt {κ α : Type} (run : Eval κ α) : Eval κ (Except EvalError α) := fun world =>
  match run world with
  | .ok value after => .ok (.ok value) after
  | .error (.failure error) after => .ok (.error error) after
  | .error .overflow after => .error .overflow after

/-- How a function value is called. -/
abbrev Caller (κ : Type) := FunctionRef → List Value → Eval κ Value

namespace World

variable {κ : Type}

def record (event : Event) : Eval κ Unit :=
  modify fun world => { world with log := world.log.push event }

def remember (memory : Value) : Eval κ Unit :=
  modify fun world => { world with memory }

/-- The world after some remarks. -/
def remark (texts : List String) (world : World κ) : World κ :=
  { world with log := world.log ++ texts.map Event.remark }

/-- Adds a function to the world and returns its handle. -/
def addFunction (arity : Nat) (callable : Callable κ) (world : World κ) : FunctionRef × World κ :=
  (⟨world.functions.size, arity⟩,
    { world with functions := world.functions.push ⟨arity, callable⟩ })

def newFunction (arity : Nat) (callable : Callable κ) : Eval κ FunctionRef :=
  modifyGet (addFunction arity callable)

/-- Adds a host object to the world and returns its handle. -/
def addObject (name typeName : String) (tag : TypeTag) (parts : HostObject) (world : World κ) :
    ObjectRef × World κ :=
  (⟨world.objects.size, name, typeName, tag⟩, { world with objects := world.objects.push parts })

/-- The parts of an object; a handle that is not of this world has none. -/
def parts (world : World κ) (handle : ObjectRef) : HostObject :=
  world.objects.getD handle.id {}

end World

/-- Carries out a reply, and fails with `missing` when it has no answer. -/
def Reply.play {κ : Type} (call : Caller κ) (missing : EvalError) : Reply → Eval κ Value
  | .done (some result) => result
  | .done none => throw (.failure missing)
  | .consult next => do play call missing (next (← get).memory)
  | .remember memory next => do
      World.remember memory
      play call missing next
  | .call handle arguments next => do
      let result ← Eval.attempt (call handle arguments)
      play call missing (next result)

/-- Lets a part answer, or fails with `missing` when there is no part or no answer. -/
def answer {κ : Type} (call : Caller κ) (part : Option Behavior) (arguments : List Value)
    (missing : EvalError) : Eval κ Value :=
  match part with
  | none => throw (.failure missing)
  | some behavior => (behavior arguments).play call missing

namespace ObjectRef

variable {κ : Type}

def member (call : Caller κ) (handle : ObjectRef) (name : String) : Eval κ Value := do
  World.record (.member handle name)
  let parts := (← get).parts handle
  answer call (parts.members.lookup name) [] (.unknownMember name handle.typeName)

def method (call : Caller κ) (handle : ObjectRef) (name : String) (arguments : List Value) :
    Eval κ Value := do
  World.record (.method handle name arguments)
  let parts := (← get).parts handle
  answer call (parts.methods.lookup name) arguments (.unknownMethod name handle.typeName)

def item (call : Caller κ) (handle : ObjectRef) (arguments : List Value) : Eval κ Value := do
  World.record (.item handle arguments)
  let parts := (← get).parts handle
  answer call parts.indexer arguments (.unknownMember "[]" handle.typeName)

end ObjectRef

/-- Calls a function once the number of arguments is right: a host function is recorded and
answers, a closure is entered. -/
def Function.apply {κ : Type} (enter : κ → List Value → Eval κ Value) (call : Caller κ)
    (handle : FunctionRef) (arguments : List Value) (function : Function κ) : Eval κ Value :=
  if arguments.length != function.arity then
    throw (.failure (.argumentCount function.arity arguments.length))
  else
    match function.callable with
    | .closure content => enter content arguments
    | .host behavior => do
        World.record (.call handle arguments)
        answer call (some behavior) arguments (.host "no entry")

/-- Calls the function that a handle stands for. -/
def FunctionRef.run {κ : Type} (enter : κ → List Value → Eval κ Value) (call : Caller κ)
    (handle : FunctionRef) (arguments : List Value) : Eval κ Value := do
  match (← get).functions[handle.id]? with
  | none => throw (.failure (.host "no entry"))
  | some function => function.apply enter call handle arguments

/-- Calls nest at most `depth` deep. -/
def callWithin {κ : Type} (enter : Caller κ → κ → List Value → Eval κ Value) : Nat → Caller κ
  | 0 => fun _ _ => throw .overflow
  | depth + 1 => fun handle arguments =>
      let inner := callWithin enter depth
      handle.run (enter inner) inner arguments

/-- Calls nest as deep as the world has room. -/
def callInRoom {κ : Type} (enter : Caller κ → κ → List Value → Eval κ Value) : Caller κ :=
  fun handle arguments => do callWithin enter (← get).room handle arguments

end Tether

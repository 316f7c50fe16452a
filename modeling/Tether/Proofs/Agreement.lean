import Mathlib.Data.Option.Basic
import Tether.Code

set_option autoImplicit false

/- Two computations agree when, started in worlds that correspond, they end alike: both with one
value or both with one error, and again in worlds that correspond. What host parts and built-ins
do agrees as soon as the calls of functions do. -/
namespace Tether

section Purity

mutual

/-- The value neither is nor holds a function. -/
def Value.isFunctionless : Value → Bool
  | .function _ => false
  | .list items => areFunctionless items
  | .null | .bool _ | .int _ | .double _ | .string _ | .object _ => true

def Value.areFunctionless : List Value → Bool
  | [] => true
  | item :: rest => item.isFunctionless && areFunctionless rest

end

/-- Neither looks up nor changes what the hosts remember. -/
inductive Reply.Pure : Reply → Prop where
  | done (result : Option (Except EvalError Value)) : Pure (.done result)
  | call {handle : FunctionRef} {arguments : List Value} {next : Except EvalError Value → Reply}
      (each : ∀ result, Pure (next result)) : Pure (.call handle arguments next)

/-- A pure part answers without regard to what was asked before. It calls functions only if it is
handed one: what it computes on its own account is part of its answer. -/
structure Behavior.Pure (behavior : Behavior) : Prop where
  reply (arguments : List Value) : (behavior arguments).Pure
  prompt (arguments : List Value) (functionless : Value.areFunctionless arguments) :
    ∃ result, behavior arguments = .done result

structure HostObject.Pure (object : HostObject) : Prop where
  members (name : String) : ∀ behavior ∈ object.members.lookup name, Behavior.Pure behavior
  methods (name : String) : ∀ behavior ∈ object.methods.lookup name, Behavior.Pure behavior
  indexer : ∀ behavior ∈ object.indexer, Behavior.Pure behavior

def PureObjects (objects : Array HostObject) : Prop :=
  ∀ object ∈ objects, object.Pure

theorem World.pure_parts {κ : Type} {world : World κ} (pure : PureObjects world.objects)
    (handle : ObjectRef) : (world.parts handle).Pure := by
  rw [World.parts, Array.getD_eq_getD_getElem?]
  cases found : world.objects[handle.id]? with
  | none => exact ⟨nofun, nofun, nofun⟩
  | some object => exact pure object (Array.mem_of_getElem? found)

/-- The hosts of a world are pure. -/
structure World.Pure {κ : Type} (world : World κ) : Prop where
  objects : PureObjects world.objects
  functions : ∀ function ∈ world.functions, ∀ behavior, function.callable = .host behavior →
    ∀ arguments, (behavior arguments).Pure

end Purity

/-- When a world of one kind of closures corresponds to a world of another kind: which closures
of a given arity stand for each other, which host objects there are, whether the same requests
have been made, whether the hosts are pure, so that what they remember does not matter, and
whether the second world may have more room. -/
structure Correspondence (κ κ' : Type) where
  closures : Nat → κ → κ' → Prop
  objects : Array HostObject
  traced : Prop := True
  pureHosts : Prop := False
  roomier : Prop := False

namespace Correspondence

variable {κ κ' α β : Type} (link : Correspondence κ κ')

inductive Callables (arity : Nat) : Callable κ → Callable κ' → Prop where
  | host (behavior : Behavior) (pure : link.pureHosts → ∀ arguments, (behavior arguments).Pure) :
      Callables arity (.host behavior) (.host behavior)
  | closure {first : κ} {second : κ'} (related : link.closures arity first second) :
      Callables arity (.closure first) (.closure second)

structure Functions (first : Function κ) (second : Function κ') : Prop where
  arity : first.arity = second.arity
  callable : link.Callables first.arity first.callable second.callable

/-- How deep calls may nest on the two sides. -/
def Rooms (first second : Nat) : Prop :=
  first = second ∨ link.roomier ∧ first ≤ second

structure Worlds (first : World κ) (second : World κ') : Prop where
  leftObjects : first.objects = link.objects
  rightObjects : second.objects = link.objects
  pureObjects : link.pureHosts → PureObjects link.objects
  log : link.traced → first.log = second.log
  memory : ¬ link.pureHosts → first.memory = second.memory
  room : link.Rooms first.room second.room
  size : first.functions.size = second.functions.size
  functions : ∀ id : Nat, Option.Rel link.Functions first.functions[id]? second.functions[id]?

/-- What runs out of room on the first side may end in any way where there is more of it. -/
inductive Results : EStateM.Result (Halt EvalError) (World κ) α →
    EStateM.Result (Halt EvalError) (World κ') α → Prop where
  | ok {first : World κ} {second : World κ'} (value : α) (worlds : link.Worlds first second) :
      Results (.ok value first) (.ok value second)
  | error {first : World κ} {second : World κ'} (halt : Halt EvalError)
      (worlds : link.Worlds first second) : Results (.error halt first) (.error halt second)
  | overflow {first : World κ} {result : EStateM.Result (Halt EvalError) (World κ') α}
      (roomier : link.roomier) : Results (.error .overflow first) result

def Agree (first : Eval κ α) (second : Eval κ' α) : Prop :=
  ∀ left right, link.Worlds left right → link.Results (first left) (second right)

def CallersAgree (first : Caller κ) (second : Caller κ') : Prop :=
  ∀ handle arguments, link.Agree (first handle arguments) (second handle arguments)

end Correspondence

namespace Code

mutual

/-- Code with other code in the place of every read of a slot. Custom code stays what it is. -/
def replaceSlots (read : Nat → TypeTag → Code) : Code → Code
  | .slot position tag => read position tag
  | .unary op operand => .unary op (operand.replaceSlots read)
  | .logical stopOn left right =>
      .logical stopOn (left.replaceSlots read) (right.replaceSlots read)
  | .coalesce left right => .coalesce (left.replaceSlots read) (right.replaceSlots read)
  | .compare op left right => .compare op (left.replaceSlots read) (right.replaceSlots read)
  | .intBinary op left right => .intBinary op (left.replaceSlots read) (right.replaceSlots read)
  | .doubleBinary op left right =>
      .doubleBinary op (left.replaceSlots read) (right.replaceSlots read)
  | .concat left right => .concat (left.replaceSlots read) (right.replaceSlots read)
  | .binary op left right => .binary op (left.replaceSlots read) (right.replaceSlots read)
  | .condition test whenTrue whenFalse =>
      .condition (test.replaceSlots read) (whenTrue.replaceSlots read) (whenFalse.replaceSlots read)
  | .member target name => .member (target.replaceSlots read) name
  | .index target arguments => .index (target.replaceSlots read) (replaceSlotsAll read arguments)
  | .call target method arguments =>
      .call (target.replaceSlots read) method (replaceSlotsAll read arguments)
  | .lambda arity body => .lambda arity (body.replaceSlots read)
  | .constant value => .constant value
  | .localAt position => .localAt position
  | .custom script => .custom script

def replaceSlotsAll (read : Nat → TypeTag → Code) : List Code → List Code
  | [] => []
  | code :: rest => code.replaceSlots read :: replaceSlotsAll read rest

end

mutual

theorem replaceSlots_slot : ∀ code : Code, code.replaceSlots .slot = code
  | .slot _ _ | .constant _ | .localAt _ | .custom _ => rfl
  | .unary _ operand | .member operand _ | .lambda _ operand => by
      rw [replaceSlots, replaceSlots_slot operand]
  | .logical _ left right | .coalesce left right | .compare _ left right
  | .intBinary _ left right | .doubleBinary _ left right | .concat left right
  | .binary _ left right => by
      rw [replaceSlots, replaceSlots_slot left, replaceSlots_slot right]
  | .condition test whenTrue whenFalse => by
      rw [replaceSlots, replaceSlots_slot test, replaceSlots_slot whenTrue,
        replaceSlots_slot whenFalse]
  | .index target arguments | .call target _ arguments => by
      rw [replaceSlots, replaceSlots_slot target, replaceSlotsAll_slot arguments]

theorem replaceSlotsAll_slot : ∀ codes : List Code, replaceSlotsAll .slot codes = codes
  | [] => rfl
  | code :: rest => by
      rw [replaceSlotsAll, replaceSlots_slot code, replaceSlotsAll_slot rest]

end

end Code

/-- A value that a computation can end with. -/
def Eval.Yields {κ α : Type} (run : Eval κ α) (value : α) : Prop :=
  ∃ before after, run before = .ok value after

section Monad

variable {κ α β : Type}

theorem Eval.bind_of_ok {run : Eval κ α} {next : α → Eval κ β} {before after : World κ} {value : α}
    (ended : run before = .ok value after) : (run >>= next) before = next value after := by
  change EStateM.bind run next before = _
  simp only [EStateM.bind, ended]

theorem Eval.bind_of_error {run : Eval κ α} {next : α → Eval κ β} {before after : World κ}
    {halt : Halt EvalError} (failed : run before = .error halt after) :
    (run >>= next) before = .error halt after := by
  change EStateM.bind run next before = _
  simp only [EStateM.bind, failed]

theorem Eval.yields_bind {run : Eval κ α} {next : α → Eval κ β} {value : β}
    (yields : Eval.Yields (run >>= next) value) :
    ∃ middle, Eval.Yields run middle ∧ Eval.Yields (next middle) value := by
  obtain ⟨before, after, ended⟩ := yields
  cases first : run before with
  | ok middle between =>
      rw [Eval.bind_of_ok first] at ended
      exact ⟨middle, ⟨before, between, first⟩, ⟨between, after, ended⟩⟩
  | error halt between =>
      rw [Eval.bind_of_error first] at ended
      cases ended

theorem Eval.yields_pure {first second : α} (yields : Eval.Yields (pure first : Eval κ α) second) :
    first = second := by
  obtain ⟨before, after, ended⟩ := yields
  cases ended
  rfl

theorem Eval.not_yields_throw {halt : Halt EvalError} {value : α} :
    ¬ Eval.Yields (throw halt : Eval κ α) value := by
  rintro ⟨before, after, ended⟩
  cases ended

theorem Eval.yields_lift {result : Except EvalError α} {value : α}
    (yields : Eval.Yields (liftM result : Eval κ α) value) : result = .ok value := by
  cases result with
  | ok found => rw [Eval.yields_pure yields]
  | error error => exact absurd yields Eval.not_yields_throw

end Monad

namespace Correspondence

variable {κ κ' α β : Type} {link : Correspondence κ κ'}

namespace Agree

theorem pure (value : α) : link.Agree (pure value) (Pure.pure value) :=
  fun _ _ worlds => .ok value worlds

theorem throw (halt : Halt EvalError) :
    link.Agree (throw halt : Eval κ α) (MonadExcept.throw halt) :=
  fun _ _ worlds => .error halt worlds

theorem lift (result : Except EvalError α) :
    link.Agree (liftM result : Eval κ α) (liftM result : Eval κ' α) := by
  cases result with
  | ok value => exact Agree.pure value
  | error error => exact Agree.throw (.failure error)

/-- The second parts need to agree only on values that the first part can end with. -/
theorem bind_of_yields {first : Eval κ α} {second : Eval κ' α} {next : α → Eval κ β}
    {next' : α → Eval κ' β} (start : link.Agree first second)
    (rest : ∀ value, Eval.Yields first value → link.Agree (next value) (next' value)) :
    link.Agree (first >>= next) (second >>= next') := by
  intro left right worlds
  have started := start left right worlds
  generalize leftRun : first left = leftEnd at started
  generalize rightRun : second right = rightEnd at started
  cases started with
  | ok value after =>
      rw [Eval.bind_of_ok leftRun, Eval.bind_of_ok rightRun]
      exact rest value ⟨left, _, leftRun⟩ _ _ after
  | error halt after =>
      rw [Eval.bind_of_error leftRun, Eval.bind_of_error rightRun]
      exact .error halt after
  | overflow roomier =>
      rw [Eval.bind_of_error leftRun]
      exact .overflow roomier

theorem bind {first : Eval κ α} {second : Eval κ' α} {next : α → Eval κ β}
    {next' : α → Eval κ' β} (start : link.Agree first second)
    (rest : ∀ value, link.Agree (next value) (next' value)) :
    link.Agree (first >>= next) (second >>= next') :=
  start.bind_of_yields fun value _ => rest value

theorem map {first : Eval κ α} {second : Eval κ' α} (f : α → β)
    (start : link.Agree first second) : link.Agree (f <$> first) (f <$> second) := by
  rw [map_eq_pure_bind, map_eq_pure_bind]
  exact start.bind fun value => Agree.pure (f value)

theorem attempt {first : Eval κ α} {second : Eval κ' α} (start : link.Agree first second) :
    link.Agree (Eval.attempt first) (Eval.attempt second) := by
  intro left right worlds
  have started := start left right worlds
  simp only [Eval.attempt]
  revert started
  generalize first left = leftEnd
  generalize second right = rightEnd
  intro started
  cases started with
  | ok value after => exact .ok (Except.ok value) after
  | error halt after =>
      cases halt with
      | failure error => exact .ok (Except.error error) after
      | overflow => exact .error .overflow after
  | overflow roomier => exact .overflow roomier

end Agree

theorem worlds_refl (link : Correspondence κ κ) (stateful : ¬ link.pureHosts)
    (same : ∀ arity closure, link.closures arity closure closure) {world : World κ}
    (objects : world.objects = link.objects) : link.Worlds world world where
  leftObjects := objects
  rightObjects := objects
  pureObjects pure := absurd pure stateful
  log _ := rfl
  memory _ := rfl
  room := .inl rfl
  size := rfl
  functions id := by
    cases world.functions[id]? with
    | none => exact .none
    | some function =>
        refine .some ⟨rfl, ?_⟩
        cases function.callable with
        | host behavior => exact .host behavior fun pure => absurd pure stateful
        | closure content => exact .closure (same _ content)

theorem Worlds.push {first : World κ} {second : World κ'} (worlds : link.Worlds first second)
    (event : Event) :
    link.Worlds { first with log := first.log.push event }
      { second with log := second.log.push event } :=
  { worlds with log := fun traced => congrArg (Array.push · event) (worlds.log traced) }

theorem Worlds.parts {first : World κ} {second : World κ'} (worlds : link.Worlds first second)
    (handle : ObjectRef) : first.parts handle = second.parts handle := by
  simp only [World.parts, worlds.leftObjects, worlds.rightObjects]

theorem Worlds.add {first : World κ} {second : World κ'} (worlds : link.Worlds first second)
    {left : Function κ} {right : Function κ'} (related : link.Functions left right) :
    link.Worlds { first with functions := first.functions.push left }
      { second with functions := second.functions.push right } := by
  refine { worlds with size := ?_, functions := ?_ }
  · simp only [Array.size_push, worlds.size]
  · intro id
    simp only [Array.getElem?_push, worlds.size]
    split
    · exact .some related
    · exact worlds.functions id

theorem agree_record (event : Event) :
    link.Agree (World.record event : Eval κ Unit) (World.record event : Eval κ' Unit) :=
  fun _ _ worlds => .ok () (worlds.push event)

theorem agree_newFunction {arity : Nat} {first : Callable κ} {second : Callable κ'}
    (related : link.Callables arity first second) :
    link.Agree (World.newFunction arity first) (World.newFunction arity second) := by
  intro left right worlds
  have same : World.newFunction arity second right =
      .ok ⟨left.functions.size, arity⟩
        { right with functions := right.functions.push ⟨arity, second⟩ } := by
    rw [worlds.size]
    rfl
  rw [same]
  exact .ok _ (worlds.add ⟨rfl, related⟩)

section Hosts

variable {call : Caller κ} {call' : Caller κ'}

/-- A reply is carried out alike: the hosts remember the same on both sides, or it does not go by
that. -/
theorem agree_play (callers : link.CallersAgree call call') (missing : EvalError) {reply : Reply}
    (pure : link.pureHosts → reply.Pure) :
    link.Agree (reply.play call missing) (reply.play call' missing) := by
  induction reply with
  | done result =>
      cases result with
      | none => exact .throw _
      | some result => exact .lift result
  | consult next ih =>
      have stateful : ¬ link.pureHosts := fun given => nomatch pure given
      intro left right worlds
      have same : left.memory = right.memory := worlds.memory stateful
      change link.Results ((next left.memory).play call missing left)
        ((next right.memory).play call' missing right)
      rw [← same]
      exact ih left.memory (fun given => absurd given stateful) left right worlds
  | remember memory next ih =>
      have stateful : ¬ link.pureHosts := fun given => nomatch pure given
      intro left right worlds
      exact ih (fun given => absurd given stateful) _ _ { worlds with memory := fun _ => rfl }
  | call handle arguments next ih =>
      refine (callers handle arguments).attempt.bind fun result => ih result fun given => ?_
      cases pure given with
      | call each => exact each result

theorem agree_answer (callers : link.CallersAgree call call') (part : Option Behavior)
    (arguments : List Value) (missing : EvalError)
    (pure : link.pureHosts → ∀ behavior ∈ part, (behavior arguments).Pure) :
    link.Agree (answer call part arguments missing) (answer call' part arguments missing) := by
  cases part with
  | none => exact .throw _
  | some behavior =>
      exact agree_play callers missing fun given => pure given behavior rfl

theorem Worlds.pure_parts {first : World κ} {second : World κ'} (worlds : link.Worlds first second)
    (pure : link.pureHosts) (handle : ObjectRef) : (first.parts handle).Pure :=
  World.pure_parts (worlds.leftObjects ▸ worlds.pureObjects pure) handle

theorem agree_member_object (callers : link.CallersAgree call call') (handle : ObjectRef)
    (name : String) : link.Agree (handle.member call name) (handle.member call' name) := by
  intro left right worlds
  have recorded := worlds.push (.member handle name)
  have answered := agree_answer callers ((left.parts handle).members.lookup name) []
    (.unknownMember name handle.typeName)
    (fun pure behavior found =>
      ((worlds.pure_parts pure handle).members name behavior found).reply []) _ _ recorded
  have parts := worlds.parts handle
  change link.Results _ (answer call' ((right.parts handle).members.lookup name) [] _ _)
  rw [← parts]
  exact answered

theorem agree_method_object (callers : link.CallersAgree call call') (handle : ObjectRef)
    (name : String) (arguments : List Value) :
    link.Agree (handle.method call name arguments) (handle.method call' name arguments) := by
  intro left right worlds
  have recorded := worlds.push (.method handle name arguments)
  have answered := agree_answer callers ((left.parts handle).methods.lookup name) arguments
    (.unknownMethod name handle.typeName)
    (fun pure behavior found =>
      ((worlds.pure_parts pure handle).methods name behavior found).reply arguments) _ _ recorded
  have parts := worlds.parts handle
  change link.Results _ (answer call' ((right.parts handle).methods.lookup name) arguments _ _)
  rw [← parts]
  exact answered

theorem agree_item_object (callers : link.CallersAgree call call') (handle : ObjectRef)
    (arguments : List Value) :
    link.Agree (handle.item call arguments) (handle.item call' arguments) := by
  intro left right worlds
  have recorded := worlds.push (.item handle arguments)
  have answered := agree_answer callers (left.parts handle).indexer arguments
    (.unknownMember "[]" handle.typeName)
    (fun pure behavior found =>
      ((worlds.pure_parts pure handle).indexer behavior found).reply arguments) _ _ recorded
  have parts := worlds.parts handle
  change link.Results _ (answer call' (right.parts handle).indexer arguments _ _)
  rw [← parts]
  exact answered

theorem agree_select (callers : link.CallersAgree call call') (handle : FunctionRef)
    (items : List Value) :
    link.Agree (Builtin.select call handle items) (Builtin.select call' handle items) := by
  induction items with
  | nil => exact .pure []
  | cons item items ih =>
      refine (callers handle [item]).bind fun first => ?_
      exact ih.bind fun rest => .pure (first :: rest)

theorem agree_test (callers : link.CallersAgree call call') (handle : FunctionRef) (item : Value) :
    link.Agree (Builtin.test call handle item) (Builtin.test call' handle item) :=
  (callers handle [item]).bind fun found => .lift found.toBool

theorem agree_keepWhere (callers : link.CallersAgree call call') (handle : FunctionRef)
    (items : List Value) :
    link.Agree (Builtin.keepWhere call handle items) (Builtin.keepWhere call' handle items) := by
  induction items with
  | nil => exact .pure []
  | cons item items ih =>
      refine (agree_test callers handle item).bind fun kept => ?_
      exact ih.bind fun rest => .pure (if kept then item :: rest else rest)

theorem agree_anyWhere (callers : link.CallersAgree call call') (handle : FunctionRef)
    (items : List Value) :
    link.Agree (Builtin.anyWhere call handle items) (Builtin.anyWhere call' handle items) := by
  induction items with
  | nil => exact .pure false
  | cons item items ih =>
      refine (agree_test callers handle item).bind fun passed => ?_
      cases passed with
      | true => exact .pure true
      | false => exact ih

theorem agree_listMethod? (callers : link.CallersAgree call call') (items : List Value)
    (name : String) (arguments : List Value) :
    Option.Rel link.Agree (Builtin.listMethod? call items name arguments)
      (Builtin.listMethod? call' items name arguments) := by
  fun_cases Builtin.listMethod? call items name arguments
  all_goals simp only [Builtin.listMethod?]
  · exact .some (.pure _)
  · exact .some (.pure _)
  · cases items with
    | nil => exact .some (.throw _)
    | cons item items => exact .some (.pure item)
  · exact .some ((agree_select callers _ _).map _)
  · exact .some ((agree_keepWhere callers _ _).map _)
  · exact .some ((agree_anyWhere callers _ _).map _)
  · exact .none

theorem agree_builtinMethod? (callers : link.CallersAgree call call') (target : Value)
    (name : String) (arguments : List Value) :
    Option.Rel link.Agree (Value.builtinMethod? call target name arguments)
      (Value.builtinMethod? call' target name arguments) := by
  simp only [Value.builtinMethod?]
  cases Value.commonMethod? target name arguments with
  | some value => exact .some (.pure value)
  | none =>
      cases target with
      | string text =>
          cases found : Builtin.stringMethod? text name arguments with
          | none => simpa only [found, Option.map_none] using Option.Rel.none
          | some result =>
              simpa only [found, Option.map_some] using Option.Rel.some (Agree.lift result)
      | list items => exact agree_listMethod? callers items name arguments
      | null | bool | int | double | object | function => exact .none

theorem agree_member (callers : link.CallersAgree call call') (target : Value) (name : String) :
    link.Agree (target.member call name) (target.member call' name) := by
  cases target with
  | object handle => exact agree_member_object callers handle name
  | string text =>
      simp only [Value.member]
      split
      · exact .pure _
      · exact .throw _
  | list items =>
      simp only [Value.member]
      split
      · exact .pure _
      · exact .throw _
  | null | bool | int | double | function => exact .throw _

theorem agree_item (callers : link.CallersAgree call call') (target : Value)
    (arguments : List Value) :
    link.Agree (target.item call arguments) (target.item call' arguments) := by
  fun_cases Value.item call target arguments
  all_goals simp only [Value.item]
  · exact agree_item_object callers _ arguments
  · exact .throw _
  · exact .lift _
  · exact .lift _
  · exact .throw _

theorem agree_method (callers : link.CallersAgree call call') (target : Value) (name : String)
    (arguments : List Value) :
    link.Agree (target.method call name arguments) (target.method call' name arguments) := by
  have builtin : link.Agree
      (Value.builtinMethod call target name arguments)
      (Value.builtinMethod call' target name arguments) := by
    simp only [Value.builtinMethod]
    have related := agree_builtinMethod? callers target name arguments
    revert related
    cases Value.builtinMethod? call target name arguments <;>
      cases Value.builtinMethod? call' target name arguments <;> intro related
    · exact .throw _
    · cases related
    · cases related
    · cases related with
      | some agree => exact agree
  cases target with
  | object handle => exact agree_method_object callers handle name arguments
  | null => exact .throw _
  | function handle =>
      simp only [Value.method]
      split
      · exact callers handle arguments
      · exact builtin
  | bool | int | double | string | list => exact builtin

end Hosts

section Calls

variable {enter : Caller κ → κ → List Value → Eval κ Value}
  {enter' : Caller κ' → κ' → List Value → Eval κ' Value}

/-- Closures that stand for each other agree when they are entered with as many arguments as
they take. -/
def EntersAgree (link : Correspondence κ κ') (enter : Caller κ → κ → List Value → Eval κ Value)
    (enter' : Caller κ' → κ' → List Value → Eval κ' Value) : Prop :=
  ∀ call call', link.CallersAgree call call' → ∀ first second arguments,
    link.closures arguments.length first second →
      link.Agree (enter call first arguments) (enter' call' second arguments)

theorem agree_apply (enters : link.EntersAgree enter enter') {call : Caller κ} {call' : Caller κ'}
    (callers : link.CallersAgree call call') (handle : FunctionRef) (arguments : List Value)
    {first : Function κ} {second : Function κ'} (related : link.Functions first second) :
    link.Agree (first.apply (enter call) call handle arguments)
      (second.apply (enter' call') call' handle arguments) := by
  obtain ⟨arity, callable⟩ := first
  obtain ⟨arity', callable'⟩ := second
  obtain ⟨same, callables⟩ := related
  dsimp only at same callables
  subst same
  simp only [Function.apply]
  split
  · exact .throw _
  · rename_i enough
    have count : arguments.length = arity := by simpa using enough
    cases callables with
    | host behavior pure =>
        refine (agree_record (.call handle arguments)).bind fun _ => ?_
        exact agree_play callers _ fun given => pure given arguments
    | closure closures =>
        rw [← count] at closures
        exact enters call call' callers _ _ arguments closures

theorem agree_run (enters : link.EntersAgree enter enter') {call : Caller κ} {call' : Caller κ'}
    (callers : link.CallersAgree call call') (handle : FunctionRef) (arguments : List Value) :
    link.Agree (handle.run (enter call) call arguments)
      (handle.run (enter' call') call' arguments) := by
  intro left right worlds
  have leftRun : handle.run (enter call) call arguments left =
      left.functions[handle.id]?.elim (.error (.failure (.host "no entry")) left)
        fun function => function.apply (enter call) call handle arguments left := by
    simp only [FunctionRef.run]
    rw [Eval.bind_of_ok (rfl : (get : Eval κ (World κ)) left = .ok left left)]
    cases left.functions[handle.id]? <;> rfl
  have rightRun : handle.run (enter' call') call' arguments right =
      right.functions[handle.id]?.elim (.error (.failure (.host "no entry")) right)
        fun function => function.apply (enter' call') call' handle arguments right := by
    simp only [FunctionRef.run]
    rw [Eval.bind_of_ok (rfl : (get : Eval κ' (World κ')) right = .ok right right)]
    cases right.functions[handle.id]? <;> rfl
  rw [leftRun, rightRun]
  have related := worlds.functions handle.id
  revert related
  cases left.functions[handle.id]? <;> cases right.functions[handle.id]? <;> intro related
  · exact .error _ worlds
  · cases related
  · cases related
  · cases related with
    | some functions => exact agree_apply enters callers handle arguments functions _ _ worlds

theorem Rooms.inner {first second : Nat} (rooms : link.Rooms (first + 1) second) :
    ∃ inner, second = inner + 1 ∧ link.Rooms first inner := by
  rcases rooms with rfl | ⟨roomier, less⟩
  · exact ⟨first, rfl, .inl rfl⟩
  · refine ⟨second - 1, by omega, .inr ⟨roomier, by omega⟩⟩

theorem callers_agree (enters : link.EntersAgree enter enter') {depth depth' : Nat}
    (rooms : link.Rooms depth depth') :
    link.CallersAgree (callWithin enter depth) (callWithin enter' depth') := by
  -- Calls may nest to the same depth on both sides, or deeper on the second.
  induction depth generalizing depth' with
  | zero =>
      rcases rooms with rfl | ⟨roomier, -⟩
      · exact fun _ _ => .throw .overflow
      · exact fun _ _ _ _ _ => .overflow roomier
  | succ depth ih =>
      obtain ⟨inner, rfl, within⟩ := rooms.inner
      exact fun handle arguments => agree_run enters (ih within) handle arguments

theorem callers_agree_inRoom (enters : link.EntersAgree enter enter') :
    link.CallersAgree (callInRoom enter) (callInRoom enter') :=
  fun handle arguments left right worlds =>
    callers_agree enters worlds.room handle arguments left right worlds

end Calls

section Code

variable {keep : Closure → κ} {keep' : Closure → κ'} {call : Caller κ} {call' : Caller κ'}

mutual

/-- Code agrees with the code that stands for its reads of slots, in worlds that keep its closures
for each other. -/
theorem agree_replaceSlots (callers : link.CallersAgree call call')
    (same : ∀ arity closure, link.closures arity (keep closure) (keep' closure)) {frame : Frame}
    {read : Nat → TypeTag → Code}
    (reads : ∀ position tag, link.Agree ((Code.slot position tag).eval keep call frame)
      ((read position tag).eval keep' call' frame))
    (kept : ∀ arity body, link.closures arity (keep ⟨frame, body⟩)
      (keep' ⟨frame, body.replaceSlots read⟩)) (code : Code) :
    link.Agree (code.eval keep call frame) ((code.replaceSlots read).eval keep' call' frame) :=
  match code with
  | .constant value => .pure value
  | .slot position tag => reads position tag
  | .localAt position => .pure (frame.localAt position)
  | .unary op operand => by
      refine (agree_replaceSlots callers same reads kept operand).bind fun value => ?_
      exact .lift (Value.unary op value)
  | .logical stopOn left right => by
      refine (agree_replaceSlots callers same reads kept left).bind fun found => ?_
      refine (Agree.lift found.toBool).bind fun first => ?_
      split
      · exact .pure _
      · refine (agree_replaceSlots callers same reads kept right).bind fun found => ?_
        exact (Agree.lift found.toBool).bind fun second => .pure _
  | .coalesce left right => by
      refine (agree_replaceSlots callers same reads kept left).bind fun first => ?_
      split
      · exact agree_replaceSlots callers same reads kept right
      · exact .pure first
  | .compare op left right => by
      refine (agree_replaceSlots callers same reads kept left).bind fun first => ?_
      refine (agree_replaceSlots callers same reads kept right).bind fun second => ?_
      exact (Agree.lift (Value.compare op first second)).bind fun answer => .pure _
  | .intBinary op left right => by
      refine (agree_replaceSlots callers same reads kept left).bind fun first => ?_
      refine (agree_replaceSlots callers same reads kept right).bind fun second => ?_
      exact .lift (Code.combineInts op first second)
  | .doubleBinary op left right => by
      refine (agree_replaceSlots callers same reads kept left).bind fun first => ?_
      refine (agree_replaceSlots callers same reads kept right).bind fun second => ?_
      exact .lift (Code.combineDoubles op first second)
  | .concat left right => by
      refine (agree_replaceSlots callers same reads kept left).bind fun first => ?_
      refine (agree_replaceSlots callers same reads kept right).bind fun second => ?_
      exact .pure (Value.concat first second)
  | .binary op left right => by
      refine (agree_replaceSlots callers same reads kept left).bind fun first => ?_
      refine (agree_replaceSlots callers same reads kept right).bind fun second => ?_
      exact .lift (Value.binary op first second)
  | .condition test whenTrue whenFalse => by
      refine (agree_replaceSlots callers same reads kept test).bind fun found => ?_
      refine (Agree.lift found.toBool).bind fun flag => ?_
      cases flag with
      | true => exact agree_replaceSlots callers same reads kept whenTrue
      | false => exact agree_replaceSlots callers same reads kept whenFalse
  | .member target name => by
      refine (agree_replaceSlots callers same reads kept target).bind fun owner => ?_
      exact agree_member callers owner name
  | .index target arguments => by
      refine (agree_replaceSlots callers same reads kept target).bind fun owner => ?_
      refine (agree_replaceSlotsAll callers same reads kept arguments).bind fun values => ?_
      exact agree_item callers owner values
  | .call target method arguments => by
      refine (agree_replaceSlots callers same reads kept target).bind fun owner => ?_
      refine (agree_replaceSlotsAll callers same reads kept arguments).bind fun values => ?_
      exact agree_method callers owner method values
  | .lambda arity body => by
      refine (agree_newFunction (.closure (kept arity body))).bind fun handle => ?_
      exact .pure _
  | .custom script => agree_follow callers same (script frame)

theorem agree_replaceSlotsAll (callers : link.CallersAgree call call')
    (same : ∀ arity closure, link.closures arity (keep closure) (keep' closure)) {frame : Frame}
    {read : Nat → TypeTag → Code}
    (reads : ∀ position tag, link.Agree ((Code.slot position tag).eval keep call frame)
      ((read position tag).eval keep' call' frame))
    (kept : ∀ arity body, link.closures arity (keep ⟨frame, body⟩)
      (keep' ⟨frame, body.replaceSlots read⟩)) (codes : List Code) :
    link.Agree (Code.evalAll keep call frame codes)
      (Code.evalAll keep' call' frame (Code.replaceSlotsAll read codes)) :=
  match codes with
  | [] => .pure []
  | code :: rest => by
      refine (agree_replaceSlots callers same reads kept code).bind fun first => ?_
      refine (agree_replaceSlotsAll callers same reads kept rest).bind fun others => ?_
      exact .pure (first :: others)

theorem agree_follow (callers : link.CallersAgree call call')
    (same : ∀ arity closure, link.closures arity (keep closure) (keep' closure))
    (script : Script) :
    link.Agree (Code.follow keep call script) (Code.follow keep' call' script) :=
  match script with
  | .done result => .lift result
  | .remark text next => by
      refine (agree_record (.remark text)).bind fun _ => ?_
      exact agree_follow callers same next
  | .evaluate code frame next => by
      -- The code that a script evaluates is the same on both sides, slots included.
      have agree : link.Agree (code.eval keep call frame)
          ((code.replaceSlots .slot).eval keep' call' frame) := agree_replaceSlots callers same
        (fun position tag => .lift ((frame.slot position).convert tag))
        (fun arity body => by rw [Code.replaceSlots_slot]; exact same arity ⟨frame, body⟩) code
      rw [Code.replaceSlots_slot] at agree
      refine agree.attempt.bind fun result => ?_
      exact agree_follow callers same (next result)

end

/-- The same code agrees with itself in worlds that keep its closures for each other. -/
theorem agree_eval (callers : link.CallersAgree call call')
    (same : ∀ arity closure, link.closures arity (keep closure) (keep' closure)) (frame : Frame)
    (code : Code) : link.Agree (code.eval keep call frame) (code.eval keep' call' frame) := by
  have agree := agree_replaceSlots callers same
    (fun position tag => .lift ((frame.slot position).convert tag))
    (fun arity body => by rw [Code.replaceSlots_slot]; exact same arity ⟨frame, body⟩) code
  rwa [Code.replaceSlots_slot] at agree

end Code

section SameCode

/-- Worlds with the same functions, whatever their logs say or however much more room the second
has. -/
def sameCode (objects : Array HostObject) (traced roomier : Prop) :
    Correspondence Closure Closure where
  closures _ first second := first = second
  objects := objects
  traced := traced
  roomier := roomier

/-- Worlds that differ in their logs only. -/
abbrev unlogged (objects : Array HostObject) : Correspondence Closure Closure :=
  sameCode objects False False

/-- Worlds that differ in their room only, of which the second has no less. -/
abbrev inMoreRoom (objects : Array HostObject) : Correspondence Closure Closure :=
  sameCode objects True True

variable {objects : Array HostObject} {traced roomier : Prop}

theorem sameCode_callers : (sameCode objects traced roomier).CallersAgree callFunction
    callFunction := by
  refine callers_agree_inRoom ?_
  intro call call' callers closure closure' arguments same
  have equal : closure = closure' := same
  subst equal
  exact agree_eval callers (fun _ _ => rfl) _ closure.body

theorem agree_fragment (root : Fragment) (frame : Frame) :
    (sameCode objects traced roomier).Agree (root.eval frame) (root.eval frame) :=
  agree_eval sameCode_callers (fun _ _ => rfl) frame root.code

theorem unlogged_log (world : World Closure) (log : Array Event) :
    (unlogged world.objects).Worlds { world with log } world :=
  { worlds_refl (unlogged world.objects) id (fun _ _ => rfl) rfl with
    log := fun traced => traced.elim }

theorem inMoreRoom_room (world : World Closure) {room : Nat} (more : world.room ≤ room) :
    (inMoreRoom world.objects).Worlds world { world with room } :=
  { worlds_refl (inMoreRoom world.objects) id (fun _ _ => rfl) rfl with
    room := .inr ⟨trivial, more⟩ }

theorem Worlds.functions_eq {first second : World Closure}
    (worlds : (sameCode objects traced roomier).Worlds first second) :
    first.functions = second.functions := by
  apply Array.ext_getElem?
  intro id
  have related := worlds.functions id
  revert related
  cases first.functions[id]? <;> cases second.functions[id]? <;> intro related
  · rfl
  · cases related
  · cases related
  · rename_i left right
    obtain ⟨arity, callable⟩ := left
    obtain ⟨arity', callable'⟩ := right
    cases related with
    | some functions =>
        obtain ⟨same, callables⟩ := functions
        cases same
        cases callables with
        | host behavior => rfl
        | closure content =>
            cases content
            rfl

/-- Worlds that differ in nothing but their logs. -/
theorem Worlds.eq_of_unlogged {first second : World Closure}
    (worlds : (unlogged objects).Worlds first second) :
    first = { second with log := first.log } := by
  have functions := worlds.functions_eq
  have memory : first.memory = second.memory := worlds.memory id
  have room : first.room = second.room := worlds.room.resolve_right fun more => more.1
  have same : first.objects = second.objects := worlds.leftObjects.trans worlds.rightObjects.symm
  obtain ⟨_, _, _, _, _⟩ := first
  obtain ⟨_, _, _, _, _⟩ := second
  simp_all only

end SameCode

end Correspondence

end Tether

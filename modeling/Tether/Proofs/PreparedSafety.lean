import Tether.Proofs.Preparation

set_option autoImplicit false

/- What can go wrong once an expression is prepared. A resolved tree leaves nothing to the builders
that they cannot handle, so that building it can fail over types only. -/
namespace Tether

/-- A build that can fail only because operand types do not fit. -/
def TypesOnly {α : Type} (built : Except CompileError α) : Prop :=
  ∀ error, built = .error error → ∃ expression reason, error = .typeMismatch expression reason

namespace TypesOnly

variable {α β : Type}

theorem ok (value : α) : TypesOnly (.ok value) := nofun

theorem mismatch (expression reason : String) :
    TypesOnly (.error (.typeMismatch expression reason) : Except CompileError α) := by
  rintro error ⟨⟩
  exact ⟨expression, reason, rfl⟩

theorem bind {first : Except CompileError α} {next : α → Except CompileError β}
    (start : TypesOnly first) (rest : ∀ value, TypesOnly (next value)) :
    TypesOnly (first >>= next) := by
  cases first with
  | ok value => exact rest value
  | error error =>
      obtain ⟨expression, reason, rfl⟩ := start error rfl
      exact mismatch expression reason

end TypesOnly

namespace Builder

theorem requireTest_types (expression : String) (test : Fragment) :
    TypesOnly (requireTest expression test) := by
  unfold requireTest
  split
  · exact .ok ()
  · exact .mismatch _ _

theorem requireBool_types (expression : String) (operand : Fragment) :
    TypesOnly (requireBool expression operand) := by
  unfold requireBool
  split
  · exact .ok ()
  · exact .mismatch _ _

theorem applyUnary_types (expression : String) (op : UnaryOp) (operand : Fragment) :
    TypesOnly (applyUnary expression op operand) := by
  unfold applyUnary
  split
  · exact .mismatch _ _
  · split <;> exact .ok _

theorem specialize_types (expression : String) (op : BinaryOp) (left right : Fragment) :
    TypesOnly (specialize expression op left right) := by
  unfold specialize
  split
  · exact .mismatch _ _
  · split
    · exact .ok _
    · split
      · exact .ok _
      · split <;> exact .ok _

theorem applyBinary_types (expression : String) (op : BinaryOp) (left right : Fragment) :
    TypesOnly (applyBinary expression op left right) := by
  unfold applyBinary
  split
  · exact .ok _
  · unfold combine
    split
    · refine (requireBool_types expression left).bind fun _ => ?_
      exact (requireBool_types expression right).bind fun _ => .ok _
    · refine (requireBool_types expression left).bind fun _ => ?_
      exact (requireBool_types expression right).bind fun _ => .ok _
    · exact .ok _
    · split
      · exact .ok _
      · exact specialize_types expression op left right

theorem planAll_types {fallback : Expr → Option Fragment} {names : List String}
    {arguments : List Expr}
    (each : ∀ argument ∈ arguments, TypesOnly (plan fallback argument names)) :
    TypesOnly (planAll fallback arguments names) := by
  induction arguments with
  | nil => exact .ok []
  | cons argument rest ih =>
      rw [List.forall_mem_cons] at each
      rw [planAll, List.mapM_cons, map_eq_pure_bind]
      refine (each.1.bind fun fragment => .ok _).bind fun code => ?_
      exact (ih each.2).bind fun codes => .ok _

theorem planName_declared {fallback : Expr → Option Fragment} {names : List String} {expr : Expr}
    {name : String} (declared : names.contains name) :
    TypesOnly (planName fallback expr name names) := by
  have found : (BuildContext.lastIndex? name names).isSome := by
    induction names with
    | nil => cases declared
    | cons first rest ih =>
        simp only [BuildContext.lastIndex?]
        split
        · rfl
        · rename_i missing
          rw [List.contains_cons, Bool.or_eq_true] at declared
          rcases declared with here | later
          · rw [if_pos (by simpa using (beq_iff_eq.mp here).symm)]
            rfl
          · have found := ih later
            rw [missing] at found
            cases found
  obtain ⟨position, here⟩ := Option.isSome_iff_exists.mp found
  simp only [planName, here]
  exact .ok _

end Builder

/-- Every explicit parameter stands inside a lambda that declares its name. -/
def Expr.isClosed : Expr → List String → Bool :=
  para fun _ node scope =>
    match node with
    | .parameter name => scope.contains name
    | .lambda parameters (_, body) => body (scope ++ parameters)
    | node => node.children.all fun child => child.2 scope

namespace Expr

variable {id : NodeId} {scope : List String}

theorem isClosed_parameter (name : String) :
    isClosed (.mk id (.parameter name)) scope = scope.contains name := rfl

theorem isClosed_lambda (parameters : List String) (body : Expr) :
    isClosed (.mk id (.lambda parameters body)) scope = body.isClosed (scope ++ parameters) := rfl

/-- Only lambdas declare parameters. -/
theorem isClosed_child {node : Node Expr} (closed : isClosed (.mk id node) scope)
    (undeclaring : ∀ parameters body, node ≠ .lambda parameters body) {child : Expr}
    (found : child ∈ node.children) : child.isClosed scope := by
  rw [isClosed, para_mk] at closed
  cases node with
  | parameter => cases found
  | lambda parameters body => exact absurd rfl (undeclaring parameters body)
  | _ =>
      change ((Node.map _ _).children.all fun child : Expr × (List String → Bool) =>
        child.2 scope) = true at closed
      rw [Node.children_map, List.all_map, List.all_eq_true] at closed
      exact closed child found

end Expr

namespace Resolver

open Builder

/-- Building a resolved tree fails over types only, if placeholders and the nodes that stand for
chains can be built. -/
theorem Resolved.plan_types {resolver : Resolver} {leaf : Chain → Expr → Prop}
    {fallback : Expr → Option Fragment}
    (stands : ∀ chain node names, leaf chain node → TypesOnly (plan fallback node names))
    (supplied : ∀ id reference names,
      TypesOnly (plan fallback (.mk id (.placeholder reference)) names))
    {scope : List String} {expr result : Expr}
    (resolved : Resolved resolver leaf scope expr result) (closed : expr.isClosed scope) :
    TypesOnly (plan fallback result scope) := by
  have receiver {scope : List String} {target : Option Expr} {target' : Expr}
      (root : target = none → leaf { root := resolver.defaultRoot } target')
      (owner : ∀ expr, target = some expr → expr.isClosed scope →
        TypesOnly (plan fallback target' scope))
      (below : ∀ expr, target = some expr → expr.isClosed scope) :
      TypesOnly (plan fallback target' scope) := by
    cases target with
    | none => exact stands _ _ scope (root rfl)
    | some expr => exact owner expr rfl (below expr rfl)
  have others {scope : List String} {arguments arguments' : List Expr}
      (count : arguments.length = arguments'.length)
      (each : ∀ pair ∈ arguments.zip arguments', pair.1.isClosed scope →
        TypesOnly (plan fallback pair.2 scope))
      (below : ∀ argument ∈ arguments, argument.isClosed scope) :
      TypesOnly (planAll fallback arguments' scope) := by
    refine planAll_types fun argument found => ?_
    rw [← List.map_snd_zip (Nat.le_of_eq count.symm)] at found
    obtain ⟨pair, member, rfl⟩ := List.mem_map.mp found
    exact each pair member (below pair.1 (List.of_mem_zip member).1)
  -- There is a case for every form that a resolution leaves in a tree, and builders for each.
  induction resolved with
  | constant value => exact .ok _
  | parameter name =>
      rw [Expr.isClosed_parameter] at closed
      rw [plan_parameter]
      exact planName_declared closed
  | bound declared =>
      rw [plan_parameter]
      exact planName_declared declared
  | @placeholder scope id reference => exact supplied id reference scope
  | chain flat stood => exact stands _ _ _ stood
  | member name _ _ owner =>
      rw [plan_member]
      have below := owner (Expr.isClosed_child closed (by simp) (by simp [Node.children]))
      exact below.bind fun _ => .ok _
  | index _ root _ count _ owner each =>
      rw [plan_index]
      refine (receiver root owner fun expr given => ?_).bind fun _ => ?_
      · exact Expr.isClosed_child closed (by simp) (by simp [Node.children, given])
      · refine (others count each fun argument found => ?_).bind fun _ => .ok _
        exact Expr.isClosed_child closed (by simp) (by simp [Node.children, found])
  | call method root _ count _ owner each =>
      rw [plan_call]
      refine (receiver root owner fun expr given => ?_).bind fun _ => ?_
      · exact Expr.isClosed_child closed (by simp) (by simp [Node.children, given])
      · refine (others count each fun argument found => ?_).bind fun _ => .ok _
        exact Expr.isClosed_child closed (by simp) (by simp [Node.children, found])
  | unary computes _ inner =>
      rw [plan_unary computes]
      have below := inner (Expr.isClosed_child closed (by simp) (by simp [Node.children]))
      exact below.bind fun _ => applyUnary_types _ _ _
  | binary op _ _ first second =>
      rw [plan_binary]
      have left := first (Expr.isClosed_child closed (by simp) (by simp [Node.children]))
      have right := second (Expr.isClosed_child closed (by simp) (by simp [Node.children]))
      exact left.bind fun _ => right.bind fun _ => applyBinary_types _ _ _ _
  | condition _ _ _ first second third =>
      rw [plan_condition]
      have test := first (Expr.isClosed_child closed (by simp) (by simp [Node.children]))
      have whenTrue := second (Expr.isClosed_child closed (by simp) (by simp [Node.children]))
      have whenFalse := third (Expr.isClosed_child closed (by simp) (by simp [Node.children]))
      refine test.bind fun _ => (requireTest_types _ _).bind fun _ => ?_
      exact whenTrue.bind fun _ => whenFalse.bind fun _ => .ok _
  | lambda _ inner =>
      rw [Expr.isClosed_lambda] at closed
      rw [plan_lambda]
      exact (inner closed).bind fun _ => .ok _

/-- With an argument for every key, a resolved tree fails over types only. -/
theorem Resolved.reading_types {κ : Type} {call : Caller κ} {terms : Terms κ}
    {progress : Progress κ} {resolver : Resolver} {scope : List String} {expr result : Expr}
    (resolved : Resolved resolver (Leaf call terms progress) scope expr result)
    (closed : expr.isClosed scope) (expression : Expr) (answer : PlaceholderKey → Argument) :
    TypesOnly (plan (expression.reading answer) result scope) := by
  have supplied (id : NodeId) (reference : Placeholder) (names : List String) :
      TypesOnly (plan (expression.reading answer) (.mk id (.placeholder reference)) names) :=
    .ok _
  refine resolved.plan_types (fun chain node names leaf => ?_) supplied closed
  cases leaf with
  | placeholder => exact supplied _ _ names
  | constant | statics => exact .ok _

end Resolver

/-- The store with some other room for calls. -/
def Store.withRoom (store : Store) (room : Nat) : Store :=
  { store with world := { store.world with room } }

namespace Prepared

variable {settings : ResolveSettings} {directory : Directory} {expr : Expr} {isTarget : Bool}
  {metadata : Option Metadata} {store : Store} {prepared : Prepared}

theorem Reached.resolved
    (reached : Reached { settings, directory } expr isTarget metadata store prepared) :
    ∃ after, Engine.resolve { settings, directory } expr isTarget store =
      (.ok prepared.expression, after) := by
  induction reached with
  | prepared accepted =>
      obtain ⟨halt, failed⟩ | ⟨expression, after, ended, finished⟩ :=
        Engine.prepare_cases settings directory expr isTarget metadata store
      · rw [failed] at accepted
        cases accepted
      · rw [finished] at accepted
        rw [Engine.finish_expression accepted]
        exact ⟨after, ended⟩
  | invoked before now unmoved arguments callMetadata ih => exact ih

/-- What comes of an expression whose building fails over types only. -/
theorem answering_types {expression : Expr} {answer : PlaceholderKey → Argument}
    (types : TypesOnly (Builder.plan (expression.reading answer) expression []))
    (callMetadata : Option Metadata) (world : World Closure) {error : Error}
    (failed : (expression.answering answer callMetadata world).1 = .error (.failure error)) :
    (∃ cause, error = .eval cause) ∨
      ∃ part reason, error = .compile (.typeMismatch part reason) := by
  simp only [Expr.answering] at failed
  cases planned : Builder.plan (expression.reading answer) expression [] with
  | error cause =>
      rw [planned] at failed
      cases failed
      obtain ⟨part, reason, rfl⟩ := types cause planned
      exact .inr ⟨part, reason, rfl⟩
  | ok root =>
      rw [planned] at failed
      simp only [Compiled.outcome] at failed
      split at failed
      · cases failed
      · rename_i halt after ended
        cases halt with
        | overflow => cases failed
        | failure cause =>
            cases failed
            exact .inl ⟨cause, rfl⟩

/-- What returns is the same in more room. -/
theorem answering_roomier (expression : Expr) (answer : PlaceholderKey → Argument)
    (callMetadata : Option Metadata) (world : World Closure) {room : Nat}
    (more : world.room ≤ room)
    (returns : (expression.answering answer callMetadata world).1 ≠ .error .overflow) :
    (expression.answering answer callMetadata { world with room }).1 =
      (expression.answering answer callMetadata world).1 := by
  simp only [Expr.answering] at returns ⊢
  cases planned : Builder.plan (expression.reading answer) expression [] with
  | error cause => rfl
  | ok root =>
      rw [planned] at returns
      simp only [Compiled.outcome] at returns ⊢
      have ended := Correspondence.agree_fragment root
        { slots := expression.keys.map fun key => (answer key).value, metadata := callMetadata }
        _ _ (Correspondence.inMoreRoom_room world more)
      revert ended returns
      generalize root.eval _ world = ran
      generalize root.eval _ { world with room } = ran'
      intro returns ended
      cases ended with
      | ok value => rfl
      | error halt => rfl
      | overflow => exact absurd rfl returns

/-- A prepared expression cannot get stuck. What returns from preparing fails only where names
cannot be resolved. Every call with one argument for each member passes the check of their number,
and if it returns, in whatever room, then with a value, with a failure of the evaluation, or with
operand types that do not fit. More room does not change that. -/
theorem invoke_unstuck (raw : Resolver.Raw expr store.next) (fresh : store.Fresh)
    (closed : expr.isClosed [])
    (few : ∀ resolved after,
      Engine.resolve { settings, directory } expr isTarget store = (.ok resolved, after) →
        resolved.keys.length ≤ Numbering.capacity) :
    (∀ error, (Engine.prepare { settings, directory } expr isTarget metadata store).1 =
      .error (.failure error) → ∃ cause, error = .resolve cause) ∧
    ∀ prepared, Reached { settings, directory } expr isTarget metadata store prepared →
      ∀ now : Store, Compiled.Unmoved prepared.expression
        (Engine.prepare { settings, directory } expr isTarget metadata store).2.slots now.slots →
      ∀ arguments : List Argument, arguments.length = prepared.members.length →
      ∀ callMetadata,
        (∃ content, prepared.callee = .compiled content ∧
          content.memberCount = arguments.length) ∧
        (∀ error, (prepared.invoke arguments callMetadata now).1 = .error (.failure error) →
          (∃ cause, error = .eval cause) ∨
            ∃ part reason, error = .compile (.typeMismatch part reason)) ∧
        ∀ room, now.world.room ≤ room →
          (prepared.invoke arguments callMetadata now).1 ≠ .error .overflow →
            (prepared.invoke arguments callMetadata (now.withRoom room)).1 =
              (prepared.invoke arguments callMetadata now).1 := by
  constructor
  · intro error failed
    obtain ⟨halt, unresolved⟩ | ⟨expression, after, ended, finished⟩ :=
      Engine.prepare_cases settings directory expr isTarget metadata store
    · rw [unresolved] at failed
      cases halt with
      | overflow => cases failed
      | failure cause =>
          cases failed
          exact ⟨cause, rfl⟩
    · obtain ⟨resolved, -⟩ := Engine.resolve_eq_ok ended
      obtain ⟨progress, good, related⟩ := Resolver.resolve_resolved_any raw.old resolved
      obtain ⟨prepared, accepted⟩ := Engine.finish_accepts (related.oneKey raw.bare good)
        (few expression after ended) metadata after
      rw [finished, accepted] at failed
      cases failed
  · intro prepared reached now unmoved arguments enough callMetadata
    have ready := reached.ready raw fresh
    have count : arguments.length = prepared.expression.keys.length := by
      rw [enough, ← ready.members, List.length_map]
    obtain ⟨content, callee, -, size⟩ := ready.callee
    let answer := prepared.expression.answerFor arguments
    have invoked : (prepared.invoke arguments callMetadata now).1 =
        (prepared.expression.answering answer callMetadata now.world).1 :=
      congrArg Prod.fst (ready.invoke_answers unmoved count callMetadata)
    refine ⟨⟨content, callee, size.trans count.symm⟩, fun error failed => ?_, ?_⟩
    · obtain ⟨after, ended⟩ := reached.resolved
      obtain ⟨progress, good, related⟩ :=
        Resolver.resolve_resolved_any raw.old (Engine.resolve_eq_ok ended).1
      have types := related.reading_types closed prepared.expression answer
      rw [invoked] at failed
      exact answering_types types callMetadata now.world failed
    · intro room more returns
      have still : Compiled.Unmoved prepared.expression
          (Engine.prepare { settings, directory } expr isTarget metadata store).2.slots
          (now.withRoom room).slots := unmoved
      have elsewhere : (prepared.invoke arguments callMetadata (now.withRoom room)).1 =
          (prepared.expression.answering answer callMetadata { now.world with room }).1 :=
        congrArg Prod.fst (ready.invoke_answers still count callMetadata)
      rw [invoked] at returns ⊢
      rw [elsewhere]
      exact answering_roomier prepared.expression answer callMetadata now.world more returns

/-- A condition that picks a lambda, called with a test that is not declared as a flag. -/
theorem invoke_unstuck_condition :
    let expr : Expr := .mk 0 (.condition (.mk 1 (.member none "Flag"))
      (.mk 2 (.lambda ["x"] (.mk 3 (.parameter "x")))) (.mk 4 (.constant .null)))
    let ran := Engine.prepare {} expr false none { next := 5 }
    ∃ prepared, ran.1 = .ok prepared ∧
      ∀ room error,
        (prepared.invoke [⟨.int, .int 1⟩] none (ran.2.withRoom room)).1 =
          .error (.failure error) →
        (∃ cause, error = .eval cause) ∨
          ∃ part reason, error = .compile (.typeMismatch part reason) := by
  intro expr ran
  have raw : Resolver.Raw expr 5 :=
    ⟨by simp [expr, Expr.everywhere_mk, Node.children, Expr.id], rfl⟩
  have fresh : Store.Fresh { next := 5 } := fun _ _ => by simp [Slots.none]
  have closed : expr.isClosed [] := by decide
  obtain ⟨resolved, ended, size, prepared, accepted, count⟩ :
      ∃ resolved, (Engine.resolve {} expr false { next := 5 }).1 = .ok resolved ∧
        resolved.keys.length ≤ Numbering.capacity ∧
        ∃ prepared, ran.1 = .ok prepared ∧ prepared.members.length = 1 :=
    ⟨_, rfl, by decide, _, rfl, rfl⟩
  have few (other : Expr) (after : Store)
      (resolves : Engine.resolve {} expr false { next := 5 } = (.ok other, after)) :
      other.keys.length ≤ Numbering.capacity := by
    rw [resolves] at ended
    cases ended
    exact size
  refine ⟨prepared, accepted, fun room => ?_⟩
  have unmoved : Compiled.Unmoved prepared.expression ran.2.slots (ran.2.withRoom room).slots :=
    fun _ _ => rfl
  have safe := (invoke_unstuck raw fresh closed few).2 prepared (.prepared accepted) _ unmoved
    [⟨.int, .int 1⟩] count.symm none
  exact safe.2.1

section Endless

/-- Calls its argument with the argument itself. -/
def selfApply (id : NodeId) : Expr :=
  .mk id (.lambda ["x"] (.mk (id + 1)
    (.call (some (.mk (id + 2) (.parameter "x"))) "Invoke" [.mk (id + 3) (.parameter "x")])))

/-- The code of such a lambda's body. -/
def selfApplyCode : Code :=
  .call (.localAt 0) "Invoke" [.localAt 0]

/-- The handle stands for such a function. -/
def SelfApplies (world : World Closure) (handle : FunctionRef) : Prop :=
  ∃ frame, frame.locals = [] ∧
    world.functions[handle.id]? = some ⟨1, .closure ⟨frame, selfApplyCode⟩⟩

/-- One call leads to the next, however deep calls may nest. -/
theorem callWithin_selfApplies {world : World Closure} {handle argument : FunctionRef}
    (applies : SelfApplies world handle) (again : SelfApplies world argument) (depth : Nat) :
    callWithin (Closure.enter id) depth handle [.function argument] world =
      .error .overflow world := by
  induction depth generalizing handle with
  | zero => rfl
  | succ depth ih =>
      obtain ⟨frame, outermost, found⟩ := applies
      have next : callWithin (Closure.enter id) (depth + 1) handle [.function argument] world =
          callWithin (Closure.enter id) depth argument [.function argument] world := by
        have here : (get : Eval Closure (World Closure)) world = .ok world world := rfl
        change handle.run (Closure.enter id (callWithin _ depth)) (callWithin _ depth) _ world = _
        rw [FunctionRef.run, Eval.bind_of_ok here, found]
        simp only [Function.apply, Closure.enter, outermost, List.nil_append]
        rfl
      rw [next]
      exact ih again

/-- A function that calls itself by way of its argument does not return, whatever the room: neither
with a value nor with a failure. -/
theorem invoke_endless :
    let expr : Expr := .mk 0 (.call (some (selfApply 1)) "Invoke" [selfApply 5])
    let ran := Engine.prepare {} expr false none { next := 9 }
    Resolver.Raw expr 9 ∧ expr.isClosed [] ∧
      ∃ prepared, ran.1 = .ok prepared ∧ prepared.members = [] ∧
        ∀ room, (prepared.invoke [] none (ran.2.withRoom room)).1 = .error .overflow := by
  intro expr ran
  have raw : Resolver.Raw expr 9 :=
    ⟨by simp [expr, selfApply, Expr.everywhere_mk, Node.children, Expr.id], rfl⟩
  have fresh : Store.Fresh { next := 9 } := fun _ _ => by simp [Slots.none]
  let copy (id call inner : NodeId) : Expr := .mk id (.lambda ["x"] (.mk call
    (.call (some (.mk inner (.parameter "x"))) "Invoke" [.mk (inner + 1) (.parameter "x")])))
  let resolved : Expr := .mk 13 (.call (some (copy 10 9 3)) "Invoke" [copy 12 11 7])
  obtain ⟨prepared, accepted, same, members⟩ :
      ∃ prepared, ran.1 = .ok prepared ∧ prepared.expression = resolved ∧
        prepared.members = [] := by
    have resolves : Engine.resolve { settings := {}, directory := {} } expr false { next := 9 } =
        (.ok resolved, { next := 14 }) := rfl
    have finished : ran = Engine.finish resolved none { next := 14 } :=
      Engine.prepare_of_resolved resolves
    rw [finished, Engine.finish_eq_foldl]
    exact ⟨_, rfl, rfl, rfl⟩
  obtain ⟨root, planned, code⟩ :
      ∃ root, Builder.plan (resolved.reading fun _ => .empty) resolved [] = .ok root ∧
          root.code = .call (.lambda 1 selfApplyCode) "Invoke" [.lambda 1 selfApplyCode] :=
    ⟨_, rfl, rfl⟩
  refine ⟨raw, by decide, prepared, accepted, members, fun room => ?_⟩
  have ready := (Reached.prepared accepted).ready raw fresh
  have unmoved : Compiled.Unmoved prepared.expression ran.2.slots (ran.2.withRoom room).slots :=
    fun _ _ => rfl
  have keyless : resolved.keys = [] := rfl
  have invoked := ready.invoke_eq unmoved (fun _ => .empty) none
  rw [same, keyless] at invoked
  have answered : (prepared.invoke [] none (ran.2.withRoom room)).1 =
      (resolved.answering (fun _ => .empty) none { room }).1 := congrArg Prod.fst invoked
  rw [answered, Expr.answering, planned]
  simp only [Compiled.outcome, Fragment.eval, code]
  -- Both lambdas are made before the first of them is called with the second.
  let made : Function Closure := ⟨1, .closure ⟨{}, selfApplyCode⟩⟩
  let world : World Closure := { functions := #[made, made], room }
  have applies : SelfApplies world ⟨0, 1⟩ := ⟨{}, rfl, rfl⟩
  have again : SelfApplies world ⟨1, 1⟩ := ⟨{}, rfl, rfl⟩
  have ended := callWithin_selfApplies applies again room
  have called : Code.eval id callFunction { slots := [], metadata := none }
      (.call (.lambda 1 selfApplyCode) "Invoke" [.lambda 1 selfApplyCode]) { room } =
        callWithin (Closure.enter id) room ⟨0, 1⟩ [.function ⟨1, 1⟩] world := rfl
  rw [keyless, List.map_nil, called, ended]
  rfl

end Endless

end Prepared

end Tether

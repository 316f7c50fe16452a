import Tether.Proofs.CompiledMeaning

set_option autoImplicit false

/- Runs of calls. A compiled expression keeps the code that its calls had built, and no later call
can tell: it ends as it would on a copy that was never called. -/
namespace Tether

theorem Shape.ofTypes_injective {types types' : List TypeTag}
    (same : Shape.ofTypes types = .ofTypes types') : types = types' := by
  rw [← Shape.types_ofTypes types, same, Shape.types_ofTypes]

/-- One call: the slots that placeholders have at the time, what the caller passes, and the world
that the call is made in. -/
structure Call where
  slots : Slots
  arguments : List Argument
  metadata : Option Metadata := none
  world : World Closure := {}

namespace Call

def types (call : Call) : List TypeTag :=
  call.arguments.map Argument.tag

def frame (call : Call) : Frame :=
  { slots := call.arguments.map Argument.value, metadata := call.metadata }

end Call

namespace Compiled

def serve (compiled : Compiled) (call : Call) :
    Except (Halt Error) Value × Compiled × World Closure :=
  compiled.invoke call.slots call.arguments call.metadata call.world

/-- The expression after some calls. -/
def after (compiled : Compiled) (calls : List Call) : Compiled :=
  calls.foldl (fun compiled call => (compiled.serve call).2.1) compiled

variable {compiled : Compiled} {call : Call}

theorem serve_refused (wrong : call.arguments.length ≠ compiled.memberCount) :
    compiled.serve call =
      (.error (.failure (.eval (.argumentCount compiled.memberCount call.arguments.length))),
        compiled, call.world) :=
  invoke_refused wrong call.slots call.metadata call.world

/-- How a call ends once there is code for it, or none. -/
def finish (call : Call) (built : Except CompileError Fragment) (remarks : List String) :
    Except (Halt Error) Value × World Closure :=
  match built with
  | .error error => (.error (.failure (.compile error)), call.world.remark remarks)
  | .ok root => outcome (root.eval call.frame) (call.world.remark remarks)

theorem serve_eq (enough : call.arguments.length = compiled.memberCount) :
    let fetched := compiled.fetch call.slots (.ofTypes call.types)
    let ended := finish call (Invoker.root <$> fetched.result) fetched.remarks
    compiled.serve call = (ended.1, fetched.compiled, ended.2) := by
  have counted : (call.arguments.length != compiled.memberCount) = false := by simp [enough]
  have shape : Shape.ofTypes call.types = .ofArguments call.arguments := rfl
  simp only [serve, invoke, counted, Bool.false_eq_true, if_false, shape]
  obtain ⟨result, after, remarks⟩ := compiled.fetch call.slots (.ofArguments call.arguments)
  cases result with
  | error error => rfl
  | ok invoker =>
      simp only [Invoker.invoke]
      change _ = ((outcome (invoker.root.eval call.frame) (call.world.remark remarks)).1, after,
        (outcome (invoker.root.eval call.frame) (call.world.remark remarks)).2)
      simp only [outcome, Call.frame]
      cases invoker.root.eval
        { slots := call.arguments.map Argument.value, metadata := call.metadata }
        (call.world.remark remarks) <;> rfl

/-- The remarks of builders are all that tells a call with a build from one without. -/
theorem finish_remarks (call : Call) (built : Except CompileError Fragment)
    (remarks remarks' : List String) :
    (finish call built remarks).1 = (finish call built remarks').1 ∧
      ∃ log, (finish call built remarks).2 = { (finish call built remarks').2 with log } := by
  have quiet (texts : List String) :
      (finish call built texts).1 = (finish call built []).1 ∧
        ∃ log, (finish call built texts).2 = { (finish call built []).2 with log } := by
    cases built with
    | error error => exact ⟨rfl, _, rfl⟩
    | ok root =>
        simp only [finish, World.remark_nil]
        exact outcome_unlogged root call.frame call.world _
  obtain ⟨result, log, left⟩ := quiet remarks
  obtain ⟨result', log', right⟩ := quiet remarks'
  exact ⟨result.trans result'.symm, log, by rw [left, right]⟩

theorem fetch_cached {slots : Slots} {shape : Shape} {invoker : Invoker}
    (cached : compiled.cache.get? shape = some invoker) :
    compiled.fetch slots shape = { result := .ok invoker, compiled } := by
  simp only [fetch, cached]

theorem fetch_built {slots : Slots} {shape : Shape} (missing : compiled.cache.get? shape = none) :
    let built := compiled.build slots shape
    compiled.fetch slots shape =
      { result := built.result
        compiled := match built.result with
          | .ok invoker => { compiled with cache := compiled.cache.insert shape invoker }
          | .error _ => compiled
        remarks := built.remarks } := by
  simp only [fetch, missing]
  cases (compiled.build slots shape).result <;> rfl

/-- What a build for some types starts from. -/
def startContext (compiled : Compiled) (slots : Slots) (types : List TypeTag) : BuildContext :=
  declare (.start slots compiled.metadata) 0 compiled.members types

theorem declare_metadata {context : BuildContext} {position : Nat} {members : SlotMembers}
    {types : List TypeTag} :
    (declare context position members types).metadata = context.metadata := by
  fun_induction declare context position members types with
  | case1 context position id reference members type types ih => rw [ih]; rfl
  | case2 context position members type types ih => exact ih
  | case3 => rfl

/-- The build of an expression itself, from there on. -/
def built (compiled : Compiled) (slots : Slots) (types : List TypeTag) : Built Fragment :=
  Builder.build compiled.chain compiled.expression (compiled.startContext slots types)

theorem build_ofTypes (compiled : Compiled) (slots : Slots) (types : List TypeTag) :
    Invoker.root <$> (compiled.build slots (.ofTypes types)).result =
        (compiled.built slots types).result ∧
      (compiled.build slots (.ofTypes types)).remarks = (compiled.built slots types).remarks := by
  have starts : declare (.start slots compiled.metadata) 0 compiled.members
      (Shape.ofTypes types).types = compiled.startContext slots types := by
    rw [Shape.types_ofTypes, startContext]
  simp only [build, built, starts]
  change Invoker.root <$> (Build.bind _ _ _).result = _ ∧ (Build.bind _ _ _).remarks = _
  simp only [Build.bind]
  obtain ⟨result, context, remarks⟩ :=
    Builder.build compiled.chain compiled.expression (compiled.startContext slots types)
  cases result with
  | error error => exact ⟨rfl, rfl⟩
  | ok root => exact ⟨rfl, List.append_nil remarks⟩

/-- Moving slots of placeholders that are not declared changes no declaration. -/
theorem declare_moved (context : BuildContext) (now : Slots) {position : Nat}
    {members : SlotMembers} {types : List TypeTag}
    (unmoved : ∀ known, some known ∈ members → now known.1 = context.slots known.1) :
    declare { context with slots := now } position members types =
      { declare context position members types with slots := now } := by
  fun_induction declare context position members types with
  | case1 context position id reference members type types ih =>
      have here : now id = context.slots id := unmoved (id, reference) List.mem_cons_self
      rw [declare, ← ih fun known later => unmoved known (List.mem_cons_of_mem _ later)]
      simp only [BuildContext.setFallback, FragmentKey.ofPlaceholder, here]
  | case2 context position members type types ih =>
      rw [declare, ih fun known later => unmoved known (List.mem_cons_of_mem _ later)]
  | case3 => rw [declare] <;> assumption

end Compiled

/-- Builders that look no further than the expression: where the placeholders of others stand
changes neither the code they make nor their remarks. -/
def Builder.Contained (chain : List Builder) (expression : Expr) : Prop :=
  ∀ (context : BuildContext) (now : Slots), Compiled.Unmoved expression context.slots now →
    (build chain expression { context with slots := now }).result =
        (build chain expression context).result ∧
      (build chain expression { context with slots := now }).remarks =
        (build chain expression context).remarks

theorem Builder.contained_standard (expression : Expr) : Contained standard expression := by
  intro context now unmoved
  rw [build_standard, build_standard]
  refine ⟨congrFun (plan_congr fun part inside => ?_) _, rfl⟩
  obtain ⟨id, node⟩ := part
  cases node with
  | placeholder reference =>
      have here : now id = context.slots id :=
        unmoved (id, reference) (List.mem_filterMap.mpr ⟨_, inside, rfl⟩)
      change context.fallbacks.get? (.placeholder (now id) reference.path) =
        context.fallbacks.get? (.placeholder (context.slots id) reference.path)
      rw [here]
  | _ => rfl

namespace Compiled

section Runs

/-- Builds give the same wherever other placeholders have moved. -/
def Steady (slots : Slots) (fresh : Compiled) : Prop :=
  ∀ (now : Slots) (shape : Shape), Unmoved fresh.expression slots now →
    (fresh.build now shape).result = (fresh.build slots shape).result ∧
      (fresh.build now shape).remarks = (fresh.build slots shape).remarks

theorem compile_steady {chain : List Builder} {slots : Slots} {expression : Expr}
    {metadata : Option Metadata} {fresh : Compiled} (contained : Builder.Contained chain expression)
    (accepted : compile chain slots expression metadata = .ok fresh) : Steady slots fresh := by
  obtain ⟨members, listed, made⟩ := ok_of_bind accepted
  cases made
  intro now shape unmoved
  have entered := SlotMembers.ofExpr_entered listed
  let context := declare (.start slots metadata) 0 members shape.types
  have starts : declare (.start now metadata) 0 members shape.types =
      { context with slots := now } := by
    refine declare_moved (.start slots metadata) now fun known member => ?_
    obtain ⟨position, here⟩ := List.mem_iff_getElem?.mp member
    exact unmoved known (entered.listed position known here).1
  have stayed : Unmoved expression context.slots now := by
    rw [declare_slots]
    exact unmoved
  have same := contained context now stayed
  simp only [build, starts]
  change (Build.bind _ _ _).result = (Build.bind _ _ context).result ∧
    (Build.bind _ _ _).remarks = (Build.bind _ _ context).remarks
  simp only [Build.bind, same.1, same.2]
  cases (Builder.build chain expression context).result <;> exact ⟨rfl, rfl⟩

/-- What some calls leave of a compiled expression: all but the cache is as it was, and the cache
holds what builds gave for the types of these calls. -/
structure Kept (slots : Slots) (fresh : Compiled) (calls : List Call) (used : Compiled) :
    Prop where
  rest : used = { fresh with cache := used.cache }
  distinct : used.shapes.Nodup
  code (shape : Shape) (invoker : Invoker) (cached : used.cache.get? shape = some invoker) :
    (fresh.build slots shape).result = .ok invoker
  shapes (shape : Shape) : shape ∈ used.shapes ↔ ∃ call ∈ calls, shape = .ofTypes call.types ∧
    call.arguments.length = fresh.memberCount ∧ (fresh.build slots shape).result.isOk

variable {slots : Slots} {fresh used : Compiled} {call : Call} {calls : List Call}

theorem exists_mem_append_singleton {property : Call → Prop} :
    (∃ made ∈ calls ++ [call], property made) ↔
      (∃ made ∈ calls, property made) ∨ property call := by
  simp only [List.mem_append, List.mem_singleton, or_and_right, exists_or, exists_eq_left]

theorem Kept.build (kept : Kept slots fresh calls used) (now : Slots) (shape : Shape) :
    used.build now shape = fresh.build now shape := by
  rw [kept.rest]
  rfl

theorem Kept.memberCount (kept : Kept slots fresh calls used) :
    used.memberCount = fresh.memberCount := by
  rw [kept.rest]
  rfl

/-- A call that leaves the cache alone, as it is refused, its code is there or cannot be built. -/
theorem Kept.unchanged (kept : Kept slots fresh calls used)
    (idle : call.arguments.length = fresh.memberCount →
      (fresh.build slots (.ofTypes call.types)).result.isOk →
        .ofTypes call.types ∈ used.shapes) :
    Kept slots fresh (calls ++ [call]) used := by
  refine { kept with shapes := fun shape => ?_ }
  rw [exists_mem_append_singleton, ← kept.shapes]
  refine (or_iff_left_of_imp ?_).symm
  rintro ⟨rfl, enough, builds⟩
  exact idle enough builds

/-- A call that has code built for it and leaves it in the cache. -/
theorem Kept.stored (kept : Kept slots fresh calls used)
    (enough : call.arguments.length = fresh.memberCount) {invoker : Invoker}
    (built : (fresh.build slots (.ofTypes call.types)).result = .ok invoker) :
    Kept slots fresh (calls ++ [call])
      { used with cache := used.cache.insert (.ofTypes call.types) invoker } where
  rest := by
    dsimp only
    rw [kept.rest]
  distinct := Table.nodup_keys_insert kept.distinct _ _
  code shape found cached := by
    dsimp only at cached
    rw [Table.get?_insert] at cached
    split at cached
    · rename_i same
      cases cached
      rw [same, built]
    · exact kept.code shape found cached
  shapes shape := by
    change shape ∈ (used.cache.insert _ invoker).keys ↔ _
    rw [Table.mem_keys_insert, exists_mem_append_singleton, ← kept.shapes, or_comm]
    refine or_congr_right (and_iff_left_of_imp ?_).symm
    rintro rfl
    rw [built]
    exact ⟨enough, rfl⟩

/-- One call. -/
theorem Kept.serve (kept : Kept slots fresh calls used) (steady : Steady slots fresh)
    (unmoved : Unmoved fresh.expression slots call.slots) :
    Kept slots fresh (calls ++ [call]) (used.serve call).2.1 := by
  by_cases enough : call.arguments.length = used.memberCount
  · rw [serve_eq enough]
    cases cached : used.cache.get? (.ofTypes call.types) with
    | some invoker =>
        rw [fetch_cached cached]
        exact kept.unchanged fun _ _ => Table.mem_keys.mpr ⟨invoker, cached⟩
    | none =>
        rw [fetch_built cached, kept.build, (steady _ _ unmoved).1]
        cases built : (fresh.build slots (.ofTypes call.types)).result with
        | error error =>
            refine kept.unchanged fun _ builds => ?_
            rw [built] at builds
            cases builds
        | ok invoker => exact kept.stored (enough.trans kept.memberCount) built
  · rw [serve_refused enough]
    exact kept.unchanged fun counted _ => absurd (counted.trans kept.memberCount.symm) enough

/-- Any number of calls, from wherever earlier ones left the cache. -/
theorem Kept.after {later : List Call} (kept : Kept slots fresh calls used)
    (steady : Steady slots fresh)
    (unmoved : ∀ call ∈ later, Unmoved fresh.expression slots call.slots) :
    Kept slots fresh (calls ++ later) (used.after later) := by
  induction later generalizing calls used with
  | nil =>
      rw [List.append_nil]
      exact kept
  | cons call later ih =>
      have next := kept.serve steady (unmoved call List.mem_cons_self)
      have rest := ih next fun other made => unmoved other (List.mem_cons_of_mem call made)
      rwa [List.append_assoc] at rest

theorem compile_kept {chain : List Builder} {expression : Expr} {metadata : Option Metadata}
    (accepted : compile chain slots expression metadata = .ok fresh) :
    Kept slots fresh [] fresh := by
  obtain ⟨members, -, made⟩ := ok_of_bind accepted
  cases made
  refine ⟨rfl, List.nodup_nil, nofun, fun shape => ?_⟩
  exact iff_of_false List.not_mem_nil fun ⟨call, made, _⟩ => absurd made List.not_mem_nil

theorem Kept.mem_types (kept : Kept slots fresh calls used) (types : List TypeTag) :
    types ∈ used.shapes.map Shape.types ↔ .ofTypes types ∈ used.shapes := by
  rw [List.mem_map]
  constructor
  · rintro ⟨shape, cached, rfl⟩
    obtain ⟨call, -, rfl, -⟩ := (kept.shapes shape).mp cached
    rwa [Shape.types_ofTypes]
  · intro cached
    exact ⟨.ofTypes types, cached, Shape.types_ofTypes types⟩

theorem Kept.nodup_types (kept : Kept slots fresh calls used) :
    (used.shapes.map Shape.types).Nodup := by
  refine List.pairwise_map.mpr (kept.distinct.imp_of_mem ?_)
  intro first second cached cached' apart same
  obtain ⟨call, -, rfl, -⟩ := (kept.shapes first).mp cached
  obtain ⟨call', -, rfl, -⟩ := (kept.shapes second).mp cached'
  rw [Shape.types_ofTypes, Shape.types_ofTypes] at same
  exact apart (congrArg Shape.ofTypes same)

/-- The types that the cache knows. -/
theorem Kept.mem_known (kept : Kept slots fresh calls used) (types : List TypeTag) :
    types ∈ used.shapes.map Shape.types ↔ ∃ call ∈ calls, call.types = types ∧
      call.arguments.length = fresh.memberCount ∧ (fresh.built slots types).result.isOk := by
  have buildable : (fresh.build slots (.ofTypes types)).result.isOk =
      (fresh.built slots types).result.isOk := by
    rw [← (build_ofTypes fresh slots types).1]
    cases (fresh.build slots (.ofTypes types)).result <;> rfl
  rw [kept.mem_types, kept.shapes, buildable]
  refine exists_congr fun call => and_congr_right fun _ => and_congr_left fun _ => ?_
  exact ⟨fun same => (Shape.ofTypes_injective same).symm, fun same => same ▸ rfl⟩

/-- How a call ends after others: by code that a build from scratch gives, with the remarks of the
build unless the code was there. -/
theorem Kept.serve_finish (kept : Kept slots fresh calls used) (steady : Steady slots fresh)
    (unmoved : Unmoved fresh.expression slots call.slots)
    (enough : call.arguments.length = fresh.memberCount) :
    ((used.serve call).1, (used.serve call).2.2) =
      finish call (fresh.built slots call.types).result
        (if call.types ∈ used.shapes.map Shape.types then []
          else (fresh.built slots call.types).remarks) := by
  obtain ⟨code, noted⟩ := build_ofTypes fresh slots call.types
  rw [serve_eq (enough.trans kept.memberCount.symm), ← code, ← noted]
  simp only [kept.mem_types]
  cases cached : used.cache.get? (.ofTypes call.types) with
  | some invoker =>
      have held : .ofTypes call.types ∈ used.shapes := Table.mem_keys.mpr ⟨invoker, cached⟩
      rw [fetch_cached cached, if_pos held, kept.code _ _ cached]
  | none =>
      have missing : .ofTypes call.types ∉ used.shapes := by
        intro held
        obtain ⟨invoker, found⟩ := Table.mem_keys.mp held
        rw [cached] at found
        cases found
      obtain ⟨result, remarks⟩ := steady call.slots (.ofTypes call.types) unmoved
      rw [fetch_built cached, if_neg missing, kept.build, result, remarks]

/-- No call can tell which calls were made before it. -/
theorem Kept.serve_alike {calls' : List Call} {used' : Compiled}
    (kept : Kept slots fresh calls used) (kept' : Kept slots fresh calls' used')
    (steady : Steady slots fresh) (unmoved : Unmoved fresh.expression slots call.slots) :
    (used.serve call).1 = (used'.serve call).1 ∧
      ∃ log, (used.serve call).2.2 = { (used'.serve call).2.2 with log } := by
  by_cases enough : call.arguments.length = fresh.memberCount
  · let built := fresh.built slots call.types
    have same := finish_remarks call built.result
      (if call.types ∈ used.shapes.map Shape.types then [] else built.remarks)
      (if call.types ∈ used'.shapes.map Shape.types then [] else built.remarks)
    rwa [← kept.serve_finish steady unmoved enough,
      ← kept'.serve_finish steady unmoved enough] at same
  · have wrong : call.arguments.length ≠ used.memberCount := kept.memberCount ▸ enough
    have wrong' : call.arguments.length ≠ used'.memberCount := kept'.memberCount ▸ enough
    rw [serve_refused wrong, serve_refused wrong', kept.memberCount, kept'.memberCount]
    exact ⟨rfl, _, rfl⟩

/-- A call that finds its code, or is refused, does not ask the builders. -/
theorem Kept.serve_unasked (kept : Kept slots fresh calls used) (other : List Builder)
    (known : call.arguments.length = fresh.memberCount → .ofTypes call.types ∈ used.shapes) :
    { used with chain := other }.serve call =
      ((used.serve call).1, { used with chain := other }, (used.serve call).2.2) := by
  by_cases enough : call.arguments.length = used.memberCount
  · obtain ⟨invoker, cached⟩ := Table.mem_keys.mp (known (enough.trans kept.memberCount))
    have enough' : call.arguments.length = { used with chain := other }.memberCount := enough
    have cached' : { used with chain := other }.cache.get? (.ofTypes call.types) = some invoker :=
      cached
    rw [serve_eq enough', fetch_cached cached', serve_eq enough, fetch_cached cached]
  · have wrong : call.arguments.length ≠ { used with chain := other }.memberCount := enough
    rw [serve_refused wrong, serve_refused enough]
    rfl

theorem compile_parts {chain : List Builder} {expression : Expr} {metadata : Option Metadata}
    (accepted : compile chain slots expression metadata = .ok fresh) :
    chain = fresh.chain ∧ expression = fresh.expression ∧ metadata = fresh.metadata := by
  obtain ⟨members, -, made⟩ := ok_of_bind accepted
  cases made
  exact ⟨rfl, rfl, rfl⟩

theorem startContext_metadata {types : List TypeTag} (now : Slots)
    (distinct : ∀ base ∈ fresh.metadata, base.keys.Nodup) :
    (fresh.startContext now types).metadata = fresh.metadata.getD {} := by
  rw [startContext, declare_metadata]
  change Table.merge {} (fresh.metadata.getD {}) = _
  cases given : fresh.metadata with
  | none => rfl
  | some base => exact Table.merge_empty (distinct base given)

/-- The cache cannot be told over a run of calls, whatever the builders are. After any calls, the
next one ends as on a fresh copy. The cache lists the types that some call brought in the right
number and that code can be built for, each once. Builders are asked for a list of types that is not
there yet, and each build starts from the metadata of the compilation. -/
theorem after_transparent {chain : List Builder} {expression : Expr} {metadata : Option Metadata}
    (contained : Builder.Contained chain expression)
    (accepted : compile chain slots expression metadata = .ok fresh)
    (unmoved : ∀ call ∈ calls, Unmoved expression slots call.slots) :
    let used := fresh.after calls
    let known := used.shapes.map Shape.types
    let built (types : List TypeTag) :=
      Builder.build chain expression (fresh.startContext slots types)
    (∀ call : Call, Unmoved expression slots call.slots →
      (used.serve call).1 = (fresh.serve call).1 ∧
        ∃ log, (used.serve call).2.2 = { (fresh.serve call).2.2 with log }) ∧
    known.Nodup ∧
    (∀ types, types ∈ known ↔ ∃ call ∈ calls, call.types = types ∧
      call.arguments.length = fresh.memberCount ∧ (built types).result.isOk) ∧
    (∀ (call : Call) (other : List Builder),
      call.arguments.length ≠ fresh.memberCount ∨ call.types ∈ known →
        { used with chain := other }.serve call =
          ((used.serve call).1, { used with chain := other }, (used.serve call).2.2)) ∧
    (∀ call : Call, Unmoved expression slots call.slots →
      call.arguments.length = fresh.memberCount →
        ((used.serve call).1, (used.serve call).2.2) =
          finish call (built call.types).result
            (if call.types ∈ known then [] else (built call.types).remarks)) ∧
    ((∀ base ∈ metadata, base.keys.Nodup) →
      ∀ now types, (fresh.startContext now types).metadata = metadata.getD {}) := by
  obtain ⟨rfl, rfl, rfl⟩ := compile_parts accepted
  intro used known built
  have steady : Steady slots fresh := compile_steady contained accepted
  have start : Kept slots fresh [] fresh := compile_kept accepted
  have kept : Kept slots fresh calls used := start.after steady unmoved
  refine ⟨fun call here => kept.serve_alike start steady here, kept.nodup_types, kept.mem_known,
    fun call other idle => kept.serve_unasked other fun enough => ?_,
    fun call here enough => kept.serve_finish steady here enough,
    fun distinct now types => startContext_metadata now distinct⟩
  rcases idle with wrong | cached
  · exact absurd enough wrong
  · exact (kept.mem_types call.types).mp cached

/-- The evaluation of one call fails, the code of another cannot be built, and a third brings no
argument: only the first leaves code, which then serves a call that succeeds, when a placeholder
elsewhere has got a slot of its own. -/
theorem after_transparent_negated :
    let negated : Expr := .mk 0 (.unary .negate
      (.mk 1 (.placeholder { path := "Count", root := .source, flags := {}, kind := .member })))
    let slots : Slots := fun id => if id = 1 then 0 else -1
    let later : Slots := fun id => if id = 1 then 0 else if id = 7 then 3 else -1
    let calls : List Call := [{ slots, arguments := [⟨.int, .string "x"⟩] },
      { slots, arguments := [⟨.bool, .bool true⟩] }, { slots, arguments := [] }]
    ∃ fresh, compile Builder.standard slots negated none = .ok fresh ∧
      ((fresh.after calls).serve { slots := later, arguments := [⟨.int, .int 5⟩] }).1 =
        .ok (.int (-5)) ∧
      [TypeTag.int] ∈ (fresh.after calls).shapes.map Shape.types ∧
      [TypeTag.bool] ∉ (fresh.after calls).shapes.map Shape.types := by
  intro negated slots later calls
  let fresh : Compiled :=
    { expression := negated
      members := [some (1, { path := "Count", root := .source, flags := {}, kind := .member })]
      chain := Builder.standard
      metadata := none }
  have accepted : compile Builder.standard slots negated none = .ok fresh := rfl
  have ints : (Builder.build Builder.standard negated (fresh.startContext slots [.int])).result =
      .ok { tag := .int, code := .unary .negate (.slot 0 .int) } := by
    rw [Builder.build_standard]
    rfl
  have bools : (Builder.build Builder.standard negated
      (fresh.startContext slots [.bool])).result.isOk = false := by
    rw [Builder.build_standard]
    rfl
  have moved : Unmoved negated slots later := by
    intro found member
    rw [List.mem_singleton.mp member]
    rfl
  have unmoved : ∀ call ∈ calls, Unmoved negated slots call.slots := by simp [calls, Unmoved]
  obtain ⟨-, -, cached, -, ends, -⟩ :=
    after_transparent (Builder.contained_standard negated) accepted unmoved
  have held : [TypeTag.int] ∈ (fresh.after calls).shapes.map Shape.types := by
    refine (cached _).mpr ⟨_, List.mem_cons_self, rfl, rfl, ?_⟩
    rw [ints]
    rfl
  refine ⟨fresh, accepted, ?_, held, fun other => ?_⟩
  · have ended := ends { slots := later, arguments := [⟨.int, .int 5⟩] } moved rfl
    simp only [Call.types, List.map, ints] at ended
    exact congrArg Prod.fst ended
  · obtain ⟨-, -, -, -, builds⟩ := (cached _).mp other
    rw [bools] at builds
    cases builds

end Runs

end Compiled

end Tether

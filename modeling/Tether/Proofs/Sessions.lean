import Tether.Proofs.Preparation

set_option autoImplicit false

/- Sessions: expressions are prepared and called in any order over one store.

A slot belongs to a node, and one node may stand in several expressions, so preparing an expression
can move the slots of those before it. Code that is already there does not look at slots, and code
that is yet to be built only tells placeholders of one path apart by them. As long as it can, a call
ends as if nothing else had been prepared; when it cannot, it may read another placeholder's
argument. -/
namespace Tether

/-- What the user of a session asks for. Calls name an expression by its place among those
prepared so far. -/
inductive Request where
  | prepare (engine : Engine) (expr : Expr) (isTarget : Bool) (metadata : Option Metadata)
  | invoke (position : Nat) (arguments : List Argument) (metadata : Option Metadata)

def Request.isInvoke : Request → Bool
  | .prepare .. => false
  | .invoke .. => true

structure Session where
  store : Store := {}
  prepared : List Prepared := []

namespace Session

/-- One more expression is ready. -/
def accept (session : Session) (prepared : Prepared) (store : Store) : Session :=
  { store, prepared := session.prepared ++ [prepared] }

/-- Calls the expression at a position, if there is one. -/
def invoke (session : Session) (position : Nat) (arguments : List Argument)
    (metadata : Option Metadata) : Option (Except (Halt Error) Value) × Session :=
  match session.prepared[position]? with
  | none => (none, session)
  | some prepared =>
      let (result, prepared, store) := prepared.invoke arguments metadata session.store
      (some result, { store, prepared := session.prepared.set position prepared })

def serve (session : Session) : Request → Session
  | .prepare engine expr isTarget metadata =>
      match engine.prepare expr isTarget metadata session.store with
      | (.ok prepared, store) => session.accept prepared store
      | (.error _, store) => { session with store }
  | .invoke position arguments metadata => (session.invoke position arguments metadata).2

def run (session : Session) (requests : List Request) : Session :=
  requests.foldl serve session

def inWorld (session : Session) (world : World Closure) : Session :=
  { session with store := { session.store with world } }

theorem inWorld_own (session : Session) : session.inWorld session.store.world = session := rfl

/-- A call for these types finds its code in the cache, or the placeholders of the expression are
still told apart as `slots` told them. -/
def Settled (session : Session) (position : Nat) (expression : Expr) (slots : Slots)
    (types : List TypeTag) : Prop :=
  ∀ prepared content, session.prepared[position]? = some prepared →
    prepared.callee = .compiled content → content.cache.get? (.ofTypes types) = none →
    SlotMembers.Aligned slots session.store.slots expression.placeholders

end Session

/-- Placeholders that are told apart by their paths need no slots for it. -/
theorem SlotMembers.aligned_of_paths {placeholders : List (NodeId × Placeholder)}
    (distinct : ∀ found ∈ placeholders, ∀ other ∈ placeholders,
      found.2.path = other.2.path → found.1 = other.1) (slots now : Slots) :
    Aligned slots now placeholders := by
  intro found member other listed path
  rw [distinct found member other listed path]
  exact ⟨fun _ => rfl, fun _ => rfl⟩

namespace Compiled

variable {slots now now' : Slots} {fresh : Compiled} {cache cache' : Table Shape Invoker}
  {arguments : List Argument}

/-- What calls have cached makes no difference, nor do slots that stay aligned. -/
theorem invoke_alike (intact : Intact slots fresh.expression { fresh with cache })
    (intact' : Intact slots fresh.expression { fresh with cache := cache' })
    (aligned : cache.get? (.ofArguments arguments) = none →
      SlotMembers.Aligned slots now fresh.expression.placeholders)
    (aligned' : cache'.get? (.ofArguments arguments) = none →
      SlotMembers.Aligned slots now' fresh.expression.placeholders)
    (metadata : Option Metadata) (world : World Closure) :
    let ran := { fresh with cache }.invoke now arguments metadata world
    let ran' := { fresh with cache := cache' }.invoke now' arguments metadata world
    (ran.1, ran.2.2) = (ran'.1, ran'.2.2) := by
  intro ran ran'
  by_cases enough : arguments.length = fresh.memberCount
  · exact (invoke_aligned intact aligned enough metadata world).trans
      (invoke_aligned intact' aligned' enough metadata world).symm
  · have wrong : arguments.length ≠ { fresh with cache }.memberCount := enough
    have wrong' : arguments.length ≠ { fresh with cache := cache' }.memberCount := enough
    simp only [ran, ran', invoke_refused wrong, invoke_refused wrong']
    rfl

/-- A call that has to build is answered by the fallback table of the moment. -/
theorem invoke_uncached (compiled : Compiled) (arguments : List Argument)
    (chain : compiled.chain = Builder.standard)
    (missing : compiled.cache.get? (.ofArguments arguments) = none)
    (enough : arguments.length = compiled.memberCount) (now : Slots)
    (metadata : Option Metadata) (world : World Closure) :
    (compiled.invoke now arguments metadata world).1 =
      match Builder.plan (compiled.fallbacks now (arguments.map Argument.tag))
        compiled.expression [] with
      | .error error => .error (.failure (.compile error))
      | .ok root =>
          (outcome (root.eval { slots := arguments.map Argument.value, metadata }) world).1 := by
  have counted : (arguments.length != compiled.memberCount) = false := by simp [enough]
  have types : (Shape.ofArguments arguments).types = arguments.map Argument.tag :=
    Shape.types_ofTypes _
  simp only [invoke, counted, Bool.false_eq_true, if_false, fetch, missing,
    build_standard_eq chain, types]
  cases Builder.plan (compiled.fallbacks now (arguments.map Argument.tag))
    compiled.expression [] with
  | error error => rfl
  | ok root =>
      change _ = (outcome (root.eval _) world).1
      simp only [outcome, Build.settled, Except.map, Functor.map, World.remark_nil, Invoker.invoke]
      cases root.eval { slots := arguments.map Argument.value, metadata } world <;> rfl

theorem invoke_unlogged {compiled : Compiled} {expression : Expr}
    (intact : Intact slots expression compiled)
    (aligned : compiled.cache.get? (.ofArguments arguments) = none →
      SlotMembers.Aligned slots now expression.placeholders)
    (metadata : Option Metadata) (world : World Closure) (log : Array Event) :
    (compiled.invoke now arguments metadata { world with log }).1 =
      (compiled.invoke now arguments metadata world).1 := by
  by_cases enough : arguments.length = compiled.memberCount
  · have logged := congrArg Prod.fst (invoke_aligned intact aligned enough metadata
      { world with log })
    have unlogged := congrArg Prod.fst (invoke_aligned intact aligned enough metadata world)
    refine logged.trans (Eq.trans ?_ unlogged.symm)
    cases Builder.plan (compiled.fallbacks slots (arguments.map Argument.tag)) expression [] with
    | error error => rfl
    | ok root => exact (outcome_unlogged root _ world log).1
  · rw [invoke_refused enough, invoke_refused enough]

end Compiled

namespace Session

variable {session : Session} {position : Nat} {slots : Slots} {fresh : Compiled}

/-- The expression at a position is what compiling gave, but for the code that its calls have
cached. -/
def Holds (session : Session) (position : Nat) (slots : Slots) (fresh : Compiled) : Prop :=
  ∃ prepared cache, session.prepared[position]? = some prepared ∧
    prepared.callee = .compiled { fresh with cache } ∧
    Compiled.Intact slots fresh.expression { fresh with cache }

theorem invoke_compiled (session : Session) {prepared : Prepared} {content : Compiled}
    (here : session.prepared[position]? = some prepared)
    (callee : prepared.callee = .compiled content) (arguments : List Argument)
    (metadata : Option Metadata) :
    let ended := session.invoke position arguments metadata
    let ran := content.invoke session.store.slots arguments metadata session.store.world
    ended.1 = some ran.1 ∧ ended.2.store.world = ran.2.2 := by
  simp only [invoke, here, Prepared.invoke, Callee.invoke, callee, and_self]

theorem Holds.invoke_here (holds : session.Holds position slots fresh) {arguments : List Argument}
    (settled : session.Settled position fresh.expression slots (arguments.map Argument.tag))
    (metadata : Option Metadata) :
    (session.invoke position arguments metadata).2.Holds position slots fresh := by
  obtain ⟨prepared, cache, here, callee, intact⟩ := holds
  have inside : position < session.prepared.length := (List.getElem?_eq_some_iff.mp here).1
  have kept := Compiled.invoke_intact intact (settled prepared _ here callee) metadata
    session.store.world
  obtain ⟨cache', after⟩ := Compiled.invoke_cache { fresh with cache } session.store.slots
    arguments metadata session.store.world
  rw [after] at kept
  refine ⟨(prepared.invoke arguments metadata session.store).2.1, cache', ?_, ?_, kept⟩
  · simp only [invoke, here]
    exact List.getElem?_set_self inside
  · simp only [Prepared.invoke, Callee.invoke, callee, after]

theorem Holds.invoke_other (holds : session.Holds position slots fresh) {other : Nat}
    (elsewhere : other ≠ position) (arguments : List Argument) (metadata : Option Metadata) :
    (session.invoke other arguments metadata).2.Holds position slots fresh := by
  obtain ⟨prepared, cache, here, rest⟩ := holds
  refine ⟨prepared, cache, ?_, rest⟩
  simp only [invoke]
  split
  · exact here
  · rw [List.getElem?_set_ne elsewhere]
    exact here

theorem Holds.accept (holds : session.Holds position slots fresh) (prepared : Prepared)
    (store : Store) : (session.accept prepared store).Holds position slots fresh := by
  obtain ⟨own, cache, here, rest⟩ := holds
  refine ⟨own, cache, ?_, rest⟩
  have inside : position < session.prepared.length := (List.getElem?_eq_some_iff.mp here).1
  rw [Session.accept, List.getElem?_append_left inside]
  exact here

/-- Only calls of the expression itself can change it. -/
theorem Holds.serve (holds : session.Holds position slots fresh) {request : Request}
    (settled : ∀ arguments metadata, request = .invoke position arguments metadata →
      session.Settled position fresh.expression slots (arguments.map Argument.tag)) :
    (session.serve request).Holds position slots fresh := by
  cases request with
  | prepare engine expr isTarget metadata =>
      simp only [Session.serve]
      split
      · exact holds.accept _ _
      · exact holds
  | invoke other arguments metadata =>
      by_cases same : other = position
      · subst same
        exact holds.invoke_here (settled arguments metadata rfl) metadata
      · exact holds.invoke_other same arguments metadata

theorem Holds.run (holds : session.Holds position slots fresh) {requests : List Request}
    (settled : ∀ earlier arguments metadata,
      earlier ++ [.invoke position arguments metadata] <+: requests →
      (session.run earlier).Settled position fresh.expression slots (arguments.map Argument.tag)) :
    (session.run requests).Holds position slots fresh := by
  induction requests generalizing session with
  | nil => exact holds
  | cons request requests ih =>
      have stepped : (session.serve request).Holds position slots fresh := by
        refine holds.serve fun arguments metadata same => ?_
        subst same
        exact settled [] arguments metadata (List.prefix_append [_] requests)
      exact ih stepped fun earlier arguments metadata before =>
        settled (request :: earlier) arguments metadata (List.cons_prefix_cons.mpr ⟨rfl, before⟩)

/-- Calls leave all slots alone. -/
theorem run_invokes_slots (session : Session) {requests : List Request}
    (invokes : ∀ request ∈ requests, request.isInvoke = true) :
    (session.run requests).store.slots = session.store.slots := by
  induction requests generalizing session with
  | nil => rfl
  | cons request requests ih =>
      have first := invokes request List.mem_cons_self
      have rest := ih (session.serve request) fun other member =>
        invokes other (List.mem_cons_of_mem _ member)
      refine rest.trans ?_
      cases request with
      | prepare engine expr isTarget metadata => cases first
      | invoke other arguments metadata =>
          simp only [serve, invoke]
          split
          · rfl
          · rfl

/-- Without other preparations the slots stay as the expression found them. -/
theorem settled_run_invokes (session : Session) (position : Nat) (expression : Expr)
    {requests : List Request} (invokes : ∀ request ∈ requests, request.isInvoke = true)
    (types : List TypeTag) :
    (session.run requests).Settled position expression session.store.slots types := by
  intro prepared content here callee missing
  rw [run_invokes_slots session invokes]
  exact .refl _ _

theorem Holds.run_invokes (holds : session.Holds position session.store.slots fresh)
    {requests : List Request} (invokes : ∀ request ∈ requests, request.isInvoke = true) :
    (session.run requests).Holds position session.store.slots fresh := by
  refine holds.run fun earlier arguments metadata before => ?_
  refine settled_run_invokes session position _ (fun request member => ?_) _
  exact invokes request (before.subset (List.mem_append_left _ member))

variable {other : Session} {arguments : List Argument}

theorem Holds.invoke_alike (holds : session.Holds position slots fresh)
    (holds' : other.Holds position slots fresh)
    (settled : session.Settled position fresh.expression slots (arguments.map Argument.tag))
    (settled' : other.Settled position fresh.expression slots (arguments.map Argument.tag))
    (metadata : Option Metadata) (world : World Closure) :
    let ended := (session.inWorld world).invoke position arguments metadata
    let ended' := (other.inWorld world).invoke position arguments metadata
    ∃ result, ended.1 = some result ∧ ended'.1 = some result ∧
      ended.2.store.world = ended'.2.store.world := by
  obtain ⟨prepared, cache, here, callee, intact⟩ := holds
  obtain ⟨prepared', cache', here', callee', intact'⟩ := holds'
  have alike := Compiled.invoke_alike intact intact' (settled prepared _ here callee)
    (settled' prepared' _ here' callee') metadata world
  injection alike with result after
  have ended := invoke_compiled (session.inWorld world) here callee arguments metadata
  have ended' := invoke_compiled (other.inWorld world) here' callee' arguments metadata
  refine ⟨_, ended.1, ?_, ?_⟩
  · rw [ended'.1]
    exact congrArg some result.symm
  · rw [ended.2, ended'.2]
    exact after

theorem Holds.invoke_unlogged (holds : session.Holds position slots fresh)
    (settled : session.Settled position fresh.expression slots (arguments.map Argument.tag))
    (metadata : Option Metadata) (world : World Closure) (log : Array Event) :
    ((session.inWorld { world with log }).invoke position arguments metadata).1 =
      ((session.inWorld world).invoke position arguments metadata).1 := by
  obtain ⟨prepared, cache, here, callee, intact⟩ := holds
  have unlogged := Compiled.invoke_unlogged intact (settled prepared _ here callee) metadata world
    log
  have logged := invoke_compiled (session.inWorld { world with log }) here callee arguments metadata
  have quiet := invoke_compiled (session.inWorld world) here callee arguments metadata
  rw [logged.1, quiet.1]
  exact congrArg some unlogged

theorem holds_accept {settings : ResolveSettings} {directory : Directory} {expr : Expr}
    {isTarget : Bool} {metadata : Option Metadata} {store : Store} {prepared : Prepared}
    (accepted : Engine.prepare { settings, directory } expr isTarget metadata session.store =
      (.ok prepared, store)) :
    ∃ fresh, fresh.expression = prepared.expression ∧
      (session.accept prepared store).Holds session.prepared.length store.slots fresh := by
  obtain ⟨halt, failed⟩ | ⟨expression, after, -, finished⟩ :=
    Engine.prepare_cases settings directory expr isTarget metadata session.store
  · rw [accepted] at failed
    cases failed
  · rw [accepted] at finished
    simp only [Engine.finish] at finished
    split at finished
    · cases finished
    · rename_i content compiled
      cases finished
      have intact := Compiled.compile_intact compiled
      obtain rfl := intact.source
      exact ⟨content, rfl, _, content.cache, List.getElem?_concat_length, rfl, intact⟩

/-- Preparing other expressions does not disturb the calls of an earlier one, even when they share
nodes with it and move its slots, as long as each call finds its code in the cache or finds slots
that tell the placeholders of a path apart as they did when the expression was prepared. In one
world a call then ends as it would without them, and it has the same result where preparing has
left nothing behind in the world but requests. -/
theorem run_undisturbed {settings : ResolveSettings} {directory : Directory} {expr : Expr}
    {isTarget : Bool} {metadata : Option Metadata} (before : Session) {prepared : Prepared}
    {store : Store}
    (accepted : Engine.prepare { settings, directory } expr isTarget metadata before.store =
      (.ok prepared, store))
    (requests : List Request)
    (settled : ∀ earlier arguments given,
      earlier ++ [.invoke before.prepared.length arguments given] <+: requests →
      ((before.accept prepared store).run earlier).Settled before.prepared.length
        prepared.expression store.slots (arguments.map Argument.tag)) :
    let session := before.accept prepared store
    let position := before.prepared.length
    let ran := session.run requests
    let alone := session.run (requests.filter Request.isInvoke)
    session = before.serve (.prepare { settings, directory } expr isTarget metadata) ∧
    ∀ arguments given,
      ran.Settled position prepared.expression store.slots (arguments.map Argument.tag) →
      (∀ world,
        let ended := (ran.inWorld world).invoke position arguments given
        let expected := (alone.inWorld world).invoke position arguments given
        ∃ result, ended.1 = some result ∧ expected.1 = some result ∧
          ended.2.store.world = expected.2.store.world) ∧
      ∀ log, ran.store.world = { alone.store.world with log } →
        (ran.invoke position arguments given).1 = (alone.invoke position arguments given).1 := by
  intro session position ran alone
  have invokes : ∀ request ∈ requests.filter Request.isInvoke, request.isInvoke = true :=
    fun request member => (List.mem_filter.mp member).2
  obtain ⟨fresh, same, holds⟩ := holds_accept accepted
  rw [← same] at settled ⊢
  have held : ran.Holds position store.slots fresh := holds.run settled
  have heldAlone : alone.Holds position store.slots fresh := holds.run_invokes invokes
  refine ⟨?_, fun arguments given last => ?_⟩
  · simp only [serve, accepted]
    rfl
  · have settledAlone := settled_run_invokes session position fresh.expression invokes
      (arguments.map Argument.tag)
    have alike := held.invoke_alike heldAlone last settledAlone given
    refine ⟨alike, fun log same => ?_⟩
    -- No call looks at the log.
    have unlogged := held.invoke_unlogged last given alone.store.world log
    obtain ⟨result, ended, expected, -⟩ := alike alone.store.world
    calc (ran.invoke position arguments given).1
        = ((ran.inWorld { alone.store.world with log }).invoke position arguments given).1 := by
            rw [← same, inWorld_own]
      _ = some result := unlogged.trans ended
      _ = (alone.invoke position arguments given).1 := expected.symm

/-- The nodes of `A + B` are used again in `B + A`, which swaps their slots. -/
theorem run_undisturbed_swapped :
    let first : Expr := .mk 3 (.placeholder ⟨"A", .source, { observable := true }, .member, none⟩)
    let second : Expr := .mk 4 (.placeholder ⟨"B", .source, { observable := true }, .member, none⟩)
    let sum : Expr :=
      .mk 0 (.binary .add (.mk 1 (.member none "A")) (.mk 2 (.member none "B")))
    let swapped : Expr := .mk 0 (.binary .add second first)
    let arguments : List Argument := [⟨.string, .string "a"⟩, ⟨.string, .string "b"⟩]
    let session := ({ store := { next := 3 } } : Session).serve (.prepare {} sum false none)
    let later := session.run [.prepare {} swapped false none, .invoke 1 arguments none]
    session.prepared.map Prepared.expression = [.mk 5 (.binary .add first second)] ∧
      (session.store.slots 3, session.store.slots 4) = (0, 1) ∧
      (later.store.slots 3, later.store.slots 4) = (1, 0) ∧
      (later.invoke 0 arguments none).1 = some (.ok (.string "ab")) := by
  intro first second sum swapped arguments session later
  let members : List (NodeId × Placeholder) :=
    [(3, ⟨"A", .source, { observable := true }, .member, none⟩),
      (4, ⟨"B", .source, { observable := true }, .member, none⟩)]
  let expression : Expr := .mk 5 (.binary .add first second)
  let content : Compiled :=
    { expression, members := members.map some, chain := Builder.standard, metadata := none }
  let prepared : Prepared := ⟨expression, members, .compiled content⟩
  let store : Store := { next := 6, slots := (Slots.none.assign 3 0).assign 4 1 }
  have accepted : Engine.prepare { settings := {}, directory := {} } sum false none { next := 3 } =
      (.ok prepared, store) := by
    have resolves : Engine.resolve { settings := {}, directory := {} } sum false { next := 3 } =
        (.ok expression, { next := 6 }) := rfl
    rw [Engine.prepare_of_resolved resolves, Engine.finish_eq_foldl]
    rfl
  have started : session = { store, prepared := [prepared] } := by
    simp only [session, serve, accepted]
    rfl
  obtain ⟨other, swaps⟩ :
      ∃ other, Engine.prepare { settings := {}, directory := {} } swapped false none store =
        (.ok other, { store with slots := (store.slots.assign 4 0).assign 3 1 }) := by
    have resolves : Engine.resolve { settings := {}, directory := {} } swapped false store =
        (.ok swapped, store) := rfl
    rw [Engine.prepare_of_resolved resolves, Engine.finish_eq_foldl]
    exact ⟨_, rfl⟩
  have distinct : ∀ found ∈ expression.placeholders, ∀ other ∈ expression.placeholders,
      found.2.path = other.2.path → found.1 = other.1 := by
    change ∀ found ∈ members, ∀ other ∈ members, found.2.path = other.2.path → found.1 = other.1
    simp [members]
  have settled (now : Session) (types : List TypeTag) :
      now.Settled 0 prepared.expression store.slots types :=
    fun _ _ _ _ _ => SlotMembers.aligned_of_paths distinct _ _
  obtain ⟨served, undisturbed⟩ := run_undisturbed { store := { next := 3 } } accepted
    [.prepare {} swapped false none, .invoke 1 arguments none] fun _ _ _ _ => settled _ _
  have moved : later.store.slots = (store.slots.assign 4 0).assign 3 1 := by
    have invokes : ∀ request ∈ [Request.invoke 1 arguments none], request.isInvoke = true := by
      simp [Request.isInvoke]
    have split : later = (session.serve (.prepare {} swapped false none)).run
        [.invoke 1 arguments none] := List.foldl_cons ..
    rw [split, run_invokes_slots _ invokes, started]
    simp only [serve, swaps]
    rfl
  have answer (world : World Closure) :
      ((session.inWorld world).invoke 0 arguments none).1 = some (.ok (.string "ab")) := by
    have opened : (session.inWorld world).prepared[0]? = some prepared := by
      rw [started]
      rfl
    rw [(invoke_compiled _ opened rfl arguments none).1,
      content.invoke_uncached arguments rfl rfl rfl, started]
    rfl
  rw [served] at undisturbed
  obtain ⟨result, ended, expected, -⟩ :=
    (undisturbed arguments none (settled _ _)).1 later.store.world
  refine ⟨?_, ?_, ?_, ?_⟩
  · rw [started]
    rfl
  · rw [started]
    rfl
  · rw [moved]
    rfl
  · have same : result = .ok (.string "ab") :=
      Option.some.inj (expected.symm.trans (answer later.store.world))
    change ((later.inWorld later.store.world).invoke 0 arguments none).1 = some result at ended
    rw [inWorld_own, same] at ended
    exact ended

/-- Two members called `Name`, one of the target and one of the source, have a slot each. Preparing
the second one on its own gives it the slot of the first, and from then on both read one
argument. -/
theorem invoke_disturbed :
    let sum : Expr := .mk 0 (.binary .add
      (.mk 1 (.member (some (.mk 2 (.unary .dynamic (.mk 3 (.member none "target"))))) "Name"))
      (.mk 4 (.member none "Name")))
    let shared : Expr :=
      .mk 6 (.placeholder ⟨"Name", .source, { observable := true }, .member, none⟩)
    let arguments : List Argument := [⟨.string, .string "t"⟩, ⟨.string, .string "s"⟩]
    let session := ({ store := { next := 5 } } : Session).serve (.prepare {} sum false none)
    let later := session.serve (.prepare {} shared false none)
    (∃ prepared, session.prepared = [prepared] ∧ shared ∈ prepared.expression.preorder) ∧
      (session.invoke 0 arguments none).1 = some (.ok (.string "ts")) ∧
      (later.invoke 0 arguments none).1 = some (.ok (.string "ss")) := by
  intro sum shared arguments session later
  let target : Placeholder :=
    ⟨"Name", .target, { observable := true, target := true }, .member, none⟩
  let source : Placeholder := ⟨"Name", .source, { observable := true }, .member, none⟩
  let expression : Expr :=
    .mk 7 (.binary .add (.mk 5 (.placeholder target)) (.mk 6 (.placeholder source)))
  let content : Compiled :=
    { expression, members := [some (5, target), some (6, source)], chain := Builder.standard
      metadata := none }
  let prepared : Prepared := ⟨expression, [(5, target), (6, source)], .compiled content⟩
  have opened : session.prepared[0]? = some prepared := rfl
  have reopened : later.prepared[0]? = some prepared := rfl
  have answer := content.invoke_uncached arguments rfl rfl rfl
  refine ⟨⟨prepared, rfl, ?_⟩, ?_, ?_⟩
  · simp [prepared, expression, Expr.preorder_mk, Node.children, shared, source]
  · rw [(invoke_compiled session opened rfl arguments none).1, answer]
    rfl
  · rw [(invoke_compiled later reopened rfl arguments none).1, answer]
    rfl

end Session

end Tether

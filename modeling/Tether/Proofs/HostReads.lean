import Tether.Proofs.PathText
import Tether.Proofs.Preparation
import Tether.Proofs.SinglePass

set_option autoImplicit false

/- What is asked of the host, and when. A resolution reads along the static chains of the tree, each
at its first occurrence, from left to right and parents first, and stops at the first failure. That
is all: numbering, compiling and building ask nothing, and a call asks what its code asks. -/
namespace Tether

/-- What a static chain reads: a type or a resource, its name, and the text of the path. -/
def Chain.origin? (chain : Chain) : Option (StaticKind × String × String) :=
  match chain.root with
  | .target | .source => none
  | .static name _ _ => some (.type, name, chain.path.text)
  | .resource name _ => some (.resource, name, chain.path.text)

/-- The name and the text of the path, joined by a colon. -/
def Chain.joined (origin : StaticKind × String × String) : StaticKind × String :=
  (origin.1, origin.2.1 ++ ":" ++ origin.2.2)

theorem Chain.staticKey?_eq : Chain.staticKey? = fun chain => chain.origin?.map Chain.joined := by
  funext ⟨root, isStatic, path⟩
  cases root <;> rfl

theorem Chain.joined_injective {first second : StaticKind × String × String}
    (clear : ':' ∉ first.2.1.toList) (clear' : ':' ∉ second.2.1.toList)
    (same : Chain.joined first = Chain.joined second) : first = second := by
  obtain ⟨kind, name, text⟩ := first
  obtain ⟨kind', name', text'⟩ := second
  obtain ⟨rfl, texts⟩ := Prod.mk.inj same
  have chars := congrArg String.toList texts
  simp only [String.toList_append, List.append_assoc] at chars
  have stops {name : String} (clear : ':' ∉ name.toList) (c : Char) (found : c ∈ name.toList) :
      (c == ':') = false := by
    rw [beq_eq_false_iff_ne]
    rintro rfl
    exact clear found
  obtain ⟨names, rest⟩ := Text.split_at_stop (stops clear) (stops clear') (by simp) (by simp) chars
  obtain rfl : name = name' := String.toList_inj.mp names
  obtain rfl : text = text' := String.toList_inj.mp (List.append_cancel_left rest)
  rfl

namespace Resolver

/-- The static chains of a tree, as long as they can be, and the places where there is no telling
what the tree names. -/
def staticChains (resolver : Resolver) :
    Expr → List String → List (Except ResolveError Chain) :=
  Expr.para fun id node scope =>
    match resolver.flatten scope (.mk id (node.map Prod.fst)) with
    | .error error => [.error error]
    | .ok (some chain) => if chain.isStatic then [.ok chain] else []
    | .ok none => node.children.flatMap fun child => child.2 (node.scopeBelow scope)

theorem staticChains_mk (resolver : Resolver) (scope : List String) (id : NodeId)
    (node : Node Expr) :
    resolver.staticChains (.mk id node) scope =
      match resolver.flatten scope (.mk id node) with
      | .error error => [.error error]
      | .ok (some chain) => if chain.isStatic then [.ok chain] else []
      | .ok none => node.children.flatMap fun child =>
          resolver.staticChains child (node.scopeBelow scope) := by
  have below : (node.map fun child => (child, resolver.staticChains child)).scopeBelow scope =
      node.scopeBelow scope := by
    cases node <;> rfl
  have unfolded (expr : Expr) : resolver.staticChains expr = Expr.para _ expr := rfl
  rw [unfolded, Expr.para_mk]
  simp only [← unfolded, Node.map_fst_pair, Node.children_map, List.flatMap_map, below]

section Firsts

variable {α β : Type} [DecidableEq α] [DecidableEq β]

/-- The chains that have no key, and of each key that is not known yet the first chain. -/
def firsts (key? : Chain → Option α) (known : α → Bool) :
    List (Except ResolveError Chain) → List (Except ResolveError Chain)
  | [] => []
  | .error error :: rest => .error error :: firsts key? known rest
  | .ok chain :: rest =>
      match key? chain with
      | none => .ok chain :: firsts key? known rest
      | some key =>
          if known key then firsts key? known rest
          else .ok chain :: firsts key? (fun other => other == key || known other) rest

/-- The keys that are known after some chains. -/
def learn (key? : Chain → Option α) (known : α → Bool) :
    List (Except ResolveError Chain) → α → Bool
  | [] => known
  | .error _ :: rest => learn key? known rest
  | .ok chain :: rest =>
      match key? chain with
      | none => learn key? known rest
      | some key => learn key? (fun other => other == key || known other) rest

/-- What is made of different keys of the chains is different. -/
def StaysApart (key? : Chain → Option α) (make : α → β)
    (chains : List (Except ResolveError Chain)) : Prop :=
  ∀ first second key key', .ok first ∈ chains → .ok second ∈ chains →
    key? first = some key → key? second = some key' → make key = make key' → key = key'

variable {key? : Chain → Option α} {known : α → Bool}

theorem known_again {key : α} (found : known key) :
    (fun other => other == key || known other) = known := by
  funext other
  by_cases same : other = key
  · simp [same, found]
  · simp [same]

theorem firsts_append (first second : List (Except ResolveError Chain)) :
    firsts key? known (first ++ second) =
      firsts key? known first ++ firsts key? (learn key? known first) second := by
  fun_induction firsts key? known first with
  | case1 => rfl
  | case2 known error rest ih => rw [List.cons_append, firsts, ih, learn, List.cons_append]
  | case3 known chain rest keyless ih =>
      simp only [List.cons_append, firsts, learn, keyless, ih]
  | case4 known chain rest key keyed found ih =>
      simp only [List.cons_append, firsts, learn, keyed, found, if_true, ih, known_again found]
  | case5 known chain rest key keyed missing ih =>
      simp only [List.cons_append, firsts, learn, keyed, missing, if_false, ih,
        Bool.false_eq_true]

theorem learn_append (first second : List (Except ResolveError Chain)) :
    learn key? known (first ++ second) = learn key? (learn key? known first) second := by
  fun_induction learn key? known first with
  | case1 => rfl
  | case2 known error rest ih => rw [List.cons_append, learn, ih]
  | case3 known chain rest keyless ih => simp only [List.cons_append, learn, keyless, ih]
  | case4 known chain rest key keyed ih => simp only [List.cons_append, learn, keyed, ih]

omit [DecidableEq α] [DecidableEq β] in
theorem StaysApart.tail {make : α → β} {need : Except ResolveError Chain}
    {rest : List (Except ResolveError Chain)} (apart : StaysApart key? make (need :: rest)) :
    StaysApart key? make rest :=
  fun first second key key' found found' => apart first second key key'
    (List.mem_cons_of_mem _ found) (List.mem_cons_of_mem _ found')

/-- Keys made from others that stay apart leave the same chains. -/
theorem firsts_map {make : α → β} {known' : β → Bool} {chains : List (Except ResolveError Chain)}
    (apart : StaysApart key? make chains)
    (agree : ∀ chain key, .ok chain ∈ chains → key? chain = some key →
      known' (make key) = known key) :
    firsts (fun chain => (key? chain).map make) known' chains = firsts key? known chains := by
  fun_induction firsts key? known chains generalizing known' with
  | case1 => rfl
  | case2 known error rest ih =>
      rw [firsts, ih apart.tail fun chain key found =>
        agree chain key (List.mem_cons_of_mem _ found)]
  | case3 known chain rest keyless ih =>
      simp only [firsts, keyless, Option.map_none]
      rw [ih apart.tail fun chain key found => agree chain key (List.mem_cons_of_mem _ found)]
  | case4 known chain rest key keyed found ih =>
      have known : known' (make key) = true :=
        (agree chain key List.mem_cons_self keyed).trans found
      simp only [firsts, keyed, Option.map_some, known, if_true]
      exact ih apart.tail fun chain key found => agree chain key (List.mem_cons_of_mem _ found)
  | case5 known chain rest key keyed missing ih =>
      have unknown : known' (make key) = false := by
        rw [agree chain key List.mem_cons_self keyed]
        simpa using missing
      simp only [firsts, keyed, Option.map_some, unknown, Bool.false_eq_true, if_false]
      rw [ih apart.tail]
      -- Among these chains, what is made of the new key is found for that key alone.
      intro other key' found keyed'
      have same : (make key' == make key) = (key' == key) := by
        rw [Bool.eq_iff_iff, beq_iff_eq, beq_iff_eq]
        exact ⟨apart other chain key' key (List.mem_cons_of_mem _ found) List.mem_cons_self keyed'
          keyed, congrArg make⟩
      dsimp only
      rw [same, agree other key' (List.mem_cons_of_mem _ found) keyed']

end Firsts

variable {κ γ δ : Type} {call : Caller κ} {resolver : Resolver} {scope : List String}
  {base : NodeId}

/-- Reads along a static chain for what it asks of the host. -/
def evaluateStatic (call : Caller κ) :
    Except ResolveError Chain → EStateM (Halt ResolveError) (World κ) Unit
  | .error error => throw (.failure error)
  | .ok chain => fun world =>
      let expression := "$" ++ rootedPath chain.root.text chain.path.text
      match chain.root.start? with
      | none =>
          .error (.failure (.staticEvaluation expression
            "binding target and source are only known at runtime")) world
      | some start =>
          match Path.read call start chain.path world with
          | .ok _ world => .ok () world
          | .error halt world =>
              .error (halt.map fun error => .staticEvaluation expression error.message) world

/-- Reads along static chains in turn, up to the first failure. -/
def evaluateAll (call : Caller κ) (chains : List (Except ResolveError Chain)) :
    EStateM (Halt ResolveError) (World κ) Unit :=
  forM chains (evaluateStatic call)

/-- The static paths that have been read. -/
def knows (progress : Progress κ) (key : StaticKind × String) : Bool :=
  (progress.statics.get? key).isSome

/-- A step asks the host for some chains, those left out that are known, and ends as they do. -/
def Asks (call : Caller κ) (base : NodeId) (chains : List (Except ResolveError Chain))
    (step : Progress κ → EStateM.Result (Halt ResolveError) (Progress κ) γ) : Prop :=
  ∀ before, Tidy base before →
    match evaluateAll call (firsts Chain.staticKey? (knows before) chains)
      before.world with
    | .ok _ world => ∃ value after, step before = .ok value after ∧ after.world = world ∧
        knows after = learn Chain.staticKey? (knows before) chains
    | .error halt world => ∃ after, step before = .error halt after ∧ after.world = world

theorem evaluateAll_append (first second : List (Except ResolveError Chain)) (world : World κ) :
    evaluateAll call (first ++ second) world =
      match evaluateAll call first world with
      | .ok _ world => evaluateAll call second world
      | .error halt world => .error halt world := by
  rw [evaluateAll, List.forM_append]
  change EStateM.bind (evaluateAll call first) (fun _ => evaluateAll call second) world = _
  rw [EStateM.bind]
  cases evaluateAll call first world <;> rfl

theorem evaluateAll_singleton (need : Except ResolveError Chain) (world : World κ) :
    evaluateAll call [need] world = evaluateStatic call need world := by
  change EStateM.bind (evaluateStatic call need) (fun _ => pure ()) world = _
  rw [EStateM.bind]
  cases evaluateStatic call need world <;> rfl

theorem evaluateStatic_of_start {chain : Chain} {start : Value}
    (starts : chain.root.start? = some start) (world : World κ) :
    evaluateStatic call (.ok chain) world =
      match Path.read call start chain.path world with
      | .ok _ world => .ok () world
      | .error halt world =>
          .error (halt.map fun error => .staticEvaluation
            ("$" ++ rootedPath chain.root.text chain.path.text) error.message) world := by
  simp only [evaluateStatic, starts]

theorem Asks.quiet {step : Resolve κ γ}
    (ends : ∀ before, ∃ value after, step scope before = .ok value after ∧
      after.world = before.world ∧ after.statics = before.statics) :
    Asks call base [] (step scope) := by
  intro before _
  obtain ⟨value, after, ended, world, statics⟩ := ends before
  refine ⟨value, after, ended, world, ?_⟩
  funext key
  simp only [knows, statics, learn]

theorem Asks.bind {first : Resolve κ γ} {next : γ → Resolve κ δ} {post : γ → Prop}
    {chains rest : List (Except ResolveError Chain)} (tidies : Ensures base post first)
    (start : Asks call base chains (first scope))
    (goesOn : ∀ value, Asks call base rest (next value scope)) :
    Asks call base (chains ++ rest) ((first >>= next) scope) := by
  intro before tidy
  have started := start before tidy
  rw [firsts_append, learn_append, evaluateAll_append]
  split at started
  · -- The second step starts with what the first one has learned.
    obtain ⟨value, between, ran, rfl, known⟩ := started
    have tidyBetween := (tidies scope before value between tidy ran).2
    rw [bind_of_ok ran, ← known]
    exact goesOn value between tidyBetween
  · obtain ⟨after, failed, rfl⟩ := started
    exact ⟨after, bind_of_error failed, rfl⟩

theorem Asks.mapM {items : List Expr} {walk : Expr → Resolve κ γ} {post : Expr → γ → Prop}
    {chains : Expr → List (Except ResolveError Chain)}
    (tidies : ∀ item ∈ items, Ensures base (post item) (walk item))
    (each : ∀ item ∈ items, Asks call base (chains item) (walk item scope)) :
    Asks call base (items.flatMap chains) (items.mapM walk scope) := by
  induction items with
  | nil => exact .quiet fun before => ⟨[], before, rfl, rfl, rfl⟩
  | cons item items ih =>
      rw [List.forall_mem_cons] at tidies each
      rw [List.mapM_cons, List.flatMap_cons]
      refine Asks.bind tidies.1 each.1 fun value => ?_
      rw [← List.append_nil (items.flatMap chains)]
      refine Asks.bind (Ensures.mapM tidies.2) (ih tidies.2 each.2) fun values => ?_
      exact .quiet fun before => ⟨_, before, rfl, rfl, rfl⟩

theorem asks_newNode (node : Node Expr) :
    Asks call base [] ((newNode node : Resolve κ Expr) scope) :=
  .quiet fun _ => ⟨_, _, rfl, rfl, rfl⟩

theorem asks_placeholder (path : String) (root : Root) (kind : Kind) (method : Option String) :
    Asks call base [] ((resolver.placeholder path root kind method : Resolve κ Expr) scope) := by
  refine .quiet fun before => ?_
  rw [placeholder_eq]
  cases before.members.get? (resolver.reference path root kind method).key with
  | some known => exact ⟨known, before, rfl, rfl, rfl⟩
  | none => exact ⟨_, _, rfl, rfl, rfl⟩

/-- A static path is read unless it is known, and is known afterwards. -/
theorem asks_staticValue {chain : Chain} {key : StaticKind × String}
    (keyed : chain.staticKey? = some key) {start : Value}
    (starts : chain.root.start? = some start) :
    Asks call base [.ok chain] (staticValue call
      ("$" ++ rootedPath chain.root.text chain.path.text) key start chain.path scope) := by
  intro before tidy
  have state : (get : Resolve κ (Progress κ)) scope before = .ok before before := rfl
  rw [staticValue, bind_of_ok state]
  cases found : before.statics.get? key with
  | some known =>
      -- Whatever the key stands for is taken; nothing is compared with the chain itself.
      have isKnown : knows before key := by simp [knows, found]
      simp only [firsts, learn, keyed, isKnown, if_true, known_again isKnown]
      exact ⟨known, before, rfl, rfl, rfl⟩
  | none =>
      have unknown : knows before key = false := by simp [knows, found]
      simp only [firsts, learn, keyed, unknown, Bool.false_eq_true, if_false]
      rw [evaluateAll_singleton, evaluateStatic_of_start starts]
      cases read : Path.read call start chain.path before.world with
      | error halt world => exact ⟨_, bind_of_error (readPath_of_error read), rfl⟩
      | ok value world =>
          refine ⟨_, _, bind_of_ok (readPath_of_ok read), rfl, ?_⟩
          funext other
          change ((before.statics.insert key _).get? other).isSome = _
          rw [Table.get?_insert]
          by_cases same : other = key
          · simp [same]
          · simp [same, knows]

theorem asks_materialize (chain : Chain) (kind : Kind) (method : Option String) :
    Asks call base (if chain.isStatic then [.ok chain] else [])
      (resolver.materialize call chain kind method scope) := by
  obtain ⟨root, isStatic, path⟩ := chain
  cases isStatic with
  | true =>
      cases root with
      | target | source => exact fun before _ => ⟨before, rfl, rfl⟩
      | static name tag statics => exact asks_staticValue rfl rfl
      | resource name value => exact asks_staticValue rfl rfl
  | false =>
      cases root with
      | target | source | resource => exact asks_placeholder _ _ kind method
      | static name tag statics =>
          cases path with
          | nil => exact asks_newNode _
          | cons segment path => exact asks_placeholder _ _ kind method

section Settle

variable {walk : Expr → Resolve κ Expr}

/-- The walk of a tree asks for the static chains of the tree. -/
def Faithful (resolver : Resolver) (call : Caller κ) (base : NodeId)
    (walk : Expr → Resolve κ Expr) (expr : Expr) : Prop :=
  Ensures base (Kept base expr) (walk expr) ∧
    ∀ scope, Asks call base (resolver.staticChains expr scope) (walk expr scope)

theorem asks_replaceReceiver {owner : Expr} (faithful : Faithful resolver call base walk owner)
    (kind : Kind) (method : Option String) :
    Asks call base (resolver.staticChains owner scope)
      (resolver.replaceReceiver call (some (owner, walk owner)) kind method scope) := by
  have walked := faithful.2 scope
  obtain ⟨id, node⟩ := owner
  intro before tidy
  have inScope : (read : Resolve κ (List String)) scope before = .ok scope before := rfl
  rw [replaceReceiver, bind_of_ok inScope]
  cases flat : resolver.flatten scope (.mk id node) with
  | error error =>
      rw [staticChains_mk, flat]
      exact ⟨before, rfl, rfl⟩
  | ok found =>
      cases found with
      | none => exact walked before tidy
      | some chain =>
          -- A receiver that is a chain is not walked, but asks for the same chain.
          rw [staticChains_mk, flat]
          exact asks_materialize chain kind method before tidy

theorem asks_receive {target : Option Expr} {arguments : List Expr}
    (each : ∀ child ∈ target.toList ++ arguments, Faithful resolver call base walk child)
    (kind : Kind) (method : Option String) (make : Expr → List Expr → Node Expr) :
    Asks call base
      ((target.toList ++ arguments).flatMap fun child => resolver.staticChains child scope)
      (resolver.receive call walk target kind method arguments make scope) := by
  have owners (owner : Expr) (found : owner ∈ target) : Faithful resolver call base walk owner :=
    each owner (List.mem_append_left _ (Option.mem_toList.mpr found))
  have others (argument : Expr) (found : argument ∈ arguments) :
      Faithful resolver call base walk argument := each argument (List.mem_append_right _ found)
  rw [List.flatMap_append]
  refine Asks.bind (ensures_replaceReceiver (fun owner found => (owners owner found).1) kind
    method) ?_ fun receiver => ?_
  · cases target with
    | none => exact asks_placeholder _ _ kind method
    | some owner =>
        rw [Option.toList_some, List.flatMap_singleton]
        exact asks_replaceReceiver (owners owner rfl) kind method
  · rw [← List.append_nil (arguments.flatMap _)]
    refine Asks.bind (Ensures.mapM fun argument found => (others argument found).1)
      (Asks.mapM (fun argument found => (others argument found).1)
        fun argument found => (others argument found).2 scope) fun values => ?_
    exact asks_newNode _

theorem asks_remake (id : NodeId) {node : Node Expr}
    (each : ∀ child ∈ node.children, Faithful resolver call base walk child) :
    Asks call base
      (node.children.flatMap fun child => resolver.staticChains child (node.scopeBelow scope))
      (remake walk id node scope) := by
  have tidies (child : Expr) (found : child ∈ node.children) := (each child found).1
  have walked : Asks call base
      (node.children.flatMap fun child => resolver.staticChains child (node.scopeBelow scope))
      (node.children.mapM walk (node.scopeBelow scope)) :=
    .mapM tidies fun child found => (each child found).2 _
  rw [← List.append_nil (node.children.flatMap _)]
  refine Asks.bind ((Ensures.mapM tidies).withReader _) walked fun results => ?_
  split
  · exact .quiet fun before => ⟨_, before, rfl, rfl, rfl⟩
  · cases node.withChildren? results with
    | some rebuilt => exact asks_newNode _
    | none => exact .quiet fun before => ⟨_, before, rfl, rfl, rfl⟩

theorem asks_settle (id : NodeId) {node : Node Expr}
    (each : ∀ child ∈ node.children, Faithful resolver call base walk child) :
    Asks call base
      (node.children.flatMap fun child => resolver.staticChains child (node.scopeBelow scope))
      (resolver.settle call walk id node scope) := by
  cases node with
  | constant | parameter | placeholder | unary | binary | condition | lambda =>
      exact asks_remake id each
  | member target name =>
      cases target with
      | none => exact asks_newNode _
      | some target => exact asks_remake id each
  | index target arguments => exact asks_receive each _ _ _
  | call target method arguments => exact asks_receive each _ _ _

end Settle

/-- A walk asks the host for the static chains of the tree, and for nothing else. -/
theorem walk_faithful {expr : Expr} (old : expr.Everywhere fun part => part.id < base) :
    Faithful resolver call base (resolver.walk call) expr := by
  induction expr using Expr.children_induct with
  | step id node ih =>
      have each (child : Expr) (found : child ∈ node.children) := ih child found (old.child found)
      refine ⟨walk_keeps old, fun scope before tidy => ?_⟩
      rw [walk_eq_pass old tidy, staticChains_mk]
      cases flat : resolver.flatten scope (.mk id node) with
      | error error =>
          rw [pass_of_error flat]
          exact ⟨before, rfl, rfl⟩
      | ok found =>
          cases found with
          | none =>
              rw [pass_of_none flat]
              exact asks_settle id each before tidy
          | some chain =>
              rw [pass_of_chain flat]
              exact asks_materialize chain _ none before tidy

/-- The static chains that are due end as the resolution does, and in the same world. -/
theorem evaluateAll_due {expr : Expr} {next : NodeId}
    (old : expr.Everywhere fun part => part.id < next) (world : World κ) :
    evaluateAll call (firsts Chain.staticKey? (fun _ => false) (resolver.staticChains expr []))
        world =
      match resolver.resolve call expr world next with
      | (.ok _, after, _) => .ok () after
      | (.error error, after, _) => .error error after := by
  have faithful : Faithful resolver call next (resolver.walk call) expr := walk_faithful old
  have asked := faithful.2 [] { world, next } (Tidy.start world next)
  have unknown : knows ({ world, next } : Progress κ) = fun _ => false := rfl
  rw [unknown] at asked
  split at asked
  · rename_i evaluated
    obtain ⟨result, progress, ended, rfl, -⟩ := asked
    simp only [evaluated, resolve, ReaderT.run, EStateM.run, ended]
  · rename_i evaluated
    obtain ⟨progress, failed, rfl⟩ := asked
    simp only [evaluated, resolve, ReaderT.run, EStateM.run, failed]

/-- Names without a colon stay apart. -/
theorem staysApart_of_colonFree {chains : List (Except ResolveError Chain)}
    (clear : ∀ chain origin, .ok chain ∈ chains → chain.origin? = some origin →
      ':' ∉ origin.2.1.toList) : StaysApart Chain.origin? Chain.joined chains :=
  fun first second origin origin' found found' starts starts' =>
    Chain.joined_injective (clear first origin found starts) (clear second origin' found' starts')

end Resolver

namespace Compiled

variable {compiled : Compiled}

theorem fetch_remarks (chain : compiled.chain = Builder.standard) (slots : Slots)
    (shape : Shape) : (compiled.fetch slots shape).remarks = [] := by
  simp only [fetch, build_standard_eq chain, Build.settled]
  split
  · rfl
  · split <;> rfl

/-- A call asks the host what its code asks. -/
theorem invoke_world (chain : compiled.chain = Builder.standard) (slots : Slots)
    (arguments : List Argument) (given : Option Metadata) (world : World Closure) :
    (compiled.invoke slots arguments given world).2.2 =
      if arguments.length = compiled.memberCount then
        match (compiled.fetch slots (.ofArguments arguments)).result with
        | .error _ => world
        | .ok invoker =>
            (outcome (invoker.invoke { slots := arguments.map Argument.value, metadata := given })
              world).2
      else world := by
  split
  · rename_i enough
    simp only [invoke, enough, bne_self_eq_false, Bool.false_eq_true, if_false,
      fetch_remarks chain, World.remark_nil]
    cases (compiled.fetch slots (.ofArguments arguments)).result with
    | error error => rfl
    | ok invoker =>
        simp only [outcome]
        cases invoker.invoke _ world <;> rfl
  · rename_i wrong
    rw [invoke_refused wrong]

end Compiled

namespace Engine

open Resolver

theorem compile_store (settings : ResolveSettings) (directory : Directory) (expression : Expr)
    (metadata : Option Metadata) (store : Store) :
    (compile { settings, directory } expression metadata store).2 = store := by
  simp only [compile, Strategy.compile, Strategy.compiling]
  cases Compiled.compile Builder.standard store.slots expression metadata with
  | error error => simp only [Except.map, World.remark_nil]
  | ok content => simp only [Except.map, Function.comp_apply, World.remark_nil]

/-- Numbering and compiling leave the world as the resolution left it. -/
theorem prepare_world (settings : ResolveSettings) (directory : Directory) (expr : Expr)
    (isTarget : Bool) (metadata : Option Metadata) (store : Store) :
    (prepare { settings, directory } expr isTarget metadata store).2.world =
      (resolve { settings, directory } expr isTarget store).2.world := by
  simp only [prepare]
  rcases resolve { settings, directory } expr isTarget store with ⟨error | expression, after⟩
  · rfl
  · have kept := compile_store settings directory expression metadata
      { after with slots := (Numbering.collect {} after.slots expression).2 }
    revert kept
    dsimp only
    rcases compile { settings, directory } expression metadata
      { after with slots := (Numbering.collect {} after.slots expression).2 } with
      ⟨error | callee, last⟩
    · rintro rfl
      rfl
    · rintro rfl
      rfl

/-- A resolution reads along each static chain once, at its first occurrence, up to the first
failure; static chains are told apart by the name and the path joined. Nothing else is asked until
a call runs its code. -/
theorem asks_confined (settings : ResolveSettings) (directory : Directory) (expr : Expr)
    (isTarget : Bool) (store : Store) (old : expr.Everywhere fun part => part.id < store.next) :
    let engine : Engine := { settings, directory }
    let chains := (engine.resolver isTarget).staticChains expr []
    let due := firsts Chain.staticKey? (fun _ => false) chains
    let resolved := engine.resolve expr isTarget store
    (evaluateAll callFunction due store.world =
      match resolved.1 with
      | .ok _ => .ok () resolved.2.world
      | .error halt => .error halt resolved.2.world) ∧
    (StaysApart Chain.origin? Chain.joined chains →
      due = firsts Chain.origin? (fun _ => false) chains) ∧
    (∀ metadata, (engine.prepare expr isTarget metadata store).2.world = resolved.2.world) ∧
    (∀ expression metadata now, (engine.compile expression metadata now).2 = now) ∧
    ∀ compiled : Compiled, compiled.chain = Builder.standard → ∀ slots,
      (∀ shape, (compiled.build slots shape).remarks = []) ∧
      ∀ arguments given world, (compiled.invoke slots arguments given world).2.2 =
        if arguments.length = compiled.memberCount then
          match (compiled.fetch slots (.ofArguments arguments)).result with
          | .error _ => world
          | .ok invoker =>
              (Compiled.outcome (invoker.invoke
                { slots := arguments.map Argument.value, metadata := given }) world).2
        else world := by
  intro engine chains due resolved
  refine ⟨?_, fun apart => ?_, fun metadata => ?_, compile_store settings directory,
    fun compiled chain slots => ?_⟩
  · simp only [due, chains, evaluateAll_due old store.world, resolved, resolve]
    rcases (engine.resolver isTarget).resolve callFunction expr store.world store.next with
      ⟨error | result, world, next⟩ <;> rfl
  · exact (congrArg (firsts · _ chains) Chain.staticKey?_eq).trans
      (firsts_map apart fun _ _ _ _ => rfl)
  · exact prepare_world settings directory expr isTarget metadata store
  · refine ⟨fun shape => ?_, Compiled.invoke_world chain slots⟩
    rw [Compiled.build_standard_eq chain]
    rfl

section Rows

/-- Two objects with members that are numbers. -/
def rowWorld : World Closure :=
  { objects :=
      #[{ members := [("a", .constantly (.int 3)), ("a:b", .constantly (.int 1))] },
        { members := [("b", .constantly (.int 2))] }] }

def firstRow : ObjectRef := ⟨0, "r", "T", ⟨1⟩⟩

def secondRow : ObjectRef := ⟨1, "s", "U", ⟨2⟩⟩

/-- The objects as resources. -/
def rows : Directory :=
  .ofLists [] [("R", .object firstRow), ("S", .object secondRow), ("R:a", .object secondRow)]

/-- A member of a resource, read along a static chain. -/
def rowMember (id : NodeId) (name member : String) : Expr :=
  .mk id (.member (some (.mk (id + 1) (.unary .static (.mk (id + 2) (.member none name))))) member)

def rowSum (id : NodeId) (left right : Expr) : Expr := .mk id (.binary .add left right)

/-- The chain that such a member is. -/
def rowChain (name : String) (row : ObjectRef) (member : String) : Except ResolveError Chain :=
  .ok { root := .resource name (.object row), isStatic := true, path := [.member member] }

/-- A member that is named twice is read once, and a member of a constant object is not read by a
build. -/
theorem asks_confined_rows :
    let engine : Engine := { directory := rows }
    let expr := rowSum 0 (rowSum 1 (rowMember 2 "R" "a") (rowMember 5 "S" "b"))
      (rowMember 8 "R" "a")
    let store : Store := { world := rowWorld, next := 11 }
    let content : Compiled :=
      { expression := .mk 1 (.member (some (.mk 0 (.constant (.object firstRow)))) "a")
        members := [], chain := Builder.standard, metadata := none }
    expr.Everywhere (·.id < store.next) ∧
      (engine.prepare expr false none store).2.world.log =
        #[.member firstRow "a", .member secondRow "b"] ∧
      firsts Chain.origin? (fun _ => false) ((engine.resolver false).staticChains expr []) =
        [rowChain "R" firstRow "a", rowChain "S" secondRow "b"] ∧
      (content.build Slots.none (.ofTypes [])).remarks = [] := by
  intro engine expr store content
  have old : expr.Everywhere (·.id < store.next) := by
    simp [expr, store, rowSum, rowMember, Expr.everywhere_mk, Node.children, Expr.id]
  have chains : (engine.resolver false).staticChains expr [] =
      [rowChain "R" firstRow "a", rowChain "S" secondRow "b", rowChain "R" firstRow "a"] := rfl
  have apart : StaysApart Chain.origin? Chain.joined
      ((engine.resolver false).staticChains expr []) := by
    refine staysApart_of_colonFree fun chain origin found starts => ?_
    rw [chains] at found
    simp only [rowChain, List.mem_cons, Except.ok.injEq, List.not_mem_nil, or_false] at found
    rcases found with rfl | rfl | rfl <;> cases starts <;> decide
  obtain ⟨asked, due, prepared, -, calls⟩ := asks_confined {} rows expr false store old
  obtain ⟨builds, -⟩ := calls content rfl Slots.none
  have read : evaluateAll callFunction
      (firsts Chain.origin? (fun _ => false) ((engine.resolver false).staticChains expr []))
      rowWorld = .ok () { rowWorld with
        log := #[.member firstRow "a", .member secondRow "b"] } := rfl
  rw [due apart, read] at asked
  refine ⟨old, ?_, rfl, builds _⟩
  cases ended : (engine.resolve expr false store).1 with
  | error error =>
      rw [ended] at asked
      cases asked
  | ok result =>
      rw [ended] at asked
      rw [prepared none, ← (EStateM.Result.ok.inj asked).2]

/-- The path `a:b` from `R` and the path `b` from `R:a` are remembered as one: the first is read,
and its value stands for both. -/
theorem asks_once_for_two :
    let engine : Engine := { directory := rows }
    let expr := rowSum 0 (rowMember 1 "R" "a:b") (rowMember 4 "R:a" "b")
    let store : Store := { world := rowWorld, next := 7 }
    firsts Chain.origin? (fun _ => false) ((engine.resolver false).staticChains expr []) =
        [rowChain "R" firstRow "a:b", rowChain "R:a" secondRow "b"] ∧
      (engine.resolve expr false store).2.world.log = #[.member firstRow "a:b"] ∧
      (engine.resolve expr false store).1 =
        .ok (rowSum 8 (.mk 7 (.constant (.int 1))) (.mk 7 (.constant (.int 1)))) :=
  ⟨rfl, rfl, rfl⟩

end Rows

end Engine

end Tether

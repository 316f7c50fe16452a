import Tether.Proofs.UnchangedBodies

set_option autoImplicit false

/- A walk in one pass. The walk offers every node to a visit and goes on below it if the visit gives
the node back, so the body of a lambda is walked twice when nothing was found in it. Nothing is
there to be found the second time either, as the nodes that a walk makes are new. What is left is
one pass, parents first, that replaces chains and goes on below everything else. -/
namespace Tether

namespace Resolver

variable {κ α β : Type} {call : Caller κ} {resolver : Resolver} {scope : List String}
  {base : NodeId} {before after : Progress κ}

/-- All that a resolution has made has an identity from `base` on. -/
structure Tidy (base : NodeId) (progress : Progress κ) : Prop where
  next : base ≤ progress.next
  members (key : PlaceholderKey) (node : Expr) (known : progress.members.get? key = some node) :
    base ≤ node.id
  statics (key : StaticKind × String) (node : Expr)
    (known : progress.statics.get? key = some node) : base ≤ node.id

theorem Tidy.start (world : World κ) (base : NodeId) : Tidy base { world, next := base } where
  next := Nat.le_refl _
  members _ _ known := by cases known
  statics _ _ known := by cases known

/-- A step that leaves a tidy state tidy, with results as `post` says. -/
def Ensures (base : NodeId) (post : α → Prop) (step : Resolve κ α) : Prop :=
  ∀ scope before value after, Tidy base before → step scope before = .ok value after →
    post value ∧ Tidy base after

/-- Identities from `base` on are what fits. -/
theorem ensures_iff {post : α → Prop} {step : Resolve κ α} :
    Ensures base post step ↔ Upholds (fun node => base ≤ node.id) post step := by
  have tidy_iff (progress : Progress κ) :
      Tidy base progress ↔ Remembers (fun node => base ≤ node.id) progress :=
    ⟨fun tidy => ⟨fun _ unused _ => Nat.le_trans tidy.next unused, tidy.members, tidy.statics⟩,
      fun remembers => ⟨remembers.new progress.next (Nat.le_refl _) (.parameter ""),
        remembers.members, remembers.statics⟩⟩
  simp only [Ensures, Upholds, tidy_iff]

section Ensures

theorem ensures_newNode (node : Node Expr) :
    Ensures base (fun made => base ≤ made.id) (newNode node : Resolve κ Expr) :=
  ensures_iff.mpr (upholds_newNode node)

theorem ensures_placeholder (path : String) (root : Root) (kind : Kind) (method : Option String) :
    Ensures base (fun made => base ≤ made.id)
      (resolver.placeholder path root kind method : Resolve κ Expr) :=
  ensures_iff.mpr (upholds_placeholder path root kind method)

theorem ensures_staticValue (expression : String) (key : StaticKind × String) (start : Value)
    (path : Path) :
    Ensures base (fun made => base ≤ made.id) (staticValue call expression key start path) :=
  ensures_iff.mpr (upholds_staticValue expression key start path)

theorem ensures_materialize (chain : Chain) (kind : Kind) (method : Option String) :
    Ensures base (fun made => base ≤ made.id)
      (resolver.materialize call chain kind method) :=
  ensures_iff.mpr (upholds_materialize chain kind method)

theorem Ensures.mapM {items : List Expr} {walk : Expr → Resolve κ α} {related : Expr → α → Prop}
    (each : ∀ item ∈ items, Ensures base (related item) (walk item)) :
    Ensures base (List.Forall₂ related items) (items.mapM walk) :=
  ensures_iff.mpr (.mapM fun item found => ensures_iff.mp (each item found))

theorem Ensures.withReader {post : α → Prop} {first : Resolve κ α}
    (ensures : Ensures base post first) (change : List String → List String) :
    Ensures base post (MonadWithReader.withReader change first) :=
  fun scope before value after tidy ran => ensures (change scope) before value after tidy ran

end Ensures

/-- A node over walked children: the node itself if all of them are as before. -/
def remake (walk : Expr → Resolve κ Expr) (id : NodeId) (node : Node Expr) : Resolve κ Expr := do
  let results ← withReader (fun scope => node.scopeBelow scope) (node.children.mapM walk)
  if results.map Expr.id == node.children.map Expr.id then pure (.mk id node)
  else
    match node.withChildren? results with
    | some rebuilt => newNode rebuilt
    | none => pure (.mk id node)

/-- A node made anew over a receiver and walked arguments. -/
def receive (resolver : Resolver) (call : Caller κ) (walk : Expr → Resolve κ Expr)
    (target : Option Expr) (kind : Kind) (method : Option String) (arguments : List Expr)
    (make : Expr → List Expr → Node Expr) : Resolve κ Expr := do
  let receiver ← resolver.replaceReceiver call (target.map fun owner => (owner, walk owner)) kind
    method
  let values ← arguments.mapM walk
  newNode (make receiver values)

/-- What becomes of a node that is no chain. -/
def settle (resolver : Resolver) (call : Caller κ) (walk : Expr → Resolve κ Expr) (id : NodeId) :
    Node Expr → Resolve κ Expr
  | .member none name => newNode (.parameter name)
  | .index target arguments =>
      resolver.receive call walk target .index none arguments fun receiver values =>
        .index (some receiver) values
  | .call target method arguments =>
      let observed := if resolver.settings.observeMethods then some method else none
      resolver.receive call walk target .call observed arguments fun receiver values =>
        .call (some receiver) method values
  | node => remake walk id node

/-- One node of the pass. -/
def pass (resolver : Resolver) (call : Caller κ) (walk : Expr → Resolve κ Expr) (expr : Expr) :
    Resolve κ Expr := do
  match ← resolver.flatten (← read) expr with
  | some chain => resolver.materialize call chain expr.kind none
  | none => resolver.settle call walk expr.id expr.node

/-- What a walk gives for a tree: the tree itself if there is nothing to resolve in it, or else a
new one. -/
def Kept (base : NodeId) (expr result : Expr) : Prop :=
  result = expr ∧ expr.Inert ∨ base ≤ result.id

/-- An identity below `base` is none that fits. -/
theorem setApart_of_lt {expr : Expr} (below : expr.id < base) :
    SetApart (fun node => base ≤ node.id) expr :=
  fun _ new same => absurd below (Nat.not_lt.mpr (same ▸ new))

theorem Kept.eq_of_id {expr result : Expr} (kept : Kept base expr result) (below : expr.id < base)
    (same : result.id = expr.id) : result = expr ∧ expr.Inert :=
  have returns : Returns (fun node => base ≤ node.id) expr result := kept
  returns.eq_of_id (setApart_of_lt below) same

/-- Children that keep their identities have nothing to resolve in them. -/
theorem inert_of_ids {exprs results : List Expr} (kept : List.Forall₂ (Kept base) exprs results)
    (old : ∀ expr ∈ exprs, expr.id < base) (same : results.map Expr.id = exprs.map Expr.id) :
    ∀ expr ∈ exprs, expr.Inert :=
  inert_of_returned kept (fun expr found => setApart_of_lt (old expr found)) same

section Receive

variable {walk : Expr → Resolve κ Expr}

theorem ensures_replaceReceiver {target : Option Expr}
    (owners : ∀ owner ∈ target, Ensures base (Kept base owner) (walk owner)) (kind : Kind)
    (method : Option String) :
    Ensures base (fun _ => True) (resolver.replaceReceiver call
      (target.map fun owner => (owner, walk owner)) kind method) :=
  ensures_iff.mpr (upholds_replaceReceiver
    (fun owner found => ensures_iff.mp (owners owner found)) kind method)

theorem ensures_receive {target : Option Expr} {arguments : List Expr}
    (each : ∀ child ∈ target.toList ++ arguments, Ensures base (Kept base child) (walk child))
    (kind : Kind) (method : Option String) (make : Expr → List Expr → Node Expr) :
    Ensures base (fun made => base ≤ made.id)
      (resolver.receive call walk target kind method arguments make) :=
  ensures_iff.mpr (upholds_receiver_new
    (fun child found => ensures_iff.mp (each child found)) kind method make)

end Receive

section Pass

variable {walk : Expr → Resolve κ Expr} {expr : Expr} {id : NodeId} {node : Node Expr}

theorem pass_of_error {error : ResolveError} (failed : resolver.flatten scope expr = .error error) :
    resolver.pass call walk expr scope before = .error (.failure error) before := by
  have inScope : (read : Resolve κ (List String)) scope before = .ok scope before := rfl
  rw [pass, bind_of_ok inScope, failed]
  rfl

theorem pass_of_chain {chain : Chain} (flat : resolver.flatten scope expr = .ok (some chain)) :
    resolver.pass call walk expr scope before =
      resolver.materialize call chain expr.kind none scope before := by
  have inScope : (read : Resolve κ (List String)) scope before = .ok scope before := rfl
  rw [pass, bind_of_ok inScope, flat]
  rfl

theorem pass_of_none (unchained : resolver.flatten scope expr = .ok none) :
    resolver.pass call walk expr scope before =
      resolver.settle call walk expr.id expr.node scope before := by
  have inScope : (read : Resolve κ (List String)) scope before = .ok scope before := rfl
  rw [pass, bind_of_ok inScope, unchained]
  rfl

theorem replaceChain_of_error (call : Caller κ) (before : Progress κ) {error : ResolveError}
    (failed : resolver.flatten scope expr = .error error) :
    resolver.replaceChain call expr scope before = .error (.failure error) before := by
  have inScope : (read : Resolve κ (List String)) scope before = .ok scope before := rfl
  rw [replaceChain, bind_of_ok inScope, failed]
  rfl

theorem bind_replaceChain (call : Caller κ) (before : Progress κ) {chain : Chain}
    (flat : resolver.flatten scope expr = .ok (some chain)) {next : Option Expr → Resolve κ Expr}
    (keeps : ∀ made, next (some made) = pure made) :
    (resolver.replaceChain call expr >>= next) scope before =
      resolver.materialize call chain expr.kind none scope before := by
  have inScope : (read : Resolve κ (List String)) scope before = .ok scope before := rfl
  have replaced : resolver.replaceChain call expr scope before =
      (some <$> resolver.materialize call chain expr.kind none) scope before := by
    rw [replaceChain, bind_of_ok inScope, flat]
    rfl
  rw [map_eq_pure_bind] at replaced
  cases made : resolver.materialize call chain expr.kind none scope before with
  | ok node between =>
      rw [bind_of_ok made] at replaced
      rw [bind_of_ok replaced, keeps]
      rfl
  | error halt between =>
      rw [bind_of_error made] at replaced
      exact bind_of_error replaced

theorem visit_of_error {error : ResolveError}
    (failed : resolver.flatten scope (.mk id node) = .error error) :
    resolver.visit call id (node.map fun child => (child, walk child)) scope before =
      .error (.failure error) before := by
  have replaced := replaceChain_of_error call before failed
  cases node with
  | constant | call | binary | condition | lambda | parameter | placeholder => cases failed
  | member target name =>
      cases target with
      | none =>
          rw [flatten] at failed
          split at failed <;> cases failed
      | some target => exact bind_of_error replaced
  | index target arguments =>
      simp only [visit, Node.map, Option.map_map, List.map_map, Function.comp_def, Option.map_id',
        List.map_id']
      exact bind_of_error replaced
  | unary op operand =>
      by_cases namesRoot : op.namesRoot
      · simp only [visit, Node.map, namesRoot, if_true]
        exact bind_of_error replaced
      · rw [flatten, if_neg namesRoot] at failed
        cases failed

/-- A chain is visited as a whole. -/
theorem visit_of_chain {chain : Chain}
    (flat : resolver.flatten scope (.mk id node) = .ok (some chain)) :
    resolver.visit call id (node.map fun child => (child, walk child)) scope before =
      resolver.materialize call chain node.kind none scope before := by
  have inScope : (read : Resolve κ (List String)) scope before = .ok scope before := rfl
  cases node with
  | constant | call | binary | condition | lambda | parameter | placeholder => cases flat
  | member target name =>
      cases target with
      | none =>
          have free : ¬ scope.contains name := by
            intro bound
            rw [flatten, if_pos bound] at flat
            cases flat
          simp only [visit, Node.map, Option.map_none]
          rw [bind_of_ok inScope, if_neg free]
          exact bind_replaceChain call before flat fun _ => rfl
      | some target => exact bind_replaceChain call before flat fun _ => rfl
  | index target arguments =>
      simp only [visit, Node.map, Option.map_map, List.map_map, Function.comp_def, Option.map_id',
        List.map_id']
      exact bind_replaceChain call before flat fun _ => rfl
  | unary op operand =>
      by_cases namesRoot : op.namesRoot
      · simp only [visit, Node.map, namesRoot, if_true]
        exact bind_replaceChain call before flat fun _ => rfl
      · rw [flatten, if_neg namesRoot] at flat
        cases flat

end Pass

section Walk

variable {id : NodeId} {node : Node Expr} {step : Resolve κ Expr}

/-- A node that a visit gives back is made again over its walked children. -/
theorem rebuild_eq_remake (walk : Expr → Resolve κ Expr) (id : NodeId)
    (sameScope : node.scopeBelow scope = scope) :
    Expr.rebuild fresh id (node.map fun child => (child, walk child)) scope before =
      remake walk id node scope before := by
  have inside : (withReader (fun scope => node.scopeBelow scope) (node.children.mapM walk) :
      Resolve κ (List Expr)) scope = node.children.mapM walk scope := by
    change node.children.mapM walk (node.scopeBelow scope) = _
    rw [sameScope]
  rw [Expr.rebuild_map, remake]
  change EStateM.bind (node.children.mapM walk scope) _ before = EStateM.bind _ _ before
  rw [inside]
  rfl

/-- A visit that ends with a new node ends the walk. -/
theorem walk_of_new (below : id < base) (tidy : Tidy base before)
    (visits : resolver.visit call id
      (node.map fun child => (child, resolver.walk call child)) scope before = step scope before)
    (new : Ensures base (fun made => base ≤ made.id) step) :
    resolver.walk call (.mk id node) scope before = step scope before := by
  rw [walk_mk]
  cases ran : step scope before with
  | error halt between => exact bind_of_error (visits.trans ran)
  | ok made between =>
      rw [bind_of_ok (visits.trans ran)]
      have fresh := (new scope before made between tidy ran).1
      have apart : (made.id != id) = true := by
        simpa using Nat.ne_of_gt (Nat.lt_of_lt_of_le below fresh)
      rw [if_pos apart]
      rfl

theorem walk_of_kept
    (visits : resolver.visit call id
      (node.map fun child => (child, resolver.walk call child)) scope before =
        .ok (.mk id node) before)
    (sameScope : node.scopeBelow scope = scope) :
    resolver.walk call (.mk id node) scope before =
      remake (resolver.walk call) id node scope before := by
  have same : ((Expr.mk id node).id != id) = false := by simp [Expr.id]
  rw [walk_mk, bind_of_ok visits]
  simp only [same, Bool.false_eq_true, if_false]
  exact rebuild_eq_remake _ id sameScope

/-- The second walk of an unchanged body finds nothing. -/
theorem walk_lambda {parameters : List String} {body : Expr} (below : id < base)
    (tidy : Tidy base before) (old : body.id < base)
    (keeps : Ensures base (Kept base body) (resolver.walk call body)) :
    resolver.walk call (.mk id (.lambda parameters body)) scope before =
      remake (resolver.walk call) id (.lambda parameters body) scope before := by
  have results : withReader (fun scope => (Node.lambda parameters body).scopeBelow scope)
      ([body].mapM (resolver.walk call)) scope before =
        (do let walked ← resolver.walk call body; pure [walked]) (scope ++ parameters) before := by
    change [body].mapM (resolver.walk call) (scope ++ parameters) before = _
    rw [List.mapM_cons]
    rfl
  rw [walk_mk, remake]
  simp only [visit, Node.map]
  cases ran : resolver.walk call body (scope ++ parameters) before with
  | error halt between =>
      rw [bind_of_error ran] at results
      have walking : withReader (· ++ parameters) (resolver.walk call body) scope before =
          .error halt between := ran
      rw [bind_of_error (bind_of_error walking)]
      exact (bind_of_error results).symm
  | ok walked between =>
      rw [bind_of_ok ran] at results
      have walking : withReader (· ++ parameters) (resolver.walk call body) scope before =
          .ok walked between := ran
      obtain ⟨kept, tidyBetween⟩ := keeps (scope ++ parameters) before walked between tidy ran
      refine Eq.trans ?_ (bind_of_ok results).symm
      by_cases same : walked.id = body.id
      · obtain ⟨rfl, inert⟩ := kept.eq_of_id old same
        have visits : resolver.visit call id ((Node.lambda parameters walked).map fun child =>
            (child, resolver.walk call child)) scope before =
              .ok (.mk id (.lambda parameters walked)) between := by
          simp only [visit, Node.map]
          rw [bind_of_ok walking, if_pos (by simp)]
          rfl
        have again : ∀ child ∈ (Node.lambda parameters walked).children,
            resolver.walk call child scope between = .ok child between := by
          simpa [Node.children] using walk_inert inert scope between
        have rebuilt : Expr.rebuild fresh id ((Node.lambda parameters walked).map fun child =>
            (child, resolver.walk call child)) scope between =
              .ok (.mk id (.lambda parameters walked)) between := by
          rw [Expr.rebuild_map, bind_of_ok (walkAll_inert again), if_pos (by simp)]
          rfl
        refine (bind_of_ok visits).trans ?_
        rw [if_neg (by simp [Expr.id]), if_pos (by simp [Node.children])]
        exact rebuilt
      · have visits : resolver.visit call id ((Node.lambda parameters body).map fun child =>
            (child, resolver.walk call child)) scope before =
              .ok (.mk between.next (.lambda parameters walked))
                { between with next := between.next + 1 } := by
          simp only [visit, Node.map]
          rw [bind_of_ok walking, if_neg (by simpa using same)]
          rfl
        have apart : ((Expr.mk between.next (.lambda parameters walked)).id != id) = true := by
          simpa [Expr.id] using Nat.ne_of_gt (Nat.lt_of_lt_of_le below tidyBetween.next)
        refine (bind_of_ok visits).trans ?_
        rw [if_pos apart]
        have changed : ([walked].map Expr.id == (Node.lambda parameters body).children.map
            Expr.id) = false := by simpa [Node.children] using same
        simp only [changed, Bool.false_eq_true, if_false]
        rfl

/-- A node that is no chain is settled. -/
theorem walk_of_none (below : id < base) (tidy : Tidy base before)
    (each : ∀ child ∈ node.children, child.id < base ∧
      Ensures base (Kept base child) (resolver.walk call child))
    (unchained : resolver.flatten scope (.mk id node) = .ok none) :
    resolver.walk call (.mk id node) scope before =
      resolver.settle call (resolver.walk call) id node scope before := by
  have inScope : (read : Resolve κ (List String)) scope before = .ok scope before := rfl
  have unreplaced : resolver.replaceChain call (.mk id node) scope before = .ok none before :=
    replaceChain_of_none unchained
  cases node with
  | constant | parameter | placeholder | binary | condition => exact walk_of_kept rfl rfl
  | member target name =>
      cases target with
      | none =>
          refine walk_of_new below tidy ?_ (ensures_newNode _)
          have bound : scope.contains name := by
            by_cases bound : scope.contains name
            · exact bound
            · rw [flatten, if_neg bound] at unchained
              cases unchained
          simp only [visit, Node.map, Option.map_none]
          rw [bind_of_ok inScope, if_pos bound]
          rfl
      | some target => exact walk_of_kept (bind_of_ok unreplaced) rfl
  | unary op operand =>
      by_cases namesRoot : op.namesRoot
      · exact absurd unchained (flatten_root_ne_none namesRoot operand)
      · refine walk_of_kept ?_ rfl
        simp only [visit, Node.map, namesRoot, Bool.false_eq_true, if_false]
        rfl
  | lambda parameters body =>
      obtain ⟨old, keeps⟩ := each body (by simp [Node.children])
      exact walk_lambda below tidy old keeps
  | index target arguments =>
      refine walk_of_new below tidy ?_ ?_
      · simp only [visit, Node.map, Option.map_map, List.map_map, Function.comp_def,
          Option.map_id', List.map_id']
        rw [bind_of_ok unreplaced]
        simp only [List.mapM_map]
        rfl
      · exact ensures_receive (fun child found => (each child found).2) _ _ _
  | call target method arguments =>
      refine walk_of_new below tidy ?_ ?_
      · simp only [visit, Node.map, List.mapM_map]
        rfl
      · exact ensures_receive (fun child found => (each child found).2) _ _ _

theorem walk_eq_of_children (below : id < base) (tidy : Tidy base before)
    (each : ∀ child ∈ node.children, child.id < base ∧
      Ensures base (Kept base child) (resolver.walk call child)) :
    resolver.walk call (.mk id node) scope before =
      resolver.pass call (resolver.walk call) (.mk id node) scope before := by
  cases flat : resolver.flatten scope (.mk id node) with
  | error error =>
      rw [pass_of_error flat, walk_mk]
      exact bind_of_error (visit_of_error flat)
  | ok found =>
      cases found with
      | none =>
          rw [pass_of_none flat]
          exact walk_of_none below tidy each flat
      | some chain =>
          rw [pass_of_chain flat]
          exact walk_of_new below tidy (visit_of_chain flat) (ensures_materialize chain _ none)

/-- A walk keeps what has nothing to resolve in it, and makes new nodes of everything else. -/
theorem walk_keeps {expr : Expr} (old : expr.Everywhere fun part => part.id < base) :
    Ensures base (Kept base expr) (resolver.walk call expr) :=
  ensures_iff.mpr (walk_returns fun part inside => setApart_of_lt (old part inside))

/-- The walk is a single pass. -/
theorem walk_eq_pass {expr : Expr} (old : expr.Everywhere fun part => part.id < base)
    (tidy : Tidy base before) :
    resolver.walk call expr scope before =
      resolver.pass call (resolver.walk call) expr scope before := by
  obtain ⟨id, node⟩ := expr
  exact walk_eq_of_children old.here tidy fun child found =>
    ⟨(old.child found).here, walk_keeps (old.child found)⟩

end Walk

end Resolver

end Tether

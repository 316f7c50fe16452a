import Tether.Proofs.Resolution

set_option autoImplicit false

/- A walk over a whole tree. It replaces what there is to resolve and keeps the rest: a part in
which there is nothing to resolve stays the same part, whatever the parameters in scope. -/
namespace Tether

/-- Nodes that a resolution leaves alone. -/
def Node.isInert {α : Type} : Node α → Bool
  | .member none _ | .index _ _ | .call _ _ _ => false
  | .unary op _ => !op.namesRoot
  | _ => true

/-- Nodes that start at a root: the default one, or one that they name. -/
def Node.namesRoot {α : Type} : Node α → Bool
  | .member none _ | .index none _ | .call none _ _ => true
  | .unary op _ => op.namesRoot
  | _ => false

/-- The parameters in scope below a node. -/
def Node.scopeBelow {α : Type} (scope : List String) : Node α → List String
  | .lambda parameters _ => scope ++ parameters
  | _ => scope

/-- Trees in which there is nothing to resolve. -/
def Expr.Inert : Expr → Prop :=
  Expr.Everywhere fun part => part.node.isInert

/-- Trees in which nothing starts at a root. -/
def Expr.Rootless : Expr → Prop :=
  Expr.Everywhere fun part => part.node.namesRoot = false

theorem Expr.Inert.rootless {expr : Expr} (inert : expr.Inert) : expr.Rootless := by
  intro part found
  have here := inert part found
  cases part with
  | mk id node =>
      cases node with
      | member target | index target | call target => cases target <;> trivial
      | unary op operand => simpa [Expr.node, Node.isInert, Node.namesRoot] using here
      | _ => rfl

namespace Resolver

variable {κ : Type} {call : Caller κ} {resolver : Resolver} {scope : List String}

/-- What starts at no root is no chain. -/
theorem flatten_rootless {expr : Expr} (rootless : expr.Rootless) (scope : List String) :
    resolver.flatten scope expr = .ok none := by
  induction expr using Expr.induct with
  | name => cases rootless.here
  | member id target name ih =>
      rw [flatten, ih (rootless.child (by simp [Node.children]))]
      rfl
  | index id target arguments ih =>
      cases target with
      | none => cases rootless.here
      | some target =>
          have owner := ih target rfl (rootless.child (by simp [Node.children]))
          simp only [flatten, owner]
          split
          · split <;> rfl
          · rfl
  | unary id op operand ih =>
      have computes : op.namesRoot = false := rootless.here
      simp only [flatten, computes, Bool.false_eq_true, if_false]
  | constant | call | binary | condition | lambda | parameter | placeholder => rfl

theorem walk_mk (id : NodeId) (node : Node Expr) :
    resolver.walk call (.mk id node) = (do
      let offered := node.map fun child => (child, resolver.walk call child)
      let visited ← resolver.visit call id offered
      if visited.id != id then pure visited else Expr.rebuild fresh id offered) := by
  rw [walk, Expr.descend, Expr.para_mk]

theorem walkAll_inert {exprs : List Expr} {progress : Progress κ}
    (each : ∀ expr ∈ exprs, resolver.walk call expr scope progress = .ok expr progress) :
    exprs.mapM (resolver.walk call) scope progress = .ok exprs progress := by
  induction exprs with
  | nil => rfl
  | cons expr rest ih =>
      rw [List.mapM_cons, bind_of_ok (each expr (List.mem_cons_self ..)),
        bind_of_ok (ih fun other found => each other (List.mem_cons_of_mem _ found))]
      rfl

theorem replaceChain_of_none {expr : Expr} {progress : Progress κ}
    (unchained : resolver.flatten scope expr = .ok none) :
    resolver.replaceChain call expr scope progress = .ok none progress := by
  have flattened : (liftM (resolver.flatten scope expr) : Resolve κ (Option Chain)) scope progress =
      .ok none progress := by
    rw [unchained]
    rfl
  have inScope : (read : Resolve κ (List String)) scope progress = .ok scope progress := rfl
  simp only [replaceChain]
  rw [bind_of_ok inScope, bind_of_ok flattened]
  rfl

theorem visit_inert {id : NodeId} {node : Node Expr} (inert : (Expr.mk id node).Inert)
    (scope : List String) (progress : Progress κ)
    (each : ∀ child ∈ node.children, ∀ scope,
      resolver.walk call child scope progress = .ok child progress) :
    resolver.visit call id (node.map fun child => (child, resolver.walk call child)) scope
      progress = .ok (.mk id node) progress := by
  have here := inert.here
  have unchained : resolver.flatten scope (.mk id node) = .ok none :=
    flatten_rootless inert.rootless scope
  cases node with
  | index | call => cases here
  | member target name =>
      cases target with
      | none => cases here
      | some target =>
          simp only [visit, Node.map, Option.map_some]
          exact bind_of_ok (replaceChain_of_none unchained)
  | unary op operand =>
      have computes : op.namesRoot = false := by simpa [Expr.node, Node.isInert] using here
      simp only [visit, Node.map, computes, Bool.false_eq_true, if_false]
      rfl
  | lambda parameters body =>
      have walked : withReader (· ++ parameters) (resolver.walk call body) scope progress =
          .ok body progress := each body (by simp [Node.children]) (scope ++ parameters)
      simp only [visit, Node.map]
      rw [bind_of_ok walked]
      simp only [beq_self_eq_true, if_true]
      rfl
  | constant | binary | condition | parameter | placeholder => rfl

/-- A tree with nothing to resolve is left as it is, and nothing is recorded. -/
theorem walk_inert {expr : Expr} (inert : expr.Inert) (scope : List String)
    (progress : Progress κ) : resolver.walk call expr scope progress = .ok expr progress := by
  induction expr using Expr.children_induct generalizing scope with
  | step id node ih =>
      have each (child : Expr) (found : child ∈ node.children) (scope : List String) :
          resolver.walk call child scope progress = .ok child progress :=
        ih child found (inert.child found) scope
      rw [walk_mk, bind_of_ok (visit_inert inert scope progress each)]
      have same : ((Expr.mk id node).id != id) = false := by simp [Expr.id]
      simp only [same, Bool.false_eq_true, if_false]
      rw [Expr.rebuild_map, bind_of_ok (walkAll_inert fun child found => each child found scope)]
      simp only [beq_self_eq_true, if_true]
      rfl

section Walk

variable {terms : Terms κ} {before after : Progress κ} {expr result : Expr}

/-- What a walk makes of one tree: the tree itself, if there is nothing to resolve, or a new one. -/
structure Part (call : Caller κ) (terms : Terms κ) (resolver : Resolver) (scope : List String)
    (after : Progress κ) (expr result : Expr) : Prop where
  kept : result = expr ∨ terms.base ≤ result.id
  inert (same : result = expr) : expr.Inert
  resolved : Resolved resolver (Leaf call terms after) scope expr result

theorem Part.grows {later : Progress κ} (part : Part call terms resolver scope after expr result)
    (grows : Grows after later) : Part call terms resolver scope later expr result :=
  ⟨part.kept, part.inert, part.resolved.mono fun _ _ _ leaf => leaf.grows grows⟩

theorem Part.eq_of_id (part : Part call terms resolver scope after expr result)
    (below : expr.id < terms.base) (same : result.id = expr.id) : result = expr := by
  rcases part.kept with kept | new
  · exact kept
  · rw [same] at new
    exact absurd below (Nat.not_lt.mpr new)

/-- The trees that the terms speak of: their identities are taken and their chains are good. -/
def Fit (resolver : Resolver) (terms : Terms κ) : Expr → Prop :=
  Expr.Everywhere fun part => part.id < terms.base ∧
    ∀ scope chain, resolver.flatten scope part = .ok (some chain) → terms.good chain

/-- A walk that does what walks do. -/
def Walks (call : Caller κ) (terms : Terms κ) (resolver : Resolver) (expr : Expr) : Prop :=
  ∀ scope before after result, Good call terms before →
    resolver.walk call expr scope before = .ok result after →
      Good call terms after ∧ Grows before after ∧ Part call terms resolver scope after expr result

theorem walkAll_walked {exprs results : List Expr}
    (each : ∀ expr ∈ exprs, Walks call terms resolver expr) (good : Good call terms before)
    (ran : exprs.mapM (resolver.walk call) scope before = .ok results after) :
    Good call terms after ∧ Grows before after ∧ exprs.length = results.length ∧
      ∀ pair ∈ exprs.zip results, Part call terms resolver scope after pair.1 pair.2 := by
  induction exprs generalizing before results with
  | nil =>
      cases ran
      exact ⟨good, Grows.refl _, rfl, nofun⟩
  | cons expr rest ih =>
      rw [List.mapM_cons] at ran
      obtain ⟨result, between, walked, ran⟩ := ok_of_bind ran
      obtain ⟨others, finally', walkedRest, ran⟩ := ok_of_bind ran
      cases ran
      obtain ⟨goodBetween, growsFirst, part⟩ :=
        each expr (List.mem_cons_self ..) scope before between result good walked
      obtain ⟨goodAfter, growsRest, count, parts⟩ :=
        ih (fun other found => each other (List.mem_cons_of_mem _ found)) goodBetween walkedRest
      refine ⟨goodAfter, growsFirst.trans growsRest, by rw [List.length_cons, count]; rfl, ?_⟩
      intro pair found
      rw [List.zip_cons_cons, List.mem_cons] at found
      rcases found with rfl | found
      · exact part.grows growsRest
      · exact parts pair found

theorem mem_zip_self {α : Type} {item : α} {items : List α} (found : item ∈ items) :
    (item, item) ∈ items.zip items := by
  induction items with
  | nil => cases found
  | cons first rest ih =>
      rw [List.zip_cons_cons]
      cases found with
      | head => exact List.mem_cons_self ..
      | tail _ found => exact List.mem_cons_of_mem _ (ih found)

/-- Rebuilding a node over walked children. -/
theorem rebuild_walked {id : NodeId} {node : Node Expr}
    (each : ∀ child ∈ node.children, Walks call terms resolver child)
    (below : ∀ child ∈ node.children, child.id < terms.base) (good : Good call terms before)
    (ran : Expr.rebuild fresh id (node.map fun child => (child, resolver.walk call child)) scope
      before = .ok result after) :
    ∃ results, Good call terms after ∧ Grows before after ∧
      node.children.length = results.length ∧
      (∀ pair ∈ node.children.zip results, Part call terms resolver scope after pair.1 pair.2) ∧
      ((results = node.children ∧ (∀ child ∈ node.children, child.Inert) ∧
          result = .mk id node) ∨
        ∃ id' rebuilt, terms.base ≤ id' ∧ node.withChildren? results = some rebuilt ∧
          result = .mk id' rebuilt) := by
  rw [Expr.rebuild_map] at ran
  obtain ⟨results, between, walked, ran⟩ := ok_of_bind ran
  obtain ⟨goodBetween, grows, count, parts⟩ := walkAll_walked each good walked
  by_cases same : results.map Expr.id = node.children.map Expr.id
  · rw [if_pos (by simpa using same)] at ran
    cases ran
    have unchanged : results = node.children := by
      refine Expr.eq_of_ids same fun pair found => (parts pair found).eq_of_id ?_
      exact below pair.1 (List.of_mem_zip found).1
    refine ⟨results, goodBetween, grows, count, parts, .inl ⟨unchanged, ?_, rfl⟩⟩
    intro child found
    rw [unchanged] at parts
    exact (parts (child, child) (mem_zip_self found)).inert rfl
  · rw [if_neg (by simpa using same)] at ran
    cases rebuilt : node.withChildren? results with
    | none =>
        rw [Node.withChildren?_none rebuilt] at same count
        exact absurd (by rw [List.eq_nil_of_length_eq_zero count.symm]) same
    | some node' =>
        rw [rebuilt] at ran
        obtain ⟨made, between', fresh, ran⟩ := ok_of_bind ran
        cases fresh
        cases ran
        have growsFresh := Grows.fresh between
        exact ⟨results, goodBetween.fresh, grows.trans growsFresh, count,
          fun pair found => (parts pair found).grows growsFresh,
          .inr ⟨between.next, node', goodBetween.next, rebuilt, rfl⟩⟩

theorem Part.new (new : terms.base ≤ result.id) (below : expr.id < terms.base)
    (resolved : Resolved resolver (Leaf call terms after) scope expr result) :
    Part call terms resolver scope after expr result where
  kept := .inr new
  inert same := by
    rw [same] at new
    exact absurd below (Nat.not_lt.mpr new)
  resolved := resolved

theorem Stood.part {chain : Chain} (stood : Stood call terms before after chain result)
    (flat : resolver.flatten scope expr = .ok (some chain)) (below : expr.id < terms.base) :
    Part call terms resolver scope after expr result :=
  .new stood.new below (.chain flat stood.leaf)

/-- A node that a visit replaces by a new one is replaced as a whole. -/
theorem visited_new {id : NodeId} {visited : Expr} {rest : Resolve κ Expr}
    (new : terms.base ≤ visited.id) (below : id < terms.base)
    (ran : (if visited.id != id then pure visited else rest) scope before = .ok result after) :
    result = visited ∧ after = before := by
  have apart : (visited.id != id) = true := by
    simpa using Nat.ne_of_gt (Nat.lt_of_lt_of_le below new)
  rw [if_pos apart] at ran
  cases ran
  exact ⟨rfl, rfl⟩

/-- Below a node that a visit leaves alone the walk goes on. -/
theorem visited_same {id : NodeId} {node : Node Expr} {rest : Resolve κ Expr}
    (ran : (if (Expr.mk id node).id != id then pure (Expr.mk id node) else rest) scope before =
      .ok result after) : rest scope before = .ok result after := by
  rwa [if_neg (by simp [Expr.id])] at ran

/-- A chain is replaced as a whole by the node that stands for it. -/
theorem chain_walked (reads : ReadsSettled call terms) (good : Good call terms before)
    (fit : Fit resolver terms expr) {chain : Chain}
    (flat : resolver.flatten scope expr = .ok (some chain)) {kind : Kind}
    {method : Option String} {visited : Expr} {between : Progress κ} {rest : Resolve κ Expr}
    (made : resolver.materialize call chain kind method scope before = .ok visited between)
    (ran : (if visited.id != expr.id then pure visited else rest) scope between =
      .ok result after) :
    Good call terms after ∧ Grows before after ∧
      Part call terms resolver scope after expr result := by
  have stood := materialize_stood reads good (fit.here.2 scope chain flat) made
  obtain ⟨rfl, rfl⟩ := visited_new stood.new fit.here.1 ran
  exact ⟨stood.good, stood.grows, stood.part flat fit.here.1⟩

theorem replaceReceiver_walked (reads : ReadsSettled call terms)
    (root : terms.good { root := resolver.defaultRoot }) {target : Option Expr}
    (fit : ∀ owner ∈ target, Fit resolver terms owner)
    (each : ∀ owner ∈ target, Walks call terms resolver owner) (good : Good call terms before)
    {kind : Kind} {method : Option String}
    (ran : resolver.replaceReceiver call
      (target.map fun owner => (owner, resolver.walk call owner)) kind method scope before =
        .ok result after) :
    Good call terms after ∧ Grows before after ∧
      (target = none → Leaf call terms after { root := resolver.defaultRoot } result) ∧
      ∀ owner, target = some owner →
        Resolved resolver (Leaf call terms after) scope owner result := by
  cases target with
  | none =>
      have stood : Stood call terms before after { root := resolver.defaultRoot } result :=
        placeholder_stood good root rfl ran
      exact ⟨stood.good, stood.grows, fun _ => stood.leaf, nofun⟩
  | some target =>
      simp only [replaceReceiver, Option.map_some] at ran
      obtain ⟨here, between, read, ran⟩ := ok_of_bind ran
      cases read
      obtain ⟨chain, between, flattening, ran⟩ := ok_of_bind ran
      obtain ⟨flat, rfl⟩ := lift_eq_ok flattening
      cases chain with
      | none =>
          obtain ⟨goodAfter, grows, part⟩ := each target rfl scope _ after result good ran
          refine ⟨goodAfter, grows, nofun, ?_⟩
          rintro _ ⟨⟩
          exact part.resolved
      | some chain =>
          have sound := (fit target rfl).here.2 scope chain flat
          have stood := materialize_stood reads good sound ran
          refine ⟨stood.good, stood.grows, nofun, ?_⟩
          rintro _ ⟨⟩
          exact .chain flat stood.leaf

/-- A node made anew over a receiver and walked arguments. -/
theorem received_walked (reads : ReadsSettled call terms)
    (root : terms.good { root := resolver.defaultRoot }) {target : Option Expr}
    {arguments : List Expr} (fit : ∀ owner ∈ target, Fit resolver terms owner)
    (owners : ∀ owner ∈ target, Walks call terms resolver owner)
    (each : ∀ argument ∈ arguments, Walks call terms resolver argument)
    (good : Good call terms before) {kind : Kind} {method : Option String}
    {make : Expr → List Expr → Node Expr}
    (ran : (do
      let receiver ← resolver.replaceReceiver call
        (target.map fun owner => (owner, resolver.walk call owner)) kind method
      let values ← (arguments.map fun argument => (argument, resolver.walk call argument)).mapM
        Prod.snd
      newNode (make receiver values)) scope before = .ok result after) :
    Good call terms after ∧ Grows before after ∧ terms.base ≤ result.id ∧
      ∃ receiver values id', result = .mk id' (make receiver values) ∧
        (target = none → Leaf call terms after { root := resolver.defaultRoot } receiver) ∧
        (∀ owner, target = some owner →
          Resolved resolver (Leaf call terms after) scope owner receiver) ∧
        arguments.length = values.length ∧
        ∀ pair ∈ arguments.zip values,
          Resolved resolver (Leaf call terms after) scope pair.1 pair.2 := by
  obtain ⟨receiver, received, receiving, rest⟩ := ok_of_bind ran
  obtain ⟨values, walked, walking, rest⟩ := ok_of_bind rest
  cases rest
  rw [List.mapM_map] at walking
  obtain ⟨goodReceived, growsReceived, rooted, owned⟩ :=
    replaceReceiver_walked reads root fit owners good receiving
  obtain ⟨goodWalked, growsWalked, count, parts⟩ := walkAll_walked each goodReceived walking
  have later : Grows received { walked with next := walked.next + 1 } :=
    growsWalked.trans (Grows.fresh walked)
  refine ⟨goodWalked.fresh, growsReceived.trans later, goodWalked.next, receiver, values,
    walked.next, rfl, fun missing => (rooted missing).grows later, ?_, count, ?_⟩
  · exact fun owner found => (owned owner found).mono fun _ _ _ leaf => leaf.grows later
  · exact fun pair found => ((parts pair found).grows (Grows.fresh walked)).resolved

theorem flatten_root_ne_none {id : NodeId} {op : UnaryOp} (namesRoot : op.namesRoot)
    (operand : Expr) : resolver.flatten scope (.mk id (.unary op operand)) ≠ .ok none := by
  rw [flatten, if_pos namesRoot]
  split
  · rename_i name _
    cases resolver.namedRoot name (op == .static) <;> simp [Except.map]
  · nofun

theorem walks_of_inert (inert : expr.Inert)
    (resolved : ∀ scope after, Resolved resolver (Leaf call terms after) scope expr expr) :
    Walks call terms resolver expr := by
  intro scope before after result good ran
  rw [walk_inert inert] at ran
  cases ran
  exact ⟨good, Grows.refl _, .inl rfl, fun _ => inert, resolved scope before⟩

/-- A node that visits leave alone, with what comes of rebuilding it. -/
theorem walks_of_rebuild {id : NodeId} {node : Node Expr} (fit : Fit resolver terms (.mk id node))
    (each : ∀ child ∈ node.children, Walks call terms resolver child)
    (inert : node.isInert) (good : Good call terms before)
    (resolved : ∀ results rebuilt id', node.withChildren? results = some rebuilt →
      node.children.length = results.length →
      (∀ pair ∈ node.children.zip results,
        Resolved resolver (Leaf call terms after) scope pair.1 pair.2) →
      Resolved resolver (Leaf call terms after) scope (.mk id node) (.mk id' rebuilt))
    (whole : node.withChildren? node.children = some node)
    (ran : Expr.rebuild fresh id (node.map fun child => (child, resolver.walk call child)) scope
      before = .ok result after) :
    Good call terms after ∧ Grows before after ∧
      Part call terms resolver scope after (.mk id node) result := by
  have below (child : Expr) (found : child ∈ node.children) : child.id < terms.base :=
    (fit.child found).here.1
  obtain ⟨results, goodAfter, grows, count, parts, outcome⟩ := rebuild_walked each below good ran
  refine ⟨goodAfter, grows, ?_⟩
  obtain ⟨rfl, inerts, rfl⟩ | ⟨id', rebuilt, new, made, rfl⟩ := outcome
  · refine ⟨.inl rfl, fun _ => Expr.everywhere_mk.mpr ⟨inert, inerts⟩, ?_⟩
    exact resolved _ node id whole rfl fun pair found => (parts pair found).resolved
  · exact .new new fit.here.1
      (resolved results rebuilt id' made count fun pair found => (parts pair found).resolved)

/-- The body of a lambda is walked under its parameters. -/
theorem lambda_walked {id : NodeId} {parameters : List String} {body : Expr}
    (fit : Fit resolver terms (.mk id (.lambda parameters body)))
    (walks : Walks call terms resolver body) :
    Walks call terms resolver (.mk id (.lambda parameters body)) := by
  intro scope before after result good ran
  rw [walk_mk] at ran
  obtain ⟨visited, between, visiting, rest⟩ := ok_of_bind ran
  simp only [visit, Node.map] at visiting
  obtain ⟨walked, within, walking, made⟩ := ok_of_bind visiting
  have fitBody : Fit resolver terms body := fit.child (by simp [Node.children])
  obtain ⟨goodWithin, grows, part⟩ :=
    walks (scope ++ parameters) before within walked good walking
  by_cases same : walked.id = body.id
  · -- Nothing was found in the body, so the second walk, outside the lambda, finds nothing.
    obtain rfl := part.eq_of_id fitBody.here.1 same
    rw [if_pos (by simp)] at made
    cases made
    have inertBody := part.inert rfl
    have again := visited_same rest
    have kept : ∀ child ∈ (Node.lambda parameters walked).children,
        resolver.walk call child scope between = .ok child between := by
      simpa [Node.children] using walk_inert inertBody scope between
    rw [Expr.rebuild_map, bind_of_ok (walkAll_inert kept), if_pos (by simp)] at again
    cases again
    refine ⟨goodWithin, grows, .inl rfl, fun _ => ?_, .lambda part.resolved⟩
    refine Expr.everywhere_mk.mpr ⟨rfl, fun child found => ?_⟩
    rw [List.mem_singleton.mp found]
    exact inertBody
  · rw [if_neg (by simpa using same)] at made
    cases made
    obtain ⟨rfl, rfl⟩ := visited_new goodWithin.next fit.here.1 rest
    have later := part.grows (Grows.fresh within)
    exact ⟨goodWithin.fresh, grows.trans (Grows.fresh within),
      .new goodWithin.next fit.here.1 (.lambda later.resolved)⟩

/-- A walk replaces what it has to and keeps the rest. -/
theorem walk_walked (reads : ReadsSettled call terms)
    (root : terms.good { root := resolver.defaultRoot }) (expr : Expr)
    (fit : Fit resolver terms expr) : Walks call terms resolver expr := by
  induction expr using Expr.induct with
  | constant id value =>
      exact walks_of_inert (Expr.everywhere_mk.mpr ⟨rfl, nofun⟩) fun _ _ => .constant value
  | parameter id name =>
      exact walks_of_inert (Expr.everywhere_mk.mpr ⟨rfl, nofun⟩) fun _ _ => .parameter name
  | placeholder id reference =>
      exact walks_of_inert (Expr.everywhere_mk.mpr ⟨rfl, nofun⟩) fun _ _ => .placeholder reference
  | name id name =>
      intro scope before after result good ran
      rw [walk_mk] at ran
      obtain ⟨visited, between, visiting, rest⟩ := ok_of_bind ran
      simp only [visit, Node.map, Option.map_none] at visiting
      obtain ⟨here, _, read, visited⟩ := ok_of_bind visiting
      cases read
      by_cases declared : scope.contains name
      · rw [if_pos declared] at visited
        cases visited
        obtain ⟨rfl, rfl⟩ := visited_new good.next fit.here.1 rest
        exact ⟨good.fresh, Grows.fresh before, .new good.next fit.here.1 (.bound declared)⟩
      · rw [if_neg declared] at visited
        obtain ⟨replaced, _, replacing, made⟩ := ok_of_bind visited
        cases made
        obtain ⟨chain, node, flat, rfl, made⟩ | ⟨unchained, -, -⟩ := replaceChain_cases replacing
        · exact chain_walked reads good fit flat made rest
        · rw [flatten, if_neg declared] at unchained
          cases unchained
  | member id target name targetIH =>
      intro scope before after result good ran
      rw [walk_mk] at ran
      obtain ⟨visited, between, visiting, rest⟩ := ok_of_bind ran
      simp only [visit, Node.map, Option.map_some] at visiting
      obtain ⟨replaced, _, replacing, made⟩ := ok_of_bind visiting
      cases made
      obtain ⟨chain, node, flat, rfl, made⟩ | ⟨unchained, rfl, rfl⟩ := replaceChain_cases replacing
      · exact chain_walked reads good fit flat made rest
      · refine walks_of_rebuild fit ?_ rfl good ?_ rfl (visited_same rest)
        · simpa [Node.children] using targetIH (fit.child (by simp [Node.children]))
        · intro results rebuilt id' made count parts
          obtain ⟨owner, rfl⟩ := List.length_eq_one_iff.mp count.symm
          cases made
          exact .member name unchained (parts (target, owner) (List.mem_cons_self ..))
  | unary id op operand operandIH =>
      intro scope before after result good ran
      rw [walk_mk] at ran
      obtain ⟨visited, between, visiting, rest⟩ := ok_of_bind ran
      by_cases namesRoot : op.namesRoot
      · simp only [visit, Node.map, namesRoot, if_true] at visiting
        obtain ⟨replaced, _, replacing, made⟩ := ok_of_bind visiting
        cases made
        obtain ⟨chain, node, flat, rfl, made⟩ | ⟨unchained, -, -⟩ := replaceChain_cases replacing
        · exact chain_walked reads good fit flat made rest
        · exact absurd unchained (flatten_root_ne_none namesRoot operand)
      · simp only [visit, Node.map, namesRoot, Bool.false_eq_true, if_false] at visiting
        cases visiting
        refine walks_of_rebuild fit ?_ (by simpa [Node.isInert] using namesRoot) good ?_ rfl
          (visited_same rest)
        · simpa [Node.children] using operandIH (fit.child (by simp [Node.children]))
        · intro results rebuilt id' made count parts
          obtain ⟨inner, rfl⟩ := List.length_eq_one_iff.mp count.symm
          cases made
          exact .unary namesRoot (parts (operand, inner) (List.mem_cons_self ..))
  | binary id op left right leftIH rightIH =>
      intro scope before after result good ran
      rw [walk_mk] at ran
      obtain ⟨visited, between, visiting, rest⟩ := ok_of_bind ran
      cases visiting
      refine walks_of_rebuild fit ?_ rfl good ?_ rfl (visited_same rest)
      · simpa [Node.children] using And.intro (leftIH (fit.child (by simp [Node.children])))
          (rightIH (fit.child (by simp [Node.children])))
      · intro results rebuilt id' made count parts
        obtain _ | ⟨first, _ | ⟨second, _ | ⟨third, rest⟩⟩⟩ := results <;> cases count
        cases made
        exact .binary op (parts (left, first) (by simp [Node.children]))
          (parts (right, second) (by simp [Node.children]))
  | condition id test whenTrue whenFalse testIH trueIH falseIH =>
      intro scope before after result good ran
      rw [walk_mk] at ran
      obtain ⟨visited, between, visiting, rest⟩ := ok_of_bind ran
      cases visiting
      refine walks_of_rebuild fit ?_ rfl good ?_ rfl (visited_same rest)
      · simpa [Node.children] using And.intro (testIH (fit.child (by simp [Node.children])))
          (And.intro (trueIH (fit.child (by simp [Node.children])))
            (falseIH (fit.child (by simp [Node.children]))))
      · intro results rebuilt id' made count parts
        obtain _ | ⟨first, _ | ⟨second, _ | ⟨third, _ | ⟨fourth, rest⟩⟩⟩⟩ := results <;>
          cases count
        cases made
        exact .condition (parts (test, first) (by simp [Node.children]))
          (parts (whenTrue, second) (by simp [Node.children]))
          (parts (whenFalse, third) (by simp [Node.children]))
  | lambda id parameters body bodyIH =>
      exact lambda_walked fit (bodyIH (fit.child (by simp [Node.children])))
  | index id target arguments targetIH argumentsIH =>
      intro scope before after result good ran
      rw [walk_mk] at ran
      obtain ⟨visited, between, visiting, rest⟩ := ok_of_bind ran
      simp only [visit, Node.map, Option.map_map, List.map_map, Function.comp_def, Option.map_id',
        List.map_id'] at visiting
      obtain ⟨replaced, replacement, replacing, made⟩ := ok_of_bind visiting
      obtain ⟨chain, node, flat, rfl, made'⟩ | ⟨unchained, rfl, rfl⟩ := replaceChain_cases replacing
      · cases made
        exact chain_walked reads good fit flat made' rest
      · have fitOwner : ∀ owner ∈ target, Fit resolver terms owner := fun owner found =>
          fit.child (by simp [Node.children, Option.mem_def.mp found])
        obtain ⟨goodAfter, grows, new, receiver, values, id', rfl, rooted, owned, count, parts⟩ :=
          received_walked reads root fitOwner
            (fun owner found => targetIH owner found (fitOwner owner found))
            (fun argument found => argumentsIH argument found
              (fit.child (by simp [Node.children, found]))) good made
        obtain ⟨rfl, rfl⟩ := visited_new new fit.here.1 rest
        exact ⟨goodAfter, grows, .new new fit.here.1 (.index unchained rooted owned count parts)⟩
  | call id target method arguments targetIH argumentsIH =>
      intro scope before after result good ran
      rw [walk_mk] at ran
      obtain ⟨visited, between, visiting, rest⟩ := ok_of_bind ran
      simp only [visit, Node.map] at visiting
      have fitOwner : ∀ owner ∈ target, Fit resolver terms owner := fun owner found =>
        fit.child (by simp [Node.children, Option.mem_def.mp found])
      obtain ⟨goodAfter, grows, new, receiver, values, id', rfl, rooted, owned, count, parts⟩ :=
        received_walked reads root fitOwner
          (fun owner found => targetIH owner found (fitOwner owner found))
          (fun argument found => argumentsIH argument found
            (fit.child (by simp [Node.children, found]))) good visiting
      obtain ⟨rfl, rfl⟩ := visited_new new fit.here.1 rest
      exact ⟨goodAfter, grows, .new new fit.here.1 (.call method rooted owned count parts)⟩

theorem resolve_eq_ok {world : World κ} {next : NodeId}
    (ended : (resolver.resolve call expr world next).1 = .ok result) :
    ∃ after, resolver.walk call expr [] { world, next } = .ok result after ∧
      (resolver.resolve call expr world next).2.2 = after.next := by
  simp only [resolve, ReaderT.run, EStateM.run] at ended ⊢
  cases ran : resolver.walk call expr [] { world, next } with
  | ok resolved after =>
      rw [ran] at ended
      cases ended
      exact ⟨after, rfl, rfl⟩
  | error error after =>
      rw [ran] at ended
      cases ended

theorem Good.start {world : World κ}
    (settled : terms.settled world) : Good call terms { world, next := terms.base } where
  next := Nat.le_refl _
  world := settled
  members _ _ known := by cases known
  distinct _ _ _ _ known := by cases known
  statics _ _ known := by cases known
  folded _ _ _ _ known := by cases known

/-- What a resolution makes of a tree. -/
theorem resolve_resolved (reads : ReadsSettled call terms)
    (root : terms.good { root := resolver.defaultRoot }) (fit : Fit resolver terms expr)
    {world : World κ} (settled : terms.settled world)
    (ended : (resolver.resolve call expr world terms.base).1 = .ok result) :
    ∃ after, Good call terms after ∧
      Resolved resolver (Leaf call terms after) [] expr result := by
  obtain ⟨after, ran, -⟩ := resolve_eq_ok ended
  obtain ⟨good, -, part⟩ :=
    walk_walked reads root expr fit [] _ after result (Good.start settled) ran
  exact ⟨after, good, part.resolved⟩

end Walk

end Resolver

end Tether

import Tether.Proofs.TwinResolutions

set_option autoImplicit false

/- The body of a lambda in which nothing was found is walked once more, with the lambda's parameters
out of scope. That does nothing: a tree comes back from a walk as the same object only if it has no
name, index, call or root in it, and then the parameters in scope make no difference. The state may
be any that a resolution can be in, and may remember nodes of the tree itself. -/
namespace Tether

/-- Nodes that a resolution puts in the place of chains. -/
def Node.standsIn {α : Type} : Node α → Bool
  | .constant _ | .placeholder _ => true
  | _ => false

theorem Expr.inert_of_standsIn {expr : Expr} (standsIn : expr.node.standsIn) : expr.Inert := by
  obtain ⟨id, node⟩ := expr
  cases node with
  | constant | placeholder => exact Expr.everywhere_mk.mpr ⟨rfl, nofun⟩
  | _ => cases standsIn

namespace Resolver

variable {κ α β : Type} {call : Caller κ} {resolver : Resolver} {fits : Expr → Prop}

/-- All that a resolution remembers fits, and so does whatever it will make. -/
structure Remembers (fits : Expr → Prop) (progress : Progress κ) : Prop where
  new (id : NodeId) (unused : progress.next ≤ id) (node : Node Expr) : fits (.mk id node)
  members (key : PlaceholderKey) (node : Expr) (known : progress.members.get? key = some node) :
    fits node
  statics (key : StaticKind × String) (node : Expr)
    (known : progress.statics.get? key = some node) : fits node

/-- A step after which all that is remembered fits as before, with results as `post` says. -/
def Upholds (fits : Expr → Prop) (post : α → Prop) (step : Resolve κ α) : Prop :=
  ∀ scope before value after, Remembers fits before → step scope before = .ok value after →
    post value ∧ Remembers fits after

section Upholds

variable {post : α → Prop} {post' : β → Prop}

theorem Upholds.pure {value : α} (holds : post value) :
    Upholds fits post (Pure.pure value : Resolve κ α) := by
  intro scope before result after remembers ran
  cases ran
  exact ⟨holds, remembers⟩

theorem Upholds.bind {first : Resolve κ α} {next : α → Resolve κ β}
    (start : Upholds fits post first)
    (rest : ∀ value, post value → Upholds fits post' (next value)) :
    Upholds fits post' (first >>= next) := by
  intro scope before value after remembers ran
  obtain ⟨middle, between, started, ran⟩ := ok_of_bind ran
  obtain ⟨holds, remembersBetween⟩ := start scope before middle between remembers started
  exact rest middle holds scope between value after remembersBetween ran

theorem Upholds.mono {first : Resolve κ α} {weaker : α → Prop} (upholds : Upholds fits post first)
    (weakens : ∀ value, post value → weaker value) : Upholds fits weaker first := by
  intro scope before value after remembers ran
  obtain ⟨holds, remembersAfter⟩ := upholds scope before value after remembers ran
  exact ⟨weakens value holds, remembersAfter⟩

theorem Upholds.withReader {first : Resolve κ α} (upholds : Upholds fits post first)
    (change : List String → List String) :
    Upholds fits post (MonadWithReader.withReader change first) :=
  fun scope before value after remembers ran =>
    upholds (change scope) before value after remembers ran

theorem upholds_read : Upholds fits (fun _ => True) (read : Resolve κ (List String)) := by
  intro scope before value after remembers ran
  cases ran
  exact ⟨trivial, remembers⟩

theorem upholds_lift (result : Except ResolveError α) :
    Upholds fits (fun value => result = .ok value) (liftM result : Resolve κ α) := by
  intro scope before value after remembers ran
  obtain ⟨given, rfl⟩ := lift_eq_ok ran
  exact ⟨given, remembers⟩

theorem Upholds.mapM {items : List Expr} {walk : Expr → Resolve κ α} {related : Expr → α → Prop}
    (each : ∀ item ∈ items, Upholds fits (related item) (walk item)) :
    Upholds fits (List.Forall₂ related items) (items.mapM walk) := by
  induction items with
  | nil => exact .pure .nil
  | cons item items ih =>
      rw [List.forall_mem_cons] at each
      rw [List.mapM_cons]
      refine each.1.bind fun value holds => ?_
      exact (ih each.2).bind fun values others => .pure (.cons holds others)

end Upholds

section Steps

theorem upholds_newNode (node : Node Expr) :
    Upholds fits fits (newNode node : Resolve κ Expr) := by
  intro scope before made after remembers ran
  cases ran
  exact ⟨remembers.new _ (Nat.le_refl _) node,
    fun id unused => remembers.new id (Nat.le_of_succ_le unused), remembers.members,
    remembers.statics⟩

theorem upholds_placeholder (path : String) (root : Root) (kind : Kind) (method : Option String) :
    Upholds fits fits (resolver.placeholder path root kind method : Resolve κ Expr) := by
  intro scope before made after remembers ran
  rw [placeholder_eq] at ran
  cases found : before.members.get? (resolver.reference path root kind method).key with
  | some known =>
      rw [found] at ran
      cases ran
      exact ⟨remembers.members _ _ found, remembers⟩
  | none =>
      rw [found] at ran
      cases ran
      have new := remembers.new _ (Nat.le_refl _)
      exact ⟨new _, fun id unused => remembers.new id (Nat.le_of_succ_le unused),
        Table.forall_get?_insert (new _) remembers.members, remembers.statics⟩

theorem upholds_staticValue (expression : String) (key : StaticKind × String) (start : Value)
    (path : Path) : Upholds fits fits (staticValue call expression key start path) := by
  intro scope before made after remembers ran
  rw [staticValue] at ran
  obtain ⟨progress, between, got, ran⟩ := ok_of_bind ran
  cases got
  cases found : before.statics.get? key with
  | some known =>
      rw [found] at ran
      cases ran
      exact ⟨remembers.statics _ _ found, remembers⟩
  | none =>
      rw [found] at ran
      obtain ⟨value, between, reading, ran⟩ := ok_of_bind ran
      obtain ⟨world, -, rfl⟩ := readPath_eq_ok reading
      cases ran
      have new := remembers.new _ (Nat.le_refl _)
      exact ⟨new _, fun id unused => remembers.new id (Nat.le_of_succ_le unused),
        remembers.members, Table.forall_get?_insert (new _) remembers.statics⟩

theorem upholds_materialize (chain : Chain) (kind : Kind) (method : Option String) :
    Upholds fits fits (resolver.materialize call chain kind method) := by
  obtain ⟨root, isStatic, path⟩ := chain
  cases isStatic with
  | true =>
      cases root with
      | target | source => exact fun _ _ _ _ _ ran => by cases ran
      | static name tag statics => exact upholds_staticValue _ _ statics path
      | resource name value => exact upholds_staticValue _ _ value path
  | false =>
      cases root with
      | target | source | resource => exact upholds_placeholder _ _ kind method
      | static name tag statics =>
          cases path with
          | nil => exact upholds_newNode _
          | cons segment path => exact upholds_placeholder _ _ kind method

/-- A chain is replaced by a node that fits. -/
theorem replaceChain_fits {expr : Expr} {scope : List String} {before after : Progress κ}
    {replaced : Option Expr} (remembers : Remembers fits before)
    (ran : resolver.replaceChain call expr scope before = .ok replaced after) :
    (resolver.flatten scope expr = .ok none ∧ replaced = none ∨
      ∃ made, replaced = some made ∧ fits made) ∧ Remembers fits after := by
  obtain ⟨here, between, read, ran⟩ := ok_of_bind ran
  cases read
  obtain ⟨found, between, flattening, ran⟩ := ok_of_bind ran
  obtain ⟨flat, rfl⟩ := lift_eq_ok flattening
  cases found with
  | none =>
      cases ran
      exact ⟨.inl ⟨flat, rfl⟩, remembers⟩
  | some chain =>
      simp only [map_eq_pure_bind] at ran
      obtain ⟨made, between, materialized, ran⟩ := ok_of_bind ran
      cases ran
      obtain ⟨fit, remembersAfter⟩ :=
        upholds_materialize chain _ none _ _ made _ remembers materialized
      exact ⟨.inr ⟨made, rfl, fit⟩, remembersAfter⟩

end Steps

section Walk

variable {walk : Expr → Resolve κ Expr} {id : NodeId} {node : Node Expr} {expr result : Expr}

/-- Nothing that fits has the identity of the tree, unless it is the tree and stands for a chain
already. -/
def SetApart (fits : Expr → Prop) (expr : Expr) : Prop :=
  ∀ made, fits made → made.id = expr.id → made = expr ∧ expr.node.standsIn

/-- What a walk gives for a tree: the tree itself if there is nothing to resolve in it, or else
something that fits. -/
def Returns (fits : Expr → Prop) (expr result : Expr) : Prop :=
  result = expr ∧ expr.Inert ∨ fits result

theorem Returns.eq_of_id (returns : Returns fits expr result) (apart : SetApart fits expr)
    (same : result.id = expr.id) : result = expr ∧ expr.Inert := by
  rcases returns with unchanged | fit
  · exact unchanged
  · obtain ⟨rfl, standsIn⟩ := apart result fit same
    exact ⟨rfl, Expr.inert_of_standsIn standsIn⟩

theorem inert_of_returned {exprs results : List Expr}
    (returned : List.Forall₂ (Returns fits) exprs results)
    (apart : ∀ expr ∈ exprs, SetApart fits expr)
    (same : results.map Expr.id = exprs.map Expr.id) : ∀ expr ∈ exprs, expr.Inert := by
  induction returned with
  | nil => exact nofun
  | cons first rest ih =>
      rw [List.forall_mem_cons] at apart ⊢
      obtain ⟨here, there⟩ := List.cons.inj same
      exact ⟨(first.eq_of_id apart.1 here).2, ih apart.2 there⟩

/-- What the visit of a node gives: the node itself if it is one to be left alone, or something that
fits. -/
def Answers (fits : Expr → Prop) (id : NodeId) (node : Node Expr) (visited : Expr) : Prop :=
  visited = .mk id node ∧ node.isInert ∨ fits visited ∧ node.standsIn = false

theorem upholds_replaceReceiver {target : Option Expr}
    (owners : ∀ owner ∈ target, Upholds fits (Returns fits owner) (walk owner)) (kind : Kind)
    (method : Option String) :
    Upholds fits (fun _ => True) (resolver.replaceReceiver call
      (target.map fun owner => (owner, walk owner)) kind method) := by
  cases target with
  | none => exact (upholds_placeholder "" _ kind method).mono fun _ _ => trivial
  | some owner =>
      refine upholds_read.bind fun scope _ => (upholds_lift _).bind fun found _ => ?_
      cases found with
      | none => exact (owners owner rfl).mono fun _ _ => trivial
      | some chain => exact (upholds_materialize chain kind method).mono fun _ _ => trivial

/-- A node made anew over a receiver and walked arguments fits. -/
theorem upholds_receiver_new {target : Option Expr} {arguments : List Expr}
    (each : ∀ child ∈ target.toList ++ arguments, Upholds fits (Returns fits child) (walk child))
    (kind : Kind) (method : Option String) (make : Expr → List Expr → Node Expr) :
    Upholds fits fits (do
      let receiver ← resolver.replaceReceiver call (target.map fun owner => (owner, walk owner))
        kind method
      let values ← arguments.mapM walk
      newNode (make receiver values)) := by
  have owners (owner : Expr) (found : owner ∈ target) : Upholds fits (Returns fits owner)
      (walk owner) := each owner (List.mem_append_left _ (Option.mem_toList.mpr found))
  refine (upholds_replaceReceiver owners kind method).bind fun receiver _ => ?_
  refine (Upholds.mapM fun argument found => each argument
    (List.mem_append_right _ found)).bind fun values _ => ?_
  exact upholds_newNode _

/-- A node that may be a chain and is left alone otherwise. -/
theorem answers_chain {scope : List String} {before after : Progress κ} {visited : Expr}
    (remembers : Remembers fits before) (chain : node.standsIn = false)
    (alone : resolver.flatten scope (.mk id node) = .ok none → node.isInert)
    (ran : (do return (← resolver.replaceChain call (.mk id node)).getD (.mk id node)) scope
      before = .ok visited after) : Answers fits id node visited ∧ Remembers fits after := by
  obtain ⟨replaced, between, replacing, ran⟩ := ok_of_bind ran
  obtain ⟨⟨flat, rfl⟩ | ⟨made, rfl, fit⟩, remembersAfter⟩ := replaceChain_fits remembers replacing
  · cases ran
    exact ⟨.inl ⟨rfl, alone flat⟩, remembersAfter⟩
  · cases ran
    exact ⟨.inr ⟨fit, chain⟩, remembersAfter⟩

theorem upholds_visit (id : NodeId)
    (each : ∀ child ∈ node.children, Upholds fits (Returns fits child) (walk child)) :
    Upholds fits (Answers fits id node)
      (resolver.visit call id (node.map fun child => (child, walk child))) := by
  cases node with
  | constant | parameter | placeholder | binary | condition => exact .pure (.inl ⟨rfl, rfl⟩)
  | member target name =>
      intro scope before visited after remembers ran
      cases target with
      | none =>
          obtain ⟨here, between, read, ran⟩ := ok_of_bind ran
          cases read
          split at ran
          · obtain ⟨fit, remembersAfter⟩ :=
              upholds_newNode _ scope before visited after remembers ran
            exact ⟨.inr ⟨fit, rfl⟩, remembersAfter⟩
          · rename_i free
            refine answers_chain remembers rfl (fun flat => ?_) ran
            rw [flatten, if_neg free] at flat
            cases flat
      | some target => exact answers_chain remembers rfl (fun _ => rfl) ran
  | unary op operand =>
      by_cases namesRoot : op.namesRoot
      · intro scope before visited after remembers ran
        simp only [visit, Node.map, namesRoot, if_true] at ran
        refine answers_chain remembers rfl (fun flat => ?_) ran
        exact absurd flat (flatten_root_ne_none namesRoot operand)
      · simp only [visit, Node.map, namesRoot, Bool.false_eq_true, if_false]
        exact .pure (.inl ⟨rfl, by simpa [Node.isInert] using namesRoot⟩)
  | lambda parameters body =>
      refine ((each body (List.mem_singleton_self _)).withReader _).bind fun walked _ => ?_
      split
      · exact .pure (.inl ⟨rfl, rfl⟩)
      · exact (upholds_newNode _).mono fun _ fit => .inr ⟨fit, rfl⟩
  | index target arguments =>
      intro scope before visited after remembers ran
      simp only [visit, Node.map, Option.map_map, List.map_map, Function.comp_def, Option.map_id',
        List.map_id'] at ran
      obtain ⟨replaced, between, replacing, ran⟩ := ok_of_bind ran
      obtain ⟨⟨-, rfl⟩ | ⟨made, rfl, fit⟩, remembersBetween⟩ :=
        replaceChain_fits remembers replacing
      · simp only [List.mapM_map] at ran
        obtain ⟨fit, remembersAfter⟩ := upholds_receiver_new each .index none
          (fun receiver values => .index (some receiver) values) scope between visited after
          remembersBetween ran
        exact ⟨.inr ⟨fit, rfl⟩, remembersAfter⟩
      · cases ran
        exact ⟨.inr ⟨fit, rfl⟩, remembersBetween⟩
  | call target method arguments =>
      simp only [visit, Node.map, List.mapM_map]
      refine (upholds_receiver_new each .call _ fun receiver values =>
        .call (some receiver) method values).mono fun _ fit => .inr ⟨fit, rfl⟩

theorem upholds_rebuild (id : NodeId) (inert : node.isInert)
    (apart : ∀ child ∈ node.children, SetApart fits child)
    (each : ∀ child ∈ node.children, Upholds fits (Returns fits child) (walk child)) :
    Upholds fits (Returns fits (.mk id node))
      (Expr.rebuild fresh id (node.map fun child => (child, walk child))) := by
  rw [Expr.rebuild_map]
  refine (Upholds.mapM each).bind fun results returned => ?_
  split
  · rename_i same
    refine .pure (.inl ⟨rfl, Expr.everywhere_mk.mpr ⟨inert, ?_⟩⟩)
    exact inert_of_returned returned apart (eq_of_beq same)
  · rename_i changed
    split
    · exact (upholds_newNode _).mono fun _ fit => .inr fit
    · rename_i leaf
      -- A node without children has nothing to change.
      rw [Node.withChildren?_none leaf] at returned changed
      cases returned
      exact absurd rfl changed

/-- A walk gives back what has nothing to resolve in it, and something that fits for everything
else. -/
theorem walk_returns (apart : expr.Everywhere (SetApart fits)) :
    Upholds fits (Returns fits expr) (resolver.walk call expr) := by
  induction expr using Expr.children_induct with
  | step id node ih =>
      have each (child : Expr) (found : child ∈ node.children) :
          Upholds fits (Returns fits child) (resolver.walk call child) :=
        ih child found (apart.child found)
      rw [walk_mk]
      refine (upholds_visit id each).bind fun visited answers => ?_
      rcases answers with ⟨rfl, inert⟩ | ⟨fit, chain⟩
      · rw [if_neg (by simp [Expr.id])]
        exact upholds_rebuild id inert (fun child found => (apart.child found).here) each
      · have other : visited.id ≠ id := by
          intro same
          obtain ⟨-, standsIn⟩ := apart.here visited fit same
          rw [Expr.node, chain] at standsIn
          cases standsIn
        rw [if_pos (by simpa using other)]
        exact .pure (.inr fit)

end Walk

/-- Nodes that are no part of the tree, unless they stand for a chain in it already. A resolution
remembers constants and placeholders only, each under an identity of its own, so that these, and all
that it has yet to make, are foreign to any tree there is. -/
def Foreign (whole node : Expr) : Prop :=
  ∀ part ∈ whole.preorder, node.id = part.id → node = part ∧ part.node.standsIn

/-- The second walk does nothing. Let a walk give back a tree as the same object, in a state whose
nodes, made or still to be made, are foreign to the tree. Then every further walk of it gives it
back and leaves the state and the scope as they were, whatever the settings, the host, the
parameters in scope and the state; and so does a walk of a lambda that has the tree as its body. -/
theorem walk_unchanged {body result : Expr} {scope : List String} {before after : Progress κ}
    (foreign : Remembers (Foreign body) before)
    (walked : resolver.walk call body scope before = .ok result after)
    (same : result.id = body.id) :
    result = body ∧ after = before ∧
      ∀ (again : Resolver) (host : Caller κ) (inScope : List String) (now : Progress κ),
        (do return (← again.walk host body, ← read)) inScope now = .ok (body, inScope) now ∧
        ∀ id parameters, again.walk host (.mk id (.lambda parameters body)) inScope now =
          .ok (.mk id (.lambda parameters body)) now := by
  have apart : body.Everywhere (SetApart (Foreign body)) :=
    fun part inside made fit => fit part inside
  obtain ⟨returns, -⟩ := walk_returns apart scope before result after foreign walked
  obtain ⟨rfl, inert⟩ := returns.eq_of_id apart.here same
  have unmoved := walked.symm.trans (walk_inert inert scope before)
  refine ⟨rfl, (EStateM.Result.ok.inj unmoved).2, fun again host inScope now => ⟨?_, ?_⟩⟩
  · rw [bind_of_ok (walk_inert inert inScope now)]
    rfl
  · intro id parameters
    have whole : (Expr.mk id (.lambda parameters result)).Inert :=
      Expr.everywhere_mk.mpr ⟨rfl, fun child found => List.mem_singleton.mp found ▸ inert⟩
    exact walk_inert whole inScope now

/-- The sum of `row.Price`, with `row` a parameter, and a placeholder that the state remembers. -/
theorem walk_unchanged_row :
    let reference : Placeholder := ⟨"Total", .source, { observable := true }, .member, none⟩
    let total : Expr := .mk 4 (.placeholder reference)
    let price : Expr := .mk 2 (.member (some (.mk 3 (.parameter "row"))) "Price")
    let body : Expr := .mk 1 (.binary .add price total)
    let state : Progress Closure :=
      { world := {}, next := 5
        members := ({} : Table PlaceholderKey Expr).insert reference.key total }
    let resolver : Resolver := {}
    Remembers (Foreign body) state ∧
      resolver.walk callFunction body ["row"] state = .ok body state ∧
      resolver.walk callFunction (.mk 0 (.lambda ["row"] body)) [] state =
        .ok (.mk 0 (.lambda ["row"] body)) state := by
  intro reference total price body state resolver
  have foreign (node : Expr) (later : 4 ≤ node.id) (isTotal : node.id = 4 → node = total) :
      Foreign body node := by
    intro part inside same
    have listed : body.preorder = [body, price, .mk 3 (.parameter "row"), total] := rfl
    rw [listed] at inside
    simp only [List.mem_cons, List.not_mem_nil, or_false] at inside
    rcases inside with rfl | rfl | rfl | rfl
    · exact absurd (same ▸ later) (by decide)
    · exact absurd (same ▸ later) (by decide)
    · exact absurd (same ▸ later) (by decide)
    · exact ⟨isTotal same, rfl⟩
  have remembers : Remembers (Foreign body) state := by
    refine ⟨fun id unused node => foreign _ ?_ ?_, fun key node => ?_, nofun⟩
    · exact Nat.le_of_succ_le unused
    · exact fun same => absurd same (Nat.ne_of_gt unused)
    · have known : Foreign body total := foreign total (Nat.le_refl 4) fun _ => rfl
      have empty (other : PlaceholderKey) (found : Expr)
          (listed : ({} : Table PlaceholderKey Expr).get? other = some found) :
          Foreign body found := by cases listed
      exact Table.forall_get?_insert (P := fun _ => Foreign body) known empty key node
  have walked : resolver.walk callFunction body ["row"] state = .ok body state := rfl
  obtain ⟨-, -, again⟩ := walk_unchanged remembers walked rfl
  exact ⟨remembers, walked, (again resolver callFunction [] state).2 0 ["row"]⟩

end Resolver

end Tether

import Tether.Proofs.ExplicitRoots
import Tether.Proofs.Places

set_option autoImplicit false

/- What a resolution gives has nothing left to resolve in it: no name, index or call without a
target is there, and no root is named. Resolving it once more, with whatever settings, goes through
the same nodes again and finds no chain, so that nothing is asked of the host and no placeholder is
made. -/
namespace Tether

theorem Node.namesRoot_map {α β : Type} (f : α → β) (node : Node α) :
    (node.map f).namesRoot = node.namesRoot := by
  cases node with
  | member target | index target | call target => cases target <;> rfl
  | _ => rfl

/-- A node made anew starts at a root if it did before. -/
theorem Node.namesRoot_withChildren? {α : Type} {node rebuilt : Node α} {children : List α}
    (made : node.withChildren? children = some rebuilt) : rebuilt.namesRoot = node.namesRoot := by
  rw [← namesRoot_map (fun _ => ()) rebuilt, ← namesRoot_map (fun _ => ()) node]
  exact congrArg namesRoot (shape_withChildren? made)

/-- A tree with nothing left to resolve, of nodes that have their identities. -/
def Expr.Settled (next : NodeId) : Expr → Prop :=
  Expr.Everywhere fun part => part.node.namesRoot = false ∧ part.id < next

namespace Expr.Settled

variable {next later : NodeId} {expr : Expr}

theorem rootless (settled : expr.Settled next) : expr.Rootless :=
  fun part found => (settled part found).1

theorem old (settled : expr.Settled next) : expr.Everywhere fun part => part.id < next :=
  fun part found => (settled part found).2

theorem mono (settled : expr.Settled next) (grows : next ≤ later) : expr.Settled later :=
  fun part found => ⟨(settled part found).1, Nat.lt_of_lt_of_le (settled part found).2 grows⟩

theorem constant (next : NodeId) (value : Value) :
    (Expr.mk next (.constant value)).Settled (next + 1) :=
  Expr.everywhere_mk.mpr ⟨⟨rfl, Nat.lt_succ_self _⟩, nofun⟩

theorem placeholder (next : NodeId) (reference : Placeholder) :
    (Expr.mk next (.placeholder reference)).Settled (next + 1) :=
  Expr.everywhere_mk.mpr ⟨⟨rfl, Nat.lt_succ_self _⟩, nofun⟩

end Expr.Settled

namespace Resolver

variable {κ α β : Type} {call : Caller κ} {resolver : Resolver} {scope : List String}
  {base since : NodeId} {before after : Progress κ}

/-- All that a resolution remembers is settled. -/
structure Orderly (base : NodeId) (progress : Progress κ) : Prop extends Tidy base progress where
  member (key : PlaceholderKey) (node : Expr) (known : progress.members.get? key = some node) :
    node.Settled progress.next
  static (key : StaticKind × String) (node : Expr)
    (known : progress.statics.get? key = some node) : node.Settled progress.next

theorem Orderly.start (world : World κ) (base : NodeId) :
    Orderly base { world, next := base } where
  toTidy := .start world base
  member _ _ known := by cases known
  static _ _ known := by cases known

/-- A step that leaves an orderly state orderly, with results as `post` says. What is known of the
nodes below `since` holds on. -/
def Settles (base since : NodeId) (post : NodeId → α → Prop) (step : Resolve κ α) : Prop :=
  ∀ scope before value after, Orderly base before → since ≤ before.next →
    step scope before = .ok value after →
      post after.next value ∧ Orderly base after ∧ before.next ≤ after.next

section Settles

variable {post : NodeId → α → Prop} {post' : NodeId → β → Prop}

theorem Settles.bind {first : Resolve κ α} {next : α → Resolve κ β}
    (start : Settles base since post first)
    (rest : ∀ now value, since ≤ now → post now value → Settles base now post' (next value)) :
    Settles base since post' (first >>= next) := by
  intro scope before value after orderly known ran
  obtain ⟨middle, between, started, ran⟩ := ok_of_bind ran
  obtain ⟨holds, orderlyBetween, grows⟩ := start scope before middle between orderly known started
  obtain ⟨ends, orderlyAfter, growsAgain⟩ :=
    rest between.next middle (Nat.le_trans known grows) holds scope between value after
      orderlyBetween (Nat.le_refl _) ran
  exact ⟨ends, orderlyAfter, Nat.le_trans grows growsAgain⟩

theorem Settles.pure {value : α} (holds : ∀ now, base ≤ now → since ≤ now → post now value) :
    Settles base since post (Pure.pure value : Resolve κ α) := by
  intro scope before result after orderly known ran
  cases ran
  exact ⟨holds _ orderly.next known, orderly, Nat.le_refl _⟩

theorem Settles.and {first : Resolve κ α} {also : α → Prop}
    (settles : Settles base since post first) (ensures : Ensures base also first) :
    Settles base since (fun now value => post now value ∧ also value) first := by
  intro scope before value after orderly known ran
  obtain ⟨holds, rest⟩ := settles scope before value after orderly known ran
  exact ⟨⟨holds, (ensures scope before value after orderly.toTidy ran).1⟩, rest⟩

theorem Settles.withReader {first : Resolve κ α} (settles : Settles base since post first)
    (change : List String → List String) :
    Settles base since post (MonadWithReader.withReader change first) :=
  fun scope before value after orderly known ran =>
    settles (change scope) before value after orderly known ran

theorem settles_newNode {node : Node Expr} (rootless : node.namesRoot = false)
    (below : ∀ child ∈ node.children, child.Settled since) :
    Settles base since (fun now made => made.Settled now) (newNode node : Resolve κ Expr) := by
  intro scope before made after orderly known ran
  have tidy := (ensures_newNode node scope before made after orderly.toTidy ran).2
  cases ran
  have grows : before.next ≤ before.next + 1 := Nat.le_succ _
  refine ⟨Expr.everywhere_mk.mpr ⟨⟨rootless, Nat.lt_succ_self _⟩, fun child found => ?_⟩,
    { toTidy := tidy
      member := fun key node known => (orderly.member key node known).mono grows
      static := fun key node known => (orderly.static key node known).mono grows }, grows⟩
  exact (below child found).mono (Nat.le_trans known grows)

theorem settles_placeholder (path : String) (root : Root) (kind : Kind) (method : Option String) :
    Settles base since (fun now made => made.Settled now)
      (resolver.placeholder path root kind method : Resolve κ Expr) := by
  intro scope before made after orderly known ran
  have tidy := (ensures_placeholder path root kind method scope before made after orderly.toTidy
    ran).2
  rw [placeholder_eq] at ran
  cases found : before.members.get? (resolver.reference path root kind method).key with
  | some known =>
      rw [found] at ran
      cases ran
      exact ⟨orderly.member _ _ found, orderly, Nat.le_refl _⟩
  | none =>
      rw [found] at ran
      cases ran
      have grows : before.next ≤ before.next + 1 := Nat.le_succ _
      have new := Expr.Settled.placeholder before.next (resolver.reference path root kind method)
      exact ⟨new,
        { toTidy := tidy
          member := Table.forall_get?_insert new fun key node known =>
            (orderly.member key node known).mono grows
          static := fun key node known => (orderly.static key node known).mono grows }, grows⟩

theorem settles_staticValue (expression : String) (key : StaticKind × String) (start : Value)
    (path : Path) :
    Settles base since (fun now made => made.Settled now)
      (staticValue call expression key start path) := by
  intro scope before made after orderly known ran
  have tidy := (ensures_staticValue expression key start path scope before made after orderly.toTidy
    ran).2
  rw [staticValue] at ran
  obtain ⟨progress, between, got, ran⟩ := ok_of_bind ran
  cases got
  cases found : before.statics.get? key with
  | some known =>
      rw [found] at ran
      cases ran
      exact ⟨orderly.static _ _ found, orderly, Nat.le_refl _⟩
  | none =>
      rw [found] at ran
      obtain ⟨value, between, reading, ran⟩ := ok_of_bind ran
      obtain ⟨world, -, rfl⟩ := readPath_eq_ok reading
      cases ran
      have grows : before.next ≤ before.next + 1 := Nat.le_succ _
      have new := Expr.Settled.constant before.next value
      exact ⟨new,
        { toTidy := tidy
          member := fun key node known => (orderly.member key node known).mono grows
          static := Table.forall_get?_insert new fun other node known =>
            (orderly.static other node known).mono grows }, grows⟩

theorem settles_materialize (chain : Chain) (kind : Kind) (method : Option String) :
    Settles base since (fun now made => made.Settled now)
      (resolver.materialize call chain kind method) := by
  obtain ⟨root, isStatic, path⟩ := chain
  cases isStatic with
  | true =>
      cases root with
      | target | source => exact fun _ _ _ _ _ _ ran => by cases ran
      | static name tag statics => exact settles_staticValue _ _ statics path
      | resource name value => exact settles_staticValue _ _ value path
  | false =>
      cases root with
      | target | source | resource => exact settles_placeholder _ _ kind method
      | static name tag statics =>
          cases path with
          | nil => exact settles_newNode rfl nofun
          | cons segment path => exact settles_placeholder _ _ kind method

theorem Settles.mapM {items : List Expr} {walk : Expr → Resolve κ Expr}
    {related : Expr → Expr → Prop}
    (each : ∀ item ∈ items, ∀ since, Settles base since
      (fun now result => result.Settled now ∧ related item result) (walk item)) :
    Settles base since (fun now results => (∀ result ∈ results, result.Settled now) ∧
      List.Forall₂ related items results) (items.mapM walk) := by
  induction items generalizing since with
  | nil => exact .pure fun _ _ _ => ⟨nofun, .nil⟩
  | cons item items ih =>
      rw [List.forall_mem_cons] at each
      rw [List.mapM_cons]
      refine (each.1 since).bind fun now result _ first => ?_
      refine (ih each.2).bind fun later results grows rest => .pure fun last _ goesOn => ?_
      refine ⟨List.forall_mem_cons.mpr ⟨first.1.mono (Nat.le_trans grows goesOn), ?_⟩,
        .cons first.2 rest.2⟩
      exact fun other found => (rest.1 other found).mono goesOn

end Settles

section Walk

variable {walk : Expr → Resolve κ Expr} {id : NodeId} {node : Node Expr}

/-- A walk that gives settled trees, as walks do. -/
def WalkSettles (base : NodeId) (walk : Expr → Resolve κ Expr) (expr : Expr) : Prop :=
  ∀ since, Settles base since (fun now result => result.Settled now ∧ Kept base expr result)
    (walk expr)

theorem settles_replaceReceiver {target : Option Expr}
    (owners : ∀ owner ∈ target, WalkSettles base walk owner) (kind : Kind)
    (method : Option String) :
    Settles base since (fun now receiver => receiver.Settled now) (resolver.replaceReceiver call
      (target.map fun owner => (owner, walk owner)) kind method) := by
  cases target with
  | none => exact settles_placeholder "" _ kind method
  | some owner =>
      intro scope before receiver after orderly known ran
      obtain ⟨here, between, read, ran⟩ := ok_of_bind ran
      cases read
      obtain ⟨chain, between, flattening, ran⟩ := ok_of_bind ran
      obtain ⟨-, rfl⟩ := lift_eq_ok flattening
      cases chain with
      | none =>
          obtain ⟨⟨settled, -⟩, rest⟩ :=
            owners owner rfl since scope _ receiver after orderly known ran
          exact ⟨settled, rest⟩
      | some chain =>
          exact settles_materialize chain kind method scope _ receiver after orderly known ran

theorem settles_receive {target : Option Expr} {arguments : List Expr}
    (each : ∀ child ∈ target.toList ++ arguments, WalkSettles base walk child) (kind : Kind)
    (method : Option String) {make : Expr → List Expr → Node Expr}
    (rootless : ∀ receiver values, (make receiver values).namesRoot = false)
    (children : ∀ receiver values, (make receiver values).children = receiver :: values) :
    Settles base since (fun now made => made.Settled now)
      (resolver.receive call walk target kind method arguments make) := by
  have owners (owner : Expr) (found : owner ∈ target) : WalkSettles base walk owner :=
    each owner (List.mem_append_left _ (Option.mem_toList.mpr found))
  refine (settles_replaceReceiver owners kind method).bind fun now receiver _ settled => ?_
  refine (Settles.mapM fun argument found => each argument
    (List.mem_append_right _ found)).bind fun later values grows rest => ?_
  refine settles_newNode (rootless receiver values) ?_
  rw [children]
  exact List.forall_mem_cons.mpr ⟨settled.mono grows, rest.1⟩

theorem settles_remake (rootless : node.namesRoot = false)
    (old : (Expr.mk id node).Everywhere fun part => part.id < base)
    (each : ∀ child ∈ node.children, WalkSettles base walk child) :
    Settles base since (fun now made => made.Settled now) (remake walk id node) := by
  refine ((Settles.mapM each).withReader _).bind fun now results _ walked => ?_
  obtain ⟨settled, kept⟩ := walked
  split
  · rename_i same
    have inert := inert_of_ids kept (fun child found => (old.child found).here) (eq_of_beq same)
    refine .pure fun last goesOn _ => Expr.everywhere_mk.mpr
      ⟨⟨rootless, Nat.lt_of_lt_of_le old.here goesOn⟩, fun child found part inside => ?_⟩
    exact ⟨(inert child found).rootless part inside,
      Nat.lt_of_lt_of_le (old.child found part inside) goesOn⟩
  · rename_i changed
    split
    · rename_i rebuilt isRebuilt
      refine settles_newNode ((Node.namesRoot_withChildren? isRebuilt).trans rootless) ?_
      rw [Node.children_withChildren? isRebuilt kept.length_eq.symm]
      exact settled
    · rename_i leaf
      -- A node without children has nothing to change.
      rw [Node.withChildren?_none leaf] at kept changed
      cases kept
      exact absurd rfl changed

theorem settles_settle (unchained : resolver.flatten scope (.mk id node) = .ok none)
    (old : (Expr.mk id node).Everywhere fun part => part.id < base)
    (each : ∀ child ∈ node.children, WalkSettles base walk child) :
    Settles base since (fun now made => made.Settled now)
      (resolver.settle call walk id node) := by
  cases node with
  | constant | parameter | placeholder | binary | condition | lambda =>
      exact settles_remake rfl old each
  | member target name =>
      cases target with
      | none => exact settles_newNode rfl nofun
      | some target => exact settles_remake rfl old each
  | unary op operand =>
      refine settles_remake ?_ old each
      by_cases namesRoot : op.namesRoot
      · exact absurd unchained (flatten_root_ne_none namesRoot operand)
      · exact Bool.eq_false_iff.mpr namesRoot
  | index target arguments =>
      exact settles_receive each _ _ (fun _ _ => rfl) fun _ _ => rfl
  | call target method arguments =>
      exact settles_receive each _ _ (fun _ _ => rfl) fun _ _ => rfl

/-- What a walk gives is settled. -/
theorem walk_settles {expr : Expr} (old : expr.Everywhere fun part => part.id < base) :
    WalkSettles base (resolver.walk call) expr := by
  induction expr using Expr.children_induct with
  | step id node ih =>
      have each (child : Expr) (found : child ∈ node.children) :
          WalkSettles base (resolver.walk call) child := ih child found (old.child found)
      refine fun since => Settles.and ?_ (walk_keeps old)
      intro scope before value after orderly known ran
      rw [walk_eq_pass old orderly.toTidy] at ran
      cases flat : resolver.flatten scope (.mk id node) with
      | error error =>
          rw [pass_of_error flat] at ran
          cases ran
      | ok found =>
          cases found with
          | none =>
              rw [pass_of_none flat] at ran
              exact settles_settle flat old each scope before value after orderly known ran
          | some chain =>
              rw [pass_of_chain flat] at ran
              exact settles_materialize chain _ none scope before value after orderly known ran

end Walk

section Again

/-- A step that takes identities and does nothing else. It goes the same way whatever the host does,
whatever the parameters in scope and whatever is remembered. -/
structure Blind (base start : NodeId) (step : Caller κ → Resolve κ α) (value : α) (last : NodeId) :
    Prop where
  grows : start ≤ last
  ran (call : Caller κ) (scope : List String) (before : Progress κ) (tidy : Tidy base before)
    (next : before.next = start) : step call scope before = .ok value { before with next := last }

variable {start last later : NodeId}

theorem Tidy.takes (tidy : Tidy base before) (grows : before.next ≤ last) :
    Tidy base { before with next := last } :=
  ⟨Nat.le_trans tidy.next grows, tidy.members, tidy.statics⟩

theorem blind_pure (base start : NodeId) (value : α) :
    Blind base start (fun _ => (pure value : Resolve κ α)) value start where
  grows := Nat.le_refl _
  ran _ _ _ _ next := by subst next; rfl

theorem blind_newNode (base start : NodeId) (node : Node Expr) :
    Blind base start (fun _ => (newNode node : Resolve κ Expr)) (.mk start node) (start + 1) where
  grows := Nat.le_succ _
  ran _ _ _ _ next := by subst next; rfl

theorem Blind.bind {first : Caller κ → Resolve κ α} {next : Caller κ → α → Resolve κ β} {value : α}
    {value' : β} (begins : Blind base start first value last)
    (goesOn : Blind base last (fun call => next call value) value' later) :
    Blind base start (fun call => first call >>= next call) value' later where
  grows := Nat.le_trans begins.grows goesOn.grows
  ran call scope before tidy isStart := by
    rw [bind_of_ok (begins.ran call scope before tidy isStart)]
    exact goesOn.ran call scope _ (tidy.takes (isStart ▸ begins.grows)) rfl

theorem Blind.congr {step step' : Caller κ → Resolve κ α} {value : α}
    (blind : Blind base start step' value last)
    (same : ∀ call scope before, Tidy base before → step call scope before =
      step' call scope before) : Blind base start step value last where
  grows := blind.grows
  ran call scope before tidy next := by
    rw [same call scope before tidy]
    exact blind.ran call scope before tidy next

theorem Blind.withReader {step : Caller κ → Resolve κ α} {value : α}
    (blind : Blind base start step value last) (change : List String → List String) :
    Blind base start (fun call => MonadWithReader.withReader change (step call)) value last where
  grows := blind.grows
  ran call scope := blind.ran call (change scope)

/-- A walk that finds nothing and gives back a tree of the same form. -/
def Repeats (base : NodeId) (walk : Caller κ → Expr → Resolve κ Expr) (expr : Expr) : Prop :=
  ∀ start, ∃ result last, Blind base start (fun call => walk call expr) result last ∧
    result.mask = expr.mask

variable {walk : Caller κ → Expr → Resolve κ Expr} {id : NodeId} {node : Node Expr}

theorem repeats_mapM {exprs : List Expr} (each : ∀ expr ∈ exprs, Repeats base walk expr)
    (start : NodeId) :
    ∃ results last, Blind base start (fun call => exprs.mapM (walk call)) results last ∧
      results.map Expr.mask = exprs.map Expr.mask := by
  induction exprs generalizing start with
  | nil => exact ⟨[], start, blind_pure base start [], rfl⟩
  | cons expr exprs ih =>
      rw [List.forall_mem_cons] at each
      obtain ⟨result, between, walked, mask⟩ := each.1 start
      obtain ⟨results, last, walkedRest, masks⟩ := ih each.2 between
      refine ⟨result :: results, last, ?_, by rw [List.map_cons, List.map_cons, mask, masks]⟩
      simp only [List.mapM_cons]
      exact walked.bind (walkedRest.bind (blind_pure base last _))

/-- A node over children of the same form has the same form. -/
theorem mask_withChildren? {rebuilt : Node Expr} {results : List Expr}
    (made : node.withChildren? results = some rebuilt)
    (masks : results.map Expr.mask = node.children.map Expr.mask) (id id' : NodeId) :
    (Expr.mk id' rebuilt).mask = (Expr.mk id node).mask := by
  have whole := Node.withChildren?_children made
  have same : some (rebuilt.map Expr.mask) = some (node.map Expr.mask) := by
    calc some (rebuilt.map Expr.mask)
      _ = (node.map Expr.mask).withChildren? (results.map Expr.mask) := by
          rw [Node.withChildren?_map, made, Option.map_some]
      _ = (node.map Expr.mask).withChildren? (node.children.map Expr.mask) := by rw [masks]
      _ = some (node.map Expr.mask) := by rw [Node.withChildren?_map, whole, Option.map_some]
  rw [Expr.mask_mk (placeholder?_withChildren? made id'),
    Expr.mask_mk (placeholder?_withChildren? whole id), Option.some.inj same]

theorem repeats_remake (each : ∀ child ∈ node.children, Repeats base walk child)
    (id start : NodeId) :
    ∃ result last, Blind base start (fun call => remake (walk call) id node) result last ∧
      result.mask = (Expr.mk id node).mask := by
  obtain ⟨results, between, walked, masks⟩ := repeats_mapM each start
  have begins := walked.withReader fun scope => node.scopeBelow scope
  by_cases same : results.map Expr.id == node.children.map Expr.id
  · refine ⟨.mk id node, between, begins.bind ?_, rfl⟩
    simp only [if_pos same]
    exact blind_pure base between _
  · cases made : node.withChildren? results with
    | none =>
        refine ⟨.mk id node, between, begins.bind ?_, rfl⟩
        simp only [if_neg same, made]
        exact blind_pure base between _
    | some rebuilt =>
        refine ⟨.mk between rebuilt, between + 1, begins.bind ?_,
          mask_withChildren? made masks id between⟩
        simp only [if_neg same, made]
        exact blind_newNode base between rebuilt

/-- The receiver of an index or a call is walked if it is no chain. -/
theorem replaceReceiver_of_none {owner : Expr} {step : Resolve κ Expr}
    (unchained : resolver.flatten scope owner = .ok none) (kind : Kind) (method : Option String) :
    resolver.replaceReceiver call (some (owner, step)) kind method scope before =
      step scope before := by
  have inScope : (read : Resolve κ (List String)) scope before = .ok scope before := rfl
  rw [replaceReceiver, bind_of_ok inScope, unchained]
  rfl

theorem repeats_receive (resolver : Resolver) {owner : Expr} (arguments : List Expr)
    (rootless : owner.Rootless) (each : ∀ child ∈ owner :: arguments, Repeats base walk child)
    (kind : Kind) (method : Option String) {make : Expr → List Expr → Node Expr}
    (masked : ∀ receiver values id, (Expr.mk id (make receiver values)).mask =
      .mk 0 (make receiver.mask (values.map Expr.mask))) (id start : NodeId) :
    ∃ result last, Blind base start (fun call =>
        resolver.receive call (walk call) (some owner) kind method arguments make) result last ∧
      result.mask = (Expr.mk id (make owner arguments)).mask := by
  rw [List.forall_mem_cons] at each
  obtain ⟨receiver, between, received, mask⟩ := each.1 start
  obtain ⟨values, last, walked, masks⟩ := repeats_mapM each.2 between
  refine ⟨.mk last (make receiver values), last + 1, Blind.bind (received.congr ?_)
    (walked.bind (blind_newNode base last _)), by rw [masked, masked, mask, masks]⟩
  exact fun call scope before _ => replaceReceiver_of_none (flatten_rootless rootless scope) kind
    method

theorem repeats_settle (resolver : Resolver) (rootless : (Expr.mk id node).Rootless)
    (each : ∀ child ∈ node.children, Repeats base walk child) (start : NodeId) :
    ∃ result last, Blind base start (fun call => resolver.settle call (walk call) id node) result
      last ∧ result.mask = (Expr.mk id node).mask := by
  cases node with
  | constant | parameter | placeholder | unary | binary | condition | lambda =>
      exact repeats_remake each id start
  | member target name =>
      cases target with
      | none => cases rootless.here
      | some target => exact repeats_remake each id start
  | index target arguments =>
      cases target with
      | none => cases rootless.here
      | some owner =>
          exact repeats_receive resolver arguments (rootless.child (List.mem_cons_self ..)) each _ _
            (fun _ _ _ => Expr.mask_mk rfl) id start
  | call target method arguments =>
      cases target with
      | none => cases rootless.here
      | some owner =>
          exact repeats_receive resolver arguments (rootless.child (List.mem_cons_self ..)) each _ _
            (fun _ _ _ => Expr.mask_mk rfl) id start

/-- A walk over a settled tree finds nothing. -/
theorem walk_repeats (resolver : Resolver) {expr : Expr} (settled : expr.Settled base) :
    Repeats base (fun call : Caller κ => resolver.walk call) expr := by
  induction expr using Expr.children_induct with
  | step id node ih =>
      intro start
      obtain ⟨result, last, blind, mask⟩ := repeats_settle resolver settled.rootless
        (fun child found => ih child found (settled.child found)) start
      refine ⟨result, last, blind.congr fun call scope before tidy => ?_, mask⟩
      exact (walk_eq_pass settled.old tidy).trans
        (pass_of_none (flatten_rootless settled.rootless scope))

end Again

/-- Resolving is done once. What a resolution gives is resolved again by whatever resolver, with the
same or another default root. No placeholder is made and nothing is evaluated, whatever the host
would do, and the tree that comes back has the form of the first one and its placeholders. -/
theorem resolve_again {expr result : Expr} {world : World κ} {next : NodeId}
    (old : expr.Everywhere fun part => part.id < next)
    (resolved : (resolver.resolve call expr world next).1 = .ok result) (again : Resolver)
    {start : NodeId} (unused : (resolver.resolve call expr world next).2.2 ≤ start) :
    ∃ result' last, result'.mask = result.mask ∧ result'.placeholders = result.placeholders ∧
      ∀ (call : Caller κ) (now : World κ),
        again.walk call result [] { world := now, next := start } =
            .ok result' { world := now, next := last } ∧
          again.resolve call result now start = (.ok result', now, last) := by
  obtain ⟨after, ran, isLast⟩ := resolve_eq_ok resolved
  obtain ⟨⟨settled, -⟩, -⟩ := walk_settles old next [] _ result after (.start world next)
    (Nat.le_refl _) ran
  obtain ⟨result', last, blind, mask⟩ := walk_repeats again (settled.mono (isLast ▸ unused)) start
  refine ⟨result', last, mask, ?_, fun call now => ?_⟩
  · rw [← Expr.placeholders_mask result', mask, Expr.placeholders_mask]
  · have walked := blind.ran call [] { world := now, next := start } (.start now start) rfl
    refine ⟨walked, ?_⟩
    simp only [resolve, ReaderT.run, EStateM.run, walked]

/-- In `Pick(Rows[$$Row])` the item is no part of a path, as `$$Row` is no constant before it is
resolved. Afterwards it is one, but its owner is a placeholder; both placeholders are met again. -/
theorem resolve_again_item :
    let resolver : Resolver := { directory := .ofLists [] [("Row", .int 3)] }
    let expr : Expr := .mk 0 (.call none "Pick" [.mk 1 (.index (some (.mk 2 (.member none "Rows")))
      [.mk 3 (.unary .static (.mk 4 (.member none "Row")))])])
    let item (id : NodeId) : Expr := .mk id (.index
      (some (.mk 6 (.placeholder ⟨"Rows", .source, { observable := true }, .index, none⟩)))
      [.mk 7 (.constant (.int 3))])
    let result : Expr := .mk 9 (.call
      (some (.mk 5 (.placeholder ⟨"", .source, { observable := true }, .call, none⟩))) "Pick"
      [item 8])
    (resolver.resolve callFunction expr {} 5).1 = .ok result ∧
      ∃ result' last, result'.mask = result.mask ∧
        result'.placeholders.map Prod.fst = [5, 6] ∧
        ({ resolver with isTarget := true } : Resolver).resolve callFunction result {} 10 =
          (.ok result', {}, last) := by
  intro resolver expr item result
  have old : expr.Everywhere fun part => part.id < 5 := by
    simp [expr, Expr.everywhere_mk, Node.children, Expr.id]
  have resolved : (resolver.resolve callFunction expr {} 5).1 = .ok result := rfl
  obtain ⟨result', last, mask, placeholders, again⟩ :=
    resolve_again old resolved { resolver with isTarget := true } (Nat.le_refl 10)
  refine ⟨resolved, result', last, mask, ?_, (again callFunction {}).2⟩
  rw [placeholders]
  rfl

end Resolver

end Tether

import Tether.Expr.Traversal

set_option autoImplicit false

/- What holds of all parts of a tree. -/
namespace Tether

namespace Node

variable {α β : Type}

theorem map_fst_pair (f : α → β) (node : Node α) :
    (node.map fun child => (child, f child)).map Prod.fst = node := by
  cases node with
  | member target | index target | call target =>
      cases target <;> simp [Node.map, Function.comp_def]
  | _ => rfl

theorem children_map (f : α → β) (node : Node α) :
    (node.map f).children = node.children.map f := by
  cases node with
  | member target | index target | call target =>
      cases target <;> simp [Node.map, Node.children]
  | _ => rfl

theorem map_congr {f g : α → β} {node : Node α}
    (same : ∀ child ∈ node.children, f child = g child) : node.map f = node.map g := by
  cases node with
  | member target | index target | call target =>
      cases target <;> simp_all [Node.map, Node.children]
  | _ => simp_all [Node.map, Node.children]

theorem withChildren?_none {node : Node α} {children : List α}
    (leaf : node.withChildren? children = none) : node.children = [] := by
  cases node with
  | constant | parameter | placeholder => rfl
  | _ => cases leaf

end Node

namespace Expr

/-- Induction over trees that treats all kinds of nodes alike. -/
@[elab_as_elim]
theorem children_induct {motive : Expr → Prop}
    (step : ∀ id node, (∀ child ∈ node.children, motive child) → motive (.mk id node))
    (expr : Expr) : motive expr := by
  induction expr using Expr.induct with
  | index id target arguments owners ih | call id target method arguments owners ih =>
      refine step _ _ fun child found => ?_
      rcases List.mem_append.mp found with owner | argument
      · exact owners child (Option.mem_toList.mp owner)
      · exact ih child argument
  | constant | name | parameter | placeholder => exact step _ _ nofun
  | member id target name ih | unary id op target ih | lambda id parameters target ih =>
      refine step _ _ fun child found => ?_
      rw [List.mem_singleton.mp found]
      exact ih
  | binary id op left right first second =>
      refine step _ _ fun child found => ?_
      simp only [Node.children, List.mem_cons, List.not_mem_nil, or_false] at found
      rcases found with rfl | rfl
      · exact first
      · exact second
  | condition id test whenTrue whenFalse first second third =>
      refine step _ _ fun child found => ?_
      simp only [Node.children, List.mem_cons, List.not_mem_nil, or_false] at found
      rcases found with rfl | rfl | rfl
      · exact first
      · exact second
      · exact third

theorem rebuild_map {m : Type → Type} [Monad m] [LawfulMonad m] (fresh : m NodeId)
    (walk : Expr → m Expr) (id : NodeId) (node : Node Expr) :
    rebuild fresh id (node.map fun child => (child, walk child)) = (do
      let results ← node.children.mapM walk
      if results.map Expr.id == node.children.map Expr.id then pure (.mk id node)
      else
        match node.withChildren? results with
        | some rebuilt => return .mk (← fresh) rebuilt
        | none => pure (.mk id node)) := by
  simp only [rebuild, Node.map_fst_pair, Node.children_map, List.mapM_map]
  rfl

/-- Trees with the same identities are the same, if every one of them is. -/
theorem eq_of_ids {exprs results : List Expr}
    (same : results.map Expr.id = exprs.map Expr.id)
    (kept : ∀ pair ∈ exprs.zip results, pair.2.id = pair.1.id → pair.2 = pair.1) :
    results = exprs := by
  induction exprs generalizing results with
  | nil => simpa using same
  | cons expr rest ih =>
      cases results with
      | nil => cases same
      | cons result results =>
          rw [List.map_cons, List.map_cons] at same
          obtain ⟨first, others⟩ := List.cons.inj same
          have firstKept := kept (expr, result) (List.mem_cons_self ..) first
          dsimp only at firstKept
          rw [firstKept, ih others fun pair found => kept pair (List.mem_cons_of_mem _ found)]

theorem preorder_mk (id : NodeId) (node : Node Expr) :
    preorder (.mk id node) = .mk id node :: node.children.flatMap preorder := by
  rw [preorder, para_mk, Node.map_fst_pair, Node.children_map, List.map_map]
  rfl

section Survey

variable {m : Type → Type} [Monad m] [LawfulMonad m] {watch : Expr → m Unit}

theorem mapM_of_watching {walk : Expr → m Expr} {exprs : List Expr}
    (each : ∀ expr ∈ exprs, walk expr = do
      forM expr.preorder watch
      pure expr) :
    exprs.mapM walk = (do
      forM (exprs.flatMap preorder) watch
      pure exprs) := by
  induction exprs with
  | nil => simp
  | cons expr rest ih =>
      have others := ih fun other found => each other (List.mem_cons_of_mem _ found)
      have first := each expr List.mem_cons_self
      simp [List.mapM_cons, first, others]

/-- A visitor that gives back every node it is offered is offered all of them, and the tree stays
the same. -/
theorem accept_watching (fresh : m NodeId) (watch : Expr → m Unit) (expr : Expr) :
    (expr.accept fresh .preorder fun node => do
      watch node
      pure node) = (do
      forM expr.preorder watch
      pure expr) := by
  induction expr using children_induct with
  | step id node ih =>
      rw [accept] at ih ⊢
      rw [descend, para_mk, Node.map_fst_pair, rebuild_map]
      -- What the walk does below is in the hypothesis, and need not be opened.
      change (∀ child ∈ node.children, para _ child = _) at ih
      revert ih
      generalize (para _ : Expr → m Expr) = walk
      intro ih
      simp [mapM_of_watching ih, preorder_mk, Expr.id]

theorem survey_eq_forM (watch : Expr → m Unit) (expr : Expr) :
    expr.survey watch = forM expr.preorder watch := by
  rw [survey, accept_watching]
  simp

end Survey

theorem mem_preorder_mk {id : NodeId} {node : Node Expr} {part : Expr} :
    part ∈ preorder (.mk id node) ↔
      part = .mk id node ∨ ∃ child ∈ node.children, part ∈ child.preorder := by
  rw [preorder_mk, List.mem_cons, List.mem_flatMap]

theorem mem_preorder_self (expr : Expr) : expr ∈ expr.preorder := by
  obtain ⟨id, node⟩ := expr
  rw [preorder_mk]
  exact List.mem_cons_self ..

theorem preorder_subset {id : NodeId} {node : Node Expr} {child : Expr}
    (found : child ∈ node.children) : child.preorder ⊆ preorder (.mk id node) := by
  intro part inside
  rw [preorder_mk]
  exact List.mem_cons_of_mem _ (List.mem_flatMap.mpr ⟨child, found, inside⟩)

/-- A placeholder in a tree that is none itself lies below one of its children. -/
theorem below_of_placeholder {id : NodeId} {node : Node Expr} {part : Expr}
    (other : placeholder? (.mk id node) = none) (isPlaceholder : part.placeholder?.isSome)
    (inside : part ∈ preorder (.mk id node)) :
    ∃ child ∈ node.children, part ∈ child.preorder := by
  rcases mem_preorder_mk.mp inside with rfl | below
  · rw [other] at isPlaceholder
    cases isPlaceholder
  · exact below

theorem mem_placeholders {expr : Expr} {id : NodeId} {reference : Placeholder} :
    (id, reference) ∈ expr.placeholders ↔ .mk id (.placeholder reference) ∈ expr.preorder := by
  simp only [placeholders, List.mem_filterMap, Option.map_eq_some_iff]
  constructor
  · rintro ⟨⟨id', node⟩, found, reference', isPlaceholder, same⟩
    cases same
    cases node <;> cases isPlaceholder
    exact found
  · intro found
    exact ⟨_, found, reference, rfl, rfl⟩

/-- A property of the tree and of every part of it. -/
def Everywhere (property : Expr → Prop) (expr : Expr) : Prop :=
  ∀ part ∈ expr.preorder, property part

variable {property : Expr → Prop} {id : NodeId} {node : Node Expr}

theorem everywhere_mk : Everywhere property (.mk id node) ↔
    property (.mk id node) ∧ ∀ child ∈ node.children, Everywhere property child := by
  simp only [Everywhere, preorder_mk, List.forall_mem_cons, List.mem_flatMap]
  constructor
  · rintro ⟨here, below⟩
    exact ⟨here, fun child found part inside => below part ⟨child, found, inside⟩⟩
  · rintro ⟨here, below⟩
    refine ⟨here, ?_⟩
    rintro part ⟨child, found, inside⟩
    exact below child found part inside

theorem Everywhere.here {expr : Expr} (everywhere : Everywhere property expr) :
    property expr := by
  obtain ⟨id, node⟩ := expr
  exact (everywhere_mk.mp everywhere).1

theorem Everywhere.child (everywhere : Everywhere property (.mk id node)) {child : Expr}
    (found : child ∈ node.children) : Everywhere property child :=
  (everywhere_mk.mp everywhere).2 child found

/-- What holds everywhere in a tree holds everywhere in its parts. -/
theorem Everywhere.part {expr : Expr} (everywhere : Everywhere property expr) {part : Expr}
    (found : part ∈ expr.preorder) : Everywhere property part := by
  induction expr using children_induct with
  | step id node ih =>
      rw [preorder_mk, List.mem_cons, List.mem_flatMap] at found
      rcases found with rfl | ⟨child, below, inside⟩
      · exact everywhere
      · exact ih child below (everywhere.child below) inside

theorem para_congr {α : Type} {step step' : NodeId → Node (Expr × α) → α} {expr : Expr}
    (same : Everywhere (fun part => ∀ node, Expr.mk part.id (node.map Prod.fst) = part →
      step part.id node = step' part.id node) expr) : para step expr = para step' expr := by
  induction expr using children_induct with
  | step id node ih =>
      have below : (node.map fun child => (child, para step child)) =
          node.map fun child => (child, para step' child) :=
        Node.map_congr fun child found => by rw [ih child found (same.child found)]
      rw [para_mk, para_mk, below]
      exact same.here _ (by rw [Node.map_fst_pair]; rfl)

end Expr

end Tether

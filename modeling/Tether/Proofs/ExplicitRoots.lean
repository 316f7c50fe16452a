import Tether.Proofs.KeySlots
import Tether.Proofs.SinglePass

set_option autoImplicit false

/- Names without a root belong to the target or to the source, and so do indices and calls without
a receiver. Spelling the root out, as `$target` or `$source`, makes no difference: both trees are
resolved by the same steps to the same tree, with the same placeholders in it. -/
namespace Tether

namespace Expr

/-- The tree without the identities of its nodes, placeholders apart. -/
def mask : Expr → Expr :=
  para fun id node =>
    match node with
    | .placeholder reference => .mk id (.placeholder reference)
    | node => .mk 0 (node.map Prod.snd)

theorem mask_mk {id : NodeId} {node : Node Expr} (other : (Expr.mk id node).placeholder? = none) :
    mask (.mk id node) = .mk 0 (node.map mask) := by
  rw [mask, para_mk]
  cases node with
  | placeholder => cases other
  | constant | parameter | unary | binary | condition | lambda => rfl
  | member target | index target | call target =>
      cases target <;> simp [Node.map, Function.comp_def]

theorem placeholders_mk (id : NodeId) (node : Node Expr) :
    placeholders (.mk id node) =
      ((Expr.mk id node).placeholder?.map fun reference => (id, reference)).toList ++
        node.children.flatMap placeholders := by
  rw [placeholders, preorder_mk, List.filterMap_cons, List.filterMap_flatMap]
  cases (Expr.mk id node).placeholder? <;> rfl

/-- Placeholders and their order are seen through the mask. -/
theorem placeholders_mask (expr : Expr) : expr.mask.placeholders = expr.placeholders := by
  induction expr using children_induct with
  | step id node ih =>
      cases other : (Expr.mk id node).placeholder? with
      | some reference =>
          cases node <;> cases other
          rfl
      | none =>
          have masked : (Expr.mk 0 (node.map mask)).placeholder? = none := by
            cases node with
            | placeholder => cases other
            | _ => rfl
          rw [mask_mk other, placeholders_mk, placeholders_mk, other, masked, Node.children_map,
            List.flatMap_map]
          congr 1
          exact List.flatMap_congr ih

end Expr

namespace Resolver

variable (resolver : Resolver)

/-- What the default root is called. -/
def rootName : String :=
  if resolver.isTarget then "target" else "source"

/-- The default root, spelled out. -/
def SpelledRoot (expr : Expr) : Prop :=
  ∃ id inner, expr = .mk id (.unary .dynamic (.mk inner (.member none resolver.rootName)))

/-- The name of a root as it is spelled out: `$self` and `$this` are the target. -/
def spelledName (op : UnaryOp) (name : String) : String :=
  if op = .dynamic ∧ (name = "self" ∨ name = "this") then "target" else name

/-- A tree and the same tree with its default roots spelled out, under the parameters in scope. Only
placeholders have to be the same nodes in both. -/
inductive Spelled : List String → Expr → Expr → Prop where
  | constant {scope : List String} {id id' : NodeId} (value : Value) :
      Spelled scope (.mk id (.constant value)) (.mk id' (.constant value))
  | parameter {scope : List String} {id id' : NodeId} (name : String) :
      Spelled scope (.mk id (.parameter name)) (.mk id' (.parameter name))
  | placeholder {scope : List String} (id : NodeId) (reference : Placeholder) :
      Spelled scope (.mk id (.placeholder reference)) (.mk id (.placeholder reference))
  | bound {scope : List String} {id id' : NodeId} {name : String}
      (declared : scope.contains name) :
      Spelled scope (.mk id (.member none name)) (.mk id' (.member none name))
  | free {scope : List String} {id id' : NodeId} {name : String} {owner : Expr}
      (undeclared : ¬ scope.contains name) (root : resolver.SpelledRoot owner) :
      Spelled scope (.mk id (.member none name)) (.mk id' (.member (some owner) name))
  | member {scope : List String} {id id' : NodeId} {target target' : Expr} (name : String)
      (owner : Spelled scope target target') :
      Spelled scope (.mk id (.member (some target) name)) (.mk id' (.member (some target') name))
  | index {scope : List String} {id id' : NodeId} {target : Option Expr} {target' : Expr}
      {arguments arguments' : List Expr} (root : target = none → resolver.SpelledRoot target')
      (owner : ∀ expr, target = some expr → Spelled scope expr target')
      (count : arguments.length = arguments'.length)
      (each : ∀ pair ∈ arguments.zip arguments', Spelled scope pair.1 pair.2) :
      Spelled scope (.mk id (.index target arguments)) (.mk id' (.index (some target') arguments'))
  | call {scope : List String} {id id' : NodeId} {target : Option Expr} {target' : Expr}
      (method : String) {arguments arguments' : List Expr}
      (root : target = none → resolver.SpelledRoot target')
      (owner : ∀ expr, target = some expr → Spelled scope expr target')
      (count : arguments.length = arguments'.length)
      (each : ∀ pair ∈ arguments.zip arguments', Spelled scope pair.1 pair.2) :
      Spelled scope (.mk id (.call target method arguments))
        (.mk id' (.call (some target') method arguments'))
  | root {scope : List String} {id id' inner inner' : NodeId} {op : UnaryOp}
      (namesRoot : op.namesRoot) (name : String) :
      Spelled scope (.mk id (.unary op (.mk inner (.member none name))))
        (.mk id' (.unary op (.mk inner' (.member none (spelledName op name)))))
  | unary {scope : List String} {id id' : NodeId} {op : UnaryOp} {operand operand' : Expr}
      (unnamed : op.namesRoot → ∀ name, operand.node ≠ .member none name)
      (inner : Spelled scope operand operand') :
      Spelled scope (.mk id (.unary op operand)) (.mk id' (.unary op operand'))
  | binary {scope : List String} {id id' : NodeId} (op : BinaryOp)
      {left right left' right' : Expr} (first : Spelled scope left left')
      (second : Spelled scope right right') :
      Spelled scope (.mk id (.binary op left right)) (.mk id' (.binary op left' right'))
  | condition {scope : List String} {id id' : NodeId}
      {test whenTrue whenFalse test' whenTrue' whenFalse' : Expr}
      (first : Spelled scope test test') (second : Spelled scope whenTrue whenTrue')
      (third : Spelled scope whenFalse whenFalse') :
      Spelled scope (.mk id (.condition test whenTrue whenFalse))
        (.mk id' (.condition test' whenTrue' whenFalse'))
  | lambda {scope : List String} {id id' : NodeId} {parameters : List String} {body body' : Expr}
      (inner : Spelled (scope ++ parameters) body body') :
      Spelled scope (.mk id (.lambda parameters body)) (.mk id' (.lambda parameters body'))

/-- Spells out one node over children that are spelled out. -/
def spellNode (root : Expr) (id : NodeId) (node : Node (Expr × (List String → Expr)))
    (scope : List String) : Expr :=
  match node with
  | .member none name =>
      if scope.contains name then .mk id (.member none name)
      else .mk id (.member (some root) name)
  | .index target arguments =>
      .mk id (.index (some (target.elim root fun owner => owner.2 scope))
        (arguments.map fun argument => argument.2 scope))
  | .call target method arguments =>
      .mk id (.call (some (target.elim root fun owner => owner.2 scope)) method
        (arguments.map fun argument => argument.2 scope))
  | .unary op (operand, spelled) =>
      match operand with
      | .mk inner (.member none name) =>
          if op.namesRoot then .mk id (.unary op (.mk inner (.member none (spelledName op name))))
          else .mk id (.unary op (spelled scope))
      | _ => .mk id (.unary op (spelled scope))
  | node => .mk id (node.map fun child => child.2 (node.scopeBelow scope))

/-- Spells the default roots out, all as one node. -/
def spellOut (root : Expr) : Expr → List String → Expr :=
  Expr.para (spellNode root)

variable {resolver} {scope : List String} {expr other : Expr}

theorem flatten_spelledRoot (root : resolver.SpelledRoot expr) (scope : List String) :
    resolver.flatten scope expr = .ok (some { root := resolver.defaultRoot }) := by
  obtain ⟨id, inner, rfl⟩ := root
  rw [flatten, rootName, defaultRoot]
  cases resolver.isTarget <;> rfl

theorem namedRoot_spelledName (op : UnaryOp) (name : String) :
    resolver.namedRoot (spelledName op name) (op == .static) =
      resolver.namedRoot name (op == .static) := by
  rw [spelledName]
  split
  · rename_i isAlias
    rcases isAlias with ⟨rfl, rfl | rfl⟩ <;> rfl
  · rfl

theorem Spelled.kind_eq (spelled : resolver.Spelled scope expr other) : other.kind = expr.kind := by
  cases spelled <;> rfl

theorem Spelled.constant_eq (spelled : resolver.Spelled scope expr other) :
    other.constant? = expr.constant? := by
  cases spelled <;> rfl

/-- What is no name of its own does not become one. -/
theorem Spelled.unnamed (spelled : resolver.Spelled scope expr other)
    (unnamed : ∀ name, expr.node ≠ .member none name) (name : String) :
    other.node ≠ .member none name := by
  cases spelled with
  | bound => exact absurd rfl (unnamed _)
  | _ => nofun

theorem constants_spelled {arguments arguments' : List Expr}
    (count : arguments.length = arguments'.length)
    (each : ∀ pair ∈ arguments.zip arguments', resolver.Spelled scope pair.1 pair.2) :
    constants arguments' = constants arguments := by
  induction arguments generalizing arguments' with
  | nil =>
      cases arguments' with
      | nil => rfl
      | cons => cases count
  | cons argument arguments ih =>
      cases arguments' with
      | nil => cases count
      | cons argument' arguments' =>
          rw [List.zip_cons_cons, List.forall_mem_cons] at each
          have rest := ih (Nat.succ.inj count) each.2
          simp only [constants] at rest ⊢
          rw [List.mapM_cons, List.mapM_cons, each.1.constant_eq, rest]

theorem flatten_member (scope : List String) (id : NodeId) (target : Expr) (name : String) :
    (resolver.flatten scope (.mk id (.member (some target) name))).toOption =
      (resolver.flatten scope target).toOption.map (Option.map (·.push (.member name))) := by
  rw [flatten]
  cases resolver.flatten scope target <;> rfl

theorem flatten_index (scope : List String) (id : NodeId) (target : Expr) (arguments : List Expr) :
    (resolver.flatten scope (.mk id (.index (some target) arguments))).toOption =
      if resolver.settings.flattenIndexers then
        match constants arguments with
        | none => some none
        | some values =>
            (resolver.flatten scope target).toOption.map (Option.map (·.push (.index values)))
      else some none := by
  rw [flatten]
  split
  · cases constants arguments with
    | none => rfl
    | some values =>
        dsimp only
        cases resolver.flatten scope target <;> rfl
  · rfl

/-- Both trees are the same chain, or neither is one, or both are refused. -/
theorem flatten_spelled (spelled : resolver.Spelled scope expr other) :
    (resolver.flatten scope expr).toOption = (resolver.flatten scope other).toOption := by
  induction spelled with
  | constant | parameter | placeholder | call | binary | condition | lambda => rfl
  | bound declared => rw [flatten, flatten, if_pos declared]
  | free undeclared root =>
      rw [flatten_member, flatten_spelledRoot root, flatten, if_neg undeclared]
      rfl
  | member name _ ih => rw [flatten_member, flatten_member, ih]
  | @index scope id id' target target' arguments arguments' root _ count each ih _ =>
      rw [flatten_index, constants_spelled count each]
      cases target with
      | some owner => rw [flatten_index, ih owner rfl]
      | none =>
          rw [flatten_spelledRoot (root rfl), flatten]
          split
          · cases constants arguments <;> rfl
          · rfl
  | root namesRoot name =>
      rw [flatten, flatten, if_pos namesRoot, if_pos namesRoot]
      simp only [Expr.node]
      rw [namedRoot_spelledName]
  | @unary scope id id' op operand operand' unnamed inner ih =>
      rw [flatten, flatten]
      split
      · rename_i namesRoot
        have refused (name : String) := unnamed namesRoot name
        have refused' (name : String) := inner.unnamed refused name
        split
        · rename_i name named
          exact absurd named (refused name)
        · rfl
      · rfl

/-- Both steps fail or run out of room, or both end in one state with related results. -/
inductive Together {κ α β : Type} (related : α → β → Prop) :
    EStateM.Result (Halt ResolveError) (Progress κ) α →
      EStateM.Result (Halt ResolveError) (Progress κ) β → Prop where
  | ok {value : α} {value' : β} {after : Progress κ} (results : related value value') :
      Together related (.ok value after) (.ok value' after)
  | failure {error error' : ResolveError} {after : Progress κ} :
      Together related (.error (.failure error) after) (.error (.failure error') after)
  | overflow {after : Progress κ} :
      Together related (.error .overflow after) (.error .overflow after)

theorem Together.halted {κ α β : Type} {related : α → β → Prop} (halt : Halt ResolveError)
    {after : Progress κ} : Together related (.error halt after) (.error halt after) := by
  cases halt with
  | failure error => exact .failure
  | overflow => exact .overflow

theorem Together.mono {κ α β : Type} {related weaker : α → β → Prop}
    {first : EStateM.Result (Halt ResolveError) (Progress κ) α}
    {second : EStateM.Result (Halt ResolveError) (Progress κ) β}
    (together : Together related first second)
    (weakens : ∀ value value', related value value' → weaker value value') :
    Together weaker first second := by
  cases together with
  | ok results => exact .ok (weakens _ _ results)
  | failure => exact .failure
  | overflow => exact .overflow

theorem Together.bind {κ α β γ δ : Type} {related : α → β → Prop} {related' : γ → δ → Prop}
    {first : Resolve κ α} {second : Resolve κ β} {next : α → Resolve κ γ} {next' : β → Resolve κ δ}
    {scope scope' : List String} {before : Progress κ}
    (start : Together related (first scope before) (second scope' before))
    (rest : ∀ value value' between, first scope before = .ok value between →
      related value value' → Together related' (next value scope between)
        (next' value' scope' between)) :
    Together related' ((first >>= next) scope before) ((second >>= next') scope' before) := by
  cases ran : first scope before with
  | error halt between =>
      rw [ran] at start
      generalize ran' : second scope' before = run' at start
      cases start with
      | failure =>
          rw [bind_of_error ran, bind_of_error ran']
          exact .failure
      | overflow =>
          rw [bind_of_error ran, bind_of_error ran']
          exact .overflow
  | ok value between =>
      rw [ran] at start
      generalize ran' : second scope' before = run' at start
      cases start with
      | ok results =>
          rw [bind_of_ok ran, bind_of_ok ran']
          exact rest value _ between ran results

section Pairs

variable {κ : Type} {call : Caller κ} {base : NodeId} {result result' : Expr}
  {before : Progress κ}

/-- What two trees become: the same tree, and each of them new or neither. -/
structure Likewise (base : NodeId) (expr other result result' : Expr) : Prop where
  masks : result.mask = result'.mask
  kept : result = expr ∧ result' = other ∨ base ≤ result.id ∧ base ≤ result'.id

theorem Likewise.id_iff (likewise : Likewise base expr other result result')
    (old : expr.id < base) (old' : other.id < base) :
    result.id = expr.id ↔ result'.id = other.id := by
  rcases likewise.kept with ⟨rfl, rfl⟩ | ⟨new, new'⟩
  · exact iff_of_true rfl rfl
  · have apart : result.id ≠ expr.id := Nat.ne_of_gt (Nat.lt_of_lt_of_le old new)
    have apart' : result'.id ≠ other.id := Nat.ne_of_gt (Nat.lt_of_lt_of_le old' new')
    exact iff_of_false apart apart'

theorem Likewise.eq_of_id (likewise : Likewise base expr other result result')
    (old : expr.id < base) (same : result.id = expr.id) : result = expr ∧ result' = other := by
  rcases likewise.kept with kept | ⟨new, -⟩
  · exact kept
  · rw [same] at new
    exact absurd old (Nat.not_lt.mpr new)

theorem Likewise.new {made : Expr} (new : base ≤ made.id) : Likewise base expr other made made :=
  ⟨rfl, .inr ⟨new, new⟩⟩

/-- Lists of trees become lists of trees likewise. -/
inductive AllLikewise (base : NodeId) :
    List Expr → List Expr → List Expr → List Expr → Prop where
  | nil : AllLikewise base [] [] [] []
  | cons {expr other result result' : Expr} {exprs others results results' : List Expr}
      (first : Likewise base expr other result result')
      (rest : AllLikewise base exprs others results results') :
      AllLikewise base (expr :: exprs) (other :: others) (result :: results) (result' :: results')

section Lists

variable {exprs others results results' : List Expr}

theorem AllLikewise.masks (all : AllLikewise base exprs others results results') :
    results.map Expr.mask = results'.map Expr.mask := by
  induction all with
  | nil => rfl
  | cons first _ ih => rw [List.map_cons, List.map_cons, first.masks, ih]

theorem AllLikewise.length_eq (all : AllLikewise base exprs others results results') :
    results.length = exprs.length := by
  induction all with
  | nil => rfl
  | cons _ _ ih => rw [List.length_cons, List.length_cons, ih]

theorem AllLikewise.ids_iff (all : AllLikewise base exprs others results results')
    (old : ∀ expr ∈ exprs, expr.id < base) (old' : ∀ other ∈ others, other.id < base) :
    results.map Expr.id = exprs.map Expr.id ↔ results'.map Expr.id = others.map Expr.id := by
  induction all with
  | nil => exact Iff.rfl
  | cons first _ ih =>
      rw [List.forall_mem_cons] at old old'
      simp only [List.map_cons, List.cons.injEq]
      exact and_congr (first.id_iff old.1 old'.1) (ih old.2 old'.2)

theorem AllLikewise.eq_of_ids (all : AllLikewise base exprs others results results')
    (old : ∀ expr ∈ exprs, expr.id < base) (same : results.map Expr.id = exprs.map Expr.id) :
    results = exprs ∧ results' = others := by
  induction all with
  | nil => exact ⟨rfl, rfl⟩
  | cons first _ ih =>
      rw [List.forall_mem_cons] at old
      obtain ⟨here, there⟩ := List.cons.inj same
      obtain ⟨rfl, rfl⟩ := first.eq_of_id old.1 here
      obtain ⟨rfl, rfl⟩ := ih old.2 there
      exact ⟨rfl, rfl⟩

end Lists

/-- Both trees are resolved by the same steps. -/
def Paired (resolver : Resolver) (call : Caller κ) (base : NodeId) (scope : List String)
    (expr other : Expr) : Prop :=
  ∀ before, Tidy base before →
    Together (Likewise base expr other) (resolver.walk call expr scope before)
      (resolver.walk call other scope before)

/-- The identities in both trees are taken. -/
def Old (base : NodeId) (expr other : Expr) : Prop :=
  (expr.Everywhere fun part => part.id < base) ∧ other.Everywhere fun part => part.id < base

theorem Old.child {id id' : NodeId} {node node' : Node Expr} {child child' : Expr}
    (old : Old base (.mk id node) (.mk id' node')) (found : child ∈ node.children)
    (found' : child' ∈ node'.children) : Old base child child' :=
  ⟨old.1.child found, old.2.child found'⟩

theorem together_mapM {exprs others : List Expr} (count : exprs.length = others.length)
    (each : ∀ pair ∈ exprs.zip others, Paired resolver call base scope pair.1 pair.2)
    (old : ∀ expr ∈ exprs, expr.Everywhere fun part => part.id < base) (tidy : Tidy base before) :
    Together (AllLikewise base exprs others)
      (exprs.mapM (resolver.walk call) scope before)
      (others.mapM (resolver.walk call) scope before) := by
  induction exprs generalizing others before with
  | nil =>
      cases others with
      | nil => exact .ok .nil
      | cons => cases count
  | cons expr exprs ih =>
      cases others with
      | nil => cases count
      | cons other others =>
          rw [List.zip_cons_cons, List.forall_mem_cons] at each
          rw [List.forall_mem_cons] at old
          rw [List.mapM_cons, List.mapM_cons]
          refine (each.1 before tidy).bind fun result result' between ran first => ?_
          have tidyBetween := (walk_keeps old.1 scope before result between tidy ran).2
          refine (ih (Nat.succ.inj count) each.2 old.2 tidyBetween).bind
            fun results results' _ _ rest => ?_
          exact .ok (.cons first rest)

theorem together_same {step : Resolve κ Expr} (tidy : Tidy base before)
    (new : Ensures base (fun made => base ≤ made.id) step) (scope : List String) :
    Together (Likewise base expr other) (step scope before) (step scope before) := by
  cases ran : step scope before with
  | error halt after => exact .halted halt
  | ok made after => exact .ok (.new (new scope before made after tidy ran).1)

/-- Trees that flatten alike are resolved by the same steps, as long as this holds when they are no
chains. -/
theorem together_pass (old : Old base expr other) (tidy : Tidy base before)
    (flat : (resolver.flatten scope expr).toOption = (resolver.flatten scope other).toOption)
    (kind : other.kind = expr.kind)
    (settled : resolver.flatten scope expr = .ok none →
      Together (Likewise base expr other)
        (resolver.settle call (resolver.walk call) expr.id expr.node scope before)
        (resolver.settle call (resolver.walk call) other.id other.node scope before)) :
    Together (Likewise base expr other) (resolver.walk call expr scope before)
      (resolver.walk call other scope before) := by
  rw [walk_eq_pass old.1 tidy, walk_eq_pass old.2 tidy]
  cases first : resolver.flatten scope expr with
  | error error =>
      cases second : resolver.flatten scope other with
      | error error' =>
          rw [pass_of_error first, pass_of_error second]
          exact .failure
      | ok found => rw [first, second] at flat; cases flat
  | ok found =>
      cases second : resolver.flatten scope other with
      | error error' => rw [first, second] at flat; cases flat
      | ok found' =>
          rw [first, second] at flat
          cases flat
          cases found with
          | none =>
              rw [pass_of_none first, pass_of_none second]
              exact settled first
          | some chain =>
              rw [pass_of_chain first, pass_of_chain second, kind]
              exact together_same tidy (ensures_materialize chain _ none) scope

section Remake

variable {id id' : NodeId} {node node' : Node Expr}

theorem placeholder?_withChildren? {results : List Expr}
    (rebuilt : node.withChildren? results = some node') (id : NodeId) :
    (Expr.mk id node').placeholder? = none := by
  cases node <;> cases rebuilt <;> rfl

/-- Nodes of one form, over children that are resolved by the same steps. -/
theorem together_remake (old : Old base (.mk id node) (.mk id' node')) (tidy : Tidy base before)
    (sameScope : node'.scopeBelow scope = node.scopeBelow scope)
    (count : node.children.length = node'.children.length)
    (each : ∀ pair ∈ node.children.zip node'.children, Old base pair.1 pair.2 →
      Paired resolver call base (node.scopeBelow scope) pair.1 pair.2)
    (whole : node.withChildren? node.children = some node)
    (whole' : node'.withChildren? node'.children = some node')
    (form : ∀ masks : List Expr, masks.length = node.children.length →
      (node.map Expr.mask).withChildren? masks = (node'.map Expr.mask).withChildren? masks) :
    Together (Likewise base (.mk id node) (.mk id' node'))
      (remake (resolver.walk call) id node scope before)
      (remake (resolver.walk call) id' node' scope before) := by
  have below : ∀ child ∈ node.children, child.Everywhere fun part => part.id < base :=
    fun child found => old.1.child found
  have ids : ∀ child ∈ node.children, child.id < base := fun child found => (below child found).here
  have ids' : ∀ child ∈ node'.children, child.id < base :=
    fun child found => (old.2.child found).here
  have start : Together (AllLikewise base node.children node'.children)
      ((withReader (fun scope => node.scopeBelow scope)
        (node.children.mapM (resolver.walk call)) : Resolve κ (List Expr)) scope before)
      ((withReader (fun scope => node'.scopeBelow scope)
        (node'.children.mapM (resolver.walk call)) : Resolve κ (List Expr)) scope before) := by
    change Together _ (node.children.mapM (resolver.walk call) (node.scopeBelow scope) before)
      (node'.children.mapM (resolver.walk call) (node'.scopeBelow scope) before)
    rw [sameScope]
    exact together_mapM count (fun pair found => each pair found
      (old.child (List.of_mem_zip found).1 (List.of_mem_zip found).2)) below tidy
  refine start.bind fun results results' between ran all => ?_
  have tidyBetween : Tidy base between :=
    (((Ensures.mapM fun child found => walk_keeps (below child found)).withReader _) scope before
      results between tidy ran).2
  -- Over results with the same masks, both nodes become the same node.
  have remade : (node.withChildren? results).map (Node.map Expr.mask) =
      (node'.withChildren? results').map (Node.map Expr.mask) := by
    rw [← Node.withChildren?_map, ← Node.withChildren?_map, ← all.masks]
    exact form _ (by rw [List.length_map, all.length_eq])
  by_cases same : results.map Expr.id = node.children.map Expr.id
  · have same' := (all.ids_iff ids ids').mp same
    rw [if_pos (beq_iff_eq.mpr same), if_pos (beq_iff_eq.mpr same')]
    obtain ⟨rfl, rfl⟩ := all.eq_of_ids ids same
    rw [whole, whole'] at remade
    refine .ok ⟨?_, .inl ⟨rfl, rfl⟩⟩
    rw [Expr.mask_mk (placeholder?_withChildren? whole id),
      Expr.mask_mk (placeholder?_withChildren? whole' id'), Option.some.inj remade]
  · have changed := (not_congr (all.ids_iff ids ids')).mp same
    rw [if_neg (mt beq_iff_eq.mp same), if_neg (mt beq_iff_eq.mp changed)]
    cases rebuilt : node.withChildren? results with
    | none =>
        have none := all.length_eq
        rw [Node.withChildren?_none rebuilt] at none same
        rw [List.eq_nil_of_length_eq_zero none] at same
        exact absurd rfl same
    | some made =>
        rw [rebuilt] at remade
        obtain ⟨made', rebuilt', masks⟩ := Option.map_eq_some_iff.mp remade.symm
        rw [rebuilt']
        refine .ok ⟨?_, .inr ⟨tidyBetween.next, tidyBetween.next⟩⟩
        rw [Expr.mask_mk (placeholder?_withChildren? rebuilt between.next),
          Expr.mask_mk (placeholder?_withChildren? rebuilt' between.next), masks]

end Remake

section Receivers

variable {target : Option Expr} {target' : Expr} {arguments arguments' : List Expr}

/-- The default root as a receiver. -/
theorem materialize_defaultRoot (kind : Kind) (method : Option String) :
    resolver.materialize call { root := resolver.defaultRoot } kind method =
      resolver.placeholder "" resolver.defaultRoot kind method := by
  simp only [materialize, defaultRoot]
  cases resolver.isTarget <;> rfl

theorem together_receiver (root : target = none → resolver.SpelledRoot target')
    (owner : ∀ expr, target = some expr →
      resolver.Spelled scope expr target' ∧ Paired resolver call base scope expr target')
    (tidy : Tidy base before) (kind : Kind) (method : Option String) :
    Together (fun receiver receiver' => receiver.mask = receiver'.mask)
      (resolver.replaceReceiver call
        (target.map fun owner => (owner, resolver.walk call owner)) kind method scope before)
      (resolver.replaceReceiver call
        ((some target').map fun owner => (owner, resolver.walk call owner)) kind method scope
        before) := by
  have inScope : (read : Resolve κ (List String)) scope before = .ok scope before := rfl
  have same (step : Resolve κ Expr) : Together (fun receiver receiver' : Expr =>
      receiver.mask = receiver'.mask) (step scope before) (step scope before) := by
    cases step scope before with
    | error halt => exact .halted halt
    | ok => exact .ok rfl
  cases target with
  | none =>
      simp only [replaceReceiver, Option.map_none, Option.map_some]
      rw [bind_of_ok inScope, flatten_spelledRoot (root rfl)]
      change Together _ (resolver.placeholder "" resolver.defaultRoot kind method scope before)
        (resolver.materialize call { root := resolver.defaultRoot } kind method scope before)
      rw [materialize_defaultRoot]
      exact same _
  | some expr =>
      obtain ⟨spelled, paired⟩ := owner expr rfl
      have flat := flatten_spelled spelled
      simp only [replaceReceiver, Option.map_some]
      rw [bind_of_ok inScope, bind_of_ok inScope]
      revert flat
      cases resolver.flatten scope expr <;> cases resolver.flatten scope target' <;> intro flat
      · exact .failure
      · cases flat
      · cases flat
      · rename_i found _
        cases flat
        cases found with
        | some chain => exact same (resolver.materialize call chain kind method)
        | none =>
            exact (paired before tidy).mono fun _ _ likewise => likewise.masks

/-- Nodes made anew over receivers and arguments that are resolved by the same steps. -/
theorem together_receive {id id' : NodeId} {node node' : Node Expr}
    (old : Old base (.mk id node) (.mk id' node'))
    (children : node.children = target.toList ++ arguments)
    (children' : node'.children = target' :: arguments')
    (root : target = none → resolver.SpelledRoot target')
    (owner : ∀ expr, target = some expr → resolver.Spelled scope expr target')
    (paired : ∀ expr, target = some expr → Old base expr target' →
      Paired resolver call base scope expr target')
    (count : arguments.length = arguments'.length)
    (each : ∀ pair ∈ arguments.zip arguments', Old base pair.1 pair.2 →
      Paired resolver call base scope pair.1 pair.2)
    (tidy : Tidy base before) (kind : Kind) (method : Option String)
    {make : Expr → List Expr → Node Expr}
    (masked : ∀ receiver values id, (Expr.mk id (make receiver values)).mask =
      .mk 0 (make receiver.mask (values.map Expr.mask))) :
    Together (Likewise base (.mk id node) (.mk id' node'))
      (resolver.receive call (resolver.walk call) target kind method arguments make scope before)
      (resolver.receive call (resolver.walk call) (some target') kind method arguments' make scope
        before) := by
  have inside (expr : Expr) (found : target = some expr) : expr ∈ node.children := by
    rw [children, found]
    exact List.mem_cons_self
  have behind (argument : Expr) (found : argument ∈ arguments) : argument ∈ node.children := by
    rw [children]
    exact List.mem_append_right _ found
  have behind' (argument : Expr) (found : argument ∈ arguments') : argument ∈ node'.children := by
    rw [children']
    exact List.mem_cons_of_mem _ found
  have inside' : target' ∈ node'.children := by
    rw [children']
    exact List.mem_cons_self
  have owners (owner : Expr) (found : owner ∈ target) :
      Ensures base (Kept base owner) (resolver.walk call owner) :=
    walk_keeps (old.1.child (inside owner found))
  have others (argument : Expr) (found : argument ∈ arguments) :=
    old.1.child (behind argument found)
  have received (expr : Expr) (given : target = some expr) :=
    And.intro (owner expr given) (paired expr given (old.child (inside expr given) inside'))
  have walked (pair : Expr × Expr) (found : pair ∈ arguments.zip arguments') :=
    each pair found (old.child (behind _ (List.of_mem_zip found).1)
      (behind' _ (List.of_mem_zip found).2))
  refine (together_receiver root received tidy kind method).bind
    fun receiver receiver' received ran masks => ?_
  have tidyReceived :=
    (ensures_replaceReceiver owners kind method scope before receiver received tidy ran).2
  refine (together_mapM count walked others tidyReceived).bind
    fun values values' walked ran all => ?_
  have tidyWalked := ((Ensures.mapM fun argument found => walk_keeps (others argument found)) scope
    received values walked tidyReceived ran).2
  refine .ok ⟨?_, .inr ⟨tidyWalked.next, tidyWalked.next⟩⟩
  rw [masked, masked, masks, all.masks]

end Receivers

/-- Spelling out the default roots changes no step of a walk. -/
theorem walk_spelled (spelled : resolver.Spelled scope expr other) (old : Old base expr other) :
    Paired resolver call base scope expr other := by
  have settle {scope : List String} {expr other : Expr}
      (spelled : resolver.Spelled scope expr other) (old : Old base expr other)
      (settled : ∀ before, Tidy base before → resolver.flatten scope expr = .ok none →
        Together (Likewise base expr other)
          (resolver.settle call (resolver.walk call) expr.id expr.node scope before)
          (resolver.settle call (resolver.walk call) other.id other.node scope before)) :
      Paired resolver call base scope expr other := fun before tidy =>
    -- Chains are replaced as a whole, so that only what is no chain is left to each case.
    together_pass old tidy (flatten_spelled spelled) spelled.kind_eq (settled before tidy)
  induction spelled with
  | constant value => exact settle (.constant value) old fun _ _ _ => .ok ⟨rfl, .inl ⟨rfl, rfl⟩⟩
  | parameter name => exact settle (.parameter name) old fun _ _ _ => .ok ⟨rfl, .inl ⟨rfl, rfl⟩⟩
  | placeholder id reference =>
      exact settle (.placeholder id reference) old fun _ _ _ => .ok ⟨rfl, .inl ⟨rfl, rfl⟩⟩
  | @bound scope id id' name declared =>
      exact settle (.bound declared) old fun _ tidy _ =>
        together_same tidy (ensures_newNode (.parameter name)) scope
  | @free scope id id' name owner undeclared root =>
      refine settle (.free undeclared root) old fun _ _ unchained => ?_
      rw [flatten, if_neg undeclared] at unchained
      cases unchained
  | @member scope id id' target target' name owner ih =>
      refine settle (.member name owner) old fun before tidy _ => ?_
      refine together_remake old tidy rfl rfl
        (by simpa [Node.children, Node.scopeBelow] using ih) rfl rfl ?_
      intro masks count
      obtain ⟨mask, rfl⟩ := List.length_eq_one_iff.mp count
      rfl
  | @index scope id id' target target' arguments arguments' root owner count each ownerIH eachIH =>
      refine settle (.index root owner count each) old fun before tidy _ => ?_
      exact together_receive old rfl rfl root owner ownerIH count eachIH tidy .index none
        fun receiver values id => Expr.mask_mk rfl
  | @call scope id id' target target' method arguments arguments' root owner count each ownerIH
      eachIH =>
      refine settle (.call method root owner count each) old fun before tidy _ => ?_
      exact together_receive old rfl rfl root owner ownerIH count eachIH tidy .call _
        fun receiver values id => Expr.mask_mk rfl
  | @root scope id id' inner inner' op namesRoot name =>
      exact settle (.root namesRoot name) old fun _ _ unchained =>
        absurd unchained (flatten_root_ne_none namesRoot _)
  | @unary scope id id' op operand operand' unnamed inner ih =>
      refine settle (.unary unnamed inner) old fun before tidy _ => ?_
      refine together_remake old tidy rfl rfl
        (by simpa [Node.children, Node.scopeBelow] using ih) rfl rfl ?_
      intro masks count
      obtain ⟨mask, rfl⟩ := List.length_eq_one_iff.mp count
      rfl
  | @binary scope id id' op left right left' right' first second firstIH secondIH =>
      have inside := And.intro firstIH secondIH
      refine settle (.binary op first second) old fun before tidy _ => ?_
      refine together_remake old tidy rfl rfl
        (by simpa [Node.children, Node.scopeBelow] using inside) rfl rfl ?_
      intro masks count
      obtain ⟨mask, mask', rfl⟩ := List.length_eq_two.mp count
      rfl
  | @condition scope id id' test whenTrue whenFalse test' whenTrue' whenFalse' first second third
      firstIH secondIH thirdIH =>
      have inside := And.intro firstIH (And.intro secondIH thirdIH)
      refine settle (.condition first second third) old fun before tidy _ => ?_
      refine together_remake old tidy rfl rfl
        (by simpa [Node.children, Node.scopeBelow] using inside) rfl rfl ?_
      intro masks count
      obtain ⟨mask, mask', mask'', rfl⟩ := List.length_eq_three.mp count
      rfl
  | @lambda scope id id' parameters body body' inner ih =>
      refine settle (.lambda inner) old fun before tidy _ => ?_
      refine together_remake old tidy rfl rfl
        (by simpa [Node.children, Node.scopeBelow] using ih) rfl rfl ?_
      intro masks count
      obtain ⟨mask, rfl⟩ := List.length_eq_one_iff.mp count
      rfl

end Pairs

section SpellOut

variable {root : Expr}

theorem spellOut_mk (root : Expr) (id : NodeId) (node : Node Expr) :
    spellOut root (.mk id node) =
      spellNode root id (node.map fun child => (child, spellOut root child)) := by
  rw [spellOut, Expr.para_mk]

theorem spelled_arguments {arguments : List Expr}
    (each : ∀ argument ∈ arguments, ∀ scope,
      resolver.Spelled scope argument (spellOut root argument scope)) (scope : List String) :
    ∀ pair ∈ arguments.zip (arguments.map fun argument => spellOut root argument scope),
      resolver.Spelled scope pair.1 pair.2 := by
  intro pair found
  rw [← List.map_prod_left_eq_zip] at found
  obtain ⟨argument, member, rfl⟩ := List.mem_map.mp found
  exact each argument member scope

/-- Every tree can be spelled out. -/
theorem spelled_spellOut (isRoot : resolver.SpelledRoot root) (expr : Expr) (scope : List String) :
    resolver.Spelled scope expr (spellOut root expr scope) := by
  induction expr using Expr.induct generalizing scope with
  | constant id value => exact .constant value
  | parameter id name => exact .parameter name
  | placeholder id reference => exact .placeholder id reference
  | name id name =>
      rw [spellOut_mk]
      simp only [Node.map, Option.map_none, spellNode]
      split
      · exact .bound ‹_›
      · exact .free ‹_› isRoot
  | member id target name ih => exact .member name (ih scope)
  | unary id op operand ih =>
      rw [spellOut_mk]
      simp only [Node.map, spellNode]
      split
      · split
        · exact .root ‹_› _
        · exact .unary (fun namesRoot => absurd namesRoot ‹_›) (ih scope)
      · rename_i unnamed
        refine .unary (fun _ name named => ?_) (ih scope)
        obtain ⟨inner, node⟩ := operand
        exact unnamed inner name (congrArg (Expr.mk inner) named)
  | binary id op left right leftIH rightIH => exact .binary op (leftIH scope) (rightIH scope)
  | condition id test whenTrue whenFalse testIH trueIH falseIH =>
      exact .condition (testIH scope) (trueIH scope) (falseIH scope)
  | lambda id parameters body ih => exact .lambda (ih (scope ++ parameters))
  | index id target arguments targetIH argumentsIH =>
      rw [spellOut_mk]
      simp only [Node.map, spellNode, List.map_map, Function.comp_def]
      refine .index ?_ ?_ (List.length_map _).symm (spelled_arguments argumentsIH scope)
      · rintro rfl
        exact isRoot
      · rintro owner rfl
        exact targetIH owner rfl scope
  | call id target method arguments targetIH argumentsIH =>
      rw [spellOut_mk]
      simp only [Node.map, spellNode, List.map_map, Function.comp_def]
      refine .call method ?_ ?_ (List.length_map _).symm (spelled_arguments argumentsIH scope)
      · rintro rfl
        exact isRoot
      · rintro owner rfl
        exact targetIH owner rfl scope

end SpellOut

/-- Explicit and implicit roots are resolved alike. With the default roots spelled out and `$self`
and `$this` written as `$target`, a tree is resolved just when it was before, to the same tree with
the same placeholders, shared in the same places and numbered in the same order. -/
theorem resolve_spelled (spelled : resolver.Spelled [] expr other) {next : NodeId}
    (old : expr.Everywhere fun part => part.id < next)
    (old' : other.Everywhere fun part => part.id < next) {κ : Type} (call : Caller κ)
    (world : World κ) :
    let ended := resolver.resolve call expr world next
    let ended' := resolver.resolve call other world next
    ended.2 = ended'.2 ∧
      ((∃ error error', ended.1 = .error (.failure error) ∧ ended'.1 = .error (.failure error')) ∨
        ended.1 = .error .overflow ∧ ended'.1 = .error .overflow ∨
        ∃ result result', ended.1 = .ok result ∧ ended'.1 = .ok result' ∧
          result.mask = result'.mask ∧ result.placeholders = result'.placeholders ∧
          ∀ (numbering : Numbering) slots,
            numbering.collect slots result = numbering.collect slots result') := by
  have paired : Paired resolver call next [] expr other := walk_spelled spelled ⟨old, old'⟩
  have together := paired { world, next } (.start world next)
  simp only [resolve, ReaderT.run, EStateM.run]
  revert together
  generalize resolver.walk call expr [] { world, next } = run
  generalize resolver.walk call other [] { world, next } = run'
  intro together
  cases together with
  | failure => exact ⟨rfl, .inl ⟨_, _, rfl, rfl⟩⟩
  | overflow => exact ⟨rfl, .inr (.inl ⟨rfl, rfl⟩)⟩
  | @ok result result' after likewise =>
      have placeholders : result.placeholders = result'.placeholders := by
        rw [← Expr.placeholders_mask result, ← Expr.placeholders_mask result', likewise.masks]
      refine ⟨rfl, .inr (.inr ⟨result, result', rfl, rfl, likewise.masks, placeholders, ?_⟩)⟩
      intro numbering slots
      rw [Numbering.collect_eq_foldl, Numbering.collect_eq_foldl, placeholders]

/-- The target is the default root here, so that `$self.A`, and `A` inside the lambda, are one
placeholder, before and after. -/
theorem resolve_spelled_target :
    let resolver : Resolver := { isTarget := true }
    let expr : Expr := .mk 0 (.binary .add
      (.mk 1 (.member (some (.mk 2 (.unary .dynamic (.mk 3 (.member none "self"))))) "A"))
      (.mk 4 (.call none "F" [.mk 5 (.lambda ["x"]
        (.mk 6 (.binary .add (.mk 7 (.member none "x")) (.mk 8 (.member none "A")))))])))
    let root : Expr := .mk 9 (.unary .dynamic (.mk 10 (.member none "target")))
    let other := spellOut root expr []
    ∃ result result', (resolver.resolve callFunction expr {} 11).1 = .ok result ∧
      (resolver.resolve callFunction other {} 11).1 = .ok result' ∧ result.mask = result'.mask ∧
      result'.placeholders.map (fun found => (found.1, found.2.path)) =
        [(11, "A"), (12, ""), (11, "A")] := by
  intro resolver expr root other
  have isRoot : resolver.SpelledRoot root := ⟨9, 10, rfl⟩
  have old : expr.Everywhere fun part => part.id < 11 := by
    simp [expr, Expr.everywhere_mk, Node.children, Expr.id]
  have old' : other.Everywhere fun part => part.id < 11 := by
    have spelled : other = .mk 0 (.binary .add
        (.mk 1 (.member (some (.mk 2 (.unary .dynamic (.mk 3 (.member none "target"))))) "A"))
        (.mk 4 (.call (some root) "F" [.mk 5 (.lambda ["x"]
          (.mk 6 (.binary .add (.mk 7 (.member none "x"))
            (.mk 8 (.member (some root) "A")))))]))) := rfl
    simp [spelled, root, Expr.everywhere_mk, Node.children, Expr.id]
  let flags : MemberFlags := { observable := true, target := true }
  let member : Expr := .mk 11 (.placeholder ⟨"A", .target, flags, .member, none⟩)
  have resolved : (resolver.resolve callFunction expr {} 11).1 = .ok (.mk 17 (.binary .add member
      (.mk 16 (.call (some (.mk 12 (.placeholder ⟨"", .target, flags, .call, none⟩))) "F"
        [.mk 15 (.lambda ["x"] (.mk 14 (.binary .add (.mk 13 (.parameter "x")) member)))])))) := rfl
  obtain ⟨-, ⟨error, -, failed, -⟩ | ⟨failed, -⟩ |
      ⟨result, result', ended, ended', masks, placeholders, -⟩⟩ :=
    resolve_spelled (spelled_spellOut isRoot expr []) old old' callFunction {}
  · rw [resolved] at failed
    cases failed
  · rw [resolved] at failed
    cases failed
  · refine ⟨result, result', ended, ended', masks, ?_⟩
    rw [← placeholders]
    rw [resolved] at ended
    cases ended
    rfl

end Resolver

end Tether

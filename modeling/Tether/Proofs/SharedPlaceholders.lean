import Tether.Proofs.ChainMeaning
import Tether.Proofs.Preparation

set_option autoImplicit false

/- Which chain of a tree was replaced by which node, and what two chains with one placeholder have
in common: their root, as far as roots are told apart. Two types are one root if their static
members report the same tag. -/
namespace Tether

namespace Node

/-- The children of a node beside those of the node it became. A receiver that had to be added has
nothing beside it. -/
def paired {α : Type} : Node α → Node α → List (α × α)
  | .index target arguments, .index target' arguments'
  | .call target _ arguments, .call target' _ arguments' =>
      target.toList.zip target'.toList ++ arguments.zip arguments'
  | node, node' => node.children.zip node'.children

end Node

namespace Resolver

/-- In the resolution of a tree to its result, a chain was replaced by a node. It may be the whole
tree, the default root that an index or a call was left to, or a chain further down, as long as the
tree is no chain itself. -/
inductive Replaced (resolver : Resolver) :
    List String → Expr → Expr → Chain → Expr → Prop where
  | here {scope : List String} {expr result : Expr} {chain : Chain}
      (flat : resolver.flatten scope expr = .ok (some chain)) :
      Replaced resolver scope expr result chain result
  | ofIndex {scope : List String} {id id' : NodeId} {arguments arguments' : List Expr}
      {receiver : Expr}
      (unchained : resolver.flatten scope (.mk id (.index none arguments)) = .ok none) :
      Replaced resolver scope (.mk id (.index none arguments))
        (.mk id' (.index (some receiver) arguments')) { root := resolver.defaultRoot } receiver
  | ofCall {scope : List String} {id id' : NodeId} {method : String}
      {arguments arguments' : List Expr} {receiver : Expr} :
      Replaced resolver scope (.mk id (.call none method arguments))
        (.mk id' (.call (some receiver) method arguments')) { root := resolver.defaultRoot }
        receiver
  | inside {scope : List String} {id id' : NodeId} {node node' : Node Expr} {child child' : Expr}
      {chain : Chain} {part : Expr}
      (unchained : resolver.flatten scope (.mk id node) = .ok none)
      (beside : (child, child') ∈ node.paired node')
      (inner : Replaced resolver (node.scopeBelow scope) child child' chain part) :
      Replaced resolver scope (.mk id node) (.mk id' node') chain part

/-- A chain of the tree that is not part of a longer one. -/
inductive Maximal (resolver : Resolver) : List String → Expr → Chain → Prop where
  | here {scope : List String} {expr : Expr} {chain : Chain}
      (flat : resolver.flatten scope expr = .ok (some chain)) : Maximal resolver scope expr chain
  | inside {scope : List String} {id : NodeId} {node : Node Expr} {child : Expr} {chain : Chain}
      (unchained : resolver.flatten scope (.mk id node) = .ok none)
      (found : child ∈ node.children)
      (inner : Maximal resolver (node.scopeBelow scope) child chain) :
      Maximal resolver scope (.mk id node) chain

section Leaves

variable {resolver : Resolver} {leaf : Chain → Expr → Prop} {scope : List String}
  {expr result : Expr} {chain : Chain}

/-- A tree that is a chain is replaced as a whole. -/
theorem Resolved.leaf_of_chain (resolved : Resolved resolver leaf scope expr result)
    (flat : resolver.flatten scope expr = .ok (some chain)) : leaf chain result := by
  cases resolved with
  | chain flat' stands =>
      rw [flat] at flat'
      cases flat'
      exact stands
  | constant | parameter | placeholder | call | binary | condition | lambda => cases flat
  | bound declared =>
      rw [flatten, if_pos declared] at flat
      cases flat
  | member name unchained =>
      rw [unchained] at flat
      cases flat
  | index unchained =>
      rw [unchained] at flat
      cases flat
  | unary computes =>
      rw [flatten, if_neg computes] at flat
      cases flat

/-- What a node and the node it became have beside each other belongs together, too. -/
theorem Resolved.beside {id id' : NodeId} {node node' : Node Expr}
    (resolved : Resolved resolver leaf scope (.mk id node) (.mk id' node'))
    (unchained : resolver.flatten scope (.mk id node) = .ok none) {child child' : Expr}
    (beside : (child, child') ∈ node.paired node') :
    Resolved resolver leaf (node.scopeBelow scope) child child' := by
  cases resolved with
  | chain flat =>
      rw [unchained] at flat
      cases flat
  | constant | parameter | bound | placeholder => cases beside
  | member _ _ inner | unary _ inner | lambda inner =>
      cases List.mem_singleton.mp beside
      exact inner
  | binary op first second =>
      simp only [Node.paired, Node.children, List.zip_cons_cons, List.zip_nil_right,
        List.mem_cons, List.not_mem_nil, or_false, Prod.mk.injEq] at beside
      rcases beside with ⟨rfl, rfl⟩ | ⟨rfl, rfl⟩
      · exact first
      · exact second
  | condition first second third =>
      simp only [Node.paired, Node.children, List.zip_cons_cons, List.zip_nil_right,
        List.mem_cons, List.not_mem_nil, or_false, Prod.mk.injEq] at beside
      rcases beside with ⟨rfl, rfl⟩ | ⟨rfl, rfl⟩ | ⟨rfl, rfl⟩
      · exact first
      · exact second
      · exact third
  | index _ _ owner _ each | call _ _ owner _ each =>
      rcases List.mem_append.mp beside with receiver | argument
      · obtain ⟨given, made⟩ := List.of_mem_zip receiver
        cases Option.mem_toList.mp made
        exact owner child (Option.mem_toList.mp given)
      · exact each (child, child') argument

/-- Whatever was replaced, the node stands for it. -/
theorem Replaced.stands {part : Expr} (replaced : Replaced resolver scope expr result chain part)
    (resolved : Resolved resolver leaf scope expr result) : leaf chain part := by
  induction replaced with
  | here flat => exact resolved.leaf_of_chain flat
  | ofIndex unchained =>
      cases resolved with
      | chain flat =>
          rw [unchained] at flat
          cases flat
      | index _ root => exact root rfl
  | ofCall =>
      cases resolved with
      | chain flat => cases flat
      | call _ root => exact root rfl
  | inside unchained beside _ ih => exact ih (resolved.beside unchained beside)

theorem exists_mem_zip {items others : List Expr} {child : Expr} (found : child ∈ items)
    (count : items.length ≤ others.length) : ∃ child', (child, child') ∈ items.zip others := by
  rw [← List.map_fst_zip count] at found
  obtain ⟨⟨_, child'⟩, placed, rfl⟩ := List.mem_map.mp found
  exact ⟨child', placed⟩

/-- A node that is no chain keeps a place for each of its children. -/
theorem Resolved.exists_beside {id : NodeId} {node : Node Expr}
    (resolved : Resolved resolver leaf scope (.mk id node) result)
    (unchained : resolver.flatten scope (.mk id node) = .ok none) {child : Expr}
    (found : child ∈ node.children) :
    ∃ id' node', result = .mk id' node' ∧ ∃ child', (child, child') ∈ node.paired node' := by
  cases resolved with
  | chain flat =>
      rw [unchained] at flat
      cases flat
  | constant | parameter | bound | placeholder => cases found
  | member | unary | binary | condition | lambda =>
      exact ⟨_, _, rfl, exists_mem_zip found (Nat.le_refl _)⟩
  | @index _ _ _ target target' _ _ _ _ _ count | @call _ _ _ target target' _ _ _ _ _ count =>
      refine ⟨_, _, rfl, ?_⟩
      rcases List.mem_append.mp found with receiver | argument
      · have room : target.toList.length ≤ (some target').toList.length := by
          cases target <;> simp
        obtain ⟨child', placed⟩ := exists_mem_zip receiver room
        exact ⟨child', List.mem_append_left _ placed⟩
      · obtain ⟨child', placed⟩ := exists_mem_zip argument (Nat.le_of_eq count)
        exact ⟨child', List.mem_append_right _ placed⟩

/-- Every such chain is replaced by some node. -/
theorem Maximal.replaced (maximal : Maximal resolver scope expr chain)
    (resolved : Resolved resolver leaf scope expr result) :
    ∃ part, Replaced resolver scope expr result chain part := by
  induction maximal generalizing result with
  | here flat => exact ⟨result, .here flat⟩
  | inside unchained found _ ih =>
      obtain ⟨id', node', rfl, child', beside⟩ := resolved.exists_beside unchained found
      obtain ⟨part, inner⟩ := ih (resolved.beside unchained beside)
      exact ⟨part, .inside unchained beside inner⟩

end Leaves

end Resolver

namespace Directory

/-- Types by the objects that hold their static members. -/
def ofObjects (types : List (String × ObjectRef)) (resources : List (String × Value)) : Directory :=
  .ofLists (types.map fun (name, statics) => .ofObject name statics) resources

theorem types_foldl_addResource (resources : List (String × Value)) (directory : Directory) :
    (resources.foldl (fun directory (name, value) => directory.addResource name value)
      directory).types = directory.types := by
  induction resources generalizing directory with
  | nil => rfl
  | cons resource resources ih => exact ih (directory.addResource resource.1 resource.2)

theorem mem_of_foldl_register {types : List NamedType} {directory : Directory} {name : String}
    {type : NamedType} (found : (types.foldl register directory).types.get? name = some type) :
    directory.types.get? name = some type ∨ type ∈ types := by
  induction types generalizing directory with
  | nil => exact .inl found
  | cons first types ih =>
      rcases ih found with known | later
      · change (directory.types.insert first.name first).get? name = some type at known
        rw [Table.get?_insert] at known
        split at known
        · cases known
          exact .inr List.mem_cons_self
        · exact .inl known
      · exact .inr (List.mem_cons_of_mem first later)

theorem types_ofObjects {types : List (String × ObjectRef)} {resources : List (String × Value)}
    {name : String} {type : NamedType}
    (found : (ofObjects types resources).types.get? name = some type) :
    ∃ entry ∈ types, type = .ofObject entry.1 entry.2 := by
  rw [ofObjects, ofLists, types_foldl_addResource] at found
  rcases mem_of_foldl_register found with empty | listed
  · cases empty
  · obtain ⟨entry, member, rfl⟩ := List.mem_map.mp listed
    exact ⟨entry, member, rfl⟩

end Directory

namespace Root

/-- Roots that are as the directory has them. -/
def Known (directory : Directory) : Root → Prop
  | .target | .source => True
  | .static name tag statics => ∃ key, directory.types.get? key = some ⟨name, tag, statics⟩
  | .resource name value => directory.resources.get? name = some value

/-- The same root, where `same` says which objects with static members are the same. -/
inductive Alike (same : ObjectRef → ObjectRef → Prop) : Root → Root → Prop where
  | target : Alike same .target .target
  | source : Alike same .source .source
  | static {name name' : String} {tag tag' : TypeTag} {first second : ObjectRef}
      (objects : same first second) :
      Alike same (.static name tag (.object first)) (.static name' tag' (.object second))
  | resource (name : String) (value : Value) :
      Alike same (.resource name value) (.resource name value)

/-- Roots with one key are the same, up to objects that report one tag. -/
theorem Known.alike {types : List (String × ObjectRef)} {resources : List (String × Value)}
    {first second : Root} (known : first.Known (.ofObjects types resources))
    (known' : second.Known (.ofObjects types resources)) (key : first.key = second.key)
    {same : ObjectRef → ObjectRef → Prop}
    (tags : ∀ entry ∈ types, ∀ entry' ∈ types, entry.2.tag = entry'.2.tag →
      same entry.2 entry'.2) : Alike same first second := by
  cases first with
  | target =>
      cases second <;> cases key
      exact .target
  | source =>
      cases second <;> cases key
      exact .source
  | static name tag statics =>
      cases second with
      | static name' tag' statics' =>
          obtain ⟨_, found⟩ := known
          obtain ⟨_, found'⟩ := known'
          obtain ⟨entry, listed, made⟩ := Directory.types_ofObjects found
          obtain ⟨entry', listed', made'⟩ := Directory.types_ofObjects found'
          cases made
          cases made'
          exact .static (tags entry listed entry' listed' (RootKey.static.inj key))
      | _ => cases key
  | resource name value =>
      cases second with
      | resource name' value' =>
          cases key
          have equal : some value = some value' := known.symm.trans known'
          cases equal
          exact .resource name value
      | _ => cases key

end Root

namespace Resolver

variable {resolver : Resolver}

theorem known_namedRoot {name : String} {isStatic : Bool} {chain : Chain}
    (found : resolver.namedRoot name isStatic = .ok chain) :
    chain.root.Known resolver.directory := by
  obtain ⟨-, target | source | ⟨type, listed, static⟩ | ⟨value, listed, resource⟩⟩ :=
    namedRoot_cases found
  · rw [target]
    trivial
  · rw [source]
    trivial
  · rw [static]
    exact ⟨name, listed⟩
  · rw [resource]
    exact listed

theorem known_defaultRoot (resolver : Resolver) :
    resolver.defaultRoot.Known resolver.directory := by
  simp only [defaultRoot]
  split <;> trivial

theorem Flattens.known {scope : List String} {expr : Expr} {chain : Chain}
    (flattens : Flattens resolver scope expr chain) : chain.root.Known resolver.directory := by
  induction flattens with
  | name | rootItem => exact known_defaultRoot resolver
  | member _ ih | item _ _ ih => exact ih
  | root _ found => exact known_namedRoot found

/-- Chains from roots of the directory, read in any world. -/
def knownTerms (κ : Type) (directory : Directory) (next : NodeId) : Terms κ where
  base := next
  good chain := chain.root.Known directory
  settled _ := True

section Sharing

variable {κ : Type} {call : Caller κ} {expr result : Expr} {next : NodeId} {world : World κ}

theorem resolve_resolved_known (old : expr.Everywhere (·.id < next))
    (ended : (resolver.resolve call expr world next).1 = .ok result) :
    let terms := knownTerms κ resolver.directory next
    ∃ after, Good call terms after ∧
      Resolved resolver (Leaf call terms after) [] expr result := by
  intro terms
  have fit : Fit resolver terms expr := fun part found =>
    ⟨old part found, fun _ _ flat => (flattens_of_flatten flat).known⟩
  exact resolve_resolved (fun _ _ _ _ _ _ _ _ _ _ => trivial) (known_defaultRoot resolver) fit
    trivial ended

/-- Chains with placeholders of one key start at roots of one key. -/
theorem Leaf.key_eq {terms : Terms κ} {progress : Progress κ} (good : Good call terms progress)
    {first second : Chain} {id id' : NodeId} {reference reference' : Placeholder}
    (leaf : Leaf call terms progress first (.mk id (.placeholder reference)))
    (leaf' : Leaf call terms progress second (.mk id' (.placeholder reference')))
    (shared : id = id' ∨ reference.key = reference'.key) : first.root.key = second.root.key := by
  cases leaf with
  | placeholder _ _ known _ root =>
      cases leaf' with
      | placeholder _ _ known' _ root' =>
          have key : reference.key = reference'.key := by
            rcases shared with same | key
            · exact good.distinct _ _ _ _ known known' same
            · exact key
          rw [← root, ← root']
          exact congrArg PlaceholderKey.root key

/-- Sharing a placeholder, or a slot, is sound up to tags. Two chains that one resolution replaces
by the same placeholder, or by placeholders of the same key, start at the same root: the target, the
source, one resource, or static members that report the same tag. If the tags tell the registered
objects apart, they are the static members of one object. -/
theorem shared_root_alike {settings : ResolveSettings} {types : List (String × ObjectRef)}
    {resources : List (String × Value)} {isTarget : Bool}
    (old : expr.Everywhere (·.id < next))
    (ended : (resolve { settings, directory := .ofObjects types resources, isTarget } call expr
      world next).1 = .ok result)
    {first second : Chain} {id id' : NodeId} {reference reference' : Placeholder}
    (replaced : Replaced { settings, directory := .ofObjects types resources, isTarget } [] expr
      result first (.mk id (.placeholder reference)))
    (replaced' : Replaced { settings, directory := .ofObjects types resources, isTarget } [] expr
      result second (.mk id' (.placeholder reference')))
    (shared : id = id' ∨ reference.key = reference'.key) :
    Root.Alike (fun object object' => object.tag = object'.tag) first.root second.root ∧
      ((∀ entry ∈ types, ∀ entry' ∈ types, entry.2.tag = entry'.2.tag → entry.2 = entry'.2) →
        Root.Alike (fun object object' => object = object') first.root second.root) := by
  obtain ⟨after, good, resolved⟩ := resolve_resolved_known old ended
  have leaf := replaced.stands resolved
  have leaf' := replaced'.stands resolved
  have key : first.root.key = second.root.key := leaf.key_eq good leaf' shared
  have known : first.root.Known (.ofObjects types resources) := leaf.sound
  have known' : second.root.Known (.ofObjects types resources) := leaf'.sound
  exact ⟨known.alike known' key fun _ _ _ _ tags => tags, known.alike known' key⟩

/-- Two types whose static members are different objects that report one tag. -/
def twinTypes : List (String × ObjectRef) :=
  [("A", ⟨0, "a", "Colors", ⟨0x1234⟩⟩), ("B", ⟨1, "b", "Colors", ⟨0x1234⟩⟩)]

/-- A member of each of the two types. -/
def twinSum : Expr :=
  let member (id : NodeId) (name : String) : Expr :=
    .mk id (.member (some (.mk (id + 1) (.unary .dynamic (.mk (id + 2) (.member none name))))) "X")
  .mk 0 (.binary .add (member 1 "A") (member 4 "B"))

theorem twinSum_old : twinSum.Everywhere (·.id < 7) := by
  simp [twinSum, Expr.everywhere_mk, Node.children, Expr.id]

theorem twinSum_replaced :
    let resolver : Resolver := { directory := .ofObjects twinTypes [] }
    ∃ result id reference first second,
      (resolver.resolve callFunction twinSum {} 7).1 = .ok result ∧
      Replaced resolver [] twinSum result first (.mk id (.placeholder reference)) ∧
      Replaced resolver [] twinSum result second (.mk id (.placeholder reference)) ∧
      first.root = .static "A" ⟨0x1234⟩ (.object ⟨0, "a", "Colors", ⟨0x1234⟩⟩) ∧
      second.root = .static "B" ⟨0x1234⟩ (.object ⟨1, "b", "Colors", ⟨0x1234⟩⟩) := by
  intro resolver
  let chain (name : String) (statics : ObjectRef) : Chain :=
    { root := .static name ⟨0x1234⟩ (.object statics), path := [.member "X"] }
  let reference : Placeholder :=
    { path := "X", root := (chain "A" ⟨0, "a", "Colors", ⟨0x1234⟩⟩).root
      flags := { observable := true }, kind := .member }
  let made : Expr := .mk 7 (.placeholder reference)
  have ended : (resolver.resolve callFunction twinSum {} 7).1 =
      .ok (.mk 8 (.binary .add made made)) := rfl
  refine ⟨_, 7, reference, chain "A" ⟨0, "a", "Colors", ⟨0x1234⟩⟩,
    chain "B" ⟨1, "b", "Colors", ⟨0x1234⟩⟩, ended, ?_, ?_, rfl, rfl⟩
  · exact .inside rfl List.mem_cons_self (.here rfl)
  · exact .inside rfl (List.mem_cons_of_mem _ List.mem_cons_self) (.here rfl)

theorem shared_root_alike_twins :
    let resolver : Resolver := { directory := .ofObjects twinTypes [] }
    ∃ result first second node, (resolver.resolve callFunction twinSum {} 7).1 = .ok result ∧
      Replaced resolver [] twinSum result first node ∧
      Replaced resolver [] twinSum result second node ∧
      Root.Alike (fun object object' => object.tag = object'.tag) first.root second.root := by
  intro resolver
  obtain ⟨result, id, reference, first, second, ended, replaced, replaced', -⟩ := twinSum_replaced
  refine ⟨result, first, second, _, ended, replaced, replaced', ?_⟩
  exact (shared_root_alike twinSum_old ended replaced replaced' (.inl rfl)).1

/-- The objects themselves are not told apart: both members become one placeholder. -/
theorem shared_root_two_objects :
    let resolver : Resolver := { directory := .ofObjects twinTypes [] }
    ∃ result first second node, (resolver.resolve callFunction twinSum {} 7).1 = .ok result ∧
      Replaced resolver [] twinSum result first node ∧
      Replaced resolver [] twinSum result second node ∧ node.placeholder?.isSome ∧
      ¬ Root.Alike (fun object object' => object = object') first.root second.root := by
  intro resolver
  obtain ⟨result, id, reference, first, second, ended, replaced, replaced', rootA, rootB⟩ :=
    twinSum_replaced
  refine ⟨result, first, second, _, ended, replaced, replaced', rfl, ?_⟩
  rw [rootA, rootB]
  intro alike
  cases alike with
  | static same => exact absurd (congrArg ObjectRef.id same) (by decide)

end Sharing

end Resolver

end Tether

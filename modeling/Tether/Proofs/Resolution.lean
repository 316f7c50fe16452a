import Tether.Proofs.Subtrees
import Tether.Resolve

set_option autoImplicit false

/- What a resolution makes of a tree. Every chain is replaced by a node that stands for it, every
name of a parameter by the parameter, and everything else keeps its form over resolved parts. The
nodes made are new, and there is one placeholder for each key and one constant for each static
key. -/
namespace Tether

/-- The value that a static path starts from. -/
def Root.start? : Root → Option Value
  | .target | .source => none
  | .static _ _ statics => some statics
  | .resource _ value => some value

/-- What a static chain is remembered by. -/
def Chain.staticKey? (chain : Chain) : Option (StaticKind × String) :=
  match chain.root with
  | .target | .source => none
  | .static name _ _ => some (.type, name ++ ":" ++ chain.path.text)
  | .resource name _ => some (.resource, name ++ ":" ++ chain.path.text)

/-- What a resolution can rely on: identities from `base` on are new, the chains that it meets are
`good`, and the worlds that it reads in are `settled`. -/
structure Terms (κ : Type) where
  base : NodeId
  good : Chain → Prop
  settled : World κ → Prop

namespace Resolver

variable {κ : Type} {α β : Type}

theorem ok_of_bind {first : Resolve κ α} {next : α → Resolve κ β} {scope : List String}
    {before after : Progress κ} {value : β}
    (ended : (first >>= next) scope before = .ok value after) :
    ∃ middle between, first scope before = .ok middle between ∧
      next middle scope between = .ok value after := by
  change EStateM.bind (first scope) (fun middle => next middle scope) before = _ at ended
  simp only [EStateM.bind] at ended
  split at ended
  · rename_i middle between started
    exact ⟨middle, between, started, ended⟩
  · cases ended

theorem bind_of_ok {first : Resolve κ α} {next : α → Resolve κ β} {scope : List String}
    {before between : Progress κ} {value : α} (ended : first scope before = .ok value between) :
    (first >>= next) scope before = next value scope between := by
  change EStateM.bind (first scope) (fun middle => next middle scope) before = _
  simp only [EStateM.bind, ended]

section Relation

variable (resolver : Resolver) (leaf : Chain → Expr → Prop)

/-- How a tree and what became of it belong together, under the parameters in scope. `leaf` says
which nodes stand for a chain. -/
inductive Resolved : List String → Expr → Expr → Prop where
  | constant {scope : List String} {id id' : NodeId} (value : Value) :
      Resolved scope (.mk id (.constant value)) (.mk id' (.constant value))
  | parameter {scope : List String} {id id' : NodeId} (name : String) :
      Resolved scope (.mk id (.parameter name)) (.mk id' (.parameter name))
  | bound {scope : List String} {id id' : NodeId} {name : String}
      (declared : scope.contains name) :
      Resolved scope (.mk id (.member none name)) (.mk id' (.parameter name))
  | placeholder {scope : List String} {id : NodeId} (reference : Placeholder) :
      Resolved scope (.mk id (.placeholder reference)) (.mk id (.placeholder reference))
  | chain {scope : List String} {expr result : Expr} {chain : Chain}
      (flat : resolver.flatten scope expr = .ok (some chain)) (stands : leaf chain result) :
      Resolved scope expr result
  | member {scope : List String} {id id' : NodeId} {target target' : Expr} (name : String)
      (unchained : resolver.flatten scope (.mk id (.member (some target) name)) = .ok none)
      (owner : Resolved scope target target') :
      Resolved scope (.mk id (.member (some target) name)) (.mk id' (.member (some target') name))
  | index {scope : List String} {id id' : NodeId} {target : Option Expr} {target' : Expr}
      {arguments arguments' : List Expr}
      (unchained : resolver.flatten scope (.mk id (.index target arguments)) = .ok none)
      (root : target = none → leaf { root := resolver.defaultRoot } target')
      (owner : ∀ expr, target = some expr → Resolved scope expr target')
      (count : arguments.length = arguments'.length)
      (each : ∀ pair ∈ arguments.zip arguments', Resolved scope pair.1 pair.2) :
      Resolved scope (.mk id (.index target arguments)) (.mk id' (.index (some target') arguments'))
  | call {scope : List String} {id id' : NodeId} {target : Option Expr} {target' : Expr}
      (method : String) {arguments arguments' : List Expr}
      (root : target = none → leaf { root := resolver.defaultRoot } target')
      (owner : ∀ expr, target = some expr → Resolved scope expr target')
      (count : arguments.length = arguments'.length)
      (each : ∀ pair ∈ arguments.zip arguments', Resolved scope pair.1 pair.2) :
      Resolved scope (.mk id (.call target method arguments))
        (.mk id' (.call (some target') method arguments'))
  | unary {scope : List String} {id id' : NodeId} {op : UnaryOp} {operand operand' : Expr}
      (computes : ¬ op.namesRoot) (inner : Resolved scope operand operand') :
      Resolved scope (.mk id (.unary op operand)) (.mk id' (.unary op operand'))
  | binary {scope : List String} {id id' : NodeId} (op : BinaryOp)
      {left right left' right' : Expr} (first : Resolved scope left left')
      (second : Resolved scope right right') :
      Resolved scope (.mk id (.binary op left right)) (.mk id' (.binary op left' right'))
  | condition {scope : List String} {id id' : NodeId}
      {test whenTrue whenFalse test' whenTrue' whenFalse' : Expr}
      (first : Resolved scope test test') (second : Resolved scope whenTrue whenTrue')
      (third : Resolved scope whenFalse whenFalse') :
      Resolved scope (.mk id (.condition test whenTrue whenFalse))
        (.mk id' (.condition test' whenTrue' whenFalse'))
  | lambda {scope : List String} {id id' : NodeId} {parameters : List String} {body body' : Expr}
      (inner : Resolved (scope ++ parameters) body body') :
      Resolved scope (.mk id (.lambda parameters body)) (.mk id' (.lambda parameters body'))

end Relation

/-- Only nodes of the result stand for chains. -/
theorem Resolved.mono {resolver : Resolver} {leaf leaf' : Chain → Expr → Prop}
    {scope : List String} {expr result : Expr}
    (resolved : Resolved resolver leaf scope expr result)
    (wider : ∀ node ∈ result.preorder, ∀ chain, leaf chain node → leaf' chain node) :
    Resolved resolver leaf' scope expr result := by
  have below {id : NodeId} {node : Node Expr} {child : Expr}
      (wider : ∀ part ∈ Expr.preorder (.mk id node), ∀ chain, leaf chain part → leaf' chain part)
      (found : child ∈ node.children) :
      ∀ part ∈ child.preorder, ∀ chain, leaf chain part → leaf' chain part :=
    fun part inside => wider part (Expr.preorder_subset found inside)
  induction resolved with
  | constant value => exact .constant value
  | parameter name => exact .parameter name
  | bound declared => exact .bound declared
  | placeholder reference => exact .placeholder reference
  | chain flat stands => exact .chain flat (wider _ (Expr.mem_preorder_self _) _ stands)
  | member name unchained _ owner =>
      exact .member name unchained (owner (below wider (by simp [Node.children])))
  | index unchained root _ count _ owner each =>
      refine .index unchained (fun missing => ?_) (fun expr found => owner expr found ?_) count
        fun pair found => each pair found ?_
      · exact below wider (by simp [Node.children]) _ (Expr.mem_preorder_self _) _ (root missing)
      · exact below wider (by simp [Node.children])
      · exact below wider (by simp [Node.children, (List.of_mem_zip found).2])
  | call method root _ count _ owner each =>
      refine .call method (fun missing => ?_) (fun expr found => owner expr found ?_) count
        fun pair found => each pair found ?_
      · exact below wider (by simp [Node.children]) _ (Expr.mem_preorder_self _) _ (root missing)
      · exact below wider (by simp [Node.children])
      · exact below wider (by simp [Node.children, (List.of_mem_zip found).2])
  | unary computes _ inner => exact .unary computes (inner (below wider (by simp [Node.children])))
  | binary op _ _ first second =>
      exact .binary op (first (below wider (by simp [Node.children])))
        (second (below wider (by simp [Node.children])))
  | condition _ _ _ first second third =>
      exact .condition (first (below wider (by simp [Node.children])))
        (second (below wider (by simp [Node.children])))
        (third (below wider (by simp [Node.children])))
  | lambda _ inner => exact .lambda (inner (below wider (by simp [Node.children])))

/-- The nodes in a table have identities of their own. -/
def Apart {γ : Type} [DecidableEq γ] (table : Table γ Expr) : Prop :=
  ∀ key key' node node', table.get? key = some node → table.get? key' = some node' →
    node.id = node'.id → key = key'

theorem Apart.insert {γ : Type} [DecidableEq γ] {table : Table γ Expr} (apart : Apart table)
    {made : Expr} (older : ∀ key node, table.get? key = some node → node.id < made.id)
    (key : γ) : Apart (table.insert key made) := by
  intro first second node node' known known' same
  rw [Table.get?_insert] at known known'
  split at known <;> split at known'
  · rename_i here there
    exact here.trans there.symm
  · cases known
    exact absurd same.symm (Nat.ne_of_lt (older second node' known'))
  · cases known'
    exact absurd same (Nat.ne_of_lt (older first node known))
  · exact apart first second node node' known known' same

section Invariant

variable (call : Caller κ) (terms : Terms κ)

/-- A value that was read along a good static chain. -/
def Evaluated (chain : Chain) (value : Value) : Prop :=
  ∃ start before after, chain.root.start? = some start ∧ terms.settled before ∧
    Path.read call start chain.path before = .ok value after

/-- What holds between the steps of a resolution. -/
structure Good (progress : Progress κ) : Prop where
  next : terms.base ≤ progress.next
  world : terms.settled progress.world
  members (key : PlaceholderKey) (node : Expr) (known : progress.members.get? key = some node) :
    ∃ id reference, node = .mk id (.placeholder reference) ∧ reference.key = key ∧
      terms.base ≤ id ∧ id < progress.next ∧
      ∃ chain, terms.good chain ∧ chain.root = reference.root ∧ chain.path.text = reference.path
  distinct (key key' : PlaceholderKey) (node node' : Expr)
    (known : progress.members.get? key = some node)
    (known' : progress.members.get? key' = some node') (same : node.id = node'.id) : key = key'
  statics (key : StaticKind × String) (node : Expr)
    (known : progress.statics.get? key = some node) :
    ∃ id value chain, node = .mk id (.constant value) ∧ terms.base ≤ id ∧ id < progress.next ∧
      terms.good chain ∧ chain.isStatic ∧ chain.staticKey? = some key ∧
      Evaluated call terms chain value
  folded : Apart progress.statics

/-- Nothing is forgotten. -/
structure Grows (before after : Progress κ) : Prop where
  next : before.next ≤ after.next
  members (key : PlaceholderKey) (node : Expr) (known : before.members.get? key = some node) :
    after.members.get? key = some node
  statics (key : StaticKind × String) (node : Expr)
    (known : before.statics.get? key = some node) : after.statics.get? key = some node

/-- The nodes that stand for a chain: its placeholder, the value read along a static one, or the
static members that it names. -/
inductive Leaf (progress : Progress κ) (chain : Chain) : Expr → Prop where
  | placeholder {id : NodeId} {reference : Placeholder} (sound : terms.good chain)
      (dynamic : chain.isStatic = false)
      (known : progress.members.get? reference.key = some (.mk id (.placeholder reference)))
      (path : reference.path = chain.path.text) (root : reference.root.key = chain.root.key) :
      Leaf progress chain (.mk id (.placeholder reference))
  | constant {id : NodeId} {value : Value} {other : Chain} (sound : terms.good chain)
      (static : chain.isStatic) (good : terms.good other) (otherStatic : other.isStatic)
      (same : other.staticKey? = chain.staticKey?) (keyed : chain.staticKey?.isSome)
      (evaluated : Evaluated call terms other value)
      (known : ∃ key, chain.staticKey? = some key ∧
        progress.statics.get? key = some (.mk id (.constant value))) :
      Leaf progress chain (.mk id (.constant value))
  | statics {id : NodeId} {name : String} {tag : TypeTag} {value : Value}
      (sound : terms.good chain) (dynamic : chain.isStatic = false)
      (root : chain.root = .static name tag value) (path : chain.path = []) :
      Leaf progress chain (.mk id (.constant value))

end Invariant

theorem Grows.refl (progress : Progress κ) : Grows progress progress :=
  ⟨Nat.le_refl _, fun _ _ known => known, fun _ _ known => known⟩

theorem Grows.trans {first second third : Progress κ} (earlier : Grows first second)
    (later : Grows second third) : Grows first third :=
  ⟨Nat.le_trans earlier.next later.next,
    fun key node known => later.members key node (earlier.members key node known),
    fun key node known => later.statics key node (earlier.statics key node known)⟩

variable {call : Caller κ} {terms : Terms κ} {resolver : Resolver} {scope : List String}
  {before after : Progress κ}

theorem Leaf.grows (grows : Grows before after) {chain : Chain} {node : Expr}
    (leaf : Leaf call terms before chain node) : Leaf call terms after chain node := by
  cases leaf with
  | placeholder sound dynamic known path root =>
      exact .placeholder sound dynamic (grows.members _ _ known) path root
  | constant sound static good otherStatic same keyed evaluated known =>
      obtain ⟨key, own, known⟩ := known
      exact .constant sound static good otherStatic same keyed evaluated
        ⟨key, own, grows.statics _ _ known⟩
  | statics sound dynamic root path => exact .statics sound dynamic root path

theorem Leaf.sound {chain : Chain} {node : Expr} (leaf : Leaf call terms before chain node) :
    terms.good chain := by
  cases leaf <;> assumption

/-- The result of a step that makes a node for a chain. -/
structure Stood (call : Caller κ) (terms : Terms κ) (before after : Progress κ) (chain : Chain)
    (node : Expr) : Prop where
  good : Good call terms after
  grows : Grows before after
  new : terms.base ≤ node.id
  leaf : Leaf call terms after chain node

theorem Good.fresh (good : Good call terms before) :
    Good call terms { before with next := before.next + 1 } where
  next := Nat.le_succ_of_le good.next
  world := good.world
  members key node known := by
    obtain ⟨id, reference, made, same, new, used, origin⟩ := good.members key node known
    exact ⟨id, reference, made, same, new, Nat.lt_succ_of_lt used, origin⟩
  distinct := good.distinct
  statics key node known := by
    obtain ⟨id, value, chain, made, new, used, origin⟩ := good.statics key node known
    exact ⟨id, value, chain, made, new, Nat.lt_succ_of_lt used, origin⟩
  folded := good.folded

theorem Grows.fresh (before : Progress κ) :
    Grows before { before with next := before.next + 1 } :=
  ⟨Nat.le_succ _, fun _ _ known => known, fun _ _ known => known⟩

/-- The state after a placeholder with a key of its own was made. -/
theorem Good.remember (good : Good call terms before) {chain : Chain} (sound : terms.good chain)
    {reference : Placeholder} (path : reference.path = chain.path.text)
    (root : reference.root = chain.root) :
    Good call terms
      { before with
        next := before.next + 1
        members := before.members.insert reference.key
          (.mk before.next (.placeholder reference)) } where
  next := Nat.le_succ_of_le good.next
  world := good.world
  members key node known := by
    rw [Table.get?_insert] at known
    split at known
    · rename_i same
      cases known
      exact ⟨_, reference, rfl, same.symm, good.next, Nat.lt_succ_self _, chain, sound, root.symm,
        path.symm⟩
    · obtain ⟨id, known, made, same, new, used, origin⟩ := good.members key node known
      exact ⟨id, known, made, same, new, Nat.lt_succ_of_lt used, origin⟩
  distinct := by
    refine Apart.insert good.distinct (fun key node known => ?_) _
    obtain ⟨id, reference, rfl, -, -, used, -⟩ := good.members key node known
    exact used
  statics := good.fresh.statics
  folded := good.folded

/-- The state after the constant for a static chain was made, read on the way to a later world. -/
theorem Good.fold (good : Good call terms before) {chain : Chain} (sound : terms.good chain)
    (static : chain.isStatic) {key : StaticKind × String} (keyed : chain.staticKey? = some key)
    {value : Value} (evaluated : Evaluated call terms chain value) {world : World κ}
    (settled : terms.settled world) :
    Good call terms
      { before with
        world
        next := before.next + 1
        statics := before.statics.insert key (.mk before.next (.constant value)) } where
  next := Nat.le_succ_of_le good.next
  world := settled
  members := good.fresh.members
  distinct := good.distinct
  statics other node known := by
    rw [Table.get?_insert] at known
    split at known
    · rename_i same
      cases known
      exact ⟨_, value, chain, rfl, good.next, Nat.lt_succ_self _, sound, static,
        keyed.trans (by rw [same]), evaluated⟩
    · exact good.fresh.statics other node known
  folded := by
    refine good.folded.insert (fun other node known => ?_) key
    obtain ⟨id, _, _, rfl, -, used, -⟩ := good.statics other node known
    exact used

theorem placeholder_stood (good : Good call terms before) {chain : Chain}
    (sound : terms.good chain) (dynamic : chain.isStatic = false) {kind : Kind}
    {method : Option String} {node : Expr}
    (ran : resolver.placeholder chain.path.text chain.root kind method scope before =
      .ok node after) : Stood call terms before after chain node := by
  simp only [Resolver.placeholder] at ran
  obtain ⟨progress, between, got, ran⟩ := ok_of_bind ran
  cases got
  cases found : before.members.get?
      (resolver.reference chain.path.text chain.root kind method).key with
  | some known =>
    rw [found] at ran
    cases ran
    obtain ⟨id, reference, rfl, same, new, -, -⟩ := good.members _ _ found
    rw [← same] at found
    exact ⟨good, Grows.refl _, new, .placeholder sound dynamic found
      (congrArg PlaceholderKey.path same) (congrArg PlaceholderKey.root same)⟩
  | none =>
    rw [found] at ran
    obtain ⟨made, between, making, ran⟩ := ok_of_bind ran
    cases making
    obtain ⟨_, between, changed, ran⟩ := ok_of_bind ran
    cases changed
    cases ran
    refine ⟨good.remember sound rfl rfl,
      ⟨Nat.le_succ _, fun key node known => ?_, fun _ _ known => known⟩, good.next,
      .placeholder sound dynamic ?_ rfl rfl⟩
    · change (before.members.insert _ _).get? key = some node
      rw [Table.get?_insert]
      split
      · rename_i same
        rw [same, found] at known
        cases known
      · exact known
    · change (before.members.insert _ _).get? _ = _
      rw [Table.get?_insert, if_pos rfl]

/-- Reading along good static chains leaves a settled world. -/
def ReadsSettled (call : Caller κ) (terms : Terms κ) : Prop :=
  ∀ chain start before value after, terms.good chain → chain.isStatic →
    chain.root.start? = some start → terms.settled before →
      Path.read call start chain.path before = .ok value after → terms.settled after

theorem readPath_eq_ok {expression : String} {start value : Value} {path : Path}
    (ran : readPath call expression start path scope before = .ok value after) :
    ∃ world, Path.read call start path before.world = .ok value world ∧
      after = { before with world } := by
  obtain ⟨progress, between, got, ran⟩ := ok_of_bind ran
  cases got
  cases read : Path.read call start path before.world with
  | ok found world =>
      simp only [EStateM.run, read] at ran
      obtain ⟨_, between, changed, ran⟩ := ok_of_bind ran
      cases changed
      cases ran
      exact ⟨world, rfl, rfl⟩
  | error error world =>
      simp only [EStateM.run, read] at ran
      obtain ⟨_, between, changed, ran⟩ := ok_of_bind ran
      cases ran

theorem staticValue_stood (reads : ReadsSettled call terms) (good : Good call terms before)
    {chain : Chain} (sound : terms.good chain) (static : chain.isStatic)
    {key : StaticKind × String}
    (keyed : chain.staticKey? = some key) {start : Value}
    (starts : chain.root.start? = some start) {expression : String} {node : Expr}
    (ran : staticValue call expression key start chain.path scope before = .ok node after) :
    Stood call terms before after chain node := by
  have hasKey : chain.staticKey?.isSome := by rw [keyed]; rfl
  simp only [staticValue] at ran
  obtain ⟨progress, between, got, ran⟩ := ok_of_bind ran
  cases got
  cases found : before.statics.get? key with
  | some known =>
      rw [found] at ran
      cases ran
      -- Computed before, for a chain with the same key.
      obtain ⟨id, value, other, rfl, new, -, otherGood, otherStatic, otherKey, evaluated⟩ :=
        good.statics key node found
      exact ⟨good, Grows.refl _, new, .constant sound static otherGood otherStatic
        (otherKey.trans keyed.symm) hasKey evaluated ⟨key, keyed, found⟩⟩
  | none =>
      rw [found] at ran
      obtain ⟨value, between, reading, ran⟩ := ok_of_bind ran
      obtain ⟨world, read, rfl⟩ := readPath_eq_ok reading
      obtain ⟨made, between, making, ran⟩ := ok_of_bind ran
      cases making
      obtain ⟨_, between, changed, ran⟩ := ok_of_bind ran
      cases changed
      cases ran
      have evaluated : Evaluated call terms chain value :=
        ⟨start, before.world, world, starts, good.world, read⟩
      have settled : terms.settled world :=
        reads chain start before.world value world sound static starts good.world read
      refine ⟨good.fold sound static keyed evaluated settled,
        ⟨Nat.le_succ _, fun _ _ known => known, fun other node known => ?_⟩, good.next,
        .constant sound static sound static rfl hasKey evaluated ⟨key, keyed, ?_⟩⟩
      · change (before.statics.insert key _).get? other = some node
        rw [Table.get?_insert]
        split
        · rename_i same
          rw [same, found] at known
          cases known
        · exact known
      · change (before.statics.insert key _).get? key = _
        rw [Table.get?_insert, if_pos rfl]

theorem foldStatic_stood (reads : ReadsSettled call terms) (good : Good call terms before)
    {chain : Chain} (sound : terms.good chain) (static : chain.isStatic) {node : Expr}
    (ran : foldStatic call chain.root chain.path scope before = .ok node after) :
    Stood call terms before after chain node := by
  obtain ⟨root, isStatic, path⟩ := chain
  cases root with
  | target | source => cases ran
  | static name tag statics => exact staticValue_stood reads good sound static rfl rfl ran
  | resource name value => exact staticValue_stood reads good sound static rfl rfl ran

theorem lift_eq_ok {result : Except ResolveError α} {value : α}
    (ran : (liftM result : Resolve κ α) scope before = .ok value after) :
    result = .ok value ∧ after = before := by
  cases result with
  | ok found =>
      cases ran
      exact ⟨rfl, rfl⟩
  | error error => cases ran

theorem materialize_stood (reads : ReadsSettled call terms) (good : Good call terms before)
    {chain : Chain} (sound : terms.good chain) {kind : Kind} {method : Option String}
    {node : Expr}
    (ran : resolver.materialize call chain kind method scope before = .ok node after) :
    Stood call terms before after chain node := by
  simp only [materialize] at ran
  split at ran
  · rename_i static
    exact foldStatic_stood reads good sound static ran
  · rename_i dynamic
    have dynamic : chain.isStatic = false := by simpa using dynamic
    obtain ⟨root, isStatic, path⟩ := chain
    cases root with
    | target | source | resource => exact placeholder_stood good sound dynamic ran
    | static name tag statics =>
        cases path with
        | cons segment path => exact placeholder_stood good sound dynamic ran
        | nil =>
            cases ran
            exact ⟨good.fresh, Grows.fresh before, good.next, .statics sound dynamic rfl rfl⟩

theorem replaceChain_cases {expr : Expr} {result : Option Expr}
    (ran : resolver.replaceChain call expr scope before = .ok result after) :
    (∃ chain node, resolver.flatten scope expr = .ok (some chain) ∧ result = some node ∧
      resolver.materialize call chain expr.kind none scope before = .ok node after) ∨
    (resolver.flatten scope expr = .ok none ∧ result = none ∧ after = before) := by
  simp only [replaceChain] at ran
  obtain ⟨here, between, read, ran⟩ := ok_of_bind ran
  cases read
  obtain ⟨chain, between, flat, ran⟩ := ok_of_bind ran
  obtain ⟨flattened, rfl⟩ := lift_eq_ok flat
  cases chain with
  | none =>
      cases ran
      exact .inr ⟨flattened, rfl, rfl⟩
  | some chain =>
      simp only [map_eq_pure_bind] at ran
      obtain ⟨node, between, made, ran⟩ := ok_of_bind ran
      cases ran
      exact .inl ⟨chain, node, flattened, rfl, made⟩

end Resolver

end Tether

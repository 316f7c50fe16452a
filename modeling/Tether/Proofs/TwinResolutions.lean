import Mathlib.Data.List.Forall2
import Tether.Proofs.Meaning
import Tether.Proofs.ResolutionWalk

set_option autoImplicit false

/- Two resolutions side by side. They may remember different static chains, and so number their
nodes differently. As long as chains with one key read the same, they fail alike or end with the
same tree up to identities. -/
namespace Tether

namespace Node

variable {α β γ : Type}

theorem map_map (f : α → β) (g : β → γ) (node : Node α) :
    (node.map f).map g = node.map fun child => g (f child) := by
  cases node with
  | member target | index target | call target =>
      cases target <;> simp [Node.map, Function.comp_def]
  | _ => rfl

theorem map_overlay (f : α → β) (items replacements : List α) :
    (overlay items replacements).map f = overlay (items.map f) (replacements.map f) := by
  simp [overlay, List.map_take, List.map_drop]

theorem withChildren?_map (f : α → β) (node : Node α) (children : List α) :
    (node.map f).withChildren? (children.map f) =
      (node.withChildren? children).map (Node.map f) := by
  cases node with
  | index target | call target =>
      cases target <;> simp [withChildren?, Node.map, map_overlay]
  | member target => cases target <;> simp [withChildren?, Node.map]
  | unary | binary | condition | lambda => simp [withChildren?, Node.map]
  | constant | parameter | placeholder => rfl

end Node

namespace Expr

/-- The tree without the identities of its nodes. -/
def erase : Expr → Expr :=
  para fun _ node => .mk 0 (node.map Prod.snd)

theorem erase_mk (id : NodeId) (node : Node Expr) :
    erase (.mk id node) = .mk 0 (node.map erase) := by
  rw [erase, para_mk, Node.map_map]

end Expr

/-- What stands at the end of a chain, read in a world. -/
def Chain.evaluate {κ : Type} (call : Caller κ) (world : World κ) (chain : Chain) :
    Except (Halt EvalError) Value :=
  (Eval.observe (Path.read call (chain.root.start?.getD .null) chain.path) world).1

namespace Resolver

/-- Trees of two resolutions: one tree that both have left alone, or two new ones that differ in
identities only. -/
def Twin (base : NodeId) (first second : Expr) : Prop :=
  first = second ∨ base ≤ first.id ∧ base ≤ second.id ∧ first.erase = second.erase

section Twins

variable {base : NodeId} {first second : Expr}

theorem Twin.refl (base : NodeId) (expr : Expr) : Twin base expr expr := .inl rfl

theorem Twin.erase_eq (twin : Twin base first second) : first.erase = second.erase := by
  rcases twin with same | ⟨-, -, same⟩
  · rw [same]
  · exact same

/-- Which of the two is compared with a node from before makes no difference. -/
theorem Twin.id_eq_iff (twin : Twin base first second) {id : NodeId} (old : id < base) :
    first.id = id ↔ second.id = id := by
  rcases twin with same | ⟨new, new', -⟩
  · rw [same]
  · have apart : first.id ≠ id := Nat.ne_of_gt (Nat.lt_of_lt_of_le old new)
    have apart' : second.id ≠ id := Nat.ne_of_gt (Nat.lt_of_lt_of_le old new')
    exact iff_of_false apart apart'

theorem erase_eq_of_twins {results results' : List Expr}
    (twins : List.Forall₂ (Twin base) results results') :
    results.map Expr.erase = results'.map Expr.erase := by
  induction twins with
  | nil => rfl
  | cons twin _ ih => rw [List.map_cons, List.map_cons, twin.erase_eq, ih]

theorem ids_eq_iff_of_twins {results results' : List Expr}
    (twins : List.Forall₂ (Twin base) results results') {exprs : List Expr}
    (old : ∀ expr ∈ exprs, expr.id < base) :
    results.map Expr.id = exprs.map Expr.id ↔ results'.map Expr.id = exprs.map Expr.id := by
  induction twins generalizing exprs with
  | nil => exact Iff.rfl
  | cons twin _ ih =>
      cases exprs with
      | nil => simp
      | cons expr exprs =>
          rw [List.forall_mem_cons] at old
          simp only [List.map_cons, List.cons.injEq]
          exact and_congr (twin.id_eq_iff old.1) (ih old.2)

end Twins

section Alike

variable {κ α β : Type}

/-- What two resolutions have in common between their steps: each is in order, and they have made
the same placeholders. -/
structure Aligned (call : Caller κ) (terms : Terms κ) (first second : Progress κ) : Prop where
  left : Good call terms first
  right : Good call terms second
  members (key : PlaceholderKey) :
    (first.members.get? key).map Expr.erase = (second.members.get? key).map Expr.erase

/-- Both steps halt alike, or both end with related results. -/
inductive Ends (call : Caller κ) (terms : Terms κ) (related : α → β → Prop) :
    EStateM.Result (Halt ResolveError) (Progress κ) α →
      EStateM.Result (Halt ResolveError) (Progress κ) β → Prop where
  | ok {value : α} {value' : β} {after after' : Progress κ} (results : related value value')
      (aligned : Aligned call terms after after') :
      Ends call terms related (.ok value after) (.ok value' after')
  | error (halt : Halt ResolveError) {after after' : Progress κ} :
      Ends call terms related (.error halt after) (.error halt after')

/-- Steps that end alike from aligned states. -/
def Alike (call : Caller κ) (terms : Terms κ) (related : α → β → Prop) (first : Resolve κ α)
    (second : Resolve κ β) : Prop :=
  ∀ scope before before', Aligned call terms before before' →
    Ends call terms related (first scope before) (second scope before')

variable {call : Caller κ} {terms : Terms κ}

theorem Alike.pure {related : α → β → Prop} {value : α} {value' : β}
    (results : related value value') :
    Alike call terms related (Pure.pure value) (Pure.pure value') :=
  fun _ _ _ aligned => .ok results aligned

theorem Alike.bind {γ δ : Type} {related : α → β → Prop} {related' : γ → δ → Prop}
    {first : Resolve κ α} {second : Resolve κ β} {next : α → Resolve κ γ} {next' : β → Resolve κ δ}
    (start : Alike call terms related first second)
    (rest : ∀ value value', related value value' →
      Alike call terms related' (next value) (next' value')) :
    Alike call terms related' (first >>= next) (second >>= next') := by
  intro scope before before' aligned
  have started := start scope before before' aligned
  change Ends call terms related'
    (EStateM.bind (first scope) (fun value => next value scope) before)
    (EStateM.bind (second scope) (fun value => next' value scope) before')
  simp only [EStateM.bind]
  revert started
  generalize first scope before = run
  generalize second scope before' = run'
  intro started
  cases started with
  | ok results middle => exact rest _ _ results scope _ _ middle
  | error error => exact .error error

theorem Alike.read :
    Alike call terms (fun scope scope' => scope = scope')
      (MonadReader.read : Resolve κ (List String)) MonadReader.read :=
  fun _ _ _ aligned => .ok rfl aligned

theorem Alike.ite {related : α → β → Prop} {condition condition' : Prop} [Decidable condition]
    [Decidable condition'] (agree : condition ↔ condition') {first other : Resolve κ α}
    {second other' : Resolve κ β} (yes : Alike call terms related first second)
    (no : Alike call terms related other other') :
    Alike call terms related (if condition then first else other)
      (if condition' then second else other') := by
  by_cases holds : condition
  · rw [if_pos holds, if_pos (agree.mp holds)]
    exact yes
  · rw [if_neg holds, if_neg (mt agree.mpr holds)]
    exact no

theorem Alike.mapM {related : α → β → Prop} {items : List Expr} {first : Expr → Resolve κ α}
    {second : Expr → Resolve κ β}
    (each : ∀ item ∈ items, Alike call terms related (first item) (second item)) :
    Alike call terms (List.Forall₂ related) (items.mapM first) (items.mapM second) := by
  induction items with
  | nil => exact .pure .nil
  | cons item items ih =>
      rw [List.forall_mem_cons] at each
      rw [List.mapM_cons, List.mapM_cons]
      refine each.1.bind fun value value' results => ?_
      exact (ih each.2).bind fun values values' others => .pure (.cons results others)

theorem Aligned.fresh {first second : Progress κ} (aligned : Aligned call terms first second) :
    Aligned call terms { first with next := first.next + 1 }
      { second with next := second.next + 1 } :=
  ⟨aligned.left.fresh, aligned.right.fresh, aligned.members⟩

theorem alike_newNode {node node' : Node Expr}
    (same : node.map Expr.erase = node'.map Expr.erase) :
    Alike call terms (Twin terms.base) (newNode node) (newNode node') := by
  intro scope before before' aligned
  refine .ok (.inr ⟨aligned.left.next, aligned.right.next, ?_⟩) aligned.fresh
  rw [Expr.erase_mk, Expr.erase_mk, same]

end Alike

section Statics

variable {κ : Type} {call : Caller κ} {terms : Terms κ} {world : World κ} {chain : Chain}

theorem evaluate_of_read {before after : World κ} {start value : Value}
    (starts : chain.root.start? = some start)
    (read : Path.read call start chain.path before = .ok value after) :
    chain.evaluate call before = .ok value := by
  simp only [Chain.evaluate, Eval.observe, starts, Option.getD_some, read]

theorem evaluate_of_failed {before after : World κ} {start : Value} {halt : Halt EvalError}
    (starts : chain.root.start? = some start)
    (failed : Path.read call start chain.path before = .error halt after) :
    chain.evaluate call before = .error halt := by
  simp only [Chain.evaluate, Eval.observe, starts, Option.getD_some, failed]

/-- What makes it invisible that static chains are remembered: each reads the same at all times, and
those with one key read the same. -/
structure Transparent (call : Caller κ) (terms : Terms κ) (world : World κ) : Prop where
  settles : ReadsSettled call terms
  steady (chain : Chain) (before : World κ) (sound : terms.good chain) (static : chain.isStatic)
    (settled : terms.settled before) : chain.evaluate call before = chain.evaluate call world
  keyed (first second : Chain) (key : StaticKind × String) (good : terms.good first)
    (good' : terms.good second) (static : first.isStatic) (static' : second.isStatic)
    (key₁ : first.staticKey? = some key) (key₂ : second.staticKey? = some key) :
    first.evaluate call world = second.evaluate call world

/-- A value that was read along a chain is the chain's own. -/
theorem Evaluated.evaluate_eq (transparent : Transparent call terms world)
    (sound : terms.good chain) (static : chain.isStatic) {value : Value}
    (evaluated : Evaluated call terms chain value) : chain.evaluate call world = .ok value := by
  obtain ⟨start, before, after, starts, settled, read⟩ := evaluated
  rw [← transparent.steady chain before sound static settled]
  exact evaluate_of_read starts read

variable {expression : String} {scope : List String} {before : Progress κ}

theorem readPath_of_ok {start value : Value} {path : Path} {after : World κ}
    (read : Path.read call start path before.world = .ok value after) :
    readPath call expression start path scope before =
      .ok value { before with world := after } := by
  have state : (get : Resolve κ (Progress κ)) scope before = .ok before before := rfl
  rw [readPath, bind_of_ok state]
  simp only [EStateM.run, read]
  rfl

theorem readPath_of_error {start : Value} {path : Path} {halt : Halt EvalError} {after : World κ}
    (failed : Path.read call start path before.world = .error halt after) :
    readPath call expression start path scope before =
      .error (halt.map fun error => .staticEvaluation expression error.message)
        { before with world := after } := by
  have state : (get : Resolve κ (Progress κ)) scope before = .ok before before := rfl
  rw [readPath, bind_of_ok state]
  simp only [EStateM.run, failed]
  rfl

theorem bind_of_error {α β : Type} {first : Resolve κ α} {next : α → Resolve κ β}
    {between : Progress κ} {halt : Halt ResolveError}
    (failed : first scope before = .error halt between) :
    (first >>= next) scope before = .error halt between := by
  change EStateM.bind (first scope) (fun middle => next middle scope) before = _
  simp only [EStateM.bind, failed]

/-- How the folding of a static chain ends, whatever is remembered. -/
theorem staticValue_ends (expression : String) (scope : List String)
    (transparent : Transparent call terms world) (good : Good call terms before)
    (sound : terms.good chain) (static : chain.isStatic) {key : StaticKind × String}
    (keyed : chain.staticKey? = some key) {start : Value}
    (starts : chain.root.start? = some start) :
    match chain.evaluate call world with
    | .ok value =>
        ∃ id after, after.members = before.members ∧
          staticValue call expression key start chain.path scope before =
            .ok (.mk id (.constant value)) after
    | .error halt =>
        ∃ after, staticValue call expression key start chain.path scope before =
          .error (halt.map fun error => .staticEvaluation expression error.message) after := by
  have state : (get : Resolve κ (Progress κ)) scope before = .ok before before := rfl
  rw [staticValue, bind_of_ok state]
  cases found : before.statics.get? key with
  | some known =>
      obtain ⟨id, value, other, rfl, -, -, otherGood, otherStatic, otherKey, evaluated⟩ :=
        good.statics key known found
      rw [transparent.keyed chain other key sound otherGood static otherStatic keyed otherKey,
        evaluated.evaluate_eq transparent otherGood otherStatic]
      exact ⟨id, before, rfl, rfl⟩
  | none =>
      rw [← transparent.steady chain before.world sound static good.world]
      cases read : Path.read call start chain.path before.world with
      | ok value after =>
          rw [evaluate_of_read starts read]
          let folded : Expr := .mk before.next (.constant value)
          let remembered : Progress κ :=
            { before with
              world := after
              next := before.next + 1
              statics := before.statics.insert key folded }
          exact ⟨before.next, remembered, rfl, bind_of_ok (readPath_of_ok read)⟩
      | error halt after =>
          rw [evaluate_of_failed starts read]
          exact ⟨_, bind_of_error (readPath_of_error read)⟩

/-- Folding a static chain ends alike with any two memories. -/
theorem alike_staticValue (transparent : Transparent call terms world) (sound : terms.good chain)
    (static : chain.isStatic) {key : StaticKind × String} (keyed : chain.staticKey? = some key)
    {start : Value} (starts : chain.root.start? = some start) :
    Alike call terms (Twin terms.base) (staticValue call expression key start chain.path)
      (staticValue call expression key start chain.path) := by
  intro scope before before' aligned
  have ends {progress : Progress κ} (good : Good call terms progress) :=
    staticValue_ends expression scope transparent good sound static keyed starts
  have left := ends aligned.left
  have right := ends aligned.right
  cases evaluated : chain.evaluate call world with
  | ok value =>
      rw [evaluated] at left right
      obtain ⟨id, after, members, ran⟩ := left
      obtain ⟨id', after', members', ran'⟩ := right
      have stood := staticValue_stood transparent.settles aligned.left sound static keyed starts ran
      have stood' :=
        staticValue_stood transparent.settles aligned.right sound static keyed starts ran'
      rw [ran, ran']
      refine .ok (.inr ⟨stood.new, stood'.new, rfl⟩) ⟨stood.good, stood'.good, fun key => ?_⟩
      rw [members, members']
      exact aligned.members key
  | error error =>
      rw [evaluated] at left right
      obtain ⟨after, ran⟩ := left
      obtain ⟨after', ran'⟩ := right
      rw [ran, ran']
      exact .error _

theorem alike_foldStatic (transparent : Transparent call terms world) (sound : terms.good chain)
    (static : chain.isStatic) :
    Alike call terms (Twin terms.base) (foldStatic call chain.root chain.path)
      (foldStatic call chain.root chain.path) := by
  obtain ⟨root, isStatic, path⟩ := chain
  cases root with
  | target | source => exact fun _ _ _ _ => .error _
  | static name tag statics => exact alike_staticValue transparent sound static rfl rfl
  | resource name value => exact alike_staticValue transparent sound static rfl rfl

end Statics

section Steps

variable {κ : Type} {call : Caller κ} {terms : Terms κ} {world : World κ} {chain : Chain}
  {resolver : Resolver}

theorem placeholder_eq (path : String) (root : Root) (kind : Kind) (method : Option String)
    (scope : List String) (before : Progress κ) :
    let reference := resolver.reference path root kind method
    let made : Expr := .mk before.next (.placeholder reference)
    resolver.placeholder path root kind method scope before =
      match before.members.get? reference.key with
      | some known => .ok known before
      | none =>
          .ok made
            { before with
              next := before.next + 1
              members := before.members.insert reference.key made } := by
  intro reference made
  have state : (get : Resolve κ (Progress κ)) scope before = .ok before before := rfl
  rw [placeholder, bind_of_ok state]
  cases before.members.get? (resolver.reference path root kind method).key <;> rfl

/-- A placeholder is known to both resolutions or new to both. -/
theorem alike_placeholder (sound : terms.good chain) (kind : Kind) (method : Option String) :
    Alike call terms (Twin terms.base)
      (resolver.placeholder chain.path.text chain.root kind method)
      (resolver.placeholder chain.path.text chain.root kind method) := by
  intro scope before before' aligned
  rw [placeholder_eq, placeholder_eq]
  have same := aligned.members (resolver.reference chain.path.text chain.root kind method).key
  cases found : before.members.get?
      (resolver.reference chain.path.text chain.root kind method).key with
  | some known =>
      cases found' : before'.members.get?
          (resolver.reference chain.path.text chain.root kind method).key with
      | some known' =>
          rw [found, found'] at same
          obtain ⟨id, reference, rfl, -, new, -⟩ := aligned.left.members _ _ found
          obtain ⟨id', reference', rfl, -, new', -⟩ := aligned.right.members _ _ found'
          exact .ok (.inr ⟨new, new', Option.some.inj same⟩) aligned
      | none =>
          rw [found, found'] at same
          cases same
  | none =>
      cases found' : before'.members.get?
          (resolver.reference chain.path.text chain.root kind method).key with
      | some known' =>
          rw [found, found'] at same
          cases same
      | none =>
          refine .ok (.inr ⟨aligned.left.next, aligned.right.next, rfl⟩)
            ⟨aligned.left.remember sound rfl rfl, aligned.right.remember sound rfl rfl, ?_⟩
          intro key
          dsimp only
          rw [Table.get?_insert, Table.get?_insert]
          split
          · rfl
          · exact aligned.members key

theorem alike_materialize (transparent : Transparent call terms world) (sound : terms.good chain)
    (kind : Kind) (method : Option String) :
    Alike call terms (Twin terms.base) (resolver.materialize call chain kind method)
      (resolver.materialize call chain kind method) := by
  simp only [materialize]
  split
  · rename_i static
    exact alike_foldStatic transparent sound static
  · obtain ⟨root, isStatic, path⟩ := chain
    cases root with
    | target | source | resource => exact alike_placeholder sound kind method
    | static name tag statics =>
        cases path with
        | nil => exact alike_newNode rfl
        | cons segment path => exact alike_placeholder sound kind method

theorem alike_replaceChain (transparent : Transparent call terms world) {expr : Expr}
    (sound : ∀ scope chain, resolver.flatten scope expr = .ok (some chain) → terms.good chain) :
    Alike call terms (Option.Rel (Twin terms.base)) (resolver.replaceChain call expr)
      (resolver.replaceChain call expr) := by
  intro scope before before' aligned
  have inScope (progress : Progress κ) :
      (MonadReader.read : Resolve κ (List String)) scope progress = .ok scope progress := rfl
  simp only [replaceChain]
  rw [bind_of_ok (inScope before), bind_of_ok (inScope before')]
  cases flat : resolver.flatten scope expr with
  | error error => exact .error (.failure error)
  | ok found =>
      cases found with
      | none => exact .ok .none aligned
      | some chain =>
          have wrapped : Alike call terms (Option.Rel (Twin terms.base))
              (some <$> resolver.materialize call chain expr.kind none)
              (some <$> resolver.materialize call chain expr.kind none) := by
            rw [map_eq_pure_bind]
            refine (alike_materialize transparent (sound scope chain flat) expr.kind none).bind ?_
            exact fun node node' twin => .pure (.some twin)
          exact wrapped scope before before' aligned

/-- A node is replaced if it is a chain, and left alone otherwise. -/
theorem alike_replaceWhole (transparent : Transparent call terms world) {expr : Expr}
    (sound : ∀ scope chain, resolver.flatten scope expr = .ok (some chain) → terms.good chain) :
    Alike call terms (Twin terms.base) (do return (← resolver.replaceChain call expr).getD expr)
      (do return (← resolver.replaceChain call expr).getD expr) := by
  refine (alike_replaceChain transparent sound).bind fun replaced replaced' related => ?_
  cases related with
  | none => exact .pure (Twin.refl _ expr)
  | some twin => exact .pure twin

variable {walk walk' : Expr → Resolve κ Expr}

theorem alike_replaceReceiver (transparent : Transparent call terms world)
    (root : terms.good { root := resolver.defaultRoot }) {target : Option Expr}
    (sound : ∀ owner ∈ target, ∀ scope chain, resolver.flatten scope owner = .ok (some chain) →
      terms.good chain)
    (each : ∀ owner ∈ target, Alike call terms (Twin terms.base) (walk owner) (walk' owner))
    (kind : Kind) (method : Option String) :
    Alike call terms (Twin terms.base)
      (resolver.replaceReceiver call (target.map fun owner => (owner, walk owner)) kind method)
      (resolver.replaceReceiver call (target.map fun owner => (owner, walk' owner)) kind
        method) := by
  cases target with
  | none => exact alike_placeholder root kind method
  | some owner =>
      intro scope before before' aligned
      have inScope (progress : Progress κ) :
          (MonadReader.read : Resolve κ (List String)) scope progress = .ok scope progress := rfl
      simp only [replaceReceiver, Option.map_some]
      rw [bind_of_ok (inScope before), bind_of_ok (inScope before')]
      cases flat : resolver.flatten scope owner with
      | error error => exact .error (.failure error)
      | ok found =>
          cases found with
          | none => exact each owner rfl scope before before' aligned
          | some chain =>
              have good := sound owner rfl scope chain flat
              exact alike_materialize transparent good kind method scope before before' aligned

/-- A node made anew over a receiver and arguments. -/
theorem alike_received (transparent : Transparent call terms world)
    (root : terms.good { root := resolver.defaultRoot }) {target : Option Expr}
    {arguments : List Expr} (fits : ∀ child ∈ target.toList ++ arguments, Fit resolver terms child)
    (each : ∀ child ∈ target.toList ++ arguments,
      Alike call terms (Twin terms.base) (walk child) (walk' child))
    (kind : Kind) (method : Option String) {make : Expr → List Expr → Node Expr}
    (erased : ∀ receiver values, (make receiver values).map Expr.erase =
      make receiver.erase (values.map Expr.erase)) :
    Alike call terms (Twin terms.base)
      (do
        let receiver ← resolver.replaceReceiver call
          (target.map fun owner => (owner, walk owner)) kind method
        let values ← (arguments.map fun argument => (argument, walk argument)).mapM Prod.snd
        newNode (make receiver values))
      (do
        let receiver ← resolver.replaceReceiver call
          (target.map fun owner => (owner, walk' owner)) kind method
        let values ← (arguments.map fun argument => (argument, walk' argument)).mapM Prod.snd
        newNode (make receiver values)) := by
  have given (owner : Expr) (found : owner ∈ target) : owner ∈ target.toList ++ arguments :=
    List.mem_append_left _ (Option.mem_toList.mpr found)
  refine (alike_replaceReceiver transparent root (fun owner found => (fits owner
    (given owner found)).here.2) (fun owner found => each owner (given owner found)) kind
    method).bind fun receiver receiver' twin => ?_
  rw [List.mapM_map, List.mapM_map]
  refine (Alike.mapM fun argument found => each argument
    (List.mem_append_right _ found)).bind fun values values' twins => alike_newNode ?_
  rw [erased, erased, twin.erase_eq, erase_eq_of_twins twins]

theorem Alike.withReader {α β : Type} {related : α → β → Prop} {first : Resolve κ α}
    {second : Resolve κ β} (alike : Alike call terms related first second)
    (change : List String → List String) :
    Alike call terms related (MonadWithReader.withReader change first)
      (MonadWithReader.withReader change second) :=
  fun scope before before' aligned => alike (change scope) before before' aligned

/-- A visit ends alike if the walks below the node do. -/
theorem alike_visit (transparent : Transparent call terms world)
    (root : terms.good { root := resolver.defaultRoot }) {id : NodeId} {node : Node Expr}
    (fit : Fit resolver terms (.mk id node))
    (each : ∀ child ∈ node.children,
      Alike call terms (Twin terms.base) (walk child) (walk' child)) :
    Alike call terms (Twin terms.base)
      (resolver.visit call id (node.map fun child => (child, walk child)))
      (resolver.visit call id (node.map fun child => (child, walk' child))) := by
  have sound := fit.here.2
  cases node with
  | constant | binary | condition | parameter | placeholder => exact .pure (Twin.refl _ _)
  | member target name =>
      cases target with
      | some target => exact alike_replaceWhole transparent sound
      | none =>
          simp only [visit, Node.map, Option.map_none]
          refine Alike.read.bind fun scope scope' same => ?_
          rw [same]
          split
          · exact alike_newNode rfl
          · exact alike_replaceWhole transparent sound
  | unary op operand =>
      simp only [visit, Node.map]
      split
      · exact alike_replaceWhole transparent sound
      · exact .pure (Twin.refl _ _)
  | lambda parameters body =>
      have below : body.id < terms.base := (fit.child (by simp [Node.children])).here.1
      simp only [visit, Node.map]
      refine ((each body (by simp [Node.children])).withReader _).bind fun walked walked' twin => ?_
      refine .ite ?_ (.pure (Twin.refl _ _)) (alike_newNode ?_)
      · rw [beq_iff_eq, beq_iff_eq]
        exact twin.id_eq_iff below
      · simp only [Node.map, twin.erase_eq]
  | index target arguments =>
      simp only [visit, Node.map, Option.map_map, List.map_map, Function.comp_def, Option.map_id',
        List.map_id']
      refine (alike_replaceChain transparent sound).bind fun replaced replaced' related => ?_
      cases related with
      | some twin => exact .pure twin
      | none =>
          exact alike_received transparent root (fun _ found => fit.child found) each .index none
            fun _ _ => rfl
  | call target method arguments =>
      exact alike_received transparent root (fun _ found => fit.child found) each .call _
        fun _ _ => rfl

/-- So does the rebuilding of a node. -/
theorem alike_rebuild {id : NodeId} {node : Node Expr} (fit : Fit resolver terms (.mk id node))
    (each : ∀ child ∈ node.children,
      Alike call terms (Twin terms.base) (walk child) (walk' child)) :
    Alike call terms (Twin terms.base)
      (Expr.rebuild fresh id (node.map fun child => (child, walk child)))
      (Expr.rebuild fresh id (node.map fun child => (child, walk' child))) := by
  have old : ∀ child ∈ node.children, child.id < terms.base :=
    fun child found => (fit.child found).here.1
  rw [Expr.rebuild_map, Expr.rebuild_map]
  refine (Alike.mapM each).bind fun results results' twins => ?_
  refine .ite ?_ (.pure (Twin.refl _ _)) ?_
  · rw [beq_iff_eq, beq_iff_eq]
    exact ids_eq_iff_of_twins twins old
  · have erased := Node.withChildren?_map Expr.erase node results
    rw [erase_eq_of_twins twins, Node.withChildren?_map] at erased
    cases rebuilt : node.withChildren? results with
    | none =>
        rw [rebuilt] at erased
        rw [Option.map_eq_none_iff.mp erased]
        exact .pure (Twin.refl _ _)
    | some made =>
        rw [rebuilt] at erased
        obtain ⟨made', rebuilt', same'⟩ := Option.map_eq_some_iff.mp erased
        rw [rebuilt']
        exact alike_newNode same'.symm

/-- Walks that visit alike and rebuild alike end alike. -/
theorem alike_descend {visit visit' : Resolve κ Expr} {id : NodeId} {node : Node Expr}
    (fit : Fit resolver terms (.mk id node))
    (visits : Alike call terms (Twin terms.base) visit visit')
    (each : ∀ child ∈ node.children,
      Alike call terms (Twin terms.base) (walk child) (walk' child)) :
    Alike call terms (Twin terms.base)
      (do
        let visited ← visit
        if visited.id != id then pure visited
        else Expr.rebuild fresh id (node.map fun child => (child, walk child)))
      (do
        let visited ← visit'
        if visited.id != id then pure visited
        else Expr.rebuild fresh id (node.map fun child => (child, walk' child))) := by
  refine visits.bind fun visited visited' twin => ?_
  refine .ite ?_ (.pure twin) (alike_rebuild fit each)
  rw [bne_iff_ne, bne_iff_ne]
  exact not_congr (twin.id_eq_iff fit.here.1)

end Steps

end Resolver

end Tether

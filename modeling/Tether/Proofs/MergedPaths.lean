import Tether.Proofs.StaticFolding

set_option autoImplicit false

/- Which chains of one root end up in one node. A resolution goes by the texts of paths, both for
placeholders and for the constants of static chains. As the text of a legible path determines the
path, chains of different paths are never merged. -/
namespace Tether

theorem Chain.staticKey?_path {root : Root} {isStatic : Bool} {path other : Path}
    (keyed : (Chain.mk root isStatic path).staticKey?.isSome) :
    (Chain.mk root isStatic path).staticKey? = (Chain.mk root isStatic other).staticKey? ↔
      path.text = other.text := by
  have joined (name : String) : name ++ ":" ++ path.text = name ++ ":" ++ other.text ↔
      path.text = other.text := by
    simp only [← String.toList_inj, String.toList_append, List.append_cancel_left_eq]
  cases root with
  | target | source => cases keyed
  | static name tag statics | resource name value =>
      simp only [staticKey?, Option.some.injEq, Prod.mk.injEq, joined, true_and]

namespace Resolver

variable {κ : Type} {call : Caller κ} {terms : Terms κ} {progress : Progress κ}
  {first second : Chain} {node node' : Expr}

/-- A node that stands for a static chain is the one remembered by the chain's key. -/
theorem Leaf.folded (leaf : Leaf call terms progress first node) (static : first.isStatic) :
    ∃ key, first.staticKey? = some key ∧ progress.statics.get? key = some node := by
  cases leaf with
  | placeholder _ dynamic => exact absurd static (by simp [dynamic])
  | statics _ dynamic => exact absurd static (by simp [dynamic])
  | constant _ _ _ _ _ _ _ known => exact known

/-- Static chains have one node just when they have one key. -/
theorem Leaf.eq_iff_staticKey (good : Good call terms progress)
    (leaf : Leaf call terms progress first node) (leaf' : Leaf call terms progress second node')
    (static : first.isStatic) (static' : second.isStatic) :
    node = node' ↔ first.staticKey? = second.staticKey? := by
  obtain ⟨key, keyed, known⟩ := leaf.folded static
  obtain ⟨key', keyed', known'⟩ := leaf'.folded static'
  rw [keyed, keyed', Option.some.injEq]
  constructor
  · intro same
    exact good.folded key key' node node' known known' (congrArg Expr.id same)
  · rintro rfl
    exact Option.some.inj (known.symm.trans known')

/-- A placeholder has the text of the path that it stands for. -/
theorem Leaf.path_eq (leaf : Leaf call terms progress first node) {reference : Placeholder}
    (found : node.placeholder? = some reference) : reference.path = first.path.text := by
  cases leaf with
  | placeholder _ _ _ path =>
      cases found
      exact path
  | constant => cases found
  | statics => cases found

/-- Chains that share a node, both static or both not, have paths of one text if they have one
root. -/
theorem Leaf.text_eq (good : Good call terms progress) {root : Root} {isStatic : Bool}
    {path other : Path} (leaf : Leaf call terms progress { root, isStatic, path } node)
    (leaf' : Leaf call terms progress { root, isStatic, path := other } node) :
    path.text = other.text := by
  cases isStatic with
  | true =>
      obtain ⟨key, keyed, -⟩ := leaf.folded rfl
      have hasKey : (Chain.mk root true path).staticKey?.isSome := by rw [keyed]; rfl
      exact (Chain.staticKey?_path hasKey).mp ((leaf.eq_iff_staticKey good leaf' rfl rfl).mp rfl)
  | false =>
      cases leaf with
      | placeholder _ _ _ own => exact own.symm.trans (leaf'.path_eq rfl)
      | constant _ static => cases static
      | statics _ _ _ whole =>
          cases leaf' with
          | constant _ static => cases static
          | statics _ _ _ whole' =>
              dsimp only at whole whole'
              rw [whole, whole']

/-- The text of a path identifies it, for names that are not empty and have no point and no opening
bracket in them and for index arguments that are null, booleans, integers and strings. So where one
resolution replaces two chains from one root by one node, the chains have one path, and two static
chains of one path are replaced by one constant. Placeholders from one root show the same path just
when they stand for the same path. -/
theorem text_eq_iff_merged {path other : Path} (legible : path.isLegible)
    (legible' : other.isLegible) :
    (path.text = other.text ↔ path = other) ∧
      ∀ {κ : Type} (resolver : Resolver) (call : Caller κ) (expr result : Expr) (world : World κ)
        (next : NodeId) (root : Root) (isStatic : Bool) (node node' : Expr),
        expr.Everywhere (·.id < next) →
        (resolver.resolve call expr world next).1 = .ok result →
        Replaced resolver [] expr result { root, isStatic, path } node →
        Replaced resolver [] expr result { root, isStatic, path := other } node' →
          (node = node' → path = other) ∧
          (isStatic → path = other → node = node') ∧
          ∀ reference reference', node.placeholder? = some reference →
            node'.placeholder? = some reference' →
              (reference.path = reference'.path ↔ path = other) := by
  have identified : path.text = other.text ↔ path = other :=
    ⟨Path.eq_of_text_eq legible legible', congrArg Path.text⟩
  refine ⟨identified, ?_⟩
  intro κ resolver call expr result world next root isStatic node node' old ended replaced replaced'
  obtain ⟨after, good, resolved⟩ := resolve_resolved_any old ended
  have leaf := replaced.stands resolved
  have leaf' := replaced'.stands resolved
  refine ⟨?_, ?_, ?_⟩
  · rintro rfl
    exact identified.mp (leaf.text_eq good leaf')
  · rintro static rfl
    exact (leaf.eq_iff_staticKey good leaf' static static).mpr rfl
  · intro reference reference' found found'
    rw [leaf.path_eq found, leaf'.path_eq found', identified]

/-- Two items of a resource, under a number and under a boolean. -/
theorem text_eq_iff_merged_lookup :
    let expr := lookupSum (.int 1) (.bool true)
    let world := lookupWorld (.int 1) (.bool true)
    let chain (key : Value) : Chain :=
      { root := .resource "R" (.object ⟨0, "r", "Table", ⟨0x1234⟩⟩), isStatic := true
        path := [.index [key]] }
    ∃ result node node', (lookupResolver.resolve callFunction expr world 9).1 = .ok result ∧
      Replaced lookupResolver [] expr result (chain (.int 1)) node ∧
      Replaced lookupResolver [] expr result (chain (.bool true)) node' ∧ node ≠ node' ∧
      (chain (.int 1)).path.text ≠ (chain (.bool true)).path.text := by
  intro expr world chain
  let number (id : NodeId) (value : Int64) : Expr := .mk id (.constant (.int value))
  have ended : (lookupResolver.resolve callFunction expr world 9).1 =
      .ok (.mk 11 (.binary .add (number 9 1) (number 10 2))) := rfl
  have replaced : Replaced lookupResolver [] expr
      (.mk 11 (.binary .add (number 9 1) (number 10 2))) (chain (.int 1)) (number 9 1) :=
    .inside rfl List.mem_cons_self (.here rfl)
  have replaced' : Replaced lookupResolver [] expr
      (.mk 11 (.binary .add (number 9 1) (number 10 2))) (chain (.bool true)) (number 10 2) :=
    .inside rfl (List.mem_cons_of_mem _ List.mem_cons_self) (.here rfl)
  have different : (chain (.int 1)).path ≠ (chain (.bool true)).path := by simp [chain]
  have legible (key : Value) (plain : key.isPlain) : (chain key).path.isLegible := by
    simp [chain, Path.isLegible, Segment.isLegible, plain]
  obtain ⟨texts, merged⟩ := text_eq_iff_merged (legible (.int 1) rfl) (legible (.bool true) rfl)
  obtain ⟨apart, -⟩ := merged lookupResolver callFunction expr _ world 9 _ true _ _
    (lookupSum_raw _ _).old ended replaced replaced'
  exact ⟨_, _, _, ended, replaced, replaced', fun same => different (apart same),
    fun same => different (texts.mp same)⟩

end Resolver

end Tether

import Tether.Proofs.HostReads

set_option autoImplicit false

/- Which trees are refused, and why. In a tree without static chains only a `$` can stand in the way
of a resolution: before something that is no name, or before a name that nothing is known by. The
first such node is reported, parents first and left before right, wherever it stands: at the root
of a chain, in a receiver, among arguments or in the body of a lambda. -/
namespace Tether

namespace Resolver

/-- Whether `$` may stand before a name. -/
def knowsRoot (resolver : Resolver) (name : String) : Bool :=
  ["target", "self", "this", "source", "context"].contains name ||
    resolver.directory.types.contains name || resolver.directory.resources.contains name

/-- What is wrong with a node by itself. -/
def objection? (resolver : Resolver) (expr : Expr) : Option ResolveError :=
  match expr.node with
  | .unary .dynamic operand =>
      match operand.node with
      | .member none name =>
          if resolver.knowsRoot name then none else some (.unknownRoot name)
      | _ => some (.cannotFlatten expr.text)
  | _ => none

/-- What is wrong with the nodes of a tree, in preorder. -/
def objections (resolver : Resolver) (expr : Expr) : List ResolveError :=
  expr.preorder.filterMap resolver.objection?

/-- Trees without `$$`. -/
def Dynamic : Expr → Prop :=
  Expr.Everywhere fun part => ∀ operand, part.node ≠ .unary .static operand

variable {resolver : Resolver} {scope : List String} {expr : Expr} {id : NodeId}
  {node : Node Expr}

theorem objections_mk (resolver : Resolver) (id : NodeId) (node : Node Expr) :
    resolver.objections (.mk id node) =
      (resolver.objection? (.mk id node)).toList ++ node.children.flatMap resolver.objections := by
  rw [objections, Expr.preorder_mk, List.filterMap_cons, List.filterMap_flatMap]
  cases resolver.objection? (.mk id node) <;> rfl

theorem objection?_eq_none_iff : resolver.objection? expr = none ↔
    ∀ operand, expr.node = .unary .dynamic operand →
      ∃ name, operand.node = .member none name ∧ resolver.knowsRoot name := by
  rw [objection?]
  split
  · rename_i operand isRoot
    rw [isRoot]
    split
    · rename_i name isName
      rw [ite_eq_left_iff]
      constructor
      · rintro known _ ⟨⟩
        exact ⟨name, isName, by_contra fun unknown => nomatch known unknown⟩
      · intro names unknown
        obtain ⟨other, sameName, known⟩ := names operand rfl
        rw [isName] at sameName
        cases sameName
        exact absurd known unknown
    · rename_i unnamed
      refine iff_of_false nofun fun names => ?_
      obtain ⟨name, isName, -⟩ := names operand rfl
      exact unnamed name isName
  · rename_i unrooted
    exact iff_of_true rfl fun operand isRoot => absurd isRoot (unrooted operand)

/-- A name is a root just when it is known. -/
theorem namedRoot_known (resolver : Resolver) (name : String) (isStatic : Bool) :
    (resolver.knowsRoot name = true ∧
      ∃ chain, resolver.namedRoot name isStatic = .ok chain ∧ chain.isStatic = isStatic) ∨
    (resolver.knowsRoot name = false ∧
      resolver.namedRoot name isStatic = .error (.unknownRoot name)) := by
  simp only [namedRoot]
  split
  · exact .inl ⟨rfl, _, rfl, rfl⟩
  · exact .inl ⟨rfl, _, rfl, rfl⟩
  · exact .inl ⟨rfl, _, rfl, rfl⟩
  · exact .inl ⟨rfl, _, rfl, rfl⟩
  · exact .inl ⟨rfl, _, rfl, rfl⟩
  · rename_i target self this source context
    have unfixed : ["target", "self", "this", "source", "context"].contains name = false := by
      simpa using ⟨target, self, this, source, context⟩
    rw [knowsRoot, unfixed, Bool.false_or, Table.contains, Table.contains]
    cases resolver.directory.types.get? name with
    | some type => exact .inl ⟨rfl, _, rfl, rfl⟩
    | none =>
        cases resolver.directory.resources.get? name with
        | some value => exact .inl ⟨rfl, _, rfl, rfl⟩
        | none => exact .inr ⟨rfl, rfl⟩

theorem objections_constants {arguments : List Expr} {values : List Value}
    (known : constants arguments = some values) :
    arguments.flatMap resolver.objections = [] := by
  induction arguments generalizing values with
  | nil => rfl
  | cons argument rest ih =>
      simp only [constants, List.mapM_cons, Option.bind_eq_bind, Option.bind_eq_some_iff] at known
      obtain ⟨first, firstKnown, others, othersKnown, -⟩ := known
      obtain ⟨id, node⟩ := argument
      cases node with
      | constant value => exact ih othersKnown
      | _ => cases firstKnown

/-- What flattening says about the objections to a tree. -/
def Weighed (resolver : Resolver) (expr : Expr) : Except ResolveError (Option Chain) → Prop
  | .error error => (resolver.objections expr).head? = some error
  | .ok (some chain) => resolver.objections expr = [] ∧ chain.isStatic = false
  | .ok none => resolver.objection? expr = none

/-- A longer chain is objected to for its owner only. -/
theorem Weighed.push {target : Expr} {found : Except ResolveError (Option Chain)}
    (weighed : Weighed resolver target found) (unobjected : resolver.objection? expr = none)
    (objections : resolver.objections expr = resolver.objections target) (segment : Segment) :
    Weighed resolver expr (do pure ((← found).map (·.push segment))) := by
  cases found with
  | error error => exact (congrArg List.head? objections).trans weighed
  | ok found =>
      cases found with
      | none => exact unobjected
      | some chain => exact ⟨objections.trans weighed.1, weighed.2⟩

/-- Flattening is refused for the first objection, and finds a chain only where there is none. -/
theorem flatten_weighed (dynamic : Dynamic expr) (scope : List String) :
    Weighed resolver expr (resolver.flatten scope expr) := by
  induction expr using Expr.induct with
  | constant | call | binary | condition | lambda | parameter | placeholder => exact rfl
  | name id name =>
      rw [flatten]
      split
      · exact rfl
      · exact ⟨rfl, rfl⟩
  | member id target name ih =>
      rw [flatten]
      refine (ih (dynamic.child (by simp [Node.children]))).push rfl ?_ _
      rw [objections_mk, Node.children, Option.toList_some, List.flatMap_singleton]
      rfl
  | index id target arguments owners _ =>
      rw [flatten]
      split
      · cases known : constants arguments with
        | none => exact rfl
        | some values =>
            have quiet : arguments.flatMap resolver.objections = [] := objections_constants known
            cases target with
            | none =>
                refine ⟨?_, rfl⟩
                rw [objections_mk]
                exact quiet
            | some target =>
                refine (owners target rfl (dynamic.child (by simp [Node.children]))).push rfl ?_ _
                rw [objections_mk, Node.children, List.flatMap_append, quiet, Option.toList_some,
                  List.flatMap_singleton, List.append_nil]
                rfl
      · exact rfl
  | unary id op operand _ =>
      cases op with
      | static => exact absurd rfl (dynamic.here operand)
      | dynamic =>
          have here := objections_mk resolver id (.unary .dynamic operand)
          rw [flatten, if_pos (show UnaryOp.dynamic.namesRoot = true from rfl)]
          split
          · rename_i name isName
            obtain ⟨inner, node⟩ := operand
            cases isName
            rcases namedRoot_known resolver name false with
              ⟨known, chain, found, isDynamic⟩ | ⟨unknown, refused⟩
            · have quiet : resolver.objection?
                  (.mk id (.unary .dynamic (.mk inner (.member none name)))) = none :=
                if_pos known
              rw [quiet] at here
              rw [show (UnaryOp.dynamic == UnaryOp.static) = false from rfl, found]
              exact ⟨here, isDynamic⟩
            · have objected : resolver.objection?
                  (.mk id (.unary .dynamic (.mk inner (.member none name)))) =
                    some (.unknownRoot name) := if_neg (by simp [unknown])
              rw [objected] at here
              rw [show (UnaryOp.dynamic == UnaryOp.static) = false from rfl, refused]
              exact congrArg List.head? here
          · rename_i unnamed
            have objected : resolver.objection? (.mk id (.unary .dynamic operand)) =
                some (.cannotFlatten (Expr.mk id (.unary .dynamic operand)).text) := by
              simp only [objection?, Expr.node]
              split
              · rename_i name isName
                exact absurd isName (unnamed name)
              · rfl
            rw [objected] at here
            exact congrArg List.head? here
      | _ => exact rfl

theorem head?_flatMap_map {α β γ : Type} {items : List α} {first : α → List β}
    {second : α → List γ} {make : γ → β}
    (each : ∀ item ∈ items, (first item).head? = (second item).head?.map make) :
    (items.flatMap first).head? = (items.flatMap second).head?.map make := by
  induction items with
  | nil => rfl
  | cons item items ih =>
      rw [List.forall_mem_cons] at each
      rw [List.flatMap_cons, List.flatMap_cons, List.head?_append, List.head?_append, each.1,
        ih each.2, Option.map_or]

/-- Without static chains, what a resolution has to go through are objections alone, the first of
them first. -/
theorem head?_staticChains (dynamic : Dynamic expr) (scope : List String) :
    (resolver.staticChains expr scope).head? = (resolver.objections expr).head?.map .error := by
  induction expr using Expr.children_induct generalizing scope with
  | step id node ih =>
      have weighed : Weighed resolver _ _ := flatten_weighed dynamic scope
      rw [staticChains_mk]
      split <;> rename_i flat <;> rw [flat] at weighed
      · rw [show (resolver.objections (.mk id node)).head? = _ from weighed]
        rfl
      · obtain ⟨quiet, isDynamic⟩ := weighed
        rw [quiet, isDynamic]
        rfl
      · have unobjected : resolver.objection? (.mk id node) = none := weighed
        rw [objections_mk, unobjected, Option.toList_none, List.nil_append]
        exact head?_flatMap_map fun child found => ih child found (dynamic.child found) _

section Resolve

variable {κ : Type}

/-- The outcome of a resolution without static chains. -/
theorem resolve_dynamic (resolver : Resolver) (dynamic : Dynamic expr) {next : NodeId}
    (old : expr.Everywhere fun part => part.id < next) (call : Caller κ) (world : World κ) :
    match resolver.objections expr with
    | [] => ∃ result, (resolver.resolve call expr world next).1 = .ok result
    | first :: _ => (resolver.resolve call expr world next).1 = .error (.failure first) := by
  have due : evaluateAll call
      (firsts Chain.staticKey? (fun _ => false) (resolver.staticChains expr [])) world = _ :=
    evaluateAll_due old world
  have head : (resolver.staticChains expr []).head? = _ := head?_staticChains dynamic []
  revert due
  cases objected : resolver.objections expr with
  | nil =>
      rw [objected] at head
      rw [List.head?_eq_none_iff.mp head]
      rcases resolver.resolve call expr world next with ⟨error | result, after, later⟩
      · exact nofun
      · exact fun _ => ⟨result, rfl⟩
  | cons first rest =>
      rw [objected] at head
      obtain ⟨others, chains⟩ := List.head?_eq_some_iff.mp head
      rw [chains]
      rcases resolver.resolve call expr world next with ⟨error | result, after, later⟩
      · rintro ⟨⟩
        rfl
      · exact nofun

/-- A tree without static chains is resolved just when every `$` in it stands before a name that
something is known by. Otherwise the first node that is objected to is reported. Names that a
lambda declares are known or not like all others. -/
theorem resolve_objects_first (dynamic : Dynamic expr) {next : NodeId}
    (old : expr.Everywhere fun part => part.id < next) (call : Caller κ) (world : World κ) :
    let ended := (resolver.resolve call expr world next).1
    ((∃ result, ended = .ok result) ↔ expr.Everywhere fun part =>
      ∀ operand, part.node = .unary .dynamic operand →
        ∃ name, operand.node = .member none name ∧ resolver.knowsRoot name) ∧
    ∀ first rest, resolver.objections expr = first :: rest → ended = .error (.failure first) := by
  intro ended
  have outcome := resolve_dynamic resolver dynamic old call world
  have unobjected : resolver.objections expr = [] ↔ expr.Everywhere fun part =>
      ∀ operand, part.node = .unary .dynamic operand →
        ∃ name, operand.node = .member none name ∧ resolver.knowsRoot name := by
    simp only [objections, List.filterMap_eq_nil_iff, objection?_eq_none_iff, Expr.Everywhere]
  rw [← unobjected]
  cases objected : resolver.objections expr with
  | nil =>
      rw [objected] at outcome
      refine ⟨iff_of_true outcome rfl, fun first rest objected => ?_⟩
      cases objected
  | cons first rest =>
      rw [objected] at outcome
      have failed : ended = .error (.failure first) := outcome
      refine ⟨iff_of_false ?_ (List.cons_ne_nil first rest), ?_⟩
      · rintro ⟨result, resolved⟩
        rw [failed] at resolved
        cases resolved
      · rintro _ _ ⟨⟩
        exact failed

/-- The lambda declares `x`, and `$x` in its body is unknown all the same. It is reported before the
`$` that stands before a number, which comes later in the same call. -/
theorem resolve_objects_first_declared :
    let root (id : NodeId) (operand : Expr) : Expr := .mk id (.unary .dynamic operand)
    let expr : Expr := .mk 0 (.call (some (root 1 (.mk 2 (.member none "context")))) "F"
      [.mk 3 (.lambda ["x"] (.mk 4 (.index (some (.mk 5 (.member none "x")))
        [root 6 (.mk 7 (.member none "x"))]))),
        root 8 (.mk 9 (.constant (.int 1)))])
    let resolver : Resolver := {}
    Dynamic expr ∧ resolver.objections expr = [.unknownRoot "x", .cannotFlatten "$1"] ∧
      (resolver.resolve callFunction expr {} 10).1 = .error (.failure (.unknownRoot "x")) := by
  intro root expr resolver
  have dynamic : Dynamic expr := by
    simp [expr, root, Dynamic, Expr.everywhere_mk, Node.children, Expr.node]
  have old : expr.Everywhere fun part => part.id < 10 := by
    simp [expr, root, Expr.everywhere_mk, Node.children, Expr.id]
  have objected : resolver.objections expr = [.unknownRoot "x", .cannotFlatten "$1"] := rfl
  exact ⟨dynamic, objected, (resolve_objects_first dynamic old callFunction {}).2 _ _ objected⟩

end Resolve

end Resolver

end Tether

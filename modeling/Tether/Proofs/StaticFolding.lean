import Tether.Proofs.SharedPlaceholders
import Tether.Proofs.TwinResolutions

set_option autoImplicit false

/- Static chains are evaluated while names are resolved, once for each text. Nothing shows of it as
long as chains with one text read the same: every chain is replaced by the value at its own end, as
if it had been read afresh. The text does not tell all values apart, so that this is a condition on
the expression. -/
namespace Tether

namespace Resolver

variable {κ : Type}

/-- Forgets the static chains evaluated so far. -/
def forget : Resolve κ Unit :=
  modify fun progress => { progress with statics := {} }

section Afresh

variable (resolver : Resolver) (call : Caller κ)

/-- A walk that has forgotten all static chains whenever it comes to a node. -/
def walkAfresh : Expr → Resolve κ Expr :=
  Expr.descend fresh fun id node => do
    forget
    resolver.visit call id node

/-- Resolves an expression with every static chain read afresh. -/
def resolveAfresh (expr : Expr) (world : World κ) (next : NodeId) :
    Except (Halt ResolveError) Expr :=
  match (resolver.walkAfresh call expr).run [] |>.run { world, next } with
  | .ok resolved _ => .ok resolved
  | .error halt _ => .error halt

/-- The static chains of an expression. -/
def StaticIn (expr : Expr) (chain : Chain) : Prop :=
  chain.isStatic ∧ ∃ part ∈ expr.preorder, ∃ scope, resolver.flatten scope part = .ok (some chain)

/-- The worlds that reading along an expression's static chains leads to. -/
inductive Later (expr : Expr) (world : World κ) : World κ → Prop where
  | start : Later expr world world
  | read {before after : World κ} {chain : Chain} {start value : Value}
      (earlier : Later expr world before) (static : resolver.StaticIn expr chain)
      (starts : chain.root.start? = some start)
      (read : Path.read call start chain.path before = .ok value after) : Later expr world after

/-- Hosts are pure: what stands at the end of a static chain does not depend on what was read
before. -/
def PureHosts (expr : Expr) (world : World κ) : Prop :=
  ∀ chain later, resolver.StaticIn expr chain → Later resolver call expr world later →
    chain.evaluate call later = chain.evaluate call world

/-- Static chains that are remembered by one key have the same value. -/
def Coherent (expr : Expr) (world : World κ) : Prop :=
  ∀ first second key, resolver.StaticIn expr first → resolver.StaticIn expr second →
    first.staticKey? = some key → second.staticKey? = some key →
      first.evaluate call world = second.evaluate call world

/-- Chains of an expression, and worlds that reading along the static ones leads to. -/
def staticTerms (expr : Expr) (world : World κ) (next : NodeId) : Terms κ where
  base := next
  good chain := chain.isStatic → resolver.StaticIn expr chain
  settled := Later resolver call expr world

end Afresh

variable {resolver : Resolver} {call : Caller κ} {terms : Terms κ} {world : World κ}
  {expr : Expr} {next : NodeId}

theorem transparent_staticTerms (pureHosts : resolver.PureHosts call expr world)
    (coherent : resolver.Coherent call expr world) (next : NodeId) :
    Transparent call (resolver.staticTerms call expr world next) world where
  settles _ _ _ _ _ sound static starts settled read := .read settled (sound static) starts read
  steady chain before sound static settled := pureHosts chain before (sound static) settled
  keyed first second key good good' static static' key₁ key₂ :=
    coherent first second key (good static) (good' static') key₁ key₂

theorem fit_staticTerms (old : expr.Everywhere (·.id < next)) (call : Caller κ)
    (world : World κ) : Fit resolver (resolver.staticTerms call expr world next) expr := by
  intro part found
  exact ⟨old part found, fun scope _ flat static => ⟨static, part, found, scope, flat⟩⟩

theorem Aligned.forget {before before' : Progress κ} (aligned : Aligned call terms before before') :
    Aligned call terms before { before' with statics := {} } where
  left := aligned.left
  right := { aligned.right with statics := nofun, folded := nofun }
  members := aligned.members

theorem walkAfresh_mk (id : NodeId) (node : Node Expr) :
    resolver.walkAfresh call (.mk id node) = (do
      let offered := node.map fun child => (child, resolver.walkAfresh call child)
      let visited ← (do forget; resolver.visit call id offered)
      if visited.id != id then pure visited else Expr.rebuild fresh id offered) := by
  rw [walkAfresh, Expr.descend, Expr.para_mk]

/-- A walk that remembers static chains ends like one that reads them afresh. -/
theorem alike_walk (transparent : Transparent call terms world)
    (root : terms.good { root := resolver.defaultRoot }) (fit : Fit resolver terms expr) :
    Alike call terms (Twin terms.base) (resolver.walk call expr)
      (resolver.walkAfresh call expr) := by
  induction expr using Expr.children_induct with
  | step id node ih =>
      have each (child : Expr) (found : child ∈ node.children) :
          Alike call terms (Twin terms.base) (resolver.walk call child)
            (resolver.walkAfresh call child) := ih child found (fit.child found)
      have visits : Alike call terms (Twin terms.base)
          (resolver.visit call id (node.map fun child => (child, resolver.walk call child)))
          (do
            forget
            resolver.visit call id
              (node.map fun child => (child, resolver.walkAfresh call child))) :=
        fun scope before before' aligned =>
          alike_visit transparent root fit each scope before _ aligned.forget
      rw [walk_mk, walkAfresh_mk]
      exact alike_descend fit visits each

/-- A node that stands for a static chain is the value at the chain's own end. -/
theorem Leaf.evaluate_eq (transparent : Transparent call terms world) {progress : Progress κ}
    {chain : Chain} {node : Expr} (leaf : Leaf call terms progress chain node)
    (static : chain.isStatic) :
    ∃ id value, node = .mk id (.constant value) ∧ chain.evaluate call world = .ok value := by
  cases leaf with
  | placeholder _ dynamic => exact absurd static (by simp [dynamic])
  | statics _ dynamic => exact absurd static (by simp [dynamic])
  | @constant id value other sound _ otherSound otherStatic same keyed evaluated =>
      obtain ⟨key, keyed⟩ := Option.isSome_iff_exists.mp keyed
      have own := transparent.keyed chain other key sound otherSound static otherStatic keyed
        (same.trans keyed)
      rw [evaluated.evaluate_eq transparent otherSound otherStatic] at own
      exact ⟨id, value, rfl, own⟩

/-- Remembering static chains is transparent where chains with one key have one value and hosts are
pure. The resolution fails with the error, or makes the tree up to identities, that it would with
every static chain read afresh. If it succeeds, every static chain of the tree that is not part of a
longer one has been replaced, and only ever by the value at its own end. -/
theorem resolve_eq_afresh (old : expr.Everywhere (·.id < next))
    (pureHosts : resolver.PureHosts call expr world)
    (coherent : resolver.Coherent call expr world) :
    (resolver.resolve call expr world next).1.map Expr.erase =
        (resolver.resolveAfresh call expr world next).map Expr.erase ∧
      ∀ result, (resolver.resolve call expr world next).1 = .ok result →
        ∀ chain, Maximal resolver [] expr chain → chain.isStatic →
          (∃ node, Replaced resolver [] expr result chain node) ∧
          ∀ node, Replaced resolver [] expr result chain node →
            ∃ id value, node = .mk id (.constant value) ∧
              chain.evaluate call world = .ok value := by
  let terms := resolver.staticTerms call expr world next
  have transparent : Transparent call terms world := transparent_staticTerms pureHosts coherent next
  have fit : Fit resolver terms expr := fit_staticTerms old call world
  have root : terms.good { root := resolver.defaultRoot } := nofun
  have settled : terms.settled world := .start
  constructor
  · have start : Good call terms { world, next } := Good.start settled
    have ended := alike_walk transparent root fit [] _ _ ⟨start, start, fun _ => rfl⟩
    simp only [resolve, resolveAfresh, ReaderT.run, EStateM.run]
    revert ended
    generalize resolver.walk call expr [] { world, next } = run
    generalize resolver.walkAfresh call expr [] { world, next } = run'
    intro ended
    cases ended with
    | ok twin => exact congrArg Except.ok twin.erase_eq
    | error halt => rfl
  · intro result ended chain maximal static
    obtain ⟨after, -, resolved⟩ := resolve_resolved transparent.settles root fit settled ended
    refine ⟨maximal.replaced resolved, fun node replaced => ?_⟩
    exact (replaced.stands resolved).evaluate_eq transparent static

section Conditions

/-- In an expression with plain names and constants the key of a chain determines it. -/
theorem coherent_of_plain (plain : expr.Plain) (named : resolver.directory.Named)
    (call : Caller κ) (world : World κ) : resolver.Coherent call expr world := by
  intro first second key static static' keyed keyed'
  obtain ⟨-, part, found, scope, flat⟩ := static
  obtain ⟨-, part', found', scope', flat'⟩ := static'
  have plainFirst := (flattens_of_flatten flat).plain named (plain.part found)
  have plainSecond := (flattens_of_flatten flat').plain named (plain.part found')
  have same : first.staticKey? = second.staticKey? := keyed.trans keyed'.symm
  have hasKey : second.staticKey?.isSome := by
    rw [keyed']
    rfl
  obtain ⟨starts, paths⟩ := plainFirst.static_eq plainSecond same hasKey
  rw [Chain.evaluate, Chain.evaluate, starts, paths]

/-- No function stands among the constants of the tree. -/
def Functionless : Expr → Prop :=
  Expr.Everywhere fun part => ∀ value ∈ part.constant?, value.isFunctionless

theorem Functionless.constants {arguments : List Expr}
    (functionless : ∀ argument ∈ arguments, Functionless argument) {values : List Value}
    (known : Resolver.constants arguments = some values) : Value.areFunctionless values := by
  induction arguments generalizing values with
  | nil =>
      cases known
      rfl
  | cons argument rest ih =>
      rw [List.forall_mem_cons] at functionless
      simp only [Resolver.constants, List.mapM_cons, Option.bind_eq_bind,
        Option.bind_eq_some_iff] at known
      obtain ⟨first, constant, others, othersKnown, same⟩ := known
      cases same
      rw [Value.areFunctionless, functionless.1.here first constant, ih functionless.2 othersKnown]
      rfl

theorem Functionless.quiet_index {id : NodeId} {target : Option Expr} {arguments : List Expr}
    (functionless : Functionless (.mk id (.index target arguments))) {values : List Value}
    (known : Resolver.constants arguments = some values) : (Segment.index values).Quiet :=
  Functionless.constants
    (fun argument found => functionless.child (by simp [Node.children, found])) known

theorem Flattens.quiet {scope : List String} {chain : Chain}
    (flattens : Flattens resolver scope expr chain) (functionless : Functionless expr) :
    chain.path.Quiet := by
  have start : Path.Quiet [] := fun _ found => absurd found List.not_mem_nil
  have push {path : Path} {segment : Segment} (quiet : path.Quiet) (also : segment.Quiet) :
      Path.Quiet (path ++ [segment]) := by
    intro later found
    rcases List.mem_append.mp found with earlier | last
    · exact quiet later earlier
    · rw [List.mem_singleton.mp last]
      exact also
  induction flattens with
  | name => exact push start trivial
  | member _ ih => exact push (ih (functionless.child (by simp [Node.children]))) trivial
  | rootItem known => exact push start (functionless.quiet_index known)
  | item _ known ih =>
      exact push (ih (functionless.child (by simp [Node.children])))
        (functionless.quiet_index known)
  | root _ found =>
      rcases (namedRoot_cases found).1 with empty | context
      · rw [empty]
        exact start
      · rw [context]
        exact push start trivial

theorem agree_read (objects : Array HostObject) (start : Value) (path : Path) :
    (Correspondence.unlogged objects).Agree (Path.read callFunction start path)
      (Path.read callFunction start path) := by
  have callers : (Correspondence.unlogged objects).CallersAgree callFunction callFunction :=
    Correspondence.sameCode_callers
  induction path generalizing start with
  | nil => exact .pure start
  | cons segment rest ih =>
      rw [Path.read_cons]
      refine Correspondence.Agree.bind ?_ fun next => ih next
      cases segment with
      | member name => exact Correspondence.agree_member callers start name
      | index arguments => exact Correspondence.agree_item callers start arguments

/-- Reading along quiet chains leaves nothing behind but requests, if hosts are pure. -/
theorem Later.log {world later : World Closure} (pure : PureObjects world.objects)
    (quiet : ∀ chain, resolver.StaticIn expr chain → chain.path.Quiet)
    (since : Later resolver callFunction expr world later) : ∃ log, later = { world with log } := by
  induction since with
  | start => exact ⟨world.log, rfl⟩
  | @read before after chain start value _ static _ read ih =>
      obtain ⟨log, same⟩ := ih
      have still : PureObjects before.objects := by rwa [same]
      obtain ⟨log', again⟩ :=
        Path.gives_of_read still (quiet chain static) read Closure callFunction before rfl
      rw [read] at again
      cases again
      exact ⟨log', by rw [same]⟩

/-- It is enough that the objects are pure, for expressions that hand them no functions. -/
theorem pureHosts_of_functionless (functionless : Functionless expr) {world : World Closure}
    (pure : PureObjects world.objects) : resolver.PureHosts callFunction expr world := by
  have quiet (chain : Chain) (static : resolver.StaticIn expr chain) : chain.path.Quiet := by
    obtain ⟨-, part, found, scope, flat⟩ := static
    exact (flattens_of_flatten flat).quiet (functionless.part found)
  intro chain later static since
  obtain ⟨log, rfl⟩ := since.log pure quiet
  have ended := agree_read world.objects (chain.root.start?.getD .null) chain.path _ _
    (Correspondence.unlogged_log world log)
  exact (ended.observe_eq id).1

end Conditions

section Lookups

/-- A resource that is an object with items. -/
def lookupResolver : Resolver :=
  { directory := .ofLists [] [("R", .object ⟨0, "r", "Table", ⟨0x1234⟩⟩)] }

/-- The object, with an item under each of two keys. -/
def lookupWorld (first second : Value) : World Closure :=
  { objects := #[{ indexer := some (.lookup [(first, .int 1), (second, .int 2)]) }] }

/-- The sum of both items, each read along a static chain. -/
def lookupSum (first second : Value) : Expr :=
  let item (id : NodeId) (key : Value) : Expr :=
    .mk id (.index (some (.mk (id + 1) (.unary .static (.mk (id + 2) (.member none "R")))))
      [.mk (id + 3) (.constant key)])
  .mk 0 (.binary .add (item 1 first) (item 5 second))

theorem lookupSum_raw (first second : Value) : Raw (lookupSum first second) 9 :=
  ⟨by simp [lookupSum, Expr.everywhere_mk, Node.children, Expr.id], rfl⟩

theorem lookupSum_pureHosts {first second : Value} (plain : first.isFunctionless)
    (plain' : second.isFunctionless) :
    lookupResolver.PureHosts callFunction (lookupSum first second)
      (lookupWorld first second) := by
  refine pureHosts_of_functionless ?_ fun object found => ?_
  · simp [Functionless, lookupSum, Expr.everywhere_mk, Node.children, Expr.constant?, Expr.node,
      plain, plain']
  · obtain rfl := Array.mem_singleton.mp found
    have done (arguments : List Value) :
        ∃ result, Behavior.lookup [(first, .int 1), (second, .int 2)] arguments = .done result := by
      unfold Behavior.lookup
      split <;> exact ⟨_, rfl⟩
    constructor
    · intro name behavior answers
      cases answers
    · intro name behavior answers
      cases answers
    · intro behavior answers
      cases answers
      refine ⟨fun arguments => ?_, fun arguments _ => done arguments⟩
      obtain ⟨result, same⟩ := done arguments
      rw [same]
      exact .done result

/-- One item twice, read once or read each time. -/
theorem resolve_eq_afresh_lookup :
    let expr := lookupSum (.int 1) (.int 1)
    let world := lookupWorld (.int 1) (.int 1)
    ∃ result, (lookupResolver.resolve callFunction expr world 9).1 = .ok result ∧
      (lookupResolver.resolveAfresh callFunction expr world 9).map Expr.erase =
        .ok result.erase := by
  intro expr world
  have plain : expr.Plain := by
    have named : isPlainName "R" := by decide
    simp [expr, lookupSum, Expr.Plain, Expr.everywhere_mk, Node.children, Expr.node, Node.isPlain,
      Expr.constant?, Value.isPlain, named]
  have pureHosts : lookupResolver.PureHosts callFunction expr world :=
    lookupSum_pureHosts rfl rfl
  have named : lookupResolver.directory.Named := Directory.named_ofLists _ _
  obtain ⟨result, ended⟩ :
      ∃ result, (lookupResolver.resolve callFunction expr world 9).1 = .ok result := ⟨_, rfl⟩
  have same := (resolve_eq_afresh (lookupSum_raw _ _).old pureHosts
    (coherent_of_plain plain named callFunction world)).1
  rw [ended] at same
  exact ⟨result, ended, same.symm⟩

/-- Two lists with the same text in a path: the first item stands for both. -/
theorem resolve_ne_afresh :
    let expr := lookupSum (.list [.bool true]) (.list [.string "true"])
    let world := lookupWorld (.list [.bool true]) (.list [.string "true"])
    Raw expr 9 ∧ lookupResolver.PureHosts callFunction expr world ∧
      (lookupResolver.resolve callFunction expr world 9).1.map Expr.erase ≠
        (lookupResolver.resolveAfresh callFunction expr world 9).map Expr.erase := by
  intro expr world
  refine ⟨lookupSum_raw _ _, lookupSum_pureHosts rfl rfl, ?_⟩
  let sum (id : NodeId) (first second : Expr) : Expr := .mk id (.binary .add first second)
  let number (id : NodeId) (value : Int64) : Expr := .mk id (.constant (.int value))
  have remembered : (lookupResolver.resolve callFunction expr world 9).1 =
      .ok (sum 10 (number 9 1) (number 9 1)) := rfl
  have afresh : lookupResolver.resolveAfresh callFunction expr world 9 =
      .ok (sum 11 (number 9 1) (number 10 2)) := rfl
  rw [remembered, afresh]
  simp [Except.map, sum, number, Expr.erase_mk, Node.map]

end Lookups

end Resolver

end Tether

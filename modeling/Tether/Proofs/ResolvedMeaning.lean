import Tether.Proofs.ChainMeaning

set_option autoImplicit false

/- A resolved tree means what the tree it was made from means, when its placeholders are supplied
by reading along their paths. The two trees are evaluated side by side: they differ in where a
chain is read, which no result depends on, and in the bodies inside function values. -/
namespace Tether

/-- The value at the end of a placeholder's path. -/
def Placeholder.Reads (reference : Placeholder) (surroundings : Surroundings)
    (world : World Closure) (value : Value) : Prop :=
  ∃ path after, path.isPlain ∧ path.text = reference.path ∧
    Path.read callFunction (surroundings.start reference.root) path world = .ok value after

/-- A node that gives what stands at the end of a chain. -/
def Expr.StandsFor (surroundings : Surroundings) (objects : Array HostObject) (chain : Chain)
    (node : Expr) : Prop :=
  ∃ value, Path.Gives objects (surroundings.start chain.root) chain.path value ∧
    ∀ call bindings, node.evaluate call surroundings bindings = pure value

namespace Resolver

section Leaves

variable {resolver : Resolver} {objects : Array HostObject} {next : NodeId}

/-- Chains with plain names, read in worlds with the same objects. -/
def plainTerms (resolver : Resolver) (objects : Array HostObject) (next : NodeId) :
    Terms Closure where
  base := next
  good := Chain.Plain resolver.directory
  settled world := world.objects = objects

theorem plainTerms_reads (pure : PureObjects objects) (call : Caller Closure) :
    ReadsSettled call (resolver.plainTerms objects next) := by
  intro chain start before value after plain _ _ settled read
  obtain ⟨log, again⟩ :=
    Path.gives_of_read (settled ▸ pure) plain.quiet read Closure call before rfl
  rw [read] at again
  cases again
  exact settled

/-- The nodes that a resolution makes for chains stand for them: a placeholder is supplied by
reading along a path with its text, which is the chain's own path. -/
theorem Leaf.standsFor (pure : PureObjects objects) (distinct : resolver.directory.Distinct)
    {call : Caller Closure} {progress : Progress Closure}
    (good : Good call (resolver.plainTerms objects next) progress) {chain : Chain}
    {node : Expr} (leaf : Leaf call (resolver.plainTerms objects next) progress chain node)
    {surroundings : Surroundings} {world : World Closure} (same : world.objects = objects)
    (supplied : ∀ id reference, node = .mk id (.placeholder reference) →
      ∃ value, reference.Reads surroundings world value ∧
        surroundings.placeholder id reference = .ok value) :
    node.StandsFor surroundings objects chain := by
  have plain : chain.Plain resolver.directory := leaf.sound
  cases leaf with
  | @placeholder id reference _ _ known path root =>
      obtain ⟨value, ⟨readPath, after, readPlain, text, read⟩, supply⟩ := supplied id reference rfl
      -- The node may have been made for another chain, with this key: it has the text of the path.
      obtain ⟨_, _, made, -, -, -, origin, originPlain, originRoot, originPath⟩ :=
        good.members _ _ known
      cases made
      have samePath : readPath = chain.path :=
        Path.text_injective readPlain plain.path (text.trans path)
      have listed : reference.root.Listed resolver.directory := originRoot ▸ originPlain.root
      have sameStart : surroundings.start reference.root = surroundings.start chain.root :=
        listed.start_eq distinct plain.root root surroundings
      rw [samePath, sameStart] at read
      have gives := Path.gives_of_read (same ▸ pure) plain.quiet read
      refine ⟨value, same ▸ gives, fun call bindings => ?_⟩
      rw [Expr.evaluate_placeholder, supply]
      rfl
  | @constant id value other _ _ otherPlain _ sameKey static evaluated =>
      obtain ⟨start, before, after, starts, settled, read⟩ := evaluated
      -- So may the constant: the key is a text, but it determines where the reading starts.
      obtain ⟨sameStart, samePath⟩ := otherPlain.static_eq plain sameKey static
      rw [sameStart] at starts
      rw [samePath] at read
      refine ⟨value, ?_, fun call bindings => rfl⟩
      rw [Surroundings.start_of_static starts]
      exact settled ▸ Path.gives_of_read (settled ▸ pure) plain.quiet read
  | @statics id name tag value _ _ isStatics whole =>
      refine ⟨value, ?_, fun call bindings => rfl⟩
      rw [whole, isStatics]
      exact Path.gives_nil objects value

end Leaves

section Simulation

variable {resolver : Resolver} {surroundings : Surroundings} {objects : Array HostObject}

/-- A function made by a resolved tree follows the one that the tree before makes at the same
place. Functions that were there before follow themselves. -/
inductive Follows (resolver : Resolver) (surroundings : Surroundings)
    (objects : Array HostObject) (arity : Nat) : Thunk → Thunk → Prop where
  | foreign (closure : Closure) :
      Follows resolver surroundings objects arity (.compiled closure) (.compiled closure)
  | lambda {bindings : Bindings} {parameters : List String} {body body' : Expr}
      (count : arity = parameters.length)
      (inner : Resolved resolver (Expr.StandsFor surroundings objects)
        (bindings.names ++ parameters) body body') :
      Follows resolver surroundings objects arity (.lambda surroundings bindings parameters body')
        (.lambda surroundings bindings parameters body)

/-- Resolved trees against the trees before. The objects are asked for chains at other times, so
that the requests may differ; the hosts are pure. -/
def resolution (resolver : Resolver) (surroundings : Surroundings)
    (objects : Array HostObject) : Correspondence Thunk Thunk where
  closures := Follows resolver surroundings objects
  objects := objects
  traced := False
  pureHosts := True

theorem agree_standsFor {link : Correspondence Thunk Thunk} (untraced : ¬ link.traced)
    {surroundings : Surroundings} {chain : Chain} {node : Expr}
    (stands : node.StandsFor surroundings link.objects chain) (call call' : Caller Thunk)
    (bindings : Bindings) :
    link.Agree (node.evaluate call surroundings bindings)
      (Path.read call' (surroundings.start chain.root) chain.path) := by
  obtain ⟨value, gives, evaluates⟩ := stands
  intro left right worlds
  obtain ⟨log, read⟩ := gives Thunk call' right worlds.rightObjects
  rw [evaluates, read]
  exact .ok value { worlds with log := fun traced => absurd traced untraced }

theorem agree_mapM {κ κ' : Type} {link : Correspondence κ κ'} {exprs results : List Expr}
    {run : Expr → Eval κ Value} {run' : Expr → Eval κ' Value}
    (count : exprs.length = results.length)
    (each : ∀ pair ∈ exprs.zip results, link.Agree (run pair.2) (run' pair.1)) :
    link.Agree (results.mapM run) (exprs.mapM run') := by
  induction exprs generalizing results with
  | nil =>
      obtain rfl := List.length_eq_zero_iff.mp count.symm
      exact .pure []
  | cons expr rest ih =>
      cases results with
      | nil => cases count
      | cons result others =>
          rw [List.zip_cons_cons, List.forall_mem_cons] at each
          rw [List.mapM_cons, List.mapM_cons]
          refine each.1.bind fun first => ?_
          refine (ih (Nat.succ.inj count) each.2).bind fun values => ?_
          exact .pure (first :: values)

/-- Resolved trees agree with the trees they were made from, under all arguments of the enclosing
lambdas. -/
theorem agree_resolved (suits : resolver.Suits surroundings) {call call' : Caller Thunk}
    (callers : (resolution resolver surroundings objects).CallersAgree call call')
    {scope : List String} {expr result : Expr}
    (resolved : Resolved resolver (Expr.StandsFor surroundings objects) scope expr result)
    {bindings : Bindings} (here : bindings.names = scope) :
    (resolution resolver surroundings objects).Agree
      (result.evaluate call surroundings bindings) (expr.evaluate call' surroundings bindings) := by
  have stand {chain : Chain} {node : Expr} (stands : node.StandsFor surroundings objects chain) :
      (resolution resolver surroundings objects).Agree (node.evaluate call surroundings bindings)
        (Path.read call' (surroundings.start chain.root) chain.path) :=
    agree_standsFor id stands call call' bindings
  have receive {owner : Option Expr} {receiver : Expr}
      (root : owner = none →
        receiver.StandsFor surroundings objects { root := resolver.defaultRoot })
      (given : ∀ expr, owner = some expr → (resolution resolver surroundings objects).Agree
        (receiver.evaluate call surroundings bindings)
        (expr.evaluate call' surroundings bindings)) :
      (resolution resolver surroundings objects).Agree
        (receiver.evaluate call surroundings bindings)
        (owner.elim (pure surroundings.root) (Expr.evaluate call' surroundings · bindings)) := by
    cases owner with
    | none =>
        have reached := stand (root rfl)
        rw [start_defaultRoot suits] at reached
        exact reached
    | some expr => exact given expr rfl
  induction resolved with
  | constant value =>
      rw [Expr.evaluate_constant, Expr.evaluate_constant]
      exact .pure value
  | @parameter scope id id' name =>
      rw [Expr.evaluate_parameter, Expr.evaluate_parameter]
      cases bindings.lookup name with
      | some value => exact .pure value
      | none => exact .throw _
  | @bound scope id id' name declared =>
      rw [Expr.evaluate_parameter, Expr.evaluate_name]
      rw [← here, bindings.contains_names] at declared
      obtain ⟨value, found⟩ := Option.isSome_iff_exists.mp declared
      rw [found]
      exact .pure value
  | @placeholder scope id reference =>
      rw [Expr.evaluate_placeholder, Expr.evaluate_placeholder]
      exact .lift _
  | chain flat stands =>
      subst here
      rw [evaluate_chain suits (flattens_of_flatten flat)]
      exact stand stands
  | member name _ _ owner =>
      rw [Expr.evaluate_member, Expr.evaluate_member]
      exact (owner here).bind fun value => Correspondence.agree_member callers value name
  | index _ root _ count _ owner each =>
      rw [Expr.evaluate_index, Expr.evaluate_index, Option.elim_some]
      refine (receive root fun expr found => owner expr found here).bind fun value => ?_
      refine (agree_mapM count fun pair found => each pair found here).bind fun values => ?_
      exact Correspondence.agree_item callers value values
  | call method root _ count _ owner each =>
      rw [Expr.evaluate_call, Expr.evaluate_call, Option.elim_some]
      refine (receive root fun expr found => owner expr found here).bind fun value => ?_
      refine (agree_mapM count fun pair found => each pair found here).bind fun values => ?_
      exact Correspondence.agree_method callers value method values
  | unary computes _ inner =>
      rw [Expr.evaluate_unary computes, Expr.evaluate_unary computes]
      exact (inner here).bind fun value => .lift _
  | binary op _ _ first second =>
      rw [Expr.evaluate_binary, Expr.evaluate_binary]
      exact agree_evaluate op (first here) (second here)
  | condition _ _ _ first second third =>
      rw [Expr.evaluate_condition, Expr.evaluate_condition]
      refine (first here).bind fun value => ?_
      refine (Correspondence.Agree.lift value.toBool).bind fun flag => ?_
      cases flag with
      | true => exact second here
      | false => exact third here
  | lambda inner _ =>
      rw [Expr.evaluate_lambda, Expr.evaluate_lambda]
      refine (Correspondence.agree_newFunction (.closure ?_)).bind fun handle => .pure _
      exact .lambda rfl (here ▸ inner)

theorem resolution_enters (suits : resolver.Suits surroundings) (objects : Array HostObject) :
    (resolution resolver surroundings objects).EntersAgree Thunk.enter Thunk.enter := by
  intro call call' callers first second arguments follows
  cases follows with
  | foreign closure =>
      exact Correspondence.agree_eval callers (fun arity closure => .foreign closure) _ closure.body
  | @lambda bindings parameters body body' count inner =>
      exact agree_resolved suits callers inner (bindings.names_enter count)

theorem resolution_forTrees (resolver : Resolver) (surroundings : Surroundings)
    {world : World Closure} (pure : world.Pure) :
    (resolution resolver surroundings world.objects).Worlds world.forTrees world.forTrees where
  leftObjects := rfl
  rightObjects := rfl
  pureObjects _ := pure.objects
  log _ := rfl
  memory _ := rfl
  room := .inl rfl
  size := rfl
  functions id := by
    simp only [World.forTrees, Array.getElem?_map]
    cases found : world.functions[id]? with
    | none => exact .none
    | some function =>
        have given := pure.functions function (Array.mem_of_getElem? found)
        obtain ⟨arity, callable⟩ := function
        refine .some ⟨rfl, ?_⟩
        cases callable with
        | host behavior => exact .host behavior fun _ => given behavior rfl
        | closure closure => exact .closure (.foreign closure)

theorem meaning_resolved (suits : resolver.Suits surroundings) {expr result : Expr}
    {world : World Closure} (pure : world.Pure)
    (resolved : Resolved resolver (Expr.StandsFor surroundings world.objects) [] expr result) :
    (result.meaning surroundings world).1 = (expr.meaning surroundings world).1 := by
  have callers :
      (resolution resolver surroundings world.objects).CallersAgree callThunk callThunk :=
    Correspondence.callers_agree_inRoom (resolution_enters suits world.objects)
  have here : Bindings.names [] = [] := rfl
  have agree := agree_resolved suits callers resolved here
  exact ((agree _ _ (resolution_forTrees resolver surroundings pure)).observe_eq id).1

end Simulation

theorem plainTerms_fit {resolver : Resolver} {expr : Expr} {next : NodeId}
    (old : expr.Everywhere (·.id < next)) (plain : expr.Plain) (named : resolver.directory.Named)
    (objects : Array HostObject) : Fit resolver (resolver.plainTerms objects next) expr := by
  intro part found
  refine ⟨old part found, fun scope chain flat => ?_⟩
  exact (flattens_of_flatten flat).plain named (plain.part found)

/-- Resolution preserves meaning where hosts are pure. Between any target and source for which the
path of every placeholder can be read, the resolved expression, with its placeholders supplied by
reading their paths, evaluates to what the expression itself does, failures included. -/
theorem resolve_meaning {resolver : Resolver} {expr resolved : Expr} {next : NodeId}
    {world later : World Closure} {surroundings : Surroundings}
    (old : expr.Everywhere (·.id < next)) (plain : expr.Plain)
    (named : resolver.directory.Named) (distinct : resolver.directory.Distinct)
    (pure : later.Pure)
    (ended : (resolver.resolve callFunction expr world next).1 = .ok resolved)
    (unchanged : later.objects = world.objects) (suits : resolver.Suits surroundings)
    (supplied : ∀ id reference, (id, reference) ∈ resolved.placeholders →
      ∃ value, reference.Reads surroundings later value ∧
        surroundings.placeholder id reference = .ok value) :
    (resolved.meaning surroundings later).1 = (expr.meaning surroundings later).1 := by
  obtain ⟨after, good, related⟩ := resolve_resolved
    (plainTerms_reads pure.objects callFunction) (plain_defaultRoot resolver)
    (plainTerms_fit old plain named later.objects) unchanged.symm ended
  refine meaning_resolved suits pure (related.mono fun node found chain leaf => ?_)
  refine leaf.standsFor pure.objects distinct good rfl fun id reference isPlaceholder => ?_
  rw [isPlaceholder] at found
  exact supplied id reference (Expr.mem_placeholders.mpr found)

/-- A length that is computed while resolving is added to one that is read from the source, a host
object. -/
theorem resolve_meaning_lengths :
    let resolver : Resolver :=
      { directory := ({} : Directory).register ⟨"Limits", .object, .string "ab"⟩ }
    let world : World Closure :=
      { objects := #[{ members := [("Length", .constantly (.int 3))] }] }
    let surroundings : Surroundings :=
      ⟨.null, .object ⟨0, "source", "Source", .object⟩, false, resolver.directory,
        fun _ _ => .ok (.int 3)⟩
    let expr : Expr := .mk 0 (.binary .add
      (.mk 1 (.member (some (.mk 2 (.unary .static (.mk 3 (.member none "Limits"))))) "Length"))
      (.mk 4 (.member none "Length")))
    world.Pure ∧ ∃ resolved, (resolver.resolve callFunction expr world 5).1 = .ok resolved ∧
      (resolved.meaning surroundings world).1 = (expr.meaning surroundings world).1 ∧
      (resolved.meaning surroundings world).1 = .ok (.int 5) := by
  intro resolver world surroundings expr
  let length : Placeholder :=
    { path := "Length", root := .source, flags := { observable := true }, kind := .member }
  let resolved : Expr := .mk 7 (.binary .add
    (.mk 5 (.constant (.int 2))) (.mk 6 (.placeholder length)))
  have ended : (resolver.resolve callFunction expr world 5).1 = .ok resolved := rfl
  have old : expr.Everywhere (·.id < 5) := by
    simp [expr, Expr.everywhere_mk, Node.children, Expr.id]
  have plain : expr.Plain := by
    have length : isPlainName "Length" := by decide
    have limits : isPlainName "Limits" := by decide
    simp [expr, Expr.Plain, Expr.everywhere_mk, Node.children, Expr.node, Node.isPlain, length,
      limits]
  have named : resolver.directory.Named :=
    Directory.named_ofLists [⟨"Limits", .object, .string "ab"⟩] []
  have distinct : resolver.directory.Distinct := by
    have limits (name : String) (type : NamedType)
        (found : resolver.directory.types.get? name = some type) : name = "Limits" := by
      simp only [resolver, Directory.register, Table.get?_insert] at found
      split at found
      · assumption
      · cases found
    intro name other type type' found found' _
    exact (limits name type found).trans (limits other type' found').symm
  have pure : world.Pure := by
    refine ⟨fun object found => ?_, fun function found => by simp [world] at found⟩
    obtain rfl := Array.mem_singleton.mp found
    constructor
    · intro name behavior answers
      obtain rfl : behavior = .constantly (.int 3) := by
        simp only [List.lookup_cons, List.lookup_nil] at answers
        split at answers <;> cases answers
        rfl
      exact ⟨fun _ => .done _, fun _ _ => ⟨_, rfl⟩⟩
    · intro name behavior answers
      cases answers
    · intro behavior answers
      cases answers
  have supplied (id : NodeId) (reference : Placeholder)
      (found : (id, reference) ∈ resolved.placeholders) :
      ∃ value, reference.Reads surroundings world value ∧
        surroundings.placeholder id reference = .ok value := by
    have only : (id, reference) = (6, length) := List.mem_singleton.mp found
    cases only
    exact ⟨.int 3, ⟨[.member "Length"], _, by decide, rfl, rfl⟩, rfl⟩
  exact ⟨pure, resolved, ended,
    resolve_meaning old plain named distinct pure ended rfl ⟨rfl, rfl⟩ supplied, rfl⟩

end Resolver

end Tether

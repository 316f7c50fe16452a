import Tether.Proofs.CodeMeaning
import Tether.Proofs.PathReading
import Tether.Proofs.ResolutionWalk

set_option autoImplicit false

/- Chains against the trees they were read off. Evaluating the tree is reading along the chain, and
in a tree with plain names a chain is determined by the texts that it is remembered by. -/
namespace Tether

theorem Bindings.contains_names (bindings : Bindings) (name : String) :
    bindings.names.contains name = (bindings.lookup name).isSome := by
  induction bindings with
  | nil => rfl
  | cons binding rest ih =>
      obtain ⟨found, value⟩ := binding
      have names_cons : names ((found, value) :: rest) = names rest ++ [found] := by simp [names]
      rw [names_cons, List.lookup_cons, List.contains_append, ih, List.contains_cons]
      cases name == found <;> simp

/-- The value that a root stands for. -/
def Surroundings.start (surroundings : Surroundings) : Root → Value
  | .target => surroundings.target
  | .source => surroundings.source
  | .static _ _ statics => statics
  | .resource _ value => value

theorem Surroundings.start_of_static {surroundings : Surroundings} {root : Root} {start : Value}
    (starts : root.start? = some start) : surroundings.start root = start := by
  cases root <;> cases starts <;> rfl

namespace Resolver

/-- The trees that are chains. -/
inductive Flattens (resolver : Resolver) (scope : List String) : Expr → Chain → Prop where
  | name {id : NodeId} {name : String} (undeclared : scope.contains name = false) :
      Flattens resolver scope (.mk id (.member none name))
        (Chain.push { root := resolver.defaultRoot } (.member name))
  | member {id : NodeId} {target : Expr} {name : String} {chain : Chain}
      (owner : Flattens resolver scope target chain) :
      Flattens resolver scope (.mk id (.member (some target) name)) (chain.push (.member name))
  | rootItem {id : NodeId} {arguments : List Expr} {values : List Value}
      (known : constants arguments = some values) :
      Flattens resolver scope (.mk id (.index none arguments))
        (Chain.push { root := resolver.defaultRoot } (.index values))
  | item {id : NodeId} {target : Expr} {arguments : List Expr} {values : List Value}
      {chain : Chain} (owner : Flattens resolver scope target chain)
      (known : constants arguments = some values) :
      Flattens resolver scope (.mk id (.index (some target) arguments))
        (chain.push (.index values))
  | root {id inner : NodeId} {op : UnaryOp} {name : String} {chain : Chain}
      (namesRoot : op.namesRoot) (found : resolver.namedRoot name (op == .static) = .ok chain) :
      Flattens resolver scope (.mk id (.unary op (.mk inner (.member none name)))) chain

theorem pushed_eq_some {inner : Except ResolveError (Option Chain)} {segment : Segment}
    {chain : Chain}
    (pushed : (do let found ← inner; pure (found.map (·.push segment))) = Except.ok (some chain)) :
    ∃ first, inner = .ok (some first) ∧ chain = first.push segment := by
  obtain ⟨found, ended, made⟩ := Tether.ok_of_bind pushed
  cases found with
  | none => cases made
  | some first =>
      cases made
      exact ⟨first, ended, rfl⟩

theorem flattens_of_flatten {resolver : Resolver} {scope : List String} {expr : Expr}
    {chain : Chain} (flat : resolver.flatten scope expr = .ok (some chain)) :
    Flattens resolver scope expr chain := by
  induction expr using Expr.induct generalizing chain with
  | constant | parameter | placeholder | call | binary | condition | lambda => cases flat
  | name id name =>
      rw [flatten] at flat
      split at flat
      · cases flat
      · rename_i undeclared
        cases flat
        exact .name (by simpa using undeclared)
  | member id target name ih =>
      rw [flatten] at flat
      obtain ⟨inner, flattened, rfl⟩ := pushed_eq_some flat
      exact .member (ih flattened)
  | index id target arguments ih =>
      rw [flatten] at flat
      split at flat
      · split at flat
        · cases flat
        · rename_i values known
          cases target with
          | none =>
              cases flat
              exact .rootItem known
          | some target =>
              obtain ⟨inner, flattened, rfl⟩ := pushed_eq_some flat
              exact .item (ih target rfl flattened) known
      · cases flat
  | unary id op operand ih =>
      rw [flatten] at flat
      split at flat
      · rename_i namesRoot
        obtain ⟨inner, node⟩ := operand
        split at flat
        · rename_i name named
          cases named
          cases found : resolver.namedRoot name (op == .static) with
          | error error =>
              rw [found] at flat
              cases flat
          | ok root =>
              rw [found] at flat
              cases flat
              exact .root namesRoot found
        · cases flat
      · cases flat

/-- Surroundings that the resolver's expressions are meant for. -/
structure Suits (resolver : Resolver) (surroundings : Surroundings) : Prop where
  directory : surroundings.directory = resolver.directory
  isTarget : surroundings.isTarget = resolver.isTarget

section Evaluation

variable {resolver : Resolver} {surroundings : Surroundings} {call : Caller Thunk}
  {bindings : Bindings}

theorem start_defaultRoot (suits : resolver.Suits surroundings) :
    surroundings.start resolver.defaultRoot = surroundings.root := by
  simp only [defaultRoot, Surroundings.root, suits.isTarget]
  split <;> rfl

theorem read_namedRoot (suits : resolver.Suits surroundings) {name : String} {isStatic : Bool}
    {chain : Chain} (found : resolver.namedRoot name isStatic = .ok chain) :
    surroundings.named call name =
      Path.read call (surroundings.start chain.root) chain.path := by
  simp only [namedRoot] at found
  split at found
  · cases found; rfl
  · cases found; rfl
  · cases found; rfl
  · cases found; rfl
  · cases found
    simp only [Path.read_single]
    rfl
  · simp only [Surroundings.named, suits.directory]
    cases listed : resolver.directory.types.get? name with
    | some type =>
        rw [listed] at found
        cases found
        rfl
    | none =>
        rw [listed] at found
        cases stored : resolver.directory.resources.get? name with
        | some value =>
            rw [stored] at found
            cases found
            rfl
        | none =>
            rw [stored] at found
            cases found

theorem evaluate_constants {arguments : List Expr}
    {values : List Value} (known : constants arguments = some values) :
    arguments.mapM (Expr.evaluate call surroundings · bindings) = pure values := by
  induction arguments generalizing values with
  | nil =>
      cases known
      rfl
  | cons argument rest ih =>
      simp only [constants, List.mapM_cons, Option.bind_eq_bind, Option.bind_eq_some_iff] at known
      obtain ⟨first, firstKnown, others, othersKnown, same⟩ := known
      cases same
      obtain ⟨id, node⟩ := argument
      cases node with
      | constant value =>
          cases firstKnown
          rw [List.mapM_cons, ih othersKnown]
          rfl
      | _ => cases firstKnown

/-- Evaluating a chain is reading along it. -/
theorem evaluate_chain (suits : resolver.Suits surroundings) {expr : Expr} {chain : Chain}
    (flattens : Flattens resolver bindings.names expr chain) :
    expr.evaluate call surroundings bindings =
      Path.read call (surroundings.start chain.root) chain.path := by
  induction flattens with
  | name undeclared =>
      rw [bindings.contains_names, Option.isSome_eq_false_iff, Option.isNone_iff_eq_none]
        at undeclared
      rw [Expr.evaluate_name, undeclared]
      simp only [Chain.push, List.nil_append, Path.read_single, Path.readSegment,
        start_defaultRoot suits]
  | member owner ih =>
      rw [Expr.evaluate_member, ih, Chain.push, Path.read_append]
      simp only [Path.read_single, Path.readSegment]
  | rootItem known =>
      rw [Expr.evaluate_index, evaluate_constants known]
      simp only [Chain.push, List.nil_append, Path.read_single, Path.readSegment,
        start_defaultRoot suits, Option.elim_none, pure_bind]
  | item owner known ih =>
      rw [Expr.evaluate_index, evaluate_constants known, Option.elim_some, ih, Chain.push,
        Path.read_append]
      simp only [Path.read_single, Path.readSegment, pure_bind]
  | root namesRoot found => rw [Expr.evaluate_root namesRoot, read_namedRoot suits found]

end Evaluation

end Resolver

namespace Directory

/-- Every type is listed under its own name. -/
def Named (directory : Directory) : Prop :=
  ∀ name type, directory.types.get? name = some type → type.name = name

theorem Named.register {directory : Directory} (named : directory.Named) (type : NamedType) :
    (directory.register type).Named := by
  intro name found listed
  rw [Directory.register, Table.get?_insert] at listed
  split at listed
  · rename_i same
    cases listed
    exact same.symm
  · exact named name found listed

/-- Directories made by registering types list them under their own names. -/
theorem named_ofLists (types : List NamedType) (resources : List (String × Value)) :
    (ofLists types resources).Named := by
  refine List.foldlRecOn resources _ ?_ fun _ named _ _ => named
  exact List.foldlRecOn types _ nofun fun _ named type _ => named.register type

/-- Different types are told apart by their tags. -/
def Distinct (directory : Directory) : Prop :=
  ∀ name other type type', directory.types.get? name = some type →
    directory.types.get? other = some type' → type.tag = type'.tag → name = other

end Directory

/-- Roots that the directory knows under plain names. -/
def Root.Listed (directory : Directory) : Root → Prop
  | .target | .source => True
  | .static name tag statics =>
      isPlainName name ∧ ∃ type, directory.types.get? name = some type ∧ type.tag = tag ∧
        type.statics = statics
  | .resource name value => isPlainName name ∧ directory.resources.get? name = some value

structure Chain.Plain (directory : Directory) (chain : Chain) : Prop where
  root : chain.root.Listed directory
  path : chain.path.isPlain

/-- The name that a node reads is plain, and so are the constants among the arguments of an
index. -/
def Node.isPlain : Node Expr → Bool
  | .member _ name => isPlainName name
  | .index _ arguments => arguments.all fun argument => argument.constant?.all Value.isPlain
  | _ => true

def Expr.Plain : Expr → Prop :=
  Expr.Everywhere fun part => part.node.isPlain

section Plain

variable {directory : Directory}

theorem Chain.Plain.quiet {chain : Chain} (plain : chain.Plain directory) : chain.path.Quiet :=
  Path.quiet_of_isPlain plain.path

theorem Chain.Plain.push {chain : Chain} (plain : chain.Plain directory) {segment : Segment}
    (also : segment.isPlain) : (chain.push segment).Plain directory where
  root := plain.root
  path := by
    have path := plain.path
    simp only [Path.isPlain] at path
    simp [Chain.push, Path.isPlain, List.all_append, path, also]

/-- What a root is told apart by settles the value that it stands for. -/
theorem Root.Listed.start_eq (distinct : directory.Distinct) {first second : Root}
    (listed : first.Listed directory) (listed' : second.Listed directory)
    (same : first.key = second.key) (surroundings : Surroundings) :
    surroundings.start first = surroundings.start second := by
  cases first with
  | target | source =>
      cases second <;> cases same
      rfl
  | static name tag statics =>
      cases second with
      | static other tag' statics' =>
          cases same
          obtain ⟨-, type, found, sameTag, rfl⟩ := listed
          obtain ⟨-, type', found', sameTag', rfl⟩ := listed'
          obtain rfl := distinct name other type type' found found' (sameTag.trans sameTag'.symm)
          rw [found] at found'
          cases found'
          rfl
      | _ => cases same
  | resource name value =>
      cases second with
      | resource other value' =>
          cases same
          have found : some value = some value' := listed.2.symm.trans listed'.2
          cases found
          rfl
      | _ => cases same

/-- A static chain is determined by what it is remembered by. -/
theorem Chain.Plain.static_eq {first second : Chain} (plain : first.Plain directory)
    (plain' : second.Plain directory) (same : first.staticKey? = second.staticKey?)
    (static : second.staticKey?.isSome) :
    first.root.start? = second.root.start? ∧ first.path = second.path := by
  obtain ⟨root, isStatic, path⟩ := first
  obtain ⟨root', isStatic', path'⟩ := second
  have paths {name name' : String} (named : isPlainName name) (named' : isPlainName name')
      (texts : name ++ ":" ++ path.text = name' ++ ":" ++ path'.text) :
      name = name' ∧ path = path' := by
    obtain ⟨names, texts⟩ := keyText_injective named named' texts
    exact ⟨names, Path.text_injective plain.path plain'.path texts⟩
  cases root' with
  | target | source => cases static
  | static name tag statics =>
      cases root with
      | static other tag' statics' =>
          simp only [Chain.staticKey?, Option.some.injEq, Prod.mk.injEq, true_and] at same
          obtain ⟨named', type', found', -, rfl⟩ := plain.root
          obtain ⟨named, type, found, -, rfl⟩ := plain'.root
          obtain ⟨rfl, samePath⟩ := paths named' named same
          rw [found] at found'
          cases found'
          exact ⟨rfl, samePath⟩
      | _ => cases same
  | resource name value =>
      cases root with
      | resource other value' =>
          simp only [Chain.staticKey?, Option.some.injEq, Prod.mk.injEq, true_and] at same
          obtain ⟨named', found'⟩ := plain.root
          obtain ⟨named, found⟩ := plain'.root
          obtain ⟨rfl, samePath⟩ := paths named' named same
          rw [found] at found'
          cases found'
          exact ⟨rfl, samePath⟩
      | _ => cases same

end Plain

namespace Resolver

variable {resolver : Resolver}

theorem plain_defaultRoot (resolver : Resolver) :
    Chain.Plain resolver.directory { root := resolver.defaultRoot } where
  root := by
    simp only [defaultRoot]
    split <;> trivial
  path := rfl

/-- Where a named root starts, and what it adds to the path. -/
theorem namedRoot_cases {name : String} {isStatic : Bool} {chain : Chain}
    (found : resolver.namedRoot name isStatic = .ok chain) :
    (chain.path = [] ∨ chain.path = [.member "DataContext"]) ∧
      (chain.root = .target ∨ chain.root = .source ∨
        (∃ type, resolver.directory.types.get? name = some type ∧
          chain.root = .static type.name type.tag type.statics) ∨
        ∃ value, resolver.directory.resources.get? name = some value ∧
          chain.root = .resource name value) := by
  simp only [namedRoot] at found
  split at found
  · cases found; exact ⟨.inl rfl, .inl rfl⟩
  · cases found; exact ⟨.inl rfl, .inl rfl⟩
  · cases found; exact ⟨.inl rfl, .inl rfl⟩
  · cases found; exact ⟨.inl rfl, .inr (.inl rfl)⟩
  · cases found; exact ⟨.inr rfl, .inl rfl⟩
  · split at found
    · rename_i type listed
      cases found
      exact ⟨.inl rfl, .inr (.inr (.inl ⟨type, listed, rfl⟩))⟩
    · split at found
      · rename_i value listed
        cases found
        exact ⟨.inl rfl, .inr (.inr (.inr ⟨value, listed, rfl⟩))⟩
      · cases found

theorem plain_namedRoot (named : resolver.directory.Named) {name : String}
    (plain : isPlainName name) {isStatic : Bool} {chain : Chain}
    (found : resolver.namedRoot name isStatic = .ok chain) :
    chain.Plain resolver.directory := by
  obtain ⟨path, root⟩ := namedRoot_cases found
  constructor
  · obtain target | source | ⟨type, listed, static⟩ | ⟨value, listed, resource⟩ := root
    · rw [target]
      trivial
    · rw [source]
      trivial
    · rw [static, named name type listed]
      exact ⟨plain, type, listed, rfl, rfl⟩
    · rw [resource]
      exact ⟨plain, listed⟩
  · rcases path with empty | context
    · rw [empty]
      rfl
    · rw [context]
      decide

theorem plain_constants {arguments : List Expr} {values : List Value}
    (plain : arguments.all fun argument => argument.constant?.all Value.isPlain)
    (known : constants arguments = some values) : values.all Value.isPlain := by
  induction arguments generalizing values with
  | nil =>
      cases known
      rfl
  | cons argument rest ih =>
      simp only [constants, List.mapM_cons, Option.bind_eq_bind, Option.bind_eq_some_iff] at known
      obtain ⟨first, firstKnown, others, othersKnown, same⟩ := known
      cases same
      simp only [List.all_cons, firstKnown, Option.all_some, Bool.and_eq_true] at plain ⊢
      exact ⟨plain.1, ih plain.2 othersKnown⟩

/-- Chains of trees with plain names are plain. -/
theorem Flattens.plain (named : resolver.directory.Named) {scope : List String} {expr : Expr}
    {chain : Chain} (flattens : Flattens resolver scope expr chain) (plain : expr.Plain) :
    chain.Plain resolver.directory := by
  induction flattens with
  | name => exact (plain_defaultRoot resolver).push plain.here
  | member owner ih =>
      have below := ih (plain.child (by simp [Node.children]))
      exact below.push plain.here
  | rootItem known => exact (plain_defaultRoot resolver).push (plain_constants plain.here known)
  | item owner known ih =>
      have below := ih (plain.child (by simp [Node.children]))
      exact below.push (plain_constants plain.here known)
  | @root id inner op name chain namesRoot found =>
      have below : Expr.Plain (.mk inner (.member none name)) :=
        plain.child (by simp [Node.children])
      exact plain_namedRoot named below.here found

end Resolver

end Tether

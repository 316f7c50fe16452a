import Tether.Engine
import Tether.Proofs.CompiledMeaning
import Tether.Proofs.KeySlots
import Tether.Proofs.ResolutionWalk

set_option autoImplicit false

/- From an expression to its calls with the standard builders. A prepared expression has one member
for each key of its tree, and each placeholder reads the argument for its own key. -/
namespace Tether

namespace Resolver

/-- Chains of any kind, read in any world. -/
def anyTerms (κ : Type) (next : NodeId) : Terms κ where
  base := next
  good _ := True
  settled _ := True

section Placeholders

variable {κ : Type} {resolver : Resolver} {call : Caller κ} {next : NodeId} {expr result : Expr}

/-- A tree with no placeholders in it yet, whose nodes are not new. -/
structure Raw (expr : Expr) (next : NodeId) : Prop where
  old : expr.Everywhere (·.id < next)
  bare : expr.placeholders = []

/-- What a resolution makes of a tree whose nodes are not new. -/
theorem resolve_resolved_any (old : expr.Everywhere (·.id < next)) {world : World κ}
    (ended : (resolver.resolve call expr world next).1 = .ok result) :
    ∃ after, Good call (anyTerms κ next) after ∧
      Resolved resolver (Leaf call (anyTerms κ next) after) [] expr result := by
  have fit : Fit resolver (anyTerms κ next) expr := fun part found =>
    ⟨old part found, fun _ _ _ => trivial⟩
  exact resolve_resolved (fun _ _ _ _ _ _ _ _ _ _ => trivial) trivial fit trivial ended

/-- The placeholders of a resolved tree stand for chains or were there before. -/
theorem Resolved.leaf_or_kept {leaf : Chain → Expr → Prop} {scope : List String}
    (resolved : Resolved resolver leaf scope expr result)
    (childless : ∀ chain node, leaf chain node → node.children = []) {part : Expr}
    (inside : part ∈ result.preorder) (isPlaceholder : part.placeholder?.isSome) :
    (∃ chain, leaf chain part) ∨ part ∈ expr.preorder := by
  have stand {chain : Chain} {node : Expr} (stands : leaf chain node)
      (inside : part ∈ node.preorder) : ∃ chain, leaf chain part := by
    obtain ⟨id, content⟩ := node
    have none : content.children = [] := childless chain _ stands
    rcases Expr.mem_preorder_mk.mp inside with rfl | ⟨child, found, -⟩
    · exact ⟨chain, stands⟩
    · rw [none] at found
      cases found
  have above {id : NodeId} {node : Node Expr} {child : Expr} (found : child ∈ node.children)
      (below : (∃ chain, leaf chain part) ∨ part ∈ child.preorder) :
      (∃ chain, leaf chain part) ∨ part ∈ Expr.preorder (.mk id node) :=
    below.imp_right fun kept => Expr.preorder_subset found kept
  have received {id : NodeId} {node : Node Expr} {target : Option Expr} {target' : Expr}
      {arguments arguments' : List Expr} (whole : node.children = target.toList ++ arguments)
      (root : target = none → leaf { root := resolver.defaultRoot } target')
      (owner : ∀ expr, target = some expr → part ∈ target'.preorder →
        (∃ chain, leaf chain part) ∨ part ∈ expr.preorder)
      (count : arguments.length = arguments'.length)
      (each : ∀ pair ∈ arguments.zip arguments', part ∈ pair.2.preorder →
        (∃ chain, leaf chain part) ∨ part ∈ pair.1.preorder)
      {child : Expr} (found : child ∈ target' :: arguments') (inside : part ∈ child.preorder) :
      (∃ chain, leaf chain part) ∨ part ∈ Expr.preorder (.mk id node) := by
    rcases List.mem_cons.mp found with rfl | argument
    · cases target with
      | none => exact .inl (stand (root rfl) inside)
      | some expr => exact above (by simp [whole]) (owner expr rfl inside)
    · rw [← List.map_snd_zip (Nat.le_of_eq count.symm)] at argument
      obtain ⟨pair, member, rfl⟩ := List.mem_map.mp argument
      exact above (by simp [whole, (List.of_mem_zip member).1]) (each pair member inside)
  induction resolved with
  | constant | parameter | bound =>
      obtain ⟨child, found, -⟩ := Expr.below_of_placeholder rfl isPlaceholder inside
      cases found
  | placeholder => exact .inr inside
  | chain flat stands => exact .inl (stand stands inside)
  | index _ root _ count _ owner each | call method root _ count _ owner each =>
      obtain ⟨child, found, below⟩ := Expr.below_of_placeholder rfl isPlaceholder inside
      exact received rfl root owner count each found below
  | member name _ _ ih | unary computes _ ih | lambda _ ih =>
      obtain ⟨child, found, below⟩ := Expr.below_of_placeholder rfl isPlaceholder inside
      rw [List.mem_singleton.mp found] at below
      exact above (by simp [Node.children]) (ih below)
  | binary op _ _ first second =>
      obtain ⟨child, found, below⟩ := Expr.below_of_placeholder rfl isPlaceholder inside
      simp only [Node.children, List.mem_cons, List.not_mem_nil, or_false] at found
      rcases found with rfl | rfl
      · exact above (by simp [Node.children]) (first below)
      · exact above (by simp [Node.children]) (second below)
  | condition _ _ _ first second third =>
      obtain ⟨child, found, below⟩ := Expr.below_of_placeholder rfl isPlaceholder inside
      simp only [Node.children, List.mem_cons, List.not_mem_nil, or_false] at found
      rcases found with rfl | rfl | rfl
      · exact above (by simp [Node.children]) (first below)
      · exact above (by simp [Node.children]) (second below)
      · exact above (by simp [Node.children]) (third below)

theorem Leaf.children {terms : Terms κ} {progress : Progress κ} {chain : Chain} {node : Expr}
    (leaf : Leaf call terms progress chain node) : node.children = [] := by
  cases leaf <;> rfl

/-- Each placeholder made for a tree is the one that its key is remembered with. -/
theorem Resolved.remembered {terms : Terms κ} {progress : Progress κ} {scope : List String}
    (resolved : Resolved resolver (Leaf call terms progress) scope expr result)
    (bare : expr.placeholders = []) {id : NodeId} {reference : Placeholder} (found : (id, reference) ∈ result.placeholders) :
    progress.members.get? reference.key = some (.mk id (.placeholder reference)) := by
  obtain ⟨chain, leaf⟩ | kept := resolved.leaf_or_kept (fun _ _ leaf => leaf.children)
    (Expr.mem_placeholders.mp found) rfl
  · cases leaf with
    | placeholder _ _ known => exact known
  · rw [← Expr.mem_placeholders, bare] at kept
    cases kept

theorem Resolved.oneKey {terms : Terms κ} {progress : Progress κ} {scope : List String}
    (resolved : Resolved resolver (Leaf call terms progress) scope expr result)
    (bare : expr.placeholders = []) (good : Good call terms progress) :
    OneKey result.placeholders := by
  rintro ⟨id, reference⟩ found ⟨other, reference'⟩ found' same
  have known := resolved.remembered bare found
  have known' := resolved.remembered bare found'
  exact good.distinct _ _ _ _ known known' same

theorem Resolved.new {terms : Terms κ} {progress : Progress κ} {scope : List String}
    (resolved : Resolved resolver (Leaf call terms progress) scope expr result)
    (bare : expr.placeholders = []) (good : Good call terms progress) {id : NodeId}
    {reference : Placeholder} (found : (id, reference) ∈ result.placeholders) :
    terms.base ≤ id := by
  obtain ⟨_, _, made, -, new, -⟩ := good.members _ _ (resolved.remembered bare found)
  cases made
  exact new

end Placeholders

end Resolver

theorem Eval.length_mapM {κ α β : Type} {run : α → Eval κ β} {items : List α} {results : List β}
    (yields : Eval.Yields (items.mapM run) results) : results.length = items.length := by
  induction items generalizing results with
  | nil =>
      rw [List.mapM_nil] at yields
      rw [← Eval.yields_pure yields]
      rfl
  | cons item rest ih =>
      rw [List.mapM_cons] at yields
      obtain ⟨first, -, yields⟩ := Eval.yields_bind yields
      obtain ⟨others, ended, yields⟩ := Eval.yields_bind yields
      rw [← Eval.yields_pure yields, List.length_cons, List.length_cons, ih ended]

/-- The answer for a key, where answers are given in the order of the keys. -/
def Expr.answerFor (expression : Expr) (answers : List Argument) (key : PlaceholderKey) :
    Argument :=
  answers.getD (expression.keys.idxOf key) .empty

/-- Every placeholder as code that reads the answer for its key. -/
def Expr.reading (expression : Expr) (answer : PlaceholderKey → Argument) (part : Expr) :
    Option Fragment :=
  part.placeholder?.map fun reference =>
    .ofSlot (expression.keys.idxOf reference.key) (answer reference.key).tag

/-- Builds the expression with every placeholder as the answer for its key, and evaluates it. -/
def Expr.answering (expression : Expr) (answer : PlaceholderKey → Argument)
    (metadata : Option Metadata) (world : World Closure) :
    Except (Halt Error) Value × World Closure :=
  match Builder.plan (expression.reading answer) expression [] with
  | .error error => (.error (.failure (.compile error)), world)
  | .ok root =>
      Compiled.outcome
        (root.eval { slots := expression.keys.map fun key => (answer key).value, metadata }) world

namespace Prepared

/-- What makes a prepared expression read every placeholder under its own key. -/
structure Ready (slots : Slots) (prepared : Prepared) : Prop where
  callee : ∃ content, prepared.callee = .compiled content ∧
    Compiled.Intact slots prepared.expression content ∧
    content.memberCount = prepared.expression.keys.length
  slots : prepared.expression.SlotsByKey slots
  members : prepared.members.map (·.2.key) = prepared.expression.keys

variable {slots : Slots} {prepared : Prepared} {now : Store}

theorem map_answerFor {expression : Expr} {answers : List Argument}
    (count : answers.length = expression.keys.length) :
    expression.keys.map (expression.answerFor answers) = answers := by
  have distinct : expression.keys.Nodup := Numbering.nodup_eraseDups _
  refine List.ext_getElem (by rw [List.length_map, count]) fun position here there => ?_
  rw [List.getElem_map, Expr.answerFor, distinct.idxOf_getElem, List.getD_eq_getElem?_getD,
    List.getElem?_eq_getElem there, Option.getD_some]

/-- The fallback table of a call knows every placeholder by its key. -/
theorem plan_fallbacks {expression : Expr} {content : Compiled}
    (intact : Compiled.Intact slots expression content) (byKey : expression.SlotsByKey slots)
    (answer : PlaceholderKey → Argument) :
    Builder.plan (content.fallbacks slots (expression.keys.map fun key => (answer key).tag))
        expression = Builder.plan (expression.reading answer) expression := by
  refine Builder.plan_congr fun part inside => ?_
  cases other : part.placeholder? with
  | none =>
      rw [Compiled.fallbacks_other content slots _ other, Expr.reading, other]
      rfl
  | some reference =>
      obtain ⟨id, node⟩ := part
      cases node with
      | placeholder found =>
          have member : (id, found) ∈ expression.placeholders := Expr.mem_placeholders.mpr inside
          have listed : found.key ∈ expression.keys :=
            List.mem_eraseDups.mpr (List.mem_map_of_mem member)
          rw [Compiled.fallbacks_entered intact.members member, byKey _ member, Int.toNat_natCast,
            List.getElem?_map, List.getElem?_idxOf listed]
          rfl
      | _ => cases other

theorem Ready.invoke_eq (ready : Ready slots prepared)
    (unmoved : Compiled.Unmoved prepared.expression slots now.slots)
    (answer : PlaceholderKey → Argument) (metadata : Option Metadata) :
    let ran := prepared.invoke (prepared.expression.keys.map answer) metadata now
    (ran.1, ran.2.2.world) = prepared.expression.answering answer metadata now.world := by
  obtain ⟨content, callee, intact, count⟩ := ready.callee
  have enough : (prepared.expression.keys.map answer).length = content.memberCount := by
    rw [List.length_map, count]
  have invoked := Compiled.invoke_eq intact unmoved enough metadata now.world
  rw [List.map_map, List.map_map] at invoked
  have planned := plan_fallbacks intact ready.slots answer
  simp only [Function.comp_def, planned] at invoked
  simp only [Prepared.invoke, Callee.invoke, callee, Expr.answering]
  exact invoked

/-- A call reads each argument under the key that it was given for. -/
theorem Ready.invoke_answers (ready : Ready slots prepared)
    (unmoved : Compiled.Unmoved prepared.expression slots now.slots) {arguments : List Argument}
    (count : arguments.length = prepared.expression.keys.length) (metadata : Option Metadata) :
    let ran := prepared.invoke arguments metadata now
    (ran.1, ran.2.2.world) =
      prepared.expression.answering (prepared.expression.answerFor arguments) metadata
        now.world := by
  have invoked := ready.invoke_eq unmoved (prepared.expression.answerFor arguments) metadata
  rwa [map_answerFor count] at invoked

theorem Ready.invoked (ready : Ready slots prepared)
    (unmoved : Compiled.Unmoved prepared.expression slots now.slots) (arguments : List Argument)
    (metadata : Option Metadata) : Ready slots (prepared.invoke arguments metadata now).2.1 := by
  obtain ⟨content, callee, intact, count⟩ := ready.callee
  refine ⟨⟨(content.invoke now.slots arguments metadata now.world).2.1, ?_, ?_, ?_⟩, ready.slots,
    ready.members⟩
  · simp only [Prepared.invoke, Callee.invoke, callee]
  · exact Compiled.invoke_intact intact (fun _ => unmoved.aligned) metadata now.world
  · rw [Compiled.memberCount, Compiled.invoke_members]
    exact count

end Prepared

/-- Nodes that are not there yet have no slots. -/
def Store.Fresh (store : Store) : Prop :=
  ∀ id, store.next ≤ id → store.slots id < 0

namespace Engine

variable {settings : ResolveSettings} {directory : Directory} {expr : Expr} {isTarget : Bool}
  {metadata : Option Metadata} {store : Store}

/-- What is left to do once the names are resolved. -/
def finish (expression : Expr) (metadata : Option Metadata) (store : Store) :
    Except (Halt Error) Prepared × Store :=
  let (numbering, slots) := Numbering.collect {} store.slots expression
  match Compiled.compile Builder.standard slots expression metadata with
  | .error error => (.error (.failure (.compile error)), { store with slots })
  | .ok content =>
      (.ok { expression, members := numbering.members, callee := .compiled content },
        { store with slots })

theorem prepare_of_resolved {expression : Expr} {after : Store}
    (ended : resolve { settings, directory } expr isTarget store = (.ok expression, after)) :
    prepare { settings, directory } expr isTarget metadata store =
      finish expression metadata after := by
  simp only [prepare, ended]
  simp only [finish, compile, Strategy.compile, Strategy.compiling]
  cases Compiled.compile Builder.standard
    (Numbering.collect {} after.slots expression).2 expression metadata with
  | error error => simp only [Except.map, World.remark_nil]
  | ok content => simp only [Except.map, Function.comp_apply, World.remark_nil]

theorem prepare_cases (settings : ResolveSettings) (directory : Directory) (expr : Expr)
    (isTarget : Bool) (metadata : Option Metadata) (store : Store) :
    (∃ halt : Halt ResolveError,
      (prepare { settings, directory } expr isTarget metadata store).1 =
        .error (halt.map .resolve)) ∨
    ∃ expression after, resolve { settings, directory } expr isTarget store =
        (.ok expression, after) ∧
      prepare { settings, directory } expr isTarget metadata store =
        finish expression metadata after := by
  rcases ended : resolve { settings, directory } expr isTarget store with ⟨result, after⟩
  cases result with
  | error halt =>
      refine .inl ⟨halt, ?_⟩
      simp only [prepare, ended]
  | ok expression => exact .inr ⟨expression, after, rfl, prepare_of_resolved ended⟩

/-- The placeholders are numbered and entered one after another. -/
theorem finish_eq_foldl (expression : Expr) (metadata : Option Metadata) (store : Store) :
    finish expression metadata store =
      let (numbering, slots) := expression.placeholders.foldl Numbering.visit ({}, store.slots)
      match expression.placeholders.foldlM (SlotMembers.enter slots) [] with
      | .error error => (.error (.failure (.compile error)), { store with slots })
      | .ok members =>
          let callee : Callee :=
            .compiled { expression, members, chain := Builder.standard, metadata }
          (.ok { expression, members := numbering.members, callee }, { store with slots }) := by
  simp only [finish, Compiled.compile, SlotMembers.ofExpr_eq_foldlM, Numbering.collect_eq_foldl]
  cases expression.placeholders.foldlM (SlotMembers.enter _) [] with
  | error error => rfl
  | ok members => rfl

theorem finish_expression {expression : Expr} {prepared : Prepared}
    (accepted : (finish expression metadata store).1 = .ok prepared) :
    prepared.expression = expression := by
  simp only [finish] at accepted
  split at accepted
  · cases accepted
  · cases accepted
    rfl

theorem finish_ready {expression : Expr} (oneKey : OneKey expression.placeholders)
    (unassigned : ∀ found ∈ expression.placeholders, store.slots found.1 < 0)
    {prepared : Prepared} (accepted : (finish expression metadata store).1 = .ok prepared) :
    prepared.Ready (finish expression metadata store).2.slots := by
  have numbered := Numbering.collect_numbered oneKey store.slots
  revert numbered accepted
  simp only [finish]
  generalize Numbering.collect {} store.slots expression = state
  intro accepted numbered
  cases compiled : Compiled.compile Builder.standard state.2 expression metadata with
  | error error =>
      rw [compiled] at accepted
      cases accepted
  | ok content =>
      rw [compiled] at accepted
      cases accepted
      have intact := Compiled.compile_intact compiled
      -- Past the last slot a placeholder keeps its negative slot, which compiling refuses.
      have room : expression.keys.length ≤ Numbering.capacity :=
        numbered.room unassigned fun found member => (intact.members.found found member).1
      have byKey : expression.SlotsByKey state.2 := fun found member =>
        numbered.slot_eq room member
      obtain ⟨members, listed, made⟩ := ok_of_bind compiled
      cases made
      obtain ⟨members', listed', count⟩ := SlotMembers.ofExpr_byKey byKey
      rw [listed] at listed'
      cases listed'
      refine ⟨⟨_, rfl, intact, count⟩, byKey, ?_⟩
      exact numbered.keys.trans (List.take_of_length_le room)

theorem finish_accepts {expression : Expr} (oneKey : OneKey expression.placeholders)
    (room : expression.keys.length ≤ Numbering.capacity) (metadata : Option Metadata)
    (store : Store) : ∃ prepared, (finish expression metadata store).1 = .ok prepared := by
  have numbered := Numbering.collect_numbered oneKey store.slots
  have byKey : expression.SlotsByKey (Numbering.collect {} store.slots expression).2 :=
    fun found member => numbered.slot_eq room member
  obtain ⟨members, listed, -⟩ := SlotMembers.ofExpr_byKey byKey
  simp only [finish, Compiled.compile, listed]
  exact ⟨_, rfl⟩

theorem resolve_eq_ok {expression : Expr} {after : Store}
    (ended : resolve { settings, directory } expr isTarget store = (.ok expression, after)) :
    (Resolver.resolve { settings, directory, isTarget } callFunction expr store.world
      store.next).1 = .ok expression ∧ after.slots = store.slots := by
  simp only [resolve, resolver, Prod.mk.injEq] at ended
  obtain ⟨resolved, rfl⟩ := ended
  exact ⟨resolved, rfl⟩

theorem prepare_ready (raw : Resolver.Raw expr store.next) (fresh : store.Fresh)
    {prepared : Prepared}
    (accepted : (prepare { settings, directory } expr isTarget metadata store).1 =
      .ok prepared) :
    prepared.Ready (prepare { settings, directory } expr isTarget metadata store).2.slots := by
  obtain ⟨halt, failed⟩ | ⟨expression, after, ended, finished⟩ :=
    prepare_cases settings directory expr isTarget metadata store
  · rw [failed] at accepted
    cases accepted
  · obtain ⟨resolved, sameSlots⟩ := resolve_eq_ok ended
    obtain ⟨progress, good, related⟩ := Resolver.resolve_resolved_any raw.old resolved
    rw [finished] at accepted ⊢
    refine finish_ready (related.oneKey raw.bare good) (fun found member => ?_) accepted
    rw [sameSlots]
    exact fresh found.1 (related.new raw.bare good member)

end Engine

namespace Prepared

/-- What `prepare` and any number of calls make of an expression whose placeholders keep their
slots. -/
inductive Reached (engine : Engine) (expr : Expr) (isTarget : Bool) (metadata : Option Metadata)
    (store : Store) : Prepared → Prop where
  | prepared {prepared : Prepared}
      (accepted : (engine.prepare expr isTarget metadata store).1 = .ok prepared) :
      Reached engine expr isTarget metadata store prepared
  | invoked {prepared : Prepared} (before : Reached engine expr isTarget metadata store prepared)
      (now : Store)
      (unmoved : Compiled.Unmoved prepared.expression
        (engine.prepare expr isTarget metadata store).2.slots now.slots)
      (arguments : List Argument) (callMetadata : Option Metadata) :
      Reached engine expr isTarget metadata store (prepared.invoke arguments callMetadata now).2.1

variable {settings : ResolveSettings} {directory : Directory} {expr : Expr} {isTarget : Bool}
  {metadata : Option Metadata} {store now : Store} {prepared : Prepared}

theorem Reached.ready (raw : Resolver.Raw expr store.next) (fresh : store.Fresh)
    (reached : Reached { settings, directory } expr isTarget metadata store prepared) :
    prepared.Ready
      (Engine.prepare { settings, directory } expr isTarget metadata store).2.slots := by
  induction reached with
  | prepared accepted => exact Engine.prepare_ready raw fresh accepted
  | invoked before now unmoved arguments callMetadata ih =>
      exact ih.invoked unmoved arguments callMetadata

/-- Evaluating a prepared expression asks once for every key of its tree, in the order in which
the keys are first met. The first failure is the result, and nothing is called then. Otherwise the
result is that of the tree in which every placeholder reads the answer for its own key. -/
theorem evaluate_answers (raw : Resolver.Raw expr store.next) (fresh : store.Fresh)
    (reached : Reached { settings, directory } expr isTarget metadata store prepared)
    (unmoved : Compiled.Unmoved prepared.expression
      (Engine.prepare { settings, directory } expr isTarget metadata store).2.slots now.slots)
    (ask : PlaceholderKey → Eval Closure Argument) (callMetadata : Option Metadata) :
    let ran := prepared.evaluate (fun reference => ask reference.key) callMetadata now
    match prepared.expression.keys.mapM ask now.world with
    | .error halt after => ran = (.error (halt.map .eval), prepared, { now with world := after })
    | .ok answers after =>
        let answer := prepared.expression.answerFor answers
        prepared.expression.keys.map answer = answers ∧
          (ran.1, ran.2.2.world) =
            prepared.expression.answering answer callMetadata after := by
  have ready := reached.ready raw fresh
  have asked : prepared.members.mapM (fun entry => ask entry.2.key) =
      prepared.expression.keys.mapM ask := by
    rw [← ready.members, List.mapM_map]
    rfl
  simp only [evaluate, asked]
  cases ended : prepared.expression.keys.mapM ask now.world with
  | error halt after => rfl
  | ok answers after =>
      have count := Eval.length_mapM ⟨now.world, after, ended⟩
      have later : Compiled.Unmoved prepared.expression
          (Engine.prepare { settings, directory } expr isTarget metadata store).2.slots
          { now with world := after }.slots := unmoved
      exact ⟨map_answerFor count, ready.invoke_answers later count callMetadata⟩

/-- Two members of one path are joined, one of the target and one of the source. -/
theorem evaluate_answers_roots :
    let expr : Expr := .mk 0 (.binary .add
      (.mk 1 (.member (some (.mk 2 (.unary .dynamic (.mk 3 (.member none "target"))))) "Name"))
      (.mk 4 (.member none "Name")))
    let ran := Engine.prepare {} expr false none { next := 5 }
    let ask (key : PlaceholderKey) : Eval Closure Argument :=
      pure ⟨.string, .string (if key.root = .target then "t" else "s")⟩
    ∃ prepared, ran.1 = .ok prepared ∧
      (prepared.evaluate (fun reference => ask reference.key) none ran.2).1 =
        .ok (.string "ts") := by
  intro expr ran ask
  have raw : Resolver.Raw expr 5 :=
    ⟨by simp [expr, Expr.everywhere_mk, Node.children, Expr.id], rfl⟩
  have fresh : Store.Fresh { next := 5 } := fun _ _ => by simp [Slots.none]
  obtain ⟨resolved, ⟨prepared, accepted, same⟩, answers, asked, joined⟩ :
      ∃ resolved : Expr, (∃ prepared, ran.1 = .ok prepared ∧ prepared.expression = resolved) ∧
        ∃ answers, (∀ world, resolved.keys.mapM ask world = .ok answers world) ∧
          ∀ world, (resolved.answering (resolved.answerFor answers) none world).1 =
            .ok (.string "ts") :=
    ⟨.mk 7 (.binary .add
        (.mk 5 (.placeholder
          ⟨"Name", .target, { observable := true, target := true }, .member, none⟩))
        (.mk 6 (.placeholder ⟨"Name", .source, { observable := true }, .member, none⟩))),
      ⟨_, rfl, rfl⟩, [⟨.string, .string "t"⟩, ⟨.string, .string "s"⟩], fun _ => rfl, fun _ => rfl⟩
  have unmoved : Compiled.Unmoved prepared.expression ran.2.slots ran.2.slots := fun _ _ => rfl
  have evaluated := evaluate_answers raw fresh (.prepared accepted) unmoved ask none
  rw [same, asked] at evaluated
  obtain ⟨-, ended⟩ := evaluated
  have result := joined ran.2.world
  rw [← ended] at result
  exact ⟨prepared, accepted, result⟩

end Prepared

end Tether

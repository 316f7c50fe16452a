import Tether.Proofs.CodeMeaning
import Tether.Proofs.SlotTable

set_option autoImplicit false

/- A compiled expression means what its tree means, however often it has been called before. -/
namespace Tether

theorem World.remark_nil {κ : Type} (world : World κ) : world.remark [] = world := by
  simp [World.remark]

theorem Shape.types_ofTypes (tags : List TypeTag) : (Shape.ofTypes tags).types = tags := by
  match tags with
  | [] | [_] | _ :: _ :: _ => rfl

namespace Compiled

open Builder

/-- The placeholders of the expression have the slots that they had before. -/
def Unmoved (expression : Expr) (slots now : Slots) : Prop :=
  ∀ found ∈ expression.placeholders, now found.1 = slots found.1

/-- What `compile` and any number of calls make of an expression whose placeholders keep their
slots. -/
inductive Reached (chain : List Builder) (slots : Slots) (expression : Expr)
    (metadata : Option Metadata) : Compiled → Prop where
  | compiled {compiled : Compiled}
      (accepted : compile chain slots expression metadata = .ok compiled) :
      Reached chain slots expression metadata compiled
  | invoked {compiled : Compiled} (before : Reached chain slots expression metadata compiled)
      (now : Slots) (unmoved : Unmoved expression slots now)
      (arguments : List Argument) (callMetadata : Option Metadata) (world : World Closure) :
      Reached chain slots expression metadata
        (compiled.invoke now arguments callMetadata world).2.1

/-- What every call leaves as it was: the code in the cache is what a build for its shape gives. -/
structure Intact (slots : Slots) (expression : Expr) (compiled : Compiled) : Prop where
  chain : compiled.chain = standard
  source : compiled.expression = expression
  members : SlotMembers.Entered slots compiled.members expression.placeholders
  cache (shape : Shape) (invoker : Invoker) (cached : compiled.cache.get? shape = some invoker) :
    plan (compiled.fallbacks slots shape.types) expression [] = .ok invoker.root

variable {slots now : Slots} {expression : Expr} {metadata : Option Metadata}
  {compiled : Compiled}

theorem compile_intact (accepted : compile standard slots expression metadata = .ok compiled) :
    Intact slots expression compiled := by
  obtain ⟨members, listed, made⟩ := ok_of_bind accepted
  cases made
  exact ⟨rfl, rfl, SlotMembers.ofExpr_entered listed, nofun⟩

theorem build_standard_eq (chain : compiled.chain = standard) (slots : Slots) (shape : Shape) :
    compiled.build slots shape =
      Build.settled
        ((fun root => { shape, root }) <$>
          plan (compiled.fallbacks slots shape.types) compiled.expression [])
        (declare (.start slots compiled.metadata) 0 compiled.members shape.types) := by
  have built := Builder.build_standard compiled.expression
    (declare (.start slots compiled.metadata) 0 compiled.members shape.types)
  rw [declare_parameters] at built
  simp only [Compiled.build, chain]
  exact Build.map_settled _ built

theorem Unmoved.aligned (unmoved : Unmoved expression slots now) :
    SlotMembers.Aligned slots now expression.placeholders := by
  intro found member other listed _
  rw [unmoved found member, unmoved other listed]

/-- A placeholder of the expression is all that the fallback table needs to know. -/
theorem plan_aligned (intact : Intact slots expression compiled)
    (aligned : SlotMembers.Aligned slots now expression.placeholders) (tags : List TypeTag) :
    plan (compiled.fallbacks now tags) expression =
      plan (compiled.fallbacks slots tags) expression := by
  refine plan_congr fun part inside => ?_
  cases other : part.placeholder? with
  | none => rw [fallbacks_other compiled now tags other, fallbacks_other compiled slots tags other]
  | some reference =>
      obtain ⟨id, node⟩ := part
      cases node with
      | placeholder found =>
          have member : (id, found) ∈ expression.placeholders :=
            List.mem_filterMap.mpr ⟨_, inside, rfl⟩
          rw [fallbacks_aligned intact.members aligned member,
            fallbacks_entered intact.members member]
      | _ => cases other

theorem plan_unmoved (intact : Intact slots expression compiled)
    (unmoved : Unmoved expression slots now) (tags : List TypeTag) :
    plan (compiled.fallbacks now tags) expression =
      plan (compiled.fallbacks slots tags) expression :=
  plan_aligned intact unmoved.aligned tags

/-- The code for a shape is what a build for it gives, whether it was cached or not. Only a new
build looks at the slots. -/
theorem fetch_eq (intact : Intact slots expression compiled) {shape : Shape}
    (aligned : compiled.cache.get? shape = none →
      SlotMembers.Aligned slots now expression.placeholders) :
    Intact slots expression (compiled.fetch now shape).compiled ∧
      (compiled.fetch now shape).remarks = [] ∧
      Invoker.root <$> (compiled.fetch now shape).result =
        plan (compiled.fallbacks slots shape.types) expression [] := by
  obtain rfl := intact.source
  simp only [fetch]
  cases cached : compiled.cache.get? shape with
  | some invoker => exact ⟨intact, rfl, (intact.cache shape invoker cached).symm⟩
  | none =>
      simp only [build_standard_eq intact.chain, plan_aligned intact (aligned cached)]
      cases planned : plan (compiled.fallbacks slots shape.types) compiled.expression [] with
      | error error => exact ⟨intact, rfl, rfl⟩
      | ok root =>
          refine ⟨⟨intact.chain, rfl, intact.members, ?_⟩, rfl, rfl⟩
          intro other invoker found
          change (compiled.cache.insert shape ⟨shape, root⟩).get? other = some invoker at found
          rw [Table.get?_insert] at found
          split at found
          · rename_i same
            cases found
            rw [same]
            exact planned
          · exact intact.cache other invoker found

/-- How a run ends for the caller of a compiled expression. -/
def outcome (run : Eval Closure Value) (world : World Closure) :
    Except (Halt Error) Value × World Closure :=
  match run world with
  | .ok value after => (.ok value, after)
  | .error halt after => (.error (halt.map .eval), after)

theorem outcome_eq (run : Eval Closure Value) (world : World Closure) :
    (outcome run world).1 = (Eval.observe run world).1.mapError (Halt.map .eval) ∧
      (outcome run world).2.log = (Eval.observe run world).2 := by
  simp only [outcome, Eval.observe]
  cases run world <;> exact ⟨rfl, rfl⟩

theorem outcome_ne_compile (run : Eval Closure Value) (world : World Closure)
    (error : CompileError) : (outcome run world).1 ≠ .error (.failure (.compile error)) := by
  simp only [outcome]
  cases run world with
  | ok value after => simp
  | error halt after => cases halt <;> simp [Halt.map]

theorem invoke_refused {arguments : List Argument}
    (wrong : arguments.length ≠ compiled.memberCount) (now : Slots)
    (callMetadata : Option Metadata) (world : World Closure) :
    compiled.invoke now arguments callMetadata world =
      (.error (.failure (.eval (.argumentCount compiled.memberCount arguments.length))),
        compiled, world) := by
  have refused : (arguments.length != compiled.memberCount) = true := by simpa using wrong
  simp only [invoke, refused, if_true]

theorem outcome_of_agree {link : Correspondence Closure Closure} {run run' : Eval Closure Value}
    (agree : link.Agree run run') (sameRoom : ¬ link.roomier) {world world' : World Closure}
    (worlds : link.Worlds world world') :
    (outcome run world).1 = (outcome run' world').1 ∧
      link.Worlds (outcome run world).2 (outcome run' world').2 := by
  have ended := agree world world' worlds
  simp only [outcome]
  revert ended
  generalize run world = leftEnd
  generalize run' world' = rightEnd
  intro ended
  cases ended with
  | ok value worlds => exact ⟨rfl, worlds⟩
  | error halt worlds => exact ⟨rfl, worlds⟩
  | overflow roomier => exact absurd roomier sameRoom

/-- How a run ends does not depend on what has been logged before, and what it leaves differs in
the log alone. -/
theorem outcome_unlogged (root : Fragment) (frame : Frame) (world : World Closure)
    (log : Array Event) :
    (outcome (root.eval frame) { world with log }).1 = (outcome (root.eval frame) world).1 ∧
      ∃ log', (outcome (root.eval frame) { world with log }).2 =
        { (outcome (root.eval frame) world).2 with log := log' } := by
  obtain ⟨same, after⟩ := outcome_of_agree (Correspondence.agree_fragment root frame) id
    (Correspondence.unlogged_log world log)
  exact ⟨same, _, after.eq_of_unlogged⟩

theorem invoke_aligned (intact : Intact slots expression compiled)
    {arguments : List Argument}
    (aligned : compiled.cache.get? (.ofArguments arguments) = none →
      SlotMembers.Aligned slots now expression.placeholders)
    (enough : arguments.length = compiled.memberCount)
    (callMetadata : Option Metadata) (world : World Closure) :
    ((compiled.invoke now arguments callMetadata world).1,
        (compiled.invoke now arguments callMetadata world).2.2) =
      match plan (compiled.fallbacks slots (arguments.map Argument.tag)) expression [] with
      | .error error => (.error (.failure (.compile error)), world)
      | .ok root =>
          outcome (root.eval
            { slots := arguments.map Argument.value, metadata := callMetadata }) world := by
  obtain ⟨-, quiet, fetched⟩ := fetch_eq intact aligned
  have types : (Shape.ofArguments arguments).types = arguments.map Argument.tag :=
    Shape.types_ofTypes _
  have counted : (arguments.length != compiled.memberCount) = false := by simp [enough]
  simp only [invoke, counted, Bool.false_eq_true, if_false]
  rw [types] at fetched
  rw [← fetched]
  revert quiet
  obtain ⟨result, after, remarks⟩ := compiled.fetch now (.ofArguments arguments)
  rintro rfl
  cases result with
  | error error =>
      simp only [World.remark_nil]
      rfl
  | ok invoker =>
      simp only [World.remark_nil, Invoker.invoke]
      change _ = outcome (invoker.root.eval _) world
      simp only [outcome]
      cases invoker.root.eval
        { slots := arguments.map Argument.value, metadata := callMetadata } world <;> rfl

theorem invoke_eq (intact : Intact slots expression compiled)
    (unmoved : Unmoved expression slots now)
    {arguments : List Argument} (enough : arguments.length = compiled.memberCount)
    (callMetadata : Option Metadata) (world : World Closure) :
    ((compiled.invoke now arguments callMetadata world).1,
        (compiled.invoke now arguments callMetadata world).2.2) =
      match plan (compiled.fallbacks slots (arguments.map Argument.tag)) expression [] with
      | .error error => (.error (.failure (.compile error)), world)
      | .ok root =>
          outcome (root.eval
            { slots := arguments.map Argument.value, metadata := callMetadata }) world :=
  invoke_aligned intact (fun _ => unmoved.aligned) enough callMetadata world

theorem invoke_intact (intact : Intact slots expression compiled) {arguments : List Argument}
    (aligned : compiled.cache.get? (.ofArguments arguments) = none →
      SlotMembers.Aligned slots now expression.placeholders)
    (callMetadata : Option Metadata) (world : World Closure) :
    Intact slots expression (compiled.invoke now arguments callMetadata world).2.1 := by
  have kept := (fetch_eq intact aligned).1
  simp only [invoke]
  split
  · exact intact
  · split
    · exact kept
    · split
      · exact kept
      · exact kept

/-- A call changes nothing but the cache. -/
theorem invoke_cache (compiled : Compiled) (now : Slots) (arguments : List Argument)
    (callMetadata : Option Metadata) (world : World Closure) :
    ∃ cache, (compiled.invoke now arguments callMetadata world).2.1 =
      { compiled with cache } := by
  have kept : ∃ cache, (compiled.fetch now (.ofArguments arguments)).compiled =
      { compiled with cache } := by
    simp only [fetch]
    split
    · exact ⟨compiled.cache, rfl⟩
    · split
      · exact ⟨_, rfl⟩
      · exact ⟨compiled.cache, rfl⟩
  simp only [invoke]
  split
  · exact ⟨compiled.cache, rfl⟩
  · split
    · exact kept
    · split
      · exact kept
      · exact kept

theorem invoke_members (compiled : Compiled) (now : Slots) (arguments : List Argument)
    (callMetadata : Option Metadata) (world : World Closure) :
    (compiled.invoke now arguments callMetadata world).2.1.members = compiled.members := by
  obtain ⟨cache, kept⟩ := invoke_cache compiled now arguments callMetadata world
  rw [kept]

theorem Reached.intact (reached : Reached standard slots expression metadata compiled) :
    Intact slots expression compiled := by
  induction reached with
  | compiled accepted => exact compile_intact accepted
  | invoked before now unmoved arguments callMetadata world ih =>
      exact invoke_intact ih (fun _ => unmoved.aligned) callMetadata world

/-- What placeholders stand for in a call: the argument under their slot, converted to the type
that it is declared with. -/
def supply (slots : Slots) (arguments : List Argument) (id : NodeId) (_ : Placeholder) :
    Except EvalError Value :=
  let argument := arguments.getD (slots id).toNat .empty
  argument.value.convert argument.tag

/-- A type that null may be declared with, where strings are never null. -/
def Nullable (tag : TypeTag) : Prop := tag ≠ .string

theorem getD_value {arguments : List Argument} {position : Nat} {argument : Argument}
    (listed : arguments[position]? = some argument) :
    (arguments.map Argument.value).getD position .null = argument.value := by
  rw [List.getD_eq_getElem?_getD, List.getElem?_map, listed]
  rfl

theorem supplies_fallbacks {done : List (NodeId × Placeholder)}
    (entered : SlotMembers.Entered slots compiled.members done) {arguments : List Argument}
    (honest : ∀ argument ∈ arguments, argument.value.Honest)
    (strings : ∀ argument ∈ arguments, argument.tag = .string → argument.value ≠ .null)
    (surroundings : Surroundings) :
    Supplies Nullable (arguments.map Argument.value)
      (compiled.fallbacks slots (arguments.map Argument.tag))
      { surroundings with placeholder := supply slots arguments } where
  others expr other := fallbacks_other compiled slots _ other
  reads id reference fragment declared := by
    obtain ⟨tag, typed, rfl⟩ := fallbacks_reads entered declared
    obtain ⟨argument, listed, rfl⟩ := by simpa [List.getElem?_map] using typed
    have member : argument ∈ arguments := List.mem_of_getElem? listed
    have value := getD_value listed
    refine ⟨_, _, rfl, ?_, ?_, ?_⟩
    · rw [value]
      exact honest argument member
    · rw [value]
      exact fun null textual => strings argument member textual null
    · rw [value]
      simp only [supply, List.getD_eq_getElem?_getD, listed, Option.getD_some]

/-- A call that compiles has the result of its expression, and makes the same requests of the host
in the same order. It runs out of room just where the expression does, in a world of any room. -/
theorem invoke_meaning (reached : Reached standard slots expression metadata compiled)
    (unmoved : Unmoved expression slots now)
    {arguments : List Argument} (enough : arguments.length = compiled.memberCount)
    (honest : HonestConstants expression ∧ ∀ argument ∈ arguments, argument.value.Honest)
    (strings : ∀ argument ∈ arguments, argument.tag = .string → argument.value ≠ .null)
    (surroundings : Surroundings) (callMetadata : Option Metadata) (world : World Closure)
    (compiles : ∀ error,
      (compiled.invoke now arguments callMetadata world).1 ≠
        .error (.failure (.compile error))) :
    let ran := compiled.invoke now arguments callMetadata world
    let meant :=
      expression.meaning { surroundings with placeholder := supply now arguments } world
    ran.1 = meant.1.mapError (Halt.map .eval) ∧ ran.2.2.log = meant.2 := by
  have intact := reached.intact
  have invoked := invoke_eq intact unmoved enough callMetadata world
  rw [← plan_unmoved intact unmoved] at invoked
  cases planned : plan (compiled.fallbacks now (arguments.map Argument.tag)) expression [] with
  | error error =>
      rw [planned] at invoked
      exact absurd (congrArg Prod.fst invoked) (compiles error)
  | ok root =>
      rw [planned] at invoked
      dsimp only at invoked
      have entered := intact.members.congr unmoved
      have observed := observe_plan (supplies_fallbacks entered honest.2 strings surroundings)
        (fun nullable => nullable rfl) honest.1 planned callMetadata world
      have ended := outcome_eq
        (root.eval { slots := arguments.map Argument.value, metadata := callMetadata }) world
      rw [observed, ← invoked] at ended
      exact ended

/-- Two texts are joined: a placeholder that a call declares as `string`, and a constant. -/
theorem invoke_meaning_concat :
    let expression : Expr := .mk 0 (.binary .add
      (.mk 1 (.placeholder { path := "Name", root := .source, flags := {}, kind := .member }))
      (.mk 2 (.constant (.string "!"))))
    ∃ compiled, compile standard (fun _ => 0) expression none = .ok compiled ∧
      (compiled.invoke (fun _ => 0) [⟨.string, .string "n"⟩] none {}).1 = .ok (.string "n!") := by
  intro expression
  have accepted : ∃ compiled, compile standard (fun _ => 0) expression none = .ok compiled ∧
      compiled.memberCount = 1 ∧
      ∃ root, plan (compiled.fallbacks (fun _ => 0) [.string]) expression [] = .ok root :=
    ⟨_, rfl, rfl, _, rfl⟩
  obtain ⟨compiled, accepted, count, root, planned⟩ := accepted
  refine ⟨compiled, accepted, ?_⟩
  have honest : HonestConstants expression := by
    simp [expression, HonestConstants, Expr.everywhere_mk, Node.children, Expr.constant?,
      Expr.node, Value.Honest]
  have unmoved : Unmoved expression (fun _ => 0) (fun _ => 0) := fun _ _ => rfl
  have enough : [(⟨.string, .string "n"⟩ : Argument)].length = compiled.memberCount := count.symm
  have compiles (error : CompileError) :
      (compiled.invoke (fun _ => 0) [⟨.string, .string "n"⟩] none {}).1 ≠
        .error (.failure (.compile error)) := by
    have invoked := invoke_eq (compile_intact accepted) unmoved enough none {}
    simp only [List.map, planned] at invoked
    rw [congrArg Prod.fst invoked]
    exact outcome_ne_compile _ _ error
  exact (invoke_meaning (.compiled accepted) unmoved enough ⟨honest, by simp [Value.Honest]⟩
    (by simp) ⟨.null, .null, false, {}, fun _ _ => .ok .null⟩ none {} compiles).1

end Compiled

end Tether

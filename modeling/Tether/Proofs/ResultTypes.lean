import Tether.Proofs.CachedCalls
import Tether.Proofs.StaticTypes

set_option autoImplicit false

/- The type that code is built with holds for its results, wherever the code comes from: from a
build under any parameters and slot types, or from the cache after any calls. -/
namespace Tether

/-- The values that a result of some type can be: any for `object`, those of the type, and null
for a type that is not one of plain numbers or truth values. -/
def TypeTag.Admits (tag : TypeTag) (value : Value) : Prop :=
  tag = .object ∨ value.tag = tag ∨ value = .null ∧ tag.isValueType = false

namespace Fragment

/-- In no frame and no world, whatever its hosts do and its room is, the fragment ends with a value
that its type does not admit. -/
def Truthful (fragment : Fragment) : Prop :=
  ∀ (frame : Frame) (world after : World Closure) (value : Value),
    (∀ slot ∈ frame.slots, slot.Honest) → fragment.eval frame world = .ok value after →
      fragment.tag.Admits value

theorem truthful_of_sound {fragment : Fragment}
    (sound : ∀ slots : List Value, (∀ slot ∈ slots, slot.Honest) →
      fragment.Sound (fun tag => tag.isValueType = false) slots) : fragment.Truthful := by
  intro frame world after value honest ended
  have fits := (sound frame.slots honest).fits id callFunction frame rfl value ⟨world, after, ended⟩
  rcases fits with dynamic | ⟨same, -⟩ | null
  · exact .inl dynamic
  · exact .inr (.inl same)
  · exact .inr (.inr null)

end Fragment

/-- A context that knows slots by their declared types, and nothing else. -/
def BuildContext.DeclaresSlots (context : BuildContext) : Prop :=
  ∀ key, ∀ fragment ∈ context.fallbacks.get? key, ∃ position tag, fragment = .ofSlot position tag

namespace Builder

theorem sound_slot {slots : List Value} (honest : ∀ slot ∈ slots, slot.Honest) (position : Nat)
    (tag : TypeTag) :
    (Fragment.ofSlot position tag).Sound (fun tag => tag.isValueType = false) slots := by
  refine Fragment.sound_ofSlot ?_ fun nullable _ => nullable
  rw [List.getD_eq_getElem?_getD]
  cases found : slots[position]? with
  | none => trivial
  | some slot => exact honest slot (List.mem_of_getElem? found)

theorem build_truthful {expression : Expr} (honest : HonestConstants expression)
    {context : BuildContext} (declares : context.DeclaresSlots) {fragment : Fragment}
    (built : (build standard expression context).result = .ok fragment) : fragment.Truthful := by
  rw [build_standard] at built
  refine Fragment.truthful_of_sound fun slots honestSlots => ?_
  refine plan_sound (fun expr known found => ?_) expression honest built
  obtain ⟨position, tag, rfl⟩ := declares _ known found
  exact sound_slot honestSlots position tag

end Builder

/-- Code that the standard builders make of an expression, with some types for its slots. -/
def Invoker.Standard (expression : Expr) (invoker : Invoker) : Prop :=
  ∃ context : BuildContext, context.DeclaresSlots ∧
    (Builder.build Builder.standard expression context).result = .ok invoker.root

namespace Compiled

open Builder (standard HonestConstants)

theorem declaresSlots_declare {context : BuildContext} {position : Nat} {members : SlotMembers}
    {types : List TypeTag} (declares : context.DeclaresSlots) :
    (declare context position members types).DeclaresSlots := by
  fun_induction declare context position members types with
  | case1 context position id reference members type types ih =>
      refine ih fun key fragment found => ?_
      simp only [BuildContext.setFallback, Table.get?_insert] at found
      split at found
      · cases found
        exact ⟨position, type, rfl⟩
      · exact declares key fragment found
  | case2 context position members type types ih => exact ih declares
  | case3 => exact declares

/-- All the code in the cache is standard. -/
structure Typed (expression : Expr) (compiled : Compiled) : Prop where
  same : compiled.expression = expression
  chain : compiled.chain = standard
  code (shape : Shape) : ∀ invoker ∈ compiled.cache.get? shape, invoker.Standard expression

variable {expression : Expr} {compiled : Compiled}

theorem Typed.build (typed : Typed expression compiled) {slots : Slots} {shape : Shape}
    {invoker : Invoker} (built : (compiled.build slots shape).result = .ok invoker) :
    invoker.Standard expression := by
  refine ⟨declare (.start slots compiled.metadata) 0 compiled.members shape.types,
    declaresSlots_declare nofun, ?_⟩
  simp only [Compiled.build] at built
  change (Build.bind _ _ _).result = _ at built
  simp only [Build.bind, typed.same, typed.chain] at built
  split at built
  · rename_i root made
    cases built
    exact made
  · cases built

/-- Code that is asked for, and what the request leaves. -/
theorem Typed.fetch (typed : Typed expression compiled) (slots : Slots) (shape : Shape) :
    Typed expression (compiled.fetch slots shape).compiled ∧
      ∀ invoker, (compiled.fetch slots shape).result = .ok invoker →
        invoker.Standard expression := by
  cases cached : compiled.cache.get? shape with
  | some known =>
      rw [fetch_cached cached]
      refine ⟨typed, fun invoker found => ?_⟩
      cases found
      exact typed.code shape known cached
  | none =>
      rw [fetch_built cached]
      refine ⟨?_, fun invoker built => typed.build built⟩
      cases built : (compiled.build slots shape).result with
      | error error => exact typed
      | ok invoker =>
          refine ⟨typed.same, typed.chain, fun other known found => ?_⟩
          dsimp only at found
          rw [Table.get?_insert] at found
          split at found
          · cases found
            exact typed.build built
          · exact typed.code other known found

theorem Typed.serve (typed : Typed expression compiled) (call : Call) :
    Typed expression (compiled.serve call).2.1 := by
  by_cases enough : call.arguments.length = compiled.memberCount
  · rw [serve_eq enough]
    exact (typed.fetch _ _).1
  · rw [serve_refused enough]
    exact typed

theorem Typed.after (typed : Typed expression compiled) (calls : List Call) :
    Typed expression (compiled.after calls) := by
  induction calls generalizing compiled with
  | nil => exact typed
  | cons call calls ih => exact ih (typed.serve call)

theorem compile_typed {slots : Slots} {metadata : Option Metadata} {fresh : Compiled}
    (accepted : compile standard slots expression metadata = .ok fresh) :
    Typed expression fresh := by
  obtain ⟨members, -, made⟩ := ok_of_bind accepted
  cases made
  exact ⟨rfl, rfl, nofun⟩

theorem outcome_eq_ok {run : Eval Closure Value} {world : World Closure} {value : Value}
    (ended : (outcome run world).1 = .ok value) : ∃ after, run world = .ok value after := by
  simp only [outcome] at ended
  split at ended
  · rename_i found after ran
    cases ended
    exact ⟨after, ran⟩
  · cases ended

/-- Static types hold for results. A fragment that the standard builders make, whatever parameters
and slot types the node stands under, ends with values that its type admits. So does the code that
an expression hands out after any calls, and the type it reports is that of every result. -/
theorem results_admitted (honest : HonestConstants expression) :
    (∀ (context : BuildContext) (fragment : Fragment), context.DeclaresSlots →
      (Builder.build standard expression context).result = .ok fragment → fragment.Truthful) ∧
    ∀ (slots : Slots) (metadata : Option Metadata) (fresh : Compiled) (calls : List Call),
      compile standard slots expression metadata = .ok fresh →
      (∀ (now : Slots) (shape : Shape) (invoker : Invoker),
        ((fresh.after calls).fetch now shape).result = .ok invoker → invoker.root.Truthful) ∧
      ∀ (call : Call) (value : Value), (∀ argument ∈ call.arguments, argument.value.Honest) →
        ((fresh.after calls).serve call).1 = .ok value →
          ∃ invoker, ((fresh.after calls).fetch call.slots (.ofTypes call.types)).result =
            .ok invoker ∧ invoker.resultType.Admits value := by
  refine ⟨fun context fragment declares built => Builder.build_truthful honest declares built,
    fun slots metadata fresh calls accepted => ?_⟩
  have typed : Typed expression (fresh.after calls) := (compile_typed accepted).after calls
  have truthful (now : Slots) (shape : Shape) (invoker : Invoker)
      (found : ((fresh.after calls).fetch now shape).result = .ok invoker) :
      invoker.root.Truthful := by
    obtain ⟨context, declares, built⟩ := (typed.fetch now shape).2 invoker found
    exact Builder.build_truthful honest declares built
  refine ⟨truthful, fun call value honestArguments ended => ?_⟩
  by_cases enough : call.arguments.length = (fresh.after calls).memberCount
  · rw [serve_eq enough] at ended
    cases found : ((fresh.after calls).fetch call.slots (.ofTypes call.types)).result with
    | error error =>
        rw [found] at ended
        cases ended
    | ok invoker =>
        rw [found] at ended
        refine ⟨invoker, rfl, ?_⟩
        obtain ⟨after, ran⟩ := outcome_eq_ok ended
        refine truthful _ _ invoker found call.frame _ after value (fun slot listed => ?_) ran
        obtain ⟨argument, given, rfl⟩ := List.mem_map.mp listed
        exact honestArguments argument given
  · rw [serve_refused enough] at ended
    cases ended

/-- A slot declared `string` holds null, and a text stands in for it. -/
theorem results_admitted_default :
    let expression : Expr := .mk 0 (.binary .coalesce
      (.mk 1 (.placeholder { path := "Name", root := .source, flags := {}, kind := .member }))
      (.mk 2 (.constant (.string "none"))))
    ∃ (context : BuildContext) (fragment : Fragment) (after : World Closure),
      (Builder.build standard expression context).result = .ok fragment ∧
        fragment.eval { slots := [.null] } {} = .ok (.string "none") after ∧
        fragment.tag = .string ∧ fragment.tag.Admits (.string "none") := by
  intro expression
  have honest : HonestConstants expression := by
    simp [expression, HonestConstants, Expr.everywhere_mk, Node.children, Expr.constant?,
      Expr.node, Value.Honest]
  let context : BuildContext := BuildContext.setFallback {} (.placeholder (-1) "Name")
    (.ofSlot 0 .string)
  have declares : context.DeclaresSlots := by
    intro key fragment found
    simp only [context, BuildContext.setFallback, Table.get?_insert] at found
    split at found
    · cases found
      exact ⟨0, .string, rfl⟩
    · cases found
  have planned : ∃ fragment after, (Builder.build standard expression context).result =
      .ok fragment ∧ fragment.eval { slots := [.null] } {} = .ok (.string "none") after ∧
        fragment.tag = .string := by
    rw [Builder.build_standard]
    exact ⟨_, _, rfl, rfl, rfl⟩
  obtain ⟨fragment, after, built, ended, tag⟩ := planned
  refine ⟨context, fragment, after, built, ended, tag, ?_⟩
  exact (results_admitted honest).1 context fragment declares built { slots := [.null] } {} after _
    (by simp [Value.Honest]) ended

end Compiled

end Tether

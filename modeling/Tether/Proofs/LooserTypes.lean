import Mathlib.Data.List.Forall2
import Tether.Proofs.CompiledMeaning

set_option autoImplicit false

/- Declaring slots more loosely. Where a type gives way to `object`, every rule of the standard
builders still applies, and gives the type it gave before or `object`. -/
namespace Tether

/-- The same type, or none in particular. -/
def TypeTag.Loosens (loose strict : TypeTag) : Prop :=
  loose = strict ∨ loose = .object

/-- Code of the same type or of none in particular, known ahead exactly if the other is. -/
structure Fragment.Loosens (loose strict : Fragment) : Prop where
  tag : loose.tag.Loosens strict.tag
  constant : loose.constant = strict.constant

/-- Whenever one build ends with a result, so does the other, with a looser one. -/
def Follows {α : Type} (looser : α → α → Prop) (loose strict : Except CompileError α) : Prop :=
  ∀ value, strict = .ok value → ∃ value', loose = .ok value' ∧ looser value' value

namespace Follows

variable {α β : Type} {looser : α → α → Prop} {looser' : β → β → Prop}

theorem ok {loose strict : α} (related : looser loose strict) :
    Follows looser (.ok loose) (.ok strict) := by
  rintro value ⟨⟩
  exact ⟨loose, rfl, related⟩

theorem error (loose : Except CompileError α) (error : CompileError) :
    Follows looser loose (.error error) := nofun

theorem bind {loose strict : Except CompileError α} {next next' : α → Except CompileError β}
    (start : Follows looser loose strict)
    (rest : ∀ value' value, looser value' value → Follows looser' (next' value') (next value)) :
    Follows looser' (loose >>= next') (strict >>= next) := by
  intro result ended
  obtain ⟨value, began, ended⟩ := ok_of_bind ended
  obtain ⟨value', began', related⟩ := start value began
  rw [began']
  exact rest value' value related result ended

theorem ite {condition : Prop} [Decidable condition] {loose strict other other' :
      Except CompileError α} (yes : Follows looser loose strict)
    (no : Follows looser other' other) :
    Follows looser (if condition then loose else other')
      (if condition then strict else other) := by
  split
  · exact yes
  · exact no

end Follows

namespace TypeTag.Loosens

variable {loose strict loose' strict' : TypeTag}

theorem refl (tag : TypeTag) : tag.Loosens tag := .inl rfl

theorem object (tag : TypeTag) : TypeTag.Loosens .object tag := .inr rfl

/-- A rule that makes nothing of `object` keeps the order. -/
theorem rule (looser : loose.Loosens strict) (type : TypeTag → TypeTag)
    (unknown : type .object = .object) : (type loose).Loosens (type strict) := by
  rcases looser with rfl | rfl
  · exact .refl _
  · exact .inr unknown

/-- A type that is known before and after is the same. -/
theorem eq_of_ne (looser : loose.Loosens strict) (known : loose ≠ .object) : loose = strict :=
  looser.resolve_right known

theorem joinTypes (first : loose.Loosens strict) (second : loose'.Loosens strict') :
    (Builder.joinTypes loose loose').Loosens (Builder.joinTypes strict strict') := by
  unfold Builder.joinTypes
  by_cases known : loose = .object
  · subst known
    split
    · exact .object _
    · exact .object _
  · obtain rfl := first.eq_of_ne known
    split
    · rename_i same
      obtain rfl : loose = loose' := by simpa using same
      obtain rfl := second.eq_of_ne known
      simp only [beq_self_eq_true, if_true]
      exact .refl _
    · exact .object _

end TypeTag.Loosens

namespace Builder

open TypeTag (Loosens)

variable {loose strict left right left' right' : Fragment}

theorem loosens_ofSlot {type type' : TypeTag} (looser : type'.Loosens type) (position : Nat) :
    (Fragment.ofSlot position type').Loosens (Fragment.ofSlot position type) := by
  refine ⟨?_, rfl⟩
  exact looser.rule (fun tag => if tag.isEmpty then .object else tag) (by decide)

/-- What takes truth values takes anything of no particular type. -/
theorem follows_boolean (error error' : CompileError) (looser : loose.Loosens strict) :
    Follows (fun _ _ => True)
      (if loose.tag == .bool || loose.tag == .object then .ok () else .error error')
      (if strict.tag == .bool || strict.tag == .object then .ok () else .error error) := by
  rcases looser.tag with same | unknown
  · rw [same]
    exact .ite (.ok trivial) (.error _ _)
  · simp only [unknown, beq_self_eq_true, Bool.or_true, if_true]
    exact fun _ _ => ⟨(), rfl, trivial⟩

theorem follows_requireTest (expression : String) (looser : loose.Loosens strict) :
    Follows (fun _ _ => True) (requireTest expression loose) (requireTest expression strict) :=
  follows_boolean _ _ looser

theorem follows_requireBool (expression : String) (looser : loose.Loosens strict) :
    Follows (fun _ _ => True) (requireBool expression loose) (requireBool expression strict) :=
  follows_boolean _ _ looser

theorem loosens_branch {test test' : Fragment} (tests : test'.Loosens test)
    (first : left'.Loosens left) (second : right'.Loosens right) :
    (branch test' left' right').Loosens (branch test left right) := by
  unfold branch
  rw [tests.constant]
  split
  · split
    · exact first
    · exact second
  · exact ⟨first.tag.joinTypes second.tag, rfl⟩

/-- An operator that is defined for a type is defined for `object`. -/
theorem unaryType?_loosens {op : UnaryOp} {tag tag' type : TypeTag} (looser : tag'.Loosens tag)
    (defined : unaryType? op tag = some type) :
    ∃ type', unaryType? op tag' = some type' ∧ type'.Loosens type := by
  rcases looser with rfl | rfl
  · exact ⟨type, defined, .refl type⟩
  · cases op with
    | not =>
        refine ⟨.bool, rfl, .inl ?_⟩
        unfold unaryType? at defined
        split at defined
        · cases defined
          rfl
        · dsimp only at defined
          split at defined
          · cases defined
            rfl
          · cases defined
    | _ => exact ⟨.object, rfl, .object type⟩

theorem follows_applyUnary (expression : String) (op : UnaryOp) (looser : loose.Loosens strict) :
    Follows Fragment.Loosens (applyUnary expression op loose)
      (applyUnary expression op strict) := by
  unfold applyUnary
  cases defined : unaryType? op strict.tag with
  | none => exact .error _ _
  | some type =>
      obtain ⟨type', defined', types⟩ := unaryType?_loosens looser.tag defined
      simp only [defined', looser.constant]
      split
      · exact .ok ⟨.refl _, rfl⟩
      · exact .ok ⟨types, rfl⟩

/-- What is computed by an operator is not known ahead. -/
theorem specialize_constant {expression : String} {op : BinaryOp} {fragment : Fragment}
    (made : specialize expression op left right = .ok fragment) : fragment.constant = none := by
  unfold specialize at made
  repeat' split at made
  all_goals cases made
  all_goals rfl

/-- Beside a text, addition is concatenation. -/
theorem specialize_text {expression : String} {fragment : Fragment}
    (text : left.tag = .string ∨ right.tag = .string)
    (made : specialize expression .add left right = .ok fragment) : fragment.tag = .string := by
  have ints : (left.tag == .int && right.tag == .int) = false := by
    rcases text with same | same <;> simp [same, show (TypeTag.string == .int) = false from rfl]
  have numbers : (left.tag.isNumeric && right.tag.isNumeric) = false := by
    rcases text with same | same <;> simp [same, show TypeTag.string.isNumeric = false from rfl]
  have texts : (left.tag == .string || right.tag == .string) = true := by simpa using text
  simp only [specialize, ints, texts, BinaryOp.isArithmetic, Bool.true_and, numbers,
    beq_self_eq_true, Bool.false_eq_true, if_false, if_true] at made
  split at made
  · cases made
  · cases made
    rfl

/-- The form of an operator that the operands' types allow gives way to the general one. -/
theorem follows_specialize (expression : String) (op : BinaryOp) (first : left'.Loosens left)
    (second : right'.Loosens right) :
    Follows Fragment.Loosens (specialize expression op left' right')
      (specialize expression op left right) := by
  by_cases same : left'.tag = left.tag ∧ right'.tag = right.tag
  · unfold specialize
    rw [same.1, same.2]
    refine .ite (.error _ _) (.ite ?_ (.ite ?_ (.ite ?_ ?_))) <;> exact .ok ⟨.refl _, rfl⟩
  · have unknown : left'.tag = .object ∨ right'.tag = .object := by
      rcases first.tag with kept | lost
      · rcases second.tag with kept' | lost'
        · exact absurd ⟨kept, kept'⟩ same
        · exact .inr lost'
      · exact .inl lost
    have ints : (left'.tag == .int && right'.tag == .int) = false := by
      rcases unknown with lost | lost <;>
        simp [lost, show (TypeTag.object == .int) = false from rfl]
    have numbers : (left'.tag.isNumeric && right'.tag.isNumeric) = false := by
      rcases unknown with lost | lost <;>
        simp [lost, show TypeTag.object.isNumeric = false from rfl]
    intro fragment made
    have constant := specialize_constant made
    -- A truth value that is left was there before, and was not refused.
    have accepted : (op.isArithmetic && (left'.tag == .bool || right'.tag == .bool)) = false := by
      by_contra refused
      simp only [Bool.not_eq_false, Bool.and_eq_true, Bool.or_eq_true, beq_iff_eq] at refused
      have bools : left.tag = .bool ∨ right.tag = .bool := by
        refine refused.2.imp (fun here => ?_) (fun here => ?_)
        · rw [← first.tag.eq_of_ne (by rw [here]; decide), here]
        · rw [← second.tag.eq_of_ne (by rw [here]; decide), here]
      have refused' : (op.isArithmetic && (left.tag == .bool || right.tag == .bool)) = true := by
        simpa [refused.1] using bools
      rw [specialize, if_pos refused'] at made
      cases made
    simp only [specialize, accepted, ints, Bool.and_assoc, numbers, Bool.and_false,
      Bool.false_eq_true, if_false]
    split
    · rename_i text
      simp only [Bool.and_eq_true, beq_iff_eq, Bool.or_eq_true] at text
      obtain ⟨rfl, text⟩ := text
      refine ⟨_, rfl, .inl (specialize_text ?_ made).symm, constant.symm⟩
      refine text.imp (fun here => ?_) (fun here => ?_)
      · rw [← first.tag.eq_of_ne (by rw [here]; decide), here]
      · rw [← second.tag.eq_of_ne (by rw [here]; decide), here]
    · exact ⟨_, rfl, .object _, constant.symm⟩

theorem follows_combine (expression : String) (op : BinaryOp) (first : left'.Loosens left)
    (second : right'.Loosens right) :
    Follows Fragment.Loosens (combine expression op left' right')
      (combine expression op left right) := by
  have logical (stopOn : Bool) : Follows Fragment.Loosens
      (do
        requireBool expression left'
        requireBool expression right'
        pure { tag := .bool, code := .logical stopOn left'.code right'.code })
      (do
        requireBool expression left
        requireBool expression right
        pure { tag := .bool, code := .logical stopOn left.code right.code }) := by
    refine (follows_requireBool expression first).bind fun _ _ _ => ?_
    refine (follows_requireBool expression second).bind fun _ _ _ => ?_
    exact .ok ⟨.refl _, rfl⟩
  unfold combine
  split
  · exact logical _
  · exact logical _
  · exact .ok ⟨first.tag.joinTypes second.tag, rfl⟩
  · exact .ite (.ok ⟨.refl _, rfl⟩) (follows_specialize expression op first second)

theorem follows_applyBinary (expression : String) (op : BinaryOp) (first : left'.Loosens left)
    (second : right'.Loosens right) :
    Follows Fragment.Loosens (applyBinary expression op left' right')
      (applyBinary expression op left right) := by
  have folded : foldBinary? op left' right' = foldBinary? op left right := by
    unfold foldBinary?
    rw [first.constant, second.constant]
  unfold applyBinary
  rw [folded]
  split
  · exact .ok ⟨.refl _, rfl⟩
  · exact follows_combine expression op first second

theorem memberType_object (name : String) : memberType .object name = .object := by
  unfold memberType
  rw [if_neg (by simp [show (TypeTag.object == .string) = false from rfl,
    show (TypeTag.object == .list) = false from rfl])]

theorem methodType_object (method : String) : methodType .object method = .object := rfl

section Plans

variable {fallback fallback' : Expr → Option Fragment}

/-- Tables that know the same nodes, one of them less about their types. -/
def TableLoosens (fallback' fallback : Expr → Option Fragment) : Prop :=
  ∀ expr, ∀ fragment ∈ fallback expr, ∃ fragment' ∈ fallback' expr, fragment'.Loosens fragment

theorem follows_planFallback (tables : TableLoosens fallback' fallback) (expr : Expr) :
    Follows Fragment.Loosens (planFallback fallback' expr) (planFallback fallback expr) := by
  intro fragment planned
  obtain ⟨fragment', found, looser⟩ :=
    tables expr fragment ((planFallback_eq_ok fallback).mp planned)
  exact ⟨fragment', (planFallback_eq_ok fallback').mpr found, looser⟩

theorem follows_planName (tables : TableLoosens fallback' fallback) (expr : Expr) (name : String)
    (names : List String) :
    Follows Fragment.Loosens (planName fallback' expr name names)
      (planName fallback expr name names) := by
  unfold planName
  split
  · exact .ok ⟨.refl _, rfl⟩
  · exact follows_planFallback tables expr

theorem follows_planAll {arguments : List Expr} {names : List String}
    (each : ∀ argument ∈ arguments,
      Follows Fragment.Loosens (plan fallback' argument names) (plan fallback argument names)) :
    Follows (fun _ _ => True) (planAll fallback' arguments names)
      (planAll fallback arguments names) := by
  induction arguments with
  | nil => exact .ok trivial
  | cons argument rest ih =>
      rw [List.forall_mem_cons] at each
      simp only [planAll, List.mapM_cons, map_eq_pure_bind, bind_assoc]
      refine each.1.bind fun _ _ _ => ?_
      exact (ih each.2).bind fun _ _ _ => .ok trivial

/-- Every rule of the standard builders is kept. -/
theorem follows_plan (tables : TableLoosens fallback' fallback) (expr : Expr)
    (names : List String) :
    Follows Fragment.Loosens (plan fallback' expr names) (plan fallback expr names) := by
  induction expr using Expr.induct generalizing names with
  | constant id value => exact .ok ⟨.refl _, rfl⟩
  | parameter id name => exact follows_planName tables _ name names
  | name id name => exact follows_planName tables _ name names
  | placeholder id reference => exact follows_planFallback tables _
  | lambda id parameters body bodyIH =>
      rw [plan_lambda, plan_lambda]
      refine (bodyIH (names ++ parameters)).bind fun _ _ _ => ?_
      exact .ok ⟨.refl _, rfl⟩
  | condition id test whenTrue whenFalse testIH trueIH falseIH =>
      rw [plan_condition, plan_condition]
      refine (testIH names).bind fun _ _ tests => ?_
      refine (follows_requireTest test.text tests).bind fun _ _ _ => ?_
      refine (trueIH names).bind fun _ _ first => ?_
      refine (falseIH names).bind fun _ _ second => ?_
      exact .ok (loosens_branch tests first second)
  | unary id op operand operandIH =>
      by_cases namesRoot : op.namesRoot
      · rw [plan_root namesRoot, plan_root namesRoot]
        exact follows_planFallback tables _
      · rw [plan_unary namesRoot, plan_unary namesRoot]
        exact (operandIH names).bind fun _ _ looser => follows_applyUnary _ op looser
  | binary id op left right leftIH rightIH =>
      rw [plan_binary, plan_binary]
      refine (leftIH names).bind fun _ _ first => ?_
      exact (rightIH names).bind fun _ _ second => follows_applyBinary _ op first second
  | member id target name targetIH =>
      rw [plan_member, plan_member]
      refine (targetIH names).bind fun _ _ looser => .ok ⟨?_, rfl⟩
      exact looser.tag.rule (memberType · name) (memberType_object name)
  | index id target arguments targetIH argumentsIH =>
      cases target with
      | none =>
          rw [plan_index_none, plan_index_none]
          exact follows_planFallback tables _
      | some target =>
          rw [plan_index, plan_index]
          refine (targetIH target rfl names).bind fun _ _ looser => ?_
          refine (follows_planAll fun argument found =>
            argumentsIH argument found names).bind fun _ _ _ => .ok ⟨?_, rfl⟩
          exact looser.tag.rule (fun tag => if tag == .string then .string else .object) rfl
  | call id target method arguments targetIH argumentsIH =>
      cases target with
      | none =>
          rw [plan_call_none, plan_call_none]
          exact follows_planFallback tables _
      | some target =>
          rw [plan_call, plan_call]
          refine (targetIH target rfl names).bind fun _ _ looser => ?_
          refine (follows_planAll fun argument found =>
            argumentsIH argument found names).bind fun _ _ _ => .ok ⟨?_, rfl⟩
          exact looser.tag.rule (methodType · method) (methodType_object method)

end Plans

end Builder

namespace Compiled

open Builder (standard plan TableLoosens)

/-- Contexts that know the same nodes, one of them less about their types. -/
structure ContextLoosens (context' context : BuildContext) : Prop where
  slots : context'.slots = context.slots
  known (key : FragmentKey) : ∀ fragment ∈ context.fallbacks.get? key,
    ∃ fragment' ∈ context'.fallbacks.get? key, fragment'.Loosens fragment

theorem ContextLoosens.setFallback {context context' : BuildContext}
    (looser : ContextLoosens context' context) (key : FragmentKey)
    {fragment fragment' : Fragment} (fragments : fragment'.Loosens fragment) :
    ContextLoosens (context'.setFallback key fragment') (context.setFallback key fragment) where
  slots := looser.slots
  known other found listed := by
    simp only [BuildContext.setFallback, Table.get?_insert] at listed ⊢
    split at listed
    · rename_i same
      cases listed
      rw [if_pos same]
      exact ⟨fragment', rfl, fragments⟩
    · rename_i apart
      rw [if_neg apart]
      exact looser.known other found listed

/-- Slots that are declared with looser types are known with looser types. -/
theorem declare_loosens {context context' : BuildContext} {types types' : List TypeTag}
    (contexts : ContextLoosens context' context)
    (looser : List.Forall₂ TypeTag.Loosens types' types) (position : Nat)
    (members : SlotMembers) :
    ContextLoosens (declare context' position members types')
      (declare context position members types) := by
  induction looser generalizing context context' position members with
  | nil =>
      match members with
      | [] | none :: _ | some _ :: _ => exact contexts
  | @cons type' type types' types first _ ih =>
      match members with
      | [] => exact contexts
      | none :: members => exact ih contexts (position + 1) members
      | some (id, reference) :: members =>
          rw [declare, declare, contexts.slots]
          refine ih ?_ (position + 1) members
          exact contexts.setFallback _ (Builder.loosens_ofSlot first position)

theorem fallbacks_loosens (compiled : Compiled) (slots : Slots) {types types' : List TypeTag}
    (looser : List.Forall₂ TypeTag.Loosens types' types) :
    TableLoosens (compiled.fallbacks slots types') (compiled.fallbacks slots types) := by
  intro expr fragment found
  have start : ContextLoosens (.start slots compiled.metadata) (.start slots compiled.metadata) :=
    ⟨rfl, nofun⟩
  have declared := declare_loosens start looser 0 compiled.members
  unfold fallbacks BuildContext.fallback? at found ⊢
  rw [declared.slots]
  exact declared.known _ fragment found

theorem follows_fallbacks (compiled : Compiled) (slots : Slots) {types types' : List TypeTag}
    (looser : List.Forall₂ TypeTag.Loosens types' types) (expression : Expr) :
    Follows Fragment.Loosens (plan (compiled.fallbacks slots types') expression [])
      (plan (compiled.fallbacks slots types) expression []) :=
  Builder.follows_plan (compiled.fallbacks_loosens slots looser) expression []

/-- Whether a call fails to compile is a matter of its types alone. -/
theorem invoke_ne_compile_iff {slots now : Slots} {expression : Expr} {compiled : Compiled}
    (intact : Intact slots expression compiled) (unmoved : Unmoved expression slots now)
    {arguments : List Argument} (enough : arguments.length = compiled.memberCount)
    (callMetadata : Option Metadata) (world : World Closure) :
    (∀ error, (compiled.invoke now arguments callMetadata world).1 ≠
        .error (.failure (.compile error))) ↔
      ∃ root, plan (compiled.fallbacks slots (arguments.map Argument.tag)) expression [] =
        .ok root := by
  have invoked := congrArg Prod.fst (invoke_eq intact unmoved enough callMetadata world)
  dsimp only at invoked
  rw [invoked]
  cases plan (compiled.fallbacks slots (arguments.map Argument.tag)) expression [] with
  | error error => simp
  | ok root => simp [outcome_ne_compile]

/-- Static checking is monotone in the declared types. If an expression can be built with some
types, then so it can with some of them replaced by `object`, and the type of its result stays or
becomes `object`. No call fails to compile for declaring its arguments more loosely. -/
theorem build_loosened {compiled : Compiled} (chain : compiled.chain = standard)
    {types types' : List TypeTag} (looser : List.Forall₂ TypeTag.Loosens types' types) :
    (∀ (slots : Slots) (invoker : Invoker),
      (compiled.build slots (.ofTypes types)).result = .ok invoker →
        ∃ invoker', (compiled.build slots (.ofTypes types')).result = .ok invoker' ∧
          (invoker'.resultType = invoker.resultType ∨ invoker'.resultType = .object)) ∧
    ∀ (slots now : Slots) (expression : Expr) (metadata : Option Metadata),
      Reached standard slots expression metadata compiled → Unmoved expression slots now →
        ∀ (arguments arguments' : List Argument) (given given' : Option Metadata)
          (world world' : World Closure),
          arguments.map Argument.tag = types → arguments'.map Argument.tag = types' →
          (∀ error, (compiled.invoke now arguments given world).1 ≠
            .error (.failure (.compile error))) →
          ∀ error, (compiled.invoke now arguments' given' world').1 ≠
            .error (.failure (.compile error)) := by
  constructor
  · intro slots invoker built
    rw [build_standard_eq chain, Shape.types_ofTypes] at built
    rw [build_standard_eq chain, Shape.types_ofTypes]
    rw [Build.settled] at built
    rw [Build.settled]
    cases planned : plan (compiled.fallbacks slots types) compiled.expression [] with
    | error error =>
        rw [planned] at built
        cases built
    | ok root =>
        rw [planned] at built
        cases built
        obtain ⟨root', planned', loosens⟩ :=
          follows_fallbacks compiled slots looser compiled.expression root planned
        rw [planned']
        exact ⟨_, rfl, loosens.tag⟩
  · intro slots now expression metadata reached unmoved arguments arguments' given given' world
      world' strict loose compiles
    have intact := reached.intact
    have count : arguments'.length = arguments.length := by
      rw [← List.length_map Argument.tag, ← List.length_map Argument.tag, strict, loose]
      exact looser.length_eq
    by_cases enough : arguments.length = compiled.memberCount
    · rw [invoke_ne_compile_iff intact unmoved enough] at compiles
      rw [invoke_ne_compile_iff intact unmoved (count.trans enough), loose]
      obtain ⟨root, planned⟩ := compiles
      rw [strict] at planned
      obtain ⟨root', planned', -⟩ := follows_fallbacks compiled slots looser expression root planned
      exact ⟨root', planned'⟩
    · have wrong : arguments'.length ≠ compiled.memberCount := fun same =>
        enough (count.symm.trans same)
      rw [invoke_refused wrong]
      exact fun _ same => by cases same

/-- A sum of two integers is an integer. With nothing known of one of them it still builds. -/
theorem build_loosened_sum :
    let member (path : String) : Placeholder :=
      { path, root := .source, flags := {}, kind := .member }
    let sum : Expr := .mk 0 (.binary .add (.mk 1 (.placeholder (member "A")))
      (.mk 2 (.placeholder (member "B"))))
    let slots : Slots := fun id => (id : Int) - 1
    ∃ compiled, compile standard slots sum none = .ok compiled ∧
      (∃ invoker, (compiled.build slots (.ofTypes [.int, .int])).result = .ok invoker ∧
        invoker.resultType = .int) ∧
      ∃ invoker', (compiled.build slots (.ofTypes [.object, .int])).result = .ok invoker' ∧
        (invoker'.resultType = .int ∨ invoker'.resultType = .object) := by
  intro member sum slots
  let compiled : Compiled :=
    { expression := sum
      members := [some (1, member "A"), some (2, member "B")]
      chain := standard
      metadata := none }
  have chain : compiled.chain = standard := rfl
  have strict : ∃ invoker, (compiled.build slots (.ofTypes [.int, .int])).result = .ok invoker ∧
      invoker.resultType = .int := by
    rw [build_standard_eq chain]
    exact ⟨_, rfl, rfl⟩
  have looser : List.Forall₂ TypeTag.Loosens [.object, .int] [.int, .int] :=
    .cons (.object .int) (.cons (.refl .int) .nil)
  obtain ⟨invoker, built, result⟩ := strict
  obtain ⟨invoker', built', loosened⟩ := (build_loosened chain looser).1 slots invoker built
  rw [result] at loosened
  exact ⟨compiled, rfl, ⟨invoker, built, result⟩, invoker', built', loosened⟩

end Compiled

end Tether

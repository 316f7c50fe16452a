import Tether.Proofs.Meaning
import Tether.Proofs.StaticTypes

set_option autoImplicit false

/- Code that the standard builders make agrees with the tree it was made from. What the builders
do beyond translating node by node, computing what is known and choosing the form of an operator
by static types, does not show. -/
namespace Tether

namespace Eval

variable {κ α β : Type}

theorem bind_congr {run : Eval κ α} {next next' : α → Eval κ β}
    (same : ∀ value, Eval.Yields run value → next value = next' value) :
    run >>= next = run >>= next' := by
  funext before
  cases ended : run before with
  | ok value after =>
      rw [bind_of_ok ended, bind_of_ok ended, same value ⟨before, after, ended⟩]
  | error error after => rw [bind_of_error ended, bind_of_error ended]

theorem lift_map (f : α → β) (result : Except EvalError α) :
    (liftM (result.map f) : Eval κ β) = (do
      let value ← (liftM result : Eval κ α)
      pure (f value)) := by
  cases result <;> rfl

end Eval

namespace BinaryOp

variable {κ : Type} {op : BinaryOp}

theorem isShortCircuit_of_comparison (compares : op.isComparison) :
    op.isShortCircuit = false := by
  cases op with
  | and | or | coalesce => cases compares
  | _ => rfl

theorem evaluate_of_strict (strict : op.isShortCircuit = false) (left right : Eval κ Value) :
    op.evaluate left right = (do
      let first ← left
      let second ← right
      Value.binary op first second) := by
  cases op with
  | and | or | coalesce => cases strict
  | _ => rfl

/-- Operators on two known values. -/
theorem evaluate_pure (op : BinaryOp) (left right : Value) :
    (op.evaluate (pure left) (pure right) : Eval κ Value) =
      liftM (Value.binary op left right) := by
  obtain rfl | rfl | rfl | compares | computes := op.sort
  · simp only [BinaryOp.evaluate, Value.binary, pure_bind]
    cases left.toBool with
    | error error => rfl
    | ok flag =>
        cases flag with
        | false => rfl
        | true => cases right.toBool <;> rfl
  · simp only [BinaryOp.evaluate, Value.binary, pure_bind]
    cases left.toBool with
    | error error => rfl
    | ok flag =>
        cases flag with
        | true => rfl
        | false => cases right.toBool <;> rfl
  · simp only [BinaryOp.evaluate, Value.binary, pure_bind]
    cases left.isNull <;> rfl
  · rw [evaluate_of_strict (isShortCircuit_of_comparison compares), pure_bind, pure_bind]
  · rw [evaluate_of_strict computes.1, pure_bind, pure_bind]

end BinaryOp

namespace Builder

open Fragment

section Shortcuts

variable {nullable : TypeTag → Prop} {slots : List Value} {first second test : Fragment}
  {κ : Type} {keep : Closure → κ} {caller : Caller κ} {frame : Frame}

theorem eval_known {fragment : Fragment} (sound : fragment.Sound nullable slots) {value : Value}
    (constant : fragment.constant = some value) :
    fragment.code.eval keep caller frame = pure value := by
  rw [(sound.known value constant).1]
  rfl

theorem eval_branch (tested : test.Sound nullable slots) :
    (branch test first second).code.eval keep caller frame = (do
      if ← (← test.code.eval keep caller frame).toBool then first.code.eval keep caller frame
      else second.code.eval keep caller frame) := by
  unfold branch
  split
  · rename_i flag constant
    rw [eval_known tested constant]
    cases flag <;> rfl
  · rfl

theorem eval_applyUnary {expression : String} {op : UnaryOp} {result : Fragment}
    (operand : first.Sound nullable slots)
    (applied : applyUnary expression op first = .ok result) :
    result.code.eval keep caller frame = (do
      let value ← first.code.eval keep caller frame
      Value.unary op value) := by
  simp only [applyUnary] at applied
  split at applied
  · cases applied
  · split at applied
    · rename_i folded computed
      cases applied
      obtain ⟨value, constant, computed⟩ := Option.map_eq_some_iff.mp computed
      rw [eval_known operand constant, pure_bind, computed]
      rfl
    · cases applied
      rfl

/-- Double arithmetic stands for the general rules unless both operands are integers. -/
theorem combineDoubles_eq {op : BinaryOp} (computes : op.Computes) {left right : Value}
    (apart : ∀ a b, left = .int a → right ≠ .int b) :
    Code.combineDoubles op left right = Value.binary op left right := by
  simp only [Code.combineDoubles]
  split
  · rename_i a b leftNumber rightNumber
    rw [Value.binary_of_computes computes]
    cases left with
    | int m =>
        cases right with
        | int n => exact absurd rfl (apart m n rfl)
        | double n =>
            cases leftNumber
            cases rightNumber
            rfl
        | _ => cases rightNumber
    | double m =>
        cases right with
        | int n | double n =>
            cases leftNumber
            cases rightNumber
            rfl
        | _ => cases rightNumber
    | _ => cases leftNumber
  · rfl

theorem tag_of_int {number : Int64} {tag : TypeTag} (fits : (Value.int number).Fits nullable tag)
    (numeric : tag.isNumeric) : tag = .int := by
  obtain rfl | ⟨same, -⟩ | ⟨null, -⟩ := fits
  · cases numeric
  · exact same.symm
  · cases null

theorem combineInts_eq {op : BinaryOp} (computes : op.Computes) (left right : Value) :
    Code.combineInts op left right = Value.binary op left right := by
  simp only [Code.combineInts]
  split
  · rw [Value.binary_of_computes computes]
    rfl
  · rfl

theorem concat_eq {left right : Value}
    (textual : (∃ text, left = .string text) ∨ ∃ text, right = .string text) :
    Value.binary .add left right = .ok (Value.concat left right) := by
  rw [Value.binary_of_computes ⟨rfl, rfl⟩]
  obtain ⟨text, rfl⟩ | ⟨text, rfl⟩ := textual
  · rfl
  · cases left <;> rfl

theorem eval_specialize {expression : String} {op : BinaryOp} {result : Fragment}
    (computes : op.Computes) (strings : ¬ nullable .string) (left : first.Sound nullable slots)
    (right : second.Sound nullable slots) (here : frame.slots = slots)
    (applied : specialize expression op first second = .ok result) :
    result.code.eval keep caller frame = (do
      let leftValue ← first.code.eval keep caller frame
      let rightValue ← second.code.eval keep caller frame
      Value.binary op leftValue rightValue) := by
  simp only [specialize] at applied
  split at applied
  · cases applied
  split at applied
  · cases applied
    simp only [Code.eval, combineInts_eq computes]
  rename_i unlike
  split at applied
  · rename_i numbers
    simp only [Bool.and_eq_true] at numbers
    cases applied
    refine Eval.bind_congr fun leftValue leftYields => ?_
    refine Eval.bind_congr fun rightValue rightYields => ?_
    have leftFits := left.fits keep caller frame here leftValue leftYields
    have rightFits := right.fits keep caller frame here rightValue rightYields
    rw [combineDoubles_eq computes]
    -- Two integers at run time would have been two integers by type, the case before.
    rintro a b rfl rfl
    apply unlike
    rw [tag_of_int leftFits numbers.1.2, tag_of_int rightFits numbers.2]
    rfl
  split at applied
  · rename_i concatenates
    simp only [Bool.and_eq_true, Bool.or_eq_true, beq_iff_eq] at concatenates
    obtain ⟨rfl, textual⟩ := concatenates
    cases applied
    refine Eval.bind_congr fun leftValue leftYields => ?_
    refine Eval.bind_congr fun rightValue rightYields => ?_
    have leftFits := left.fits keep caller frame here leftValue leftYields
    have rightFits := right.fits keep caller frame here rightValue rightYields
    rw [concat_eq]
    · rfl
    · rcases textual with same | same
      · rw [same] at leftFits
        exact .inl (leftFits.string.resolve_left fun null => strings null.2)
      · rw [same] at rightFits
        exact .inr (rightFits.string.resolve_left fun null => strings null.2)
  · cases applied
    rfl

/-- Folding and specialization do not show in what an operator evaluates to. -/
theorem eval_applyBinary {expression : String} {op : BinaryOp} {result : Fragment}
    (strings : ¬ nullable .string) (left : first.Sound nullable slots)
    (right : second.Sound nullable slots) (here : frame.slots = slots)
    (applied : applyBinary expression op first second = .ok result) :
    result.code.eval keep caller frame =
      op.evaluate (first.code.eval keep caller frame) (second.code.eval keep caller frame) := by
  simp only [applyBinary] at applied
  split at applied
  · rename_i folded found
    cases applied
    obtain ⟨a, b, leftKnown, rightKnown, computed⟩ := foldBinary?_eq_some found
    rw [eval_known left leftKnown, eval_known right rightKnown, BinaryOp.evaluate_pure, computed]
    rfl
  · obtain rfl | rfl | rfl | compares | computes := op.sort
    · obtain ⟨-, -, applied⟩ := ok_of_bind applied
      obtain ⟨-, -, applied⟩ := ok_of_bind applied
      cases applied
      refine Eval.bind_congr fun leftValue _ => Eval.bind_congr fun flag _ => ?_
      cases flag <;> rfl
    · obtain ⟨-, -, applied⟩ := ok_of_bind applied
      obtain ⟨-, -, applied⟩ := ok_of_bind applied
      cases applied
      refine Eval.bind_congr fun leftValue _ => Eval.bind_congr fun flag _ => ?_
      cases flag <;> rfl
    · cases applied
      rfl
    · rw [combine_of_comparison compares] at applied
      cases applied
      rw [BinaryOp.evaluate_of_strict (BinaryOp.isShortCircuit_of_comparison compares)]
      refine Eval.bind_congr fun leftValue _ => Eval.bind_congr fun rightValue _ => ?_
      rw [Value.binary_of_comparison compares, Eval.lift_map]
    · rw [combine_of_computes computes] at applied
      rw [BinaryOp.evaluate_of_strict computes.1]
      exact eval_specialize computes strings left right here applied

end Shortcuts

end Builder

namespace Bindings

/-- The names in scope, outermost first. -/
def names (bindings : Bindings) : List String :=
  (bindings.map Prod.fst).reverse

def values (bindings : Bindings) : List Value :=
  (bindings.map Prod.snd).reverse

theorem names_enter (bindings : Bindings) {parameters : List String} {arguments : List Value}
    (enough : arguments.length = parameters.length) :
    (bindings.enter parameters arguments).names = bindings.names ++ parameters := by
  simp [names, enter, List.map_fst_zip (Nat.le_of_eq enough.symm)]

theorem values_enter (bindings : Bindings) {parameters : List String} {arguments : List Value}
    (enough : arguments.length = parameters.length) :
    (bindings.enter parameters arguments).values = bindings.values ++ arguments := by
  simp [values, enter, List.map_snd_zip (Nat.le_of_eq enough)]

theorem lastIndex?_concat (name last : String) (names : List String) :
    BuildContext.lastIndex? name (names ++ [last]) =
      if last == name then some names.length else BuildContext.lastIndex? name names := by
  induction names with
  | nil => rfl
  | cons first rest ih =>
      simp only [List.cons_append, BuildContext.lastIndex?, ih, List.length_cons]
      cases last == name <;> rfl

theorem lastIndex?_lt {name : String} {names : List String} {position : Nat}
    (found : BuildContext.lastIndex? name names = some position) : position < names.length := by
  induction names generalizing position with
  | nil => cases found
  | cons first rest ih =>
      simp only [BuildContext.lastIndex?] at found
      split at found
      · rename_i index inner
        cases found
        exact Nat.succ_lt_succ (ih inner)
      · split at found <;> cases found
        exact Nat.zero_lt_succ _

/-- The innermost binding of a name stands at the last position of the name. -/
theorem lookup_eq (bindings : Bindings) (name : String) :
    bindings.lookup name =
      (BuildContext.lastIndex? name bindings.names).map (bindings.values.getD · .null) := by
  induction bindings with
  | nil => rfl
  | cons binding rest ih =>
      obtain ⟨found, value⟩ := binding
      have names_cons : names ((found, value) :: rest) = names rest ++ [found] := by simp [names]
      have values_cons : values ((found, value) :: rest) = values rest ++ [value] := by
        simp [values]
      have sameLength : (names rest).length = (values rest).length := by simp [names, values]
      rw [names_cons, values_cons, lastIndex?_concat, List.lookup_cons]
      by_cases same : name = found
      · subst same
        simp [sameLength]
      · have differs : (name == found) = false := by simpa using same
        have differs' : (found == name) = false := by simpa using Ne.symm same
        simp only [differs, differs', Bool.false_eq_true, if_false, ih]
        cases found : BuildContext.lastIndex? name (names rest) with
        | none => rfl
        | some position =>
            have bound := lastIndex?_lt found
            rw [sameLength] at bound
            simp only [Option.map_some, List.getD_eq_getElem?_getD, List.getElem?_append_left bound]

end Bindings

/-- The fallback table of a call: it knows placeholders only, each reads a slot as a declared type,
and that is what the surroundings say it stands for. -/
structure Supplies (nullable : TypeTag → Prop) (slots : List Value)
    (fallback : Expr → Option Fragment) (surroundings : Surroundings) : Prop where
  others (expr : Expr) (other : expr.placeholder? = none) : fallback expr = none
  reads (id : NodeId) (reference : Placeholder) (fragment : Fragment)
    (declared : fallback (.mk id (.placeholder reference)) = some fragment) :
    ∃ position tag, fragment = .ofSlot position tag ∧
      (slots.getD position .null).Honest ∧
      (slots.getD position .null = .null → nullable tag) ∧
      surroundings.placeholder id reference = (slots.getD position .null).convert tag

namespace Supplies

open Builder

variable {nullable : TypeTag → Prop} {slots : List Value} {fallback : Expr → Option Fragment}
  {surroundings : Surroundings}

theorem sound (supplies : Supplies nullable slots fallback surroundings) (expr : Expr)
    (fragment : Fragment) (declared : fragment ∈ fallback expr) :
    fragment.Sound nullable slots := by
  obtain ⟨id, node⟩ := expr
  cases node with
  | placeholder reference =>
      obtain ⟨position, tag, rfl, honest, nulls, -⟩ := supplies.reads id reference _ declared
      exact Fragment.sound_ofSlot honest fun _ => nulls
  | _ =>
      rw [supplies.others _ rfl] at declared
      cases declared

theorem unplanned (supplies : Supplies nullable slots fallback surroundings) {expr : Expr}
    (other : expr.placeholder? = none) {fragment : Fragment} :
    planFallback fallback expr ≠ .ok fragment := by
  intro planned
  have declared := (planFallback_eq_ok fallback).mp planned
  rw [supplies.others expr other] at declared
  cases declared

end Supplies

section Translation

open Builder

variable {nullable : TypeTag → Prop} {slots : List Value} {fallback : Expr → Option Fragment}
  {surroundings : Surroundings}

/-- A closure stands for a lambda when its body was made from the lambda's, and a closure that was
there before stands for itself. -/
inductive Translates (slots : List Value) (fallback : Expr → Option Fragment)
    (surroundings : Surroundings) (arity : Nat) : Closure → Thunk → Prop where
  | foreign (closure : Closure) : Translates slots fallback surroundings arity closure
      (.compiled closure)
  | lambda {frame : Frame} {bindings : Bindings} {parameters : List String} {body : Expr}
      {fragment : Fragment} (count : arity = parameters.length) (here : frame.slots = slots)
      (scope : frame.locals = bindings.values) (honest : HonestConstants body)
      (planned : plan fallback body (bindings.names ++ parameters) = .ok fragment) :
      Translates slots fallback surroundings arity ⟨frame, fragment.code⟩
        (.lambda surroundings bindings parameters body)

/-- Compiled code against trees, over the same objects and with the same requests. -/
def translation (slots : List Value) (fallback : Expr → Option Fragment)
    (surroundings : Surroundings) (objects : Array HostObject) : Correspondence Closure Thunk where
  closures := Translates slots fallback surroundings
  objects := objects

variable {objects : Array HostObject} {call : Caller Closure} {call' : Caller Thunk}

theorem agree_evaluate {κ κ' : Type} {link : Correspondence κ κ'} (op : BinaryOp)
    {left right : Eval κ Value} {left' right' : Eval κ' Value} (first : link.Agree left left')
    (second : link.Agree right right') :
    link.Agree (op.evaluate left right) (op.evaluate left' right') := by
  cases op with
  | and =>
      refine first.bind fun value => (Correspondence.Agree.lift value.toBool).bind fun flag => ?_
      cases flag with
      | true =>
          refine second.bind fun value => ?_
          exact (Correspondence.Agree.lift value.toBool).bind fun flag => .pure _
      | false => exact .pure _
  | or =>
      refine first.bind fun value => (Correspondence.Agree.lift value.toBool).bind fun flag => ?_
      cases flag with
      | true => exact .pure _
      | false =>
          refine second.bind fun value => ?_
          exact (Correspondence.Agree.lift value.toBool).bind fun flag => .pure _
  | coalesce =>
      refine first.bind fun value => ?_
      split
      · exact second
      · exact .pure value
  | _ => exact first.bind fun a => second.bind fun b => .lift (Value.binary _ a b)

theorem agree_planAll {κ κ' : Type} {link : Correspondence κ κ'} {keep : Closure → κ}
    {call : Caller κ} {frame : Frame} {names : List String} {run : Expr → Eval κ' Value}
    {arguments : List Expr} {codes : List Code}
    (agree : ∀ argument ∈ arguments, ∀ fragment, plan fallback argument names = .ok fragment →
      link.Agree (fragment.code.eval keep call frame) (run argument))
    (planned : planAll fallback arguments names = .ok codes) :
    link.Agree (Code.evalAll keep call frame codes) (arguments.mapM run) := by
  induction arguments generalizing codes with
  | nil =>
      cases planned
      exact .pure []
  | cons argument rest ih =>
      obtain ⟨fragment, others, built, builtRest, rfl⟩ := planAll_cons planned
      rw [List.mapM_cons]
      refine (agree argument (List.mem_cons_self ..) fragment built).bind fun first => ?_
      refine (ih (fun other found => agree other (List.mem_cons_of_mem _ found)) builtRest).bind
        fun values => ?_
      exact .pure (first :: values)

theorem agree_planName {link : Correspondence Closure Thunk} {expr : Expr} {name : String}
    {frame : Frame} {bindings : Bindings} (supplies : Supplies nullable slots fallback surroundings)
    (scope : frame.locals = bindings.values) (other : expr.placeholder? = none)
    {fragment : Fragment} (planned : planName fallback expr name bindings.names = .ok fragment)
    (otherwise : Eval Thunk Value) :
    link.Agree (fragment.code.eval id call frame)
      (match bindings.lookup name with
        | some value => pure value
        | none => otherwise) := by
  simp only [planName] at planned
  split at planned
  · rename_i position found
    cases planned
    rw [bindings.lookup_eq, found]
    simp only [Option.map_some, Code.eval, Frame.localAt, scope]
    exact .pure _
  · exact absurd planned (supplies.unplanned other)

/-- Code agrees with the tree it was made from, in every scope. -/
theorem agree_plan (supplies : Supplies nullable slots fallback surroundings)
    (strings : ¬ nullable .string)
    (callers : (translation slots fallback surroundings objects).CallersAgree call call')
    (expr : Expr) (honest : HonestConstants expr) {frame : Frame} (here : frame.slots = slots)
    {bindings : Bindings} (scope : frame.locals = bindings.values) {fragment : Fragment}
    (planned : plan fallback expr bindings.names = .ok fragment) :
    (translation slots fallback surroundings objects).Agree (fragment.code.eval id call frame)
      (expr.evaluate call' surroundings bindings) := by
  have sound {expr : Expr} (honest : HonestConstants expr) {fragment : Fragment}
      (planned : plan fallback expr bindings.names = .ok fragment) :
      fragment.Sound nullable slots := plan_sound supplies.sound expr honest planned
  induction expr using Expr.induct generalizing fragment with
  | constant id value =>
      cases planned
      exact .pure value
  | parameter id name => exact agree_planName supplies scope rfl planned _
  | name id name => exact agree_planName supplies scope rfl planned _
  | placeholder id reference =>
      obtain ⟨position, tag, rfl, -, -, supplied⟩ :=
        supplies.reads id reference fragment ((planFallback_eq_ok fallback).mp planned)
      rw [Expr.evaluate_placeholder, supplied]
      simp only [Fragment.ofSlot, Code.eval, Frame.slot, here]
      exact .lift _
  | lambda id parameters body bodyIH =>
      rw [plan_lambda] at planned
      obtain ⟨built, bodyPlanned, made⟩ := ok_of_bind planned
      cases made
      rw [Expr.evaluate_lambda]
      refine (Correspondence.agree_newFunction (.closure ?_)).bind fun handle => .pure _
      exact .lambda rfl here scope (honest.child (by simp [Node.children])) bodyPlanned
  | condition id test whenTrue whenFalse testIH trueIH falseIH =>
      rw [plan_condition] at planned
      obtain ⟨tested, testPlanned, planned⟩ := ok_of_bind planned
      obtain ⟨-, -, planned⟩ := ok_of_bind planned
      obtain ⟨first, firstPlanned, planned⟩ := ok_of_bind planned
      obtain ⟨second, secondPlanned, planned⟩ := ok_of_bind planned
      cases planned
      have testHonest : HonestConstants test := honest.child (by simp [Node.children])
      rw [eval_branch (sound testHonest testPlanned), Expr.evaluate_condition]
      refine (testIH testHonest testPlanned).bind fun value => ?_
      refine (Correspondence.Agree.lift value.toBool).bind fun flag => ?_
      cases flag with
      | true => exact trueIH (honest.child (by simp [Node.children])) firstPlanned
      | false => exact falseIH (honest.child (by simp [Node.children])) secondPlanned
  | unary id op operand operandIH =>
      by_cases namesRoot : op.namesRoot
      · rw [plan_root namesRoot] at planned
        exact absurd planned (supplies.unplanned rfl)
      · rw [plan_unary namesRoot] at planned
        obtain ⟨built, builtPlanned, planned⟩ := ok_of_bind planned
        have operandHonest : HonestConstants operand := honest.child (by simp [Node.children])
        rw [eval_applyUnary (sound operandHonest builtPlanned) planned,
          Expr.evaluate_unary namesRoot]
        exact (operandIH operandHonest builtPlanned).bind fun value => .lift _
  | binary id op left right leftIH rightIH =>
      rw [plan_binary] at planned
      obtain ⟨first, firstPlanned, planned⟩ := ok_of_bind planned
      obtain ⟨second, secondPlanned, planned⟩ := ok_of_bind planned
      have leftHonest : HonestConstants left := honest.child (by simp [Node.children])
      have rightHonest : HonestConstants right := honest.child (by simp [Node.children])
      rw [eval_applyBinary strings (sound leftHonest firstPlanned) (sound rightHonest secondPlanned)
        here planned, Expr.evaluate_binary]
      exact agree_evaluate op (leftIH leftHonest firstPlanned) (rightIH rightHonest secondPlanned)
  | member id target name targetIH =>
      rw [plan_member] at planned
      obtain ⟨built, builtPlanned, planned⟩ := ok_of_bind planned
      cases planned
      rw [Expr.evaluate_member]
      refine (targetIH (honest.child (by simp [Node.children])) builtPlanned).bind fun owner => ?_
      exact Correspondence.agree_member callers owner name
  | index id target arguments targetIH argumentsIH =>
      cases target with
      | none =>
          rw [plan_index_none] at planned
          exact absurd planned (supplies.unplanned rfl)
      | some target =>
          rw [plan_index] at planned
          obtain ⟨built, builtPlanned, planned⟩ := ok_of_bind planned
          obtain ⟨codes, codesPlanned, planned⟩ := ok_of_bind planned
          cases planned
          rw [Expr.evaluate_index]
          refine (targetIH target rfl (honest.child (by simp [Node.children])) builtPlanned).bind
            fun owner => ?_
          refine (agree_planAll (fun argument found fragment planned => ?_) codesPlanned).bind
            fun values => Correspondence.agree_item callers owner values
          exact argumentsIH argument found (honest.child (by simp [Node.children, found])) planned
  | call id target method arguments targetIH argumentsIH =>
      cases target with
      | none =>
          rw [plan_call_none] at planned
          exact absurd planned (supplies.unplanned rfl)
      | some target =>
          rw [plan_call] at planned
          obtain ⟨built, builtPlanned, planned⟩ := ok_of_bind planned
          obtain ⟨codes, codesPlanned, planned⟩ := ok_of_bind planned
          cases planned
          rw [Expr.evaluate_call]
          refine (targetIH target rfl (honest.child (by simp [Node.children])) builtPlanned).bind
            fun owner => ?_
          refine (agree_planAll (fun argument found fragment planned => ?_) codesPlanned).bind
            fun values => Correspondence.agree_method callers owner method values
          exact argumentsIH argument found (honest.child (by simp [Node.children, found])) planned

theorem translation_enters (supplies : Supplies nullable slots fallback surroundings)
    (strings : ¬ nullable .string) :
    (translation slots fallback surroundings objects).EntersAgree (Closure.enter id)
      Thunk.enter := by
  intro call call' callers closure thunk arguments related
  cases related with
  | foreign =>
      -- A function from before the call runs its own code on both sides.
      exact Correspondence.agree_eval callers (fun arity closure => .foreign closure) _ closure.body
  | lambda count here scope honest planned =>
      rename_i frame bindings parameters body fragment
      have entered : ({ frame with locals := frame.locals ++ arguments } : Frame).slots = slots :=
        here
      rw [← bindings.names_enter count] at planned
      refine agree_plan supplies strings callers body honest entered ?_ planned
      rw [bindings.values_enter count, ← scope]

theorem translation_callers (supplies : Supplies nullable slots fallback surroundings)
    (strings : ¬ nullable .string) :
    (translation slots fallback surroundings objects).CallersAgree callFunction callThunk :=
  Correspondence.callers_agree_inRoom (translation_enters supplies strings)

theorem translation_forTrees (slots : List Value) (fallback : Expr → Option Fragment)
    (surroundings : Surroundings) (world : World Closure) :
    (translation slots fallback surroundings world.objects).Worlds world world.forTrees where
  leftObjects := rfl
  rightObjects := rfl
  pureObjects := nofun
  log _ := rfl
  memory _ := rfl
  room := .inl rfl
  size := by simp [World.forTrees]
  functions id := by
    simp only [World.forTrees, Array.getElem?_map]
    cases world.functions[id]? with
    | none => exact .none
    | some function =>
        obtain ⟨arity, callable⟩ := function
        refine .some ⟨rfl, ?_⟩
        cases callable with
        | host behavior => exact .host behavior nofun
        | closure closure => exact .closure (.foreign closure)

theorem Correspondence.Results.observe_eq {κ κ' α : Type} {link : Correspondence κ κ'}
    {first : Eval κ α} {second : Eval κ' α} {left : World κ} {right : World κ'}
    (results : link.Results (first left) (second right)) (sameRoom : ¬ link.roomier) :
    (Eval.observe first left).1 = (Eval.observe second right).1 ∧
      (link.traced → (Eval.observe first left).2 = (Eval.observe second right).2) := by
  simp only [Eval.observe]
  revert results
  generalize first left = leftRun
  generalize second right = rightRun
  intro results
  cases results with
  | ok value worlds => exact ⟨rfl, worlds.log⟩
  | error halt worlds => exact ⟨rfl, worlds.log⟩
  | overflow roomier => exact absurd roomier sameRoom

/-- The code of a whole expression shows what the expression means. -/
theorem observe_plan (supplies : Supplies nullable slots fallback surroundings)
    (strings : ¬ nullable .string) {expr : Expr} (honest : HonestConstants expr)
    {fragment : Fragment} (planned : plan fallback expr [] = .ok fragment)
    (metadata : Option Metadata) (world : World Closure) :
    Eval.observe (fragment.eval { slots, metadata }) world = expr.meaning surroundings world := by
  have callers : (translation slots fallback surroundings world.objects).CallersAgree
      callFunction callThunk := translation_callers supplies strings
  have agree : (translation slots fallback surroundings world.objects).Agree
      (fragment.eval { slots, metadata }) (expr.evaluate callThunk surroundings []) :=
    agree_plan supplies strings callers expr honest rfl rfl planned
  obtain ⟨result, log⟩ := (agree world world.forTrees (translation_forTrees ..)).observe_eq id
  exact Prod.ext result (log trivial)

end Translation

end Tether

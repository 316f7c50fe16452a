import Tether.Builder.Standard
import Tether.Proofs.Subtrees

set_option autoImplicit false

/- What the standard builders make of a tree, as a function of the tree, the fallback table and
the names in scope. A build with them returns that, leaves the context as it was and remarks
nothing. -/
namespace Tether

theorem ok_of_bind {ε α β : Type} {first : Except ε α} {next : α → Except ε β} {result : β}
    (ended : (first >>= next) = .ok result) :
    ∃ value, first = .ok value ∧ next value = .ok result := by
  cases first with
  | ok value => exact ⟨value, rfl, ended⟩
  | error error => cases ended

namespace Build

variable {α β : Type}

/-- A step that ends with a result and touches neither context nor remarks. -/
def settled (result : Except CompileError α) : Build α := fun context => { result, context }

theorem bind_ok {first : Build α} {next : α → Build β} {context left : BuildContext}
    {said : List String} {value : α} (ended : first context = ⟨.ok value, left, said⟩) :
    (first >>= next) context =
      { next value left with remarks := said ++ (next value left).remarks } := by
  change Build.bind first next context = _
  simp only [Build.bind, ended]

theorem bind_error {first : Build α} {next : α → Build β} {context left : BuildContext}
    {said : List String} {error : CompileError}
    (failed : first context = ⟨.error error, left, said⟩) :
    (first >>= next) context = ⟨.error error, left, said⟩ := by
  change Build.bind first next context = _
  simp only [Build.bind, failed]

theorem bind_settled_ok {first : Build α} {next : α → Build β} {context : BuildContext} {value : α}
    (ended : first context = settled (.ok value) context) :
    (first >>= next) context = next value context :=
  bind_ok ended

theorem bind_settled_error {first : Build α} {next : α → Build β} {context : BuildContext}
    {error : CompileError} (failed : first context = settled (.error error) context) :
    (first >>= next) context = settled (.error error) context :=
  bind_error failed

/-- Settled steps run one after the other like the results they end with. -/
theorem bind_settled {first : Build α} {next : α → Build β} {context : BuildContext}
    {result : Except CompileError α} {continued : α → Except CompileError β}
    (ended : first context = settled result context)
    (rest : ∀ value, next value context = settled (continued value) context) :
    (first >>= next) context = settled (result >>= continued) context := by
  cases result with
  | ok value => exact (bind_settled_ok ended).trans (rest value)
  | error error => exact bind_settled_error ended

theorem map_settled (f : α → β) {step : Build α} {context : BuildContext}
    {result : Except CompileError α} (ended : step context = settled result context) :
    (f <$> step) context = settled (f <$> result) context := by
  cases result with
  | ok value => exact bind_settled_ok ended
  | error error => exact bind_settled_error ended

theorem lift_settled (result : Except CompileError α) (context : BuildContext) :
    (liftM result : Build α) context = settled result context := rfl

theorem underParameters_settled {step : Build α} {context : BuildContext} {names : List String}
    {result : Except CompileError α}
    (ended : step (context.push names) = settled result (context.push names)) :
    underParameters names step context = settled result context := by
  have restored : (context.push names).pop names.length = context := by
    simp only [BuildContext.push, BuildContext.pop, List.length_append, Nat.add_sub_cancel,
      List.take_left]
  simp only [underParameters, ended, settled, restored]

theorem mapM_settled {items : List α} {step : α → Build β} {context : BuildContext}
    {result : α → Except CompileError β}
    (ended : ∀ item ∈ items, step item context = settled (result item) context) :
    items.mapM step context = settled (items.mapM result) context := by
  have loops : ∀ done : List β, List.mapM.loop step items done context =
      settled (List.mapM.loop result items done) context := by
    induction items with
    | nil => exact fun done => rfl
    | cons item items ih =>
        intro done
        refine bind_settled (ended item (List.mem_cons_self ..)) fun value => ?_
        exact ih (fun other found => ended other (List.mem_cons_of_mem _ found)) (value :: done)
  exact loops []

end Build

namespace Builder

/-- What a node gets for each list of names in scope. -/
abbrev Plan := List String → Except CompileError Fragment

section Plan

variable (fallback : Expr → Option Fragment)

/-- What becomes of a node that no builder answers. -/
def planFallback (expr : Expr) : Except CompileError Fragment :=
  match fallback expr with
  | some fragment => .ok fragment
  | none => .error (.cannotCompile expr.text)

theorem planFallback_eq_ok {expr : Expr} {fragment : Fragment} :
    planFallback fallback expr = .ok fragment ↔ fallback expr = some fragment := by
  simp only [planFallback]
  cases fallback expr with
  | none => simp
  | some found => simp

def planName (expr : Expr) (name : String) : Plan := fun names =>
  match BuildContext.lastIndex? name names with
  | some position => .ok { tag := .object, code := .localAt position }
  | none => planFallback fallback expr

def planNode (id : NodeId) (node : Node (Expr × Plan)) : Plan := fun names =>
  let expr := Expr.mk id (node.map Prod.fst)
  match node with
  | .constant value => .ok (.ofValue value)
  | .parameter name => planName fallback expr name names
  | .lambda parameters (_, body) => do
      let body ← body (names ++ parameters)
      .ok { tag := .function, code := .lambda parameters.length body.code }
  | .condition (testExpr, test) (_, whenTrue) (_, whenFalse) => do
      let test ← test names
      requireTest testExpr.text test
      let whenTrue ← whenTrue names
      let whenFalse ← whenFalse names
      .ok (branch test whenTrue whenFalse)
  | .unary op (_, operand) =>
      if op.namesRoot then planFallback fallback expr
      else do
        let operand ← operand names
        applyUnary expr.text op operand
  | .binary op (_, left) (_, right) => do
      let left ← left names
      let right ← right names
      applyBinary expr.text op left right
  | .member none name => planName fallback expr name names
  | .member (some (_, target)) name => do
      let target ← target names
      .ok { tag := memberType target.tag name, code := .member target.code name }
  | .index (some (_, target)) arguments => do
      let target ← target names
      let arguments ← arguments.mapM fun argument => Fragment.code <$> argument.2 names
      .ok
        { tag := if target.tag == .string then .string else .object
          code := .index target.code arguments }
  | .call (some (_, target)) method arguments => do
      let target ← target names
      let arguments ← arguments.mapM fun argument => Fragment.code <$> argument.2 names
      .ok { tag := methodType target.tag method, code := .call target.code method arguments }
  | .index none _ | .call none _ _ | .placeholder _ => planFallback fallback expr

def plan : Expr → Plan :=
  Expr.para (planNode fallback)

def planAll (arguments : List Expr) (names : List String) : Except CompileError (List Code) :=
  arguments.mapM fun argument => Fragment.code <$> plan fallback argument names

variable {fallback} {id : NodeId} {names : List String}

theorem plan_constant (value : Value) :
    plan fallback (.mk id (.constant value)) names = .ok (.ofValue value) := rfl

theorem plan_parameter (name : String) :
    plan fallback (.mk id (.parameter name)) names =
      planName fallback (.mk id (.parameter name)) name names := rfl

theorem plan_name (name : String) :
    plan fallback (.mk id (.member none name)) names =
      planName fallback (.mk id (.member none name)) name names := rfl

theorem plan_placeholder (reference : Placeholder) :
    plan fallback (.mk id (.placeholder reference)) names =
      planFallback fallback (.mk id (.placeholder reference)) := rfl

theorem plan_lambda (parameters : List String) (body : Expr) :
    plan fallback (.mk id (.lambda parameters body)) names = (do
      let body ← plan fallback body (names ++ parameters)
      .ok { tag := .function, code := .lambda parameters.length body.code }) := rfl

theorem plan_condition (test whenTrue whenFalse : Expr) :
    plan fallback (.mk id (.condition test whenTrue whenFalse)) names = (do
      let built ← plan fallback test names
      requireTest test.text built
      let whenTrue ← plan fallback whenTrue names
      let whenFalse ← plan fallback whenFalse names
      .ok (branch built whenTrue whenFalse)) := rfl

theorem plan_root {op : UnaryOp} (namesRoot : op.namesRoot) (operand : Expr) :
    plan fallback (.mk id (.unary op operand)) names =
      planFallback fallback (.mk id (.unary op operand)) := by
  cases op with
  | dynamic | static => rfl
  | negate | not | complement => cases namesRoot

theorem plan_unary {op : UnaryOp} (computes : ¬ op.namesRoot) (operand : Expr) :
    plan fallback (.mk id (.unary op operand)) names = (do
      let built ← plan fallback operand names
      applyUnary (Expr.text (.mk id (.unary op operand))) op built) := by
  cases op with
  | dynamic | static => exact absurd rfl computes
  | negate | not | complement => rfl

theorem plan_binary (op : BinaryOp) (left right : Expr) :
    plan fallback (.mk id (.binary op left right)) names = (do
      let first ← plan fallback left names
      let second ← plan fallback right names
      applyBinary (Expr.text (.mk id (.binary op left right))) op first second) := rfl

theorem plan_member (target : Expr) (name : String) :
    plan fallback (.mk id (.member (some target) name)) names = (do
      let target ← plan fallback target names
      .ok { tag := memberType target.tag name, code := .member target.code name }) := rfl

theorem mapM_plan (arguments : List Expr) :
    ((arguments.map fun expr => (expr, plan fallback expr)).mapM fun argument =>
      Fragment.code <$> argument.2 names) = planAll fallback arguments names := by
  rw [planAll, List.mapM_map]
  rfl

theorem planAll_cons {argument : Expr} {rest : List Expr} {codes : List Code}
    (planned : planAll fallback (argument :: rest) names = .ok codes) :
    ∃ fragment others, plan fallback argument names = .ok fragment ∧
      planAll fallback rest names = .ok others ∧ codes = fragment.code :: others := by
  rw [planAll, List.mapM_cons] at planned
  obtain ⟨code, built, planned⟩ := ok_of_bind planned
  obtain ⟨others, builtRest, planned⟩ := ok_of_bind planned
  cases made : plan fallback argument names with
  | ok fragment =>
      rw [made] at built
      cases built
      cases planned
      exact ⟨fragment, others, rfl, builtRest, rfl⟩
  | error error =>
      rw [made] at built
      cases built

theorem plan_index (target : Expr) (arguments : List Expr) :
    plan fallback (.mk id (.index (some target) arguments)) names = (do
      let target ← plan fallback target names
      let arguments ← planAll fallback arguments names
      .ok
        { tag := if target.tag == .string then .string else .object
          code := .index target.code arguments }) := by
  simp only [← mapM_plan]
  rw [plan, Expr.para_mk]
  rfl

theorem plan_call (target : Expr) (method : String) (arguments : List Expr) :
    plan fallback (.mk id (.call (some target) method arguments)) names = (do
      let target ← plan fallback target names
      let arguments ← planAll fallback arguments names
      .ok
        { tag := methodType target.tag method
          code := .call target.code method arguments }) := by
  simp only [← mapM_plan]
  rw [plan, Expr.para_mk]
  rfl

theorem plan_index_none (arguments : List Expr) :
    plan fallback (.mk id (.index none arguments)) names =
      planFallback fallback (.mk id (.index none arguments)) := by
  rw [plan, Expr.para_mk]
  simp only [planNode, Node.map, Option.map_none, List.map_map, Function.comp_def, List.map_id']

theorem plan_call_none (method : String) (arguments : List Expr) :
    plan fallback (.mk id (.call none method arguments)) names =
      planFallback fallback (.mk id (.call none method arguments)) := by
  rw [plan, Expr.para_mk]
  simp only [planNode, Node.map, Option.map_none, List.map_map, Function.comp_def, List.map_id']

theorem planNode_congr {fallback' : Expr → Option Fragment} {id : NodeId}
    {node : Node (Expr × Plan)}
    (same : fallback (.mk id (node.map Prod.fst)) = fallback' (.mk id (node.map Prod.fst))) :
    planNode fallback id node = planNode fallback' id node := by
  funext names
  cases node with
  | member target | index target | call target =>
      cases target with
      | none => simp only [planNode, planName, planFallback, same]
      | some target => rfl
  | unary | parameter | placeholder => simp only [planNode, planName, planFallback, same]
  | constant | binary | condition | lambda => rfl

/-- Only what the fallback table says about the nodes of the tree matters. -/
theorem plan_congr {fallback' : Expr → Option Fragment} {expr : Expr}
    (same : expr.Everywhere fun part => fallback part = fallback' part) :
    plan fallback expr = plan fallback' expr :=
  Expr.para_congr fun part inside _ whole =>
    planNode_congr (whole ▸ same part inside)

end Plan

/-- The standard chain is registered in its final order. -/
theorem standard_eq :
    standard = [constant, parameter, lambda, condition, unary, binary, member, index, call] := by
  refine List.mergeSort_of_pairwise ?_
  simp [named, constant, parameter, lambda, condition, unary, binary, member, index, call]

theorem build_mk (chain : List Builder) (id : NodeId) (node : Node Expr) :
    build chain (.mk id node) = answer chain ⟨id, node.map fun expr => (expr, build chain expr)⟩ :=
  Expr.para_mk _ id node

open Build

theorem firstAnswer_skip {offer : Offer} {context : BuildContext} {declining : List Builder}
    (declined : ∀ builder ∈ declining, builder.respond offer context = settled (.ok none) context)
    (rest : List Builder) :
    firstAnswer offer (declining ++ rest) context = firstAnswer offer rest context := by
  induction declining with
  | nil => rfl
  | cons builder declining ih =>
      rw [List.cons_append, firstAnswer, bind_settled_ok (declined builder (List.mem_cons_self ..))]
      exact ih fun other found => declined other (List.mem_cons_of_mem _ found)

theorem answer_of_none {offer : Offer} {context : BuildContext}
    (declined : ∀ builder ∈ standard, builder.respond offer context = settled (.ok none) context) :
    answer standard offer context =
      settled (planFallback context.fallback? offer.expr) context := by
  have unanswered : firstAnswer offer standard context = settled (.ok none) context := by
    rw [← List.append_nil standard, firstAnswer_skip declined]
    rfl
  simp only [answer]
  rw [bind_settled_ok unanswered]
  dsimp only
  rw [bind_settled_ok (show Build.context context = settled (.ok context) context from rfl)]
  simp only [planFallback]
  cases context.fallback? offer.expr <;> rfl

/-- A builder decides about a node when those before it in the chain leave the node alone. -/
theorem answer_of_some {offer : Offer} {context : BuildContext}
    {result : Except CompileError Fragment} (before : List Builder) {after : List Builder}
    {builder : Builder} (split : standard = before ++ builder :: after)
    (declined : ∀ other ∈ before, other.respond offer context = settled (.ok none) context)
    (answered : builder.respond offer context =
      settled (do let fragment ← result; .ok (some fragment)) context) :
    answer standard offer context = settled result context := by
  have found : firstAnswer offer standard context =
      settled (do let fragment ← result; .ok (some fragment)) context := by
    rw [split, firstAnswer_skip declined, firstAnswer]
    cases result with
    | ok fragment => exact bind_settled_ok answered
    | error error => exact bind_settled_error answered
  simp only [answer]
  cases result with
  | ok fragment => exact bind_settled_ok found
  | error error => exact bind_settled_error found

/-- A name is read from the innermost lambda that declares it, and is left alone otherwise. -/
theorem answer_of_name {offer : Offer} {context : BuildContext} {name : String}
    (before : List Builder) {after : List Builder} {builder : Builder}
    (split : standard = before ++ builder :: after)
    (declined : ∀ other ∈ before ++ after,
      other.respond offer context = settled (.ok none) context)
    (reads : builder.respond offer = readParameter name) :
    answer standard offer context =
      settled (planName context.fallback? offer.expr name context.parameters) context := by
  have read : builder.respond offer context =
      settled (.ok ((BuildContext.lastIndex? name context.parameters).map fun position =>
        { tag := .object, code := .localAt position })) context := by
    rw [reads]
    rfl
  simp only [planName]
  cases position : BuildContext.lastIndex? name context.parameters with
  | none =>
      rw [position] at read
      refine answer_of_none fun other found => ?_
      rw [split, List.mem_append, List.mem_cons] at found
      rcases found with found | rfl | found
      · exact declined other (List.mem_append_left _ found)
      · exact read
      · exact declined other (List.mem_append_right _ found)
  | some position =>
      rw [position] at read
      exact answer_of_some before split
        (fun other found => declined other (List.mem_append_left _ found)) read

theorem buildAll_settled {arguments : List Expr} {context : BuildContext}
    (built : ∀ argument ∈ arguments, build standard argument context =
      settled (plan context.fallback? argument context.parameters) context) :
    buildAll (arguments.map fun expr => (expr, build standard expr)) context =
      settled (planAll context.fallback? arguments context.parameters) context := by
  have mapped : planAll context.fallback? arguments context.parameters =
      (arguments.map fun expr => (expr, build standard expr)).mapM fun argument =>
        Fragment.code <$> plan context.fallback? argument.1 context.parameters := by
    rw [List.mapM_map]
    rfl
  rw [mapped]
  refine mapM_settled fun argument found => ?_
  obtain ⟨expr, listed, rfl⟩ := List.mem_map.mp found
  exact map_settled Fragment.code (built expr listed)

theorem build_standard (expr : Expr) (context : BuildContext) :
    build standard expr context =
      settled (plan context.fallback? expr context.parameters) context := by
  induction expr using Expr.induct generalizing context with
  | constant id value =>
      rw [build_mk, plan_constant]
      exact answer_of_some [] standard_eq nofun rfl
  | parameter id name =>
      rw [build_mk, plan_parameter]
      refine answer_of_name [constant] standard_eq ?_ rfl
      simp only [List.cons_append, List.nil_append, List.forall_mem_cons]
      exact ⟨rfl, rfl, rfl, rfl, rfl, rfl, rfl, rfl, nofun⟩
  | lambda id parameters body bodyIH =>
      rw [build_mk, plan_lambda]
      refine answer_of_some [constant, parameter] standard_eq ?_ ?_
      · simp only [List.forall_mem_cons]
        exact ⟨rfl, rfl, nofun⟩
      · rw [bind_assoc]
        refine bind_settled (underParameters_settled (bodyIH (context.push parameters))) ?_
        exact fun body => rfl
  | condition id test whenTrue whenFalse testIH trueIH falseIH =>
      rw [build_mk, plan_condition]
      refine answer_of_some [constant, parameter, lambda] standard_eq ?_ ?_
      · simp only [List.forall_mem_cons]
        exact ⟨rfl, rfl, rfl, nofun⟩
      · simp only [bind_assoc]
        refine bind_settled (testIH context) fun built => ?_
        refine bind_settled (lift_settled (requireTest test.text built) context) fun _ => ?_
        refine bind_settled (trueIH context) fun whenTrue => ?_
        exact bind_settled (falseIH context) fun whenFalse => rfl
  | unary id op operand operandIH =>
      rw [build_mk]
      by_cases namesRoot : op.namesRoot
      · rw [plan_root namesRoot]
        refine answer_of_none ?_
        rw [standard_eq]
        simp only [List.forall_mem_cons]
        refine ⟨rfl, rfl, rfl, rfl, ?_, rfl, rfl, rfl, rfl, nofun⟩
        simp only [unary, Node.map, namesRoot, if_true]
        rfl
      · rw [plan_unary namesRoot]
        refine answer_of_some [constant, parameter, lambda, condition] standard_eq ?_ ?_
        · simp only [List.forall_mem_cons]
          exact ⟨rfl, rfl, rfl, rfl, nofun⟩
        · simp only [unary, Node.map, namesRoot, Bool.false_eq_true, if_false, bind_assoc]
          refine bind_settled (operandIH context) fun built => ?_
          exact bind_settled (lift_settled _ context) fun applied => rfl
  | binary id op left right leftIH rightIH =>
      rw [build_mk, plan_binary]
      refine answer_of_some [constant, parameter, lambda, condition, unary] standard_eq ?_ ?_
      · simp only [List.forall_mem_cons]
        exact ⟨rfl, rfl, rfl, rfl, rfl, nofun⟩
      · simp only [bind_assoc]
        refine bind_settled (leftIH context) fun first => ?_
        refine bind_settled (rightIH context) fun second => ?_
        exact bind_settled (lift_settled _ context) fun applied => rfl
  | name id name =>
      rw [build_mk, plan_name]
      refine answer_of_name
        [constant, parameter, lambda, condition, unary, binary] standard_eq ?_ rfl
      simp only [List.cons_append, List.nil_append, List.forall_mem_cons]
      exact ⟨rfl, rfl, rfl, rfl, rfl, rfl, rfl, rfl, nofun⟩
  | member id target name targetIH =>
      rw [build_mk, plan_member]
      refine answer_of_some
        [constant, parameter, lambda, condition, unary, binary] standard_eq ?_ ?_
      · simp only [List.forall_mem_cons]
        exact ⟨rfl, rfl, rfl, rfl, rfl, rfl, nofun⟩
      · simp only [bind_assoc]
        exact bind_settled (targetIH context) fun target => rfl
  | index id target arguments targetIH argumentsIH =>
      rw [build_mk]
      cases target with
      | none =>
          rw [plan_index_none]
          refine (answer_of_none ?_).trans ?_
          · rw [standard_eq]
            simp only [List.forall_mem_cons]
            exact ⟨rfl, rfl, rfl, rfl, rfl, rfl, rfl, rfl, rfl, nofun⟩
          · rw [Offer.expr, Node.map_fst_pair]
      | some target =>
          rw [plan_index]
          refine answer_of_some
            [constant, parameter, lambda, condition, unary, binary, member] standard_eq ?_ ?_
          · simp only [List.forall_mem_cons]
            exact ⟨rfl, rfl, rfl, rfl, rfl, rfl, rfl, nofun⟩
          · simp only [bind_assoc]
            refine bind_settled (targetIH target rfl context) fun target => ?_
            refine bind_settled (buildAll_settled fun argument found => ?_) fun arguments => rfl
            exact argumentsIH argument found context
  | call id target method arguments targetIH argumentsIH =>
      rw [build_mk]
      cases target with
      | none =>
          rw [plan_call_none]
          refine (answer_of_none ?_).trans ?_
          · rw [standard_eq]
            simp only [List.forall_mem_cons]
            exact ⟨rfl, rfl, rfl, rfl, rfl, rfl, rfl, rfl, rfl, nofun⟩
          · rw [Offer.expr, Node.map_fst_pair]
      | some target =>
          rw [plan_call]
          refine answer_of_some
            [constant, parameter, lambda, condition, unary, binary, member, index] standard_eq ?_ ?_
          · simp only [List.forall_mem_cons]
            exact ⟨rfl, rfl, rfl, rfl, rfl, rfl, rfl, rfl, nofun⟩
          · simp only [bind_assoc]
            refine bind_settled (targetIH target rfl context) fun target => ?_
            refine bind_settled (buildAll_settled fun argument found => ?_) fun arguments => rfl
            exact argumentsIH argument found context
  | placeholder id reference =>
      rw [build_mk, plan_placeholder]
      refine answer_of_none ?_
      rw [standard_eq]
      simp only [List.forall_mem_cons]
      exact ⟨rfl, rfl, rfl, rfl, rfl, rfl, rfl, rfl, rfl, nofun⟩

end Builder

end Tether

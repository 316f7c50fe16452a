import Tether.Proofs.CompiledMeaning
import Tether.Proofs.KeySlots

set_option autoImplicit false

/- Slots of any kind: sparse, repeated and met out of order. Compiling accepts just the trees whose
placeholders have slots and agree on the path of each, and every occurrence of a placeholder then
reads the argument under its own slot. -/
namespace Tether

namespace SlotMembers

/-- Every placeholder has a slot, and those that share one have the same path. -/
structure WellIndexed (slots : Slots) (placeholders : List (NodeId × Placeholder)) : Prop where
  assigned : ∀ found ∈ placeholders, 0 ≤ slots found.1
  agree : ∀ found ∈ placeholders, ∀ other ∈ placeholders, slots found.1 = slots other.1 →
    found.2.path = other.2.path

def firstAt (slots : Slots) (placeholders : List (NodeId × Placeholder)) (slot : Int) :
    Option (NodeId × Placeholder) :=
  placeholders.find? fun found => slots found.1 == slot

/-- One more than the largest slot, and nothing without placeholders. -/
def span (slots : Slots) (placeholders : List (NodeId × Placeholder)) : Int :=
  (placeholders.map fun found => slots found.1).max?.elim 0 (· + 1)

/-- What is wrong with a placeholder in the presence of those before it. -/
inductive Objection (slots : Slots) (earlier : List (NodeId × Placeholder))
    (found : NodeId × Placeholder) : CompileError → Prop
  | unassigned (negative : slots found.1 < 0) :
      Objection slots earlier found (.unresolvedMember found.2.text (slots found.1))
  | conflict {known : NodeId × Placeholder} (assigned : 0 ≤ slots found.1)
      (first : firstAt slots earlier (slots found.1) = some known)
      (differ : known.2.path ≠ found.2.path) :
      Objection slots earlier found (.internal
        s!"binding members {known.2.text} and {found.2.text} share index {slots found.1}")

/-- What the table holds after the placeholders `done` were entered. -/
structure Tabled (slots : Slots) (members : SlotMembers) (done : List (NodeId × Placeholder)) :
    Prop where
  count : (members.length : Int) = span slots done
  first (position : Nat) : members.getD position none = firstAt slots done position

variable {slots : Slots} {members after : SlotMembers} {found : NodeId × Placeholder}
  {done rest : List (NodeId × Placeholder)} {error : CompileError}

theorem span_concat (assigned : 0 ≤ slots found.1) :
    span slots (done ++ [found]) = max (span slots done) (slots found.1 + 1) := by
  simp only [span, List.map_append, List.map_singleton]
  cases done.map fun found => slots found.1 with
  | nil =>
      simp only [List.nil_append, List.max?_singleton, List.max?_nil, Option.elim_some,
        Option.elim_none]
      omega
  | cons first others =>
      rw [List.cons_append, List.max?_cons', List.max?_cons', List.foldl_append]
      simp only [List.foldl_cons, List.foldl_nil, Option.elim_some]
      omega

theorem firstAt_concat (slot : Int) :
    firstAt slots (done ++ [found]) slot =
      (firstAt slots done slot).or (if slots found.1 = slot then some found else none) := by
  simp only [firstAt, List.find?_append, List.find?_singleton, beq_iff_eq]

theorem getD_eq_some_iff {position : Nat} {known : NodeId × Placeholder} :
    members.getD position none = some known ↔ members[position]? = some (some known) := by
  rw [List.getD_eq_getElem?_getD]
  cases members[position]? <;> simp

/-- A place that is taken stays as it is, and the placeholder takes its own if that is vacant. -/
theorem enter_getD (entered : enter slots members found = .ok after) (position : Nat) :
    after.getD position none =
      (members.getD position none).or (if slots found.1 = position then some found else none) := by
  obtain ⟨assigned, kept, ⟨own, listed, -⟩, only⟩ := enter_cases entered
  cases before : members.getD position none with
  | some known =>
      rw [getD_eq_some_iff] at before
      exact getD_eq_some_iff.mpr (kept position known before)
  | none =>
      have vacant : ∀ known, members[position]? ≠ some (some known) := fun known here => by
        rw [getD_eq_some_iff.mpr here] at before
        cases before
      rw [Option.none_or]
      split
      next here =>
        have place : (slots found.1).toNat = position := by omega
        rw [place] at listed
        obtain known | ⟨rfl, -⟩ := only position own listed
        · exact absurd known (vacant own)
        · exact getD_eq_some_iff.mpr listed
      next elsewhere =>
        refine Option.eq_none_iff_forall_ne_some.mpr fun known here => ?_
        obtain known | ⟨-, rfl⟩ := only position known (getD_eq_some_iff.mp here)
        · exact vacant _ known
        · omega

theorem enter_tabled (tabled : Tabled slots members done)
    (entered : enter slots members found = .ok after) : Tabled slots after (done ++ [found]) where
  count := by
    have assigned := (enter_cases entered).1
    have count := tabled.count
    rw [enter_length entered, span_concat assigned]
    omega
  first position := by rw [enter_getD entered, tabled.first, firstAt_concat]

theorem foldlM_tabled (tabled : Tabled slots members done)
    (entered : rest.foldlM (enter slots) members = .ok after) :
    Tabled slots after (done ++ rest) := by
  induction rest generalizing members done with
  | nil =>
      cases entered
      rwa [List.append_nil]
  | cons found rest ih =>
      rw [List.foldlM_cons] at entered
      obtain ⟨next, stepped, entered⟩ := ok_of_bind entered
      have continued := ih (enter_tabled tabled stepped) entered
      rwa [List.append_assoc, List.singleton_append] at continued

/-- A placeholder is refused for just the objections to it. -/
theorem enter_eq_error_iff (tabled : Tabled slots members done) :
    enter slots members found = .error error ↔ Objection slots done found error := by
  constructor
  · intro refused
    simp only [enter] at refused
    split at refused
    next negative =>
      cases refused
      exact .unassigned negative
    next assigned =>
      split at refused
      next known listed =>
        split at refused
        · cases refused
        next differ =>
          cases refused
          refine .conflict (Int.not_lt.mp assigned) ?_ (by simpa using differ)
          rw [getElem?_grown] at listed
          rw [← Int.toNat_of_nonneg (Int.not_lt.mp assigned), ← tabled.first]
          exact getD_eq_some_iff.mpr listed
      · cases refused
  · intro objection
    cases objection with
    | unassigned negative => simp only [enter, if_pos negative]
    | @conflict known assigned first differ =>
        have listed : members.getD (slots found.1).toNat none = some known := by
          rw [tabled.first, Int.toNat_of_nonneg assigned, first]
        rw [getD_eq_some_iff, ← getElem?_grown members
          ((slots found.1).toNat + 1 - members.length)] at listed
        simp only [enter, if_neg (Int.not_lt.mpr assigned), listed, beq_eq_false_iff_ne.mpr differ,
          Bool.false_eq_true, if_false]

theorem Entered.wellIndexed (entered : Entered slots members done) : WellIndexed slots done where
  assigned found member := (entered.found found member).1
  agree found member other listed same := by
    obtain ⟨-, known, here, path⟩ := entered.found found member
    obtain ⟨-, known', here', path'⟩ := entered.found other listed
    rw [← same, here] at here'
    cases here'
    exact path.symm.trans path'

theorem tabled_nil (slots : Slots) : Tabled slots [] [] := ⟨rfl, fun _ => rfl⟩

theorem foldlM_eq_ok_iff {placeholders : List (NodeId × Placeholder)} :
    (∃ members, placeholders.foldlM (enter slots) [] = .ok members) ↔
      WellIndexed slots placeholders := by
  constructor
  · rintro ⟨members, entered⟩
    exact (foldlM_entered (entered_nil slots) entered).wellIndexed
  · exact fun indexed => foldlM_accepts (entered_nil slots) indexed.assigned indexed.agree

/-- Entering stops at the first placeholder that is refused. -/
theorem exists_refused (refused : rest.foldlM (enter slots) members = .error error) :
    ∃ earlier found later before, rest = earlier ++ found :: later ∧
      earlier.foldlM (enter slots) members = .ok before ∧
      enter slots before found = .error error := by
  induction rest generalizing members with
  | nil => cases refused
  | cons first rest ih =>
      rw [List.foldlM_cons] at refused
      cases entered : enter slots members first with
      | error reason =>
          rw [entered] at refused
          cases refused
          exact ⟨[], first, rest, members, rfl, rfl, entered⟩
      | ok next =>
          rw [entered] at refused
          obtain ⟨earlier, found, later, before, rfl, accepted, stopped⟩ := ih refused
          refine ⟨first :: earlier, found, later, before, rfl, ?_, stopped⟩
          rw [List.foldlM_cons, entered]
          exact accepted

theorem foldlM_eq_error_iff {placeholders : List (NodeId × Placeholder)} :
    placeholders.foldlM (enter slots) [] = .error error ↔
      ∃ earlier found later, placeholders = earlier ++ found :: later ∧
        WellIndexed slots earlier ∧ Objection slots earlier found error := by
  constructor
  · intro refused
    obtain ⟨earlier, found, later, before, rfl, accepted, stopped⟩ := exists_refused refused
    exact ⟨earlier, found, later, rfl, foldlM_eq_ok_iff.mp ⟨before, accepted⟩,
      (enter_eq_error_iff (foldlM_tabled (tabled_nil slots) accepted)).mp stopped⟩
  · rintro ⟨earlier, found, later, rfl, indexed, objection⟩
    obtain ⟨before, accepted⟩ := foldlM_eq_ok_iff.mpr indexed
    have stopped := (enter_eq_error_iff (foldlM_tabled (tabled_nil slots) accepted)).mpr objection
    rw [List.foldlM_append, accepted]
    change (found :: later).foldlM (enter slots) before = _
    rw [List.foldlM_cons, stopped]
    rfl

end SlotMembers

/-- Code for the argument under a slot: its value as the declared type. One that cannot be had is
left to fail where it is read. -/
def Argument.code (argument : Argument) (position : Nat) : Code :=
  match argument.value.convert argument.tag with
  | .ok value => .constant value
  | .error _ => .slot position argument.tag

/-- What the values of a call put in the place of a read. -/
def Code.given (values : List Value) (position : Nat) (tag : TypeTag) : Code :=
  Argument.code ⟨tag, values.getD position .null⟩ position

def Fragment.replaceSlots (fragment : Fragment) (read : Nat → TypeTag → Code) : Fragment :=
  { fragment with code := fragment.code.replaceSlots read }

namespace Builder

variable {read : Nat → TypeTag → Code} {fallback : Expr → Option Fragment}

theorem branch_replaceSlots (test whenTrue whenFalse : Fragment) :
    branch (test.replaceSlots read) (whenTrue.replaceSlots read) (whenFalse.replaceSlots read) =
      (branch test whenTrue whenFalse).replaceSlots read := by
  simp only [branch, Fragment.replaceSlots]
  split
  next flag _ => cases flag <;> rfl
  · rfl

theorem applyUnary_replaceSlots (expression : String) (op : UnaryOp) (operand : Fragment) :
    applyUnary expression op (operand.replaceSlots read) =
      (·.replaceSlots read) <$> applyUnary expression op operand := by
  simp only [applyUnary, Fragment.replaceSlots]
  split
  · rfl
  · split <;> rfl

theorem specialize_replaceSlots (expression : String) (op : BinaryOp) (left right : Fragment) :
    specialize expression op (left.replaceSlots read) (right.replaceSlots read) =
      (·.replaceSlots read) <$> specialize expression op left right := by
  simp only [specialize, apply_ite (Functor.map (f := Except CompileError) _)]
  rfl

theorem requireBool_replaceSlots (expression : String) (operand : Fragment) :
    requireBool expression (operand.replaceSlots read) = requireBool expression operand := rfl

theorem combine_replaceSlots (expression : String) (op : BinaryOp) (left right : Fragment) :
    combine expression op (left.replaceSlots read) (right.replaceSlots read) =
      (·.replaceSlots read) <$> combine expression op left right := by
  obtain rfl | rfl | rfl | compares | computes := op.sort
  · simp only [combine, requireBool_replaceSlots, map_bind]
    rfl
  · simp only [combine, requireBool_replaceSlots, map_bind]
    rfl
  · rfl
  · rw [combine_of_comparison compares, combine_of_comparison compares]
    rfl
  · rw [combine_of_computes computes, combine_of_computes computes]
    exact specialize_replaceSlots expression op left right

theorem applyBinary_replaceSlots (expression : String) (op : BinaryOp) (left right : Fragment) :
    applyBinary expression op (left.replaceSlots read) (right.replaceSlots read) =
      (·.replaceSlots read) <$> applyBinary expression op left right := by
  have folded : foldBinary? op (left.replaceSlots read) (right.replaceSlots read) =
      foldBinary? op left right := rfl
  simp only [applyBinary, folded]
  split
  · rfl
  · exact combine_replaceSlots expression op left right

theorem planAll_replaceSlots {arguments : List Expr} {names : List String}
    (each : ∀ argument ∈ arguments,
      plan (fun part => (fallback part).map (·.replaceSlots read)) argument names =
        (·.replaceSlots read) <$> plan fallback argument names) :
    planAll (fun part => (fallback part).map (·.replaceSlots read)) arguments names =
      Code.replaceSlotsAll read <$> planAll fallback arguments names := by
  induction arguments with
  | nil => rfl
  | cons argument rest ih =>
      have others := ih fun other found => each other (List.mem_cons_of_mem _ found)
      simp only [planAll, List.mapM_cons] at others ⊢
      rw [others, each argument (List.mem_cons_self ..)]
      simp only [bind_map_left, map_bind]
      rfl

/-- Code that stands for reads of slots can be put into the table or into the code built with it. -/
theorem plan_replaceSlots (expr : Expr) (names : List String) :
    plan (fun part => (fallback part).map (·.replaceSlots read)) expr names =
      (·.replaceSlots read) <$> plan fallback expr names := by
  have planned (expr : Expr) : planFallback (fun part => (fallback part).map (·.replaceSlots read))
      expr = (·.replaceSlots read) <$> planFallback fallback expr := by
    simp only [planFallback]
    cases fallback expr <;> rfl
  have named (expr : Expr) (name : String) (names : List String) :
      planName (fun part => (fallback part).map (·.replaceSlots read)) expr name names =
        (·.replaceSlots read) <$> planName fallback expr name names := by
    simp only [planName]
    cases BuildContext.lastIndex? name names with
    | none => exact planned expr
    | some position => rfl
  induction expr using Expr.induct generalizing names with
  | constant id value => rfl
  | parameter id name | name id name => exact named _ name names
  | placeholder id reference => exact planned _
  | lambda id parameters body bodyIH =>
      rw [plan_lambda, plan_lambda, bodyIH]
      simp only [bind_map_left, map_bind]
      rfl
  | condition id test whenTrue whenFalse testIH trueIH falseIH =>
      rw [plan_condition, plan_condition, testIH, trueIH, falseIH]
      simp only [bind_map_left, map_bind, branch_replaceSlots]
      rfl
  | unary id op operand operandIH =>
      by_cases namesRoot : op.namesRoot
      · rw [plan_root namesRoot, plan_root namesRoot]
        exact planned _
      · rw [plan_unary namesRoot, plan_unary namesRoot, operandIH]
        simp only [bind_map_left, map_bind, applyUnary_replaceSlots]
  | binary id op left right leftIH rightIH =>
      rw [plan_binary, plan_binary, leftIH, rightIH]
      simp only [bind_map_left, map_bind, applyBinary_replaceSlots]
  | member id target name targetIH =>
      rw [plan_member, plan_member, targetIH]
      simp only [bind_map_left, map_bind]
      rfl
  | index id target arguments targetIH argumentsIH =>
      cases target with
      | none =>
          rw [plan_index_none, plan_index_none]
          exact planned _
      | some target =>
          rw [plan_index, plan_index, targetIH target rfl,
            planAll_replaceSlots fun argument found => argumentsIH argument found names]
          simp only [bind_map_left, map_bind]
          rfl
  | call id target method arguments targetIH argumentsIH =>
      cases target with
      | none =>
          rw [plan_call_none, plan_call_none]
          exact planned _
      | some target =>
          rw [plan_call, plan_call, targetIH target rfl,
            planAll_replaceSlots fun argument found => argumentsIH argument found names]
          simp only [bind_map_left, map_bind]
          rfl

end Builder

namespace Correspondence

/-- Closures of a call against closures whose bodies have the call's values in the place of
slots. Any other closure stands for itself. -/
def filling (values : List Value) (objects : Array HostObject) :
    Correspondence Closure Closure where
  closures _ first second := second = first ∨
    (first.frame.slots = values ∧
      second = ⟨first.frame, first.body.replaceSlots (.given values)⟩)
  objects := objects

variable {values : List Value} {objects : Array HostObject} {call call' : Caller Closure}

theorem agree_filling (callers : (filling values objects).CallersAgree call call') {frame : Frame}
    (here : frame.slots = values) (code : Code) :
    (filling values objects).Agree (code.eval id call frame)
      ((code.replaceSlots (.given values)).eval id call' frame) := by
  refine agree_replaceSlots callers (fun _ _ => .inl rfl) (fun position tag => ?_)
    (fun arity body => .inr ⟨here, rfl⟩) code
  simp only [Code.given, Argument.code]
  cases converted : (values.getD position .null).convert tag with
  | ok value =>
      simp only [Code.eval, Frame.slot, here, converted]
      exact .pure value
  | error error =>
      simp only [Code.eval]
      exact .lift _

theorem filling_callers : (filling values objects).CallersAgree callFunction callFunction := by
  refine callers_agree_inRoom ?_
  rintro call call' callers first second arguments (rfl | ⟨here, rfl⟩)
  · exact agree_eval callers (fun _ _ => .inl rfl) _ _
  · -- The body runs in the frame of the closure with more locals, so its slots are the call's.
    have within : { first.frame with locals := first.frame.locals ++ arguments }.slots = values :=
      here
    exact agree_filling callers within first.body

end Correspondence

/-- Every placeholder as the value of the argument under its slot. -/
def Expr.given (slots : Slots) (arguments : List Argument) (part : Expr) : Option Fragment :=
  part.placeholder?.bind fun _ =>
    arguments[(slots part.id).toNat]?.map fun argument =>
      { Fragment.ofSlot (slots part.id).toNat argument.tag with
        code := argument.code (slots part.id).toNat }

/-- Builds the expression with every placeholder as the value of its argument, and evaluates it;
what comes back is the result and the log. -/
def Expr.evaluateGiven (expression : Expr) (slots : Slots) (arguments : List Argument)
    (metadata : Option Metadata) (world : World Closure) :
    Except (Halt Error) Value × Array Event :=
  match Builder.plan (Expr.given slots arguments) expression [] with
  | .error error => (.error (.failure (.compile error)), world.log)
  | .ok root =>
      let ended := Compiled.outcome
        (root.eval { slots := arguments.map Argument.value, metadata }) world
      (ended.1, ended.2.log)

namespace Compiled

open Builder SlotMembers

/-- A run is the same with the values of its frame put in the place of every read of a slot, also
in the bodies of lambdas. -/
theorem outcome_given (root : Fragment) (frame : Frame) (world : World Closure) :
    (outcome (root.eval frame) world).1 =
        (outcome ((root.replaceSlots (.given frame.slots)).eval frame) world).1 ∧
      (outcome (root.eval frame) world).2.log =
        (outcome ((root.replaceSlots (.given frame.slots)).eval frame) world).2.log := by
  have worlds : (Correspondence.filling frame.slots world.objects).Worlds world world :=
    Correspondence.worlds_refl _ id (fun _ _ => Or.inl rfl) rfl
  obtain ⟨same, after⟩ := outcome_of_agree
    (Correspondence.agree_filling Correspondence.filling_callers rfl root.code) id worlds
  exact ⟨same, after.log trivial⟩

variable {chain : List Builder} {slots now : Slots} {expression : Expr}
  {metadata : Option Metadata} {compiled : Compiled} {arguments : List Argument}

theorem given_eq (intact : Intact slots expression compiled) {part : Expr}
    (inside : part ∈ expression.preorder) :
    (compiled.fallbacks slots (arguments.map Argument.tag) part).map
        (·.replaceSlots (.given (arguments.map Argument.value))) =
      Expr.given slots arguments part := by
  obtain ⟨id, node⟩ := part
  cases node with
  | placeholder reference =>
      have member : (id, reference) ∈ expression.placeholders := Expr.mem_placeholders.mpr inside
      rw [fallbacks_entered intact.members member, List.getElem?_map]
      change _ = arguments[(slots id).toNat]?.map _
      cases listed : arguments[(slots id).toNat]? with
      | none => rfl
      | some argument =>
          simp only [Option.map_some, Fragment.replaceSlots, Fragment.ofSlot, Code.replaceSlots,
            Code.given, getD_value listed]
          rfl
  | _ => exact congrArg (Option.map _) (fallbacks_other compiled slots _ rfl)

/-- What a call makes of its arguments: each occurrence of a placeholder is code that reads the
argument under its slot as the declared type, in every frame with the values of the call, and the
call is the evaluation of the expression with these values. -/
structure ReadsArguments (slots now : Slots) (expression : Expr) (compiled : Compiled)
    (arguments : List Argument) : Prop where
  occurrence (found : NodeId × Placeholder) (member : found ∈ expression.placeholders) :
    ∃ argument fragment, arguments[(slots found.1).toNat]? = some argument ∧
      compiled.fallbacks now (arguments.map Argument.tag) (.mk found.1 (.placeholder found.2)) =
        some fragment ∧
      ∀ frame : Frame, frame.slots = arguments.map Argument.value →
        fragment.eval frame = liftM (argument.value.convert argument.tag)
  call (callMetadata : Option Metadata) (world : World Closure) :
    let ran := compiled.invoke now arguments callMetadata world
    (ran.1, ran.2.2.log) = expression.evaluateGiven slots arguments callMetadata world

theorem invoke_given (intact : Intact slots expression compiled)
    (unmoved : Unmoved expression slots now)
    (enough : arguments.length = compiled.memberCount) (callMetadata : Option Metadata)
    (world : World Closure) :
    let ran := compiled.invoke now arguments callMetadata world
    (ran.1, ran.2.2.log) =
      expression.evaluateGiven slots arguments callMetadata world := by
  intro ran
  have invoked := invoke_eq intact unmoved enough callMetadata world
  have same : plan (Expr.given slots arguments) expression [] =
      (·.replaceSlots (.given (arguments.map Argument.value))) <$>
        plan (compiled.fallbacks slots (arguments.map Argument.tag)) expression [] := by
    rw [← plan_replaceSlots]
    exact congrFun (plan_congr fun part inside => (given_eq intact inside).symm) []
  rw [Expr.evaluateGiven, same]
  cases planned : plan (compiled.fallbacks slots (arguments.map Argument.tag)) expression [] with
  | error error =>
      rw [planned] at invoked
      exact congrArg (fun ended => (ended.1, ended.2.log)) invoked
  | ok root =>
      rw [planned] at invoked
      dsimp only at invoked
      have given := outcome_given root
        { slots := arguments.map Argument.value, metadata := callMetadata } world
      rw [← invoked] at given
      exact Prod.ext given.1 given.2

theorem occurrence_reads (intact : Intact slots expression compiled)
    (unmoved : Unmoved expression slots now)
    (enough : arguments.length = compiled.memberCount) {found : NodeId × Placeholder}
    (member : found ∈ expression.placeholders) :
    ∃ argument fragment, arguments[(slots found.1).toNat]? = some argument ∧
      compiled.fallbacks now (arguments.map Argument.tag) (.mk found.1 (.placeholder found.2)) =
        some fragment ∧
      ∀ frame : Frame, frame.slots = arguments.map Argument.value →
        fragment.eval frame = liftM (argument.value.convert argument.tag) := by
  obtain ⟨-, known, listed, -⟩ := intact.members.found found member
  have inside : (slots found.1).toNat < arguments.length := by
    rw [enough]
    exact (List.getElem?_eq_some_iff.mp listed).1
  obtain ⟨argument, supplied⟩ : ∃ argument, arguments[(slots found.1).toNat]? = some argument :=
    ⟨_, List.getElem?_eq_getElem inside⟩
  refine ⟨argument, .ofSlot (slots found.1).toNat argument.tag, supplied, ?_, fun frame here => ?_⟩
  · rw [fallbacks_entered (intact.members.congr unmoved) member, unmoved found member,
      List.getElem?_map, supplied]
    rfl
  · rw [← getD_value supplied, ← here]
    rfl

theorem compile_eq_ok_iff : (∃ compiled, compile chain slots expression metadata = .ok compiled) ↔
    WellIndexed slots expression.placeholders := by
  rw [← foldlM_eq_ok_iff]
  constructor
  · rintro ⟨compiled, accepted⟩
    obtain ⟨members, listed, -⟩ := ok_of_bind accepted
    rw [ofExpr_eq_foldlM] at listed
    exact ⟨members, listed⟩
  · rintro ⟨members, listed⟩
    refine ⟨{ expression, members, chain, metadata }, ?_⟩
    rw [compile, ofExpr_eq_foldlM, listed]
    rfl

theorem compile_eq_error_iff {error : CompileError} :
    compile chain slots expression metadata = .error error ↔
      ofExpr slots expression = .error error := by
  rw [compile]
  cases ofExpr slots expression with
  | ok members => exact ⟨nofun, nofun⟩
  | error reason =>
      constructor
      · rintro ⟨⟩
        rfl
      · rintro ⟨⟩
        rfl

theorem Reached.tabled (reached : Reached chain slots expression metadata compiled) :
    Tabled slots compiled.members expression.placeholders := by
  induction reached with
  | compiled accepted =>
      obtain ⟨members, listed, made⟩ := ok_of_bind accepted
      cases made
      rw [ofExpr_eq_foldlM] at listed
      exact foldlM_tabled (tabled_nil slots) listed
  | invoked before now unmoved arguments callMetadata world ih =>
      rwa [invoke_members]

/-- Compiling accepts just the well-indexed trees and otherwise objects to the first placeholder
that is not. The members are then the first placeholders of their slots, and calls read every
placeholder under its own. -/
theorem slots_faithful (chain : List Builder) (slots : Slots) (expression : Expr)
    (metadata : Option Metadata) :
    ((∃ compiled, compile chain slots expression metadata = .ok compiled) ↔
      WellIndexed slots expression.placeholders) ∧
    (∀ error, compile chain slots expression metadata = .error error ↔
      ∃ earlier found later, expression.placeholders = earlier ++ found :: later ∧
        WellIndexed slots earlier ∧ Objection slots earlier found error) ∧
    (∀ compiled, Reached chain slots expression metadata compiled →
      (compiled.memberCount : Int) = span slots expression.placeholders ∧
      ∀ position : Nat,
        compiled.member? position = firstAt slots expression.placeholders position) ∧
    ∀ compiled now, Reached standard slots expression metadata compiled →
      Unmoved expression slots now → ∀ arguments : List Argument,
      arguments.length = compiled.memberCount →
      ReadsArguments slots now expression compiled arguments := by
  refine ⟨compile_eq_ok_iff, fun error => ?_, fun compiled reached => ?_,
    fun compiled now reached unmoved arguments enough => ?_⟩
  · rw [compile_eq_error_iff, ofExpr_eq_foldlM]
    exact foldlM_eq_error_iff
  · exact ⟨reached.tabled.count, reached.tabled.first⟩
  · have intact := reached.intact
    exact ⟨fun found member => occurrence_reads intact unmoved enough member,
      fun callMetadata world => invoke_given intact unmoved enough callMetadata world⟩

/-- The second of three slots is left out, and the first is read in a lambda. -/
theorem slots_faithful_sparse :
    let placeholder (id : NodeId) (path : String) : Expr :=
      .mk id (.placeholder { path, root := .source, flags := {}, kind := .member })
    let expression : Expr := .mk 0 (.call (some (placeholder 1 "Items")) "Select"
      [.mk 2 (.lambda ["x"] (.mk 3 (.binary .add (.mk 4 (.parameter "x"))
        (placeholder 5 "Step"))))])
    let slots : Slots := fun id => if id = 1 then 2 else 0
    let arguments : List Argument :=
      [⟨.int, .int 10⟩, .empty, ⟨.list, .list [.int 1, .int 2]⟩]
    ∃ compiled, compile standard slots expression none = .ok compiled ∧
      compiled.memberCount = 3 ∧ compiled.member? 1 = none ∧
      (compiled.invoke slots arguments none {}).1 = .ok (.list [.int 11, .int 12]) := by
  intro placeholder expression slots arguments
  obtain ⟨-, -, shape, reads⟩ := slots_faithful standard slots expression none
  obtain ⟨compiled, accepted⟩ :
      ∃ compiled, compile standard slots expression none = .ok compiled := ⟨_, rfl⟩
  obtain ⟨count, members⟩ := shape compiled (.compiled accepted)
  have count : compiled.memberCount = 3 := Int.ofNat.inj (count.trans rfl)
  have called := (reads compiled slots (.compiled accepted) (fun _ _ => rfl) arguments
    count.symm).call none {}
  exact ⟨compiled, accepted, count, members 1, congrArg Prod.fst called⟩

end Compiled

end Tether

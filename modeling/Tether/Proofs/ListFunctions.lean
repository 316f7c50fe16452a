import Mathlib.Data.List.Forall2
import Tether.Code

set_option autoImplicit false

/- The methods of lists that take a function. Each calls it on the items in order and stops at an
answer of its own kind: `Select` at a failure, `Where` at what is no bool as well, `Any` also at the
first `true`. For a function that answers an item alike whenever it is called, the three agree. -/
namespace Tether

/-- How a computation ends, and the world that it leaves. -/
def Eval.result {κ α : Type} (run : Eval κ α) (world : World κ) :
    Except (Halt EvalError) α × World κ :=
  match run world with
  | .ok value after => (.ok value, after)
  | .error halt after => (.error halt, after)

section Result

variable {κ α β : Type} {run : Eval κ α} {world after : World κ}

theorem Eval.result_eq_ok {value : α} (ended : run.result world = (.ok value, after)) :
    run world = .ok value after := by
  rw [result] at ended
  split at ended <;> cases ended
  assumption

theorem Eval.result_eq_error {halt : Halt EvalError}
    (ended : run.result world = (.error halt, after)) : run world = .error halt after := by
  rw [result] at ended
  split at ended <;> cases ended
  assumption

theorem Eval.result_bind_ok {value : α} (ended : run.result world = (.ok value, after))
    (next : α → Eval κ β) : (run >>= next).result world = (next value).result after := by
  have ran := result_eq_ok ended
  simp only [result, bind, EStateM.bind, ran]

theorem Eval.result_bind_error {halt : Halt EvalError}
    (ended : run.result world = (.error halt, after)) (next : α → Eval κ β) :
    (run >>= next).result world = (.error halt, after) := by
  have ran := result_eq_error ended
  simp only [result, bind, EStateM.bind, ran]

theorem Eval.result_lift (answer : Except EvalError α) :
    (liftM answer : Eval κ α).result world = (answer.mapError .failure, world) := by
  cases answer <;> rfl

theorem Eval.result_map {answer : Except (Halt EvalError) α} (f : α → β)
    (ended : run.result world = (answer, after)) :
    (f <$> run).result world = (f <$> answer, after) := by
  rw [map_eq_pure_bind]
  cases answer with
  | ok value => exact result_bind_ok ended _
  | error halt => exact result_bind_error ended _

end Result

namespace Builtin

variable {κ : Type} {call : Caller κ} {handle : FunctionRef} {world : World κ}
  {outcome : Value → Except (Halt EvalError) Value} {items : List Value}

/-- The world after the function has been called on some items, one after the other. -/
def callEach (call : Caller κ) (handle : FunctionRef) (items : List Value) (world : World κ) :
    World κ :=
  items.foldl (fun now item => (Eval.result (call handle [item]) now).2) world

/-- The outcome of a call depends on the item alone, whatever the function was called on before. -/
def Determined (call : Caller κ) (handle : FunctionRef) (world : World κ)
    (outcome : Value → Except (Halt EvalError) Value) : Prop :=
  ∀ earlier item, (Eval.result (call handle [item]) (callEach call handle earlier world)).1 =
    outcome item

/-- What an outcome says as a test: a bool, or what ends the call, which is a type mismatch for any
other value. -/
def verdict (outcome : Value → Except (Halt EvalError) Value) (item : Value) :
    Except (Halt EvalError) Bool := do
  (← outcome item).toBool.mapError .failure

/-- Whether a test says `true`. -/
def passes (verdict : Value → Except (Halt EvalError) Bool) (item : Value) : Bool :=
  match verdict item with
  | .ok flag => flag
  | .error _ => false

/-- Selecting: all items are called, or those up to the first that fails. -/
inductive Selects (outcome : Value → Except (Halt EvalError) Value) (items : List Value) :
    List Value → Except (Halt EvalError) (List Value) → Prop where
  | all {results : List Value}
      (each : List.Forall₂ (fun item result => outcome item = .ok result) items results) :
      Selects outcome items items (.ok results)
  | failed {before rest : List Value} {item : Value} {halt : Halt EvalError}
      (whole : items = before ++ item :: rest)
      (passed : ∀ earlier ∈ before, ∃ result, outcome earlier = .ok result)
      (fails : outcome item = .error halt) :
      Selects outcome items (before ++ [item]) (.error halt)

/-- Filtering: all items are tested, or those up to the first that gives no bool. -/
inductive Keeps (verdict : Value → Except (Halt EvalError) Bool) (items : List Value) :
    List Value → Except (Halt EvalError) (List Value) → Prop where
  | all (tested : ∀ item ∈ items, ∃ flag, verdict item = .ok flag) :
      Keeps verdict items items (.ok (items.filter (passes verdict)))
  | failed {before rest : List Value} {item : Value} {halt : Halt EvalError}
      (whole : items = before ++ item :: rest)
      (tested : ∀ earlier ∈ before, ∃ flag, verdict earlier = .ok flag)
      (fails : verdict item = .error halt) :
      Keeps verdict items (before ++ [item]) (.error halt)

/-- Searching: items are tested up to the first that passes or gives no bool. -/
inductive Finds (verdict : Value → Except (Halt EvalError) Bool) (items : List Value) :
    List Value → Except (Halt EvalError) Bool → Prop where
  | missing (each : ∀ item ∈ items, verdict item = .ok false) :
      Finds verdict items items (.ok false)
  | found {before rest : List Value} {item : Value} (whole : items = before ++ item :: rest)
      (missed : ∀ earlier ∈ before, verdict earlier = .ok false)
      (passes : verdict item = .ok true) : Finds verdict items (before ++ [item]) (.ok true)
  | failed {before rest : List Value} {item : Value} {halt : Halt EvalError}
      (whole : items = before ++ item :: rest)
      (missed : ∀ earlier ∈ before, verdict earlier = .ok false)
      (fails : verdict item = .error halt) :
      Finds verdict items (before ++ [item]) (.error halt)

section Calls

theorem Determined.called (determined : Determined call handle world outcome) (item : Value) :
    Eval.result (call handle [item]) world = (outcome item, callEach call handle [item] world) :=
  Prod.ext (determined [] item) rfl

theorem Determined.next (determined : Determined call handle world outcome) (item : Value) :
    Determined call handle (callEach call handle [item] world) outcome :=
  fun earlier => determined (item :: earlier)

theorem Determined.tested (determined : Determined call handle world outcome) (item : Value) :
    Eval.result (test call handle item) world =
      (verdict outcome item, callEach call handle [item] world) := by
  have called := determined.called item
  rw [test, verdict]
  cases answer : outcome item with
  | error halt =>
      rw [answer] at called
      exact Eval.result_bind_error called _
  | ok value =>
      rw [answer] at called
      rw [Eval.result_bind_ok called]
      exact Eval.result_lift _

end Calls

section Select

theorem Selects.cons {item result : Value} {called : List Value}
    {answer : Except (Halt EvalError) (List Value)} (selects : Selects outcome items called answer)
    (here : outcome item = .ok result) :
    Selects outcome (item :: items) (item :: called) ((result :: ·) <$> answer) := by
  cases selects with
  | all each => exact .all (.cons here each)
  | @failed before rest other halt whole passed fails =>
      have longer : item :: items = (item :: before) ++ other :: rest := congrArg (item :: ·) whole
      exact .failed longer (List.forall_mem_cons.mpr ⟨⟨result, here⟩, passed⟩) fails

theorem select_result (determined : Determined call handle world outcome) (items : List Value) :
    ∃ called answer, (select call handle items).result world =
      (answer, callEach call handle called world) ∧ Selects outcome items called answer := by
  induction items generalizing world with
  | nil => exact ⟨[], .ok [], rfl, .all .nil⟩
  | cons item items ih =>
      have first := determined.called item
      cases here : outcome item with
      | error halt =>
          rw [here] at first
          have whole : item :: items = [] ++ item :: items := rfl
          exact ⟨_, _, Eval.result_bind_error first _, .failed whole nofun here⟩
      | ok result =>
          rw [here] at first
          obtain ⟨called, answer, ran, selects⟩ := ih (determined.next item)
          refine ⟨item :: called, _, ?_, selects.cons here⟩
          rw [select, Eval.result_bind_ok first, ← map_eq_pure_bind]
          exact Eval.result_map _ ran

end Select

section Where

variable {verdict : Value → Except (Halt EvalError) Bool}

theorem Keeps.cons {item : Value} {flag : Bool} {called : List Value}
    {answer : Except (Halt EvalError) (List Value)} (keeps : Keeps verdict items called answer)
    (here : verdict item = .ok flag) :
    Keeps verdict (item :: items) (item :: called)
      ((fun rest => if flag then item :: rest else rest) <$> answer) := by
  cases keeps with
  | all tested =>
      have filtered : (item :: items).filter (passes verdict) =
          if flag then item :: items.filter (passes verdict)
          else items.filter (passes verdict) := by
        rw [List.filter_cons, passes, here]
      change Keeps verdict _ _ (.ok (if flag then _ else _))
      rw [← filtered]
      exact .all (List.forall_mem_cons.mpr ⟨⟨flag, here⟩, tested⟩)
  | @failed before rest other halt whole tested fails =>
      have longer : item :: items = (item :: before) ++ other :: rest := congrArg (item :: ·) whole
      exact .failed longer (List.forall_mem_cons.mpr ⟨⟨flag, here⟩, tested⟩) fails

theorem Finds.cons {item : Value} {called : List Value} {answer : Except (Halt EvalError) Bool}
    (finds : Finds verdict items called answer) (here : verdict item = .ok false) :
    Finds verdict (item :: items) (item :: called) answer := by
  cases finds with
  | missing each => exact .missing (List.forall_mem_cons.mpr ⟨here, each⟩)
  | @found before rest other whole missed passes =>
      have longer : item :: items = (item :: before) ++ other :: rest := congrArg (item :: ·) whole
      exact .found longer (List.forall_mem_cons.mpr ⟨here, missed⟩) passes
  | @failed before rest other halt whole missed fails =>
      have longer : item :: items = (item :: before) ++ other :: rest := congrArg (item :: ·) whole
      exact .failed longer (List.forall_mem_cons.mpr ⟨here, missed⟩) fails

end Where

theorem keepWhere_result (determined : Determined call handle world outcome)
    (items : List Value) :
    ∃ called answer, (keepWhere call handle items).result world =
      (answer, callEach call handle called world) ∧
        Keeps (verdict outcome) items called answer := by
  induction items generalizing world with
  | nil => exact ⟨[], .ok [], rfl, .all nofun⟩
  | cons item items ih =>
      have first := determined.tested item
      cases here : verdict outcome item with
      | error halt =>
          rw [here] at first
          have whole : item :: items = [] ++ item :: items := rfl
          exact ⟨_, _, Eval.result_bind_error first _, .failed whole nofun here⟩
      | ok flag =>
          rw [here] at first
          obtain ⟨called, answer, ran, keeps⟩ := ih (determined.next item)
          refine ⟨item :: called, _, ?_, keeps.cons here⟩
          rw [keepWhere, Eval.result_bind_ok first, ← map_eq_pure_bind]
          exact Eval.result_map _ ran

theorem anyWhere_result (determined : Determined call handle world outcome) (items : List Value) :
    ∃ called answer, (anyWhere call handle items).result world =
      (answer, callEach call handle called world) ∧
        Finds (verdict outcome) items called answer := by
  induction items generalizing world with
  | nil => exact ⟨[], .ok false, rfl, .missing nofun⟩
  | cons item items ih =>
      have first := determined.tested item
      have whole : item :: items = [] ++ item :: items := rfl
      cases here : verdict outcome item with
      | error halt =>
          rw [here] at first
          exact ⟨_, _, Eval.result_bind_error first _, .failed whole nofun here⟩
      | ok flag =>
          rw [here] at first
          cases flag with
          | true => exact ⟨_, _, Eval.result_bind_ok first _, .found whole nofun here⟩
          | false =>
              obtain ⟨called, answer, ran, finds⟩ := ih (determined.next item)
              exact ⟨item :: called, answer, (Eval.result_bind_ok first _).trans ran,
                finds.cons here⟩

section Agreement

variable {verdict : Value → Except (Halt EvalError) Bool} {kept asked selected : List Value}
  {answer : Except (Halt EvalError) Bool}

theorem filter_passes_eq_nil (each : ∀ item ∈ items, verdict item = .ok false) :
    items.filter (passes verdict) = [] := by
  rw [List.filter_eq_nil_iff]
  intro item found
  rw [passes, each item found]
  decide

/-- What was filtered tells whether a search finds something, with no other calls. -/
theorem Finds.of_keeps (finds : Finds verdict items asked answer)
    (keeps : Keeps verdict items kept (.ok selected)) :
    answer = .ok (!selected.isEmpty) ∧ asked <+: kept := by
  cases keeps with
  | all tested =>
    cases finds with
    | missing each =>
        rw [filter_passes_eq_nil each]
        exact ⟨rfl, List.prefix_rfl⟩
    | @found before rest item whole missed here =>
        have member : item ∈ items.filter (passes verdict) := by
          rw [List.mem_filter, whole, passes, here]
          exact ⟨by simp, rfl⟩
        have filled : (items.filter (passes verdict)).isEmpty = false :=
          List.isEmpty_eq_false_iff_exists_mem.mpr ⟨item, member⟩
        rw [filled, whole]
        exact ⟨rfl, rest, by simp⟩
    | @failed before rest item halt whole missed fails =>
        obtain ⟨flag, here⟩ := tested item (by simp [whole])
        rw [fails] at here
        cases here

/-- Nothing is kept where a search finds nothing. -/
theorem Keeps.of_missing {result : Except (Halt EvalError) (List Value)}
    (keeps : Keeps verdict items kept result) (finds : Finds verdict items asked (.ok false)) :
    result = .ok [] := by
  cases finds with
  | missing each =>
    cases keeps with
    | all tested => rw [filter_passes_eq_nil each]
    | @failed before rest item halt whole tested fails =>
        rw [each item (by simp [whole])] at fails
        cases fails

end Agreement

section Host

variable {enter : Caller κ → κ → List Value → Eval κ Value} {function : Function κ}
  {behavior : Behavior} {respond : Value → Option (Except EvalError Value)}

/-- What a host function answers to one item: it may take another number of arguments, or have no
answer. -/
def hostOutcome (function : Function κ) (respond : Value → Option (Except EvalError Value))
    (item : Value) : Except (Halt EvalError) Value :=
  if function.arity = 1 then
    ((respond item).getD (.error (.host "no entry"))).mapError .failure
  else .error (.failure (.argumentCount function.arity 1))

theorem result_host (room : 0 < world.room) (placed : world.functions[handle.id]? = some function)
    (hosted : function.callable = .host behavior)
    (prompt : ∀ item, behavior [item] = .done (respond item)) (item : Value) :
    Eval.result (callInRoom enter handle [item]) world =
      (hostOutcome function respond item,
        if function.arity = 1 then { world with log := world.log.push (.call handle [item]) }
        else world) := by
  obtain ⟨depth, deep⟩ := Nat.exists_eq_add_one_of_ne_zero (Nat.ne_of_gt room)
  have found : (get : Eval κ (World κ)).result world = (.ok world, world) := rfl
  have within : Eval.result (callInRoom enter handle [item]) world =
      (handle.run (enter (callWithin enter depth)) (callWithin enter depth) [item]).result
        world := by
    rw [callInRoom, Eval.result_bind_ok found, deep]
    rfl
  rw [within, FunctionRef.run, Eval.result_bind_ok found, placed]
  simp only [Function.apply, hosted, hostOutcome, List.length_singleton]
  by_cases unary : function.arity = 1
  · simp only [unary, bne_self_eq_false, Bool.false_eq_true, if_false, if_true, answer, prompt]
    cases respond item with
    | none => rfl
    | some result => cases result <;> rfl
  · have refused : (1 != function.arity) = true := by simpa using Ne.symm unary
    simp only [refused, if_true, if_neg unary]
    rfl

/-- A host function that answers at once changes nothing but the record of its calls. -/
theorem callEach_host (room : 0 < world.room)
    (placed : world.functions[handle.id]? = some function)
    (hosted : function.callable = .host behavior)
    (prompt : ∀ item, behavior [item] = .done (respond item)) (items : List Value) :
    callEach (callInRoom enter) handle items world =
      if function.arity = 1 then
        { world with log := world.log ++ items.map fun item => Event.call handle [item] }
      else world := by
  induction items generalizing world with
  | nil => simp [callEach]
  | cons item items ih =>
      change callEach _ handle items
        (Eval.result (callInRoom enter handle [item]) world).2 = _
      rw [result_host room placed hosted prompt]
      by_cases unary : function.arity = 1
      · simp only [if_pos unary] at ih ⊢
        refine (ih ?_ ?_).trans (by simp)
        · exact room
        · exact placed
      · simp only [if_neg unary] at ih ⊢
        exact ih room placed

/-- The outcome of a host function that answers at once depends on the item alone. -/
theorem determined_host (room : 0 < world.room)
    (placed : world.functions[handle.id]? = some function)
    (hosted : function.callable = .host behavior)
    (prompt : ∀ item, behavior [item] = .done (respond item)) :
    Determined (callInRoom enter) handle world (hostOutcome function respond) := by
  intro earlier item
  have still : (callEach (callInRoom enter) handle earlier world).functions[handle.id]? =
      some function := by
    rw [callEach_host room placed hosted prompt]
    split <;> exact placed
  have deep : 0 < (callEach (callInRoom enter) handle earlier world).room := by
    rw [callEach_host room placed hosted prompt]
    split <;> exact room
  rw [result_host deep still hosted prompt]

end Host

end Builtin

namespace Value

open Builtin

variable {κ : Type} {call : Caller κ} {handle : FunctionRef} {world : World κ}
  {outcome : Value → Except (Halt EvalError) Value}

/-- The methods of lists that take a function agree. `Select` gives the results of all items or
fails with the first that fails, `Where` keeps the items that pass in their order or fails with the
first that gives no bool, and `Any` tests no further than the first item that decides; each calls
the function on those items and on no other. So `Any` tells whether `Where` keeps something, by the
first of the same calls, and where it finds nothing, nothing is kept. -/
theorem list_functions_agree (determined : Determined call handle world outcome)
    (items : List Value) :
    let run (name : String) := (method call (.list items) name [.function handle]).result world
    ∃ called kept asked results filtered answer,
      run "Select" = (Value.list <$> results, callEach call handle called world) ∧
      Selects outcome items called results ∧
      run "Where" = (Value.list <$> filtered, callEach call handle kept world) ∧
      Keeps (verdict outcome) items kept filtered ∧
      run "Any" = (Value.bool <$> answer, callEach call handle asked world) ∧
      Finds (verdict outcome) items asked answer ∧
      (∀ selected, filtered = .ok selected → answer = .ok (!selected.isEmpty) ∧ asked <+: kept) ∧
      (answer = .ok false → filtered = .ok []) := by
  intro run
  obtain ⟨called, results, ranSelect, selects⟩ := select_result determined items
  obtain ⟨kept, filtered, ranWhere, keeps⟩ := keepWhere_result determined items
  obtain ⟨asked, answer, ranAny, finds⟩ := anyWhere_result determined items
  -- Which loop a name stands for is read off by computation.
  refine ⟨called, kept, asked, results, filtered, answer, Eval.result_map _ ranSelect, selects,
    Eval.result_map _ ranWhere, keeps, Eval.result_map _ ranAny, finds, ?_, ?_⟩
  · rintro selected rfl
    exact finds.of_keeps keeps
  · rintro rfl
    exact keeps.of_missing finds

/-- A look-up that passes the second of three numbers: filtering calls it on all of them, a search
on the first two. -/
theorem list_functions_agree_lookup :
    let handle : FunctionRef := ⟨0, 1⟩
    let function : Function Closure :=
      ⟨1, .host (.lookup [(.int 1, .bool false), (.int 2, .bool true), (.int 3, .bool false)])⟩
    let world : World Closure := { functions := #[function] }
    let items : List Value := [.int 1, .int 2, .int 3]
    let run (name : String) :=
      (method callFunction (.list items) name [.function handle]).result world
    (run "Where").1 = .ok (.list [.int 2]) ∧ (run "Any").1 = .ok (.bool true) ∧
      (run "Where").2.log.toList = items.map (fun item => .call handle [item]) ∧
      (run "Any").2.log.toList = (items.take 2).map (fun item => .call handle [item]) := by
  intro handle function world items run
  have determined : Determined callFunction handle world (hostOutcome function _) :=
    determined_host (by decide) rfl rfl fun _ => rfl
  obtain ⟨called, kept, asked, results, filtered, answer, -, -, ranWhere, -, ranAny, -, agree, -⟩ :=
    list_functions_agree determined items
  have selected : (run "Where").1 = .ok (.list [.int 2]) := rfl
  have isFiltered : filtered = .ok [.int 2] := by
    cases filtered with
    | error halt => cases (congrArg Prod.fst ranWhere).symm.trans selected
    | ok found => cases (congrArg Prod.fst ranWhere).symm.trans selected; rfl
  obtain ⟨rfl, -⟩ := agree [.int 2] isFiltered
  exact ⟨selected, congrArg Prod.fst ranAny, rfl, rfl⟩

end Value

end Tether

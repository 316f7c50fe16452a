import Tether.Proofs.Agreement
import Tether.Proofs.PathText

set_option autoImplicit false

/- Pure hosts call no function along a path on which none is handed over, so that the outcome of
reading depends on the host objects alone. -/
namespace Tether

/-- A pure part that is handed no function answers at once. -/
theorem answer_eq_ok {κ : Type} {call : Caller κ} {part : Option Behavior} {arguments : List Value}
    {missing : EvalError} {value : Value} {world after : World κ}
    (pure : ∀ behavior ∈ part, behavior.Pure) (functionless : Value.areFunctionless arguments)
    (answered : answer call part arguments missing world = .ok value after) :
    ∃ behavior, part = some behavior ∧ behavior arguments = .done (some (.ok value)) := by
  cases part with
  | none => cases answered
  | some behavior =>
      obtain ⟨result, done⟩ := (pure behavior rfl).prompt arguments functionless
      simp only [answer, done] at answered
      match result with
      | none | some (.error _) => cases answered
      | some (.ok _) =>
          cases answered
          exact ⟨behavior, rfl, done⟩

theorem answer_of_done {κ : Type} {call : Caller κ} {behavior : Behavior} {arguments : List Value}
    {missing : EvalError} {value : Value} (done : behavior arguments = .done (some (.ok value)))
    (world : World κ) :
    answer call (some behavior) arguments missing world = .ok value world := by
  simp only [answer, done]
  rfl

/-- The segment hands over no function. -/
def Segment.Quiet : Segment → Prop
  | .member _ => True
  | .index arguments => Value.areFunctionless arguments

theorem Value.isFunctionless_of_isPlain {value : Value} (plain : value.isPlain) :
    value.isFunctionless := by
  cases value <;> first | rfl | cases plain

theorem Value.areFunctionless_of_isPlain {values : List Value}
    (plain : ∀ value ∈ values, value.isPlain) : Value.areFunctionless values := by
  induction values with
  | nil => rfl
  | cons value rest ih =>
      rw [List.forall_mem_cons] at plain
      simp [areFunctionless, isFunctionless_of_isPlain plain.1, ih plain.2]

namespace Path

/-- No function is handed over along the path. -/
def Quiet (path : Path) : Prop :=
  ∀ segment ∈ path, segment.Quiet

theorem quiet_of_isPlain {path : Path} (plain : path.isPlain) : path.Quiet := by
  intro segment found
  cases segment with
  | member name => trivial
  | index arguments =>
      have plainArguments : arguments.all Value.isPlain := List.all_eq_true.mp plain _ found
      exact Value.areFunctionless_of_isPlain (List.all_eq_true.mp plainArguments)

/-- Reading the path gives one value in all worlds with these objects, and nothing but the log
changes. -/
def Gives (objects : Array HostObject) (start : Value) (path : Path) (value : Value) : Prop :=
  ∀ (κ : Type) (call : Caller κ) (world : World κ), world.objects = objects →
    ∃ log, read call start path world = .ok value { world with log }

variable {κ : Type} {call : Caller κ} {world after : World κ} {start value : Value}

theorem gives_nil (objects : Array HostObject) (start : Value) : Gives objects start [] start :=
  fun _ _ world _ => ⟨world.log, rfl⟩

theorem read_single (call : Caller κ) (start : Value) (segment : Segment) :
    read call start [segment] = readSegment call start segment := by
  simp [read]

theorem read_cons (call : Caller κ) (start : Value) (segment : Segment) (rest : Path) :
    read call start (segment :: rest) = (do
      let next ← readSegment call start segment
      read call next rest) := by
  simp only [read, List.foldlM_cons]

theorem read_append (call : Caller κ) (start : Value) (path rest : Path) :
    read call start (path ++ rest) = (do
      let next ← read call start path
      read call next rest) := by
  simp only [read, List.foldlM_append]

theorem gives_cons {objects : Array HostObject} {segment : Segment} {rest : Path} {next : Value}
    (first : Gives objects start [segment] next) (others : Gives objects next rest value) :
    Gives objects start (segment :: rest) value := by
  intro κ call world same
  obtain ⟨log, read⟩ := first κ call world same
  obtain ⟨log', others⟩ := others κ call { world with log } same
  rw [read_single] at read
  exact ⟨log', by rw [read_cons, Eval.bind_of_ok read, others]⟩

theorem gives_member (pure : PureObjects world.objects) {name : String}
    (read : start.member call name world = .ok value after) :
    Gives world.objects start [.member name] value := by
  cases start with
  | object handle =>
      have answered : answer call ((world.parts handle).members.lookup name) []
          (.unknownMember name handle.typeName)
          { world with log := world.log.push (.member handle name) } = .ok value after := read
      obtain ⟨behavior, part, done⟩ :=
        answer_eq_ok ((World.pure_parts pure handle).members name) rfl answered
      intro κ' call' world' same
      have parts : world'.parts handle = world.parts handle := by simp only [World.parts, same]
      refine ⟨world'.log.push (.member handle name), ?_⟩
      rw [read_single]
      change answer call' ((world'.parts handle).members.lookup name) [] _ _ = _
      rw [parts, part]
      exact answer_of_done done _
  | string | list =>
      simp only [Value.member] at read
      split at read
      · rename_i length
        cases read
        intro κ' call' world' same
        refine ⟨world'.log, ?_⟩
        rw [read_single, readSegment, Value.member, if_pos length]
        rfl
      · cases read
  | null | bool | int | double | function => cases read

theorem gives_item (pure : PureObjects world.objects) {arguments : List Value}
    (quiet : (Segment.index arguments).Quiet)
    (read : start.item call arguments world = .ok value after) :
    Gives world.objects start [.index arguments] value := by
  have lifted {result : Except EvalError Value}
      (same : ∀ (κ : Type) (call : Caller κ), start.item call arguments = liftM result)
      (ended : (liftM result : Eval κ Value) world = .ok value after) :
      Gives world.objects start [.index arguments] value := by
    intro κ' call' world' _
    refine ⟨world'.log, ?_⟩
    rw [read_single, readSegment, same, Eval.yields_lift ⟨world, after, ended⟩]
    rfl
  fun_cases Value.item call start arguments with
  | case1 =>
      rename_i handle
      have answered : answer call (world.parts handle).indexer arguments
          (.unknownMember "[]" handle.typeName)
          { world with log := world.log.push (.item handle arguments) } = .ok value after := read
      obtain ⟨behavior, part, done⟩ :=
        answer_eq_ok (World.pure_parts pure handle).indexer quiet answered
      intro κ' call' world' same
      have parts : world'.parts handle = world.parts handle := by simp only [World.parts, same]
      refine ⟨world'.log.push (.item handle arguments), ?_⟩
      rw [read_single]
      change answer call' (world'.parts handle).indexer arguments _ _ = _
      rw [parts, part]
      exact answer_of_done done _
  | case2 => cases read
  | case3 items position => exact lifted (fun _ _ => rfl) read
  | case4 text position => exact lifted (fun _ _ => rfl) read
  | case5 =>
      simp only [Value.item] at read
      cases read

theorem gives_segment (pure : PureObjects world.objects) {segment : Segment}
    (quiet : segment.Quiet)
    (read : readSegment call start segment world = .ok value after) :
    Gives world.objects start [segment] value := by
  cases segment with
  | member name => exact gives_member pure read
  | index arguments => exact gives_item pure quiet read

/-- One successful reading speaks for all. -/
theorem gives_of_read (pure : PureObjects world.objects) {path : Path} (quiet : path.Quiet)
    (read : Path.read call start path world = .ok value after) :
    Gives world.objects start path value := by
  induction path generalizing start world with
  | nil =>
      cases read
      exact gives_nil _ _
  | cons segment rest ih =>
      rw [read_cons] at read
      cases first : readSegment call start segment world with
      | error error between =>
          rw [Eval.bind_of_error first] at read
          cases read
      | ok next between =>
          rw [Eval.bind_of_ok first] at read
          have step := gives_segment pure (quiet segment List.mem_cons_self) first
          obtain ⟨log, again⟩ := step κ call world rfl
          rw [read_single, first] at again
          cases again
          have later (other : Segment) (found : other ∈ rest) : other.Quiet :=
            quiet other (List.mem_cons_of_mem _ found)
          have others : Gives { world with log }.objects next rest value := ih pure later read
          exact gives_cons step others

end Path

end Tether

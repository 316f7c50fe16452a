import Mathlib.Data.List.Infix
import Tether.Proofs.KeySlots

set_option autoImplicit false

/- One numbering over many expressions. Keys are numbered where they are first met, whichever
expression that is in, and a number that was given stays. Nodes that carry a number from elsewhere,
nodes that stand in several expressions, and several nodes of one key all end up with the number of
their key. -/
namespace Tether

namespace Numbering

/-- Numbers the placeholders of expressions in turn. -/
def collectAll (exprs : List Expr) (state : Numbering × Slots) : Numbering × Slots :=
  exprs.foldl (fun state expr => state.1.collect state.2 expr) state

variable {state : Numbering × Slots} {slots : Slots} {done rest : List (NodeId × Placeholder)}

/-- Expressions in turn are one long list of placeholders. -/
theorem collectAll_eq (exprs : List Expr) (state : Numbering × Slots) :
    collectAll exprs state = (exprs.flatMap Expr.placeholders).foldl visit state := by
  induction exprs generalizing state with
  | nil => rfl
  | cons expr exprs ih =>
      rw [List.flatMap_cons, List.foldl_append, ← ih, ← collect_eq_foldl]
      rfl

theorem members_visit (state : Numbering × Slots) (found : NodeId × Placeholder) :
    state.1.members <+: (visit state found).1.members := by
  simp only [visit, position?]
  cases state.1.positions.get? found.2.key with
  | some position => exact List.prefix_rfl
  | none =>
      dsimp only
      by_cases room : state.1.members.length < capacity
      · rw [if_pos room]
        exact List.prefix_append _ _
      · rw [if_neg room]

/-- Members are only ever added at the end. -/
theorem members_foldl (state : Numbering × Slots) (rest : List (NodeId × Placeholder)) :
    state.1.members <+: (rest.foldl visit state).1.members := by
  induction rest generalizing state with
  | nil => exact List.prefix_rfl
  | cons found rest ih => exact (members_visit state found).trans (ih _)

theorem Numbered.keys_eq (numbered : Numbered slots done state)
    (room : ((done ++ rest).map (·.2.key)).eraseDups.length ≤ capacity) :
    state.1.keys = (done.map (·.2.key)).eraseDups := by
  rw [numbered.keys, List.take_of_length_le]
  refine Nat.le_trans ?_ room
  rw [List.map_append, List.eraseDups_append, List.length_append]
  exact Nat.le_add_right _ _

/-- A key keeps its position. -/
theorem Numbered.positions_kept {later : Numbering × Slots} {all : List (NodeId × Placeholder)}
    (numbered : Numbered slots done state) (after : Numbered slots all later)
    (grown : state.1.members <+: later.1.members) {key : PlaceholderKey} {position : Nat}
    (known : state.1.positions.get? key = some position) :
    later.1.positions.get? key = some position := by
  have here : state.1.keys[position]? = some key := (numbered.positions key position).mp known
  have grownKeys : state.1.keys <+: later.1.keys := grown.map _
  obtain ⟨inside, isKey⟩ := List.getElem?_eq_some_iff.mp here
  rw [after.positions, ← isKey]
  exact List.prefix_iff_getElem?.mp grownKeys position inside

/-- Numbering expressions in turn, from an empty numbering and any slots. `now` is any point of it:
some expressions are done, and so is a part of the next one. Then the keys of the members are those
met so far, each once and in the order in which they were first met; the positions are theirs; every
placeholder met so far has the position of its key for a slot; and whatever is numbered later adds
members at the end and leaves the positions of these keys alone. -/
theorem collectAll_numbered (slots : Slots) (earlier later : List Expr) (expr : Expr)
    (half : expr.placeholders = done ++ rest)
    (oneKey : OneKey ((earlier ++ expr :: later).flatMap Expr.placeholders))
    (room : (((earlier ++ expr :: later).flatMap Expr.placeholders).map
      (·.2.key)).eraseDups.length ≤ capacity) :
    let met := earlier.flatMap Expr.placeholders ++ done
    let now := done.foldl visit (collectAll earlier ({}, slots))
    let last := collectAll (earlier ++ expr :: later) ({}, slots)
    now.1.keys.Nodup ∧ now.1.keys = (met.map (·.2.key)).eraseDups ∧
      (∀ key position,
        now.1.positions.get? key = some position ↔ now.1.keys[position]? = some key) ∧
      (∀ found ∈ met, ∃ position, now.1.positions.get? found.2.key = some position ∧
        now.2 found.1 = position) ∧
      now.1.members <+: last.1.members ∧
      ∀ key position, now.1.positions.get? key = some position →
        last.1.positions.get? key = some position := by
  intro met now last
  have whole : (earlier ++ expr :: later).flatMap Expr.placeholders =
      met ++ (rest ++ later.flatMap Expr.placeholders) := by
    simp [met, half]
  rw [whole] at oneKey room
  have isNow : now = met.foldl visit ({}, slots) := by
    rw [List.foldl_append, ← collectAll_eq]
  have isLast : last = (rest ++ later.flatMap Expr.placeholders).foldl visit now := by
    rw [isNow, ← List.foldl_append, ← whole]
    exact collectAll_eq _ _
  have numbered : Numbered slots met now := by
    rw [isNow]
    exact foldl_numbered (.start slots) oneKey.left
  have numberedLast : Numbered slots (met ++ (rest ++ later.flatMap Expr.placeholders)) last := by
    rw [isLast]
    exact foldl_numbered numbered oneKey
  have grown : now.1.members <+: last.1.members := by
    rw [isLast]
    exact members_foldl now _
  have keys := numbered.keys_eq room
  refine ⟨keys ▸ nodup_eraseDups _, keys, numbered.positions, fun found visited => ?_, grown,
    fun key position => numbered.positions_kept numberedLast grown⟩
  have listed : found.2.key ∈ now.1.keys := by
    rw [keys]
    exact List.mem_eraseDups.mpr (List.mem_map_of_mem visited)
  obtain ⟨position, here⟩ := List.mem_iff_getElem?.mp listed
  have known := (numbered.positions _ _).mpr here
  refine ⟨position, known, ?_⟩
  rw [numbered.assigned found visited, known]
  rfl

section Stale

def stalePlaceholder (id : NodeId) (path : String) : Expr :=
  .mk id (.placeholder ⟨path, .source, {}, .member, none⟩)

/-- All nodes come with slot 7. The first expression has members `A` and `B`; of the second, a node
that was met already and another one of the key of `A` are done, and `C` is yet to come. -/
theorem collectAll_numbered_stale :
    let first : Expr := .mk 0 (.binary .add (stalePlaceholder 1 "A") (stalePlaceholder 2 "B"))
    let second : Expr := .mk 3 (.condition (stalePlaceholder 2 "B") (stalePlaceholder 4 "A")
      (stalePlaceholder 5 "C"))
    let done := second.placeholders.take 2
    let now := done.foldl visit (collectAll [first] ({}, fun _ => 7))
    let last := collectAll [first, second] ({}, fun _ => 7)
    now.1.keys.map (·.path) = ["A", "B"] ∧ now.1.members <+: last.1.members ∧
      [1, 2, 4, 5].map now.2 = [0, 1, 0, 7] ∧ [1, 2, 4, 5].map last.2 = [0, 1, 0, 2] := by
  intro first second done now last
  have oneKey : OneKey (([first] ++ second :: []).flatMap Expr.placeholders) := by
    unfold OneKey
    decide
  obtain ⟨-, keys, -, -, grown, -⟩ := collectAll_numbered (fun _ => 7) [first] [] second
    (List.take_append_drop 2 _).symm oneKey (by decide)
  refine ⟨?_, grown, rfl, rfl⟩
  rw [show now.1.keys = _ from keys]
  rfl

end Stale

end Numbering

end Tether

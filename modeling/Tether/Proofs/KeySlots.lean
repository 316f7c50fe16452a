import Mathlib.Data.List.Nodup
import Tether.Numbering
import Tether.Proofs.SlotTable
import Tether.Proofs.Subtrees

set_option autoImplicit false

/- Numbering the placeholders of a tree gives every key a slot of its own, in the order in which
the keys are first met, as far as there are slots. A tree numbered so is accepted by `compile` and
has one member for each key. -/
namespace Tether

/-- The keys of a tree's placeholders, each where it is first met. -/
def Expr.keys (expr : Expr) : List PlaceholderKey :=
  (expr.placeholders.map (·.2.key)).eraseDups

/-- A node has one key, however often it stands in the tree. -/
def OneKey (placeholders : List (NodeId × Placeholder)) : Prop :=
  ∀ found ∈ placeholders, ∀ other ∈ placeholders, found.1 = other.1 → found.2.key = other.2.key

theorem OneKey.left {done rest : List (NodeId × Placeholder)} (oneKey : OneKey (done ++ rest)) :
    OneKey done :=
  fun found visited other also =>
    oneKey found (List.mem_append_left _ visited) other (List.mem_append_left _ also)

namespace Numbering

section Distinct

variable {α : Type} [DecidableEq α]

theorem eraseDups_concat (items : List α) (last : α) :
    (items ++ [last]).eraseDups =
      if last ∈ items then items.eraseDups else items.eraseDups ++ [last] := by
  rw [List.eraseDups_append]
  split
  · rename_i known
    simp [List.removeAll, known]
  · rename_i unknown
    simp [List.removeAll, unknown, List.eraseDups_cons]

theorem nodup_eraseDups (items : List α) : items.eraseDups.Nodup := by
  induction count : items.length using Nat.strongRecOn generalizing items with
  | ind length ih =>
    cases items with
    | nil => simp
    | cons first rest =>
        rw [List.eraseDups_cons, List.nodup_cons]
        refine ⟨by simp [List.mem_eraseDups], ih _ ?_ _ rfl⟩
        rw [← count, List.length_cons]
        exact Nat.lt_succ_of_le (List.length_filter_le ..)

end Distinct

def keys (numbering : Numbering) : List PlaceholderKey :=
  numbering.members.map (·.2.key)

/-- What holds after the placeholders `done` were visited, from slots `before` on. -/
structure Numbered (before : Slots) (done : List (NodeId × Placeholder))
    (state : Numbering × Slots) : Prop where
  keys : state.1.keys = (done.map (·.2.key)).eraseDups.take capacity
  positions (key : PlaceholderKey) (position : Nat) :
    state.1.positions.get? key = some position ↔ state.1.keys[position]? = some key
  assigned (found : NodeId × Placeholder) (visited : found ∈ done) :
    state.2 found.1 = (state.1.positions.get? found.2.key).elim (before found.1) Int.ofNat
  others (id : NodeId) (unvisited : ∀ found ∈ done, found.1 ≠ id) : state.2 id = before id

variable {before : Slots} {done : List (NodeId × Placeholder)} {state : Numbering × Slots}
  {found : NodeId × Placeholder}

/-- A key that was met before. -/
theorem Numbered.again (numbered : Numbered before done state)
    (oneKey : OneKey (done ++ [found])) {position : Nat}
    (known : state.1.positions.get? found.2.key = some position) :
    Numbered before (done ++ [found]) (state.1, state.2.assign found.1 position) where
  keys := by
    have listed : found.2.key ∈ state.1.keys :=
      List.mem_of_getElem? ((numbered.positions _ _).mp known)
    rw [numbered.keys] at listed
    have met := List.mem_eraseDups.mp (List.mem_of_mem_take listed)
    rw [List.map_append, List.map_singleton, eraseDups_concat, if_pos met, numbered.keys]
  positions := numbered.positions
  assigned other visited := by
    simp only [Slots.assign]
    split
    · rename_i same
      have sameKey := oneKey other visited found (by simp) same
      rw [sameKey, known]
      rfl
    · rename_i apart
      rcases List.mem_append.mp visited with earlier | last
      · exact numbered.assigned other earlier
      · rw [List.mem_singleton.mp last] at apart
        exact absurd rfl apart
  others id unvisited := by
    have apart : ¬ id = found.1 := fun same => unvisited found (by simp) same.symm
    simp only [Slots.assign, if_neg apart]
    exact numbered.others id fun other earlier => unvisited other (by simp [earlier])

/-- A new key gets the next slot. -/
theorem Numbered.add (numbered : Numbered before done state)
    (oneKey : OneKey (done ++ [found]))
    (unknown : state.1.positions.get? found.2.key = none)
    (room : state.1.members.length < capacity) :
    Numbered before (done ++ [found])
      (⟨state.1.members ++ [found],
        state.1.positions.insert found.2.key state.1.members.length⟩,
        state.2.assign found.1 state.1.members.length) := by
  have count : state.1.keys.length = state.1.members.length := List.length_map ..
  have complete : state.1.keys = (done.map (·.2.key)).eraseDups := by
    have taken := congrArg List.length numbered.keys
    rw [List.length_take, count] at taken
    rw [numbered.keys, List.take_of_length_le (by omega)]
  have new : found.2.key ∉ done.map (·.2.key) := by
    intro met
    rw [← List.mem_eraseDups, ← complete] at met
    obtain ⟨position, listed⟩ := List.mem_iff_getElem?.mp met
    rw [← numbered.positions, unknown] at listed
    cases listed
  have extended : Numbering.keys ⟨state.1.members ++ [found],
      state.1.positions.insert found.2.key state.1.members.length⟩ =
        state.1.keys ++ [found.2.key] := by
    simp [Numbering.keys]
  refine ⟨?_, fun key position => ?_, fun other visited => ?_, fun id unvisited => ?_⟩
  · rw [extended, List.map_append, List.map_singleton, eraseDups_concat, if_neg new, ← complete,
      List.take_of_length_le]
    rw [List.length_append, count]
    exact room
  · have concat : (state.1.keys ++ [found.2.key])[position]? =
        if position = state.1.members.length then some found.2.key
        else state.1.keys[position]? := by
      rw [List.getElem?_append, count]
      split
      · rw [if_neg (by omega)]
      · split
        · simp_all
        · rw [List.getElem?_eq_none (by rw [List.length_singleton]; omega),
            List.getElem?_eq_none (by omega)]
    rw [extended, Table.get?_insert, concat]
    split
    · rename_i same
      rw [same]
      split
      · rename_i last
        simp [last]
      · rename_i other
        rw [← numbered.positions, unknown]
        simpa using Ne.symm other
    · rename_i apart
      split
      · rename_i last
        rw [numbered.positions, last, ← count, List.getElem?_eq_none (Nat.le_refl _)]
        simpa using Ne.symm apart
      · exact numbered.positions key position
  · rw [Table.get?_insert]
    simp only [Slots.assign]
    split
    · rename_i same
      rw [if_pos (oneKey other visited found (by simp) same)]
      rfl
    · rename_i apart
      rcases List.mem_append.mp visited with earlier | last
      · have differs : other.2.key ≠ found.2.key := by
          intro same
          exact new (same ▸ List.mem_map_of_mem earlier)
        rw [if_neg differs]
        exact numbered.assigned other earlier
      · rw [List.mem_singleton.mp last] at apart
        exact absurd rfl apart
  · have apart : ¬ id = found.1 := fun same => unvisited found (by simp) same.symm
    simp only [Slots.assign, if_neg apart]
    exact numbered.others id fun other earlier => unvisited other (by simp [earlier])

/-- Past the last slot nothing changes. -/
theorem Numbered.full (numbered : Numbered before done state)
    (oneKey : OneKey (done ++ [found]))
    (unknown : state.1.positions.get? found.2.key = none)
    (full : capacity ≤ state.1.members.length) :
    Numbered before (done ++ [found]) state where
  keys := by
    have count : state.1.keys.length = state.1.members.length := List.length_map ..
    have taken := congrArg List.length numbered.keys
    rw [List.length_take, count] at taken
    rw [List.map_append, List.map_singleton, eraseDups_concat, numbered.keys]
    split
    · rfl
    · rw [List.take_append_of_le_length (by omega)]
  positions := numbered.positions
  assigned other visited := by
    rcases List.mem_append.mp visited with earlier | last
    · exact numbered.assigned other earlier
    · obtain rfl := List.mem_singleton.mp last
      -- The node itself may have been met before, and then under the same key.
      by_cases met : ∃ known ∈ done, known.1 = other.1
      · obtain ⟨known, earlier, same⟩ := met
        have sameKey := oneKey known (by simp [earlier]) other visited same
        have slot := numbered.assigned known earlier
        rwa [sameKey, same] at slot
      · rw [unknown]
        exact numbered.others other.1 fun known earlier same => met ⟨known, earlier, same⟩
  others id unvisited :=
    numbered.others id fun other earlier => unvisited other (by simp [earlier])

theorem visit_numbered (numbered : Numbered before done state) (found : NodeId × Placeholder)
    (oneKey : OneKey (done ++ [found])) :
    Numbered before (done ++ [found]) (visit state found) := by
  simp only [visit, position?]
  cases known : state.1.positions.get? found.2.key with
  | some position => exact numbered.again oneKey known
  | none =>
      dsimp only
      by_cases room : state.1.members.length < capacity
      · rw [if_pos room]
        exact numbered.add oneKey known room
      · rw [if_neg room]
        exact numbered.full oneKey known (Nat.le_of_not_lt room)

theorem foldl_numbered {rest : List (NodeId × Placeholder)}
    (numbered : Numbered before done state) (oneKey : OneKey (done ++ rest)) :
    Numbered before (done ++ rest) (rest.foldl visit state) := by
  induction rest generalizing done state with
  | nil => rwa [List.append_nil]
  | cons found rest ih =>
      rw [← List.singleton_append, ← List.append_assoc] at oneKey ⊢
      exact ih (visit_numbered numbered found oneKey.left) oneKey

theorem Numbered.start (slots : Slots) : Numbered slots [] ({}, slots) where
  keys := by
    rw [List.map_nil, List.eraseDups_nil, List.take_nil]
    rfl
  positions key position := by simp [Numbering.keys, Table.get?, Table.find?]
  assigned _ visited := absurd visited List.not_mem_nil
  others _ _ := rfl

/-- A numbering of an expression goes through its placeholders in preorder. -/
theorem collect_eq_foldl (numbering : Numbering) (slots : Slots) (expr : Expr) :
    collect numbering slots expr = expr.placeholders.foldl visit (numbering, slots) := by
  rw [collect, Expr.survey_eq_forM, Expr.placeholders]
  generalize (numbering, slots) = state
  induction expr.preorder generalizing state with
  | nil => rfl
  | cons node rest ih =>
      rw [List.forM_cons, List.filterMap_cons]
      cases node.placeholder? with
      | none => exact ih state
      | some reference => exact ih (visit state (node.id, reference))

theorem collect_numbered {expr : Expr} (oneKey : OneKey expr.placeholders) (slots : Slots) :
    Numbered slots expr.placeholders (collect {} slots expr) := by
  rw [collect_eq_foldl]
  exact foldl_numbered (.start slots) oneKey

/-- There were slots enough if none of the placeholders is left without one. -/
theorem Numbered.room (numbered : Numbered before done state)
    (unassigned : ∀ found ∈ done, before found.1 < 0)
    (assigned : ∀ found ∈ done, 0 ≤ state.2 found.1) :
    (done.map (·.2.key)).eraseDups.length ≤ capacity := by
  refine Nat.not_lt.mp fun beyond => ?_
  -- The first key for which there was no slot left.
  obtain ⟨last, listed⟩ : ∃ last, (done.map (·.2.key)).eraseDups[capacity]? = some last :=
    ⟨_, List.getElem?_eq_getElem beyond⟩
  obtain ⟨found, visited, rfl⟩ :=
    List.mem_map.mp (List.mem_eraseDups.mp (List.mem_of_getElem? listed))
  have slot := numbered.assigned found visited
  cases known : state.1.positions.get? found.2.key with
  | none =>
      rw [known] at slot
      have low := unassigned found visited
      have high := assigned found visited
      rw [slot] at high
      exact absurd low (Int.not_lt.mpr high)
  | some position =>
      have earlier := (numbered.positions _ _).mp known
      rw [numbered.keys, List.getElem?_take] at earlier
      split at earlier
      · rename_i below
        have apart := List.nodup_iff_getElem?_ne_getElem?.mp (nodup_eraseDups _) position capacity
          below beyond
        exact apart (earlier.trans listed.symm)
      · cases earlier

/-- With slots enough every key has the slot that its first occurrence asks for. -/
theorem Numbered.slot_eq (numbered : Numbered before done state)
    (room : (done.map (·.2.key)).eraseDups.length ≤ capacity) (visited : found ∈ done) :
    state.2 found.1 = ((done.map (·.2.key)).eraseDups.idxOf found.2.key : Nat) := by
  have listed : found.2.key ∈ (done.map (·.2.key)).eraseDups :=
    List.mem_eraseDups.mpr (List.mem_map_of_mem visited)
  have known : state.1.positions.get? found.2.key =
      some ((done.map (·.2.key)).eraseDups.idxOf found.2.key) := by
    rw [numbered.positions, numbered.keys, List.take_of_length_le room]
    exact List.getElem?_idxOf listed
  rw [numbered.assigned found visited, known]
  rfl

end Numbering

/-- Every placeholder has the slot of its key. -/
def Expr.SlotsByKey (expr : Expr) (slots : Slots) : Prop :=
  ∀ found ∈ expr.placeholders, slots found.1 = (expr.keys.idxOf found.2.key : Nat)

namespace SlotMembers

variable {slots : Slots} {members after : SlotMembers} {found : NodeId × Placeholder}
  {done : List (NodeId × Placeholder)}

theorem enter_length (entered : enter slots members found = .ok after) :
    after.length = max members.length ((slots found.1).toNat + 1) := by
  have grown (count : Nat) : (members ++ List.replicate (count - members.length) none).length =
      max members.length count := by
    rw [List.length_append, List.length_replicate]
    omega
  simp only [enter] at entered
  split at entered
  · cases entered
  · split at entered
    · split at entered
      · cases entered
        exact grown _
      · cases entered
    · cases entered
      rw [List.length_set]
      exact grown _

theorem foldlM_length {rest : List (NodeId × Placeholder)} {bound : Nat}
    (below : ∀ found ∈ rest, (slots found.1).toNat < bound) (before : members.length ≤ bound)
    (entered : rest.foldlM (enter slots) members = .ok after) : after.length ≤ bound := by
  induction rest generalizing members with
  | nil =>
      cases entered
      exact before
  | cons found rest ih =>
      rw [List.foldlM_cons] at entered
      obtain ⟨next, stepped, entered⟩ := ok_of_bind entered
      have first := below found (List.mem_cons_self ..)
      refine ih (fun other later => below other (List.mem_cons_of_mem _ later)) ?_ entered
      rw [enter_length stepped]
      omega

/-- A placeholder with a slot can be entered unless one with another path has the slot. -/
theorem enter_accepts (entered : Entered slots members done) (assigned : 0 ≤ slots found.1)
    (agree : ∀ known ∈ done, slots known.1 = slots found.1 → known.2.path = found.2.path) :
    ∃ after, enter slots members found = .ok after := by
  simp only [enter, if_neg (Int.not_lt.mpr assigned)]
  split
  · rename_i known listed
    rw [getElem?_grown] at listed
    obtain ⟨earlier, own⟩ := entered.listed _ known listed
    rw [Int.toNat_of_nonneg assigned] at own
    rw [if_pos (beq_iff_eq.mpr (agree known earlier own))]
    exact ⟨_, rfl⟩
  · exact ⟨_, rfl⟩

theorem foldlM_accepts {rest : List (NodeId × Placeholder)} (entered : Entered slots members done)
    (assigned : ∀ found ∈ rest, 0 ≤ slots found.1)
    (agree : ∀ known ∈ done ++ rest, ∀ found ∈ done ++ rest, slots known.1 = slots found.1 →
      known.2.path = found.2.path) :
    ∃ after, rest.foldlM (enter slots) members = .ok after := by
  induction rest generalizing members done with
  | nil => exact ⟨members, rfl⟩
  | cons found rest ih =>
      obtain ⟨next, stepped⟩ := enter_accepts entered (assigned found (List.mem_cons_self ..))
        fun known earlier => agree known (by simp [earlier]) found (by simp)
      rw [← List.singleton_append, ← List.append_assoc] at agree
      obtain ⟨after, ended⟩ := ih (enter_entered entered stepped)
        (fun other later => assigned other (List.mem_cons_of_mem _ later)) agree
      refine ⟨after, ?_⟩
      rw [List.foldlM_cons, stepped]
      exact ended

/-- A tree whose placeholders have the slots of their keys is accepted, with one member for each
key. -/
theorem ofExpr_byKey {expr : Expr} (byKey : expr.SlotsByKey slots) :
    ∃ members, ofExpr slots expr = .ok members ∧ members.length = expr.keys.length := by
  have listed (found : NodeId × Placeholder) (member : found ∈ expr.placeholders) :
      found.2.key ∈ expr.keys := List.mem_eraseDups.mpr (List.mem_map_of_mem member)
  have assigned (found : NodeId × Placeholder) (member : found ∈ expr.placeholders) :
      0 ≤ slots found.1 := by
    rw [byKey found member]
    exact Int.natCast_nonneg _
  have agree (known : NodeId × Placeholder) (earlier : known ∈ expr.placeholders)
      (found : NodeId × Placeholder) (member : found ∈ expr.placeholders)
      (same : slots known.1 = slots found.1) : known.2.path = found.2.path := by
    rw [byKey known earlier, byKey found member, Int.natCast_inj,
      List.idxOf_inj (listed known earlier)] at same
    exact congrArg PlaceholderKey.path same
  obtain ⟨members, accepted⟩ := foldlM_accepts (entered_nil slots) assigned agree
  rw [ofExpr_eq_foldlM]
  refine ⟨members, accepted, Nat.le_antisymm ?_ ?_⟩
  · refine foldlM_length (fun found member => ?_) (Nat.zero_le _) accepted
    rw [byKey found member, Int.toNat_natCast]
    exact List.idxOf_lt_length_iff.mpr (listed found member)
  · refine Nat.le_of_not_lt fun short => ?_
    obtain ⟨found, member, key⟩ :=
      List.mem_map.mp (List.mem_eraseDups.mp (List.getElem_mem short))
    have entered := foldlM_entered (entered_nil slots) accepted
    obtain ⟨-, known, here, -⟩ := entered.found found member
    rw [byKey found member, Int.toNat_natCast] at here
    have position : expr.keys.idxOf found.2.key = members.length := by
      rw [key]
      exact (Numbering.nodup_eraseDups _).idxOf_getElem members.length short
    rw [position, List.getElem?_eq_none (Nat.le_refl _)] at here
    cases here

end SlotMembers

end Tether

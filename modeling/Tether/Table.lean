set_option autoImplicit false

/- Finite maps with few entries, in the order in which the keys were last set. -/
namespace Tether

/-- No key stands twice in a table made by the operations below. -/
structure Table (κ α : Type) where
  entries : List (κ × α) := []
deriving DecidableEq, Repr

namespace Table

variable {κ α : Type}

def keys (table : Table κ α) : List κ :=
  table.entries.map Prod.fst

def size (table : Table κ α) : Nat :=
  table.entries.length

def isEmpty (table : Table κ α) : Bool :=
  table.entries.isEmpty

variable [DecidableEq κ]

def find? (key : κ) : List (κ × α) → Option α
  | [] => none
  | (name, value) :: rest => if key = name then some value else find? key rest

def get? (table : Table κ α) (key : κ) : Option α :=
  find? key table.entries

def contains (table : Table κ α) (key : κ) : Bool :=
  (table.get? key).isSome

def erase (table : Table κ α) (key : κ) : Table κ α :=
  ⟨table.entries.filter fun entry => !decide (entry.1 = key)⟩

def insert (table : Table κ α) (key : κ) (value : α) : Table κ α :=
  ⟨(table.erase key).entries ++ [(key, value)]⟩

/-- The entries of `other` win. -/
def merge (table other : Table κ α) : Table κ α :=
  other.entries.foldl (fun merged entry => merged.insert entry.1 entry.2) table

/-- Of several entries with one key the last counts. -/
def ofList (entries : List (κ × α)) : Table κ α :=
  merge {} ⟨entries⟩

theorem find?_filter_ne (entries : List (κ × α)) (key other : κ) :
    find? other (entries.filter fun entry => !decide (entry.1 = key)) =
      if other = key then none else find? other entries := by
  induction entries with
  | nil => simp [find?]
  | cons entry rest ih =>
      obtain ⟨name, value⟩ := entry
      by_cases dropped : name = key
      · subst dropped
        by_cases same : other = name <;> simp_all [find?]
      · by_cases same : other = name
        · subst same
          simp [find?, dropped]
        · simp [find?, dropped, same, ih]

theorem find?_append (first second : List (κ × α)) (key : κ) :
    find? key (first ++ second) = (find? key first).or (find? key second) := by
  induction first with
  | nil => simp [find?]
  | cons entry rest ih =>
      by_cases same : key = entry.1 <;> simp [find?, same, ih]

theorem get?_insert (table : Table κ α) (key other : κ) (value : α) :
    (table.insert key value).get? other = if other = key then some value else table.get? other := by
  by_cases same : other = key <;>
    simp [get?, insert, erase, find?_append, find?_filter_ne, find?, same]

/-- What holds of every entry holds after an insertion, if it holds of the new one. -/
theorem forall_get?_insert {P : κ → α → Prop} {table : Table κ α} {key : κ} {value : α}
    (here : P key value) (each : ∀ other found, table.get? other = some found → P other found)
    (other : κ) (found : α) (listed : (table.insert key value).get? other = some found) :
    P other found := by
  rw [get?_insert] at listed
  split at listed
  · rename_i same
    cases listed
    exact same ▸ here
  · exact each other found listed

theorem get?_erase (table : Table κ α) (key other : κ) :
    (table.erase key).get? other = if other = key then none else table.get? other := by
  simp only [get?, erase, find?_filter_ne]

theorem mem_keys {table : Table κ α} {key : κ} :
    key ∈ table.keys ↔ ∃ value, table.get? key = some value := by
  obtain ⟨entries⟩ := table
  induction entries with
  | nil => simp [keys, get?, find?]
  | cons entry rest ih =>
      simp only [keys, get?, List.map_cons, List.mem_cons, find?] at ih ⊢
      split
      · rename_i same
        exact iff_of_true (.inl same) ⟨entry.2, rfl⟩
      · rename_i apart
        rw [← ih]
        exact or_iff_right apart

theorem mem_keys_insert {table : Table κ α} {key other : κ} {value : α} :
    other ∈ (table.insert key value).keys ↔ other = key ∨ other ∈ table.keys := by
  simp only [mem_keys, get?_insert]
  split
  · rename_i same
    exact iff_of_true ⟨value, rfl⟩ (.inl same)
  · rename_i apart
    exact (or_iff_right apart).symm

theorem keys_insert (table : Table κ α) (key : κ) (value : α) :
    (table.insert key value).keys =
      table.keys.filter (fun other => !decide (other = key)) ++ [key] := by
  simp only [keys, insert, erase, List.map_append, List.map_cons, List.map_nil, List.filter_map]
  rfl

theorem nodup_keys_insert {table : Table κ α} (distinct : table.keys.Nodup) (key : κ) (value : α) :
    (table.insert key value).keys.Nodup := by
  rw [keys_insert, List.nodup_append]
  refine ⟨distinct.filter _, List.pairwise_singleton _ key, ?_⟩
  intro other kept last listed same
  rw [List.mem_singleton.mp listed] at same
  simp [same] at kept

theorem insert_new {table : Table κ α} {key : κ} (new : key ∉ table.keys) (value : α) :
    table.insert key value = ⟨table.entries ++ [(key, value)]⟩ := by
  have kept : table.entries.filter (fun entry => !decide (entry.1 = key)) = table.entries := by
    refine List.filter_eq_self.mpr fun entry listed => ?_
    have apart : entry.1 ≠ key := fun same => new (same ▸ List.mem_map_of_mem listed)
    simp [apart]
  simp only [insert, erase, kept]

/-- A copy of a table in which no key stands twice. -/
theorem merge_empty {table : Table κ α} (distinct : table.keys.Nodup) : merge {} table = table := by
  -- What was copied so far and what is left make up the table.
  have copies (rest done : List (κ × α)) (apart : ((done ++ rest).map Prod.fst).Nodup) :
      rest.foldl (fun merged entry => merged.insert entry.1 entry.2) (⟨done⟩ : Table κ α) =
        ⟨done ++ rest⟩ := by
    induction rest generalizing done with
    | nil => rw [List.append_nil, List.foldl_nil]
    | cons entry rest ih =>
        have new : entry.1 ∉ (⟨done⟩ : Table κ α).keys := by
          intro listed
          rw [List.map_append, List.map_cons, List.nodup_append] at apart
          exact apart.2.2 entry.1 listed entry.1 (List.mem_cons_self ..) rfl
        rw [List.foldl_cons, insert_new new]
        have moved : done ++ entry :: rest = (done ++ [entry]) ++ rest := by simp
        rw [moved] at apart ⊢
        exact ih (done ++ [entry]) apart
  exact copies table.entries [] distinct

end Table

end Tether

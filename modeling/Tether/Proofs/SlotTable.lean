import Tether.Compiled
import Tether.Proofs.StandardBuild

set_option autoImplicit false

/- Slots of a compiled expression: which placeholder stands under which slot, and what the fallback
table of a build makes of it. -/
namespace Tether

namespace SlotMembers

/-- What holds after the placeholders `done` were entered: those in the list stand under their own
slots, and each of them finds one of its path under its slot. -/
structure Entered (slots : Slots) (members : SlotMembers) (done : List (NodeId × Placeholder)) :
    Prop where
  listed (position : Nat) (known : NodeId × Placeholder)
    (here : members[position]? = some (some known)) : known ∈ done ∧ slots known.1 = position
  found (placeholder : NodeId × Placeholder) (entered : placeholder ∈ done) :
    0 ≤ slots placeholder.1 ∧ ∃ known,
      members[(slots placeholder.1).toNat]? = some (some known) ∧
        known.2.path = placeholder.2.path

variable {slots : Slots} {members after : SlotMembers} {found : NodeId × Placeholder}
  {done : List (NodeId × Placeholder)}

theorem getElem?_grown (members : SlotMembers) (count position : Nat)
    (known : NodeId × Placeholder) :
    (members ++ List.replicate count none)[position]? = some (some known) ↔
      members[position]? = some (some known) := by
  by_cases inside : position < members.length
  · rw [List.getElem?_append_left inside]
  · rw [List.getElem?_append_right (Nat.le_of_not_lt inside), List.getElem?_replicate,
      List.getElem?_eq_none (Nat.le_of_not_lt inside)]
    split <;> simp

/-- Entering a placeholder keeps what is listed, and adds at most the placeholder itself. -/
theorem enter_cases (entered : enter slots members found = .ok after) :
    0 ≤ slots found.1 ∧
    (∀ (position : Nat) known, members[position]? = some (some known) →
      after[position]? = some (some known)) ∧
    (∃ known, after[(slots found.1).toNat]? = some (some known) ∧
      known.2.path = found.2.path) ∧
    ∀ (position : Nat) known, after[position]? = some (some known) →
      members[position]? = some (some known) ∨
        (known = found ∧ position = (slots found.1).toNat) := by
  simp only [enter] at entered
  split at entered
  · cases entered
  · rename_i assigned
    refine ⟨Int.not_lt.mp assigned, ?_⟩
    split at entered
    · rename_i known here
      split at entered
      · rename_i same
        cases entered
        refine ⟨fun position known listed => ?_, ⟨known, here, eq_of_beq same⟩,
          fun position known listed => ?_⟩
        · exact (getElem?_grown members _ position known).mpr listed
        · exact .inl ((getElem?_grown members _ position known).mp listed)
      · cases entered
    · -- The table grows up to the slot, and the placeholder takes the vacant place.
      rename_i vacant
      cases entered
      have inside : (slots found.1).toNat < (members ++ List.replicate
          ((slots found.1).toNat + 1 - members.length) none).length := by
        rw [List.length_append, List.length_replicate]
        omega
      refine ⟨fun position known listed => ?_, ⟨found, ?_, rfl⟩, fun position known listed => ?_⟩
      · have kept := (getElem?_grown members ((slots found.1).toNat + 1 - members.length)
          position known).mpr listed
        rw [List.getElem?_set]
        split
        · rename_i same
          rw [← same] at kept
          exact (vacant known kept).elim
        · exact kept
      · rw [List.getElem?_set_self inside]
      · rw [List.getElem?_set] at listed
        split at listed
        · rename_i same
          cases listed
          exact .inr ⟨rfl, same.symm⟩
        · exact .inl ((getElem?_grown members _ position known).mp listed)

theorem enter_entered (before : Entered slots members done)
    (entered : enter slots members found = .ok after) :
    Entered slots after (done ++ [found]) := by
  obtain ⟨assigned, kept, here, only⟩ := enter_cases entered
  refine ⟨fun position known listed => ?_, fun placeholder placed => ?_⟩
  · obtain listed | ⟨rfl, rfl⟩ := only position known listed
    · obtain ⟨earlier, own⟩ := before.listed position known listed
      exact ⟨List.mem_append_left _ earlier, own⟩
    · exact ⟨List.mem_append_right _ (List.mem_singleton_self _),
        (Int.toNat_of_nonneg assigned).symm⟩
  · rcases List.mem_append.mp placed with earlier | last
    · obtain ⟨slot, known, listed, path⟩ := before.found placeholder earlier
      exact ⟨slot, known, kept _ known listed, path⟩
    · rw [List.mem_singleton.mp last]
      exact ⟨assigned, here⟩

theorem foldlM_entered {rest : List (NodeId × Placeholder)} (before : Entered slots members done)
    (entered : rest.foldlM (enter slots) members = .ok after) :
    Entered slots after (done ++ rest) := by
  induction rest generalizing members done with
  | nil =>
      cases entered
      rw [List.append_nil]
      exact before
  | cons found rest ih =>
      rw [List.foldlM_cons] at entered
      obtain ⟨next, stepped, entered⟩ := ok_of_bind entered
      have continued := ih (enter_entered before stepped) entered
      rwa [List.append_assoc, List.singleton_append] at continued

theorem entered_nil (slots : Slots) : Entered slots [] [] :=
  ⟨fun _ _ listed => by simp at listed, fun _ placed => by cases placed⟩

/-- The members are the placeholders in preorder, entered one after another. -/
theorem ofExpr_eq_foldlM (slots : Slots) (expr : Expr) :
    ofExpr slots expr = expr.placeholders.foldlM (enter slots) [] := by
  rw [ofExpr, Expr.survey_eq_forM, Expr.placeholders]
  generalize ([] : SlotMembers) = members
  induction expr.preorder generalizing members with
  | nil => rfl
  | cons node rest ih =>
      rw [List.forM_cons, List.filterMap_cons]
      cases node.placeholder? with
      | none => exact ih members
      | some reference =>
          rw [Option.map_some, List.foldlM_cons]
          simp only [StateT.run_bind, StateT.run_get, pure_bind]
          cases entered : enter slots members (node.id, reference) with
          | error error => rfl
          | ok grown => exact ih grown

theorem ofExpr_entered {expr : Expr} (accepted : ofExpr slots expr = .ok members) :
    Entered slots members expr.placeholders := by
  rw [ofExpr_eq_foldlM] at accepted
  exact foldlM_entered (entered_nil slots) accepted

/-- Moving slots of other placeholders changes nothing. -/
theorem Entered.congr {slots' : Slots} (entered : Entered slots members done)
    (unmoved : ∀ found ∈ done, slots' found.1 = slots found.1) : Entered slots' members done := by
  refine ⟨fun position known listed => ?_, fun placeholder placed => ?_⟩
  · obtain ⟨earlier, own⟩ := entered.listed position known listed
    exact ⟨earlier, (unmoved known earlier).trans own⟩
  · rw [unmoved placeholder placed]
    exact entered.found placeholder placed

/-- The placeholders of one path share a slot now just when they did before. -/
def Aligned (slots now : Slots) (placeholders : List (NodeId × Placeholder)) : Prop :=
  ∀ found ∈ placeholders, ∀ other ∈ placeholders, found.2.path = other.2.path →
    (now found.1 = now other.1 ↔ slots found.1 = slots other.1)

theorem Aligned.refl (slots : Slots) (placeholders : List (NodeId × Placeholder)) :
    Aligned slots slots placeholders :=
  fun _ _ _ _ _ => .rfl

end SlotMembers

namespace Compiled

variable {context : BuildContext} {members : SlotMembers} {tags : List TypeTag} {position : Nat}

@[simp] theorem declare_slots :
    (declare context position members tags).slots = context.slots := by
  fun_induction declare context position members tags with
  | case1 context position id reference members tag tags ih => rw [ih]; rfl
  | case2 context position members tag tags ih => exact ih
  | case3 => rfl

@[simp] theorem declare_parameters :
    (declare context position members tags).parameters = context.parameters := by
  fun_induction declare context position members tags with
  | case1 context position id reference members tag tags ih => rw [ih]; rfl
  | case2 context position members tag tags ih => exact ih
  | case3 => rfl

/-- From `position` on every placeholder stands under its own slot. -/
def Placed (slots : Slots) (position : Nat) (members : SlotMembers) : Prop :=
  ∀ (index : Nat) known, members[index]? = some (some known) →
    slots known.1 = (position + index : Nat)

theorem Placed.tail {slots : Slots} {member : Option (NodeId × Placeholder)}
    (placed : Placed slots position (member :: members)) :
    Placed slots (position + 1) members := by
  intro index known listed
  rw [placed (index + 1) known (by simpa using listed)]
  omega

/-- Entries are for the placeholders under slots from `position` on, and each reads its slot. -/
theorem declare_cases (placed : Placed context.slots position members) {key : FragmentKey}
    {fragment : Fragment}
    (found : (declare context position members tags).fallbacks.get? key = some fragment) :
    context.fallbacks.get? key = some fragment ∨
      ∃ (index : Nat) (path : String) (tag : TypeTag),
        key = .placeholder (position + index : Nat) path ∧ tags[index]? = some tag ∧
          fragment = .ofSlot (position + index) tag := by
  fun_induction declare context position members tags with
  | case1 context position id reference members tag tags ih =>
      have own : context.slots id = position := placed 0 (id, reference) rfl
      obtain known | ⟨index, path, type, rfl, typed, rfl⟩ := ih placed.tail found
      · simp only [BuildContext.setFallback, Table.get?_insert] at known
        split at known
        · rename_i same
          cases known
          refine .inr ⟨0, reference.path, tag, ?_, rfl, rfl⟩
          rw [same, FragmentKey.ofPlaceholder, own]
          rfl
        · exact .inl known
      · refine .inr ⟨index + 1, path, type, ?_, typed, ?_⟩
        · rw [Nat.add_assoc, Nat.add_comm 1]
        · rw [Nat.add_assoc, Nat.add_comm 1]
  | case2 context position members tag tags ih =>
      obtain known | ⟨index, path, type, rfl, typed, rfl⟩ := ih placed.tail found
      · exact .inl known
      · refine .inr ⟨index + 1, path, type, ?_, typed, ?_⟩
        · rw [Nat.add_assoc, Nat.add_comm 1]
        · rw [Nat.add_assoc, Nat.add_comm 1]
  | case3 => exact .inl found

/-- A key that no declared placeholder has. -/
theorem declare_absent {key : FragmentKey} (absent : ∀ known, some known ∈ members →
      key ≠ .ofPlaceholder context.slots known.1 known.2) :
    (declare context position members tags).fallbacks.get? key = context.fallbacks.get? key := by
  fun_induction declare context position members tags with
  | case1 context position id reference members tag tags ih =>
      have apart := absent (id, reference) List.mem_cons_self
      rw [ih fun known member => absent known (List.mem_cons_of_mem _ member)]
      simp only [BuildContext.setFallback, Table.get?_insert, if_neg apart]
  | case2 context position members tag tags ih =>
      exact ih fun known member => absent known (List.mem_cons_of_mem _ member)
  | case3 => rfl

/-- The only placeholder with a key gets an entry as soon as its slot has a type. -/
theorem declare_only {key : FragmentKey} {index : Nat} {known : NodeId × Placeholder}
    (listed : members[index]? = some (some known))
    (own : key = .ofPlaceholder context.slots known.1 known.2)
    (only : ∀ (other : Nat) known, members[other]? = some (some known) →
      key = .ofPlaceholder context.slots known.1 known.2 → other = index) :
    (declare context position members tags).fallbacks.get? key =
      (tags[index]?.map (Fragment.ofSlot (position + index))).or
        (context.fallbacks.get? key) := by
  fun_induction declare context position members tags generalizing index with
  | case1 context position id reference members first tags ih =>
      cases index with
      | zero =>
          cases listed
          rw [declare_absent]
          · simp [BuildContext.setFallback, Table.get?_insert, own]
          · intro other member same
            obtain ⟨place, here⟩ := List.mem_iff_getElem?.mp member
            cases only (place + 1) other here same
      | succ index =>
          have apart : key ≠ .ofPlaceholder context.slots id reference := by
            intro same
            cases only 0 (id, reference) rfl same
          rw [ih listed own fun other known here same =>
            Nat.succ.inj (only (other + 1) known here same)]
          simp only [List.getElem?_cons_succ, BuildContext.setFallback, Table.get?_insert,
            if_neg apart, Nat.add_assoc, Nat.add_comm 1]
  | case2 context position members first tags ih =>
      cases index with
      | zero => cases listed
      | succ index =>
          rw [ih listed own fun other known here same =>
            Nat.succ.inj (only (other + 1) known here same)]
          simp only [List.getElem?_cons_succ, Nat.add_assoc, Nat.add_comm 1]
  | case3 members context position tags unlisted vacant =>
      cases tags with
      | nil => simp
      | cons first tags =>
          cases members with
          | nil => simp at listed
          | cons member members =>
              cases member with
              | none => exact (vacant _ _ _ rfl rfl).elim
              | some member => exact (unlisted _ _ _ _ _ rfl rfl).elim

/-- What a build knows about placeholders when the slots have the given types. -/
def fallbacks (compiled : Compiled) (slots : Slots) (tags : List TypeTag) :
    Expr → Option Fragment :=
  (declare (.start slots compiled.metadata) 0 compiled.members tags).fallback?

variable {compiled : Compiled} {slots now : Slots} {done : List (NodeId × Placeholder)}

theorem placed_of_entered (entered : compiled.members.Entered slots done) :
    Placed slots 0 compiled.members := by
  intro index known listed
  rw [(entered.listed index known listed).2, Nat.zero_add]

theorem fallbacks_placeholder (id : NodeId) (reference : Placeholder) :
    compiled.fallbacks slots tags (.mk id (.placeholder reference)) =
      (declare (.start slots compiled.metadata) 0 compiled.members tags).fallbacks.get?
        (.placeholder (slots id) reference.path) := by
  rw [fallbacks, BuildContext.fallback?, declare_slots]
  rfl

theorem fallbacks_other (compiled : Compiled) (slots : Slots) (tags : List TypeTag) {expr : Expr}
    (other : expr.placeholder? = none) : compiled.fallbacks slots tags expr = none := by
  rw [fallbacks, BuildContext.fallback?, FragmentKey.ofExpr, other, declare_absent]
  · rfl
  · intro known member same
    cases same

/-- A placeholder that the table knows reads its own slot. -/
theorem fallbacks_reads (entered : SlotMembers.Entered slots compiled.members done) {id : NodeId}
    {reference : Placeholder} {fragment : Fragment}
    (found : compiled.fallbacks slots tags (.mk id (.placeholder reference)) = some fragment) :
    ∃ tag, tags[(slots id).toNat]? = some tag ∧ fragment = .ofSlot (slots id).toNat tag := by
  rw [fallbacks_placeholder] at found
  obtain known | ⟨index, path, tag, same, typed, rfl⟩ :=
    declare_cases (placed_of_entered entered) found
  · cases known
  · injection same with own
    have position : (slots id).toNat = index := by omega
    rw [position, Nat.zero_add]
    exact ⟨tag, typed, rfl⟩

/-- Each placeholder reads the slot that it was entered with. The slots at the time of the build
only name the entries, so they may have moved as long as they keep apart what they kept apart. -/
theorem fallbacks_aligned (entered : SlotMembers.Entered slots compiled.members done)
    (aligned : SlotMembers.Aligned slots now done)
    {id : NodeId} {reference : Placeholder} (member : (id, reference) ∈ done) :
    compiled.fallbacks now tags (.mk id (.placeholder reference)) =
      tags[(slots id).toNat]?.map (Fragment.ofSlot (slots id).toNat) := by
  obtain ⟨assigned, known, listed, path⟩ := entered.found _ member
  obtain ⟨earlier, own⟩ := entered.listed _ known listed
  have shared : now id = now known.1 :=
    (aligned _ member _ earlier path.symm).mpr (by rw [own]; omega)
  rw [fallbacks_placeholder, declare_only listed]
  · rw [Nat.zero_add]
    exact Option.or_none
  · rw [FragmentKey.ofPlaceholder, shared, path]
    rfl
  · intro index other here same
    obtain ⟨entry, place⟩ := entered.listed index other here
    injection same with slot samePath
    have together := (aligned _ member _ entry samePath).mp slot
    omega

/-- The table knows the placeholders of the expression whose slots have a type. -/
theorem fallbacks_entered (entered : SlotMembers.Entered slots compiled.members done)
    {id : NodeId} {reference : Placeholder} (member : (id, reference) ∈ done) :
    compiled.fallbacks slots tags (.mk id (.placeholder reference)) =
      tags[(slots id).toNat]?.map (Fragment.ofSlot (slots id).toNat) :=
  fallbacks_aligned entered (.refl slots done) member

end Compiled

end Tether

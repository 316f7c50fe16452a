import Mathlib.Data.Nat.ModEq
import Mathlib.Data.Nat.Prime.Basic
import Tether.Shape

set_option autoImplicit false

/- Hashes of shapes when one argument changes its type. Each step multiplies by an odd number and
adds, so no later step can undo a difference that an earlier one made. -/
namespace Tether

namespace TypeTag

/-- The sequences are equally long and hold different types in exactly one position. -/
def DifferOnce (left right : List TypeTag) : Prop :=
  left.length = right.length ∧ ∃! position : Nat, left[position]? ≠ right[position]?

variable {left right : List TypeTag} {one other : TypeTag}

/-- Putting another type in one place is such a difference. -/
theorem differOnce_set {position : Nat} (held : left[position]? = some one)
    (changed : one ≠ other) : DifferOnce left (left.set position other) := by
  obtain ⟨inside, _⟩ := List.getElem?_eq_some_iff.mp held
  refine ⟨List.length_set.symm, position, ?_, fun elsewhere differs => ?_⟩
  · dsimp only
    rw [held, List.getElem?_set_self inside]
    exact fun same => changed (Option.some.inj same)
  · by_contra apart
    exact differs (List.getElem?_set_ne (Ne.symm apart)).symm

/-- Sequences that differ once share what stands before that position and what stands after it. -/
theorem DifferOnce.split (differ : DifferOnce left right) :
    ∃ before after one other, one ≠ other ∧
      left = before ++ one :: after ∧ right = before ++ other :: after := by
  obtain ⟨aligned, position, differs, only⟩ := differ
  have agree (elsewhere : Nat) (apart : elsewhere ≠ position) :
      left[elsewhere]? = right[elsewhere]? :=
    by_contra fun unlike => apart (only elsewhere unlike)
  have inside : position < left.length := by
    by_contra outside
    apply differs
    rw [List.getElem?_eq_none (by omega), List.getElem?_eq_none (by omega)]
  have before : left.take position = right.take position := by
    apply List.ext_getElem?
    intro index
    rw [List.getElem?_take, List.getElem?_take]
    split
    · exact agree index (by omega)
    · rfl
  have after : left.drop (position + 1) = right.drop (position + 1) := by
    apply List.ext_getElem?
    intro index
    rw [List.getElem?_drop, List.getElem?_drop]
    exact agree _ (by omega)
  have inside' : position < right.length := aligned ▸ inside
  refine ⟨left.take position, left.drop (position + 1), left[position], right[position],
    fun same => differs ?_, ?_, ?_⟩
  · rw [List.getElem?_eq_getElem inside, List.getElem?_eq_getElem inside', same]
  · rw [List.getElem_cons_drop, List.take_append_drop]
  · rw [before, after, List.getElem_cons_drop, List.take_append_drop]

/-- An odd factor can be cancelled, also where the products overflow. -/
theorem mul_right_cancel_of_odd {factor a b : UInt64} (odd : Odd factor.toNat)
    (same : a * factor = b * factor) : a = b := by
  have coprime : Nat.gcd (2 ^ 64) factor.toNat = 1 := odd.coprime_two_left.pow_left 64
  have congruent : a.toNat * factor.toNat ≡ b.toNat * factor.toNat [MOD 2 ^ 64] := by
    rw [Nat.ModEq, ← UInt64.toNat_mul, ← UInt64.toNat_mul, same]
  exact UInt64.toNat_inj.mp
    ((congruent.cancel_right_of_coprime coprime).eq_of_lt_of_lt a.toNat_lt b.toNat_lt)

section Digest

variable {a b hash : UInt64} {position : Nat}

theorem foldSequence_append (hash : UInt64) (position : Nat) (before after : List TypeTag) :
    foldSequence hash position (before ++ after) =
      foldSequence (foldSequence hash position before) (position + before.length) after := by
  induction before generalizing hash position with
  | nil => rfl
  | cons tag before ih =>
      rw [List.length_cons, Nat.add_comm before.length, ← Nat.add_assoc]
      exact ih _ (position + 1)

/-- A step tells apart the digests it starts from. -/
theorem step_start_inj {tag : TypeTag}
    (same : foldSequence a position [tag] = foldSequence b position [tag]) : a = b :=
  mul_right_cancel_of_odd (by decide) ((UInt64.add_left_inj _).mp same)

/-- A step tells apart the types it takes in, whatever the marker is. -/
theorem step_type_inj
    (same : foldSequence hash position [one] = foldSequence hash position [other]) :
    one = other := by
  have marked : positionMarker position ^^^ one.code = positionMarker position ^^^ other.code :=
    (UInt64.add_right_inj _).mp same
  exact congrArg TypeTag.mk ((UInt64.xor_right_inj _).mp marked)

/-- What a digest starts from is never lost, however many types follow. -/
theorem foldSequence_start_inj (rest : List TypeTag)
    (same : foldSequence a position rest = foldSequence b position rest) : a = b := by
  induction rest generalizing a b position with
  | nil => exact same
  | cons tag rest ih => exact step_start_inj (ih same)

theorem foldSequence_ne_of_differOnce (hash : UInt64) (position : Nat)
    (differ : DifferOnce left right) :
    foldSequence hash position left ≠ foldSequence hash position right := by
  obtain ⟨before, after, one, other, changed, rfl, rfl⟩ := differ.split
  intro same
  rw [foldSequence_append, foldSequence_append] at same
  -- Both runs reach the changed type with one digest, and part there for good.
  exact changed (step_type_inj (foldSequence_start_inj after same))

end Digest

/-- A sequence of types and the same with one type changed have different tags, at any length and
whichever position it is; shapes whose types differ so have different hashes. -/
theorem ofSequence_separates :
    (∀ left right, DifferOnce left right → ofSequence left ≠ ofSequence right) ∧
    ∀ left right : Shape, DifferOnce left.types right.types → left.hash ≠ right.hash := by
  refine ⟨fun left right differ same => ?_, fun left right differ => ?_⟩
  · exact foldSequence_ne_of_differOnce _ _ differ (congrArg code same)
  · exact foldSequence_ne_of_differOnce _ _ differ

/-- The change may stand past the table of markers, and the shapes may be of either form. -/
theorem ofSequence_separates_late :
    DifferOnce (List.replicate 20 int) ((List.replicate 20 int).set 17 string) ∧
    ofSequence (List.replicate 20 int) ≠ ofSequence ((List.replicate 20 int).set 17 string) ∧
    DifferOnce (Shape.single int).types (Shape.sequence [string]).types ∧
    (Shape.single int).hash ≠ (Shape.sequence [string]).hash := by
  have late : DifferOnce (List.replicate 20 int) ((List.replicate 20 int).set 17 string) :=
    differOnce_set rfl (by decide)
  have only : DifferOnce [int] ([int].set 0 string) := differOnce_set rfl (by decide)
  exact ⟨late, ofSequence_separates.1 _ _ late, only,
    ofSequence_separates.2 (.single int) (.sequence [string]) only⟩

/-- Two changes can cancel: here the second takes back the factor that the first brings in. -/
example : ofSequence [⟨0x9e3779b97f4a7c15⟩, ⟨0xbf58476d1ce4e5b9 ^^^ 0x4bc94d6bd06053ad⟩] =
    ofSequence [⟨0x9e3779b97f4a7c14⟩, ⟨0xbf58476d1ce4e5b9⟩] := by
  decide

end TypeTag

end Tether

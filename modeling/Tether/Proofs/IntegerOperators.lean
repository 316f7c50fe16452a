import Mathlib.Algebra.Order.Ring.Int
import Tether.Arithmetic

set_option autoImplicit false

/- The operators on integers, in exact arithmetic. A result is the exact one reduced to 64 bits;
a quotient goes toward zero and its remainder has the sign of the dividend; a shift multiplies or
divides by a power of two, with the distance taken modulo 64. -/
namespace Tether.Value

/-- An exact number reduced modulo 2^64 into the range from -2^63 to 2^63 - 1. -/
def reduce (exact : Int) : Int :=
  exact.bmod (2 ^ 64)

/-- The distance by which a shift goes. -/
def shiftDistance (b : Int64) : Nat :=
  (b.toInt % 64).toNat

/-- The result is an integer, and this one. -/
def IsInt (result : Except EvalError Value) (number : Int) : Prop :=
  ∃ held : Int64, result = .ok (.int held) ∧ held.toInt = number

theorem reduce_eq_iff {exact number : Int} :
    reduce exact = number ↔
      -2 ^ 63 ≤ number ∧ number < 2 ^ 63 ∧ (2 ^ 64 : Int) ∣ number - exact :=
  Int.bmod_eq_iff (by decide)

theorem reduce_toInt (number : Int64) : reduce number.toInt = number.toInt :=
  reduce_eq_iff.mpr ⟨number.le_toInt, number.toInt_lt, by simp⟩

theorem toInt_complement (a : Int64) : (~~~a).toInt = -a.toInt - 1 := by
  have lower := a.le_toInt
  have upper := a.toInt_lt
  rw [Int64.toInt_not]
  refine reduce_eq_iff.mpr ⟨by omega, by omega, by simp⟩

section Division

variable {a b : Int64}

theorem toInt_ne_zero (nonzero : b ≠ 0) : b.toInt ≠ 0 :=
  fun zero => nonzero (Int64.toInt_inj.mp zero)

/-- The only quotient out of range is the one of the smallest number by -1. -/
theorem toInt_div (a b : Int64) :
    (a / b).toInt =
      if a = Int64.minValue ∧ b = -1 then Int64.minValue.toInt else a.toInt.tdiv b.toInt := by
  split
  · rename_i wraps
    rw [wraps.1, wraps.2]
    decide
  · rename_i fits
    by_cases smallest : a = Int64.minValue
    · exact Int64.toInt_div_of_ne_right a b fun negated => fits ⟨smallest, negated⟩
    · exact Int64.toInt_div_of_ne_left a b smallest

theorem reduce_div_mul_add_mod (a b : Int64) :
    reduce ((a / b).toInt * b.toInt + (a % b).toInt) = a.toInt := by
  calc reduce ((a / b).toInt * b.toInt + (a % b).toInt)
    _ = reduce (a.toInt.tdiv b.toInt * b.toInt + a.toInt.tmod b.toInt) := by
        rw [Int64.toInt_div, Int64.toInt_mod, reduce, reduce, ← Int.bmod_add_bmod,
          Int.bmod_mul_bmod, Int.bmod_add_bmod]
    _ = reduce a.toInt := by rw [Int.tdiv_mul_add_tmod]
    _ = a.toInt := reduce_toInt a

theorem natAbs_mod_lt (a : Int64) (nonzero : b ≠ 0) :
    (a % b).toInt.natAbs < b.toInt.natAbs := by
  rw [Int64.toInt_mod, Int.natAbs_tmod]
  exact Nat.mod_lt _ (Int.natAbs_pos.mpr (toInt_ne_zero nonzero))

theorem sign_mod (a b : Int64) :
    (a % b).toInt = 0 ∨ (a % b).toInt.sign = a.toInt.sign := by
  rw [Int64.toInt_mod, Int.sign_tmod]
  split
  · rename_i divides
    exact .inl (Int.tmod_eq_zero_of_dvd divides)
  · exact .inr rfl

theorem intBinary_divisionByZero {op : BinaryOp} (divides : op = .div ∨ op = .rem) :
    intBinary op a b = .error .divisionByZero ↔ b = 0 := by
  rcases divides with rfl | rfl
  all_goals
    simp only [intBinary, beq_iff_eq]
    split <;> simp_all

end Division

section Shift

theorem toInt_smod_64 (b : Int64) : (b.toBitVec.smod 64).toInt = b.toInt % 64 := by
  rw [BitVec.toInt_smod, Int64.toInt_toBitVec]
  exact Int.fmod_eq_emod_of_nonneg _ (by decide)

/-- The distance is not negative, so that it is the same read with or without a sign. -/
theorem toNat_smod_64 (b : Int64) : (b.toBitVec.smod 64).toNat = shiftDistance b := by
  have positive : (0#64).sle (b.toBitVec.smod 64) := by
    rw [BitVec.sle_iff_toInt_le, toInt_smod_64]
    exact Int.emod_nonneg _ (by decide)
  rw [shiftDistance, ← toInt_smod_64, BitVec.toNat_toInt_of_sle positive]

theorem shiftDistance_eq (b : Int64) : (shiftDistance b : Int) = b.toInt % 64 :=
  Int.toNat_of_nonneg (Int.emod_nonneg _ (by decide))

/-- The low 32 bits tell the distance. -/
theorem shiftDistance_low (b : Int64) :
    shiftDistance b = b.toUInt64.toUInt32.toNat % 64 := by
  have whole : b.toInt % 2 ^ 64 = b.toUInt64.toNat := by
    rw [← Int64.toInt_toBitVec, BitVec.toInt_eq_toNat_bmod]
    exact (Int.bmod_emod).trans (Int.emod_eq_of_lt (by omega) (by exact_mod_cast b.toBitVec.isLt))
  have low : b.toUInt64.toUInt32.toNat = b.toUInt64.toNat % 2 ^ 32 := UInt64.toNat_toUInt32 _
  have distance := shiftDistance_eq b
  omega

theorem toInt_shiftLeft (a b : Int64) :
    (a <<< b).toInt = reduce (a.toInt * 2 ^ shiftDistance b) := by
  rw [← Int64.toInt_toBitVec, Int64.toBitVec_shiftLeft, BitVec.shiftLeft_eq', toNat_smod_64,
    BitVec.toInt_shiftLeft, Nat.shiftLeft_eq, ← Int64.toInt_toBitVec,
    BitVec.toInt_eq_toNat_bmod, reduce, Int.bmod_mul_bmod]
  simp

theorem toInt_shiftRight (a b : Int64) :
    (a >>> b).toInt = a.toInt.fdiv (2 ^ shiftDistance b) := by
  rw [← Int64.toInt_toBitVec, Int64.toBitVec_shiftRight, BitVec.toInt_sshiftRight', toNat_smod_64,
    Int.shiftRight_eq_div_pow, Int64.toInt_toBitVec, Int.natCast_pow,
    Int.fdiv_eq_ediv_of_nonneg _ (Int.pow_nonneg (by decide))]
  rfl

end Shift

/-- The operators on integers are those of exact arithmetic, reduced to 64 bits. Division fails by
zero only; it goes toward zero, but for the one quotient that is out of range. A shift goes by the
distance modulo 64, which the low 32 bits tell, to the left by multiplication and to the right by
division to the floor. -/
theorem intBinary_exact (a b : Int64) :
    IsInt (intBinary .add a b) (reduce (a.toInt + b.toInt)) ∧
    IsInt (intBinary .sub a b) (reduce (a.toInt - b.toInt)) ∧
    IsInt (intBinary .mul a b) (reduce (a.toInt * b.toInt)) ∧
    IsInt (unary .negate (.int a)) (reduce (-a.toInt)) ∧
    IsInt (unary .complement (.int a)) (-a.toInt - 1) ∧
    (intBinary .div a b = .error .divisionByZero ↔ b = 0) ∧
    (intBinary .rem a b = .error .divisionByZero ↔ b = 0) ∧
    (b = 0 ∨ ∃ quotient remainder,
      IsInt (intBinary .div a b) quotient ∧ IsInt (intBinary .rem a b) remainder ∧
      reduce (quotient * b.toInt + remainder) = a.toInt ∧
      remainder.natAbs < b.toInt.natAbs ∧ (remainder = 0 ∨ remainder.sign = a.toInt.sign) ∧
      quotient = if a = Int64.minValue ∧ b = -1 then Int64.minValue.toInt
        else a.toInt.tdiv b.toInt) ∧
    shiftDistance b < 64 ∧ (shiftDistance b : Int) = b.toInt % 64 ∧
    shiftDistance b = b.toUInt64.toUInt32.toNat % 64 ∧
    IsInt (intBinary .shiftLeft a b) (reduce (a.toInt * 2 ^ shiftDistance b)) ∧
    IsInt (intBinary .shiftRight a b) (a.toInt.fdiv (2 ^ shiftDistance b)) := by
  refine ⟨⟨_, rfl, Int64.toInt_add a b⟩, ⟨_, rfl, Int64.toInt_sub a b⟩,
    ⟨_, rfl, Int64.toInt_mul a b⟩, ⟨_, rfl, Int64.toInt_neg a⟩, ⟨_, rfl, toInt_complement a⟩,
    intBinary_divisionByZero (.inl rfl), intBinary_divisionByZero (.inr rfl), ?_, ?_,
    shiftDistance_eq b, shiftDistance_low b, ⟨_, rfl, toInt_shiftLeft a b⟩,
    ⟨_, rfl, toInt_shiftRight a b⟩⟩
  · by_cases zero : b = 0
    · exact .inl zero
    · have divides : intBinary .div a b = .ok (.int (a / b)) := by simp [intBinary, zero]
      have remains : intBinary .rem a b = .ok (.int (a % b)) := by simp [intBinary, zero]
      exact .inr ⟨_, _, ⟨_, divides, rfl⟩, ⟨_, remains, rfl⟩, reduce_div_mul_add_mod a b,
        natAbs_mod_lt a zero, sign_mod a b, toInt_div a b⟩
  · have distance := shiftDistance_eq b
    omega

/-- A negative distance is taken modulo 64 as well: -1 is 63. -/
example : intBinary .shiftLeft 1 (-1) = .ok (.int Int64.minValue) := rfl

end Tether.Value

import Mathlib.Algebra.Order.Ring.Int
import Tether.Arithmetic
import Tether.Code

set_option autoImplicit false

/- Lengths, positions and parts of texts count the same characters. A part that is there is found
in every way to ask for it, and any other request is told the length of the text. -/
namespace Tether

namespace Builtin

/-- Whether the text goes on for `count` characters from `start`, in exact arithmetic. -/
def Within (text : String) (start count : Int) : Prop :=
  0 ≤ start ∧ 0 ≤ count ∧ start + count ≤ text.length

/-- A part of a text: so many characters, those from `start` on. -/
structure IsPart (text : String) (start count : Int) (part : String) : Prop where
  length : (part.length : Int) = count
  chars (k : Nat) (inside : k < part.length) :
    part.toList[k]? = text.toList[start.toNat + k]?

theorem isPart_iff {text part : String} {start count : Int} (within : Within text start count) :
    IsPart text start count part ↔
      part = String.ofList ((text.toList.drop start.toNat).take count.toNat) := by
  obtain ⟨_, _, ends⟩ := within
  constructor
  · intro isPart
    have counted := isPart.length
    rw [← String.toList_inj, String.toList_ofList]
    apply List.ext_getElem?
    intro k
    rw [List.getElem?_take, List.getElem?_drop]
    split
    · exact isPart.chars k (by omega)
    · exact List.getElem?_eq_none (by rw [String.length_toList]; omega)
  · rintro rfl
    refine ⟨?_, fun k inside => ?_⟩
    · simp only [String.length_ofList, List.length_take, List.length_drop, String.length_toList]
      omega
    · simp only [String.length_ofList, List.length_take] at inside
      rw [String.toList_ofList, List.getElem?_take, List.getElem?_drop, if_pos (by omega)]

section Cuts

variable {κ : Type} {text : String} {start count : Int} {run : Eval κ Value}

/-- A request for a part: it gives the part if there is one, or else says that some position is out
of range. The host is not asked. -/
def Cuts (text : String) (start count : Int) (run : Eval κ Value) : Prop :=
  Within text start count ∧
      (∃ part, run = pure (.string part) ∧ IsPart text start count part) ∨
    ¬ Within text start count ∧
      ∃ position, run = throw (.failure (.indexOutOfRange position text.length))

theorem Cuts.eq_pure (cuts : Cuts text start count run) (within : Within text start count) :
    run = pure (.string (String.ofList ((text.toList.drop start.toNat).take count.toNat))) := by
  rcases cuts with ⟨-, part, ran, isPart⟩ | ⟨outside, -⟩
  · rw [ran, (isPart_iff within).mp isPart]
  · exact absurd within outside

theorem Cuts.length_eq {part : String} (cuts : Cuts text start count run)
    (ran : run = pure (.string part)) :
    (part.length : Int) = count ∧ part.length ≤ text.length := by
  rcases cuts with ⟨within, found, same, isPart⟩ | ⟨-, position, failed⟩
  · cases congrFun (ran.symm.trans same) {}
    have counted := isPart.length
    obtain ⟨lower, -, ends⟩ := within
    exact ⟨counted, by omega⟩
  · cases congrFun (ran.symm.trans failed) {}

variable (text)

theorem cuts_substring (start count : Int64) :
    Cuts text start.toInt count.toInt
      (liftM (substring text start (some count)) : Eval κ Value) := by
  simp only [substring, List.length_drop, String.length_toList]
  split
  · rename_i outside
    refine .inr ⟨?_, start.toInt, rfl⟩
    rintro ⟨lower, _, ends⟩
    omega
  · rename_i starts
    split
    · rename_i outside
      refine .inr ⟨?_, _, rfl⟩
      rintro ⟨_, lower, ends⟩
      omega
    · have within : Within text start.toInt count.toInt := ⟨by omega, by omega, by omega⟩
      exact .inl ⟨within, _, rfl, (isPart_iff within).mpr rfl⟩

theorem cuts_rest (start : Int64) :
    Cuts text start.toInt (text.length - start.toInt)
      (liftM (substring text start none) : Eval κ Value) := by
  simp only [substring, String.length_toList]
  split
  · rename_i outside
    refine .inr ⟨?_, start.toInt, rfl⟩
    rintro ⟨lower, _, ends⟩
    omega
  · rename_i starts
    have within : Within text start.toInt (text.length - start.toInt) :=
      ⟨by omega, by omega, by omega⟩
    refine .inl ⟨within, _, rfl, (isPart_iff within).mpr ?_⟩
    rw [List.take_of_length_le]
    rw [List.length_drop, String.length_toList]
    omega

theorem cuts_charAt (position : Int64) :
    Cuts text position.toInt 1 (liftM (charAt text position) : Eval κ Value) := by
  simp only [charAt, String.length_toList]
  split
  · rename_i c found
    have lower : ¬ position.toInt < 0 := by
      intro negative
      rw [if_pos negative] at found
      cases found
    rw [if_neg lower] at found
    have inside := (List.getElem?_eq_some_iff.mp found).1
    rw [String.length_toList] at inside
    have within : Within text position.toInt 1 := ⟨by omega, by omega, by omega⟩
    refine .inl ⟨within, _, rfl, by simp, fun k first => ?_⟩
    obtain rfl : k = 0 := by simpa using first
    simpa using found.symm
  · rename_i missing
    refine .inr ⟨?_, position.toInt, rfl⟩
    rintro ⟨lower, _, ends⟩
    rw [if_neg (by omega), List.getElem?_eq_none_iff, String.length_toList] at missing
    omega

end Cuts

section Words

/-- A signed number as a word, unless it is negative. -/
def word? (number : Int64) : Option UInt64 :=
  if number.toInt < 0 then none else some number.toUInt64

/-- The difference of two words, unless it falls below zero. -/
def difference? (a b : UInt64) : Option UInt64 :=
  if b ≤ a then some (a - b) else none

/-- The sum of two signed numbers, or the end of their range that it goes past. -/
def addSaturating (a b : Int64) : Int64 :=
  if a.toBitVec.saddOverflow b.toBitVec then
    if a.toInt < 0 then Int64.minValue else Int64.maxValue
  else a + b

/-- The part of a text in the arithmetic of words; nothing if a difference falls below zero. -/
def substringWords? (text : String) (start : Int64) (length : Option Int64) :
    Option (Except EvalError Value) := do
  let count := UInt64.ofNat text.length
  let cut (first taken : UInt64) : Value :=
    .string (String.ofList ((text.toList.drop first.toNat).take taken.toNat))
  match (word? start).filter (· ≤ count) with
  | none => return .error (.indexOutOfRange start.toInt count.toNat)
  | some first =>
      let room ← difference? count first
      match length with
      | none => return .ok (cut first room)
      | some length =>
          match (word? length).filter (· ≤ room) with
          | none =>
              return .error (.indexOutOfRange (addSaturating start length).toInt count.toNat)
          | some taken => return .ok (cut first taken)

theorem toInt_addSaturating (a b : Int64) :
    (addSaturating a b).toInt = saturate (a.toInt + b.toInt) := by
  have lowerA := a.le_toInt
  have upperA := a.toInt_lt
  have lowerB := b.le_toInt
  have upperB := b.toInt_lt
  have least : Int64.minValue.toInt = -2 ^ 63 := Int64.toInt_minValue
  have greatest : Int64.maxValue.toInt = 2 ^ 63 - 1 := Int64.toInt_maxValue
  simp only [addSaturating, saturate, BitVec.saddOverflow, Int64.toInt_toBitVec,
    Bool.or_eq_true, decide_eq_true_eq]
  split
  · split <;> omega
  · rw [Int64.toInt_add, Int.bmod_eq_of_le (by omega) (by omega)]
    omega

theorem toNat_word {number : Int64} (positive : ¬ number.toInt < 0) :
    number.toUInt64.toNat = number.toInt.toNat := by
  have sign : (0#64).sle number.toBitVec := by
    rw [BitVec.sle_iff_toInt_le, Int64.toInt_toBitVec]
    exact Int.not_lt.mp positive
  exact (BitVec.toNat_toInt_of_sle sign).symm

theorem word?_filter (number : Int64) (bound : UInt64) :
    (word? number).filter (· ≤ bound) =
      if number.toInt < 0 ∨ bound.toNat < number.toInt then none else some number.toUInt64 := by
  by_cases negative : number.toInt < 0
  · simp [word?, negative]
  · have same := toNat_word negative
    simp only [word?, if_neg negative, Option.filter_some, UInt64.le_iff_toNat_le, same,
      decide_eq_true_eq]
    by_cases fits : number.toInt.toNat ≤ bound.toNat
    · rw [if_pos fits, if_neg (by omega)]
    · rw [if_neg fits, if_pos (by omega)]

theorem substringWords?_eq {text : String} (small : text.length < 2 ^ 63) (start : Int64)
    (length : Option Int64) :
    substringWords? text start length = some (substring text start length) := by
  have counted : (UInt64.ofNat text.length).toNat = text.length :=
    UInt64.toNat_ofNat_of_lt' (Nat.lt_trans small (by decide))
  simp only [substringWords?, substring, word?_filter, counted, String.length_toList,
    List.length_drop]
  by_cases outside : start.toInt < 0 ∨ (text.length : Int) < start.toInt
  · simp only [if_pos outside]
    rfl
  · have first : start.toUInt64.toNat = start.toInt.toNat := toNat_word (by omega)
    have starts : start.toUInt64 ≤ UInt64.ofNat text.length := by
      rw [UInt64.le_iff_toNat_le, counted, first]
      omega
    have room : (UInt64.ofNat text.length - start.toUInt64).toNat =
        text.length - start.toInt.toNat := by
      rw [UInt64.toNat_sub_of_le _ _ starts, counted, first]
    simp only [if_neg outside, difference?, if_pos starts, Option.bind_eq_bind, Option.bind_some]
    cases length with
    | none =>
        rw [first, room, List.take_of_length_le (by rw [List.length_drop, String.length_toList])]
        rfl
    | some length =>
        simp only [room]
        by_cases past : length.toInt < 0 ∨
            ((text.length - start.toInt.toNat : Nat) : Int) < length.toInt
        · simp only [if_pos past, toInt_addSaturating]
          rfl
        · have taken : length.toUInt64.toNat = length.toInt.toNat := toNat_word (by omega)
          simp only [if_neg past, first, taken]
          rfl

end Words

end Builtin

namespace Value

open Builtin

variable {κ : Type} (call : Caller κ) (text : String)

theorem member_length : member call (.string text) "Length" = pure (.int (.ofNat text.length)) := by
  rfl

/-- A text is its first characters and the rest. -/
theorem take_append_rest {position : Int} (within : Within text position (text.length - position)) :
    String.ofList ((text.toList.drop (0 : Int).toNat).take position.toNat) ++
      String.ofList ((text.toList.drop position.toNat).take (text.length - position).toNat) =
        text := by
  obtain ⟨_, _, _⟩ := within
  have whole : (text.toList.drop position.toNat).length ≤ (text.length - position).toNat := by
    rw [List.length_drop, String.length_toList]
    omega
  rw [← String.toList_inj, String.toList_append, String.toList_ofList, String.toList_ofList,
    List.take_of_length_le whole]
  exact List.take_append_drop ..

/-- Length, items and parts of a text agree on its characters. A text shorter than 2^63 characters
tells its length. Asking for a part succeeds exactly if the part is there, without a sum or a
difference that leaves its range on the way; the part has the length asked for; the rest of the text
and a single character are parts too; and the text is the sum of its beginning and the rest. -/
theorem slices_agree (small : text.length < 2 ^ 63) :
    let substring (bounds : List Int64) : Eval κ Value :=
      method call (.string text) "Substring" (bounds.map .int)
    let charAt (position : Int64) : Eval κ Value := item call (.string text) [.int position]
    ∃ length : Int64, length.toInt = text.length ∧
      member call (.string text) "Length" = pure (.int length) ∧
      ∀ i j : Int64,
        Cuts text i.toInt j.toInt (substring [i, j]) ∧
        (∀ part, substring [i, j] = pure (.string part) →
          member call (.string part) "Length" = pure (.int j)) ∧
        Cuts text i.toInt (length.toInt - i.toInt) (substring [i]) ∧
        (0 ≤ i.toInt ∧ i.toInt ≤ length.toInt →
          (length - i).toInt = length.toInt - i.toInt ∧
            substring [i] = substring [i, length - i]) ∧
        Cuts text i.toInt 1 (charAt i) ∧
        (0 ≤ i.toInt ∧ i.toInt < length.toInt → charAt i = substring [i, 1]) ∧
        (0 ≤ i.toInt ∧ i.toInt ≤ length.toInt →
          ∃ front back, substring [0, i] = pure front ∧ substring [i] = pure back ∧
            binary .add front back = .ok (.string text)) ∧
        (∃ result, substringWords? text i (some j) = some result ∧
          substring [i, j] = liftM result) ∧
        (∃ result, substringWords? text i none = some result ∧ substring [i] = liftM result) := by
  intro substring charAt
  have told : (Int64.ofNat text.length).toInt = text.length := Int64.toInt_ofNat_of_lt small
  refine ⟨.ofNat text.length, told, member_length call text, fun i j => ?_⟩
  have part (i j : Int64) : Cuts text i.toInt j.toInt (substring [i, j]) := cuts_substring text i j
  have rest : Cuts text i.toInt (text.length - i.toInt) (substring [i]) := cuts_rest text i
  have single : Cuts text i.toInt 1 (charAt i) := cuts_charAt text i
  rw [told]
  refine ⟨part i j, fun found ran => ?_, rest, ?_, single, ?_, ?_,
    ⟨_, substringWords?_eq small i (some j), rfl⟩, ⟨_, substringWords?_eq small i none, rfl⟩⟩
  · obtain ⟨counted, shorter⟩ := (part i j).length_eq ran
    have same : Int64.ofNat found.length = j := by
      rw [← Int64.toInt_inj, Int64.toInt_ofNat_of_lt (Nat.lt_of_le_of_lt shorter small), counted]
    rw [member_length, same]
  · rintro ⟨lower, upper⟩
    have remains : (Int64.ofNat text.length - i).toInt = text.length - i.toInt := by
      rw [Int64.toInt_sub, told, Int.bmod_eq_of_le (by omega) (by omega)]
    have within : Within text i.toInt (text.length - i.toInt) := ⟨lower, by omega, by omega⟩
    refine ⟨remains, (rest.eq_pure within).trans ?_⟩
    have asked := part i (Int64.ofNat text.length - i)
    rw [remains] at asked
    exact (asked.eq_pure within).symm
  · rintro ⟨lower, upper⟩
    have within : Within text i.toInt 1 := ⟨lower, by omega, by omega⟩
    exact (single.eq_pure within).trans ((part i 1).eq_pure within).symm
  · rintro ⟨lower, upper⟩
    have within : Within text i.toInt (text.length - i.toInt) := ⟨lower, by omega, by omega⟩
    have begins : Within text 0 i.toInt := ⟨by omega, by omega, by omega⟩
    refine ⟨_, _, (part 0 i).eq_pure begins, rest.eq_pure within, ?_⟩
    exact congrArg (fun whole => Except.ok (Value.string whole)) (take_append_rest text within)

/-- Letters that take two bytes count once. -/
theorem slices_agree_accented :
    "naïveté".length < 2 ^ 63 ∧
      method callFunction (.string "naïveté") "Substring" [.int 3] =
        method callFunction (.string "naïveté") "Substring" [.int 3, .int 4] ∧
      item callFunction (.string "naïveté") [.int 2] =
        method callFunction (.string "naïveté") "Substring" [.int 2, .int 1] ∧
      ∃ position,
        method callFunction (.string "naïveté") "Substring" [.int 3, .int Int64.maxValue] =
          throw (.failure (.indexOutOfRange position 7)) := by
  have small : "naïveté".length < 2 ^ 63 := by decide
  obtain ⟨length, told, -, agree⟩ := slices_agree callFunction "naïveté" small
  obtain rfl : length = 7 := Int64.toInt_inj.mp told
  obtain ⟨cuts, -, -, rest, -⟩ := agree 3 Int64.maxValue
  obtain ⟨-, -, -, -, -, single, -⟩ := agree 2 1
  refine ⟨small, (rest (by decide)).2, single (by decide), ?_⟩
  rcases cuts with ⟨⟨-, -, ends⟩, -⟩ | ⟨-, failed⟩
  · exact absurd ends (by decide)
  · exact failed

end Value

end Tether

import Tether.Proofs.Agreement
import Tether.Proofs.StandardBuild

set_option autoImplicit false

/- The static type of a fragment tells the truth about every value that its code ends with. -/
namespace Tether

namespace Value

/-- No host object passes for a value of a built-in type other than `object`. -/
def Honest : Value → Prop
  | .object handle => handle.tag = .object ∨ handle.tag.name? = none
  | _ => True

/-- A value that a static type admits: `object` admits all, another type the values of that type,
and null too if the type is `nullable`. -/
def Fits (nullable : TypeTag → Prop) (tag : TypeTag) (value : Value) : Prop :=
  tag = .object ∨ (value.tag = tag ∧ value.Honest) ∨ (value = .null ∧ nullable tag)

variable {nullable : TypeTag → Prop} {tag : TypeTag} {value result : Value}

theorem fits_object : value.Fits nullable .object := .inl rfl

theorem fits_of_tag (same : value.tag = tag) (honest : value.Honest) : value.Fits nullable tag :=
  .inr (.inl ⟨same, honest⟩)

/-- A built-in type admits no host object. -/
theorem Fits.not_object (fits : value.Fits nullable tag) (typed : tag ≠ .object)
    (builtin : tag.name?.isSome) (handle : ObjectRef) : value ≠ .object handle := by
  rintro rfl
  obtain dynamic | ⟨same, foreign⟩ | ⟨null, -⟩ := fits
  · exact typed dynamic
  · change handle.tag = tag at same
    rw [Honest, same] at foreign
    rcases foreign with dynamic | unnamed
    · exact typed dynamic
    · rw [unnamed] at builtin
      cases builtin
  · cases null

theorem Fits.builtin (fits : value.Fits nullable tag) (typed : tag ≠ .object)
    (builtin : tag.name?.isSome) :
    (value = .null ∧ nullable tag) ∨ (value.tag = tag ∧ ∀ handle, value ≠ .object handle) := by
  have foreign := fits.not_object typed builtin
  obtain dynamic | ⟨same, -⟩ | null := fits
  · exact absurd dynamic typed
  · exact .inr ⟨same, foreign⟩
  · exact .inl null

theorem Fits.int (fits : value.Fits nullable .int) :
    value = .null ∨ ∃ number, value = .int number := by
  obtain ⟨null, -⟩ | ⟨same, foreign⟩ := fits.builtin (by decide) (by decide)
  · exact .inl null
  · cases value with
    | int number => exact .inr ⟨number, rfl⟩
    | object handle => exact absurd rfl (foreign handle)
    | null | bool | double | string | list | function => cases same

theorem Fits.double (fits : value.Fits nullable .double) :
    value = .null ∨ ∃ number, value = .double number := by
  obtain ⟨null, -⟩ | ⟨same, foreign⟩ := fits.builtin (by decide) (by decide)
  · exact .inl null
  · cases value with
    | double number => exact .inr ⟨number, rfl⟩
    | object handle => exact absurd rfl (foreign handle)
    | null | bool | int | string | list | function => cases same

theorem Fits.string (fits : value.Fits nullable .string) :
    (value = .null ∧ nullable .string) ∨ ∃ text, value = .string text := by
  obtain null | ⟨same, foreign⟩ := fits.builtin (by decide) (by decide)
  · exact .inl null
  · cases value with
    | string text => exact .inr ⟨text, rfl⟩
    | object handle => exact absurd rfl (foreign handle)
    | null | bool | int | double | list | function => cases same

/-- A number, or null for want of one. -/
def Numeric (value : Value) : Prop :=
  value = .null ∨ ∃ number, value.asDouble? = some number

theorem Fits.numeric (fits : value.Fits nullable tag) (numeric : tag.isNumeric) :
    value.Numeric := by
  have tags : tag = .int ∨ tag = .double := by simpa [TypeTag.isNumeric] using numeric
  rcases tags with rfl | rfl
  · obtain null | ⟨number, rfl⟩ := fits.int
    · exact .inl null
    · exact .inr ⟨_, rfl⟩
  · obtain null | ⟨number, rfl⟩ := fits.double
    · exact .inl null
    · exact .inr ⟨_, rfl⟩

/-- Of a value and the type it is converted to, nothing but null can differ. -/
theorem convert_fits (honest : value.Honest)
    (nulls : tag.isValueType = false → value = .null → nullable tag)
    (converted : value.convert tag = .ok result) : result.Fits nullable tag := by
  simp only [convert] at converted
  split at converted
  · rename_i kept
    cases converted
    rcases (by simpa using kept : tag = .object ∨ value.tag = tag) with rfl | same
    · exact fits_object
    · exact fits_of_tag same honest
  · split at converted
    · split at converted
      · rename_i double
        cases converted
        exact fits_of_tag (eq_of_beq double).symm trivial
      · cases converted
    · split at converted
      · cases converted
      · rename_i reference
        cases converted
        exact .inr (.inr ⟨rfl, nulls (by simpa using reference) rfl⟩)
    · cases converted

theorem Fits.tag_eq (fits : value.Fits nullable tag) (typed : tag ≠ .object)
    (present : value ≠ .null) : value.tag = tag := by
  obtain dynamic | ⟨same, -⟩ | ⟨null, -⟩ := fits
  · exact absurd dynamic typed
  · exact same
  · exact absurd null present

theorem unary_fits {op : UnaryOp} (fits : value.Fits nullable tag) {type : TypeTag}
    (defined : Builder.unaryType? op tag = some type)
    (computed : value.unary op = .ok result) : result.Fits nullable type := by
  by_cases dynamic : tag = .object
  · simp only [Builder.unaryType?, dynamic, beq_self_eq_true, if_true] at defined
    cases defined
    simp only [unary] at computed
    split at computed <;> cases computed
    · exact fits_object
    · exact fits_object
    · exact fits_of_tag rfl trivial
    · exact fits_object
  · simp only [Builder.unaryType?, beq_iff_eq, dynamic, if_false] at defined
    simp only [unary] at computed
    split at computed <;> cases computed
    · simp only [Option.ite_none_right_eq_some] at defined
      cases defined.2
      exact fits_of_tag (fits.tag_eq dynamic nofun) trivial
    · simp only [Option.ite_none_right_eq_some] at defined
      cases defined.2
      exact fits_of_tag (fits.tag_eq dynamic nofun) trivial
    · simp only [Option.ite_none_right_eq_some] at defined
      cases defined.2
      exact fits_of_tag rfl trivial
    · simp only [Option.ite_none_right_eq_some] at defined
      cases defined.2
      exact fits_of_tag rfl trivial

theorem unary_honest {op : UnaryOp} (computed : value.unary op = .ok result) : result.Honest := by
  simp only [unary] at computed
  split at computed <;> cases computed <;> trivial

theorem intBinary_tag {op : BinaryOp} {a b : Int64} (computed : intBinary op a b = .ok result) :
    ∃ number, result = .int number := by
  cases op with
  | div | rem =>
      simp only [intBinary] at computed
      split at computed <;> cases computed
      exact ⟨_, rfl⟩
  | _ => cases computed <;> exact ⟨_, rfl⟩

theorem doubleBinary_tag {op : BinaryOp} {a b : Float}
    (computed : doubleBinary op a b = .ok result) : ∃ number, result = .double number := by
  simp only [doubleBinary] at computed
  split at computed <;> cases computed <;> exact ⟨_, rfl⟩

theorem boolBinary_tag {op : BinaryOp} {a b : Bool}
    (computed : boolBinary op a b = .ok result) : ∃ flag, result = .bool flag := by
  simp only [boolBinary] at computed
  split at computed <;> cases computed <;> exact ⟨_, rfl⟩

/-- How an operator that computes a new value came to its result. -/
theorem combine_cases {op : BinaryOp} {left right : Value}
    (computed : combine op left right = .ok result) :
    (∃ a b, left = .int a ∧ right = .int b ∧ intBinary op a b = .ok result) ∨
    (∃ a b, left = .bool a ∧ right = .bool b ∧ boolBinary op a b = .ok result) ∨
    (((∃ text, left = .string text) ∨ ∃ text, right = .string text) ∧
      result = concat left right) ∨
    ∃ a b, left.asDouble? = some a ∧ right.asDouble? = some b ∧
      doubleBinary op a b = .ok result := by
  have numeric (computed : combineNumbers op left right = .ok result) :
      ∃ a b, left.asDouble? = some a ∧ right.asDouble? = some b ∧
        doubleBinary op a b = .ok result := by
    simp only [combineNumbers] at computed
    split at computed
    · rename_i a b first second
      exact ⟨a, b, first, second, computed⟩
    · cases computed
  simp only [combine] at computed
  split at computed
  · exact .inl ⟨_, _, rfl, rfl, computed⟩
  · exact .inr (.inl ⟨_, _, rfl, rfl, computed⟩)
  · split at computed
    · cases computed
      exact .inr (.inr (.inl ⟨.inl ⟨_, rfl⟩, rfl⟩))
    · exact .inr (.inr (.inr (numeric computed)))
  · split at computed
    · cases computed
      exact .inr (.inr (.inl ⟨.inr ⟨_, rfl⟩, rfl⟩))
    · exact .inr (.inr (.inr (numeric computed)))
  · exact .inr (.inr (.inr (numeric computed)))

theorem combine_numeric {op : BinaryOp} {left right : Value} (leftNumeric : left.Numeric)
    (rightNumeric : right.Numeric) (computed : combine op left right = .ok result) :
    ∃ a b, left.asDouble? = some a ∧ right.asDouble? = some b := by
  obtain ⟨a, b, rfl, rfl, -⟩ | ⟨a, b, rfl, rfl, -⟩ | ⟨text, -⟩ | ⟨a, b, first, second, -⟩ :=
    combine_cases computed
  · exact ⟨_, _, rfl, rfl⟩
  · rcases leftNumeric with null | ⟨number, found⟩
    · cases null
    · cases found
  · obtain ⟨text, rfl⟩ | ⟨text, rfl⟩ := text
    · rcases leftNumeric with null | ⟨number, found⟩
      · cases null
      · cases found
    · rcases rightNumeric with null | ⟨number, found⟩
      · cases null
      · cases found
  · exact ⟨a, b, first, second⟩

theorem combine_honest {op : BinaryOp} {left right : Value}
    (computed : combine op left right = .ok result) : result.Honest := by
  obtain ⟨a, b, -, -, computed⟩ | ⟨a, b, -, -, computed⟩ | ⟨-, rfl⟩ | ⟨a, b, -, -, computed⟩ :=
    combine_cases computed
  · obtain ⟨number, rfl⟩ := intBinary_tag computed
    trivial
  · obtain ⟨flag, rfl⟩ := boolBinary_tag computed
    trivial
  · trivial
  · obtain ⟨number, rfl⟩ := doubleBinary_tag computed
    trivial

end Value

/-- Operators that compute a new value from both operands. -/
def BinaryOp.Computes (op : BinaryOp) : Prop :=
  op.isShortCircuit = false ∧ op.isComparison = false

theorem BinaryOp.sort (op : BinaryOp) :
    op = .and ∨ op = .or ∨ op = .coalesce ∨ op.isComparison ∨ op.Computes := by
  cases op with
  | and => exact .inl rfl
  | or => exact .inr (.inl rfl)
  | coalesce => exact .inr (.inr (.inl rfl))
  | equal | notEqual | less | lessEqual | greater | greaterEqual =>
      exact .inr (.inr (.inr (.inl rfl)))
  | bitOr | bitXor | bitAnd | shiftLeft | shiftRight | add | sub | mul | div | rem =>
      exact .inr (.inr (.inr (.inr ⟨rfl, rfl⟩)))

namespace Value

variable {op : BinaryOp} {left right result : Value}

theorem binary_of_computes (computes : op.Computes) (left right : Value) :
    binary op left right = combine op left right := by
  obtain ⟨strict, computes⟩ := computes
  cases op with
  | and | or | coalesce => cases strict
  | _ => simp only [binary, computes, Bool.false_eq_true, if_false]

theorem binary_of_comparison (compares : op.isComparison) (left right : Value) :
    binary op left right = (compare op left right).map .bool := by
  cases op with
  | equal | notEqual | less | lessEqual | greater | greaterEqual => rfl
  | _ => cases compares

theorem binary_honest (leftHonest : left.Honest) (rightHonest : right.Honest)
    (computed : binary op left right = .ok result) : result.Honest := by
  obtain rfl | rfl | rfl | compares | computes := op.sort
  · obtain ⟨flag, -, rest⟩ := ok_of_bind computed
    cases flag with
    | true =>
        obtain ⟨second, -, ended⟩ := ok_of_bind rest
        cases ended
        trivial
    | false =>
        cases rest
        trivial
  · obtain ⟨flag, -, rest⟩ := ok_of_bind computed
    cases flag with
    | true =>
        cases rest
        trivial
    | false =>
        obtain ⟨second, -, ended⟩ := ok_of_bind rest
        cases ended
        trivial
  · simp only [binary, Except.ok.injEq] at computed
    subst computed
    split
    · exact rightHonest
    · exact leftHonest
  · rw [binary_of_comparison compares] at computed
    cases answer : compare op left right with
    | ok flag =>
        rw [answer] at computed
        cases computed
        trivial
    | error error =>
        rw [answer] at computed
        cases computed
  · rw [binary_of_computes computes] at computed
    exact combine_honest computed

section Access

variable {κ : Type} {caller : Caller κ} {value : Value} {nullable : TypeTag → Prop} {tag : TypeTag}

/-- The only built-in members are lengths. -/
theorem member_int {name : String} (foreign : ∀ handle, value ≠ .object handle)
    (yields : Eval.Yields (value.member caller name) result) : ∃ number, result = .int number := by
  cases value with
  | object handle => exact absurd rfl (foreign handle)
  | string | list =>
      simp only [Value.member] at yields
      split at yields
      · exact ⟨_, (Eval.yields_pure yields).symm⟩
      · exact absurd yields Eval.not_yields_throw
  | null | bool | int | double | function => exact absurd yields Eval.not_yields_throw

theorem charAt_string {text : String} {position : Int64}
    (found : Builtin.charAt text position = .ok result) : ∃ text, result = .string text := by
  simp only [Builtin.charAt] at found
  split at found <;> cases found
  exact ⟨_, rfl⟩

theorem substring_string {text : String} {start : Int64} {length : Option Int64}
    (found : Builtin.substring text start length = .ok result) :
    ∃ text, result = .string text := by
  simp only [Builtin.substring] at found
  split at found
  · cases found
  · split at found
    · cases found
      exact ⟨_, rfl⟩
    · split at found <;> cases found
      exact ⟨_, rfl⟩

theorem item_string {arguments : List Value}
    (textual : value = .null ∨ ∃ text, value = .string text)
    (yields : Eval.Yields (value.item caller arguments) result) :
    ∃ text, result = .string text := by
  obtain rfl | ⟨text, rfl⟩ := textual
  · exact absurd yields Eval.not_yields_throw
  · simp only [Value.item] at yields
    split at yields
    case h_4 => exact charAt_string (Eval.yields_lift yields)
    case h_5 => exact absurd yields Eval.not_yields_throw
    all_goals contradiction

theorem fits_unless {test : Prop} [Decidable test] (fits : result.Fits nullable tag) :
    result.Fits nullable (if test then .object else tag) := by
  split
  · exact fits_object
  · exact fits

theorem commonMethod_fits {name : String} {arguments : List Value}
    (found : value.commonMethod? name arguments = some result) :
    result.Fits nullable (Builder.methodType tag name) := by
  revert found
  fun_cases Value.commonMethod? value name arguments with
  | case1 =>
      rintro ⟨⟩
      exact fits_unless (fits_of_tag rfl trivial)
  | case2 other =>
      rintro ⟨⟩
      exact fits_unless (fits_of_tag rfl trivial)
  | case3 => nofun

theorem stringMethod_fits {text name : String} {arguments : List Value}
    (found : Builtin.stringMethod? text name arguments = some (.ok result)) :
    result.Fits nullable (Builder.methodType tag name) := by
  revert found
  fun_cases Builtin.stringMethod? text name arguments with
  | case7 start =>
      intro found
      obtain ⟨part, rfl⟩ := substring_string (Option.some.inj found)
      exact fits_unless (fits_of_tag rfl trivial)
  | case8 start length =>
      intro found
      obtain ⟨part, rfl⟩ := substring_string (Option.some.inj found)
      exact fits_unless (fits_of_tag rfl trivial)
  | case9 => nofun
  | _ =>
      rintro ⟨⟩
      exact fits_unless (fits_of_tag rfl trivial)

theorem yields_map {α β : Type} {f : α → β} {run : Eval κ α} {found : β}
    (yields : Eval.Yields (f <$> run) found) : ∃ value, f value = found := by
  rw [map_eq_pure_bind] at yields
  obtain ⟨value, -, ended⟩ := Eval.yields_bind yields
  exact ⟨value, Eval.yields_pure ended⟩

theorem listMethod_fits {items : List Value} {name : String} {arguments : List Value}
    {run : Eval κ Value} (found : Builtin.listMethod? caller items name arguments = some run)
    (yields : Eval.Yields run result) : result.Fits nullable (Builder.methodType tag name) := by
  revert found
  fun_cases Builtin.listMethod? caller items name arguments with
  | case1 | case2 =>
      rintro ⟨⟩
      cases Eval.yields_pure yields
      exact fits_unless (fits_of_tag rfl trivial)
  | case3 | case4 | case5 => exact fun _ => fits_unless fits_object
  | case6 handle =>
      rintro ⟨⟩
      obtain ⟨flag, rfl⟩ := yields_map yields
      exact fits_unless (fits_of_tag rfl trivial)
  | case7 =>
      intro found
      cases found

/-- The type of a built-in method, whatever built-in value it belongs to. -/
theorem builtinMethod_fits {name : String} {arguments : List Value} {run : Eval κ Value}
    (found : value.builtinMethod? caller name arguments = some run)
    (yields : Eval.Yields run result) : result.Fits nullable (Builder.methodType tag name) := by
  simp only [Value.builtinMethod?] at found
  split at found
  · rename_i common
    cases found
    cases Eval.yields_pure yields
    exact commonMethod_fits common
  · split at found
    · obtain ⟨answer, listed, rfl⟩ := Option.map_eq_some_iff.mp found
      rw [Eval.yields_lift yields] at listed
      exact stringMethod_fits listed
    · exact listMethod_fits found yields
    · cases found

theorem method_fits {name : String} {arguments : List Value} (fits : value.Fits nullable tag)
    (yields : Eval.Yields (value.method caller name arguments) result) :
    result.Fits nullable (Builder.methodType tag name) := by
  by_cases dynamic : tag = .object ∨ tag.name?.isNone
  · have untyped : Builder.methodType tag name = .object := by
      unfold Builder.methodType
      exact if_pos (by simpa using dynamic)
    rw [untyped]
    exact fits_object
  have foreign := fits.not_object (fun same => dynamic (.inl same))
    (Option.isSome_iff_ne_none.mpr fun unnamed => dynamic (.inr (by rw [unnamed]; rfl)))
  have builtin (yields : Eval.Yields (value.builtinMethod caller name arguments) result) :
      result.Fits nullable (Builder.methodType tag name) := by
    simp only [builtinMethod] at yields
    split at yields
    · rename_i found
      exact builtinMethod_fits found yields
    · exact absurd yields Eval.not_yields_throw
  cases value with
  | object handle => exact absurd rfl (foreign handle)
  | null => exact absurd yields Eval.not_yields_throw
  | function handle =>
      simp only [Value.method] at yields
      split at yields
      · rename_i invoked
        rw [eq_of_beq invoked]
        exact fits_unless fits_object
      · exact builtin yields
  | bool | int | double | string | list => exact builtin yields

end Access

end Value

namespace Fragment

variable (nullable : TypeTag → Prop) (slots : List Value)

/-- Every value that the fragment can end with in a call with the given slots fits its type, and
a known value is the one that it ends with. -/
structure Sound (fragment : Fragment) : Prop where
  fits {κ : Type} (keep : Closure → κ) (caller : Caller κ) (frame : Frame)
    (here : frame.slots = slots) (value : Value)
    (yields : Eval.Yields (fragment.code.eval keep caller frame) value) :
    value.Fits nullable fragment.tag
  known (value : Value) (constant : fragment.constant = some value) :
    fragment.code = .constant value ∧ value.Honest

variable {nullable slots}

theorem sound_ofValue {value : Value} (honest : value.Honest) :
    (ofValue value).Sound nullable slots where
  fits keep caller frame here result yields := by
    cases Eval.yields_pure yields
    exact Value.fits_of_tag rfl honest
  known found constant := by
    cases constant
    exact ⟨rfl, honest⟩

theorem sound_object (code : Code) :
    Sound nullable slots { tag := .object, code } where
  fits _ _ _ _ _ _ := Value.fits_object
  known := nofun

theorem sound_ofSlot {position : Nat} {tag : TypeTag}
    (honest : (slots.getD position .null).Honest)
    (nulls : tag.isValueType = false → slots.getD position .null = .null → nullable tag) :
    (ofSlot position tag).Sound nullable slots where
  fits keep caller frame here value yields := by
    simp only [ofSlot, Code.eval, Frame.slot, here] at yields ⊢
    exact Value.fits_unless (Value.convert_fits honest nulls (Eval.yields_lift yields))
  known := nofun

end Fragment

namespace Builder

open Fragment

variable {nullable : TypeTag → Prop} {slots : List Value} {first second third : Fragment}

theorem fits_joinTypes {value : Value} {left right : TypeTag}
    (fits : value.Fits nullable left ∨ value.Fits nullable right) :
    value.Fits nullable (joinTypes left right) := by
  unfold joinTypes
  split
  · rename_i same
    rw [← eq_of_beq same, or_self] at fits
    exact fits
  · exact Value.fits_object

theorem sound_branch (test : Fragment) (whenTrue : first.Sound nullable slots)
    (whenFalse : second.Sound nullable slots) :
    (branch test first second).Sound nullable slots := by
  unfold branch
  split
  · split
    · exact whenTrue
    · exact whenFalse
  · refine ⟨fun keep caller frame here value yields => ?_, nofun⟩
    obtain ⟨tested, -, yields⟩ := Eval.yields_bind yields
    obtain ⟨flag, -, yields⟩ := Eval.yields_bind yields
    apply fits_joinTypes
    cases flag with
    | true => exact .inl (whenTrue.fits keep caller frame here value yields)
    | false => exact .inr (whenFalse.fits keep caller frame here value yields)

theorem sound_applyUnary {expression : String} {op : UnaryOp} {result : Fragment}
    (operand : first.Sound nullable slots)
    (applied : applyUnary expression op first = .ok result) : result.Sound nullable slots := by
  simp only [applyUnary] at applied
  split at applied
  · cases applied
  · rename_i tag defined
    split at applied
    · rename_i folded computed
      cases applied
      obtain ⟨value, -, computed⟩ := Option.map_eq_some_iff.mp computed
      exact sound_ofValue (Value.unary_honest computed)
    · cases applied
      refine ⟨fun keep caller frame here value yields => ?_, nofun⟩
      obtain ⟨argument, yielded, yields⟩ := Eval.yields_bind yields
      exact Value.unary_fits (operand.fits keep caller frame here argument yielded) defined
        (Eval.yields_lift yields)

theorem combine_of_comparison {op : BinaryOp} (compares : op.isComparison) (expression : String)
    (left right : Fragment) : combine expression op left right =
      .ok { tag := .bool, code := .compare op left.code right.code } := by
  cases op with
  | equal | notEqual | less | lessEqual | greater | greaterEqual => rfl
  | _ => cases compares

theorem combine_of_computes {op : BinaryOp} (computes : op.Computes) (expression : String)
    (left right : Fragment) :
    combine expression op left right = specialize expression op left right := by
  obtain ⟨strict, computes⟩ := computes
  cases op with
  | and | or | coalesce => cases strict
  | _ => simp only [combine, computes, Bool.false_eq_true, if_false]

theorem combineInts_int {op : BinaryOp} (computes : op.Computes) {left right result : Value}
    (leftFits : left.Fits nullable .int) (rightFits : right.Fits nullable .int)
    (computed : Code.combineInts op left right = .ok result) :
    ∃ number, result = .int number := by
  simp only [Code.combineInts] at computed
  split at computed
  · exact Value.intBinary_tag computed
  · rename_i apart
    rw [Value.binary_of_computes computes] at computed
    obtain ⟨a, b, first, second⟩ :=
      Value.combine_numeric (leftFits.numeric rfl) (rightFits.numeric rfl) computed
    obtain rfl | ⟨m, rfl⟩ := leftFits.int
    · cases first
    · obtain rfl | ⟨n, rfl⟩ := rightFits.int
      · cases second
      · exact (apart m n rfl rfl).elim

theorem combineDoubles_double {op : BinaryOp} (computes : op.Computes) {left right result : Value}
    (leftNumeric : left.Numeric) (rightNumeric : right.Numeric)
    (computed : Code.combineDoubles op left right = .ok result) :
    ∃ number, result = .double number := by
  simp only [Code.combineDoubles] at computed
  split at computed
  · exact Value.doubleBinary_tag computed
  · rename_i apart
    rw [Value.binary_of_computes computes] at computed
    obtain ⟨a, b, first, second⟩ := Value.combine_numeric leftNumeric rightNumeric computed
    exact (apart a b first second).elim

theorem sound_specialize {expression : String} {op : BinaryOp} {result : Fragment}
    (computes : op.Computes) (left : first.Sound nullable slots)
    (right : second.Sound nullable slots)
    (applied : specialize expression op first second = .ok result) :
    result.Sound nullable slots := by
  simp only [specialize] at applied
  split at applied
  · cases applied
  split at applied
  · rename_i ints
    simp only [Bool.and_eq_true, beq_iff_eq] at ints
    cases applied
    refine ⟨fun keep caller frame here value yields => ?_, nofun⟩
    obtain ⟨leftValue, leftYields, yields⟩ := Eval.yields_bind yields
    obtain ⟨rightValue, rightYields, yields⟩ := Eval.yields_bind yields
    have leftFits := left.fits keep caller frame here leftValue leftYields
    have rightFits := right.fits keep caller frame here rightValue rightYields
    rw [ints.1] at leftFits
    rw [ints.2] at rightFits
    obtain ⟨number, rfl⟩ := combineInts_int computes leftFits rightFits (Eval.yields_lift yields)
    exact Value.fits_of_tag rfl trivial
  split at applied
  · rename_i numbers
    simp only [Bool.and_eq_true] at numbers
    cases applied
    refine ⟨fun keep caller frame here value yields => ?_, nofun⟩
    obtain ⟨leftValue, leftYields, yields⟩ := Eval.yields_bind yields
    obtain ⟨rightValue, rightYields, yields⟩ := Eval.yields_bind yields
    have leftFits := left.fits keep caller frame here leftValue leftYields
    have rightFits := right.fits keep caller frame here rightValue rightYields
    obtain ⟨number, rfl⟩ := combineDoubles_double computes (leftFits.numeric numbers.1.2)
      (rightFits.numeric numbers.2) (Eval.yields_lift yields)
    exact Value.fits_of_tag rfl trivial
  split at applied
  · cases applied
    refine ⟨fun keep caller frame here value yields => ?_, nofun⟩
    obtain ⟨leftValue, -, yields⟩ := Eval.yields_bind yields
    obtain ⟨rightValue, -, yields⟩ := Eval.yields_bind yields
    cases Eval.yields_pure yields
    exact Value.fits_of_tag rfl trivial
  · cases applied
    exact sound_object _

theorem fits_logical {κ : Type} {keep : Closure → κ} {caller : Caller κ} {frame : Frame}
    {stopOn : Bool} {left right : Code} {value : Value}
    (yields : Eval.Yields (Code.eval keep caller frame (.logical stopOn left right)) value) :
    value.Fits nullable .bool := by
  simp only [Code.eval] at yields
  obtain ⟨leftValue, -, yields⟩ := Eval.yields_bind yields
  obtain ⟨flag, -, yields⟩ := Eval.yields_bind yields
  split at yields
  · cases Eval.yields_pure yields
    exact Value.fits_of_tag rfl trivial
  · obtain ⟨rightValue, -, yields⟩ := Eval.yields_bind yields
    obtain ⟨flag, -, yields⟩ := Eval.yields_bind yields
    cases Eval.yields_pure yields
    exact Value.fits_of_tag rfl trivial

theorem sound_combine {expression : String} {op : BinaryOp} {result : Fragment}
    (left : first.Sound nullable slots) (right : second.Sound nullable slots)
    (applied : combine expression op first second = .ok result) :
    result.Sound nullable slots := by
  obtain rfl | rfl | rfl | compares | computes := op.sort
  · obtain ⟨-, -, applied⟩ := ok_of_bind applied
    obtain ⟨-, -, applied⟩ := ok_of_bind applied
    cases applied
    exact ⟨fun keep caller frame here value yields => fits_logical yields, nofun⟩
  · obtain ⟨-, -, applied⟩ := ok_of_bind applied
    obtain ⟨-, -, applied⟩ := ok_of_bind applied
    cases applied
    exact ⟨fun keep caller frame here value yields => fits_logical yields, nofun⟩
  · cases applied
    refine ⟨fun keep caller frame here value yields => ?_, nofun⟩
    obtain ⟨found, yielded, yields⟩ := Eval.yields_bind yields
    apply fits_joinTypes
    split at yields
    · exact .inr (right.fits keep caller frame here value yields)
    · cases Eval.yields_pure yields
      exact .inl (left.fits keep caller frame here value yielded)
  · rw [combine_of_comparison compares] at applied
    cases applied
    refine ⟨fun keep caller frame here value yields => ?_, nofun⟩
    obtain ⟨leftValue, -, yields⟩ := Eval.yields_bind yields
    obtain ⟨rightValue, -, yields⟩ := Eval.yields_bind yields
    obtain ⟨flag, -, yields⟩ := Eval.yields_bind yields
    cases Eval.yields_pure yields
    exact Value.fits_of_tag rfl trivial
  · rw [combine_of_computes computes] at applied
    exact sound_specialize computes left right applied

theorem foldBinary?_eq_some {op : BinaryOp} {folded : Value}
    (found : foldBinary? op first second = some folded) :
    ∃ a b, first.constant = some a ∧ second.constant = some b ∧
      Value.binary op a b = .ok folded := by
  simp only [foldBinary?] at found
  split at found
  · rename_i a b left right
    refine ⟨a, b, left, right, ?_⟩
    cases computed : Value.binary op a b with
    | ok value =>
        rw [computed] at found
        cases found
        rfl
    | error error =>
        rw [computed] at found
        cases found
  · cases found

theorem sound_applyBinary {expression : String} {op : BinaryOp} {result : Fragment}
    (left : first.Sound nullable slots) (right : second.Sound nullable slots)
    (applied : applyBinary expression op first second = .ok result) :
    result.Sound nullable slots := by
  simp only [applyBinary] at applied
  split at applied
  · rename_i folded found
    cases applied
    obtain ⟨a, b, leftKnown, rightKnown, computed⟩ := foldBinary?_eq_some found
    exact sound_ofValue (Value.binary_honest (left.known a leftKnown).2
      (right.known b rightKnown).2 computed)
  · exact sound_combine left right applied

theorem sound_member (target : first.Sound nullable slots) (name : String) :
    Sound nullable slots
      { tag := memberType first.tag name, code := .member first.code name } := by
  refine ⟨fun keep caller frame here value yields => ?_, nofun⟩
  obtain ⟨owner, owned, yields⟩ := Eval.yields_bind yields
  have fits := target.fits keep caller frame here owner owned
  simp only [memberType]
  split
  · rename_i counted
    have tags : first.tag = .string ∨ first.tag = .list := by
      simp only [Bool.and_eq_true, Bool.or_eq_true, beq_iff_eq] at counted
      exact counted.1
    have foreign : ∀ handle, owner ≠ .object handle := by
      rcases tags with same | same
      · exact fits.not_object (by rw [same]; decide) (by rw [same]; decide)
      · exact fits.not_object (by rw [same]; decide) (by rw [same]; decide)
    obtain ⟨number, rfl⟩ := Value.member_int foreign yields
    exact Value.fits_of_tag rfl trivial
  · exact Value.fits_object

theorem sound_index (target : first.Sound nullable slots) (arguments : List Code) :
    Sound nullable slots
      { tag := if first.tag == .string then .string else .object
        code := .index first.code arguments } := by
  refine ⟨fun keep caller frame here value yields => ?_, nofun⟩
  obtain ⟨owner, owned, yields⟩ := Eval.yields_bind yields
  obtain ⟨values, -, yields⟩ := Eval.yields_bind yields
  have fits := target.fits keep caller frame here owner owned
  dsimp only
  split
  · rename_i textual
    rw [eq_of_beq textual] at fits
    obtain ⟨text, rfl⟩ := Value.item_string (fits.string.imp_left And.left) yields
    exact Value.fits_of_tag rfl trivial
  · exact Value.fits_object

theorem sound_call (target : first.Sound nullable slots) (method : String)
    (arguments : List Code) :
    Sound nullable slots
      { tag := methodType first.tag method, code := .call first.code method arguments } := by
  refine ⟨fun keep caller frame here value yields => ?_, nofun⟩
  obtain ⟨owner, owned, yields⟩ := Eval.yields_bind yields
  obtain ⟨values, -, yields⟩ := Eval.yields_bind yields
  exact Value.method_fits (target.fits keep caller frame here owner owned) yields

theorem sound_lambda (arity : Nat) (body : Code) :
    Sound nullable slots { tag := .function, code := .lambda arity body } := by
  refine ⟨fun keep caller frame here value yields => ?_, nofun⟩
  obtain ⟨handle, -, yields⟩ := Eval.yields_bind yields
  cases Eval.yields_pure yields
  exact Value.fits_of_tag rfl trivial

/-- Every constant in the tree is an honest value. -/
def HonestConstants : Expr → Prop :=
  Expr.Everywhere fun part => ∀ value ∈ part.constant?, value.Honest

section Plan

variable {fallback : Expr → Option Fragment}

theorem sound_planFallback (declared : ∀ expr, ∀ fragment ∈ fallback expr,
    fragment.Sound nullable slots) {expr : Expr} {fragment : Fragment}
    (planned : planFallback fallback expr = .ok fragment) : fragment.Sound nullable slots :=
  declared expr fragment ((planFallback_eq_ok fallback).mp planned)

theorem sound_planName (declared : ∀ expr, ∀ fragment ∈ fallback expr,
    fragment.Sound nullable slots) {expr : Expr} {name : String} {names : List String}
    {fragment : Fragment} (planned : planName fallback expr name names = .ok fragment) :
    fragment.Sound nullable slots := by
  simp only [planName] at planned
  split at planned
  · cases planned
    exact sound_object _
  · exact sound_planFallback declared planned

/-- What the standard builders make of a tree is sound, if the fallback table is. -/
theorem plan_sound (declared : ∀ expr, ∀ fragment ∈ fallback expr,
    fragment.Sound nullable slots) (expr : Expr) (honest : HonestConstants expr)
    {names : List String} {fragment : Fragment}
    (planned : plan fallback expr names = .ok fragment) : fragment.Sound nullable slots := by
  induction expr using Expr.induct generalizing names fragment with
  | constant id value =>
      cases planned
      exact sound_ofValue (honest.here value rfl)
  | parameter id name => exact sound_planName declared planned
  | name id name => exact sound_planName declared planned
  | placeholder id reference => exact sound_planFallback declared planned
  | lambda id parameters body bodyIH =>
      rw [plan_lambda] at planned
      obtain ⟨built, -, made⟩ := ok_of_bind planned
      cases made
      exact sound_lambda _ _
  | condition id test whenTrue whenFalse testIH trueIH falseIH =>
      rw [plan_condition] at planned
      obtain ⟨test, -, planned⟩ := ok_of_bind planned
      obtain ⟨-, -, planned⟩ := ok_of_bind planned
      obtain ⟨first, firstPlanned, planned⟩ := ok_of_bind planned
      obtain ⟨second, secondPlanned, planned⟩ := ok_of_bind planned
      cases planned
      exact sound_branch test (trueIH (honest.child (by simp [Node.children])) firstPlanned)
        (falseIH (honest.child (by simp [Node.children])) secondPlanned)
  | unary id op operand operandIH =>
      by_cases namesRoot : op.namesRoot
      · rw [plan_root namesRoot] at planned
        exact sound_planFallback declared planned
      · rw [plan_unary namesRoot] at planned
        obtain ⟨built, builtPlanned, planned⟩ := ok_of_bind planned
        exact sound_applyUnary
          (operandIH (honest.child (by simp [Node.children])) builtPlanned) planned
  | binary id op left right leftIH rightIH =>
      rw [plan_binary] at planned
      obtain ⟨first, firstPlanned, planned⟩ := ok_of_bind planned
      obtain ⟨second, secondPlanned, planned⟩ := ok_of_bind planned
      exact sound_applyBinary (leftIH (honest.child (by simp [Node.children])) firstPlanned)
        (rightIH (honest.child (by simp [Node.children])) secondPlanned) planned
  | member id target name targetIH =>
      rw [plan_member] at planned
      obtain ⟨built, builtPlanned, planned⟩ := ok_of_bind planned
      cases planned
      exact sound_member (targetIH (honest.child (by simp [Node.children])) builtPlanned) name
  | index id target arguments targetIH argumentsIH =>
      cases target with
      | none =>
          rw [plan_index_none] at planned
          exact sound_planFallback declared planned
      | some target =>
          rw [plan_index] at planned
          obtain ⟨built, builtPlanned, planned⟩ := ok_of_bind planned
          obtain ⟨codes, -, planned⟩ := ok_of_bind planned
          cases planned
          exact sound_index
            (targetIH target rfl (honest.child (by simp [Node.children])) builtPlanned) codes
  | call id target method arguments targetIH argumentsIH =>
      cases target with
      | none =>
          rw [plan_call_none] at planned
          exact sound_planFallback declared planned
      | some target =>
          rw [plan_call] at planned
          obtain ⟨built, builtPlanned, planned⟩ := ok_of_bind planned
          obtain ⟨codes, -, planned⟩ := ok_of_bind planned
          cases planned
          exact sound_call
            (targetIH target rfl (honest.child (by simp [Node.children])) builtPlanned) method codes

end Plan

end Builder

end Tether

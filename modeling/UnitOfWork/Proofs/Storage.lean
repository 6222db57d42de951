import Mathlib.Tactic.NormNum
import UnitOfWork.FieldType
import UnitOfWork.Proofs.Calendar
import UnitOfWork.Proofs.Rounding
import UnitOfWork.Store.Cell

/-!
# Values that survive storage

A column value is stored in a cell of one of five kinds, and a field of the
value's type reads it back from there. Only three kinds of values come back in
another form than they were stored in: truth values as integers, and JSON,
dates, times and timestamps as text. A number of single precision comes back
as a double, and is rounded.

## Main results

* `FieldType.read_stored`: a field reads back every value that it may have.
-/

namespace UnitOfWork

/-! ## The values of a type -/

/-- The values that a field of a type may have, NaN among them. -/
def ScalarType.Admits : ScalarType → Value → Prop
  | int64, .int n => Double.inInt64 n = true
  | int32, .int n => fitsInt32 n = true
  | float64, .float _ => True
  | float32, .float d => d.IsSingle ∨ d.isNaN = true
  | bool, .bool _ => True
  | text, .text _ => True
  | timestamp, .timestamp _ => True
  | date, .date _ => True
  | time, .time _ => True
  | blob, .blob _ => True
  | json, .json _ => True
  | _, _ => False

/-- The values that a field of a type may have; NULL as well if the type is
optional. -/
def FieldType.Admits (type : FieldType) (v : Value) : Prop :=
  (type.optional = true ∧ v = .null) ∨ type.scalar.Admits v

variable {type : ScalarType} {v : Value}

/-- Only an optional field may be NULL. -/
theorem ScalarType.Admits.isNull_eq (h : type.Admits v) : v.isNull = false := by
  cases v with
  | null => cases type <;> exact h.elim
  | _ => rfl

/-- A cell of a value that is not a NaN is kept as it is. -/
theorem Cell.kept_ofValue (h : ∀ d, v = .float d → d.isNaN = false) :
    (ofValue v).kept = ofValue v := by
  apply kept_eq_self
  intro d hReal
  cases v with
  | float d' =>
      cases hReal
      exact h d rfl
  | _ => cases hReal

/-! ## Reading back -/

/-- What a cell gives back is read as the value that was stored in it. -/
theorem ScalarType.read?_stored (hAdmits : type.Admits v)
    (hNumber : ∀ d, v = .float d → d.isNaN = false)
    (hJson : ∀ j, v = .json j → Json.read? j.render = some j) :
    type.read? (Cell.ofValue v).toValue = some v := by
  cases v with
  | null => cases type <;> exact hAdmits.elim
  | int n =>
      cases type with
      | int64 => rfl
      | int32 =>
          have hFits : fitsInt32 n = true := hAdmits
          simp [Cell.ofValue, Cell.toValue, read?, Value.asInt?, hFits]
      | _ => exact hAdmits.elim
  | float d =>
      cases type with
      | float64 => rfl
      | float32 =>
          have hSingle : d.IsSingle :=
            hAdmits.resolve_right (by simp [hNumber d rfl])
          simp [Cell.ofValue, Cell.toValue, read?, Value.asFloat?,
            Double.toSingle_of_isSingle hSingle]
      | _ => exact hAdmits.elim
  | text s =>
      cases type with
      | text => rfl
      | _ => exact hAdmits.elim
  | bool b =>
      cases type with
      | bool => cases b <;> rfl
      | _ => exact hAdmits.elim
  | timestamp t =>
      cases type with
      | timestamp =>
          simp [Cell.ofValue, Cell.toValue, read?, Value.asTimestamp?,
            t.read?_render]
      | _ => exact hAdmits.elim
  | date d =>
      cases type with
      | date =>
          simp [Cell.ofValue, Cell.toValue, read?, Value.asDate?,
            d.read?_render]
      | _ => exact hAdmits.elim
  | time t =>
      cases type with
      | time =>
          simp [Cell.ofValue, Cell.toValue, read?, Value.asTime?,
            t.read?_render]
      | _ => exact hAdmits.elim
  | json j =>
      cases type with
      | json =>
          simp [Cell.ofValue, Cell.toValue, read?, hJson j rfl]
      | _ => exact hAdmits.elim
  | blob bytes =>
      cases type with
      | blob => rfl
      | _ => exact hAdmits.elim

/-- Every value that a field may have, other than a NaN, is read back from the
cell that it was stored in. JSON has to be read back from its own text. -/
theorem FieldType.read_stored {type : FieldType} {v : Value}
    (hAdmits : type.Admits v) (hNumber : ∀ d, v = .float d → d.isNaN = false)
    (hJson : ∀ j, v = .json j → Json.read? j.render = some j) :
    type.read (Cell.ofValue v).kept.toValue = .ok v := by
  rw [Cell.kept_ofValue hNumber, read]
  obtain ⟨hOptional, rfl⟩ | hScalar := hAdmits
  · rw [hOptional]
    rfl
  · have hRead := ScalarType.read?_stored hScalar hNumber hJson
    have hNull : (Cell.ofValue v).toValue.isNull = false := by
      cases v with
      | null => exact hScalar.isNull_eq
      | _ => rfl
    rw [hNull, Bool.and_false, if_neg (by decide), ScalarType.read, hRead]

/-- A half, which single precision has. -/
def Double.half : Double := ⟨0x3FE0000000000000⟩

theorem Double.half_isSingle : half.IsSingle := by
  refine Or.inr ⟨by decide, 1, -1, by decide, by decide, by decide, ?_⟩
  have hSignificand : half.significand = 4503599627370496 := by decide
  have hExponent : half.exponent = -53 := by decide
  rw [magnitude, hSignificand, hExponent]
  norm_num

/-- The leap second at the end of 31 December of the year -44. -/
def Timestamp.ancientLeap : Timestamp :=
  ⟨⟨-44, 12, 31, by decide, by decide, by decide⟩,
    ⟨23, 59, 59, 1000000750, by decide, by decide, by decide, by decide⟩⟩

/-- An optional timestamp in a leap second, a number of single precision and a
JSON array. -/
theorem FieldType.read_stored_of_samples :
    read ⟨.timestamp, true⟩
        (Cell.ofValue (.timestamp .ancientLeap)).kept.toValue =
      .ok (.timestamp .ancientLeap) ∧
    read ⟨.float32, false⟩ (Cell.ofValue (.float .half)).kept.toValue =
      .ok (.float .half) ∧
    read ⟨.json, false⟩
        (Cell.ofValue (.json (.array [.integer 1, .text "a"]))).kept.toValue =
      .ok (.json (.array [.integer 1, .text "a"])) := by
  have hMoment : Admits ⟨.timestamp, true⟩ (.timestamp .ancientLeap) :=
    Or.inr trivial
  have hHalf : Admits ⟨.float32, false⟩ (.float .half) :=
    Or.inr (Or.inl Double.half_isSingle)
  have hArray : Admits ⟨.json, false⟩
      (.json (.array [.integer 1, .text "a"])) := Or.inr trivial
  refine ⟨?_, ?_, ?_⟩
  · exact read_stored hMoment (by simp) (by simp)
  · apply read_stored hHalf _ (by simp)
    rintro d ⟨⟩
    decide
  · apply read_stored hArray (by simp)
    rintro j ⟨⟩
    rfl

end UnitOfWork

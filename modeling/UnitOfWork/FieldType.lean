import UnitOfWork.Identifier
import UnitOfWork.Json.Reader

/-!
# Types of fields

The types that a field of an entity can have, each with the values that such a
field holds and the conversion of any column value to one of them. A field is
read leniently only where storage calls for it: a floating-point field accepts
a whole number, a truth value 0 or 1, and dates, times, timestamps and JSON
their text. An optional field also holds NULL.

## Main results

* `FieldType.read_blank`: the blank value of a type is read as itself.
-/

namespace UnitOfWork

/-- The type of a field that always has a value. -/
inductive ScalarType
  | int64 | int32 | float64 | float32 | bool | text
  | timestamp | date | time | blob | json
deriving DecidableEq

namespace ScalarType

/-- The name of a type in messages. -/
def name : ScalarType → String
  | int64 => "i64"
  | int32 => "i32"
  | float64 => "f64"
  | float32 => "f32"
  | bool => "bool"
  | text => "String"
  | timestamp => "NaiveDateTime"
  | date => "NaiveDate"
  | time => "NaiveTime"
  | blob => "Vec<u8>"
  | json => "serde_json::Value"

/-- The value of a field that has not been set. -/
def blank : ScalarType → Value
  | int64 | int32 => .int 0
  | float64 | float32 => .float (Double.zero false)
  | bool => .bool false
  | text => .text ""
  | timestamp => .timestamp ⟨Date.epoch, TimeOfDay.midnight⟩
  | date => .date Date.epoch
  | time => .time TimeOfDay.midnight
  | blob => .blob []
  | json => .json .null

/-- Whether a whole number fits 32 bits, signed. -/
def fitsInt32 (n : Int) : Bool := -2147483648 ≤ n && n ≤ 2147483647

/-- The value that a field of the type holds after it was given a column's
value, if the value suits the type. -/
def read? : ScalarType → Value → Option Value
  | int64, v => v.asInt?.map .int
  | int32, v => (v.asInt?.filter fitsInt32).map .int
  | float64, .int n => some (.float (Double.ofInt n))
  | float64, v => v.asFloat?.map .float
  | float32, .int n => some (.float (Double.singleOfInt n))
  | float32, v => v.asFloat?.map fun d => .float d.toSingle
  | bool, v => v.asBool?.map .bool
  | text, v => v.asText?.map .text
  | timestamp, v => v.asTimestamp?.map .timestamp
  | date, v => v.asDate?.map .date
  | time, v => v.asTime?.map .time
  | blob, v => v.asBlob?.map .blob
  | json, .json j => some (.json j)
  | json, .text s => (Json.read? s).map .json
  | json, _ => none

/-- Why a value does not suit a type. Text that is no JSON text is named as
such; elsewhere the kind of the value and the type are named. -/
def refusal : ScalarType → Value → Error
  | json, .text _ => .conversion "TEXT" "JSON"
  | type, v => .conversion v.typeName type.name

/-- Converts a column's value to one that a field of the type holds. -/
def read (type : ScalarType) (v : Value) : Except Error Value :=
  match type.read? v with
  | some held => .ok held
  | none => .error (type.refusal v)

end ScalarType

/-- The type of a field. -/
structure FieldType where
  scalar : ScalarType
  optional : Bool
deriving DecidableEq

namespace FieldType

/-- The name of a type in messages; an optional type has that of its values. -/
def name (type : FieldType) : String := type.scalar.name

/-- The value of a field that has not been set. -/
def blank (type : FieldType) : Value :=
  if type.optional then .null else type.scalar.blank

/-- Converts a column's value to one that a field of the type holds. -/
def read (type : FieldType) (v : Value) : Except Error Value :=
  if type.optional && v.isNull then .ok .null else type.scalar.read v

/-- The values that a field of the type holds: those read as themselves. -/
def Holds (type : FieldType) (v : Value) : Prop := type.read v = .ok v

/-- A field that has not been set holds a value of its type. -/
theorem read_blank (type : FieldType) : type.Holds type.blank := by
  obtain ⟨scalar, _ | _⟩ := type <;> cases scalar <;> rfl

end FieldType

end UnitOfWork

import UnitOfWork.Calendar.Layout
import UnitOfWork.Json.Value

/-!
# Column values

The values that a row holds and a statement is given: ten kinds, each with a
name that messages use. Equality is that of the kinds' contents; values of
different kinds are never equal, and a floating-point number is compared as a
number, so a NaN differs from itself.

## Main results

* `Value.equalAll_map_iff`: lists of values are equal place by place;
* `Value.equal_null_iff`: only NULL equals NULL.
-/

namespace UnitOfWork

/-- A value of a column. -/
inductive Value
  | int (n : Int)
  | float (d : Double)
  | text (s : String)
  | bool (b : Bool)
  | timestamp (t : Timestamp)
  | date (d : Date)
  | time (t : TimeOfDay)
  | null
  | json (j : Json)
  | blob (bytes : List UInt8)

instance : Inhabited Value := ⟨.null⟩

namespace Value

/-! ## Kinds -/

/-- The name of a value's kind. -/
def typeName : Value → String
  | int _ => "INTEGER"
  | float _ => "FLOAT"
  | text _ => "TEXT"
  | bool _ => "BOOLEAN"
  | timestamp _ => "TIMESTAMP"
  | date _ => "DATE"
  | time _ => "TIME"
  | null => "NULL"
  | json _ => "JSON"
  | blob _ => "BLOB"

/-- Whether a value is NULL. -/
def isNull : Value → Bool
  | null => true
  | _ => false

/-! ## Equality -/

/-- Equality of values. -/
def equal : Value → Value → Bool
  | int a, int b => a == b
  | float a, float b => a.equal b
  | text a, text b => a == b
  | bool a, bool b => a == b
  | timestamp a, timestamp b => a == b
  | date a, date b => a == b
  | time a, time b => a == b
  | null, null => true
  | json a, json b => a.equal b
  | blob a, blob b => a == b
  | _, _ => false

/-- Equality of lists of values, place by place. -/
def equalAll : List Value → List Value → Bool
  | [], [] => true
  | a :: as, b :: bs => a.equal b && equalAll as bs
  | _, _ => false

/-- Lists of values are equal if they are in each place. -/
theorem equalAll_map_iff {α : Type} {places : List α}
    {first second : α → Value} :
    equalAll (places.map first) (places.map second) = true ↔
      ∀ place ∈ places, (first place).equal (second place) = true := by
  induction places with
  | nil => simp [equalAll]
  | cons place rest ih => simp [equalAll, ih]

/-- Only NULL equals NULL. -/
theorem equal_null_iff (v : Value) : v.equal null = true ↔ v = null := by
  cases v <;> simp [equal]

/-! ## Reading a value as one of a kind -/

/-- The whole number that a value is. -/
def asInt? : Value → Option Int
  | int n => some n
  | _ => none

/-- The text that a value is. -/
def asText? : Value → Option String
  | text s => some s
  | _ => none

/-- The truth value that a value is; a whole number counts if it is 0 or 1. -/
def asBool? : Value → Option Bool
  | bool b => some b
  | int n => if n = 1 then some true else if n = 0 then some false else none
  | _ => none

/-- The timestamp that a value is or, as text, stands for. -/
def asTimestamp? : Value → Option Timestamp
  | timestamp t => some t
  | text s => Timestamp.read? s
  | _ => none

/-- The date that a value is or, as text, stands for. -/
def asDate? : Value → Option Date
  | date d => some d
  | text s => Date.read? s
  | _ => none

/-- The time of day that a value is or, as text, stands for. -/
def asTime? : Value → Option TimeOfDay
  | time t => some t
  | text s => TimeOfDay.read? s
  | _ => none

/-- The floating-point number that a value is. -/
def asFloat? : Value → Option Double
  | float d => some d
  | _ => none

/-- The bytes that a value is. -/
def asBlob? : Value → Option (List UInt8)
  | blob bytes => some bytes
  | _ => none

end Value

end UnitOfWork

import UnitOfWork.Store.Numeral
import UnitOfWork.Value

/-!
# Storage cells

A store that knows five kinds of cells keeps every column value in one of
them: truth values as integers, dates, times, timestamps and JSON as text. What
it gives back is the plain value of the cell, from which a field of the right
type is read again.

## Main results

* `Cell.ofValue_toValue`: a cell is recovered from its value.
-/

namespace UnitOfWork

/-- The content of a storage cell. -/
inductive Cell
  | null
  | integer (n : Int)
  | real (d : Double)
  | text (s : String)
  | blob (bytes : List UInt8)
deriving DecidableEq

namespace Cell

/-- The cell that a value is handed over in. -/
def ofValue : Value → Cell
  | .int n => integer n
  | .float d => real d
  | .text s => text s
  | .bool b => integer (if b then 1 else 0)
  | .timestamp t => text t.render
  | .date d => text d.render
  | .time t => text t.render
  | .null => null
  | .json j => text j.render
  | .blob bytes => blob bytes

/-- The value that a cell is read as. -/
def toValue : Cell → Value
  | null => .null
  | integer n => .int n
  | real d => .float d
  | text s => .text s
  | blob bytes => .blob bytes

/-- The cell that is kept: a store does not keep a NaN. -/
def kept : Cell → Cell
  | real d => if d.isNaN then null else real d
  | cell => cell

/-- Whether a cell is found by another: numbers by their value, whatever their
kind, and NULL never. -/
def matching : Cell → Cell → Bool
  | integer m, integer n => m == n
  | integer n, real d => d.equalsInt n
  | real d, integer n => d.equalsInt n
  | real a, real b => a.equal b
  | text s, text t => s == t
  | blob a, blob b => a == b
  | _, _ => false

/-- The number of a row that a cell stands for: an integer, or a real or a text
that amounts to one. -/
def rowNumber? : Cell → Option Int
  | integer n => some n
  | real d => d.integer?
  | text s => (Numeral.read? s).bind Numeral.integer?
  | null | blob _ => none

/-- A cell is recovered from its value. -/
@[simp] theorem ofValue_toValue (cell : Cell) :
    ofValue cell.toValue = cell := by
  cases cell <;> rfl

/-- Only a NaN is not kept as it is. -/
theorem kept_eq_self {cell : Cell} (h : ∀ d, cell = real d → d.isNaN = false) :
    cell.kept = cell := by
  cases cell with
  | real d => simp [kept, h d rfl]
  | _ => rfl

end Cell

end UnitOfWork

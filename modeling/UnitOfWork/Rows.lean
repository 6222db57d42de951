import UnitOfWork.Value
import UnitOfWork.Error
import UnitOfWork.Text.Case

/-!
# Rows and result sets

A row is a list of values with the names of its columns. A value is found by
name: in the last column of exactly that name, or else in the first column
whose name differs only in the case of ASCII letters. A result set collects
rows under the column names that are in force when a row is added; a row that
comes before any names are set is dropped.

## Main results

* `Row.columnIndex?_exact`, `Row.columnIndex?_folded`: which column is found;
* `Row.getRequired_eq_ok_iff`: a required value is there or an error is.
-/

namespace UnitOfWork

/-! ## Rows -/

/-- A row of a result. -/
structure Row where
  columns : List String
  values : List Value

namespace Row

/-- The last position of a name. -/
def lastIndex? (name : String) : List String → Option Nat
  | [] => none
  | column :: rest =>
    match lastIndex? name rest with
    | some i => some (i + 1)
    | none => if column = name then some 0 else none

/-- The position of the column that a name refers to. -/
def columnIndex? (row : Row) (name : String) : Option Nat :=
  match lastIndex? name row.columns with
  | some i => some i
  | none => row.columns.findIdx? (Text.sameIgnoringCase · name)

/-- The value in the column that a name refers to. -/
def get? (row : Row) (name : String) : Option Value :=
  (row.columnIndex? name).bind fun i => row.values[i]?

/-- The value in the column that a name refers to, which has to be there. -/
def getRequired (row : Row) (name : String) : Except Error Value :=
  match row.get? name with
  | some v => .ok v
  | none => .error (.mapping (.columnMissing name row.columns))

/-- A required value is there or an error is. -/
theorem getRequired_eq_ok_iff (row : Row) (name : String) (v : Value) :
    row.getRequired name = .ok v ↔ row.get? name = some v := by
  unfold getRequired
  split <;> simp_all

/-- A name is found by its exact spelling exactly when it occurs. -/
theorem lastIndex?_eq_none_iff (name : String) (columns : List String) :
    lastIndex? name columns = none ↔ name ∉ columns := by
  induction columns with
  | nil => simp [lastIndex?]
  | cons column rest ih =>
      unfold lastIndex?
      split
      · rename_i i hi
        have hMem : name ∈ rest := by
          by_cases h : name ∈ rest
          · exact h
          · rw [ih.2 h] at hi
            cases hi
        simp [hMem]
      · rename_i hNone
        have hNot := ih.1 hNone
        by_cases hEq : column = name
        · simp [hEq]
        · simp [hEq, hNot, Ne.symm hEq]

/-- The position found by exact spelling has that spelling. -/
theorem getElem?_of_lastIndex? {name : String} {columns : List String}
    {i : Nat} (h : lastIndex? name columns = some i) :
    columns[i]? = some name := by
  induction columns generalizing i with
  | nil => cases h
  | cons column rest ih =>
      unfold lastIndex? at h
      split at h
      · rename_i j hj
        cases h
        simpa using ih hj
      · split at h
        · cases h
          simp_all
        · cases h

/-- A name that occurs exactly is read from a column of exactly that name. -/
theorem columnIndex?_exact (row : Row) {name : String}
    (h : name ∈ row.columns) :
    ∃ i, row.columnIndex? name = some i ∧ row.columns[i]? = some name := by
  cases hi : lastIndex? name row.columns with
  | none => exact absurd h ((lastIndex?_eq_none_iff _ _).1 hi)
  | some i =>
      exact ⟨i, by simp [columnIndex?, hi], getElem?_of_lastIndex? hi⟩

/-- Any other name is read from the first column that differs in case only. -/
theorem columnIndex?_folded (row : Row) {name : String}
    (h : name ∉ row.columns) :
    row.columnIndex? name =
      row.columns.findIdx? (Text.sameIgnoringCase · name) := by
  simp [columnIndex?, (lastIndex?_eq_none_iff _ _).2 h]

end Row

/-! ## Result sets -/

/-- The rows that a query returned, with the count of rows added. -/
structure ResultSet where
  columns : Option (List String) := none
  rows : List Row := []
  affected : Nat := 0

namespace ResultSet

/-- Sets the column names of the rows to come. -/
def setColumns (rs : ResultSet) (columns : List String) : ResultSet :=
  { rs with columns := some columns }

/-- Adds a row under the column names in force. -/
def addRow (rs : ResultSet) (values : List Value) : ResultSet :=
  match rs.columns with
  | none => rs
  | some columns =>
    { rs with
      rows := rs.rows ++ [⟨columns, values⟩]
      affected := rs.affected + 1 }

/-- The result set of some rows under the same column names. -/
def ofRows (columns : List String) (rows : List (List Value)) : ResultSet :=
  rows.foldl addRow (setColumns {} columns)

/-- A row before any column names is dropped. -/
theorem addRow_of_columns_none {rs : ResultSet} (h : rs.columns = none)
    (values : List Value) : rs.addRow values = rs := by
  simp [addRow, h]

/-- A row is added at the end, under the column names in force. -/
theorem rows_addRow {rs : ResultSet} {columns : List String}
    (h : rs.columns = some columns) (values : List Value) :
    (rs.addRow values).rows = rs.rows ++ [⟨columns, values⟩] := by
  simp [addRow, h]

/-- Adding a row keeps the column names. -/
@[simp] theorem columns_addRow (rs : ResultSet) (values : List Value) :
    (rs.addRow values).columns = rs.columns := by
  unfold addRow
  split <;> simp_all

end ResultSet

end UnitOfWork

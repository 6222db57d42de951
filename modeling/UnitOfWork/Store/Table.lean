import UnitOfWork.Store.Cell
import UnitOfWork.Rows
import UnitOfWork.Statement

/-!
# Tables

A store of tables and the effect of each statement on it. A column is found
without regard to the case of ASCII letters. A table may number its rows in
one of its columns, and may demand that no value occurs twice in some columns;
this is checked when a row is inserted, the numbered column first.

Stores differ in how they treat names, values and rows. A `Dialect` says what
a store keeps of a value, which stored values a wanted one finds, and whether
every row has a number. `Dialect.exact` keeps values as they are, and finds a
table by its exact name. `Dialect.cells` keeps storage cells, and numbers all
rows: in a table without a numbered column, the number of a row follows the
values of its columns and is not shown.

## Main results

* `Table.rows_insert`, `Table.rows_delete`: what writes do to the rows;
* `Tables.run_query`: a query changes nothing.
-/

namespace UnitOfWork

/-! ## Dialects -/

/-- How a store treats values and rows. -/
structure Dialect where
  /-- What is kept of a value. -/
  keep : Value → Value
  /-- Whether a wanted value finds a stored one. -/
  finds : Value → Value → Bool
  /-- What is kept of a value in a column that numbers the rows. -/
  number? : Value → Option Value
  /-- Whether two names are those of one table. -/
  sameTable : String → String → Bool
  /-- Whether every row has a number, and rows stand in the order of their
  numbers. -/
  numbersRows : Bool
  /-- Whether updates are checked for repeated values, too. -/
  checksUpdates : Bool

namespace Dialect

/-- A store that keeps values as they are. -/
def exact : Dialect where
  keep v := v
  finds wanted stored := !wanted.isNull && stored.equal wanted
  number? v := some v
  sameTable a b := a == b
  numbersRows := false
  checksUpdates := false

/-- A store that keeps the cells of values. -/
def cells : Dialect where
  keep v := (Cell.ofValue v).kept.toValue
  finds wanted stored :=
    (Cell.ofValue stored).matching (Cell.ofValue wanted).kept
  number? v := (Cell.ofValue v).rowNumber?.map .int
  sameTable := Text.sameIgnoringCase
  numbersRows := true
  checksUpdates := true

end Dialect

/-- Why a store refuses a statement. -/
inductive StoreFault
  | noTable (table : String)
  | noColumn (column : String)
  | repeatedValue (table column : String)
  /-- A value cannot number a row. -/
  | noNumber (table : String)
  /-- There are no more numbers for rows. -/
  | numbersUsedUp (table : String)
  /-- A statement that should write found rows instead. -/
  | rowsFound
  | unknownStatement
  /-- The statement has another number of parameters. -/
  | parameterCount
deriving DecidableEq

/-- The text of a refusal. -/
def StoreFault.text : StoreFault → String
  | noTable table => "no such table: " ++ table
  | noColumn column => "no such column: " ++ column
  | repeatedValue table column =>
    "unique violation: " ++ table ++ "." ++ column
  | noNumber table => "datatype mismatch: " ++ table
  | numbersUsedUp table => "no number left: " ++ table
  | rowsFound => "rows returned"
  | unknownStatement | parameterCount => "syntax error"

/-! ## Tables -/

/-- How a table numbers its rows. -/
inductive Numbering
  /-- With numbers never used before. -/
  | ascending
  /-- With the number after the largest present, or 1 if there is none. -/
  | afterLargest
deriving DecidableEq

/-- A table. -/
structure Table where
  name : String
  columns : List String
  rows : List (List Value) := []
  /-- The column that numbers the rows, and how. -/
  numbered : Option (String × Numbering) := none
  /-- The columns in which no value occurs twice. -/
  unique : List String := []
  /-- The next number never used before. -/
  counter : Int := 1

namespace Table

/-- The position of a column. -/
def position? (t : Table) (column : String) : Option Nat :=
  t.columns.findIdx? (Text.sameIgnoringCase · column)

/-- The position of a column, which has to exist. -/
def position (t : Table) (column : String) : Except StoreFault Nat :=
  match t.position? column with
  | some i => .ok i
  | none => .error (.noColumn column)

/-- The value of a row in a column. -/
def value (row : List Value) (i : Nat) : Value := (row[i]?).getD .null

/-- The position of the numbers of the rows. -/
def numberPosition? (d : Dialect) (t : Table) : Option Nat :=
  match t.numbered with
  | some n => t.position? n.1
  | none => if d.numbersRows then some t.columns.length else none

/-- Whether a wanted value at a position finds a row. -/
def finds (d : Dialect) (t : Table) (i : Nat) (wanted : Value)
    (row : List Value) : Bool :=
  if t.numberPosition? d = some i then
    ((d.number? wanted).map fun v => d.finds v (value row i)).getD false
  else d.finds wanted (value row i)

/-- The largest number of a row. -/
def largest? (t : Table) (i : Nat) : Option Int :=
  (t.rows.filterMap fun row => (value row i).asInt?).max?

/-- The number that the next row without one gets. -/
def nextNumber (d : Dialect) (t : Table) (i : Nat) : Int :=
  let afterLargest := ((t.largest? i).map (· + 1)).getD 1
  match t.numbered with
  | some (_, .ascending) =>
    if d.numbersRows then max t.counter afterLargest else t.counter
  | _ => afterLargest

/-- The row with its number, the next one if it asks for none. -/
def number (d : Dialect) (t : Table) (row : List Value) :
    Except StoreFault (List Value) :=
  match t.numberPosition? d with
  | some i =>
    let row := row ++ List.replicate (i + 1 - row.length) .null
    if (value row i).isNull then
      let next := t.nextNumber d i
      if d.numbersRows && !Double.inInt64 next then
        .error (.numbersUsedUp t.name)
      else .ok (row.set i (.int next))
    else
      match d.number? (value row i) with
      | some v => .ok (row.set i v)
      | none => .error (.noNumber t.name)
  | none => .ok row

/-- The counter after a row has been inserted. -/
def counterAfter (d : Dialect) (t : Table) (row : List Value) : Int :=
  match (t.numberPosition? d).map (value row) with
  | some (.int n) => max t.counter (n + 1)
  | _ => t.counter

/-- The columns that are checked for repeated values, in order. -/
def checkedColumns (t : Table) : List String :=
  (t.numbered.map Prod.fst).toList ++ t.unique

/-- The first checked column in which a row repeats a value of another. -/
def repeated? (d : Dialect) (t : Table) (others : List (List Value))
    (row : List Value) : Option String :=
  t.checkedColumns.find? fun column =>
    match t.position? column with
    | some i => others.any fun other => d.finds (value row i) (value other i)
    | none => false

/-- Puts a row before the first one with a larger number. -/
def insertSorted (i : Nat) (row : List Value) :
    List (List Value) → List (List Value)
  | [] => [row]
  | other :: rest =>
    match value row i, value other i with
    | .int m, .int n =>
      if m < n then row :: other :: rest
      else other :: insertSorted i row rest
    | _, _ => other :: insertSorted i row rest

/-- The rows in the order that the dialect asks for. -/
def arrange (d : Dialect) (t : Table) (rows : List (List Value)) :
    List (List Value) :=
  match t.numberPosition? d with
  | some i =>
    if d.numbersRows then
      rows.foldl (fun sorted row => insertSorted i row sorted) []
    else rows
  | none => rows

/-- The rows with a value at a position. -/
def matching (d : Dialect) (t : Table) (i : Nat) (wanted : Value) :
    List (List Value) :=
  t.rows.filter (t.finds d i wanted)

/-- The row with values at some positions and NULL elsewhere. -/
def rowOf (t : Table) (fields : List (Nat × Value)) : List Value :=
  (List.range t.columns.length).map fun i => (fields.lookup i).getD .null

/-- Inserts a row; gives the table and the row as it was inserted. -/
def insert (d : Dialect) (t : Table) (row : List Value) :
    Except StoreFault (List Value × Table) :=
  match t.number d row with
  | .error fault => .error fault
  | .ok row =>
    match t.repeated? d t.rows row with
    | some column => .error (.repeatedValue t.name column)
    | none =>
      .ok (row,
        { t with
          rows := t.arrange d (t.rows ++ [row])
          counter := t.counterAfter d row })

/-- The first value that occurs twice in a checked column. -/
def repetition? (d : Dialect) (t : Table) : List (List Value) → Option String
  | [] => none
  | row :: rest =>
    match t.repeated? d rest row with
    | some column => some column
    | none => repetition? d t rest

/-- New values as they are kept at their positions, unless one would have to
number a row and cannot. -/
def settle? (d : Dialect) (t : Table) (fields : List (Nat × Value)) :
    Option (List (Nat × Value)) :=
  fields.mapM fun (i, v) =>
    if t.numberPosition? d = some i then (d.number? v).map fun v => (i, v)
    else some (i, v)

/-- Sets values in the rows with a value at a position; gives the number of
those rows. -/
def update (d : Dialect) (t : Table) (fields : List (Nat × Value)) (i : Nat)
    (wanted : Value) : Except StoreFault (Nat × Table) :=
  let found := (matching d t i wanted).length
  if found = 0 then .ok (0, t)
  else
    match t.settle? d fields with
    | none => .error (.noNumber t.name)
    | some fields =>
      let rows := t.rows.map fun row =>
        if t.finds d i wanted row then
          fields.foldl (fun row field => row.set field.1 field.2) row
        else row
      match if d.checksUpdates then t.repetition? d rows else none with
      | some column => .error (.repeatedValue t.name column)
      | none => .ok (found, { t with rows := t.arrange d rows })

/-- Removes the rows with a value at a position; gives the number of those
rows. -/
def delete (d : Dialect) (t : Table) (i : Nat) (wanted : Value) :
    Nat × Table :=
  ((matching d t i wanted).length,
    { t with rows := t.rows.filter fun row => !t.finds d i wanted row })

/-- In a store that keeps values as they are, a new row comes last. -/
theorem rows_insert {t after : Table} {row inserted : List Value}
    (h : insert .exact t row = .ok (inserted, after)) :
    after.rows = t.rows ++ [inserted] := by
  simp only [insert] at h
  split at h
  · cases h
  · split at h
    · cases h
    · cases h
      simp only [arrange, Dialect.exact]
      split <;> simp

/-- A delete removes exactly the rows that it counts. -/
theorem rows_delete (d : Dialect) (t : Table) (i : Nat) (wanted : Value) :
    (t.delete d i wanted).2.rows.length + (t.delete d i wanted).1 =
      t.rows.length := by
  simp only [delete, matching]
  induction t.rows with
  | nil => rfl
  | cons row rest ih =>
      by_cases h : t.finds d i wanted row <;> simp [h] at * <;> omega

end Table

/-! ## Stores of tables -/

/-- The tables of a store. -/
abbrev Tables := List Table

/-- What a statement gives back. -/
structure Outcome where
  result : ResultSet := {}
  /-- The number of rows that a write touched. -/
  affected : Nat := 0
  /-- The number of an inserted row. -/
  key : Option Value := none

namespace Tables

/-- The table of a name, which has to exist. -/
def find (d : Dialect) (tables : Tables) (name : String) :
    Except StoreFault Table :=
  match List.find? (fun t => d.sameTable t.name name) tables with
  | some t => .ok t
  | none => .error (.noTable name)

/-- The tables with another table in the place of the one of its name. -/
def replace (tables : Tables) (t : Table) : Tables :=
  tables.map fun other => if other.name = t.name then t else other

/-- Pairs positions with values, which have to be as many. -/
def pairUp (positions : List Nat) (values : List Value) :
    Except StoreFault (List (Nat × Value)) :=
  if positions.length = values.length then .ok (positions.zip values)
  else .error .parameterCount

/-- Takes the one value of a list. -/
def single : List Value → Except StoreFault Value
  | [v] => .ok v
  | _ => .error .parameterCount

/-- Some rows of a table as a result. -/
def resultOf (t : Table) (rows : List (List Value)) : Outcome :=
  { result := ResultSet.ofRows t.columns
      (rows.map fun row => row.take t.columns.length) }

/-- Runs a statement. -/
def run (d : Dialect) (statement : Statement) (params : List Value)
    (tables : Tables) : Except StoreFault (Outcome × Tables) :=
  let params := params.map d.keep
  match statement with
  | .selectAll table => do
    let t ← tables.find d table
    if params.isEmpty then .ok (resultOf t t.rows, tables)
    else .error .parameterCount
  | .selectBy table column => do
    let t ← tables.find d table
    let i ← t.position column
    let v ← single params
    .ok (resultOf t (Table.matching d t i v), tables)
  | .insert table columns => do
    let t ← tables.find d table
    let positions ← columns.mapM t.position
    let fields ← pairUp positions params
    let (row, t) ← t.insert d (t.rowOf fields)
    .ok ({ affected := 1, key := (t.numberPosition? d).map (Table.value row) },
      tables.replace t)
  | .updateBy table columns key => do
    let t ← tables.find d table
    let positions ← columns.mapM t.position
    let i ← t.position key
    let fields ← pairUp positions params.dropLast
    let v ← single params.getLast?.toList
    let (affected, t) ← t.update d fields i v
    .ok ({ affected := affected }, tables.replace t)
  | .deleteBy table key => do
    let t ← tables.find d table
    let i ← t.position key
    let v ← single params
    let (affected, t) := t.delete d i v
    .ok ({ affected := affected }, tables.replace t)
  | .other _ => .error .unknownStatement

/-- The number of all rows. -/
def rowCount (tables : Tables) : Nat :=
  tables.foldl (fun count t => count + t.rows.length) 0

/-- A query changes nothing. -/
theorem run_query {d : Dialect} {statement : Statement} {params : List Value}
    {tables after : Tables} {outcome : Outcome} (hQuery : statement.isQuery)
    (h : run d statement params tables = .ok (outcome, after)) :
    after = tables := by
  cases statement <;>
    simp only [Statement.isQuery, Bool.false_eq_true] at hQuery
  · simp only [run, bind, Except.bind] at h
    split at h
    · cases h
    · split at h <;> cases h
      rfl
  · simp only [run, bind, Except.bind] at h
    split at h
    · cases h
    · split at h
      · cases h
      · split at h
        · cases h
        · cases h
          rfl

end Tables

end UnitOfWork

/-!
# Statements

The statements that entities are read and written with, as data, and their SQL
text with one positional placeholder `?` for each parameter. Any other text is
a statement that says no more than its text.

## Main results

* `Statement.render_ofText`: reading a text as a statement keeps the text.
-/

namespace UnitOfWork

/-- A statement. -/
inductive Statement
  /-- All rows of a table. -/
  | selectAll (table : String)
  /-- The rows of a table with a value in a column. -/
  | selectBy (table column : String)
  /-- A new row with values in some columns. -/
  | insert (table : String) (columns : List String)
  /-- New values in some columns of the rows with a value in a column. -/
  | updateBy (table : String) (columns : List String) (key : String)
  /-- Removes the rows with a value in a column. -/
  | deleteBy (table key : String)
  /-- A statement known only by its text. -/
  | other (text : String)
deriving DecidableEq

namespace Statement

/-! ## Text -/

/-- The SQL text of a statement. -/
def render : Statement → String
  | selectAll table => "SELECT * FROM " ++ table
  | selectBy table column =>
    "SELECT * FROM " ++ table ++ " WHERE " ++ column ++ " = ?"
  | insert table [] => "INSERT INTO " ++ table ++ " DEFAULT VALUES"
  | insert table columns =>
    "INSERT INTO " ++ table ++ "(" ++ String.intercalate ", " columns ++
      ") VALUES (" ++
      String.intercalate "," (columns.map fun _ => "?") ++ ")"
  | updateBy table columns key =>
    "UPDATE " ++ table ++ " SET " ++
      String.intercalate ", " (columns.map (· ++ " = ?")) ++
      " WHERE " ++ key ++ " = ?"
  | deleteBy table key =>
    "DELETE FROM " ++ table ++ " WHERE " ++ key ++ " = ?"
  | other text => text

/-- How many parameters a statement takes, if its form is known. -/
def parameterCount? : Statement → Option Nat
  | selectAll _ => some 0
  | selectBy _ _ => some 1
  | insert _ columns => some columns.length
  | updateBy _ columns _ => some (columns.length + 1)
  | deleteBy _ _ => some 1
  | other _ => none

/-- Whether a statement only reads. -/
def isQuery : Statement → Bool
  | selectAll _ | selectBy _ _ => true
  | _ => false

/-! ## Reading -/

/-- The columns of a list of assignments, each of the form `c = ?`. -/
def assignedColumns : List String → List String
  | c :: "=" :: _ :: rest => c :: assignedColumns rest
  | _ => []

/-- A statement whose words are those of the text. -/
def guess (text : String) : Statement :=
  match text.splitOn " " with
  | ["SELECT", "*", "FROM", table] => selectAll table
  | ["SELECT", "*", "FROM", table, "WHERE", column, "=", "?"] =>
    selectBy table column
  | ["INSERT", "INTO", table, "DEFAULT", "VALUES"] => insert table []
  | ["DELETE", "FROM", table, "WHERE", key, "=", "?"] => deleteBy table key
  | "UPDATE" :: table :: "SET" :: rest =>
    let assignments := rest.take (rest.length - 4)
    updateBy table (assignedColumns assignments)
      ((rest.drop (rest.length - 3)).headD "")
  | "INSERT" :: "INTO" :: rest =>
    match (String.intercalate " " rest).splitOn "(" with
    | table :: columns :: _ =>
      insert table (((columns.splitOn ")").headD "").splitOn ", ")
    | _ => other text
  | _ => other text

/-- The statement of a text: one of the known forms if the text is exactly
that form's, and otherwise the text itself. -/
def ofText (text : String) : Statement :=
  if (guess text).render = text then guess text else other text

/-- Reading a text as a statement keeps the text. -/
theorem render_ofText (text : String) : (ofText text).render = text := by
  unfold ofText
  split
  · assumption
  · rfl

end Statement

end UnitOfWork

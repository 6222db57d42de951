import UnitOfWork.Heap
import UnitOfWork.Statement

/-!
# Plans for writing an entity

What is sent to the database to insert, update or delete an entity: a
statement with a value for each of its placeholders. A plan is made from the
instances alone, before anything is sent, so an entity that cannot be written
is refused first: one that is borrowed for change, one without an identifier,
or one that refers to an entity without an identifier.

## Main results

* `Heap.parameterCount_insertion`, `Heap.parameterCount_updating`,
  `Heap.parameterCount_deletion`: each plan has as many parameters as its
  statement has placeholders.
-/

namespace UnitOfWork

/-- A statement with the values of its placeholders. -/
structure Plan where
  statement : Statement
  params : List Value

namespace Heap

variable (schema : Schema) (heap : Heap)

/-- The descriptor of an instance that is to be written, and the instance. -/
def writable (ref : Ref) : Except Error (Descriptor × Instance) := do
  let d ← schema.descriptor (heap.get ref).type
  if (heap.get ref).isReadable then .ok (d, heap.get ref)
  else .error (.state (.entityBorrowed d.typeName))

/-- The values that an instance has for some columns. -/
def valuesOf (e : Instance) (columns : List Column) :
    Except Error (List Value) :=
  columns.mapM (heap.valueOf schema e)

/-- The plan to insert an instance: all columns but a generated one. -/
def insertion (d : Descriptor) (e : Instance) : Except Error Plan := do
  let values ← heap.valuesOf schema e d.insertedColumns
  .ok ⟨.insert d.table (d.insertedColumns.map Column.name), values⟩

/-- Refuses an instance whose identifier is not set. -/
def requireId (operation : String) (d : Descriptor) (e : Instance) :
    Except Error Value :=
  if (d.idValue e).isNull then
    .error (.state (.idUnset operation d.typeName))
  else .ok (d.idValue e)

/-- The plan to update the row of an instance: all columns but the identifier,
which comes last. There is none if no other column exists. -/
def updating (d : Descriptor) (e : Instance) :
    Except Error (Option Plan) := do
  let id ← requireId "update" d e
  let values ← heap.valuesOf schema e d.updatedColumns
  match d.updatedColumns with
  | [] => .ok none
  | columns =>
    .ok (some ⟨.updateBy d.table (columns.map Column.name) d.identifier.name,
      values ++ [id]⟩)

/-- The plan to delete the row of an instance. -/
def deletion (d : Descriptor) (e : Instance) : Except Error Plan := do
  let id ← requireId "delete" d e
  .ok ⟨.deleteBy d.table d.identifier.name, [id]⟩

/-! ## Statements and parameters fit -/

/-- There is a value for each column. -/
theorem length_valuesOf {e : Instance} {columns : List Column}
    {values : List Value} (h : heap.valuesOf schema e columns = .ok values) :
    values.length = columns.length := by
  unfold valuesOf at h
  induction columns generalizing values with
  | nil =>
      simp only [List.mapM_nil, pure, Except.pure, Except.ok.injEq] at h
      simp [← h]
  | cons c rest ih =>
      simp only [List.mapM_cons, bind, Except.bind, pure, Except.pure] at h
      split at h
      · cases h
      · split at h
        · cases h
        · rename_i hRest
          cases h
          simp [ih hRest]

/-- An insert has as many parameters as placeholders. -/
theorem parameterCount_insertion {d : Descriptor} {e : Instance} {plan : Plan}
    (h : heap.insertion schema d e = .ok plan) :
    plan.statement.parameterCount? = some plan.params.length := by
  simp only [insertion, bind, Except.bind] at h
  split at h
  · cases h
  · rename_i hValues
    cases h
    simp [Statement.parameterCount?, length_valuesOf schema heap hValues]

/-- An update has as many parameters as placeholders. -/
theorem parameterCount_updating {d : Descriptor} {e : Instance} {plan : Plan}
    (h : heap.updating schema d e = .ok (some plan)) :
    plan.statement.parameterCount? = some plan.params.length := by
  simp only [updating, bind, Except.bind] at h
  split at h
  · cases h
  · split at h
    · cases h
    · rename_i hValues
      split at h
      · cases h
      · rename_i hColumns _
        cases h
        simp [Statement.parameterCount?, length_valuesOf schema heap hValues]

/-- A delete has as many parameters as placeholders. -/
theorem parameterCount_deletion {d : Descriptor} {e : Instance} {plan : Plan}
    (h : deletion d e = .ok plan) :
    plan.statement.parameterCount? = some plan.params.length := by
  simp only [deletion, bind, Except.bind] at h
  split at h
  · cases h
  · cases h
    rfl

end Heap

end UnitOfWork

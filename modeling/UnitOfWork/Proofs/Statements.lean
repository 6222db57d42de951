import Mathlib.Algebra.Ring.Nat
import UnitOfWork.Proofs.GeneratedKeys

/-!
# The statement of a write and its parameters

Inserting, updating or deleting an entity sends at most one statement. Its text
and its parameters are put together from the columns of the type: an INSERT
has the columns that are not generated, an UPDATE those that do not identify
the entity, and an UPDATE and a DELETE end with the identifier. What is in the
way of a write (`Action.Obstacle`) is found before anything is sent, and
nothing else keeps a statement from being sent. Apart from a generated
identifier, which an inserted entity is given in the end, no instance is
changed.

Names are part of the text as they are, so a name with a `?` in it adds to the
marks of the text; the placeholders are what is left.

## Main results

* `Statement.marks_render`: the marks of a statement's text;
* `Action.planned`: what keeps an action from being planned, and what it is
  planned as otherwise;
* `Persister.write_linesUp`: the statement and the parameters of a write.
-/

namespace UnitOfWork

variable {σ : Type} {schema : Schema} {heap : Heap}

/-! ## Placeholders -/

/-- The number of question marks in a text. -/
def Text.marks (s : String) : Nat := s.toList.count '?'

namespace Text

theorem marks_append (a b : String) : marks (a ++ b) = marks a + marks b := by
  simp only [marks, String.toList_append, List.count_append]

/-- Texts that are joined have all their marks still. -/
theorem marks_intercalate {separator : String} (h : marks separator = 0)
    (texts : List String) :
    marks (String.intercalate separator texts) = (texts.map marks).sum := by
  induction texts with
  | nil => rfl
  | cons first rest ih =>
      cases rest with
      | nil => simp
      | cons second more =>
          rw [String.intercalate_cons_cons, marks_append, marks_append, ih, h]
          rfl

end Text

namespace Statement

open Text

/-- The names of tables and columns in a statement. -/
def names : Statement → List String
  | selectAll table => [table]
  | selectBy table column => [table, column]
  | insert table columns => table :: columns
  | updateBy table columns key => table :: key :: columns
  | deleteBy table key => [table, key]
  | other _ => []

/-- The marks that names bring into a statement. -/
def nameMarks (statement : Statement) : Nat :=
  (statement.names.map marks).sum

/-- Each column is assigned one placeholder. -/
theorem sum_marks_assignments (columns : List String) :
    ((columns.map (· ++ " = ?")).map marks).sum =
      columns.length + (columns.map marks).sum := by
  induction columns with
  | nil => rfl
  | cons c rest ih =>
      have hMark : marks " = ?" = 1 := rfl
      simp only [List.map_cons, List.sum_cons, List.length_cons, ih,
        marks_append, hMark]
      omega

/-- The text of a statement has a placeholder for each parameter, and no other
marks but those in names. -/
theorem marks_render {statement : Statement} {n : Nat}
    (h : statement.parameterCount? = some n) :
    marks statement.render = n + statement.nameMarks := by
  -- Unfolding is cheap; an equation for each case would compare the texts.
  cases statement with
  | selectAll table =>
      cases h
      unfold render
      simp only [nameMarks, names, marks_append]
      simp [show marks "SELECT * FROM " = 0 from rfl]
  | selectBy table column =>
      cases h
      unfold render
      simp only [nameMarks, names, marks_append]
      simp [show marks "SELECT * FROM " = 0 from rfl,
        show marks " WHERE " = 0 from rfl, show marks " = ?" = 1 from rfl]
      omega
  | insert table columns =>
      cases h
      cases columns with
      | nil =>
          unfold render
          simp only [nameMarks, names, marks_append]
          simp [show marks "INSERT INTO " = 0 from rfl,
            show marks " DEFAULT VALUES" = 0 from rfl]
      | cons first rest =>
          have hMarks : ∀ columns : List String,
              ((columns.map fun _ => "?").map marks).sum = columns.length := by
            intro columns
            rw [List.map_map]
            simp [Function.comp_def, show marks "?" = 1 from rfl]
          unfold render
          simp only [nameMarks, names, marks_append,
            marks_intercalate (show marks ", " = 0 from rfl),
            marks_intercalate (show marks "," = 0 from rfl), hMarks]
          simp [show marks "INSERT INTO " = 0 from rfl,
            show marks "(" = 0 from rfl, show marks ") VALUES (" = 0 from rfl,
            show marks ")" = 0 from rfl]
          omega
  | updateBy table columns key =>
      cases h
      unfold render
      simp only [nameMarks, names, marks_append,
        marks_intercalate (show marks ", " = 0 from rfl),
        sum_marks_assignments]
      simp [show marks "UPDATE " = 0 from rfl, show marks " SET " = 0 from rfl,
        show marks " WHERE " = 0 from rfl, show marks " = ?" = 1 from rfl]
      omega
  | deleteBy table key =>
      cases h
      unfold render
      simp only [nameMarks, names, marks_append]
      simp [show marks "DELETE FROM " = 0 from rfl,
        show marks " WHERE " = 0 from rfl, show marks " = ?" = 1 from rfl]
      omega
  | other text => cases h

end Statement

/-! ## The values of columns -/

namespace Heap

/-- A value is the one of a column: it stands for the related entity in a join
column, and is that of the field otherwise. -/
def ValueFor (schema : Schema) (heap : Heap) (e : Instance) (c : Column)
    (v : Value) : Prop :=
  match c.content with
  | .join _ target => heap.StandsFor schema target v (e.toOne c.field)
  | _ => v = e.scalar c.field

/-- What is wrong with an entity that a to-one field refers to, and how that
is reported. -/
inductive Unreferable (schema : Schema) (heap : Heap) (field target : String)
    (r : Ref) : Error → Prop
  | undescribed {err : Error} (hD : schema.descriptor target = .error err) :
    Unreferable schema heap field target r err
  | borrowed {d : Descriptor} (hD : schema.descriptor target = .ok d)
      (hBorrowed : (heap.get r).isReadable = false) :
    Unreferable schema heap field target r
      (.state (.relatedBorrowed d.typeName field))
  | withoutId {d : Descriptor} (hD : schema.descriptor target = .ok d)
      (hUnset : (d.idValue (heap.get r)).isNull = true) :
    Unreferable schema heap field target r
      (.state (.relatedWithoutId d.typeName field))

/-- A column is a join column and refers to an entity that something is wrong
with. -/
def Dangling (schema : Schema) (heap : Heap) (e : Instance) (c : Column)
    (err : Error) : Prop :=
  ∃ kind target r, c.content = .join kind target ∧
    e.toOne c.field = some r ∧ heap.Unreferable schema c.field target r err

/-- A to-one field has a value for its column unless something is wrong with
the entity that it refers to. -/
theorem relatedId_cases (schema : Schema) (heap : Heap)
    (field target : String) (r : Ref) :
    match heap.relatedId schema field target (some r) with
    | .error err => heap.Unreferable schema field target r err
    | .ok _ => ∀ err, ¬ heap.Unreferable schema field target r err := by
  unfold relatedId
  cases hD : schema.descriptor target with
  | error err => exact .undescribed hD
  | ok d =>
      simp only [except_ok_bind]
      cases hReadable : (heap.get r).isReadable with
      | false => exact .borrowed hD hReadable
      | true =>
          cases hNull : (d.idValue (heap.get r)).isNull with
          | true => exact .withoutId hD hNull
          | false =>
              intro err hWrong
              cases hWrong with
              | undescribed hD' => cases hD.symm.trans hD'
              | borrowed hD' hBorrowed =>
                  cases hReadable.symm.trans hBorrowed
              | withoutId hD' hUnset =>
                  cases hD.symm.trans hD'
                  cases hNull.symm.trans hUnset

/-- A column has a value unless something is wrong with what it refers to. -/
theorem valueOf_cases (schema : Schema) (heap : Heap) (e : Instance)
    (c : Column) :
    match heap.valueOf schema e c with
    | .error err => heap.Dangling schema e c err
    | .ok v => heap.ValueFor schema e c v ∧
      ∀ err, ¬ heap.Dangling schema e c err := by
  unfold valueOf ValueFor
  cases hContent : c.content with
  | join kind target =>
      dsimp only
      cases hRelated : heap.relatedId schema c.field target
        (e.toOne c.field) with
      | error err =>
          cases hTo : e.toOne c.field with
          | none =>
              rw [hTo] at hRelated
              cases hRelated
          | some r =>
              have hWrong := heap.relatedId_cases schema c.field target r
              rw [← hTo, hRelated] at hWrong
              exact ⟨kind, target, r, hContent, hTo, hWrong⟩
      | ok v =>
          refine ⟨standsFor_of_relatedId hRelated, ?_⟩
          rintro err ⟨kind', target', r, hContent', hTo, hWrong⟩
          cases hContent.symm.trans hContent'
          have hRight := heap.relatedId_cases schema c.field target r
          rw [← hTo, hRelated] at hRight
          exact hRight err hWrong
  | identifier type generated =>
      refine ⟨rfl, ?_⟩
      rintro err ⟨kind, target, r, hContent', _⟩
      cases hContent.symm.trans hContent'
  | scalar type =>
      refine ⟨rfl, ?_⟩
      rintro err ⟨kind, target, r, hContent', _⟩
      cases hContent.symm.trans hContent'

/-- Columns have values, one after another, unless something is wrong with
what one of them refers to. -/
theorem valuesOf_cases (schema : Schema) (heap : Heap) (e : Instance)
    (columns : List Column) :
    match heap.valuesOf schema e columns with
    | .error err => ∃ c ∈ columns, heap.Dangling schema e c err
    | .ok values => List.Forall₂ (heap.ValueFor schema e) columns values ∧
      ∀ c ∈ columns, ∀ err, ¬ heap.Dangling schema e c err := by
  unfold valuesOf
  induction columns with
  | nil => exact ⟨.nil, fun c hMem => by cases hMem⟩
  | cons first rest ih =>
      have hFirst := heap.valueOf_cases schema e first
      rw [List.mapM_cons]
      cases hValue : heap.valueOf schema e first with
      | error err =>
          rw [hValue] at hFirst
          exact ⟨first, List.mem_cons_self .., hFirst⟩
      | ok v =>
          rw [hValue] at hFirst
          rw [except_ok_bind]
          cases hRest : rest.mapM (heap.valueOf schema e) with
          | error err =>
              rw [hRest] at ih
              obtain ⟨c, hMem, hDangling⟩ := ih
              exact ⟨c, List.mem_cons_of_mem _ hMem, hDangling⟩
          | ok values =>
              rw [hRest] at ih
              refine ⟨.cons hFirst.1 ih.1, fun c hMem => ?_⟩
              rcases List.mem_cons.1 hMem with rfl | hLater
              · exact hFirst.2
              · exact ih.2 c hLater

end Heap

/-! ## The plan of a write -/

namespace ActionKind

/-- The columns that a write gives values to, in the order of their
declaration. -/
def columns (d : Descriptor) : ActionKind → List Column
  | insert => d.insertedColumns
  | update => d.updatedColumns
  | delete => []

/-- What a write ends with: the identifier that it finds its row by. -/
def lastValues (d : Descriptor) (e : Instance) : ActionKind → List Value
  | insert => []
  | _ => [d.idValue e]

/-- The text that a write sends. -/
def text (d : Descriptor) : ActionKind → String
  | insert =>
    if d.insertedColumns = [] then
      "INSERT INTO " ++ d.table ++ " DEFAULT VALUES"
    else
      "INSERT INTO " ++ d.table ++ "(" ++
        String.intercalate ", " (d.insertedColumns.map Column.name) ++
        ") VALUES (" ++ String.intercalate ","
          (List.replicate d.insertedColumns.length "?") ++ ")"
  | update =>
    "UPDATE " ++ d.table ++ " SET " ++ String.intercalate ", "
      (d.updatedColumns.map fun c => c.name ++ " = ?") ++
      " WHERE " ++ d.identifier.name ++ " = ?"
  | delete =>
    "DELETE FROM " ++ d.table ++ " WHERE " ++ d.identifier.name ++ " = ?"

/-- The text that goes with a write is that of its call. -/
theorem render_call (d : Descriptor) (params : List Value)
    (kind : ActionKind) :
    (kind.call d params).statement?.map Statement.render =
      some (kind.text d) := by
  cases kind with
  | insert =>
      unfold call text Call.statement?
      cases hColumns : d.insertedColumns with
      | nil => rfl
      | cons first rest =>
          unfold Statement.render
          simp only [Option.map_some, List.map_cons, List.map_const',
            List.length_cons, List.length_map, List.replicate_succ,
            reduceCtorEq, if_false]
  | update =>
      unfold call text Call.statement? Statement.render
      simp only [Option.map_some, List.map_map, Function.comp_def]
  | delete => rfl

theorem mem_columns_iff {d : Descriptor} {c : Column} {kind : ActionKind}
    (hJoin : c.isJoin = true) :
    c ∈ kind.columns d ↔ c ∈ d.columns ∧ kind ≠ .delete := by
  have hOther : c.isGenerated = false ∧ c.isIdentifier = false := by
    unfold Column.isJoin at hJoin
    unfold Column.isGenerated Column.isIdentifier
    split at hJoin
    · rename_i hContent
      rw [hContent]
      exact ⟨rfl, rfl⟩
    · cases hJoin
  cases kind <;>
    simp [columns, Descriptor.insertedColumns, Descriptor.updatedColumns,
      hOther]

end ActionKind

theorem Heap.Dangling.isJoin {e : Instance} {c : Column} {err : Error}
    (h : heap.Dangling schema e c err) : c.isJoin = true := by
  obtain ⟨kind, target, r, hContent, _⟩ := h
  rw [Column.isJoin, hContent]

namespace Action

/-- What is in the way of an action, and how that is reported: the entity is
borrowed for change, its row cannot be found, or something is wrong with what
one of its columns refers to. -/
inductive Obstacle (schema : Schema) (heap : Heap) (d : Descriptor)
    (action : Action) : Error → Prop
  | borrowed (hBorrowed : (heap.get action.entity).isReadable = false) :
    Obstacle schema heap d action (.state (.entityBorrowed d.typeName))
  | unset (hKind : action.kind ≠ .insert)
      (hUnset : (d.idValue (heap.get action.entity)).isNull = true) :
    Obstacle schema heap d action
      (.state (.idUnset action.kind.name d.typeName))
  | dangling {c : Column} {err : Error} (hKind : action.kind ≠ .delete)
      (hMem : c ∈ d.columns)
      (hDangling : heap.Dangling schema (heap.get action.entity) c err) :
    Obstacle schema heap d action err

/-- The parameters of an action: the values of its columns, one after another,
and then what it finds its row by. -/
def Binds (schema : Schema) (heap : Heap) (d : Descriptor) (action : Action)
    (params : List Value) : Prop :=
  ∃ values, params =
      values ++ action.kind.lastValues d (heap.get action.entity) ∧
    List.Forall₂ (heap.ValueFor schema (heap.get action.entity))
      (action.kind.columns d) values

variable {d : Descriptor} {action : Action}

theorem not_obstacle (hReadable : (heap.get action.entity).isReadable = true)
    (hId : action.kind ≠ .insert →
      (d.idValue (heap.get action.entity)).isNull = false)
    (hColumns : ∀ c ∈ action.kind.columns d, ∀ err,
      ¬ heap.Dangling schema (heap.get action.entity) c err) (err : Error) :
    ¬ Obstacle schema heap d action err := by
  intro h
  cases h with
  | borrowed hBorrowed => cases hReadable.symm.trans hBorrowed
  | unset hKind hUnset => cases (hId hKind).symm.trans hUnset
  | @dangling c _ hKind hMem hDangling =>
      exact hColumns c
        ((ActionKind.mem_columns_iff hDangling.isJoin).2 ⟨hMem, hKind⟩) _
        hDangling

/-- A column that a write gives a value to can be in its way. -/
theorem obstacle_of_columns {err : Error}
    (h : ∃ c ∈ action.kind.columns d,
      heap.Dangling schema (heap.get action.entity) c err) :
    Obstacle schema heap d action err := by
  obtain ⟨c, hMem, hDangling⟩ := h
  obtain ⟨hColumn, hKind⟩ :=
    (ActionKind.mem_columns_iff hDangling.isJoin).1 hMem
  exact .dangling hKind hColumn hDangling

/-- An action is planned if nothing is in its way, and what it calls binds its
parameters to its columns. -/
theorem planned (hD : schema.descriptor (heap.get action.entity).type = .ok d) :
    match action.call? schema heap with
    | .error err => Obstacle schema heap d action err
    | .ok c? => (∀ err, ¬ Obstacle schema heap d action err) ∧
      ∀ c, c? = some c → ∃ params,
        c = action.kind.call d params ∧ Binds schema heap d action params := by
  obtain ⟨kind, ref⟩ := action
  have hColumns := heap.valuesOf_cases schema (heap.get ref) (kind.columns d)
  simp only [call?, Heap.writable, hD, except_ok_bind]
  cases hReadable : (heap.get ref).isReadable with
  | false => exact .borrowed hReadable
  | true =>
      simp only [if_true, except_ok_bind]
      cases kind with
      | insert =>
          simp only [ActionKind.columns] at hColumns
          simp only [Heap.insertion]
          cases hValues : heap.valuesOf schema (heap.get ref)
            d.insertedColumns with
          | error err =>
              rw [hValues] at hColumns
              exact obstacle_of_columns hColumns
          | ok values =>
              rw [hValues] at hColumns
              refine ⟨not_obstacle hReadable (fun h => absurd rfl h)
                hColumns.2, ?_⟩
              rintro c ⟨⟩
              exact ⟨values, rfl, values, (List.append_nil _).symm, hColumns.1⟩
      | update =>
          simp only [ActionKind.columns] at hColumns
          simp only [Heap.updating, Heap.requireId]
          cases hUnset : (d.idValue (heap.get ref)).isNull with
          | true => exact .unset (fun h => by cases h) hUnset
          | false =>
              simp only [Bool.false_eq_true, if_false, except_ok_bind]
              cases hValues : heap.valuesOf schema (heap.get ref)
                d.updatedColumns with
              | error err =>
                  rw [hValues] at hColumns
                  exact obstacle_of_columns hColumns
              | ok values =>
                  rw [hValues] at hColumns
                  have hFree : ∀ err,
                      ¬ Obstacle schema heap d ⟨.update, ref⟩ err :=
                    not_obstacle hReadable (fun _ => hUnset) hColumns.2
                  cases hUpdated : d.updatedColumns with
                  | nil => exact ⟨hFree, fun c hNone => by cases hNone⟩
                  | cons first rest =>
                      refine ⟨hFree, ?_⟩
                      rintro c ⟨⟩
                      refine ⟨values ++ [d.idValue (heap.get ref)], ?_,
                        values, rfl, hColumns.1⟩
                      rw [ActionKind.call, hUpdated]
      | delete =>
          simp only [Heap.deletion, Heap.requireId]
          cases hUnset : (d.idValue (heap.get ref)).isNull with
          | true => exact .unset (fun h => by cases h) hUnset
          | false =>
              refine ⟨not_obstacle hReadable (fun _ => hUnset)
                (fun c hMem => by cases hMem), ?_⟩
              rintro c ⟨⟩
              exact ⟨[d.idValue (heap.get ref)], rfl, [], rfl, .nil⟩

end Action

/-! ## What a write sends -/

variable {d : Descriptor} {action : Action}

/-- A statement that has been sent for an action: its text is that of the
action, it has a placeholder for each parameter, and the parameters are bound
to the columns. -/
structure Action.Sends (schema : Schema) (heap : Heap) (d : Descriptor)
    (action : Action) (params : List Value) (statement : Statement) :
    Prop where
  call : (action.kind.call d params).statement? = some statement
  text : statement.render = action.kind.text d
  marks : Text.marks statement.render = params.length + statement.nameMarks
  binds : action.Binds schema heap d params

/-- What is read of a key is the only thing that has been changed in the
instances. -/
def Heap.Assigned (d : Descriptor) (ref : Ref) (key : Option Value)
    (before after : Heap) : Prop :=
  ∃ v type held, key = some v ∧ d.identifier.type? = some type ∧
    type.read v = .ok held ∧ after = before.modify ref fun _ =>
      (before.get ref).set d.identifier.field (.scalar held)

/-- A key that is received is assigned, or nothing is changed. -/
theorem Action.Received.assigns {p : Persister} {key : Option Value}
    {r : Except Error Unit} {env after : Env σ}
    (h : action.Received p key env r after)
    (hD : p.schema.descriptor (env.heap.get action.entity).type = .ok d) :
    (r = .ok () → action.kind = .insert → d.identifier.isGenerated = true →
      Heap.Assigned d action.entity key env.heap after.heap) ∧
    (¬ (r = .ok () ∧ action.kind = .insert ∧
      d.identifier.isGenerated = true) → after.heap = env.heap) := by
  cases h with
  | refused e => exact ⟨(fun hOk => by cases hOk), fun _ => rfl⟩
  | none hNone =>
      refine ⟨fun _ hInsert hGenerated => ?_, fun _ => rfl⟩
      obtain ⟨d', hD', hNot⟩ := hNone hInsert
      cases hD.symm.trans hD'
      cases hGenerated.symm.trans hNot
  | @assigned d' v keyed hKind hD' hGenerated hKey hKeyed =>
      cases hD.symm.trans hD'
      refine ⟨fun _ _ _ => ?_,
        fun hNot => absurd ⟨rfl, hKind, hGenerated⟩ hNot⟩
      rcases Descriptor.withId_cases hKeyed with
        ⟨type, held, hType, hRead, rfl⟩ | ⟨hNone, _⟩
      · exact ⟨v, type, held, hKey, hType, hRead, rfl⟩
      · have hId := Schema.isIdentifier_identifier hD
        rw [Column.isIdentifier] at hId
        rw [Column.type?] at hNone
        split at hId
        · rename_i hContent
          rw [hContent] at hNone
          cases hNone
        · cases hId

variable [Driver σ] {p : Persister} {conn : ConnId} {env : Env σ}

/-- A call has been carried out for an action: the driver touched one row, and
the key that it returned is assigned if it has been generated. -/
def Persister.Accepted (conn : ConnId) (c : Call) (d : Descriptor)
    (action : Action) (env after : Env σ) : Prop :=
  ∃ answer, (Driver.call conn c env.driver).1 = .ok answer ∧
    (c.receipt answer).1 = 1 ∧
      (action.kind = .insert → d.identifier.isGenerated = true →
        Heap.Assigned d action.entity (c.receipt answer).2 env.heap after.heap)

/-- What comes of a write, and what it leaves. -/
structure Persister.LinesUp (p : Persister) (conn : ConnId) (d : Descriptor)
    (action : Action) (env : Env σ) (r : Except Error Unit) (after : Env σ) :
    Prop where
  /-- If something is in the way that is reported, and nothing happens. -/
  refused : (∃ err, action.Obstacle p.schema env.heap d err) →
    ∃ err, action.Obstacle p.schema env.heap d err ∧ r = .error err ∧
      after = env
  /-- There may be nothing to assign. -/
  idle : (∀ err, ¬ action.Obstacle p.schema env.heap d err) →
    action.kind = .update → d.updatedColumns = [] → r = .ok () ∧ after = env
  /-- Otherwise just one statement is sent, and the write succeeds only if it
  has been carried out. -/
  sent : (∀ err, ¬ action.Obstacle p.schema env.heap d err) →
    (action.kind = .update → d.updatedColumns ≠ []) →
      ∃ params statement,
        action.Sends p.schema env.heap d params statement ∧
        after = { p.calling conn (action.kind.call d params) env with
          heap := after.heap } ∧
        (r = .ok () → Accepted conn (action.kind.call d params) d action env
          after)
  /-- Only an insert that succeeds changes an instance, and only if its key is
  generated. -/
  kept : ¬ (r = .ok () ∧ action.kind = .insert ∧
    d.identifier.isGenerated = true) → after.heap = env.heap

/-- What is planned for an action is sent with as many parameters as the
statement has placeholders. -/
theorem Action.sends_of_binds {params : List Value}
    (h : action.Binds schema heap d params) :
    ∃ statement, action.Sends schema heap d params statement := by
  have hLength : params.length = (action.kind.columns d).length +
      (action.kind.lastValues d (heap.get action.entity)).length := by
    obtain ⟨values, rfl, hValues⟩ := h
    rw [List.length_append, hValues.length_eq]
  cases hStatement : (action.kind.call d params).statement? with
  | none =>
      obtain ⟨_ | _ | _, _⟩ := action <;> cases hStatement
  | some statement =>
      have hText := action.kind.render_call d params
      rw [hStatement] at hText
      refine ⟨statement, hStatement, Option.some.inj hText,
        Statement.marks_render ?_, h⟩
      obtain ⟨_ | _ | _, _⟩ := action <;> cases hStatement <;>
        simp [Statement.parameterCount?, hLength, ActionKind.columns,
          ActionKind.lastValues]

namespace Persister.LinesUp

variable {r : Except Error Unit} {after : Env σ}

/-- A write that is refused before anything is sent. -/
theorem of_obstacle {err : Error}
    (h : action.Obstacle p.schema env.heap d err) :
    p.LinesUp conn d action env (.error err) env where
  refused := fun _ => ⟨err, h, rfl, rfl⟩
  idle := fun hFree => absurd h (hFree err)
  sent := fun hFree => absurd h (hFree err)
  kept := fun _ => rfl

/-- An update that has nothing to assign. -/
theorem of_idle (hFree : ∀ err, ¬ action.Obstacle p.schema env.heap d err)
    (hKind : action.kind = .update) (hNil : d.updatedColumns = []) :
    p.LinesUp conn d action env (.ok ()) env where
  refused := fun ⟨err, hErr⟩ => absurd hErr (hFree err)
  idle := fun _ _ _ => ⟨rfl, rfl⟩
  sent := fun _ hColumns => absurd hNil (hColumns hKind)
  kept := fun _ => rfl

/-- A write whose call has been made. -/
theorem of_sent {params : List Value} {statement : Statement}
    (hFree : ∀ err, ¬ action.Obstacle p.schema env.heap d err)
    (hColumns : ¬ (action.kind = .update ∧ d.updatedColumns = []))
    (hSends : action.Sends p.schema env.heap d params statement)
    (hAfter : after = { p.calling conn (action.kind.call d params) env with
      heap := after.heap })
    (hOk : r = .ok () →
      Accepted conn (action.kind.call d params) d action env after)
    (hKept : ¬ (r = .ok () ∧ action.kind = .insert ∧
      d.identifier.isGenerated = true) → after.heap = env.heap) :
    p.LinesUp conn d action env r after where
  refused := fun ⟨err, hErr⟩ => absurd hErr (hFree err)
  idle := fun _ hKind hNil => absurd ⟨hKind, hNil⟩ hColumns
  sent := fun _ _ => ⟨params, statement, hSends, hAfter, hOk⟩
  kept := hKept

end Persister.LinesUp

namespace Persister

/-- Statements and parameters line up: what the text of a write lists and what
is bound to it are the same columns in the same order, what is in the way is
found before anything is sent, and only a generated key changes the entity. -/
theorem write_linesUp
    (hD : p.schema.descriptor (env.heap.get action.entity).type = .ok d) :
    p.LinesUp conn d action env ((p.write conn action).run env).1
      ((p.write conn action).run env).2 := by
  have hPlanned := Action.planned hD
  rw [p.write_run]
  cases hCall : action.call? p.schema env.heap with
  | error e =>
      rw [hCall] at hPlanned
      exact .of_obstacle hPlanned
  | ok c? =>
      rw [hCall] at hPlanned
      obtain ⟨hFree, hSome⟩ := hPlanned
      cases c? with
      | none =>
          obtain ⟨hKind, d', hD', hNil⟩ := Action.nil_of_call?_none hCall
          cases hD.symm.trans hD'
          exact .of_idle hFree hKind hNil
      | some c =>
          obtain ⟨params, rfl, hBinds⟩ := hSome c rfl
          obtain ⟨statement, hSends⟩ := Action.sends_of_binds hBinds
          have hColumns :
              ¬ (action.kind = .update ∧ d.updatedColumns = []) := by
            rintro ⟨hKind, hNil⟩
            have hSome := Action.isSome_call? hCall
            rw [Action.sends, hKind] at hSome
            simp [hD, hNil] at hSome
          dsimp only
          cases hAnswer : (Driver.call conn (action.kind.call d params)
            env.driver).1 with
          | error e =>
              exact .of_sent hFree hColumns hSends rfl (fun h => by cases h)
                fun _ => rfl
          | ok answer =>
              dsimp only
              cases hCount : expectOne action.kind.name
                ((action.kind.call d params).receipt answer).1 with
              | error e =>
                  exact .of_sent hFree hColumns hSends rfl
                    (fun h => by cases h) fun _ => rfl
              | ok _ =>
                  have hKey := action.received p
                    ((action.kind.call d params).receipt answer).2
                    (p.calling conn (action.kind.call d params) env)
                  obtain ⟨hAssigned, hKept⟩ := hKey.assigns hD
                  exact .of_sent hFree hColumns hSends hKey.env_eq.1
                    (fun hOk => ⟨answer, hAnswer,
                      Action.expectOne_eq_ok_iff.1 hCount, hAssigned hOk⟩)
                    hKept

end Persister

/-! ## A branch on a branch -/

namespace Branches

/-- What its descriptor says of a branch. -/
def described : Descriptor :=
  ⟨"Branch", "branches", [.column number, .column name, .column stem], number⟩

/-- A store of one branch, and a new branch on it; whether the old one knows
its number is open. -/
def sprouting (id : Value) : Env Store where
  driver := store [[.int 1, .text "a", .null]]
  heap := ⟨[branch id "a" none, branch .null "b" (some 0)]⟩

end Branches

/-- A new branch is inserted with its name and the number of the branch that it
grows on, and is given its own number; without the number of the other branch
nothing is sent. -/
theorem Persister.write_linesUp_of_branches :
    (∃ r after, Branches.persister.LinesUp 0 Branches.described ⟨.insert, 1⟩
      (Branches.sprouting (.int 1)) r after ∧ r = .ok () ∧
      (after.trace.map fun made => made.2.statement?.map Statement.render) =
        [some "INSERT INTO branches(name, stem_id) VALUES (?,?)"] ∧
      (after.trace.map fun made => (made.2.bound? "stem_id").map Value.asInt?) =
        [some (some 1)] ∧
      ((after.heap.get 1).scalar "id").asInt? = some 2) ∧
    (∃ r after, Branches.persister.LinesUp 0 Branches.described ⟨.insert, 1⟩
      (Branches.sprouting .null) r after ∧
      r = .error (.state (.relatedWithoutId "Branch" "stem")) ∧
      after.trace = []) := by
  refine ⟨⟨_, _, Persister.write_linesUp rfl,
    except_eq_ok_of_isOk (by decide +kernel), by decide +kernel,
    by decide +kernel, by decide +kernel⟩,
    ⟨_, _, Persister.write_linesUp rfl, rfl, rfl⟩⟩

end UnitOfWork

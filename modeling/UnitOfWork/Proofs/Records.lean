import UnitOfWork.Proofs.Readings
import UnitOfWork.Proofs.Tables

/-!
# Entities and their rows

What tables say about entities: under a key they have the values that some row
with the key's identifier reads as. An entity that is written with the values
of its fields is there from then on, just as it is; nothing is said anew about
the entities with other keys.

## Main results

* `Loader.ReadsTo.get?_identifier`: a row reads as an entity with the
  identifier that the row has;
* `Tables.has_insert`, `Tables.has_update`, `Tables.has_delete`: what writing
  an entity changes.
-/

namespace UnitOfWork

/-! ## What a row reads as -/

/-- A row reads as an entity with an identifier and these values of its own
columns. -/
def Loader.ReadsTo (d : Descriptor) (row : Row) (id : EntityId)
    (values : List Value) : Prop :=
  ∃ e, readRow d row = .ok e ∧ requireId d e = .ok id ∧ d.snapshot e = values

/-- The fields of an instance hold values of their types, and none of them is
unequal to itself, as NaN is. -/
structure Descriptor.Accepts (d : Descriptor) (x : Instance) : Prop where
  holds : ∀ c ∈ d.scalarColumns, ∀ type, c.type? = some type →
    type.Holds (x.scalar c.field)
  equal : ∀ c ∈ d.scalarColumns,
    (x.scalar c.field).equal (x.scalar c.field) = true

/-- Tables have these values under a key. -/
def Tables.Has (schema : Schema) (tables : Tables) (key : Key)
    (values : List Value) : Prop :=
  ∃ d, schema.descriptor key.type = .ok d ∧
    ∃ row ∈ tables.shown d.table, Loader.ReadsTo d row key.id values

/-- Tables that suit a schema: the table of each type is regular. -/
def Tables.Suit (schema : Schema) (tables : Tables) : Prop :=
  ∀ type d, schema.descriptor type = .ok d →
    tables.Regular d.identifier.name d.table

variable {schema : Schema} {d : Descriptor} {row : Row} {x : Instance}
  {id : EntityId} {values : List Value} {heap : Heap}

namespace Loader

theorem ReadsTo.get?_identifier (h : ReadsTo d row id values)
    (hAlone : schema.IdentifierAlone)
    (hD : schema.descriptor d.typeName = .ok d) :
    row.get? d.identifier.name = some id.toValue := by
  obtain ⟨e, hRead, hId, _⟩ := h
  exact (Row.getRequired_eq_ok_iff ..).1
    (getRequired_of_requireId hAlone hD hRead hId)

/-- A row has one identifier. -/
theorem ReadsTo.id_eq (h : ReadsTo d row id values)
    (hAlone : schema.IdentifierAlone)
    (hD : schema.descriptor d.typeName = .ok d) {other : EntityId}
    (hGet : row.get? d.identifier.name = some other.toValue) : id = other := by
  have hOwn := h.get?_identifier hAlone hD
  exact EntityId.toValue_injective (Option.some.inj (hOwn.symm.trans hGet))

/-- What a row that reads as an instance reads to. -/
theorem readsTo_of_reads (h : Reads d row x) (hFields : schema.FieldsDiffer)
    (hD : schema.descriptor d.typeName = .ok d)
    (hId : d.entityId x = .ok (some id)) :
    ReadsTo d row id (d.snapshot x) := by
  obtain ⟨e, hRead, hSnapshot, hEntity⟩ := readRow_of_reads hFields hD h
  refine ⟨e, hRead, ?_, hSnapshot⟩
  rw [requireId, hEntity, hId]
  rfl

/-- It reads to nothing else. -/
theorem ReadsTo.eq_of_reads (h : ReadsTo d row id values)
    (hReads : Reads d row x) (hFields : schema.FieldsDiffer)
    (hD : schema.descriptor d.typeName = .ok d) : values = d.snapshot x := by
  obtain ⟨e, hRead, _, rfl⟩ := h
  obtain ⟨e', hRead', hSnapshot, _⟩ := readRow_of_reads hFields hD hReads
  cases hRead.symm.trans hRead'
  exact hSnapshot

end Loader

/-! ## What is written for an entity -/

/-- A column is written with the value that the instance has for it. -/
theorem Heap.exists_valueOf {columns : List Column}
    (h : heap.valuesOf schema x columns = .ok values) {c : Column}
    (hC : c ∈ columns) :
    ∃ v, heap.valueOf schema x c = .ok v ∧
      (c.name, v) ∈ (columns.map Column.name).zip values := by
  unfold valuesOf at h
  induction columns generalizing values with
  | nil => cases hC
  | cons first rest ih =>
      rw [List.mapM_cons] at h
      obtain ⟨v, hV, hMore⟩ := except_bind_eq_ok.1 h
      obtain ⟨others, hOthers, hAll⟩ := except_bind_eq_ok.1 hMore
      cases hAll
      rcases List.mem_cons.1 hC with rfl | hLater
      · exact ⟨v, hV, List.mem_cons_self ..⟩
      · obtain ⟨w, hW, hMem⟩ := ih hOthers hLater
        exact ⟨w, hW, List.mem_cons_of_mem _ hMem⟩

/-- A column of an instance's own is written with the value of its field. -/
theorem Heap.mem_zip_valuesOf {columns : List Column}
    (h : heap.valuesOf schema x columns = .ok values) {c : Column}
    (hC : c ∈ columns) (hJoin : c.isJoin = false) :
    (c.name, x.scalar c.field) ∈ (columns.map Column.name).zip values := by
  obtain ⟨v, hV, hMem⟩ := exists_valueOf h hC
  have hValue : v = x.scalar c.field := by
    unfold valueOf at hV
    split at hV
    · rename_i hContent
      rw [Column.isJoin, hContent] at hJoin
      cases hJoin
    · exact (Except.ok.inj hV).symm
  rw [← hValue]
  exact hMem

/-- Values that fields accept are equal to themselves. -/
theorem Descriptor.Accepts.equalAll (h : d.Accepts x) :
    Value.equalAll (d.snapshot x) (d.snapshot x) = true :=
  Value.equalAll_map_iff.2 h.equal

/-- If a type has no column but the identifier, entities with the same
identifier have the same values. -/
theorem Descriptor.snapshot_eq {y : Instance}
    (hD : schema.descriptor d.typeName = .ok d) (hNil : d.updatedColumns = [])
    (hId : d.entityId x = .ok (some id)) (hOther : d.entityId y = .ok (some id)) :
    d.snapshot x = d.snapshot y := by
  refine List.map_congr_left fun c hC => ?_
  rcases (mem_scalarColumns hD hC).2 with rfl | hUpdated
  · exact (EntityId.toValue_of_ofValue hId).symm.trans
      (EntityId.toValue_of_ofValue hOther)
  · rw [hNil] at hUpdated
    cases hUpdated

namespace Tables

variable {tables after : Tables} {key : Key} {outcome : Outcome}

theorem has_iff (hD : schema.descriptor key.type = .ok d) :
    tables.Has schema key values ↔
      ∃ row ∈ tables.shown d.table, Loader.ReadsTo d row key.id values := by
  constructor
  · rintro ⟨d', hD', hRow⟩
    cases hD.symm.trans hD'
    exact hRow
  · exact fun hRow => ⟨d, hD, hRow⟩

theorem Has.eq_snapshot (h : tables.Has schema ⟨d.typeName, id⟩ values)
    (hD : schema.descriptor d.typeName = .ok d) (hNil : d.updatedColumns = [])
    (hId : d.entityId x = .ok (some id)) : values = d.snapshot x := by
  obtain ⟨row, _, e, _, hRequired, rfl⟩ := (has_iff hD).1 h
  exact Descriptor.snapshot_eq hD hNil (Loader.requireId_eq_ok hRequired) hId

/-- Entities of other types are in other tables. -/
theorem Written.has_iff (h : Written d.table tables after)
    (hApart : schema.Apart) (hD : schema.descriptor d.typeName = .ok d)
    (hType : key.type ≠ d.typeName) :
    after.Has schema key values ↔ tables.Has schema key values := by
  have hShown : ∀ d', schema.descriptor key.type = .ok d' →
      after.shown d'.table = tables.shown d'.table := fun d' hD' =>
    h.others _ fun hTable => hType (hApart.tables _ _ _ _ hD' hD hTable)
  constructor
  · rintro ⟨d', hD', hRow⟩
    exact ⟨d', hD', hShown d' hD' ▸ hRow⟩
  · rintro ⟨d', hD', hRow⟩
    exact ⟨d', hD', (hShown d' hD').symm ▸ hRow⟩

/-- A write leaves tables as suitable as they were. -/
theorem Written.suit {table : String} (h : Written table tables after)
    (hSuit : tables.Suit schema) : after.Suit schema :=
  fun type d hD => h.regular _ _ (hSuit type d hD)

/-- A row with the identifier of an entity reads as the entity when it has been
updated. -/
theorem reads_updated {next : Row} (hD : schema.descriptor d.typeName = .ok d)
    (hAccepts : d.Accepts x) (hId : d.entityId x = .ok (some id))
    (hValues : heap.valuesOf schema x d.updatedColumns = .ok values)
    (hHas : row.get? d.identifier.name = some id.toValue)
    (hNew : ∀ c v, (c, v) ∈ (d.updatedColumns.map Column.name).zip values →
      next.get? c = some v)
    (hOld : ∀ c, NotAmong (d.updatedColumns.map Column.name) c →
      next.get? c = row.get? c) : Loader.Reads d next x := by
  intro c hC
  obtain ⟨hJoin, hCases⟩ := Descriptor.mem_scalarColumns hD hC
  obtain ⟨type, hType⟩ := Column.type?_of_isJoin hJoin
  refine ⟨type, x.scalar c.field, hType, ?_, hAccepts.holds c hC type hType⟩
  rcases hCases with rfl | hUpdated
  · rw [hOld _ (Schema.notAmong_updatedColumns hD), hHas]
    exact congrArg some (EntityId.toValue_of_ofValue hId)
  · exact hNew _ _ (Heap.mem_zip_valuesOf hValues hUpdated hJoin)

/-- What the rows of an update read to: those with the identifier of the entity
to the entity, and all others to what they did. -/
theorem readsTo_updated_iff {next : Row} {other : EntityId}
    (hFields : schema.FieldsDiffer) (hD : schema.descriptor d.typeName = .ok d)
    (hId : d.entityId x = .ok (some id))
    (hReads : row.get? d.identifier.name = some id.toValue →
      Loader.Reads d next x)
    (hSame : row.get? d.identifier.name ≠ some id.toValue → next = row) :
    Loader.ReadsTo d next other values ↔
      row.get? d.identifier.name = some id.toValue ∧
          other = id ∧ values = d.snapshot x ∨
        other ≠ id ∧ Loader.ReadsTo d row other values := by
  have hAlone := hFields.identifierAlone
  by_cases hHit : row.get? d.identifier.name = some id.toValue
  · have hNext := Loader.readsTo_of_reads (hReads hHit) hFields hD hId
    constructor
    · intro hOther
      have hEq : other = id :=
        hOther.id_eq hAlone hD (hNext.get?_identifier hAlone hD)
      exact Or.inl ⟨hHit, hEq, hOther.eq_of_reads (hReads hHit) hFields hD⟩
    · rintro (⟨_, rfl, rfl⟩ | ⟨hNe, hOther⟩)
      · exact hNext
      · exact absurd (hOther.id_eq hAlone hD hHit) hNe
  · rw [hSame hHit]
    constructor
    · intro hOther
      refine Or.inr ⟨?_, hOther⟩
      rintro rfl
      exact hHit (hOther.get?_identifier hAlone hD)
    · rintro (⟨hHas, _⟩ | ⟨_, hOther⟩)
      · exact absurd hHas hHit
      · exact hOther

/-- What an update leaves under all keys: under that of the entity its values,
if there was anything, and under the others what was there. -/
theorem has_update (hApart : schema.Apart)
    (hD : schema.descriptor d.typeName = .ok d) (hAccepts : d.Accepts x)
    (hId : d.entityId x = .ok (some id))
    (hValues : heap.valuesOf schema x d.updatedColumns = .ok values)
    (hRegular : tables.Regular d.identifier.name d.table)
    (hRun : run .exact (.updateBy d.table (d.updatedColumns.map Column.name)
      d.identifier.name) (values ++ [id.toValue]) tables =
        .ok (outcome, after)) :
    Written d.table tables after ∧
    (∀ key v, key ≠ ⟨d.typeName, id⟩ →
      (after.Has schema key v ↔ tables.Has schema key v)) ∧
    (∀ v, after.Has schema ⟨d.typeName, id⟩ v → v = d.snapshot x) ∧
    ∀ old, tables.Has schema ⟨d.typeName, id⟩ old →
      after.Has schema ⟨d.typeName, id⟩ (d.snapshot x) := by
  obtain ⟨hWritten, g, hShown, hRows⟩ :=
    run_updateBy hRegular (Schema.namesDiffer_filter hD _) hRun
  have hReadsTo : ∀ row ∈ tables.shown d.table, ∀ other v,
      Loader.ReadsTo d (g row) other v ↔
        row.get? d.identifier.name = some id.toValue ∧
            other = id ∧ v = d.snapshot x ∨
          other ≠ id ∧ Loader.ReadsTo d row other v := by
    intro row hRow other v
    obtain ⟨hSame, hUpdated⟩ := hRows row hRow
    refine readsTo_updated_iff hApart.fieldsDiffer hD hId ?_ hSame
    intro hHas
    obtain ⟨hNew, hOld⟩ := hUpdated hHas
    exact reads_updated hD hAccepts hId hValues hHas hNew hOld
  refine ⟨hWritten, ?_, ?_, ?_⟩
  · intro key v hNe
    by_cases hType : key.type = d.typeName
    · have hD' : schema.descriptor key.type = .ok d := hType ▸ hD
      have hOther : key.id ≠ id := by
        intro hSame
        exact hNe (by rw [← hType, ← hSame])
      rw [Tables.has_iff hD', Tables.has_iff hD', hShown]
      constructor
      · rintro ⟨_, hMem, hAfter⟩
        obtain ⟨row, hRow, rfl⟩ := List.mem_map.1 hMem
        rcases (hReadsTo row hRow _ _).1 hAfter with ⟨_, hSame, _⟩ | ⟨_, hBefore⟩
        · exact absurd hSame hOther
        · exact ⟨row, hRow, hBefore⟩
      · rintro ⟨row, hRow, hBefore⟩
        exact ⟨g row, List.mem_map_of_mem hRow,
          (hReadsTo row hRow _ _).2 (Or.inr ⟨hOther, hBefore⟩)⟩
    · exact hWritten.has_iff hApart hD hType
  · intro v hHas
    obtain ⟨_, hMem, hAfter⟩ := (Tables.has_iff hD).1 hHas
    rw [hShown] at hMem
    obtain ⟨row, hRow, rfl⟩ := List.mem_map.1 hMem
    rcases (hReadsTo row hRow _ _).1 hAfter with ⟨_, _, hV⟩ | ⟨hNe, _⟩
    · exact hV
    · exact absurd rfl hNe
  · intro old hHas
    obtain ⟨row, hRow, hBefore⟩ := (Tables.has_iff hD).1 hHas
    have hHit := hBefore.get?_identifier hApart.identifierAlone hD
    refine (Tables.has_iff hD).2 ⟨g row, ?_, ?_⟩
    · rw [hShown]
      exact List.mem_map_of_mem hRow
    · exact (hReadsTo row hRow _ _).2 (Or.inl ⟨hHit, rfl, rfl⟩)

/-- A delete leaves nothing under the key of the entity, and under the others
what was there. -/
theorem has_delete (hApart : schema.Apart)
    (hD : schema.descriptor d.typeName = .ok d)
    (hRegular : tables.Regular d.identifier.name d.table)
    (hRun : run .exact (.deleteBy d.table d.identifier.name) [id.toValue]
      tables = .ok (outcome, after)) :
    Written d.table tables after ∧ ∀ key v, after.Has schema key v ↔
      key ≠ ⟨d.typeName, id⟩ ∧ tables.Has schema key v := by
  obtain ⟨hWritten, hRows⟩ := run_deleteBy hRegular hRun
  refine ⟨hWritten, ?_⟩
  intro key v
  by_cases hType : key.type = d.typeName
  · have hD' : schema.descriptor key.type = .ok d := hType ▸ hD
    have hKey : ∀ {row}, Loader.ReadsTo d row key.id v →
        (row.get? d.identifier.name ≠ some id.toValue ↔
          key ≠ ⟨d.typeName, id⟩) := by
      intro row hReadsTo
      refine not_congr ⟨?_, ?_⟩
      · intro hGet
        rw [← hType, ← hReadsTo.id_eq hApart.identifierAlone hD hGet]
      · intro hEq
        rw [hReadsTo.get?_identifier hApart.identifierAlone hD, hEq]
    rw [Tables.has_iff hD', Tables.has_iff hD']
    constructor
    · rintro ⟨row, hMem, hReadsTo⟩
      obtain ⟨hRow, hNe⟩ := (hRows row).1 hMem
      exact ⟨(hKey hReadsTo).1 hNe, row, hRow, hReadsTo⟩
    · rintro ⟨hNe, row, hRow, hReadsTo⟩
      exact ⟨row, (hRows row).2 ⟨hRow, (hKey hReadsTo).2 hNe⟩, hReadsTo⟩
  · rw [hWritten.has_iff hApart hD hType]
    refine ⟨fun hHas => ⟨fun hEq => hType ?_, hHas⟩, fun h => h.2⟩
    rw [hEq]

/-- What an inserted entity is once its row is there: as it was, or with the
identifier that was generated for it. -/
def Keyed (d : Descriptor) (key : Option Value) (x keyed : Instance) : Prop :=
  d.identifier.isGenerated = false ∧ keyed = x ∨
    d.identifier.isGenerated = true ∧ ∃ k, key = some k ∧
      d.withId x k = .ok keyed

/-- The new row of an entity reads as the entity. -/
theorem reads_inserted {keyed : Instance} (hAlone : schema.IdentifierAlone)
    (hD : schema.descriptor d.typeName = .ok d) (hAccepts : d.Accepts x)
    (hKeyed : Keyed d outcome.key x keyed)
    (hId : d.entityId keyed = .ok (some id))
    (hValues : ∀ c ∈ d.scalarColumns, c.isGenerated = false →
      (x.scalar c.field).isNull = false ∨
        Text.sameIgnoringCase c.name d.identifier.name = false →
          row.get? c.name = some (x.scalar c.field))
    (hKey : ∀ k, outcome.key = some k → row.get? d.identifier.name = some k) :
    Loader.Reads d row keyed := by
  intro c hC
  obtain ⟨hJoin, hCases⟩ := Descriptor.mem_scalarColumns hD hC
  obtain ⟨type, hType⟩ := Column.type?_of_isJoin hJoin
  have hHolds := hAccepts.holds c hC type hType
  rcases hCases with rfl | hUpdated
  · rcases hKeyed with ⟨hNot, rfl⟩ | ⟨_, k, hK, hWith⟩
    · refine ⟨type, _, hType, hValues _ hC hNot (Or.inl ?_), hHolds⟩
      have hValue := EntityId.toValue_of_ofValue hId
      rw [Descriptor.idValue] at hValue
      rw [← hValue, EntityId.isNull_toValue]
    · rcases Descriptor.withId_cases hWith with
        ⟨type', held, hType', hRead, rfl⟩ | ⟨hNone, _⟩
      · refine ⟨type', k, hType', hKey k hK, ?_⟩
        rw [Instance.scalar_set_self]
        exact hRead
      · rw [hType] at hNone
        cases hNone
  · obtain ⟨hMem, hIdentifier⟩ := List.mem_filter.1 hUpdated
    have hNe : c.field ≠ d.identifier.field := by
      intro hField
      have hSame := Member.column.inj (hAlone _ d hD _
        (Descriptor.member_of_mem_columns hMem) hField)
      rw [hSame, Schema.isIdentifier_identifier hD] at hIdentifier
      cases hIdentifier
    have hScalar : keyed.scalar c.field = x.scalar c.field := by
      rcases hKeyed with ⟨_, rfl⟩ | ⟨_, k, _, hWith⟩
      · rfl
      · rcases Descriptor.withId_cases hWith with
          ⟨_, _, _, _, rfl⟩ | ⟨_, rfl⟩
        · exact Instance.scalar_set_ne _ hNe _
        · rfl
    have hGenerated : c.isGenerated = false :=
      Column.isGenerated_of_isIdentifier (by simpa using hIdentifier)
    have hName := Schema.notAmong_updatedColumns hD c.name
      (List.mem_map_of_mem hUpdated)
    exact ⟨type, _, hType, hScalar ▸ hValues c hC hGenerated (Or.inr hName),
      hScalar ▸ hHolds⟩

/-- An insert adds a row that reads as the entity, as soon as the entity has an
identifier, and has the values of its to-one fields in their columns. -/
theorem row_of_insert (hAlone : schema.IdentifierAlone)
    (hD : schema.descriptor d.typeName = .ok d) (hAccepts : d.Accepts x)
    (hValues : heap.valuesOf schema x d.insertedColumns = .ok values)
    (hRegular : tables.Regular d.identifier.name d.table)
    (hRun : run .exact (.insert d.table (d.insertedColumns.map Column.name))
      values tables = .ok (outcome, after)) :
    Written d.table tables after ∧
    ∃ row, after.shown d.table = tables.shown d.table ++ [row] ∧
      (∀ keyed id, Keyed d outcome.key x keyed →
        d.entityId keyed = .ok (some id) → Loader.Reads d row keyed) ∧
      ∀ kind field target column,
        .toOne kind field target column ∈ d.relations → ∃ v,
          heap.relatedId schema field target (x.toOne field) = .ok v ∧
            row.get? column = some v := by
  obtain ⟨hWritten, row, hShown, hRow, hKey⟩ :=
    run_insert hRegular (Schema.namesDiffer_filter hD _) hRun
  refine ⟨hWritten, row, hShown, ?_, ?_⟩
  · intro keyed id hKeyed hId
    refine reads_inserted hAlone hD hAccepts hKeyed hId
      (fun c hC hGenerated hNull => ?_) hKey
    have hInserted : c ∈ d.insertedColumns :=
      List.mem_filter.2 ⟨(List.mem_filter.1 hC).1, by rw [hGenerated]; rfl⟩
    exact hRow _ _ (Heap.mem_zip_valuesOf hValues hInserted
      (Descriptor.mem_scalarColumns hD hC).1) hNull
  · intro kind field target column hMem
    have hColumn := Descriptor.column_of_toOne hMem
    have hInserted : (⟨field, column, .join kind target⟩ : Column) ∈
        d.insertedColumns := List.mem_filter.2 ⟨hColumn, rfl⟩
    have hUpdated : (⟨field, column, .join kind target⟩ : Column) ∈
        d.updatedColumns := List.mem_filter.2 ⟨hColumn, rfl⟩
    obtain ⟨v, hV, hIn⟩ := Heap.exists_valueOf hValues hInserted
    have hName := Schema.notAmong_updatedColumns hD column
      (List.mem_map_of_mem hUpdated)
    exact ⟨v, hV, hRow column v hIn (Or.inr hName)⟩

/-- An insert leaves what was there under all keys, and puts the values of the
entity under its own. -/
theorem has_insert (hApart : schema.Apart)
    (hD : schema.descriptor d.typeName = .ok d) (hAccepts : d.Accepts x)
    (hValues : heap.valuesOf schema x d.insertedColumns = .ok values)
    (hRegular : tables.Regular d.identifier.name d.table)
    (hRun : run .exact (.insert d.table (d.insertedColumns.map Column.name))
      values tables = .ok (outcome, after)) :
    Written d.table tables after ∧
    (∀ key v, tables.Has schema key v → after.Has schema key v) ∧
    ∀ keyed id, Keyed d outcome.key x keyed →
      d.entityId keyed = .ok (some id) →
        after.Has schema ⟨d.typeName, id⟩ (d.snapshot keyed) := by
  obtain ⟨hWritten, row, hShown, hReads, _⟩ :=
    row_of_insert hApart.identifierAlone hD hAccepts hValues hRegular hRun
  refine ⟨hWritten, ?_, ?_⟩
  · intro key v hHas
    by_cases hType : key.type = d.typeName
    · have hD' : schema.descriptor key.type = .ok d := hType ▸ hD
      obtain ⟨old, hOld, hReadsTo⟩ := (Tables.has_iff hD').1 hHas
      refine (Tables.has_iff hD').2 ⟨old, ?_, hReadsTo⟩
      rw [hShown]
      exact List.mem_append_left _ hOld
    · exact (hWritten.has_iff hApart hD hType).2 hHas
  · intro keyed id hKeyed hId
    refine (Tables.has_iff hD).2 ⟨row, ?_,
      Loader.readsTo_of_reads (hReads keyed id hKeyed hId)
        hApart.fieldsDiffer hD hId⟩
    rw [hShown]
    exact List.mem_append_right _ (List.mem_singleton_self row)

end Tables

end UnitOfWork

import Mathlib.Data.List.Nodup
import UnitOfWork.Proofs.Graphs
import UnitOfWork.Proofs.Records

/-!
# Rows that record entities

A row records an entity if it reads as the entity and has, in the column of
each to-one field, the identifier of the entity that the field refers to. A
database is in good order if all its rows record entities, no two rows of a
table the same identifier. Over such a database a load finds all that it relies
on, so it succeeds as long as its queries are answered; and what it finds by
the identifier of a row is what the row records, down to the identifiers of
related entities.

## Main results

* `Loader.serves_of_stocks`: what a load relies on is there;
* `Loader.exists_loadById`: a load by an identifier succeeds;
* `Loader.resembles_of_depicts`: an entity that shows the row of another
  resembles it;
* `Loader.loadById_finds`: what is found by the identifier of a row.
-/

namespace UnitOfWork

/-! ## Rows -/

namespace Heap

/-- A value names what a field for an entity of a type refers to: NULL names
nothing, and the identifier of an entity the entity. -/
def Names (schema : Schema) (heap : Heap) (target : String) (v : Value) :
    Option Ref → Prop
  | none => v = .null
  | some r => ∃ d id, schema.descriptor target = .ok d ∧
    d.entityId (heap.get r) = .ok (some id) ∧ v = id.toValue

/-- A row records an instance of a heap. -/
structure Records (schema : Schema) (heap : Heap) (d : Descriptor)
    (x : Instance) (row : Row) : Prop where
  own : Loader.Reads d row x
  identified : ∃ id, d.entityId x = .ok (some id)
  joins : ∀ kind field target column,
    .toOne kind field target column ∈ d.relations →
      ∃ v, row.get? column = some v ∧
        heap.Names schema target v (x.toOne field)

variable {schema : Schema} {heap : Heap} {target : String} {v : Value}
  {held : Option Ref} {d : Descriptor} {x : Instance} {row : Row}

/-- References of two heaps to entities of a type with the same identifier. -/
def Twins (schema : Schema) (target : String) (heap other : Heap)
    (r s : Ref) : Prop :=
  ∃ d id, schema.descriptor target = .ok d ∧
    d.entityId (heap.get r) = .ok (some id) ∧
    d.entityId (other.get s) = .ok (some id)

/-- An instance of another heap resembles an instance: its own fields have the
same values, and its to-one fields refer to entities with the same identifiers,
or to none if those of the instance do. -/
structure Resembles (schema : Schema) (d : Descriptor) (heap : Heap)
    (x : Instance) (other : Heap) (y : Instance) : Prop where
  type : y.type = d.typeName
  scalars : ∀ c ∈ d.scalarColumns, y.scalar c.field = x.scalar c.field
  toOne : ∀ kind field target column,
    .toOne kind field target column ∈ d.relations →
      Option.Rel (heap.Twins schema target other) (x.toOne field)
        (y.toOne field)

/-- A value that names something can be told to be an identifier or none. -/
theorem Names.exists_ofValue (h : heap.Names schema target v held) :
    ∃ id?, EntityId.ofValue v = .ok id? := by
  cases held with
  | none =>
      rw [show v = .null from h]
      exact ⟨none, rfl⟩
  | some r =>
      obtain ⟨d, id, _, _, rfl⟩ := h
      exact ⟨some id, EntityId.ofValue_toValue id⟩

/-- The identifier of an entity is in the row that records it. -/
theorem Records.get?_identifier (h : heap.Records schema d x row)
    (hFields : schema.FieldsDiffer) (hD : schema.descriptor d.typeName = .ok d)
    {id : EntityId} (hId : d.entityId x = .ok (some id)) :
    row.get? d.identifier.name = some id.toValue :=
  (Loader.readsTo_of_reads h.own hFields hD hId).get?_identifier
    hFields.identifierAlone hD

end Heap

namespace Loader.Reads

variable {schema : Schema} {d : Descriptor} {row : Row} {x y : Instance}

/-- What a row reads as has the same own fields. -/
theorem scalar_eq (h : Reads d row x) (hOther : Reads d row y) {c : Column}
    (hC : c ∈ d.scalarColumns) : y.scalar c.field = x.scalar c.field := by
  obtain ⟨type, v, hType, hGet, hRead⟩ := h c hC
  obtain ⟨type', v', hType', hGet', hRead'⟩ := hOther c hC
  cases hType.symm.trans hType'
  cases hGet.symm.trans hGet'
  exact Except.ok.inj (hRead'.symm.trans hRead)

/-- It has the same identifier. -/
theorem entityId_eq (h : Reads d row x) (hOther : Reads d row y)
    (hD : schema.descriptor d.typeName = .ok d) :
    d.entityId y = d.entityId x := by
  have hScalar :=
    h.scalar_eq hOther (Schema.identifier_mem_scalarColumns hD)
  rw [Descriptor.entityId, Descriptor.idValue, hScalar]
  rfl

end Loader.Reads

/-! ## Databases in good order -/

namespace Schema

/-- Relations lead to types that have descriptors, and collections are mapped
by to-one fields of these. -/
structure Closed (schema : Schema) : Prop where
  targets : ∀ type d relation, schema.descriptor type = .ok d →
    relation ∈ d.relations →
      ∃ d', schema.descriptor relation.target = .ok d'
  mapped : ∀ type d c d', schema.descriptor type = .ok d →
    .toMany c ∈ d.relations → schema.descriptor c.target = .ok d' →
      ∃ column, d'.mappedByColumn c.mappedBy = .ok column

/-- The rows of all tables record entities, no two rows of a table with one
identifier. -/
structure Stocks (schema : Schema) (content : String → List Row) : Prop where
  recorded : ∀ type d, schema.descriptor type = .ok d →
    ∀ row ∈ content d.table, ∃ heap x, Heap.Records schema heap d x row
  distinct : ∀ type d, schema.descriptor type = .ok d →
    ((content d.table).map fun row => row.get? d.identifier.name).Nodup

namespace Stocks

variable {schema : Schema} {content : String → List Row} {type : String}
  {d : Descriptor}

/-- Rows with one identifier are one row. -/
theorem eq_of_get? (h : schema.Stocks content)
    (hD : schema.descriptor type = .ok d) {row other : Row}
    (hRow : row ∈ content d.table) (hOther : other ∈ content d.table)
    (hSame : row.get? d.identifier.name = other.get? d.identifier.name) :
    row = other :=
  List.inj_on_of_nodup_map (h.distinct type d hD) hRow hOther hSame

/-- At most one row has an identifier. -/
theorem length_filter_le (h : schema.Stocks content)
    (hD : schema.descriptor type = .ok d) (id : EntityId) :
    ((content d.table).filter (·.has d.identifier.name id.toValue)).length ≤
      1 := by
  have hNodup : ((content d.table).filter
      (·.has d.identifier.name id.toValue)).Nodup :=
    (List.Nodup.of_map _ (h.distinct type d hD)).filter _
  have hHas : ∀ row ∈ (content d.table).filter
      (·.has d.identifier.name id.toValue),
      row ∈ content d.table ∧
        row.get? d.identifier.name = some id.toValue := by
    intro row hMem
    obtain ⟨hRow, hGet⟩ := List.mem_filter.1 hMem
    exact ⟨hRow, Row.has_toValue_iff.1 hGet⟩
  generalize (content d.table).filter
    (·.has d.identifier.name id.toValue) = rows at hNodup hHas ⊢
  match rows with
  | [] | [_] => simp
  | row :: other :: rest =>
      obtain ⟨hRow, hGet⟩ := hHas row (by simp)
      obtain ⟨hOther, hGet'⟩ := hHas other (by simp)
      have hSame := h.eq_of_get? hD hRow hOther (hGet.trans hGet'.symm)
      subst hSame
      simp at hNodup

end Stocks

end Schema

variable {σ : Type} [Driver σ]

/-- The queries for values in the columns of a type's table are answered. -/
def Standing.Answers {conn : ConnId} (db : Standing σ conn) (schema : Schema) :
    Prop :=
  ∀ {type d c v t}, schema.descriptor type = .ok d → c ∈ d.columns →
    db.Holds t → ∃ found, (Driver.call conn
      (.query (.selectBy d.table c.name) [v]) t).1 = .ok found

namespace Loader

section

variable {L : Loader} {db : Standing σ L.connection}
  (hFields : L.persister.schema.FieldsDiffer)
  (hClosed : L.persister.schema.Closed)
  (hStocks : L.persister.schema.Stocks db.content)
  (hAnswers : db.Answers L.persister.schema)

include hFields hClosed hStocks hAnswers

/-- What a load relies on is there. -/
theorem serves_of_stocks (bad : Error) : L.Serves db.settled bad where
  answers := by
    intro d c v t hKnows hC hHolds
    obtain ⟨found, hFound⟩ := hAnswers (v := v) hKnows hC hHolds
    show Spared bad (Driver.call L.connection
      (.query (.selectBy d.table c.name) [v]) t).1
    rw [hFound]
    exact .ok found
  single := by
    intro d t id found hKnows hHolds hCall hMany
    rw [db.by_value hHolds hCall] at hMany
    have hOne := hStocks.length_filter_le hKnows id
    omega
  reads := by
    intro d row hKnows hRow
    obtain ⟨heap, x, hRecords⟩ := hStocks.recorded _ d hKnows row hRow
    obtain ⟨e, hRead, _, _⟩ := readRow_of_reads hFields hKnows hRecords.own
    rw [hRead]
    exact .ok e
  identifies := by
    intro d row e hKnows hRow hRead
    obtain ⟨heap, x, hRecords⟩ := hStocks.recorded _ d hKnows row hRow
    obtain ⟨e', hRead', _, hId⟩ := readRow_of_reads hFields hKnows hRecords.own
    cases hRead.symm.trans hRead'
    obtain ⟨id, hX⟩ := hRecords.identified
    rw [requireId, hId.trans hX]
    exact .ok id
  joins := by
    intro d row kind field target column hKnows hRow hMem
    obtain ⟨heap, x, hRecords⟩ := hStocks.recorded _ d hKnows row hRow
    obtain ⟨v, hGet, hNames⟩ := hRecords.joins kind field target column hMem
    obtain ⟨d', hD'⟩ := hClosed.targets _ d _ hKnows hMem
    obtain ⟨id?, hId⟩ := hNames.exists_ofValue
    have hRequired := (Row.getRequired_eq_ok_iff row column v).2 hGet
    rw [hRequired]
    refine ⟨.ok v, ?_⟩
    rintro _ ⟨⟩
    rw [hId]
    refine ⟨.ok id?, ?_⟩
    rw [show L.descriptor target = .ok d' from hD']
    exact .ok d'
  members := by
    intro d c hKnows hMem
    obtain ⟨d', hD'⟩ := hClosed.targets _ d _ hKnows hMem
    obtain ⟨column, hColumn⟩ := hClosed.mapped _ d c d' hKnows hMem hD'
    rw [show L.descriptor c.target = .ok d' from hD']
    refine ⟨.ok d', ?_⟩
    rintro _ ⟨⟩
    rw [hColumn]
    exact .ok column

/-- A load by an identifier succeeds. -/
theorem exists_loadById {type : String} {d : Descriptor} {work : Work σ}
    (hD : L.descriptor type = .ok d) (id : EntityId)
    (hHolds : db.Holds work.env.driver) :
    ∃ found, ((L.loadById type id).run work).1 = .ok found := by
  refine Spared.exists_ok fun bad => ?_
  have hServes := serves_of_stocks hFields hClosed hStocks hAnswers bad
  refine run_spared hServes hHolds fun n mapper _ hSparing hFits => ?_
  refine findById_spared hServes hSparing type _ ?_ ?_ hFits
  · rw [EntityId.ofValue_toValue]
    exact .ok _
  · rw [hD]
    exact .ok d

end

/-! ## What is found -/

section

variable {L : Loader} {db : Standing σ L.connection} {before after : Work σ}
  {heap : Heap} {d : Descriptor} {x : Instance} {row : Row}

/-- A row of a descriptor's table has an identifier. -/
def InStock (content : String → List Row) (d : Descriptor) (id : EntityId) :
    Prop :=
  ∃ row ∈ content d.table, row.get? d.identifier.name = some id.toValue

/-- The rows of the entities that the to-one fields of an instance refer to are
there. -/
def RelatedInStock (schema : Schema) (content : String → List Row)
    (heap : Heap) (d : Descriptor) (x : Instance) : Prop :=
  ∀ kind field target column r d' id,
    .toOne kind field target column ∈ d.relations → x.toOne field = some r →
    schema.descriptor target = .ok d' →
    d'.entityId (heap.get r) = .ok (some id) → InStock content d' id

/-- An entity that a load has registered has the identifier of its key. -/
theorem entityId_of_graph (hFields : L.persister.schema.FieldsDiffer)
    (hStocks : L.persister.schema.Stocks db.content)
    (hGraph : Graph db before after) (hFresh : before.context = {})
    {type : String} {id : EntityId} {ref : Ref}
    (hD : L.descriptor type = .ok d)
    (hGet : after.context.get? ⟨type, id⟩ = some ref) :
    d.entityId (after.env.heap.get ref) = .ok (some id) := by
  rcases hGraph.added _ _ hGet with hOld | ⟨_, d', row, hD', hRow, hDepicts⟩
  · rw [hFresh] at hOld
    cases hOld
  · cases hD.symm.trans hD'
    have hOwn : L.persister.schema.descriptor d.typeName = .ok d :=
      Schema.descriptor_typeName hD
    obtain ⟨heap, x, hRecords⟩ := hStocks.recorded type d hD row hRow
    obtain ⟨id', hX⟩ := hRecords.identified
    have hRowId := hRecords.get?_identifier hFields hOwn hX
    have hSame : id' = id := EntityId.toValue_injective
      (Option.some.inj (hRowId.symm.trans hDepicts.identifier))
    rw [hRecords.own.entityId_eq hDepicts.scalars hOwn, hX, hSame]

/-- An instance that shows the row of an entity resembles the entity, if the
rows of the related entities are there. -/
theorem resembles_of_depicts (hFields : L.persister.schema.FieldsDiffer)
    (hStocks : L.persister.schema.Stocks db.content)
    (hGraph : Graph db before after) (hFresh : before.context = {})
    (hRecords : heap.Records L.persister.schema d x row)
    (hRelated : RelatedInStock L.persister.schema db.content heap d x)
    {id : EntityId} {y : Instance}
    (hDepicts : Depicts db before.context after.context d row id y) :
    heap.Resembles L.persister.schema d x after.env.heap y where
  type := hDepicts.typeName
  scalars := fun _ hC => hRecords.own.scalar_eq hDepicts.scalars hC
  toOne := by
    intro kind field target column hMem
    obtain ⟨v, hGet, hNames⟩ := hRecords.joins kind field target column hMem
    obtain ⟨v', related, hGet', hLookup, hJoined⟩ :=
      hDepicts.toOne kind field target column hMem
    cases hGet.symm.trans hGet'
    have hTo : y.toOne field = related := by
      rw [Instance.toOne, hLookup]
    rw [hTo]
    cases hX : x.toOne field with
    | none =>
        rw [hX] at hNames
        have hNull : v.isNull = true := by
          rw [show v = .null from hNames]
          rfl
        rw [hJoined.none_iff.2 (Or.inl hNull)]
        exact .none
    | some r =>
        rw [hX] at hNames
        obtain ⟨d', rid, hD', hR, rfl⟩ := hNames
        obtain ⟨other, hOther, hIn⟩ :=
          hRelated kind field target column r d' rid hMem hX hD' hR
        cases related with
        | none =>
            -- The related entity cannot be missing: its row is there.
            rcases hJoined.none_iff.1 rfl with hNull | ⟨id', hSame, hMissing⟩
            · rw [EntityId.isNull_toValue] at hNull
              cases hNull
            · rw [← EntityId.toValue_injective hSame] at hMissing
              exact absurd hIn (hMissing.2 d' hD' other hOther)
        | some s =>
            obtain ⟨id', hSame, hRegistered⟩ := hJoined.registered s rfl
            rw [← EntityId.toValue_injective hSame] at hRegistered
            exact .some ⟨d', rid, hD', hR, entityId_of_graph hFields hStocks
              hGraph hFresh hD' hRegistered⟩

/-- What a load finds by the identifier of an entity whose row is there. -/
theorem loadById_finds (hFields : L.persister.schema.FieldsDiffer)
    (hClosed : L.persister.schema.Closed)
    (hStocks : L.persister.schema.Stocks db.content)
    (hAnswers : db.Answers L.persister.schema)
    (hD : L.persister.schema.descriptor d.typeName = .ok d)
    (hRow : row ∈ db.content d.table)
    (hRecords : heap.Records L.persister.schema d x row)
    (hRelated : RelatedInStock L.persister.schema db.content heap d x)
    {id : EntityId} (hId : d.entityId x = .ok (some id))
    (hFresh : before.context = {}) (hHolds : db.Holds before.env.driver) :
    ∃ y after, (L.loadById d.typeName id).run before = (.ok (some y), after) ∧
      heap.Resembles L.persister.schema d x after.env.heap
        (after.env.heap.get y) := by
  have hRowId := hRecords.get?_identifier hFields hD hId
  obtain ⟨found, hFound⟩ := exists_loadById hFields hClosed hStocks hAnswers
    hD id hHolds
  have hDraws : Draws db before (L.loadById d.typeName id) fun found after =>
      Joined db before.context after d.typeName id.toValue found :=
    draws_of_yields hFields hHolds (loadById_ample hHolds d.typeName id)
      (loadById_yields L d.typeName id before)
      fun _ _ hExtends =>
        joined_of_related hFields.identifierAlone hHolds hExtends
  unfold Draws at hDraws
  rcases hRun : (L.loadById d.typeName id).run before with ⟨r, after⟩
  rw [hRun] at hFound hDraws
  cases hFound
  obtain ⟨hGraph, hJoined⟩ := hDraws
  cases found with
  | none =>
      rcases hJoined.none_iff.1 rfl with hNull | ⟨id', hSame, hMissing⟩
      · rw [EntityId.isNull_toValue] at hNull
        cases hNull
      · rw [← EntityId.toValue_injective hSame] at hMissing
        exact absurd hRowId (hMissing.2 d hD row hRow)
  | some y =>
      refine ⟨y, after, rfl, ?_⟩
      obtain ⟨id', hSame, hRegistered⟩ := hJoined.registered y rfl
      rw [← EntityId.toValue_injective hSame] at hRegistered
      rcases hGraph.added _ _ hRegistered with
        hOld | ⟨_, d', other, hD', hOther, hDepicts⟩
      · rw [hFresh] at hOld
        cases hOld
      · cases hD.symm.trans hD'
        have hRowEq : other = row := hStocks.eq_of_get? hD hOther hRow
          (hDepicts.identifier.trans hRowId.symm)
        rw [hRowEq] at hDepicts
        exact resembles_of_depicts hFields hStocks hGraph hFresh hRecords
          hRelated hDepicts

end

end Loader

end UnitOfWork

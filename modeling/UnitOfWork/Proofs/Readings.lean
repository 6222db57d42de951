import UnitOfWork.Loader
import UnitOfWork.Proofs.Actions
import UnitOfWork.Proofs.Mappings

/-!
# What is read from rows

Reading a row gives an instance of the descriptor's type, each of its own
fields with the value of its column, as the type of the field reads it. An
identifier is read as itself, so the instance has the identifier that the row
has.

## Main results

* `Loader.scalar_of_readRow`: a field is read from its column;
* `Loader.requireId_of_readRow`: the identifier is the row's.
-/

namespace UnitOfWork

/-! ## Identifiers -/

/-- An identifier is known by its value. -/
theorem EntityId.toValue_injective {id other : EntityId}
    (h : id.toValue = other.toValue) : id = other := by
  have hBoth := (ofValue_toValue id).symm.trans (h ▸ ofValue_toValue other)
  exact Option.some.inj (Except.ok.inj hBoth)

/-- An identifier is read from that identifier only. -/
theorem ScalarType.eq_of_read? {type : ScalarType} {v : Value} {id : EntityId}
    (h : type.read? v = some id.toValue) : v = id.toValue := by
  cases id <;> cases v <;> cases type <;>
    simp_all [read?, EntityId.toValue, Value.asInt?, Value.asFloat?,
      Value.asText?, Value.asBool?, Value.asBlob?, Value.asTimestamp?,
      Value.asDate?, Value.asTime?, Option.filter]

theorem FieldType.eq_of_read {type : FieldType} {v held : Value}
    {id : EntityId} (hRead : type.read v = .ok held)
    (hId : EntityId.ofValue held = .ok (some id)) : v = id.toValue := by
  unfold read at hRead
  split at hRead
  · cases hRead
    cases hId
  · rw [ScalarType.read] at hRead
    split at hRead
    · rename_i hSome
      cases hRead
      rw [← EntityId.toValue_of_ofValue hId] at hSome
      exact ScalarType.eq_of_read? hSome
    · cases hRead

namespace Loader

variable {row : Row} {columns : List Column} {start e : Instance}

/-! ## Reading columns -/

/-- A column is read into its field, or it has none of its own. -/
theorem readColumn_cases {c : Column} (h : readColumn row start c = .ok e) :
    (∃ type v held, c.type? = some type ∧ row.getRequired c.name = .ok v ∧
      type.read v = .ok held ∧ e = start.set c.field (.scalar held)) ∨
    c.type? = none ∧ e = start := by
  obtain ⟨v, hV, hHeld⟩ := except_bind_eq_ok.1 h
  cases hType : c.type? with
  | none =>
      simp only [hType] at hHeld
      cases hHeld
      exact Or.inr ⟨rfl, rfl⟩
  | some type =>
      simp only [hType] at hHeld
      obtain ⟨held, hRead, hSet⟩ := except_bind_eq_ok.1 hHeld
      cases hSet
      exact Or.inl ⟨type, v, held, rfl, hV, hRead, rfl⟩

theorem type_of_readColumns
    (h : columns.foldlM (readColumn row) start = .ok e) :
    e.type = start.type := by
  induction columns generalizing start with
  | nil =>
      cases h
      rfl
  | cons c rest ih =>
      rw [List.foldlM_cons] at h
      obtain ⟨next, hNext, hRest⟩ := except_bind_eq_ok.1 h
      rw [ih hRest]
      rcases readColumn_cases hNext with ⟨_, _, _, _, _, _, rfl⟩ | ⟨_, rfl⟩
      · rfl
      · rfl

/-- Columns of other fields leave a field alone. -/
theorem scalar_of_readColumns_ne {field : String}
    (hOther : ∀ c ∈ columns, c.field ≠ field)
    (h : columns.foldlM (readColumn row) start = .ok e) :
    e.scalar field = start.scalar field := by
  induction columns generalizing start with
  | nil =>
      cases h
      rfl
  | cons c rest ih =>
      rw [List.foldlM_cons] at h
      obtain ⟨next, hNext, hRest⟩ := except_bind_eq_ok.1 h
      rw [ih (fun c hC => hOther c (List.mem_cons_of_mem _ hC)) hRest]
      rcases readColumn_cases hNext with ⟨_, _, _, _, _, _, rfl⟩ | ⟨_, rfl⟩
      · exact Instance.scalar_set_ne _ (hOther c (List.mem_cons_self ..)).symm _
      · rfl

/-- A column that has its field to itself is read into it. -/
theorem scalar_of_readColumns {c : Column} {type : FieldType}
    (hMem : c ∈ columns) (hType : c.type? = some type)
    (hAlone : ∀ c' ∈ columns, c'.field = c.field → c' = c)
    (h : columns.foldlM (readColumn row) start = .ok e) :
    ∃ v, row.getRequired c.name = .ok v ∧
      type.read v = .ok (e.scalar c.field) := by
  induction columns generalizing start with
  | nil => cases hMem
  | cons first rest ih =>
      rw [List.foldlM_cons] at h
      obtain ⟨next, hNext, hRest⟩ := except_bind_eq_ok.1 h
      have hAloneRest : ∀ c' ∈ rest, c'.field = c.field → c' = c :=
        fun c' hC => hAlone c' (List.mem_cons_of_mem _ hC)
      by_cases hIn : c ∈ rest
      · exact ih hIn hAloneRest hRest
      · have hFirst : c = first := (List.mem_cons.1 hMem).resolve_right hIn
        subst hFirst
        have hLast := scalar_of_readColumns_ne
          (fun c' hC hField => hIn (hAloneRest c' hC hField ▸ hC)) hRest
        rcases readColumn_cases hNext with
          ⟨type', v, held, hType', hV, hRead, rfl⟩ | ⟨hNone, _⟩
        · cases hType.symm.trans hType'
          rw [Instance.scalar_set_self] at hLast
          rw [hLast]
          exact ⟨v, hV, hRead⟩
        · cases hType.symm.trans hNone

/-! ## Reading rows -/

variable {d : Descriptor}

/-- What is read from a row is of the descriptor's type. -/
theorem type_of_readRow (h : readRow d row = .ok e) : e.type = d.typeName :=
  type_of_readColumns h

/-- A field with a column to itself has what its type reads from the column. -/
theorem scalar_of_readRow {c : Column} {type : FieldType}
    (hMem : c ∈ d.scalarColumns) (hType : c.type? = some type)
    (hAlone : ∀ c' ∈ d.scalarColumns, c'.field = c.field → c' = c)
    (h : readRow d row = .ok e) :
    ∃ v, row.getRequired c.name = .ok v ∧
      type.read v = .ok (e.scalar c.field) :=
  scalar_of_readColumns hMem hType hAlone h

theorem requireId_eq_ok {id : EntityId} (h : requireId d e = .ok id) :
    d.entityId e = .ok (some id) := by
  obtain ⟨id?, hId, hSome⟩ := except_bind_eq_ok.1 h
  cases id? with
  | none => cases hSome
  | some _ =>
      cases hSome
      exact hId

/-- The identifier of what is read from a row is the row's. -/
theorem getRequired_of_requireId {schema : Schema}
    (hAlone : schema.IdentifierAlone)
    (hD : schema.descriptor d.typeName = .ok d) {id : EntityId}
    (hRead : readRow d row = .ok e) (hId : requireId d e = .ok id) :
    row.getRequired d.identifier.name = .ok id.toValue := by
  have hEntity : EntityId.ofValue (d.idValue e) = .ok (some id) :=
    requireId_eq_ok hId
  have hMem := Schema.identifier_mem_scalarColumns hD
  obtain ⟨type, hType⟩ := Column.type?_of_isJoin (c := d.identifier) (by
    simpa using (List.mem_filter.1 hMem).2)
  have hOwn : ∀ c ∈ d.scalarColumns, c.field = d.identifier.field →
      c = d.identifier := by
    intro c hC hField
    have hMember := Descriptor.member_of_mem_columns (List.mem_filter.1 hC).1
    exact Member.column.inj (hAlone _ d hD _ hMember hField)
  obtain ⟨v, hV, hHeld⟩ := scalar_of_readRow hMem hType hOwn hRead
  rw [hV, FieldType.eq_of_read hHeld hEntity]

/-- What is read from a row with an identifier has that identifier. -/
theorem requireId_of_readRow {schema : Schema}
    (hAlone : schema.IdentifierAlone)
    (hD : schema.descriptor d.typeName = .ok d) {id other : EntityId}
    (hRow : row.getRequired d.identifier.name = .ok id.toValue)
    (hRead : readRow d row = .ok e) (hId : requireId d e = .ok other) :
    other = id := by
  have hOther := getRequired_of_requireId hAlone hD hRead hId
  exact (EntityId.toValue_injective
    (Except.ok.inj (hRow.symm.trans hOther))).symm

/-! ## Rows that read as an instance -/

/-- Each column of an instance's own reads as what the instance has in its
field. -/
def Reads (d : Descriptor) (row : Row) (x : Instance) : Prop :=
  ∀ c ∈ d.scalarColumns, ∃ type v, c.type? = some type ∧
    row.get? c.name = some v ∧ type.read v = .ok (x.scalar c.field)

theorem readColumns_of_reads {x : Instance} (start : Instance)
    (h : ∀ c ∈ columns, ∃ type v, c.type? = some type ∧
      row.get? c.name = some v ∧ type.read v = .ok (x.scalar c.field)) :
    ∃ e, columns.foldlM (readColumn row) start = .ok e := by
  induction columns generalizing start with
  | nil => exact ⟨start, rfl⟩
  | cons c rest ih =>
      obtain ⟨type, v, hType, hGet, hRead⟩ := h c (List.mem_cons_self ..)
      obtain ⟨e, hE⟩ := ih (start.set c.field (.scalar (x.scalar c.field)))
        fun c' hC => h c' (List.mem_cons_of_mem _ hC)
      refine ⟨e, ?_⟩
      have hRequired := (Row.getRequired_eq_ok_iff row c.name v).2 hGet
      have hColumn : readColumn row start c =
          .ok (start.set c.field (.scalar (x.scalar c.field))) := by
        simp only [readColumn, hRequired, hType, hRead, except_ok_bind]
      rw [List.foldlM_cons, hColumn]
      exact hE

variable {schema : Schema} {x : Instance}

/-- What is read has the identifier and the values of the instance that the
row reads as. -/
theorem readRow_of_reads (hFields : schema.FieldsDiffer)
    (hD : schema.descriptor d.typeName = .ok d) (h : Reads d row x) :
    ∃ e, readRow d row = .ok e ∧ d.snapshot e = d.snapshot x ∧
      d.entityId e = d.entityId x := by
  obtain ⟨e, hRead⟩ := readColumns_of_reads d.blank h
  have hScalar : ∀ c ∈ d.scalarColumns,
      e.scalar c.field = x.scalar c.field := by
    intro c hC
    obtain ⟨type, v, hType, hGet, hX⟩ := h c hC
    have hOwn : ∀ c' ∈ d.scalarColumns, c'.field = c.field → c' = c :=
      fun c' hC' => hFields.columns hD (List.mem_filter.1 hC').1
        (List.mem_filter.1 hC).1
    obtain ⟨v', hV', hE⟩ := scalar_of_readRow hC hType hOwn hRead
    rw [(Row.getRequired_eq_ok_iff row c.name v).2 hGet] at hV'
    cases hV'
    exact Except.ok.inj (hE.symm.trans hX)
  refine ⟨e, hRead, List.map_congr_left hScalar, ?_⟩
  rw [Descriptor.entityId, Descriptor.idValue,
    hScalar _ (Schema.identifier_mem_scalarColumns hD)]
  rfl

end Loader

end UnitOfWork

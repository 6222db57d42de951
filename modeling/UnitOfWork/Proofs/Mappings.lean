import Mathlib.Data.List.Pairwise
import UnitOfWork.Mapping

/-!
# What a checked mapping promises

A descriptor is only made of a mapping that passes its checks, so whoever has
the descriptor of a type can rely on them: it is the descriptor of that type,
one of its columns identifies the entity, no other column does, and the names
of its columns differ. What the checks do not tell is taken for granted where it
is needed: that the fields of a mapping differ, as those of a record do, and
that each type has a table of its own.

## Main results

* `Schema.typeName_of_descriptor`: the descriptor of a type is of that type;
* `Schema.identifiers_of_descriptor`: it has one identifier;
* `Schema.namesDiffer_columns`: its columns have different names;
* `Schema.IdentifierAlone.relation`: relations are kept apart from it;
* `Descriptor.mappedByColumn_eq_ok_iff`: the column that a collection is read
  by.
-/

namespace UnitOfWork

/-- Names that differ by more than the case of ASCII letters. -/
def NamesDiffer (names : List String) : Prop :=
  names.Pairwise fun a b => Text.sameIgnoringCase a b = false

/-- Whether a name is none of some others, also but for case. -/
def NotAmong (names : List String) (name : String) : Prop :=
  ∀ other ∈ names, Text.sameIgnoringCase other name = false

/-- A column of a mapping is one of its members. -/
theorem Descriptor.member_of_mem_columns {d : Descriptor} {c : Column}
    (h : c ∈ d.columns) : Member.column c ∈ d.members := by
  obtain ⟨m, hM, hColumn⟩ := List.mem_filterMap.1 h
  cases m with
  | collection _ => cases hColumn
  | column c' =>
      cases hColumn
      exact hM

/-- A column has a type unless it is a join column. -/
theorem Column.type?_of_isJoin {c : Column} (h : c.isJoin = false) :
    ∃ type, c.type? = some type := by
  obtain ⟨field, name, content⟩ := c
  cases content with
  | identifier type generated => exact ⟨type, rfl⟩
  | scalar type => exact ⟨type, rfl⟩
  | join kind target => cases h

theorem Column.content_of_isJoin {c : Column} (h : c.isJoin = true) :
    ∃ kind target, c.content = .join kind target := by
  obtain ⟨field, name, content⟩ := c
  cases content with
  | identifier type generated => cases h
  | scalar type => cases h
  | join kind target => exact ⟨kind, target, rfl⟩

/-- Only an identifier is generated. -/
theorem Column.isGenerated_of_isIdentifier {c : Column}
    (h : c.isIdentifier = false) : c.isGenerated = false := by
  obtain ⟨field, name, content⟩ := c
  cases content with
  | identifier type generated => cases h
  | scalar type => rfl
  | join kind target => rfl

/-- What a mapping that passes its checks is made into. -/
theorem Mapping.build_eq_ok {type : String} {mapping : Mapping}
    {d : Descriptor} (h : mapping.build type = .ok d) :
    d.typeName = type ∧ d.columns.filter Column.isIdentifier = [d.identifier] ∧
      repeatedColumn? [] d.columns = none := by
  unfold Mapping.build at h
  simp only at h
  split at h
  · cases h
  · split at h
    · cases h
    · rename_i identifier hIdentifier
      split at h
      · cases h
      · rename_i hColumns
        cases h
        exact ⟨rfl, hIdentifier, hColumns⟩
    · cases h

/-- Without a repeated column the names of columns differ from each other and
from those before. -/
theorem Mapping.namesDiffer_of_repeatedColumn? {before columns : List Column}
    (h : repeatedColumn? before columns = none) :
    NamesDiffer (columns.map Column.name) ∧
      ∀ b ∈ before, ∀ c ∈ columns,
        Text.sameIgnoringCase b.name c.name = false := by
  induction columns generalizing before with
  | nil => exact ⟨List.Pairwise.nil, fun _ _ _ hMem => by cases hMem⟩
  | cons c rest ih =>
      unfold repeatedColumn? at h
      split at h
      · cases h
      · rename_i hNone
        obtain ⟨hRest, hOthers⟩ := ih h
        rw [Bool.not_eq_true, List.any_eq_false] at hNone
        refine ⟨List.pairwise_cons.2 ⟨?_, hRest⟩, ?_⟩
        · intro name hName
          obtain ⟨c', hC', rfl⟩ := List.mem_map.1 hName
          exact hOthers c (List.mem_append_right _ (List.mem_singleton_self c))
            c' hC'
        · intro b hB c' hC
          rcases List.mem_cons.1 hC with rfl | hLater
          · exact Bool.eq_false_iff.2 (hNone b hB)
          · exact hOthers b (List.mem_append_left _ hB) c' hLater

/-- The field of a relation is that of its member. -/
theorem Member.field_of_relation? {m : Member} {relation : Relation}
    (h : m.relation? = some relation) : m.field = relation.field := by
  cases m with
  | collection c =>
      cases h
      rfl
  | column c =>
      simp only [relation?, Column.relation?] at h
      split at h
      · cases h
        rfl
      · cases h

namespace Schema

variable {schema : Schema} {type : String} {d : Descriptor}

/-- The descriptor of a type is of that type. -/
theorem typeName_of_descriptor (h : schema.descriptor type = .ok d) :
    d.typeName = type :=
  (Mapping.build_eq_ok h).1

/-- A descriptor is that of its own type. -/
theorem descriptor_typeName (h : schema.descriptor type = .ok d) :
    schema.descriptor d.typeName = .ok d := by
  rw [typeName_of_descriptor h]
  exact h

/-- There is one column that identifies an entity. -/
theorem identifiers_of_descriptor (h : schema.descriptor type = .ok d) :
    d.columns.filter Column.isIdentifier = [d.identifier] :=
  (Mapping.build_eq_ok h).2.1

theorem identifier_mem_columns (h : schema.descriptor type = .ok d) :
    d.identifier ∈ d.columns := by
  have hMem : d.identifier ∈ d.columns.filter Column.isIdentifier := by
    rw [identifiers_of_descriptor h]
    exact List.mem_singleton_self _
  exact (List.mem_filter.1 hMem).1

theorem isIdentifier_identifier (h : schema.descriptor type = .ok d) :
    d.identifier.isIdentifier = true := by
  have hMem : d.identifier ∈ d.columns.filter Column.isIdentifier := by
    rw [identifiers_of_descriptor h]
    exact List.mem_singleton_self _
  exact (List.mem_filter.1 hMem).2

/-- The identifier is a column of the entity's own. -/
theorem identifier_mem_scalarColumns (h : schema.descriptor type = .ok d) :
    d.identifier ∈ d.scalarColumns := by
  have hIdentifier := isIdentifier_identifier h
  refine List.mem_filter.2 ⟨identifier_mem_columns h, ?_⟩
  unfold Column.isIdentifier at hIdentifier
  split at hIdentifier
  · rename_i hContent
    rw [Column.isJoin, hContent]
    rfl
  · cases hIdentifier

/-- No other column identifies the entity. -/
theorem eq_identifier (h : schema.descriptor type = .ok d) {c : Column}
    (hMem : c ∈ d.columns) (hIdentifier : c.isIdentifier = true) :
    c = d.identifier := by
  have hFilter : c ∈ d.columns.filter Column.isIdentifier :=
    List.mem_filter.2 ⟨hMem, hIdentifier⟩
  rw [identifiers_of_descriptor h] at hFilter
  exact List.mem_singleton.1 hFilter

/-- The columns of a type have different names. -/
theorem namesDiffer_columns (h : schema.descriptor type = .ok d) :
    NamesDiffer (d.columns.map Column.name) :=
  (Mapping.namesDiffer_of_repeatedColumn? (Mapping.build_eq_ok h).2.2).1

/-- So have those of a selection. -/
theorem namesDiffer_filter (h : schema.descriptor type = .ok d)
    (keep : Column → Bool) :
    NamesDiffer ((d.columns.filter keep).map Column.name) :=
  (namesDiffer_columns h).sublist (List.filter_sublist.map _)

/-- The name of the identifier is none of those that an update writes. -/
theorem notAmong_updatedColumns (h : schema.descriptor type = .ok d) :
    NotAmong (d.updatedColumns.map Column.name) d.identifier.name := by
  intro name hName
  obtain ⟨c, hC, rfl⟩ := List.mem_map.1 hName
  obtain ⟨hMem, hNot⟩ := List.mem_filter.1 hC
  have hNe : c ≠ d.identifier := by
    rintro rfl
    rw [isIdentifier_identifier h] at hNot
    cases hNot
  have hNames := List.pairwise_map.1 (namesDiffer_columns h)
  have hSymm : Std.Symm fun a b : Column =>
      Text.sameIgnoringCase a.name b.name = false :=
    ⟨fun a b hAb => Text.sameIgnoringCase_comm a.name b.name ▸ hAb⟩
  exact hNames.forall hMem (identifier_mem_columns h) hNe

/-- No other member of a mapping has the field of the identifier: a member is
a field of a record, and what is put into one leaves the others alone. -/
def IdentifierAlone (schema : Schema) : Prop :=
  ∀ type d, schema.descriptor type = .ok d → ∀ m ∈ d.members,
    m.field = d.identifier.field → m = .column d.identifier

/-- The field of a relation does not identify the entity. -/
theorem IdentifierAlone.relation (hAlone : schema.IdentifierAlone)
    (h : schema.descriptor type = .ok d) {relation : Relation}
    (hMem : relation ∈ d.relations) :
    d.identifier.field ≠ relation.field := by
  intro hField
  obtain ⟨m, hM, hRelation⟩ := List.mem_filterMap.1 hMem
  have hSame := Member.field_of_relation? hRelation
  have hColumn := hAlone type d h m hM (hSame.trans hField.symm)
  have hIdentifier := isIdentifier_identifier h
  rw [hColumn] at hRelation
  simp only [Member.relation?, Column.relation?] at hRelation
  unfold Column.isIdentifier at hIdentifier
  split at hRelation
  · rename_i hContent
    rw [hContent] at hIdentifier
    cases hIdentifier
  · cases hRelation

/-- No two members of a mapping have the same field. -/
def FieldsDiffer (schema : Schema) : Prop :=
  ∀ type d, schema.descriptor type = .ok d → ∀ m ∈ d.members,
    ∀ m' ∈ d.members, m.field = m'.field → m = m'

namespace FieldsDiffer

theorem identifierAlone (h : schema.FieldsDiffer) : schema.IdentifierAlone :=
  fun type d hD m hM hField => h type d hD m hM _
    (Descriptor.member_of_mem_columns (identifier_mem_columns hD)) hField

theorem columns (h : schema.FieldsDiffer)
    (hD : schema.descriptor type = .ok d) {c c' : Column} (hC : c ∈ d.columns)
    (hC' : c' ∈ d.columns) (hField : c.field = c'.field) : c = c' :=
  Member.column.inj (h type d hD _ (Descriptor.member_of_mem_columns hC) _
    (Descriptor.member_of_mem_columns hC') hField)

theorem relations (h : schema.FieldsDiffer)
    (hD : schema.descriptor type = .ok d) {r r' : Relation}
    (hR : r ∈ d.relations) (hR' : r' ∈ d.relations)
    (hField : r.field = r'.field) : r = r' := by
  obtain ⟨m, hM, hRelation⟩ := List.mem_filterMap.1 hR
  obtain ⟨m', hM', hRelation'⟩ := List.mem_filterMap.1 hR'
  have hSame : m.field = m'.field := by
    rw [Member.field_of_relation? hRelation,
      Member.field_of_relation? hRelation', hField]
  rw [h type d hD m hM m' hM' hSame, hRelation'] at hRelation
  exact (Option.some.inj hRelation).symm

/-- The entity's own fields are not those of relations. -/
theorem scalar (h : schema.FieldsDiffer) (hD : schema.descriptor type = .ok d)
    {c : Column} {r : Relation} (hC : c ∈ d.scalarColumns)
    (hR : r ∈ d.relations) : r.field ≠ c.field := by
  intro hField
  obtain ⟨m, hM, hRelation⟩ := List.mem_filterMap.1 hR
  obtain ⟨hMem, hJoin⟩ := List.mem_filter.1 hC
  have hSame : m.field = (Member.column c).field :=
    (Member.field_of_relation? hRelation).trans hField
  rw [h type d hD m hM _ (Descriptor.member_of_mem_columns hMem) hSame]
    at hRelation
  simp only [Member.relation?, Column.relation?] at hRelation
  split at hRelation
  · rename_i hContent
    rw [Column.isJoin, hContent] at hJoin
    cases hJoin
  · cases hRelation

end FieldsDiffer

/-- What is taken for granted of mappings beyond their checks: a member is a
field of a record, so no two members share one, and each type has a table of
its own. -/
structure Apart (schema : Schema) : Prop where
  fields : ∀ type d, schema.descriptor type = .ok d → ∀ m ∈ d.members,
    ∀ m' ∈ d.members, m.field = m'.field → m = m'
  tables : ∀ type type' d d', schema.descriptor type = .ok d →
    schema.descriptor type' = .ok d' → d.table = d'.table → type = type'

namespace Apart

theorem fieldsDiffer (hApart : schema.Apart) : schema.FieldsDiffer :=
  hApart.fields

theorem identifierAlone (hApart : schema.Apart) : schema.IdentifierAlone :=
  hApart.fieldsDiffer.identifierAlone

end Apart

end Schema

/-- The columns of an entity's own are its identifier and some of those that an
update writes. -/
theorem Descriptor.mem_scalarColumns {schema : Schema} {type : String}
    {d : Descriptor} (hD : schema.descriptor type = .ok d) {c : Column}
    (hC : c ∈ d.scalarColumns) :
    c.isJoin = false ∧ (c = d.identifier ∨ c ∈ d.updatedColumns) := by
  obtain ⟨hMem, hJoin⟩ := List.mem_filter.1 hC
  refine ⟨by simpa using hJoin, ?_⟩
  cases hIdentifier : c.isIdentifier with
  | true => exact Or.inl (Schema.eq_identifier hD hMem hIdentifier)
  | false =>
      exact Or.inr (List.mem_filter.2 ⟨hMem, by rw [hIdentifier]; rfl⟩)

namespace Descriptor

variable {d : Descriptor} {kind : ToOne} {field target joinColumn : String}

/-- A to-one relation is a join column. -/
theorem column_of_toOne
    (h : .toOne kind field target joinColumn ∈ d.relations) :
    ⟨field, joinColumn, .join kind target⟩ ∈ d.columns := by
  obtain ⟨m, hM, hRelation⟩ := List.mem_filterMap.1 h
  refine List.mem_filterMap.2 ⟨m, hM, ?_⟩
  cases m with
  | collection c => cases hRelation
  | column c =>
      obtain ⟨field', name, content⟩ := c
      cases content with
      | identifier type generated => cases hRelation
      | scalar type => cases hRelation
      | join kind target =>
          cases hRelation
          rfl

/-- A join column is a to-one relation. -/
theorem relation_of_join {c : Column} (hMem : c ∈ d.columns)
    (h : c.content = .join kind target) :
    .toOne kind c.field target c.name ∈ d.relations := by
  refine List.mem_filterMap.2 ⟨.column c, member_of_mem_columns hMem, ?_⟩
  show c.relation? = _
  rw [Column.relation?, h]

/-- A collection is read by the join column of the to-one relation in the
field that it is mapped by. -/
theorem mappedByColumn_eq_ok_iff :
    d.mappedByColumn field = .ok joinColumn ↔ ∃ kind target,
      d.relation? field = some (.toOne kind field target joinColumn) := by
  unfold mappedByColumn
  constructor
  · intro h
    cases hRelation : d.relation? field with
    | none =>
        rw [hRelation] at h
        cases h
    | some relation =>
        have hField : relation.field = field := by
          simpa using List.find?_some hRelation
        rw [hRelation] at h
        cases relation with
        | toMany c => cases h
        | toOne kind field' target column =>
            cases h
            cases hField
            exact ⟨kind, target, rfl⟩
  · rintro ⟨kind, target, hRelation⟩
    rw [hRelation]
    rfl

/-- The column that a collection is read by is one of its members'. -/
theorem column_of_mappedByColumn (h : d.mappedByColumn field = .ok joinColumn) :
    ∃ c ∈ d.columns, c.name = joinColumn := by
  obtain ⟨kind, target, hRelation⟩ := mappedByColumn_eq_ok_iff.1 h
  exact ⟨_, column_of_toOne (List.mem_of_find?_eq_some hRelation), rfl⟩

end Descriptor

/-- A collection is not read by the identifier of its members. -/
theorem Schema.mappedByColumn_ne {schema : Schema} {type : String}
    {d : Descriptor} {field column : String}
    (hD : schema.descriptor type = .ok d)
    (hColumn : d.mappedByColumn field = .ok column) :
    column ≠ d.identifier.name := by
  obtain ⟨kind, target, hRelation⟩ :=
    Descriptor.mappedByColumn_eq_ok_iff.1 hColumn
  have hMem := Descriptor.column_of_toOne (List.mem_of_find?_eq_some hRelation)
  have hUpdated : (⟨field, column, .join kind target⟩ : Column) ∈
      d.updatedColumns := List.mem_filter.2 ⟨hMem, rfl⟩
  have hDiffer := notAmong_updatedColumns hD column
    (List.mem_map_of_mem hUpdated)
  rintro rfl
  rw [Text.sameIgnoringCase_self] at hDiffer
  cases hDiffer

end UnitOfWork

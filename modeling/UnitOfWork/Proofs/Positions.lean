import UnitOfWork.Proofs.Graphs
import UnitOfWork.Proofs.SharedTables

/-!
# Where columns are read

A name refers to the last column of exactly that name or, if there is none, to
the first column whose name differs in case only. A mapping is refused when two
of its columns have names that differ at most in case. So each column of a
mapping is read in a position of its own, whatever the names of a row are: in
any case, some of them alike, some of them missing.

## Main results

* `Row.columnIndex?_eq_some_iff`: the position that a name refers to;
* `Row.FoundAt.same_of_eq`: names that refer to one position differ at most in
  case;
* `Loader.found_of_built`: what is built from a row has each column read;
* `Loader.placed_of_built`: what is built from a row has the values of the
  positions of its columns;
* `Mapping.columns_apart`: the columns of a mapping are kept apart in any row.
-/

namespace UnitOfWork

/-! ## The position of a name -/

namespace Row

/-- A name refers to a position. -/
inductive FoundAt (row : Row) (name : String) (p : Nat) : Prop
  /-- It is the last one with exactly that name. -/
  | exact (hHere : row.columns[p]? = some name)
    (hLast : ∀ q, row.columns[q]? = some name → q ≤ p)
  /-- No name is exactly that one, and this is the first that differs in case
  only. -/
  | folded {other : String} (hNone : name ∉ row.columns)
    (hHere : row.columns[p]? = some other)
    (hSame : Text.sameIgnoringCase other name = true)
    (hFirst : ∀ q < p, ∀ earlier, row.columns[q]? = some earlier →
      Text.sameIgnoringCase earlier name = false)

variable {row : Row} {a b name : String} {p q : Nat}

/-- A name that is found stands nowhere further on. -/
theorem le_of_lastIndex? {columns : List String}
    (h : lastIndex? name columns = some p) (hOther : columns[q]? = some name) :
    q ≤ p := by
  induction columns generalizing p q with
  | nil => cases h
  | cons column rest ih =>
      unfold lastIndex? at h
      cases q with
      | zero => exact Nat.zero_le _
      | succ q =>
          rw [List.getElem?_cons_succ] at hOther
          have hMem : name ∈ rest := List.mem_of_getElem? hOther
          cases hRest : lastIndex? name rest with
          | none => exact absurd hMem ((lastIndex?_eq_none_iff ..).1 hRest)
          | some i =>
              have hLe := ih hRest hOther
              rw [hRest] at h
              cases h
              omega

/-- The first name of some that differs from another in case only. -/
theorem findIdx?_eq_some_iff {columns : List String} :
    columns.findIdx? (Text.sameIgnoringCase · name) = some p ↔
      (∃ other, columns[p]? = some other ∧
        Text.sameIgnoringCase other name = true) ∧
      ∀ q < p, ∀ earlier, columns[q]? = some earlier →
        Text.sameIgnoringCase earlier name = false := by
  rw [List.findIdx?_eq_some_iff_getElem]
  constructor
  · rintro ⟨hLt, hSame, hFirst⟩
    refine ⟨⟨_, List.getElem?_eq_getElem hLt, hSame⟩, ?_⟩
    intro q hQ earlier hEarlier
    obtain ⟨_, rfl⟩ := List.getElem?_eq_some_iff.1 hEarlier
    simpa using hFirst q hQ
  · rintro ⟨⟨other, hHere, hSame⟩, hFirst⟩
    obtain ⟨hLt, rfl⟩ := List.getElem?_eq_some_iff.1 hHere
    refine ⟨hLt, hSame, fun q hQ => ?_⟩
    have hEarlier := List.getElem?_eq_getElem (Nat.lt_trans hQ hLt)
    simp [hFirst q hQ _ hEarlier]

/-- A name refers to the last column of that name, or else to the first one
that differs in case only. -/
theorem columnIndex?_eq_some_iff :
    row.columnIndex? name = some p ↔ row.FoundAt name p := by
  -- Exact names are looked for first, so the two ways of being found are told
  -- apart by whether there is one.
  by_cases hMem : name ∈ row.columns
  · constructor
    · intro h
      cases hIndex : lastIndex? name row.columns with
      | none => exact absurd hMem ((lastIndex?_eq_none_iff ..).1 hIndex)
      | some i =>
          rw [columnIndex?, hIndex] at h
          cases h
          exact .exact (getElem?_of_lastIndex? hIndex)
            fun q hQ => le_of_lastIndex? hIndex hQ
    · intro h
      cases h with
      | folded hNone => exact absurd hMem hNone
      | exact hHere hLast =>
          cases hIndex : lastIndex? name row.columns with
          | none => exact absurd hMem ((lastIndex?_eq_none_iff ..).1 hIndex)
          | some i =>
              have hLe := hLast i (getElem?_of_lastIndex? hIndex)
              have hGe := le_of_lastIndex? hIndex hHere
              rw [columnIndex?, hIndex, Nat.le_antisymm hLe hGe]
  · rw [columnIndex?_folded row hMem, findIdx?_eq_some_iff]
    constructor
    · rintro ⟨⟨other, hHere, hSame⟩, hFirst⟩
      exact .folded hMem hHere hSame hFirst
    · intro h
      cases h with
      | exact hHere => exact absurd (List.mem_of_getElem? hHere) hMem
      | folded _ hHere hSame hFirst => exact ⟨⟨_, hHere, hSame⟩, hFirst⟩

/-- A name refers to nothing just when no name is that one, not even but for
case. -/
theorem columnIndex?_eq_none_iff :
    row.columnIndex? name = none ↔ NotAmong row.columns name := by
  by_cases hMem : name ∈ row.columns
  · obtain ⟨i, hIndex, _⟩ := columnIndex?_exact row hMem
    constructor
    · intro hNone
      rw [hIndex] at hNone
      cases hNone
    · intro hNot
      have hSelf := hNot name hMem
      rw [Text.sameIgnoringCase_self] at hSelf
      cases hSelf
  · rw [columnIndex?_folded row hMem, List.findIdx?_eq_none_iff]
    rfl

/-- The name in the position is the one that is looked for, but for case. -/
theorem FoundAt.same (h : row.FoundAt name p) :
    ∃ other, row.columns[p]? = some other ∧
      Text.sameIgnoringCase other name = true := by
  cases h with
  | exact hHere => exact ⟨name, hHere, Text.sameIgnoringCase_self name⟩
  | folded _ hHere hSame => exact ⟨_, hHere, hSame⟩

/-- Names that refer to one position differ at most in case. -/
theorem FoundAt.same_of_eq (hA : row.FoundAt a p) (hB : row.FoundAt b p) :
    Text.sameIgnoringCase a b = true := by
  obtain ⟨other, hHere, hSame⟩ := hA.same
  obtain ⟨other', hHere', hSame'⟩ := hB.same
  rw [hHere] at hHere'
  cases hHere'
  rw [Text.sameIgnoringCase_comm] at hSame
  exact Text.sameIgnoringCase_trans hSame hSame'

/-- A value is had for a name just when it is in the position that the name
refers to. -/
theorem get?_eq_some_iff {v : Value} :
    row.get? name = some v ↔
      ∃ p, row.FoundAt name p ∧ row.values[p]? = some v := by
  simp only [get?, Option.bind_eq_some_iff, columnIndex?_eq_some_iff]

end Row

/-! ## The columns of a mapping -/

/-- Columns of a descriptor in different places have names that differ. -/
theorem Mapping.not_same_of_build {type : String} {mapping : Mapping}
    {d : Descriptor} (h : mapping.build type = .ok d) {i j : Nat}
    {a b : Column} (hA : d.columns[i]? = some a) (hB : d.columns[j]? = some b)
    (hNe : i ≠ j) : Text.sameIgnoringCase a.name b.name = false := by
  obtain ⟨_, _, hRepeated⟩ := build_eq_ok h
  have hNames := (namesDiffer_of_repeatedColumn? hRepeated).1
  by_contra hSame
  rw [Bool.not_eq_false] at hSame
  apply hNe
  apply hNames.index_eq _ _ hSame
  · rw [List.getElem?_map, hA]
    rfl
  · rw [List.getElem?_map, hB]
    rfl

namespace Loader

variable {σ : Type} [Driver σ] {L : Loader} {before after : Work σ}
  {d : Descriptor} {row : Row} {x : Instance}

/-- What an instance has in the field of a column whose value was read: what
the field's type reads from it, or the entity that it identifies. -/
def Placed (L : Loader) (before after : Work σ) (x : Instance) (c : Column)
    (v : Value) : Prop :=
  match c.content with
  | .identifier type _ => type.read v = .ok (x.scalar c.field)
  | .scalar type => type.read v = .ok (x.scalar c.field)
  | .join _ target =>
    ∃ related, x.fields.lookup c.field = some (.toOne related) ∧
      L.Related target v before after related

/-- Columns that are read are had. -/
theorem getRequired_of_readColumns {columns : List Column} {start e : Instance}
    (h : columns.foldlM (readColumn row) start = .ok e) {c : Column}
    (hC : c ∈ columns) : ∃ v, row.getRequired c.name = .ok v := by
  induction columns generalizing start with
  | nil => cases hC
  | cons first rest ih =>
      rw [List.foldlM_cons] at h
      obtain ⟨next, hNext, hRest⟩ := except_bind_eq_ok.1 h
      rcases List.mem_cons.1 hC with rfl | hC
      · obtain ⟨v, hV, _⟩ := except_bind_eq_ok.1 hNext
        exact ⟨v, hV⟩
      · exact ih hRest hC

/-- What was built from a row had each column of it read, in the position that
the column's name refers to. -/
theorem found_of_built {id : EntityId}
    (hBuilt : L.Built before after d row id x) {c : Column}
    (hC : c ∈ d.columns) :
    ∃ p v, row.FoundAt c.name p ∧ row.values[p]? = some v := by
  obtain ⟨e, slots, hRead, _, hSlots, _⟩ := hBuilt
  obtain ⟨v, hV⟩ : ∃ v, row.getRequired c.name = .ok v := by
    cases hJoin : c.isJoin with
    | false =>
        exact getRequired_of_readColumns hRead
          (List.mem_filter.2 ⟨hC, by simp [hJoin]⟩)
    | true =>
        obtain ⟨kind, target, hContent⟩ := Column.content_of_isJoin hJoin
        have hR := Descriptor.relation_of_join hC hContent
        obtain ⟨slot, hSlot⟩ : ∃ slot, L.Content row id before after
            (.toOne kind c.field target c.name) slot := by
          obtain ⟨⟨i, hI⟩, hGet⟩ := List.mem_iff_get.1 hR
          exact ⟨_, hGet ▸ hSlots.get hI (hSlots.length_eq ▸ hI)⟩
        cases hSlot with
        | toOne hV => exact ⟨_, hV⟩
  obtain ⟨p, hFound, hValue⟩ := Row.get?_eq_some_iff.1
    ((Row.getRequired_eq_ok_iff ..).1 hV)
  exact ⟨p, v, hFound, hValue⟩

/-- What was built from a row has, in the field of each column, the value of the
column. -/
theorem placed_of_built (hFields : L.persister.schema.FieldsDiffer)
    (hKnows : L.Knows d) {id : EntityId}
    (hBuilt : L.Built before after d row id x) {c : Column}
    (hC : c ∈ d.columns) {v : Value} (hGet : row.get? c.name = some v) :
    L.Placed before after x c v := by
  have hOwn : ∀ type, c.isJoin = false → c.type? = some type →
      type.read v = .ok (x.scalar c.field) := by
    intro type hJoin hType
    obtain ⟨own, v', hHas, hGet', hRead⟩ := reads_of_built hFields hKnows
      hBuilt c (List.mem_filter.2 ⟨hC, by simp [hJoin]⟩)
    cases hType.symm.trans hHas
    cases hGet.symm.trans hGet'
    exact hRead
  unfold Placed
  cases hContent : c.content with
  | identifier type generated =>
      exact hOwn type (by rw [Column.isJoin, hContent])
        (by rw [Column.type?, hContent])
  | scalar type =>
      exact hOwn type (by rw [Column.isJoin, hContent])
        (by rw [Column.type?, hContent])
  | join kind target =>
      obtain ⟨slot, hSlot, hLookup⟩ := content_of_built hFields hKnows
        hBuilt (Descriptor.relation_of_join hC hContent)
      cases hSlot with
      | toOne hV hRelated =>
          cases hGet.symm.trans ((Row.getRequired_eq_ok_iff ..).1 hV)
          exact ⟨_, hLookup, hRelated⟩

end Loader

/-- The columns of a mapping are kept apart in any row: those that are found are
found in different positions. Each is found where its exact name stands last or,
if that is nowhere, where its name stands first but for case; a table of the
names tells the same. When a row is mapped to a new entity, each column is read
there; the field of the column gets what is read, unless the mapping has other
uses for the field. -/
theorem Mapping.columns_apart {type : String} {mapping : Mapping}
    {d : Descriptor} (h : mapping.build type = .ok d) (row : Row) :
    (∀ (i j : Nat) (a b : Column), i ≠ j →
      d.columns[i]? = some a → d.columns[j]? = some b →
      ∀ p q, row.columnIndex? a.name = some p →
        row.columnIndex? b.name = some q → p ≠ q) ∧
    (∀ c ∈ d.columns,
      (∀ p, row.columnIndex? c.name = some p ↔ row.FoundAt c.name p) ∧
      (row.columnIndex? c.name = none ↔ NotAmong row.columns c.name) ∧
      ∀ catalogue,
        (IndexedRow.make catalogue row.columns row.values).1.answers
            (IndexedRow.make catalogue row.columns row.values).2 c.name =
          row.answers c.name) ∧
    ∀ (σ : Type) [Driver σ] (L : Loader) (depth : Nat) (work after : Work σ)
      (ref : Ref),
      ((L.mapRow depth : RowMapper σ) d row).run work = (.ok ref, after) →
      (∀ key, work.context.get? key ≠ some ref) →
      ∀ c ∈ d.columns, ∃ p v, row.FoundAt c.name p ∧
        row.values[p]? = some v ∧
        (L.Knows d → L.persister.schema.FieldsDiffer →
          L.Placed work after (after.env.heap.get ref) c v) := by
  refine ⟨?_, fun c _ => ⟨fun p => Row.columnIndex?_eq_some_iff,
    Row.columnIndex?_eq_none_iff,
    fun catalogue => IndexedRow.answers_make catalogue _ _ _⟩, ?_⟩
  · rintro i j a b hNe hA hB p q hP hQ rfl
    have hDiffer := not_same_of_build h hA hB hNe
    have hSame := (Row.columnIndex?_eq_some_iff.1 hP).same_of_eq
      (Row.columnIndex?_eq_some_iff.1 hQ)
    rw [hDiffer] at hSame
    cases hSame
  · intro σ _ L depth work after ref hRun hNew c hC
    obtain ⟨id, hBuilt⟩ := Loader.mapRow_built hRun hNew
    obtain ⟨p, v, hFound, hValue⟩ := Loader.found_of_built hBuilt hC
    have hGet := Row.get?_eq_some_iff.2 ⟨p, hFound, hValue⟩
    exact ⟨p, v, hFound, hValue, fun hKnows hFields =>
      Loader.placed_of_built hFields hKnows hBuilt hC hGet⟩

namespace Nodes

/-- A node under names in other cases, one of which stands for two columns. -/
def disguised : Row :=
  ⟨["ID", "title", "Parent_ID", "TITLE", "title"],
    [.int 9, .text "a", .int 3, .text "b", .text "c"]⟩

end Nodes

/-- Each column of a node is found all the same, in a position of its own, and
the node that is loaded has what is there. -/
theorem Mapping.columns_apart_of_nodes :
    ∃ d after, ((Nodes.schema .eager).mapping "Node").build "Node" = .ok d ∧
      (Nodes.loader.mapRow 3 d Nodes.disguised).run Nodes.blank =
        (.ok 0, after) ∧
      Nodes.disguised.FoundAt "id" 0 ∧ Nodes.disguised.FoundAt "title" 4 ∧
      Nodes.disguised.FoundAt "parent_id" 2 ∧
      (∀ c ∈ d.columns, ∃ p v, Nodes.disguised.FoundAt c.name p ∧
        Nodes.disguised.values[p]? = some v ∧
        Nodes.loader.Placed Nodes.blank after (after.env.heap.get 0) c v) ∧
      (after.env.heap.get 0).scalar "title" = .text "c" ∧
      (after.env.heap.get 0).toOne "parent" = some 1 ∧
      (after.env.heap.get 1).scalar "id" = .int 3 := by
  have hBuild : ((Nodes.schema .eager).mapping "Node").build "Node" =
      .ok ⟨"Node", "nodes", [.column Nodes.number, .column Nodes.title,
        .column Nodes.parent, .collection (Nodes.children .eager)],
        Nodes.number⟩ := rfl
  obtain ⟨_, hFound, hLoaded⟩ := columns_apart hBuild Nodes.disguised
  have hNumber := (hFound Nodes.number (by decide)).1 0
  have hTitle := (hFound Nodes.title (by decide)).1 4
  have hParent := (hFound Nodes.parent (by decide)).1 2
  have hPlaced := hLoaded Store Nodes.loader 3 Nodes.blank _ 0 rfl nofun
  refine ⟨_, _, hBuild, rfl, hNumber.1 rfl, hTitle.1 rfl, hParent.1 rfl,
    fun c hC => ?_, rfl, rfl, rfl⟩
  obtain ⟨p, v, hAt, hValue, hField⟩ := hPlaced c hC
  exact ⟨p, v, hAt, hValue, hField rfl Nodes.fieldsDiffer_schema⟩

end UnitOfWork

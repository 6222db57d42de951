import UnitOfWork.Proofs.Depths

/-!
# The graph that a load leaves

A load of a database that stands still gives an entity for each row that is
asked for, in the order of the rows, rows with one key the same entity. Every
entity that the load registers shows its row: its own fields have the values of
the columns, a field for a related entity has the entity that is registered
under the identifier in the join column, if there is one to be had, and a
collection that is read at once has the entities of the rows that refer back,
in their order. What the entities refer to may refer back to them, directly or
through others, and they may refer to themselves.

The fields of a mapping are taken to be different, as those of a record are.

## Main results

* `Instance.lookup_fill`: what a field has when all relations were followed;
* `Loader.joined_of_related`: when a related entity is missing;
* `Loader.depicts_of_built`: an entity that was built shows its row;
* `Loader.loads_show_rows`: all of this of every kind of load.
-/

namespace UnitOfWork

/-! ## Fields that have been given their contents -/

namespace Instance

variable {relations : List Relation} {slots : List Slot}

theorem type_fill (e : Instance) :
    (e.fill relations slots).type = e.type := by
  induction relations generalizing e slots with
  | nil => rfl
  | cons r rest ih =>
      cases slots with
      | nil => rfl
      | cons slot slots => exact ih (e.set r.field slot)

theorem lookup_fill_ne {field : String} (e : Instance)
    (hOther : ∀ r ∈ relations, r.field ≠ field) :
    (e.fill relations slots).fields.lookup field = e.fields.lookup field := by
  induction relations generalizing e slots with
  | nil => rfl
  | cons r rest ih =>
      cases slots with
      | nil => rfl
      | cons slot slots =>
          have hNe := (hOther r (List.mem_cons_self ..)).symm
          refine (ih _ fun r' hR => hOther r' (List.mem_cons_of_mem _ hR)).trans
            ?_
          rw [set, Assoc.lookup_insert_ne hNe]

/-- A relation with a field to itself has it filled with its content. -/
theorem lookup_fill {C : Relation → Slot → Prop} {r : Relation} (e : Instance)
    (h : List.Forall₂ C relations slots) (hMem : r ∈ relations)
    (hAlone : ∀ r' ∈ relations, r'.field = r.field → r' = r) :
    ∃ slot, C r slot ∧
      (e.fill relations slots).fields.lookup r.field = some slot := by
  induction h generalizing e with
  | nil => cases hMem
  | @cons first slot rest slots hFirst hRest ih =>
      have hAloneRest : ∀ r' ∈ rest, r'.field = r.field → r' = r :=
        fun r' hR => hAlone r' (List.mem_cons_of_mem _ hR)
      by_cases hIn : r ∈ rest
      · exact ih (e.set first.field slot) hIn hAloneRest
      · have hSame : r = first := (List.mem_cons.1 hMem).resolve_right hIn
        subst hSame
        refine ⟨slot, hFirst, ?_⟩
        have hLast : ((e.set r.field slot).fill rest slots).fields.lookup
            r.field = (e.set r.field slot).fields.lookup r.field :=
          lookup_fill_ne _ fun r' hR hField =>
            hIn (hAloneRest r' hR hField ▸ hR)
        rw [fill, hLast, set, Assoc.lookup_insert_self]

end Instance

/-! ## The entities of rows -/

/-- An entity is the one that is looked after under the key of a row. -/
def Context.EntityOf (ctx : Context) (d : Descriptor) (row : Row) (ref : Ref) :
    Prop :=
  ∃ id : EntityId, row.get? d.identifier.name = some id.toValue ∧
    ctx.get? ⟨d.typeName, id⟩ = some ref

/-- Rows with the same identifier have the same entity. -/
theorem Context.EntityOf.same {ctx : Context} {d : Descriptor}
    {row other : Row} {ref ref' : Ref} (h : ctx.EntityOf d row ref)
    (h' : ctx.EntityOf d other ref')
    (hSame : row.get? d.identifier.name = other.get? d.identifier.name) :
    ref = ref' := by
  obtain ⟨id, hId, hGet⟩ := h
  obtain ⟨id', hId', hGet'⟩ := h'
  have hValue : id.toValue = id'.toValue :=
    Option.some.inj (hId.symm.trans (hSame.trans hId'))
  rw [EntityId.toValue_injective hValue] at hGet
  exact Option.some.inj (hGet.symm.trans hGet')

namespace Loader

section

variable {L : Loader} {after : Work σ}

theorem entityOf_of_mapped (hAlone : L.persister.schema.IdentifierAlone)
    {d : Descriptor} {row : Row} {ref : Ref} (hKnows : L.Knows d)
    (h : Mapped d row ref after) : after.context.EntityOf d row ref := by
  obtain ⟨e, id, hRead, hId, hGet⟩ := h
  refine ⟨id, ?_, hGet⟩
  exact (Row.getRequired_eq_ok_iff ..).1
    (getRequired_of_requireId hAlone hKnows hRead hId)

theorem entitiesOf_of_mapped (hAlone : L.persister.schema.IdentifierAlone)
    {d : Descriptor} {rows : List Row} {refs : List Ref} (hKnows : L.Knows d)
    (h : List.Forall₂ (fun row ref => Mapped d row ref after) rows refs) :
    List.Forall₂ (after.context.EntityOf d) rows refs :=
  h.imp fun _ _ hRef => entityOf_of_mapped hAlone hKnows hRef

end

variable [Driver σ] {L : Loader} {db : Standing σ L.connection}

/-- There is no entity of a type with an identifier: none is looked after, and
no row of its table has it. -/
def Missing (db : Standing σ L.connection) (ctx : Context) (type : String)
    (id : EntityId) : Prop :=
  ctx.get? ⟨type, id⟩ = none ∧ ∀ d, L.descriptor type = .ok d →
    ∀ row ∈ db.content d.table,
      row.get? d.identifier.name ≠ some id.toValue

/-- What becomes of a value that identifies an entity of a type. -/
structure Joined (db : Standing σ L.connection) (before after : Context)
    (type : String) (v : Value) (related : Option Ref) : Prop where
  none_iff : related = none ↔
    v.isNull = true ∨ ∃ id : EntityId, v = id.toValue ∧
      Missing db before type id
  registered : ∀ ref, related = some ref → ∃ id : EntityId, v = id.toValue ∧
    after.get? ⟨type, id⟩ = some ref

/-- An instance shows a row: its fields have what the row says. -/
structure Depicts (db : Standing σ L.connection) (before after : Context)
    (d : Descriptor) (row : Row) (id : EntityId) (x : Instance) : Prop where
  typeName : x.type = d.typeName
  identifier : row.get? d.identifier.name = some id.toValue
  /-- Each of its own fields has what its type reads from its column. -/
  scalars : Reads d row x
  toOne : ∀ kind field target joinColumn,
    .toOne kind field target joinColumn ∈ d.relations →
      ∃ v related, row.get? joinColumn = some v ∧
        x.fields.lookup field = some (.toOne related) ∧
        Joined db before after target v related
  eager : ∀ c, .toMany c ∈ d.relations → c.fetch = .eager →
    ∃ d' column members, L.descriptor c.target = .ok d' ∧
      d'.mappedByColumn c.mappedBy = .ok column ∧
      x.fields.lookup c.field = some (.toMany (.resolved members)) ∧
      List.Forall₂ (after.EntityOf d')
        ((db.content d'.table).filter (·.has column id.toValue)) members
  unread : ∀ c, .toMany c ∈ d.relations → c.fetch = .lazy →
    ∃ d' column, L.descriptor c.target = .ok d' ∧
      d'.mappedByColumn c.mappedBy = .ok column ∧
      x.fields.lookup c.field = some (.toMany
        (.unresolved ⟨L.session, c.target, column, id.toValue⟩))

/-- What a load leaves: what was looked after still is, and every entity that
is new is a new instance and shows a row of its table. -/
structure Graph (db : Standing σ L.connection) (before after : Work σ) :
    Prop where
  kept : before.context.Within after.context
  added : ∀ key ref, after.context.get? key = some ref →
    before.context.get? key = some ref ∨
      before.env.heap.next ≤ ref ∧ ∃ d row, L.descriptor key.type = .ok d ∧
        row ∈ db.content d.table ∧
        Depicts db before.context after.context d row key.id
          (after.env.heap.get ref)

/-! ## Graphs of loads -/

section

variable {before after : Work σ}

/-- What is new in the context has a row. -/
theorem not_missing_of_added (hAlone : L.persister.schema.IdentifierAlone)
    (hHolds : db.Holds before.env.driver)
    (h : L.Extends NoRow NoRef before after) {type : String} {id : EntityId}
    {ref : Ref} (hGet : after.context.get? ⟨type, id⟩ = some ref) :
    ¬ Missing db before.context type id := by
  rintro ⟨hFree, hNoRow⟩
  rcases h.added _ _ hGet with
    hOld | ⟨_, _, d, row, hKnows, rfl, hRow, e, _, hRead, hId, _⟩
  · cases hFree.symm.trans hOld
  · have hMem := db.mem_of_read hHolds (hRow.resolve_left not_false)
    refine hNoRow d hKnows row hMem ?_
    exact (Row.getRequired_eq_ok_iff ..).1
      (getRequired_of_requireId hAlone hKnows hRead hId)

/-- A related entity is missing when there is none to be had, and else it is
the one that is registered. -/
theorem joined_of_related (hAlone : L.persister.schema.IdentifierAlone)
    (hHolds : db.Holds before.env.driver)
    (h : L.Extends NoRow NoRef before after) {type : String} {v : Value}
    {related : Option Ref} (hRelated : L.Related type v before after related) :
    Joined db before.context after.context type v related := by
  have hSome : ∀ {id : EntityId} {ref : Ref}, v = id.toValue →
      after.context.get? ⟨type, id⟩ = some ref →
        Joined db before.context after.context type v (some ref) := by
    intro id ref hV hGet
    refine ⟨⟨nofun, ?_⟩, ?_⟩
    · rintro (hNull | ⟨other, hOther, hMissing⟩)
      · rw [hV, EntityId.isNull_toValue] at hNull
        cases hNull
      · cases EntityId.toValue_injective (hV.symm.trans hOther)
        exact absurd hMissing (not_missing_of_added hAlone hHolds h hGet)
    · intro _ hRef
      cases hRef
      exact ⟨id, hV, hGet⟩
  cases hRelated with
  | null hNull => exact ⟨⟨fun _ => Or.inl hNull, fun _ => rfl⟩, nofun⟩
  | @missing id d hV hFree hD hNone =>
      refine ⟨⟨fun _ => Or.inr ⟨id, hV, hFree, ?_⟩, fun _ => rfl⟩, nofun⟩
      intro d' hD' row hRow hHas
      cases hD.symm.trans hD'
      have hMem : row ∈ (db.content d.table).filter
          (·.has d.identifier.name v) := by
        rw [hV]
        exact List.mem_filter.2 ⟨hRow, Row.has_toValue_iff.2 hHas⟩
      rw [← db.rows_by hHolds hNone] at hMem
      cases hMem
  | resident hV hGet => exact hSome hV hGet
  | @found id d row ref hV hD hFound hRef =>
      have hKnows := knows_of_descriptor hD
      obtain ⟨other, hHas, hGet⟩ := entityOf_of_mapped hAlone hKnows hRef
      have hRows := db.rows_by hHolds hFound
      have hMem : row ∈ (db.content d.table).filter
          (·.has d.identifier.name v) := hRows ▸ List.mem_singleton_self row
      have hRow := (List.mem_filter.1 hMem).2
      rw [hV, Row.has_toValue_iff, hHas] at hRow
      have hSame : other = id := EntityId.toValue_injective
        (Option.some.inj hRow)
      rw [hSame, Schema.typeName_of_descriptor hD] at hGet
      exact hSome hV hGet

/-- What was built from a row has the row's values in its own fields. -/
theorem reads_of_built (hFields : L.persister.schema.FieldsDiffer)
    {d : Descriptor} {row : Row} {id : EntityId} {x : Instance}
    (hKnows : L.Knows d) (hBuilt : L.Built before after d row id x) :
    Reads d row x := by
  obtain ⟨e, slots, hRead, _, _, rfl⟩ := hBuilt
  intro c hC
  obtain ⟨type, hType⟩ := Column.type?_of_isJoin (c := c) (by
    simpa using (List.mem_filter.1 hC).2)
  have hOwn : ∀ c' ∈ d.scalarColumns, c'.field = c.field → c' = c :=
    fun c' hC' => hFields.columns hKnows (List.mem_filter.1 hC').1
      (List.mem_filter.1 hC).1
  obtain ⟨v, hV, hHeld⟩ := scalar_of_readRow hC hType hOwn hRead
  have hKept : (e.fill d.relations slots).fields.lookup c.field =
      e.fields.lookup c.field :=
    Instance.lookup_fill_ne e fun r hR => hFields.scalar hKnows hC hR
  refine ⟨type, v, hType, (Row.getRequired_eq_ok_iff ..).1 hV, ?_⟩
  rw [Instance.scalar, hKept]
  exact hHeld

/-- The field of a relation has its content. -/
theorem content_of_built (hFields : L.persister.schema.FieldsDiffer)
    {d : Descriptor} {row : Row} {id : EntityId} {x : Instance}
    (hKnows : L.Knows d) (hBuilt : L.Built before after d row id x)
    {r : Relation} (hR : r ∈ d.relations) :
    ∃ slot, L.Content row id before after r slot ∧
      x.fields.lookup r.field = some slot := by
  obtain ⟨e, slots, _, _, hSlots, rfl⟩ := hBuilt
  exact Instance.lookup_fill e hSlots hR fun r' hR' hField =>
    hFields.relations hKnows hR' hR hField

/-- An entity that was built from a row shows it. -/
theorem depicts_of_built (hFields : L.persister.schema.FieldsDiffer)
    (hHolds : db.Holds before.env.driver)
    (h : L.Extends NoRow NoRef before after) {d : Descriptor} {row : Row}
    {id : EntityId} {x : Instance} (hKnows : L.Knows d)
    (hBuilt : L.Built before after d row id x) :
    Depicts db before.context after.context d row id x := by
  have hAlone := hFields.identifierAlone
  have hFill := fun {r} (hR : r ∈ d.relations) =>
    content_of_built hFields hKnows hBuilt hR
  have hReads := reads_of_built hFields hKnows hBuilt
  obtain ⟨e, slots, hRead, hId, hSlots, rfl⟩ := hBuilt
  constructor
  case typeName => rw [Instance.type_fill, type_of_readRow hRead]
  case identifier =>
    exact (Row.getRequired_eq_ok_iff ..).1
      (getRequired_of_requireId hAlone hKnows hRead hId)
  case scalars => exact hReads
  case toOne =>
    intro kind field target joinColumn hR
    obtain ⟨slot, hContent, hLookup⟩ := hFill hR
    cases hContent with
    | toOne hV hRelated =>
        exact ⟨_, _, (Row.getRequired_eq_ok_iff ..).1 hV, hLookup,
          joined_of_related hAlone hHolds h hRelated⟩
  case eager =>
    intro c hR hEager
    obtain ⟨slot, hContent, hLookup⟩ := hFill hR
    cases hContent with
    | unread hLazy => cases hEager.symm.trans hLazy
    | eager _ hD hColumn hRows hMembers =>
        refine ⟨_, _, _, hD, hColumn, hLookup, ?_⟩
        rw [← db.rows_by hHolds hRows]
        exact entitiesOf_of_mapped hAlone (knows_of_descriptor hD) hMembers
  case unread =>
    intro c hR hLazy
    obtain ⟨slot, hContent, hLookup⟩ := hFill hR
    cases hContent with
    | eager hEager => cases hLazy.symm.trans hEager
    | unread _ hD hColumn => exact ⟨_, _, hD, hColumn, hLookup⟩

theorem graph_of_extends (hFields : L.persister.schema.FieldsDiffer)
    (hHolds : db.Holds before.env.driver)
    (h : L.Extends NoRow NoRef before after) : Graph db before after where
  kept := h.context
  added := by
    intro key ref hGet
    rcases h.added key ref hGet with
      hOld | ⟨hNew, _, d, row, hKnows, hType, hRow, hBuilt⟩
    · exact Or.inl hOld
    · refine Or.inr ⟨hNew, d, row, hType ▸ hKnows, ?_, ?_⟩
      · exact db.mem_of_read hHolds (hRow.resolve_left not_false)
      · exact depicts_of_built hFields hHolds h hKnows hBuilt

end

/-! ## Every kind of load -/

/-- A load does not fail for want of depth, and if it succeeds it leaves the
graph, and its result is as `Q` says. -/
def Draws (db : Standing σ L.connection) (work : Work σ)
    (load : Step (Work σ) α) (Q : α → Context → Prop) : Prop :=
  match load.run work with
  | (.error e, _) => e ≠ .endlessLoad
  | (.ok a, after) => Graph db work after ∧ Q a after.context

theorem draws_of_yields {work : Work σ} {load : Step (Work σ) α}
    {P : α → Work σ → Prop} {Q : α → Context → Prop}
    (hFields : L.persister.schema.FieldsDiffer)
    (hHolds : db.Holds work.env.driver)
    (hAmple : Ample (load.run work).1)
    (h : L.Yields NoRef work load fun a after =>
      L.Extends NoRow NoRef work after ∧ P a after)
    (hImp : ∀ a after, L.Extends NoRow NoRef work after → P a after →
      Q a after.context) : Draws db work load Q := by
  unfold Draws
  obtain ⟨_, hGives⟩ := h
  rcases hRun : load.run work with ⟨e | a, after⟩
  · rw [hRun] at hAmple
    exact fun hEndless => hAmple (by rw [hEndless])
  · rw [hRun] at hGives
    obtain ⟨hExtends, hP⟩ := hGives a rfl
    exact ⟨graph_of_extends hFields hHolds hExtends, hImp a after hExtends hP⟩

/-- A load gives the entities of the rows that it asks for, in their order, and
all that it registers shows its row; no data are too entangled for it. -/
theorem loads_show_rows {work : Work σ}
    (hFields : L.persister.schema.FieldsDiffer)
    (hHolds : db.Holds work.env.driver) :
    (∀ type id, Draws db work (L.loadById type id) fun found after =>
      Joined db work.context after type id.toValue found) ∧
    (∀ type field v, Draws db work (L.loadOne type field v)
      fun found after => ∃ d c, L.descriptor type = .ok d ∧
        d.columnFor field = .ok c ∧ List.Forall₂ (after.EntityOf d)
          ((db.content d.table).filter (·.has c.name v)) found.toList) ∧
    (∀ type, Draws db work (L.loadAll type) fun refs after =>
      ∃ d, L.descriptor type = .ok d ∧
        List.Forall₂ (after.EntityOf d) (db.content d.table) refs) ∧
    (∀ type field v, Draws db work (L.loadAllBy type field v)
      fun refs after => ∃ d c, L.descriptor type = .ok d ∧
        d.columnFor field = .ok c ∧ List.Forall₂ (after.EntityOf d)
          ((db.content d.table).filter (·.has c.name v)) refs) ∧
    ∀ source, Draws db work (L.loadMembers source) fun refs after =>
      ∃ d, L.descriptor source.target = .ok d ∧
        List.Forall₂ (after.EntityOf d)
          ((db.content d.table).filter (·.has source.column source.owner))
          refs := by
  have hAlone := hFields.identifierAlone
  refine ⟨?_, ?_, ?_, ?_, ?_⟩
  · intro type id
    exact draws_of_yields hFields hHolds (loadById_ample hHolds type id)
      (loadById_yields L type id work)
      fun _ _ h hRelated => joined_of_related hAlone hHolds h hRelated
  · intro type field v
    refine draws_of_yields hFields hHolds (loadOne_ample hHolds type field v)
      (loadOne_yields L type field v work) ?_
    rintro found after _ ⟨d, c, rows, hD, hC, hRows, hRefs⟩
    refine ⟨d, c, hD, hC, ?_⟩
    rw [← db.rows_by hHolds hRows]
    exact entitiesOf_of_mapped hAlone (knows_of_descriptor hD) hRefs
  · intro type
    refine draws_of_yields hFields hHolds (loadAll_ample hHolds type)
      (loadAll_yields L type work) ?_
    rintro refs after _ ⟨d, rows, hD, hRows, hRefs⟩
    refine ⟨d, hD, ?_⟩
    rw [← db.rows_all hHolds hRows]
    exact entitiesOf_of_mapped hAlone (knows_of_descriptor hD) hRefs
  · intro type field v
    refine draws_of_yields hFields hHolds (loadAllBy_ample hHolds type field v)
      (loadAllBy_yields L type field v work) ?_
    rintro refs after _ ⟨d, c, rows, hD, hC, hRows, hRefs⟩
    refine ⟨d, c, hD, hC, ?_⟩
    rw [← db.rows_by hHolds hRows]
    exact entitiesOf_of_mapped hAlone (knows_of_descriptor hD) hRefs
  · intro source
    refine draws_of_yields hFields hHolds (loadMembers_ample hHolds source)
      (loadMembers_yields L source work) ?_
    rintro refs after _ ⟨d, rows, hD, hRows, hRefs⟩
    refine ⟨d, hD, ?_⟩
    rw [← db.rows_by hHolds hRows]
    exact entitiesOf_of_mapped hAlone (knows_of_descriptor hD) hRefs

end Loader

/-! ## A circle of nodes -/

namespace Nodes

theorem descriptor_schema {fetch : Fetch} {type : String} {d : Descriptor}
    (h : (schema fetch).descriptor type = .ok d) :
    type = "Node" ∧ d = ⟨"Node", "nodes", [.column number, .column title,
      .column parent, .collection (children fetch)], number⟩ := by
  by_cases hNode : type = "Node"
  · subst hNode
    cases h
    exact ⟨rfl, rfl⟩
  · rw [Schema.descriptor, Schema.mapping, schema, Assoc.lookup_cons,
      if_neg (Ne.symm hNode)] at h
    cases h

theorem fieldsDiffer_schema : (schema .eager).FieldsDiffer := by
  intro type d hD m hM m' hM' hField
  obtain ⟨_, rfl⟩ := descriptor_schema hD
  simp only [List.mem_cons, List.not_mem_nil, or_false] at hM hM'
  rcases hM with rfl | rfl | rfl | rfl <;>
    rcases hM' with rfl | rfl | rfl | rfl <;>
      first | rfl | exact absurd hField (by decide)

theorem regular_store {rows : List (List Value)}
    (hFull : ∀ row ∈ rows, row.length = 3) (table : String) :
    Tables.Regular "id" table (store rows).tables := by
  refine Tables.regular_singleton ⟨?_, hFull, fun _ hNone => ?_⟩ table
  · show List.Pairwise _ ["id", "title", "parent_id"]
    decide
  · cases hNone

/-- Two nodes that are each other's parent, and one that is its own. -/
def circle : List (List Value) :=
  [[.int 1, .text "a", .int 2], [.int 2, .text "b", .int 1],
    [.int 3, .text "c", .int 3]]

/-- They stand still. -/
def still : Standing Store 0 :=
  Store.standing 0 (store circle).tables
    fun table => ⟨"id", regular_store (by decide) table⟩

/-- A loader without a session, which reads children at once. -/
def loader : Loader := ⟨persister .eager, 0, none⟩

/-- Nothing has been loaded yet. -/
def blank : Work Store := ⟨{ driver := store circle }, {}⟩

theorem holds_blank : still.Holds blank.env.driver := by
  have hPlain : (store circle).Plain .exact :=
    ⟨rfl, rfl, fun _ hMem => by cases hMem⟩
  exact ⟨hPlain, ⟨rfl, rfl⟩, rfl⟩

end Nodes

/-- The nodes of the circle refer to each other when they have been loaded, and
the last one to itself. -/
theorem Loader.loads_show_rows_of_nodes :
    Schema.FieldsDiffer (Nodes.schema .eager) ∧
      Nodes.still.Holds Nodes.blank.env.driver ∧
      ∃ after, (Nodes.loader.loadAll "Node").run Nodes.blank =
          (.ok [0, 1, 2], after) ∧
        Graph (L := Nodes.loader) Nodes.still Nodes.blank after ∧
        (∃ d, Nodes.loader.descriptor "Node" = .ok d ∧
          List.Forall₂ (after.context.EntityOf d)
            (Nodes.still.content d.table) [0, 1, 2]) ∧
        (after.env.heap.get 0).toOne "parent" = some 1 ∧
        (after.env.heap.get 1).toOne "parent" = some 0 ∧
        (after.env.heap.get 2).toMany "children" = .resolved [2] := by
  obtain ⟨_, _, hAll, _⟩ := loads_show_rows (L := Nodes.loader)
    Nodes.fieldsDiffer_schema Nodes.holds_blank
  have hRun : (Nodes.loader.loadAll "Node").run Nodes.blank =
      (.ok [0, 1, 2], ((Nodes.loader.loadAll "Node").run Nodes.blank).2) := rfl
  have hLoad := hAll "Node"
  unfold Draws at hLoad
  rw [hRun] at hLoad
  obtain ⟨hGraph, hRefs⟩ := hLoad
  exact ⟨Nodes.fieldsDiffer_schema, Nodes.holds_blank, _, hRun, hGraph, hRefs,
    rfl, rfl, rfl⟩

end UnitOfWork

import UnitOfWork.Proofs.Endings

/-!
# Collections and the fields that they are mapped by

A collection is read by the column of the field that it is mapped by, and the
members that are new to the context have that field filled by the value of the
same column. So the two sides agree: what such a member refers to is what is
looked after as the field's target with the owner's identifier, which is the
owner if the field refers to entities of its type. The owner has to be looked
after by then, and is: an entity is registered before its relations are
followed.

A collection can only be mapped by a relation to a single entity. Nothing else
is asked of the field, so it may refer to entities of another type than the
owner's; the members then refer to one of those, or to none.

## Main results

* `Loader.Task.graph`: every load leaves a graph;
* `Loader.Joined.eq_get?`: a field refers to what is registered;
* `Loader.collection_run_of_not_mappedTo`: when a collection is refused;
* `Loader.members_refer_back`: what members refer to.
-/

namespace UnitOfWork

/-- The field that a collection is mapped by refers to entities of the target by
the column. -/
def CollectionField.MappedTo (c : CollectionField) (d : Descriptor)
    (target column : String) : Prop :=
  ∃ kind, d.relation? c.mappedBy = some (.toOne kind c.mappedBy target column)

theorem CollectionField.MappedTo.mappedByColumn {c : CollectionField}
    {d : Descriptor} {target column : String} (h : c.MappedTo d target column) :
    d.mappedByColumn c.mappedBy = .ok column := by
  obtain ⟨kind, hRelation⟩ := h
  exact Descriptor.mappedByColumn_eq_ok_iff.2 ⟨kind, target, hRelation⟩

/-- A field that is no relation to a single entity has no column. -/
theorem CollectionField.mappedByColumn_of_not_mappedTo {c : CollectionField}
    {d : Descriptor} (h : ∀ target column, ¬ c.MappedTo d target column) :
    d.mappedByColumn c.mappedBy =
      .error (.schema (.mappedByUnknown c.mappedBy d.typeName)) := by
  cases hColumn : d.mappedByColumn c.mappedBy with
  | ok column =>
      obtain ⟨kind, target, hRelation⟩ :=
        Descriptor.mappedByColumn_eq_ok_iff.1 hColumn
      exact absurd ⟨kind, hRelation⟩ (h target column)
  | error e =>
      unfold Descriptor.mappedByColumn at hColumn
      split at hColumn
      · cases hColumn
      · cases hColumn
        rfl

namespace Loader

variable {σ : Type} [Driver σ] {L : Loader} {db : Standing σ L.connection}
  {before after work : Work σ} {d d' : Descriptor} {c : CollectionField}
  {target column : String} {id : EntityId} {ref o : Ref}

/-! ## Graphs of all kinds of loads -/

/-- A load of whatever kind builds what it adds. -/
theorem Task.load_yields {task : Task} (hKnown : task.Known L)
    (work : Work σ) :
    L.Yields NoRef work (L.run fun mapper => task.load L mapper)
      fun _ after => L.Extends NoRow NoRef work after := by
  refine run_yields fun mapper hMapper => ?_
  cases task with
  | byId type v =>
      exact (findById_yields hMapper type v).imp fun _ _ h => h.1
  | one d column v =>
      exact (findOne_yields hMapper hKnown column v).imp fun _ _ h => h.1
  | all d => exact (findAll_yields hMapper hKnown).imp fun _ _ h => h.1
  | allBy d column v =>
      exact (findAllBy_yields hMapper hKnown column v).imp fun _ _ h => h.1
  | collection c owner =>
      refine yields_lift_bind fun d hD => yields_lift_bind fun column _ => ?_
      cases c.fetch with
      | eager =>
          exact (findAllBy_yields hMapper (knows_of_descriptor hD) column
            owner).bind fun members after h => yields_pure h.1
      | «lazy» => exact yields_pure (.refl ..)

theorem Task.graph {task : Task} {r : task.Result}
    (hFields : L.persister.schema.FieldsDiffer)
    (hHolds : db.Holds work.env.driver) (hKnown : task.Known L)
    (hRun : (L.run fun mapper => task.load L mapper).run work =
      (.ok r, after)) : Graph db work after := by
  have hYields := (Task.load_yields hKnown work).2 r
  rw [hRun] at hYields
  exact graph_of_extends hFields hHolds (hYields rfl)

/-! ## Where references lead -/

/-- What there is nothing of before a load, nothing is registered as. -/
theorem Graph.get?_of_missing (h : Graph db before after)
    (hMissing : Missing db before.context target id) :
    after.context.get? ⟨target, id⟩ = none := by
  obtain ⟨hFree, hNoRow⟩ := hMissing
  cases hGet : after.context.get? ⟨target, id⟩ with
  | none => rfl
  | some ref =>
      rcases h.added _ _ hGet with hOld | ⟨_, d, row, hD, hRow, hDepicts⟩
      · cases hFree.symm.trans hOld
      · exact absurd hDepicts.identifier (hNoRow d hD row hRow)

/-- A value that is an identifier leads to what is registered under it. -/
theorem Joined.eq_get? {related : Option Ref} (hGraph : Graph db before after)
    (h : Joined db before.context after.context target id.toValue related) :
    related = after.context.get? ⟨target, id⟩ := by
  cases related with
  | some ref =>
      obtain ⟨other, hSame, hGet⟩ := h.registered ref rfl
      rw [EntityId.toValue_injective hSame]
      exact hGet.symm
  | none =>
      rcases h.none_iff.1 rfl with hNull | ⟨other, hSame, hMissing⟩
      · rw [EntityId.isNull_toValue] at hNull
        cases hNull
      · rw [EntityId.toValue_injective hSame]
        exact (hGraph.get?_of_missing hMissing).symm

/-! ## Members -/

/-- A member of an owner's collection refers to an entity or to none by the
field that the collection is mapped by. If there are several rows with the
member's identifier, they have to agree on the owner. -/
def RefersTo (db : Standing σ L.connection) (after : Work σ) (d' : Descriptor)
    (c : CollectionField) (column : String) (id : EntityId)
    (related : Option Ref) (ref : Ref) : Prop :=
  ∀ own : EntityId, after.context.get? ⟨d'.typeName, own⟩ = some ref →
    (∀ row ∈ db.content d'.table,
      row.get? d'.identifier.name = some own.toValue →
        row.get? column = some id.toValue) →
    (after.env.heap.get ref).fields.lookup c.mappedBy = some (.toOne related)

/-- The members of an owner's collection, of whom those that are new refer
back. -/
structure Reciprocal (db : Standing σ L.connection) (before after : Work σ)
    (d d' : Descriptor) (c : CollectionField) (target column : String)
    (id : EntityId) (o : Ref) (members : List Ref) : Prop where
  rows : List.Forall₂ (after.context.EntityOf d')
    ((db.content d'.table).filter (·.has column id.toValue)) members
  /-- They refer to the owner if it is entities of its type that their field
  refers to. -/
  back : target = d.typeName → ∀ ref ∈ members,
    (∀ key, before.context.get? key ≠ some ref) →
      RefersTo db after d' c column id (some o) ref
  /-- In any case they refer to what is looked after as the target with the
  owner's identifier. -/
  astray : ∀ ref ∈ members, (∀ key, before.context.get? key ≠ some ref) →
    RefersTo db after d' c column id (after.context.get? ⟨target, id⟩) ref

theorem refersTo_of_graph (hKnows : L.Knows d')
    (hMapped : c.MappedTo d' target column) (hGraph : Graph db before after)
    (hNew : ∀ key, before.context.get? key ≠ some ref) :
    RefersTo db after d' c column id (after.context.get? ⟨target, id⟩)
      ref := by
  intro own hGet hAgree
  obtain ⟨kind, hRelation⟩ := hMapped
  rcases hGraph.added _ _ hGet with hOld | ⟨_, d₁, row, hD, hRow, hDepicts⟩
  · exact absurd hOld (hNew _)
  · have hSame : d₁ = d' := Except.ok.inj (hD.symm.trans hKnows)
    subst hSame
    obtain ⟨v, related, hV, hField, hJoined⟩ := hDepicts.toOne kind
      c.mappedBy target column (List.mem_of_find?_eq_some hRelation)
    have hOwner := hV.symm.trans (hAgree row hRow hDepicts.identifier)
    rw [Option.some.inj hOwner] at hJoined
    rw [hField, hJoined.eq_get? hGraph]

theorem reciprocal_of_graph (hKnows : L.Knows d')
    (hMapped : c.MappedTo d' target column) (hGraph : Graph db before after)
    (hOwner : after.context.get? ⟨d.typeName, id⟩ = some o)
    {members : List Ref}
    (hMembers : List.Forall₂ (after.context.EntityOf d')
      ((db.content d'.table).filter (·.has column id.toValue)) members) :
    Reciprocal db before after d d' c target column id o members := by
  refine ⟨hMembers, ?_, ?_⟩
  · rintro rfl ref - hNew
    rw [← hOwner]
    exact refersTo_of_graph hKnows hMapped hGraph hNew
  · intro ref _ hNew
    exact refersTo_of_graph hKnows hMapped hGraph hNew

/-! ## Fields that a collection cannot be mapped by -/

/-- A collection is refused that is not mapped by a relation to a single
entity. -/
theorem collection_run_of_not_mappedTo
    (hTarget : L.descriptor c.target = .ok d')
    (hNot : ∀ target column, ¬ c.MappedTo d' target column)
    (mapper : RowMapper σ) (owner : Value) (work : Work σ) :
    (L.collection mapper c owner).run work =
      (.error (.schema (.mappedByUnknown c.mappedBy d'.typeName)), work) := by
  rw [collection, Step.bind_run, Step.lift_run, hTarget]
  simp only
  rw [Step.bind_run, Step.lift_run,
    CollectionField.mappedByColumn_of_not_mappedTo hNot]

/-- No entity that has such a collection is ever loaded. -/
theorem get?_of_not_mappedTo (hKnows : L.Knows d)
    (hMember : .toMany c ∈ d.relations)
    (hTarget : L.descriptor c.target = .ok d')
    (hNot : ∀ target column, ¬ c.MappedTo d' target column)
    (hGraph : Graph db before after)
    (hGet : after.context.get? ⟨d.typeName, id⟩ = some ref) :
    before.context.get? ⟨d.typeName, id⟩ = some ref := by
  have hNone := CollectionField.mappedByColumn_of_not_mappedTo hNot
  have hNo : ∀ {d₁ column}, L.descriptor c.target = .ok d₁ →
      d₁.mappedByColumn c.mappedBy = .ok column → False := by
    intro d₁ column hD hColumn
    cases hTarget.symm.trans hD
    cases hNone.symm.trans hColumn
  rcases hGraph.added _ _ hGet with hOld | ⟨_, d₁, row, hD, _, hDepicts⟩
  · exact hOld
  · have hSame : d₁ = d := Except.ok.inj (hD.symm.trans hKnows)
    subst hSame
    cases hFetch : c.fetch with
    | eager =>
        obtain ⟨_, _, _, hD', hColumn, _⟩ := hDepicts.eager c hMember hFetch
        exact (hNo hD' hColumn).elim
    | «lazy» =>
        obtain ⟨_, _, hD', hColumn, _⟩ := hDepicts.unread c hMember hFetch
        exact (hNo hD' hColumn).elim

/-! ## Owners and members -/

/-- What an owner that is new has as its collection: the members if they are
read with it, and else the means to read them by the same column. -/
theorem collection_of_graph (hKnows : L.Knows d)
    (hMember : .toMany c ∈ d.relations)
    (hTarget : L.descriptor c.target = .ok d')
    (hMapped : c.MappedTo d' target column) (hGraph : Graph db before after)
    (hFree : before.context.get? ⟨d.typeName, id⟩ = none)
    (hOwner : after.context.get? ⟨d.typeName, id⟩ = some o) :
    (c.fetch = .eager → ∃ members,
      (after.env.heap.get o).fields.lookup c.field =
          some (.toMany (.resolved members)) ∧
        Reciprocal db before after d d' c target column id o members) ∧
    (c.fetch = .lazy →
      (after.env.heap.get o).fields.lookup c.field = some (.toMany
        (.unresolved ⟨L.session, c.target, column, id.toValue⟩))) := by
  -- There is one descriptor of the members and one column for them.
  have hOne : ∀ {d₁ column₁}, L.descriptor c.target = .ok d₁ →
      d₁.mappedByColumn c.mappedBy = .ok column₁ →
        d₁ = d' ∧ column₁ = column := by
    intro d₁ column₁ hD hColumn
    cases hTarget.symm.trans hD
    cases hMapped.mappedByColumn.symm.trans hColumn
    exact ⟨rfl, rfl⟩
  rcases hGraph.added _ _ hOwner with hOld | ⟨_, d₁, row, hD, _, hDepicts⟩
  · cases hFree.symm.trans hOld
  · have hSame : d₁ = d := Except.ok.inj (hD.symm.trans hKnows)
    subst hSame
    refine ⟨fun hEager => ?_, fun hLazy => ?_⟩
    · obtain ⟨_, _, members, hD', hColumn, hField, hMembers⟩ :=
        hDepicts.eager c hMember hEager
      obtain ⟨rfl, rfl⟩ := hOne hD' hColumn
      exact ⟨members, hField, reciprocal_of_graph (knows_of_descriptor hTarget)
        hMapped hGraph hOwner hMembers⟩
    · obtain ⟨_, _, hD', hColumn, hField⟩ := hDepicts.unread c hMember hLazy
      obtain ⟨rfl, rfl⟩ := hOne hD' hColumn
      exact hField

/-- The members of a collection that is read when its owner is looked after. -/
theorem reciprocal_of_loadMembers (hFields : L.persister.schema.FieldsDiffer)
    (hTarget : L.descriptor c.target = .ok d')
    (hMapped : c.MappedTo d' target column)
    (hHolds : db.Holds work.env.driver) {members : List Ref}
    (hRun : (L.loadMembers ⟨L.session, c.target, column, id.toValue⟩).run work =
      (.ok members, after))
    (hOwner : work.context.get? ⟨d.typeName, id⟩ = some o) :
    Reciprocal db work after d d' c target column id o members := by
  have hKnows : L.Knows d' := knows_of_descriptor hTarget
  have hYields := (loadMembers_yields L
    ⟨L.session, c.target, column, id.toValue⟩ work).2 members
  rw [hRun] at hYields
  obtain ⟨hExtends, d₁, rows, hD, hRows, hMembers⟩ := hYields rfl
  cases hTarget.symm.trans hD
  rw [db.rows_by hHolds hRows] at hMembers
  exact reciprocal_of_graph hKnows hMapped
    (graph_of_extends hFields hHolds hExtends)
    (hExtends.context _ _ hOwner)
    (entitiesOf_of_mapped hFields.identifierAlone hKnows hMembers)

/-- A collection that is mapped by a field to entities of some type is read by
that field's column, with its owner or later, and those of its members that are
new have in that field what is looked after as an entity of that type with the
owner's identifier, which is the owner if its type is that type. A collection
that is mapped by anything else is refused, and no entity that has one is
loaded. -/
theorem members_refer_back (hFields : L.persister.schema.FieldsDiffer)
    (hKnows : L.Knows d) (hMember : .toMany c ∈ d.relations)
    (hTarget : L.descriptor c.target = .ok d') :
    (∀ target column, c.MappedTo d' target column →
      ∀ work : Work σ, db.Holds work.env.driver →
        (∀ (task : Task) r after id o, task.Known L →
          (L.run fun mapper => task.load L mapper).run work =
            (.ok r, after) →
          work.context.get? ⟨d.typeName, id⟩ = none →
          after.context.get? ⟨d.typeName, id⟩ = some o →
            (c.fetch = .eager → ∃ members,
              (after.env.heap.get o).fields.lookup c.field =
                  some (.toMany (.resolved members)) ∧
                Reciprocal db work after d d' c target column id o members) ∧
            (c.fetch = .lazy →
              (after.env.heap.get o).fields.lookup c.field =
                some (.toMany (.unresolved
                  ⟨L.session, c.target, column, id.toValue⟩)))) ∧
        ∀ id o members after,
          (L.loadMembers ⟨L.session, c.target, column, id.toValue⟩).run work =
            (.ok members, after) →
          work.context.get? ⟨d.typeName, id⟩ = some o →
            Reciprocal db work after d d' c target column id o members) ∧
    ((∀ target column, ¬ c.MappedTo d' target column) →
      (∀ (mapper : RowMapper σ) owner work,
        (L.collection mapper c owner).run work =
          (.error (.schema (.mappedByUnknown c.mappedBy d'.typeName)),
            work)) ∧
      ∀ (task : Task) (work : Work σ) r after id o, task.Known L →
        db.Holds work.env.driver →
        (L.run fun mapper => task.load L mapper).run work = (.ok r, after) →
        after.context.get? ⟨d.typeName, id⟩ = some o →
          work.context.get? ⟨d.typeName, id⟩ = some o) := by
  refine ⟨?_, ?_⟩
  · intro target column hMapped work hHolds
    refine ⟨?_, ?_⟩
    · intro task r after id o hKnown hRun hFree hOwner
      exact collection_of_graph hKnows hMember hTarget hMapped
        (Task.graph hFields hHolds hKnown hRun) hFree hOwner
    · intro id o members after hRun hOwner
      exact reciprocal_of_loadMembers hFields hTarget hMapped hHolds hRun hOwner
  · intro hNot
    refine ⟨collection_run_of_not_mappedTo hTarget hNot, ?_⟩
    intro task work r after id o hKnown hHolds hRun hOwner
    exact get?_of_not_mappedTo hKnows hMember hTarget hNot
      (Task.graph hFields hHolds hKnown hRun) hOwner

end Loader

/-- The first node of the circle has the second one as its only child, which
has the first one as its parent. -/
theorem Loader.members_refer_back_of_nodes :
    Schema.FieldsDiffer (Nodes.schema .eager) ∧
      Nodes.loader.Knows Nodes.described ∧
      Relation.toMany (Nodes.children .eager) ∈ Nodes.described.relations ∧
      ∃ after, (Nodes.loader.run fun mapper =>
          Task.load Nodes.loader mapper (.all Nodes.described)).run
            Nodes.blank = (.ok [0, 1, 2], after) ∧
        Reciprocal (L := Nodes.loader) Nodes.still Nodes.blank after
          Nodes.described Nodes.described (Nodes.children .eager) "Node"
          "parent_id" (.int 1) 0 [1] ∧
        (after.env.heap.get 1).fields.lookup "parent" =
          some (.toOne (some 0)) := by
  have hKnows : Nodes.loader.Knows Nodes.described := rfl
  have hMember : Relation.toMany (Nodes.children .eager) ∈
      Nodes.described.relations := by decide
  obtain ⟨hTasks, _⟩ := (members_refer_back Nodes.fieldsDiffer_schema hKnows
    hMember hKnows).1 "Node" "parent_id" ⟨.manyToOne, rfl⟩ Nodes.blank
      Nodes.holds_blank
  obtain ⟨hEager, _⟩ := hTasks (.all Nodes.described) [0, 1, 2] _ (.int 1) 0
    hKnows rfl rfl rfl
  obtain ⟨members, hField, hMembers⟩ := hEager rfl
  cases hField
  refine ⟨Nodes.fieldsDiffer_schema, hKnows, hMember, _, rfl, hMembers, ?_⟩
  refine hMembers.back rfl 1 (List.mem_singleton_self 1) nofun (.int 2) rfl ?_
  intro row hRow hId
  rcases List.mem_cons.1 hRow with rfl | hRow
  · cases hId
  · rcases List.mem_cons.1 hRow with rfl | hRow
    · rfl
    · cases List.mem_singleton.1 hRow
      cases hId

end UnitOfWork

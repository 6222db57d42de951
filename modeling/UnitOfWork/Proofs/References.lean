import UnitOfWork.Proofs.Graphs
import UnitOfWork.Proofs.Records
import UnitOfWork.Proofs.Updates

/-!
# What becomes of references

The value of a join column is not kept. A load turns it into an entity, or into
none, and an update writes the identifier that this entity has by then. So an
entity whose own fields are edited is written with the references that it was
loaded with, as long as each of them led to an entity: the entities that a
session looks after keep their identifiers, and a flush gives new ones only to
those that it does not look after yet. A reference that led to no entity is
written as NULL, as if the row had none.

## Main results

* `Heap.KeepsReferences`: what edits of other fields leave alone;
* `Session.depicts_of_tracks`: what a request loads shows its row;
* `Session.Since.flush`: a flush changes no instance that is looked after;
* `Action.given?_of_call?`: what an update writes into a column;
* `Session.updates_keep_references`: what becomes of the references of a row.
-/

namespace UnitOfWork

variable {σ : Type} {schema : Schema} {heap before mid after : Heap}
  {key : Key} {ref : Ref}

/-! ## Edits that concern no reference -/

/-- Meanwhile instances have got other contents only in fields that neither
identify them nor refer to a single entity. -/
structure Heap.KeepsReferences (schema : Schema) (before after : Heap) : Prop
    extends before.KeepsTypes after where
  fields : ∀ ref < before.next, ∀ d,
    schema.descriptor (before.get ref).type = .ok d → ∀ c ∈ d.columns,
      c.isIdentifier = true ∨ c.isJoin = true →
        (after.get ref).fields.lookup c.field =
          (before.get ref).fields.lookup c.field

namespace Heap.KeepsReferences

/-- Instances that are not changed keep everything. -/
theorem of_kept (hNext : before.next ≤ after.next)
    (hKept : ∀ ref < before.next, after.get ref = before.get ref) :
    before.KeepsReferences schema after where
  next := hNext
  type := fun ref hLt => by rw [hKept ref hLt]
  fields := fun ref hLt _ _ _ _ _ => by rw [hKept ref hLt]

theorem refl (schema : Schema) (heap : Heap) :
    heap.KeepsReferences schema heap :=
  of_kept (Nat.le_refl _) fun _ _ => rfl

theorem trans (h : before.KeepsReferences schema mid)
    (hNext : mid.KeepsReferences schema after) :
    before.KeepsReferences schema after where
  next := Nat.le_trans h.next hNext.next
  type := fun ref hLt =>
    (hNext.type ref (Nat.lt_of_lt_of_le hLt h.next)).trans (h.type ref hLt)
  fields := by
    intro ref hLt d hD c hC hKind
    have hMid : schema.descriptor (mid.get ref).type = .ok d := by
      rw [h.type ref hLt]
      exact hD
    exact (hNext.fields ref (Nat.lt_of_lt_of_le hLt h.next) d hMid c hC
      hKind).trans (h.fields ref hLt d hD c hC hKind)

/-- An instance keeps its key. -/
theorem bears (h : before.KeepsReferences schema after)
    (hLt : ref < before.next) (hBears : before.Bears schema ref key) :
    after.Bears schema ref key := by
  obtain ⟨hType, d, hD, hId⟩ := hBears
  refine ⟨(h.type ref hLt).trans hType, d, hD, ?_⟩
  have hField := h.fields ref hLt d (hType ▸ hD) d.identifier
    (Schema.identifier_mem_columns hD)
    (Or.inl (Schema.isIdentifier_identifier hD))
  rw [Descriptor.entityId, Descriptor.idValue, Instance.scalar] at hId ⊢
  rw [hField]
  exact hId

/-- So does an edit of a field of another kind. -/
theorem set {field : String} (slot : Slot)
    (hOther : ∀ d, schema.descriptor (heap.get ref).type = .ok d →
      ∀ c ∈ d.columns, c.isIdentifier = true ∨ c.isJoin = true →
        c.field ≠ field) :
    heap.KeepsReferences schema
      (heap.modify ref fun e => e.set field slot) where
  next := Nat.le_of_eq (Heap.next_modify ..).symm
  type := fun other _ => Heap.type_modify_set heap ref other field slot
  fields := by
    intro other hLt d hD c hC hKind
    by_cases hSame : other = ref
    · subst hSame
      rw [Heap.get_modify_self hLt]
      exact Assoc.lookup_insert_ne (hOther d hD c hC hKind) ..
    · rw [Heap.get_modify_ne _ hSame]

end Heap.KeepsReferences

namespace Session

/-- What happens outside of a session while the application edits fields that
neither identify an entity nor refer to a single one. The database may
change. -/
def EditsOthers (p : Persister) (scope : Scope σ) (backend : Backend σ) :
    Prop :=
  scope.heap.KeepsReferences p.schema backend.env.heap

/-- What may be asked of a session before its next flush, other than to forget
everything. -/
def Unflushed (scope : Scope σ) (op : Operation) : Prop :=
  Proper scope op ∧ op.flushes = false ∧ op.forgets = false

variable [Driver σ] {p : Persister} {start scope edited : Scope σ}

/-! ## From a load to the next flush -/

/-- What is true of a session since a moment from which on it has not flushed
or forgotten anything. -/
structure Since (p : Persister) (start scope : Scope σ) : Prop where
  tidy : Tidy p scope
  within : start.session.context.Within scope.session.context
  kept : start.heap.KeepsReferences p.schema scope.heap

namespace Since

omit [Driver σ] in
theorem refl (hTidy : Tidy p start) : Since p start start :=
  ⟨hTidy, .refl _, .refl ..⟩

omit [Driver σ] in
/-- What is done with neither the context nor the instances. -/
theorem of_eq (h : Since p start scope) {after : Scope σ}
    (hTidy : Tidy p after)
    (hContext : after.session.context = scope.session.context)
    (hHeap : after.heap = scope.heap) : Since p start after := by
  refine ⟨hTidy, ?_, ?_⟩
  · rw [hContext]
    exact h.within
  · rw [hHeap]
    exact h.kept

theorem perform (hAlone : p.schema.IdentifierAlone) (h : Since p start scope)
    {op : Operation} (hAllowed : Unflushed scope op) :
    Since p start (op.perform p scope) := by
  obtain ⟨hProper, hFlushes, hForgets⟩ := hAllowed
  have hTidy := h.tidy.perform hAlone hProper
  cases op with
  | persist ref =>
      exact persist_keeps (I := fun s => Tidy p s → Since p start s) (fun _ => h)
        (fun hQueued => h.of_eq hQueued rfl rfl) hTidy
  | remove ref =>
      exact remove_keeps (I := fun s => Tidy p s → Since p start s) (fun _ => h)
        (fun hQueued => h.of_eq hQueued rfl rfl) hTidy
  | loadMembers source =>
      have hIntact := intact_of_loadMembers (p := p) source scope
      exact ⟨hTidy, h.within.trans hIntact.resident,
        h.kept.trans (.of_kept hIntact.next hIntact.kept)⟩
  | begin =>
      refine h.of_eq hTidy ?_ ?_
      all_goals
        rw [Operation.perform, begin_run]
        split <;> rfl
  | flush | commit | find _ _ | findAll _ | close => cases hFlushes
  | rollback | clear => cases hForgets

omit [Driver σ] in
/-- Edits of other fields change no key. -/
theorem outside (h : Since p start scope) {backend : Backend σ}
    (hEdits : EditsOthers p scope backend) :
    Since p start { scope with backend := backend } := by
  refine ⟨h.tidy.outside ⟨hEdits.next, ?_⟩, h.within, h.kept.trans hEdits⟩
  intro key ref hGet hBears
  exact hEdits.bears (h.tidy.coherent.present key ref hGet) hBears

theorem of_reaches (hAlone : p.schema.IdentifierAlone) (hTidy : Tidy p start)
    (hReaches : Reaches p Unflushed (EditsOthers p) start scope) :
    Since p start scope :=
  hReaches.invariant (fun _ _ h hAllowed => h.perform hAlone hAllowed)
    (fun _ _ h hEdits => h.outside hEdits) (refl hTidy)

/-- A flush changes no instance that is looked after, whatever comes of it. -/
theorem flush (h : Since p start scope) {r : Except Error Unit}
    {after : Scope σ} (hFlushed : Flushed p scope r after)
    (hGet : start.session.context.get? key = some ref) :
    after.heap.get ref = scope.heap.get ref := by
  refine ((keyed_of_flushed hFlushed).get ref).resolve_right fun hChanged => ?_
  exact (h.tidy.inserts ref hChanged.1.waits).2 key (h.within key ref hGet)

end Since

end Session

/-! ## What a request loads -/

namespace Operation

/-- Whether a request looks after what it loads. -/
def tracks : Operation → Bool
  | find .. | loadMembers _ => true
  | _ => false

/-- The scope in which a request starts to load. -/
def ready [Driver σ] (p : Persister) (op : Operation) (scope : Scope σ) :
    Scope σ :=
  if op.flushes then ((Session.flush p).run scope).2 else scope

end Operation

namespace Session

variable [Driver σ] {p : Persister} {scope : Scope σ} {conn : ConnId}
  {pool : Pool} {db : Standing σ conn}

/-- A load that a session runs on its context leaves a graph, unless it fails
and leaves the context as it was. -/
theorem graph_of_withLoader {α : Type} {load : Loader → Step (Work σ) α}
    (hFields : p.schema.FieldsDiffer) (hLoad : Loader.Building load)
    (hConn : scope.Obtains conn pool) (hHolds : db.Holds scope.env.driver) :
    ((withLoader p true load).run scope).2.session.context =
        scope.session.context ∨
      Loader.Graph (L := ⟨p, conn, some scope.session.id⟩) db
        ⟨scope.env, scope.session.context⟩
        ⟨((withLoader p true load).run scope).2.env,
          ((withLoader p true load).run scope).2.session.context⟩ := by
  have hLoaded := loaded p true load scope (I := fun _ => True)
    (Q := fun _ work => Loader.Graph (L := ⟨p, conn, some scope.session.id⟩) db
      ⟨scope.env, scope.session.context⟩ work) fun conn' pool' hOther => by
    cases hConn.unique hOther
    refine (hLoad ⟨p, conn, some scope.session.id⟩ _).leads
      (fun _ _ => trivial) fun _ _ hExtends => ⟨hExtends.context, ?_⟩
    exact Loader.graph_of_extends hFields hHolds hExtends
  generalize (withLoader p true load).run scope = result at hLoaded ⊢
  obtain ⟨r, after⟩ := result
  cases hLoaded with
  | unconnected _ _ => exact Or.inl rfl
  | failed _ _ => exact Or.inl rfl
  | done _ _ _ hGraph => exact Or.inr hGraph

/-- So does a request that looks after what it loads. -/
theorem graph_of_tracks {op : Operation} (hFields : p.schema.FieldsDiffer)
    (hTracks : op.tracks = true) (hConn : (op.ready p scope).Obtains conn pool)
    (hHolds : db.Holds (op.ready p scope).env.driver) :
    (op.perform p scope).session.context =
        (op.ready p scope).session.context ∨
      Loader.Graph
        (L := ⟨p, conn, some (op.ready p scope).session.id⟩) db
        ⟨(op.ready p scope).env, (op.ready p scope).session.context⟩
        ⟨(op.perform p scope).env,
          (op.perform p scope).session.context⟩ := by
  cases op with
  | find type id =>
      simp only [Operation.ready, Operation.flushes, if_true,
        Operation.perform, find_run] at hConn hHolds ⊢
      generalize (Session.flush p).run scope = result at hConn hHolds ⊢
      obtain ⟨e | _, flushed⟩ := result
      · exact Or.inl rfl
      · simp only at hConn hHolds ⊢
        cases hGet : flushed.session.context.get? ⟨type, id⟩ with
        | some ref => exact Or.inl rfl
        | none =>
            exact graph_of_withLoader hFields
              (Loader.building_loadById type id) hConn hHolds
  | loadMembers source =>
      simp only [Operation.ready, Operation.flushes, Bool.false_eq_true,
        if_false, Operation.perform, loadMembers_run] at hConn hHolds ⊢
      cases p.schema.descriptor source.target with
      | error e => exact Or.inl rfl
      | ok d =>
          exact graph_of_withLoader hFields
            (Loader.building_loadMembers source) hConn hHolds
  | _ => cases hTracks

/-- The instances in the context of a request that starts to load existed
before. -/
theorem lt_of_ready {op : Operation} (hTidy : Tidy p scope)
    (hGet : (op.ready p scope).session.context.get? key = some ref) :
    ref < scope.heap.next := by
  unfold Operation.ready at hGet
  split at hGet
  · have hFlushed := flushed p scope
    rw [← (keyed_of_flushed hFlushed).next]
    exact (hTidy.flush hFlushed).coherent.present key ref hGet
  · exact hTidy.coherent.present key ref hGet

/-- An entity that a request has loaded and looks after shows its row, and what
it refers to is looked after. -/
theorem depicts_of_tracks {op : Operation} (hFields : p.schema.FieldsDiffer)
    (hTidy : Tidy p scope) (hTracks : op.tracks = true)
    (hConn : (op.ready p scope).Obtains conn pool)
    (hHolds : db.Holds (op.ready p scope).env.driver)
    (hNew : scope.heap.next ≤ ref)
    (hGet : (op.perform p scope).session.context.get? key = some ref) :
    ∃ d row, p.schema.descriptor key.type = .ok d ∧
      row ∈ db.content d.table ∧
        Loader.Depicts (L := ⟨p, conn, some (op.ready p scope).session.id⟩) db
          (op.ready p scope).session.context
          (op.perform p scope).session.context d row key.id
          ((op.perform p scope).heap.get ref) := by
  have hNot : (op.ready p scope).session.context.get? key ≠ some ref :=
    fun hOld => Nat.not_lt_of_le hNew (lt_of_ready hTidy hOld)
  rcases graph_of_tracks hFields hTracks hConn hHolds with hSame | hGraph
  · rw [hSame] at hGet
    exact absurd hGet hNot
  · rcases hGraph.added key ref hGet with
      hOld | ⟨_, d, row, hD, hRow, hDepicts⟩
    · exact absurd hOld hNot
    · exact ⟨d, row, hD, hRow, hDepicts⟩

end Session

/-! ## What an update writes -/

/-- The value that an UPDATE gives to a column. -/
def Call.given? (c : Call) (column : String) : Option Value :=
  match c with
  | .execute (.updateBy _ columns _) params =>
    (columns.zip params).lookup column
  | _ => none

/-- Among the columns that values are bound to, each one that is written has the
value that the entity has for it; what is left over does not matter. -/
theorem Heap.exists_bound {d : Descriptor} {type : String} {e : Instance}
    {keep : Column → Bool} {values : List Value} {column : Column}
    (hD : schema.descriptor type = .ok d)
    (hValues : heap.valuesOf schema e (d.columns.filter keep) = .ok values)
    (hColumn : column ∈ d.columns.filter keep) (more : List Value) :
    ∃ v, heap.valueOf schema e column = .ok v ∧
      (((d.columns.filter keep).map Column.name).zip (values ++ more)).lookup
        column.name = some v := by
  obtain ⟨v, hV, hMem⟩ := Heap.exists_valueOf hValues hColumn
  refine ⟨v, hV, ?_⟩
  have hLength : ((d.columns.filter keep).map Column.name).length =
      values.length := by
    rw [List.length_map, Heap.length_valuesOf schema heap hValues]
  have hNames : NamesDiffer ((d.columns.filter keep).map Column.name) :=
    Schema.namesDiffer_filter hD _
  have hKeys : (Assoc.keys
      (((d.columns.filter keep).map Column.name).zip values)).Nodup := by
    rw [Assoc.keys, List.map_fst_zip (Nat.le_of_eq hLength)]
    exact hNames.nodup
  have hZip : ((d.columns.filter keep).map Column.name).zip (values ++ more) =
      ((d.columns.filter keep).map Column.name).zip values := by
    calc ((d.columns.filter keep).map Column.name).zip (values ++ more)
        = ((d.columns.filter keep).map Column.name ++ []).zip
            (values ++ more) := by rw [List.append_nil]
      _ = ((d.columns.filter keep).map Column.name).zip values ++
            [].zip more := List.zip_append hLength
      _ = ((d.columns.filter keep).map Column.name).zip values :=
            List.append_nil _
  rw [hZip]
  exact Assoc.lookup_of_mem hKeys hMem

/-- An update gives each of its columns the value that the instance has for
it. -/
theorem Action.given?_of_call? {c : Call} {d : Descriptor} {column : Column}
    (h : call? schema heap ⟨.update, ref⟩ = .ok (some c))
    (hD : schema.descriptor (heap.get ref).type = .ok d)
    (hColumn : column ∈ d.updatedColumns) :
    ∃ v, heap.valueOf schema (heap.get ref) column = .ok v ∧
      c.given? column.name = some v := by
  obtain ⟨d', values, hD', hValues, rfl⟩ := update_of_call? h
  cases hD'.symm.trans hD
  -- The identifier is left over.
  exact Heap.exists_bound hD hValues hColumn [d.idValue (heap.get ref)]

/-- The identifier that is written for a related entity is that of its key. -/
theorem Heap.eq_of_relatedId {field : String} {v : Value}
    (hBears : heap.Bears schema ref key)
    (h : heap.relatedId schema field key.type (some ref) = .ok v) :
    v = key.id.toValue := by
  obtain ⟨_, d, hD, hId⟩ := hBears
  obtain ⟨d', hD', hRest⟩ := except_bind_eq_ok.1 h
  cases hD.symm.trans hD'
  simp only at hRest
  split at hRest
  · split at hRest
    · cases hRest
    · rw [EntityId.toValue_of_ofValue hId]
      exact (Except.ok.inj hRest).symm
  · cases hRest

/-! ## References that led to nothing -/

/-- A value identifies an entity that is not to be had: none is looked after,
and no row of its table has the identifier. -/
def Lost {conn : ConnId} [Driver σ] (p : Persister) (db : Standing σ conn)
    (ctx : Context) (target : String) (v : Value) : Prop :=
  ∃ id : EntityId, v = id.toValue ∧
    Loader.Missing (L := ⟨p, conn, none⟩) db ctx target id

namespace Session

variable [Driver σ] {p : Persister} {loaded edited after : Scope σ}
  {conn : ConnId} {db : Standing σ conn} {d : Descriptor}

/-- What the next flush writes for a relation of an entity that shows a row: the
value of the row if it led to an entity or is NULL, and else NULL. -/
theorem Since.given?_of_flushed {ctx : Context} {row : Row} {id : Option Nat}
    {r : Except Error Unit} {c : Call} {kind : ToOne}
    {field target joinColumn : String} (hTidy : Tidy p loaded)
    (h : Since p loaded edited) (hFlushed : Flushed p edited r after)
    (hGet : loaded.session.context.get? key = some ref)
    (hD : p.schema.descriptor key.type = .ok d)
    (hDepicts : Loader.Depicts (L := ⟨p, conn, id⟩) db ctx
      loaded.session.context d row key.id (loaded.heap.get ref))
    (hCall : Action.call? p.schema after.heap ⟨.update, ref⟩ = .ok (some c))
    (hRelation : .toOne kind field target joinColumn ∈ d.relations) :
    ∃ v, row.get? joinColumn = some v ∧
      (Lost p db ctx target v → c.given? joinColumn = some .null) ∧
      (¬ Lost p db ctx target v → c.given? joinColumn = some v) := by
  obtain ⟨v, related, hV, hField, hJoined⟩ :=
    hDepicts.toOne kind field target joinColumn hRelation
  have hLt := hTidy.coherent.present key ref hGet
  have hType : (loaded.heap.get ref).type = key.type :=
    (hTidy.coherent.bears key ref hGet).1
  have hSame : after.heap.get ref = edited.heap.get ref :=
    h.flush hFlushed hGet
  have hColumn := Descriptor.column_of_toOne hRelation
  have hRefers : (after.heap.get ref).toOne field = related := by
    rw [hSame, Instance.toOne, h.kept.fields ref hLt d (hType ▸ hD) _ hColumn
      (Or.inr rfl), hField]
  have hDescriptor : p.schema.descriptor (after.heap.get ref).type = .ok d := by
    rw [hSame, h.kept.type ref hLt, hType]
    exact hD
  obtain ⟨w, hW, hGiven⟩ := Action.given?_of_call? hCall hDescriptor
    (List.mem_filter.2 ⟨hColumn, rfl⟩)
  replace hW : after.heap.relatedId p.schema field target related = .ok w := by
    rw [← hRefers]
    exact hW
  refine ⟨v, hV, fun hLost => ?_, fun hFound => ?_⟩
  · rw [hJoined.none_iff.2 (Or.inr hLost)] at hW
    cases hW
    exact hGiven
  · cases related with
    | none =>
        have hNull := (hJoined.none_iff.1 rfl).resolve_right hFound
        cases hW
        rw [hGiven]
        cases v <;> first | rfl | cases hNull
    | some other =>
        obtain ⟨own, hOwn, hOther⟩ := hJoined.registered other rfl
        have hBears := h.kept.bears
          (hTidy.coherent.present _ other hOther)
          (hTidy.coherent.bears _ other hOther)
        have hValue := Heap.eq_of_relatedId
          (hBears.of_get_eq (h.flush hFlushed hOther)) hW
        rw [hGiven, hValue, hOwn]

/-- Whatever has been asked of a session before: when it loads an entity, its
own fields are edited, and the session is flushed the next time, each UPDATE
that the flush sends is that of a dirty entity, and each one that is that of the
loaded entity gives a join column the value that the row had, unless the value
identified an entity that was not to be had, and then NULL. -/
theorem updates_keep_references (hFields : p.schema.FieldsDiffer)
    {start scope : Scope σ} (hContext : start.session.context = {})
    (hQueue : start.session.queue = {})
    (hReaches : Reaches p Proper (Respects p) start scope) {op : Operation}
    (hTracks : op.tracks = true) {pool : Pool}
    (hConn : (op.ready p scope).Obtains conn pool)
    (hHolds : db.Holds (op.ready p scope).env.driver)
    (hNew : scope.heap.next ≤ ref)
    (hGet : (op.perform p scope).session.context.get? key = some ref)
    (hEdits : Reaches p Unflushed (EditsOthers p) (op.perform p scope) edited)
    {r : Except Error Unit} (hRun : (flush p).run edited = (r, after)) :
    ∃ d row, p.schema.descriptor key.type = .ok d ∧
      row ∈ db.content d.table ∧
      row.get? d.identifier.name = some key.id.toValue ∧
      ∃ sent calls, edited.env.Made sent calls after.env ∧
        (∀ c ∈ calls, c.isUpdate = true → ∃ e, IsDirty p edited e ∧
          Action.call? p.schema after.heap ⟨.update, e.ref⟩ =
            .ok (some c)) ∧
        ∀ c ∈ calls,
          Action.call? p.schema after.heap ⟨.update, ref⟩ = .ok (some c) →
          ∀ kind field target joinColumn,
            .toOne kind field target joinColumn ∈ d.relations →
              ∃ v, row.get? joinColumn = some v ∧
                (Lost p db (op.ready p scope).session.context target v →
                  c.given? joinColumn = some .null) ∧
                (¬ Lost p db (op.ready p scope).session.context target v →
                  c.given? joinColumn = some v) := by
  have hAlone := hFields.identifierAlone
  have hTidy : Tidy p scope :=
    tidy_of_reaches hAlone (tidy_of_empty hContext hQueue) hReaches
  have hProper : Proper scope op := by
    cases op with
    | persist ref => cases hTracks
    | _ => trivial
  have hLoaded : Tidy p (op.perform p scope) := hTidy.perform hAlone hProper
  have hSince : Since p (op.perform p scope) edited :=
    .of_reaches hAlone hLoaded hEdits
  have hRegular : edited.session.Regular :=
    ⟨hSince.tidy.coherent.nodup, hSince.tidy.updates⟩
  have hFlushed := flushed p edited
  rw [hRun] at hFlushed
  obtain ⟨d, row, hD, hRow, hDepicts⟩ :=
    depicts_of_tracks hFields hTidy hTracks hConn hHolds hNew hGet
  obtain ⟨sent, calls, hMade, hUpdates⟩ :=
    updates_of_flushed hRegular hFlushed
  refine ⟨d, row, hD, hRow, hDepicts.identifier, sent, calls, hMade, hUpdates,
    ?_⟩
  intro c _ hCall kind field target joinColumn hRelation
  exact hSince.given?_of_flushed hLoaded hFlushed hGet hD hDepicts hCall
    hRelation

end Session

/-! ## Nodes with and without a parent -/

namespace Nodes

/-- A node whose parent is there, and one whose parent is not. -/
def chain : List (List Value) :=
  [[.int 1, .text "a", .int 2], [.int 2, .text "b", .int 9]]

/-- They stand still. -/
def steady : Standing Store 0 :=
  Store.standing 0 (store chain).tables
    fun table => ⟨"id", regular_store (by decide) table⟩

/-- A session on the one connection to their store. -/
def desk : Scope Store where
  backend :=
    ⟨{ driver := store chain }, { size := 1, idle := [], leased := [0] }⟩
  session := { id := 0, connection := some 0 }

/-- A node has been looked up, as the first instance. -/
def found (id : Int) : Scope Store :=
  (Operation.find "Node" (.int id)).perform (persister .eager) desk

/-- It has a new title. -/
def retitled (id : Int) : Backend Store :=
  { (found id).backend with
    env := (found id).env.update 0 fun e =>
      e.set "title" (.scalar (.text "x")) }

/-- The session with the edited node. -/
def renamed (id : Int) : Scope Store := { found id with backend := retitled id }

/-- A title neither identifies a node nor refers to one. -/
theorem edits_retitled (id : Int) :
    Session.EditsOthers (persister .eager) (found id) (retitled id) := by
  refine Heap.KeepsReferences.set _ fun d hD c hC hKind => ?_
  obtain ⟨_, rfl⟩ := descriptor_schema hD
  have hColumns : c = number ∨ c = title ∨ c = parent := by
    simpa [Descriptor.columns, Member.column?] using hC
  rcases hColumns with rfl | rfl | rfl
  · decide
  · exact absurd hKind (by decide)
  · decide

theorem holds_desk (id : Int) :
    steady.Holds ((Operation.find "Node" (.int id)).ready (persister .eager)
      desk).env.driver := by
  have hPlain : (store chain).Plain .exact :=
    ⟨rfl, rfl, fun _ hMem => by cases hMem⟩
  exact ⟨hPlain, ⟨rfl, rfl⟩, rfl⟩

/-- The first node is looked after together with its parent, and only the node
has another title. -/
theorem ref_of_isDirty {e : Dirty}
    (h : Session.IsDirty (persister .eager) (renamed 1) e) : e.ref = 0 := by
  have hEntities : (renamed 1).session.context.entities =
      [(⟨"Node", .int 1⟩, 0), (⟨"Node", .int 2⟩, 1)] := by decide +kernel
  obtain ⟨hGet, hValues, hStale⟩ := h
  obtain ⟨key, ref, values⟩ := e
  have hMem := Assoc.mem_of_lookup hGet
  rw [hEntities] at hMem
  rcases List.mem_cons.1 hMem with hFirst | hLast
  · cases hFirst
    rfl
  · cases List.mem_singleton.1 hLast
    have hFresh : ((renamed 1).heap.snapshot (schema .eager) 1).toOption.any
        ((renamed 1).session.context.isStale ⟨"Node", .int 2⟩) = false := by
      decide +kernel
    have hSame : (renamed 1).heap.snapshot (schema .eager) 1 = .ok values :=
      hValues
    rw [hSame] at hFresh
    cases hStale.symm.trans hFresh

end Nodes

/-- The second node, whose parent is not there, loses it when its title is
edited. -/
theorem Session.reference_lost_of_nodes :
    (Nodes.found 2).session.context.get? ⟨"Node", .int 2⟩ = some 0 ∧
      EditsOthers (Nodes.persister .eager) (Nodes.found 2)
        (Nodes.retitled 2) ∧
      ((flush (Nodes.persister .eager)).run (Nodes.renamed 2)).1 = .ok () ∧
      ∃ row ∈ Nodes.steady.content "nodes",
        row.get? "id" = some (.int 2) ∧ row.get? "parent_id" = some (.int 9) ∧
        ¬ ∀ sent ∈ ((flush (Nodes.persister .eager)).run
              (Nodes.renamed 2)).2.env.trace.drop
                (Nodes.renamed 2).env.trace.length,
            sent.2.isUpdate = true →
              sent.2.given? "parent_id" = row.get? "parent_id" := by
  have hLost : ((((flush (Nodes.persister .eager)).run
      (Nodes.renamed 2)).2.env.trace.drop
        (Nodes.renamed 2).env.trace.length).any fun sent =>
          sent.2.isUpdate && (sent.2.given? "parent_id").any Value.isNull) =
            true := by decide +kernel
  obtain ⟨sent, hSent, hBoth⟩ := List.any_eq_true.1 hLost
  obtain ⟨hUpdate, hNull⟩ := Bool.and_eq_true_iff.1 hBoth
  refine ⟨by decide +kernel, Nodes.edits_retitled 2,
    except_eq_ok_of_isOk (by decide +kernel), _,
    List.mem_of_getElem? (rfl : (Nodes.steady.content "nodes")[1]? = some _),
    rfl, rfl, fun hAll => ?_⟩
  rw [hAll sent hSent hUpdate] at hNull
  cases hNull

/-- The first node keeps its parent, which is there, when its title is
edited. -/
theorem Session.updates_keep_references_of_nodes :
    Schema.FieldsDiffer (Nodes.schema .eager) ∧
      Reaches (Nodes.persister .eager) Unflushed
        (EditsOthers (Nodes.persister .eager)) (Nodes.found 1)
        (Nodes.renamed 1) ∧
      ∃ sent calls, (Nodes.renamed 1).env.Made sent calls
          ((flush (Nodes.persister .eager)).run (Nodes.renamed 1)).2.env ∧
        (∃ c ∈ calls, c.isUpdate = true) ∧
        ∀ c ∈ calls, c.isUpdate = true →
          c.given? "parent_id" = some (.int 2) := by
  have hEdits : Reaches (Nodes.persister .eager) Unflushed
      (EditsOthers (Nodes.persister .eager)) (Nodes.found 1)
      (Nodes.renamed 1) :=
    Reaches.start.outside _ (Nodes.edits_retitled 1)
  have hGet : (Nodes.found 1).session.context.get? ⟨"Node", .int 1⟩ =
      some 0 := by decide +kernel
  have hRun : (flush (Nodes.persister .eager)).run (Nodes.renamed 1) =
      (.ok (), ((flush (Nodes.persister .eager)).run (Nodes.renamed 1)).2) :=
    run_eq_of_isOk (by decide +kernel)
  obtain ⟨d, row, hD, hRow, hId, sent, calls, hMade, hUpdates, hWritten⟩ :=
    updates_keep_references Nodes.fieldsDiffer_schema rfl rfl
      (.start : Reaches _ _ _ Nodes.desk Nodes.desk)
      (rfl : (Operation.find "Node" (.int 1)).tracks = true) (.held rfl)
      (Nodes.holds_desk 1) (Nat.zero_le 0) hGet hEdits hRun
  refine ⟨Nodes.fieldsDiffer_schema, hEdits, sent, calls, hMade, ?_, ?_⟩
  · have hAny : ((((flush (Nodes.persister .eager)).run
        (Nodes.renamed 1)).2.env.trace.drop
          (Nodes.renamed 1).env.trace.length).any fun made =>
            made.2.isUpdate) = true := by decide +kernel
    rw [hMade.trace, List.drop_left, Call.on, List.any_map] at hAny
    exact List.any_eq_true.1 hAny
  · intro c hC hUpdate
    obtain ⟨e, hDirty, hCall⟩ := hUpdates c hC hUpdate
    rw [Nodes.ref_of_isDirty hDirty] at hCall
    obtain ⟨_, rfl⟩ := Nodes.descriptor_schema hD
    have hFirst : row.get? "parent_id" = some (.int 2) := by
      rcases List.mem_cons.1 hRow with rfl | hRest
      · rfl
      · cases List.mem_singleton.1 hRest
        cases hId
    obtain ⟨v, hV, _, hKept⟩ := hWritten c hC hCall .manyToOne "parent"
      "Node" "parent_id" (by decide)
    rw [hFirst] at hV
    cases hV
    refine hKept ?_
    rintro ⟨id, hOwn, _, hNoRow⟩
    refine hNoRow _ hD _ (List.mem_of_getElem?
      (rfl : (Nodes.steady.content "nodes")[1]? = some _)) ?_
    rw [← hOwn]
    rfl

end UnitOfWork

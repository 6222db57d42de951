import UnitOfWork.Proofs.IdentityMap
import UnitOfWork.Proofs.Records
import UnitOfWork.Proofs.Tabular

/-!
# What the writes of a flush change

An action that is carried out on tables changes what they have under the key of
its entity and nothing else. In the middle of a flush, each entity that is
still to be written is as it was before the flush, so what the writes put into
the tables are its values, and the snapshots that follow the writes are those of
the rows.

## Main results

* `Action.changes_of_run`: what an action changes;
* `Work.Mirroring.executeAll`: after actions that succeed, the snapshots are
  those of the rows;
* `Env.Exposed.executeAll`: after actions that fail outside of a transaction,
  they are unless a row has been updated or deleted.
-/

namespace UnitOfWork

variable {σ : Type} {schema : Schema} {heap : Heap}

/-! ## One action -/

/-- The fields of an instance hold values that its type accepts. -/
def Heap.Accepts (schema : Schema) (heap : Heap) (ref : Ref) : Prop :=
  ∀ d, schema.descriptor (heap.get ref).type = .ok d →
    d.Accepts (heap.get ref)

/-- What an action that is carried out changes under the keys of tables: an
insert puts its entity there and leaves all else, an update replaces what is
under the key of its entity, and a delete takes it away; `key?` is the key that
was generated. -/
inductive Action.Changes (schema : Schema) (heap : Heap) (key? : Option Value)
    (tables after : Tables) : Action → Prop
  | insert {ref : Ref} {d : Descriptor}
      (hD : schema.descriptor (heap.get ref).type = .ok d)
      (hOld : ∀ key v, tables.Has schema key v → after.Has schema key v)
      (hNew : ∀ keyed id, Tables.Keyed d key? (heap.get ref) keyed →
        d.entityId keyed = .ok (some id) →
          after.Has schema ⟨d.typeName, id⟩ (d.snapshot keyed)) :
    Changes schema heap key? tables after ⟨.insert, ref⟩
  | update {ref : Ref} {key : Key} {values : List Value}
      (hBears : heap.Bears schema ref key)
      (hValues : heap.snapshot schema ref = .ok values)
      (hOthers : ∀ other v, other ≠ key →
        (after.Has schema other v ↔ tables.Has schema other v))
      (hOnly : ∀ v, after.Has schema key v → v = values)
      (hStill : ∀ old, tables.Has schema key old →
        after.Has schema key values) :
    Changes schema heap key? tables after ⟨.update, ref⟩
  | delete {ref : Ref} {key : Key} (hBears : heap.Bears schema ref key)
      (hLeft : ∀ other v, after.Has schema other v ↔
        other ≠ key ∧ tables.Has schema other v) :
    Changes schema heap key? tables after ⟨.delete, ref⟩

/-- Only an insert has to do with generated keys. -/
theorem Action.Changes.of_kind {key? other? : Option Value}
    {tables after : Tables} {action : Action}
    (h : action.Changes schema heap key? tables after)
    (hKind : action.kind ≠ .insert) :
    action.Changes schema heap other? tables after := by
  cases h with
  | insert _ _ _ => exact absurd rfl hKind
  | update hBears hValues hOthers hOnly hStill =>
      exact .update hBears hValues hOthers hOnly hStill
  | delete hBears hLeft => exact .delete hBears hLeft

/-- The identifier that a write asks for is that of its entity. -/
theorem Heap.requireId_eq_ok {operation : String} {d : Descriptor}
    {e : Instance} {v : Value} (h : requireId operation d e = .ok v) :
    v = d.idValue e := by
  unfold requireId at h
  split at h
  · cases h
  · exact (Except.ok.inj h).symm

/-- The key of an instance is made of its type and its identifier. -/
theorem Heap.Bears.key_eq {ref : Ref} {key : Key} {d : Descriptor}
    (h : heap.Bears schema ref key)
    (hD : schema.descriptor (heap.get ref).type = .ok d) :
    key = ⟨d.typeName, key.id⟩ ∧
      d.entityId (heap.get ref) = .ok (some key.id) := by
  obtain ⟨hType, d', hD', hId⟩ := h
  rw [hType] at hD
  cases hD.symm.trans hD'
  refine ⟨?_, hId⟩
  rw [Schema.typeName_of_descriptor hD]

/-- The identifier that a write asks for is that of its entity's key. -/
theorem Heap.Bears.requireId_eq {ref : Ref} {key : Key} {d : Descriptor}
    (h : heap.Bears schema ref key)
    (hD : schema.descriptor (heap.get ref).type = .ok d) {operation : String}
    {v : Value} (hV : requireId operation d (heap.get ref) = .ok v) :
    v = key.id.toValue :=
  (requireId_eq_ok hV).trans
    (EntityId.toValue_of_ofValue (h.key_eq hD).2).symm

namespace Action

variable {tables after : Tables} {outcome : Outcome} {ref : Ref}
  {action : Action} {c : Call} {write : Statement × List Value}

theorem changes_insert (hApart : schema.Apart)
    (hPlan : call? schema heap ⟨.insert, ref⟩ = .ok (some c))
    (hAccepts : heap.Accepts schema ref) (hSuit : tables.Suit schema)
    (hWrite : c.write? = some write)
    (hRun : Tables.run .exact write.1 write.2 tables = .ok (outcome, after)) :
    after.Suit schema ∧
      Changes schema heap outcome.key tables after ⟨.insert, ref⟩ := by
  obtain ⟨d, hD, _, plan, hInsertion, hCall⟩ := call?_eq_ok hPlan
  obtain ⟨values, hValues, hDone⟩ := except_bind_eq_ok.1 hInsertion
  cases hDone
  cases hCall
  cases hWrite
  have hOwn := Schema.descriptor_typeName hD
  obtain ⟨hWritten, hOld, hNew⟩ := Tables.has_insert hApart hOwn
    (hAccepts d hD) hValues (hSuit _ d hD) hRun
  exact ⟨hWritten.suit hSuit, .insert hD hOld hNew⟩

theorem changes_update (hApart : schema.Apart)
    (hPlan : call? schema heap ⟨.update, ref⟩ = .ok (some c))
    (hAccepts : heap.Accepts schema ref) (hSuit : tables.Suit schema)
    (hBears : ∃ key, heap.Bears schema ref key)
    (hWrite : c.write? = some write)
    (hRun : Tables.run .exact write.1 write.2 tables = .ok (outcome, after)) :
    after.Suit schema ∧
      Changes schema heap outcome.key tables after ⟨.update, ref⟩ := by
  obtain ⟨d, hD, hReadable, plan?, hUpdating, hCall⟩ := call?_eq_ok hPlan
  obtain ⟨v, hV, hRest⟩ := except_bind_eq_ok.1 hUpdating
  obtain ⟨values, hValues, hDone⟩ := except_bind_eq_ok.1 hRest
  obtain ⟨key, hBears⟩ := hBears
  obtain ⟨hKey, hId⟩ := hBears.key_eq hD
  have hOwn := Schema.descriptor_typeName hD
  have hValue := hBears.requireId_eq hD hV
  split at hDone
  · cases hDone
    cases hCall
  · cases hDone
    cases hCall
    cases hWrite
    rw [hValue] at hRun
    obtain ⟨hWritten, hOthers, hOnly, hStill⟩ := Tables.has_update hApart hOwn
      (hAccepts d hD) hId hValues (hSuit _ d hD) hRun
    rw [← hKey] at hOthers hOnly hStill
    exact ⟨hWritten.suit hSuit, .update hBears
      (Heap.snapshot_eq_ok_iff.2 ⟨d, hD, hReadable, rfl⟩) hOthers hOnly hStill⟩

theorem changes_delete (hApart : schema.Apart)
    (hPlan : call? schema heap ⟨.delete, ref⟩ = .ok (some c))
    (hSuit : tables.Suit schema) (hBears : ∃ key, heap.Bears schema ref key)
    (hWrite : c.write? = some write)
    (hRun : Tables.run .exact write.1 write.2 tables = .ok (outcome, after)) :
    after.Suit schema ∧
      Changes schema heap outcome.key tables after ⟨.delete, ref⟩ := by
  obtain ⟨d, hD, _, plan, hDeletion, hCall⟩ := call?_eq_ok hPlan
  obtain ⟨v, hV, hDone⟩ := except_bind_eq_ok.1 hDeletion
  cases hDone
  cases hCall
  cases hWrite
  obtain ⟨key, hBears⟩ := hBears
  have hKey := (hBears.key_eq hD).1
  have hOwn := Schema.descriptor_typeName hD
  have hValue := hBears.requireId_eq hD hV
  rw [hValue] at hRun
  obtain ⟨hWritten, hLeft⟩ :=
    Tables.has_delete hApart hOwn (hSuit _ d hD) hRun
  rw [← hKey] at hLeft
  exact ⟨hWritten.suit hSuit, .delete hBears hLeft⟩

/-- An action that is carried out changes what it should. -/
theorem changes_of_run (hApart : schema.Apart)
    (hPlan : action.call? schema heap = .ok (some c))
    (hAccepts : heap.Accepts schema action.entity)
    (hBears : action.kind ≠ .insert →
      ∃ key, heap.Bears schema action.entity key)
    (hSuit : tables.Suit schema) (hWrite : c.write? = some write)
    (hRun : Tables.run .exact write.1 write.2 tables = .ok (outcome, after)) :
    after.Suit schema ∧
      action.Changes schema heap outcome.key tables after := by
  obtain ⟨kind, ref⟩ := action
  cases kind with
  | insert => exact changes_insert hApart hPlan hAccepts hSuit hWrite hRun
  | update =>
      exact changes_update hApart hPlan hAccepts hSuit (hBears (by simp))
        hWrite hRun
  | delete =>
      exact changes_delete hApart hPlan hSuit (hBears (by simp)) hWrite hRun

/-- An inserted entity gets the key that was generated, if it asks for one. -/
theorem Received.keyed {p : Persister} {key? : Option Value}
    {env last : Env σ} (h : Received p action key? env (.ok ()) last)
    (hKind : action.kind = .insert) (hLt : action.entity < env.heap.next) :
    ∃ d, p.schema.descriptor (env.heap.get action.entity).type = .ok d ∧
      Tables.Keyed d key? (env.heap.get action.entity)
        (last.heap.get action.entity) := by
  cases h with
  | none hNone =>
      obtain ⟨d, hD, hNot⟩ := hNone hKind
      exact ⟨d, hD, Or.inl ⟨hNot, rfl⟩⟩
  | assigned _ hD hGenerated hKey hKeyed =>
      refine ⟨_, hD, Or.inr ⟨hGenerated, _, hKey, ?_⟩⟩
      simp only [Env.update]
      rw [Heap.get_modify_self hLt]
      exact hKeyed

end Action

/-! ## In the middle of a flush -/

namespace Work

variable [Driver σ] {T : Tabular σ} {p : Persister} {conn : ConnId}
  {saved : Context} {before : Heap} {action : Action} {rest : List Action}
  {work : Work σ}

/-- The work of a flush in the middle of its actions, on tables that suit the
schema: what is still to be written is as it was `before`, updates and deletes
concern entities of the context `saved` that the flush started with, and an
update changes the snapshot of its entity. -/
structure Ready (T : Tabular σ) (p : Persister) (conn : ConnId)
    (saved : Context) (before : Heap) (actions : List Action)
    (work : Work σ) : Prop where
  orderly : work.Orderly p saved before actions
  coherent : saved.Coherent p.schema before
  accepted : ∀ ref, ref < before.next → before.Accepts p.schema ref
  valid : T.Valid work.env.driver
  suit : (T.view conn work.env.driver).content.Suit p.schema
  waiting : ∀ ref, ⟨.insert, ref⟩ ∈ actions →
    work.env.heap.get ref = before.get ref
  known : ∀ action ∈ actions, action.kind ≠ .insert →
    ∃ key, saved.get? key = some action.entity
  stale : ∀ ref key old values, ⟨.update, ref⟩ ∈ actions →
    saved.get? key = some ref → saved.snapshot? key = some old →
      before.snapshot p.schema ref = .ok values → old ≠ values

namespace Ready

/-- The entity of the next action exists and is as it was. -/
theorem get_eq (h : Ready T p conn saved before (action :: rest) work) :
    action.entity < before.next ∧
      work.env.heap.get action.entity = before.get action.entity := by
  by_cases hKind : action.kind = .insert
  · obtain ⟨kind, entity⟩ := action
    cases hKind
    exact ⟨(h.orderly.inserts entity (List.mem_cons_self ..)).1,
      h.waiting entity (List.mem_cons_self ..)⟩
  · obtain ⟨key, hGet⟩ := h.known action (List.mem_cons_self ..) hKind
    exact ⟨h.coherent.present key _ hGet, h.orderly.same key _ hGet⟩

/-- It has the key that it is known by. -/
theorem bears (h : Ready T p conn saved before (action :: rest) work)
    {key : Key} (hGet : saved.get? key = some action.entity) :
    work.env.heap.Bears p.schema action.entity key :=
  (h.coherent.bears key _ hGet).of_get_eq h.get_eq.2

/-- An action that is carried out changes what it should, and opens no
transaction. -/
theorem changes (h : Ready T p conn saved before (action :: rest) work)
    (hApart : p.schema.Apart) {c : Call} {answer : c.Answer}
    (hPlan : action.call? p.schema work.env.heap = .ok (some c))
    (hCall : (Driver.call conn c work.env.driver).1 = .ok answer) :
    ((T.view conn (Driver.call conn c work.env.driver).2).content.Suit
      p.schema ∧
      action.Changes p.schema work.env.heap (c.receipt answer).2
        (T.view conn work.env.driver).content
        (T.view conn (Driver.call conn c work.env.driver).2).content) ∧
    (T.Clean conn work.env.driver →
      T.Clean conn (Driver.call conn c work.env.driver).2) := by
  obtain ⟨write, hWrite, hQuery⟩ := Action.write_of_call? hPlan
  obtain ⟨⟨outcome, hRun⟩, hClean⟩ :=
    Tabular.content_of_write h.valid hWrite hQuery hCall
  refine ⟨?_, hClean⟩
  have hAccepts : work.env.heap.Accepts p.schema action.entity := by
    obtain ⟨hLt, hSame⟩ := h.get_eq
    rw [Heap.Accepts, hSame]
    exact h.accepted _ hLt
  have hBears : action.kind ≠ .insert →
      ∃ key, work.env.heap.Bears p.schema action.entity key := by
    intro hKind
    obtain ⟨key, hGet⟩ := h.known action (List.mem_cons_self ..) hKind
    exact ⟨key, h.bears hGet⟩
  obtain ⟨hSuit, hChanges⟩ := Action.changes_of_run hApart hPlan hAccepts
    hBears h.suit hWrite hRun
  refine ⟨hSuit, ?_⟩
  by_cases hKind : action.kind = .insert
  · obtain ⟨kind, ref⟩ := action
    cases hKind
    obtain ⟨d, params, _, rfl⟩ := Action.call_of_call? hPlan
    cases hWrite
    have hKey : (Call.receipt _ answer).2 = outcome.key :=
      T.tells conn _ answer h.valid hCall rfl outcome _ hRun
    rw [← hKey] at hChanges
    exact hChanges
  · exact hChanges.of_kind hKind

/-- What is left to do after an action that has been carried out. -/
theorem follow (h : Ready T p conn saved before (action :: rest) work)
    {env : Env σ} {ctx : Context}
    (hSpares : action.Spares work.env.heap env.heap)
    (hFollow : action.follow p env.heap work.context = .ok ctx)
    (hValid : T.Valid env.driver)
    (hSuit : (T.view conn env.driver).content.Suit p.schema) :
    Ready T p conn saved before rest ⟨env, ctx⟩ where
  orderly := h.orderly.follow hSpares hFollow
  coherent := h.coherent
  accepted := h.accepted
  valid := hValid
  suit := hSuit
  waiting := by
    intro ref hMem
    have hWaits := h.waiting ref (List.mem_cons_of_mem _ hMem)
    by_cases hKind : action.kind = .insert
    · exact (hSpares.agrees.get ref (h.orderly.ne_entity hKind hMem)).trans
        hWaits
    · show env.heap.get ref = before.get ref
      rw [hSpares.same hKind]
      exact hWaits
  known := fun a hMem => h.known a (List.mem_cons_of_mem _ hMem)
  stale := fun ref key old values hMem =>
    h.stale ref key old values (List.mem_cons_of_mem _ hMem)

/-- What is left to do after an update that takes no call. -/
theorem skipped (h : Ready T p conn saved before (action :: rest) work)
    {ctx : Context}
    (hFollow : action.follow p work.env.heap work.context = .ok ctx) :
    Ready T p conn saved before rest { work with context := ctx } :=
  h.follow (Action.Spares.refl ..) hFollow h.valid h.suit

/-- What is left to do after a call that has been answered. -/
theorem done (h : Ready T p conn saved before (action :: rest) work)
    (hApart : p.schema.Apart) {c : Call} {answer : c.Answer} {env : Env σ}
    {ctx : Context}
    (hPlan : action.call? p.schema work.env.heap = .ok (some c))
    (hCall : (Driver.call conn c work.env.driver).1 = .ok answer)
    (hReceived : Action.Received p action (c.receipt answer).2
      (p.calling conn c work.env) (.ok ()) env)
    (hFollow : action.follow p env.heap work.context = .ok ctx) :
    Ready T p conn saved before rest ⟨env, ctx⟩ := by
  obtain ⟨hEnv, hSpares⟩ := hReceived.env_eq
  have hDriver : env.driver = (Driver.call conn c work.env.driver).2 := by
    rw [hEnv]
    rfl
  refine h.follow hSpares hFollow ?_ ?_
  · rw [hDriver]
    exact T.valid_call conn c h.valid
  · rw [hDriver]
    exact (h.changes hApart hPlan hCall).1.1

end Ready

/-! ## Actions that succeed -/

end Work

/-- Tables have these values under a key, or the entity that a context `saved`
has under it is still to be updated. -/
def Tables.WillHave (schema : Schema) (saved : Context) (actions : List Action)
    (tables : Tables) (key : Key) (values : List Value) : Prop :=
  tables.Has schema key values ∨ ∃ ref old, ⟨.update, ref⟩ ∈ actions ∧
    saved.get? key = some ref ∧ tables.Has schema key old

/-- An action on another entity leaves this so. -/
theorem Tables.WillHave.follow {saved : Context} {action : Action}
    {rest : List Action} {tables after : Tables} {key : Key}
    {values : List Value}
    (h : tables.WillHave schema saved (action :: rest) key values)
    (hOther : ∀ ref, saved.get? key = some ref → action ≠ ⟨.update, ref⟩)
    (hKept : ∀ v, tables.Has schema key v → after.Has schema key v) :
    after.WillHave schema saved rest key values := by
  rcases h with hHas | ⟨ref, old, hMem, hGet, hHas⟩
  · exact Or.inl (hKept values hHas)
  · rcases List.mem_cons.1 hMem with hEq | hRest
    · exact absurd hEq.symm (hOther ref hGet)
    · exact Or.inr ⟨ref, old, hRest, hGet, hKept old hHas⟩

namespace Work

variable [Driver σ] {T : Tabular σ} {p : Persister} {conn : ConnId}
  {saved : Context} {before : Heap} {action : Action} {rest : List Action}
  {work : Work σ}

/-- Each snapshot is that of a row, unless its entity is still to be
updated. -/
structure Mirroring (T : Tabular σ) (p : Persister) (conn : ConnId)
    (saved : Context) (before : Heap) (actions : List Action)
    (work : Work σ) : Prop where
  ready : Ready T p conn saved before actions work
  mirrored : ∀ key values, work.context.snapshot? key = some values →
    (T.view conn work.env.driver).content.WillHave p.schema saved actions key
      values

namespace Mirroring

variable {ref : Ref} {key : Key} {values : List Value} {ctx : Context}
  {after : Tables}

/-- The snapshot of an inserted entity is that of its row. -/
theorem has_inserted {key? : Option Value} {env last : Env σ}
    (h : Mirroring T p conn saved before (⟨.insert, ref⟩ :: rest) work)
    (hChanges : Action.Changes p.schema work.env.heap key?
      (T.view conn work.env.driver).content after ⟨.insert, ref⟩)
    (hHeap : env.heap = work.env.heap)
    (hReceived : Action.Received p ⟨.insert, ref⟩ key? env (.ok ()) last)
    (hBears : last.heap.Bears p.schema ref key)
    (hValues : last.heap.snapshot p.schema ref = .ok values) :
    after.Has p.schema key values := by
  cases hChanges with
  | insert hD hOld hNew =>
      have hLt : ref < env.heap.next := by
        rw [hHeap, h.ready.orderly.next]
        exact h.ready.get_eq.1
      obtain ⟨d, hOwn, hKeyed⟩ := hReceived.keyed rfl hLt
      have hLast : p.schema.descriptor (last.heap.get ref).type = .ok d := by
        rw [hReceived.env_eq.2.agrees.type]
        exact hOwn
      rw [hHeap] at hOwn hKeyed
      cases hD.symm.trans hOwn
      obtain ⟨hKey, hId⟩ := hBears.key_eq hLast
      obtain ⟨d', hD', _, rfl⟩ := Heap.snapshot_eq_ok_iff.1 hValues
      cases hLast.symm.trans hD'
      rw [hKey]
      exact hNew _ _ hKeyed hId

/-- There is a row for each entity that is to be updated. -/
theorem has_old
    (h : Mirroring T p conn saved before (⟨.update, ref⟩ :: rest) work)
    (hBears : work.env.heap.Bears p.schema ref key) :
    ∃ old, (T.view conn work.env.driver).content.Has p.schema key old := by
  obtain ⟨other, hGet⟩ := h.ready.orderly.updates ref (List.mem_cons_self ..)
  have hCoherent := h.ready.orderly.coherent
  rw [(hCoherent.bears other ref hGet).unique hBears] at hGet
  obtain ⟨v, hSnapshot⟩ := hCoherent.exists_snapshot? hGet
  rcases h.mirrored key v hSnapshot with hHas | ⟨_, old, _, _, hHas⟩
  · exact ⟨v, hHas⟩
  · exact ⟨old, hHas⟩

/-- After an insert the snapshots are those of rows as they were before. -/
theorem insert {key? : Option Value} {env last : Env σ}
    (h : Mirroring T p conn saved before (⟨.insert, ref⟩ :: rest) work)
    (hChanges : Action.Changes p.schema work.env.heap key?
      (T.view conn work.env.driver).content after ⟨.insert, ref⟩)
    (hHeap : env.heap = work.env.heap)
    (hReceived : Action.Received p ⟨.insert, ref⟩ key? env (.ok ()) last)
    (hFollow : Action.follow p ⟨.insert, ref⟩ last.heap work.context = .ok ctx)
    (hSnapshot : ctx.snapshot? key = some values) :
    after.WillHave p.schema saved rest key values := by
  have hThere : work.context.snapshot? key = some values →
      after.WillHave p.schema saved rest key values := by
    intro hBefore
    cases hChanges with
    | insert _ hOld _ =>
        exact (h.mirrored key values hBefore).follow
          (fun _ _ hEq => by cases hEq) fun v => hOld key v
  obtain ⟨resident, hCache⟩ := Action.follow_insert hFollow
  obtain ⟨own, hBears, ⟨_, rfl⟩ | ⟨_, _, v, hValues, rfl⟩⟩ :=
    Context.Coherent.cache_cases hCache
  · exact hThere hSnapshot
  · rcases Context.snapshot?_of_register hSnapshot with
      ⟨rfl, rfl⟩ | ⟨_, hBefore⟩
    · exact Or.inl (h.has_inserted hChanges hHeap hReceived hBears hValues)
    · exact hThere hBefore

/-- After an update, and after one that took no call. -/
theorem update
    (h : Mirroring T p conn saved before (⟨.update, ref⟩ :: rest) work)
    (hFollow : Action.follow p ⟨.update, ref⟩ work.env.heap work.context =
      .ok ctx)
    (hOwn : ∀ own v, work.env.heap.Bears p.schema ref own →
      work.env.heap.snapshot p.schema ref = .ok v → after.Has p.schema own v)
    (hOthers : ∀ own other v, work.env.heap.Bears p.schema ref own →
      other ≠ own →
        (T.view conn work.env.driver).content.Has p.schema other v →
          after.Has p.schema other v)
    (hSnapshot : ctx.snapshot? key = some values) :
    after.WillHave p.schema saved rest key values := by
  obtain ⟨own, v, hBears, hValues, rfl⟩ :=
    Context.Coherent.refresh_cases hFollow
  rcases Context.snapshot?_of_store hSnapshot with ⟨rfl, rfl⟩ | ⟨hNe, hBefore⟩
  · exact Or.inl (hOwn _ _ hBears hValues)
  · refine (h.mirrored key values hBefore).follow (fun other hGet hEq => ?_)
      fun v => hOthers own key v hBears hNe
    cases hEq
    exact hNe ((h.ready.bears hGet).unique hBears)

/-- After a delete. -/
theorem delete {key? : Option Value}
    (h : Mirroring T p conn saved before (⟨.delete, ref⟩ :: rest) work)
    (hChanges : Action.Changes p.schema work.env.heap key?
      (T.view conn work.env.driver).content after ⟨.delete, ref⟩)
    (hFollow : Action.follow p ⟨.delete, ref⟩ work.env.heap work.context =
      .ok ctx)
    (hSnapshot : ctx.snapshot? key = some values) :
    after.WillHave p.schema saved rest key values := by
  cases hChanges with
  | delete hBears hLeft =>
      rw [Context.Coherent.remove_of_bears hBears hFollow] at hSnapshot
      obtain ⟨hNe, hBefore⟩ := Context.snapshot?_of_forget hSnapshot
      exact (h.mirrored key values hBefore).follow
        (fun _ _ hEq => by cases hEq) fun v hHas => (hLeft key v).2 ⟨hNe, hHas⟩

/-- An update that takes no call leaves tables that have the values of its
entity. -/
theorem skipped
    (h : Mirroring T p conn saved before (action :: rest) work)
    (hPlan : action.call? p.schema work.env.heap = .ok none)
    (hFollow : action.follow p work.env.heap work.context = .ok ctx) :
    Mirroring T p conn saved before rest { work with context := ctx } := by
  refine ⟨h.ready.skipped hFollow, ?_⟩
  intro key values hSnapshot
  obtain ⟨hKind, d, hD, hNil⟩ := Action.nil_of_call?_none hPlan
  obtain ⟨kind, ref⟩ := action
  cases hKind
  refine h.update hFollow (fun own v hBears hValues => ?_)
    (fun _ _ _ _ _ hHas => hHas) hSnapshot
  obtain ⟨old, hHas⟩ := h.has_old hBears
  obtain ⟨hKey, hId⟩ := hBears.key_eq hD
  obtain ⟨d', hD', _, rfl⟩ := Heap.snapshot_eq_ok_iff.1 hValues
  cases hD.symm.trans hD'
  rw [hKey] at hHas ⊢
  rw [← hHas.eq_snapshot (Schema.descriptor_typeName hD) hNil hId]
  exact hHas

/-- After an action that has been carried out the snapshots are those of rows
again. -/
theorem done (h : Mirroring T p conn saved before (action :: rest) work)
    (hApart : p.schema.Apart) {c : Call} {answer : c.Answer} {env : Env σ}
    (hPlan : action.call? p.schema work.env.heap = .ok (some c))
    (hCall : (Driver.call conn c work.env.driver).1 = .ok answer)
    (hReceived : Action.Received p action (c.receipt answer).2
      (p.calling conn c work.env) (.ok ()) env)
    (hFollow : action.follow p env.heap work.context = .ok ctx) :
    Mirroring T p conn saved before rest ⟨env, ctx⟩ := by
  refine ⟨h.ready.done hApart hPlan hCall hReceived hFollow, ?_⟩
  intro key values hSnapshot
  obtain ⟨⟨_, hChanges⟩, _⟩ := h.ready.changes hApart hPlan hCall
  obtain ⟨hEnv, hSpares⟩ := hReceived.env_eq
  have hDriver : env.driver = (Driver.call conn c work.env.driver).2 := by
    rw [hEnv]
    rfl
  rw [← hDriver] at hChanges
  obtain ⟨kind, ref⟩ := action
  cases kind with
  | insert =>
      exact h.insert hChanges (p.heap_calling conn c work.env) hReceived hFollow
        hSnapshot
  | update =>
      have hHeap : env.heap = work.env.heap := hSpares.same fun h => by cases h
      rw [hHeap] at hFollow
      cases hChanges with
      | @update _ key v hBears hValues hOthers hOnly hStill =>
          refine h.update hFollow (fun own v' hOwn hV => ?_)
            (fun own other v' hOwn hNe => ?_) hSnapshot
          · obtain ⟨old, hHas⟩ := h.has_old hOwn
            rw [hOwn.unique hBears] at hHas ⊢
            cases hValues.symm.trans hV
            exact hStill old hHas
          · rw [hOwn.unique hBears] at hNe
            exact (hOthers other v' hNe).2
  | delete =>
      have hHeap : env.heap = work.env.heap := hSpares.same fun h => by cases h
      rw [hHeap] at hFollow
      exact h.delete hChanges hFollow hSnapshot

end Mirroring

/-- After actions that all succeed, each snapshot is that of a row. -/
theorem Mirroring.executeAll (hApart : p.schema.Apart) {actions : List Action}
    (h : Mirroring T p conn saved before actions work) :
    match (Action.executeAll p conn actions).run work with
    | (.ok _, after) => Mirroring T p conn saved before [] after
    | (.error _, _) => True := by
  refine Action.executeAll_induct
    (I := fun actions work => Mirroring T p conn saved before actions work)
    (J := fun _ => True) ?_ (fun _ _ _ _ _ _ _ => trivial) h
  intro action rest work after hMirroring hExecuted
  cases hExecuted with
  | skipped hPlan hFollow => exact hMirroring.skipped hPlan hFollow
  | done hPlan hCall hCount hKey hFollow =>
      exact hMirroring.done hApart hPlan hCall hKey hFollow

end Work

/-! ## Actions that fail outside of a transaction -/

/-- The work of a flush on a connection without a transaction: what it has
written stays. Up to the first update or delete nothing is lost; from then on a
snapshot of the context `saved` that the flush started with is not that of a
row. -/
structure Env.Exposed [Driver σ] (T : Tabular σ) (p : Persister)
    (conn : ConnId) (saved : Context) (start : Env σ) (actions : List Action)
    (env : Env σ) : Prop where
  valid : T.Valid env.driver
  clean : T.Clean conn env.driver
  suit : (T.view conn env.driver).content.Suit p.schema
  made : ∃ calls, start.Made conn calls env ∧
    (¬ Driver.Carried conn calls start.driver ∧
        (∀ key v, (T.view conn start.driver).content.Has p.schema key v →
          (T.view conn env.driver).content.Has p.schema key v) ∨
      Driver.Carried conn calls start.driver ∧
        (∀ action ∈ actions, action.kind ≠ .insert) ∧
          ∃ key old, saved.snapshot? key = some old ∧
            ¬ (T.view conn env.driver).content.Has p.schema key old)

namespace Env.Exposed

variable [Driver σ] {T : Tabular σ} {p : Persister} {conn : ConnId}
  {saved : Context} {start env last : Env σ} {actions rest : List Action}
  {action : Action}

/-- Only the actions that are left count. -/
theorem mono (h : start.Exposed T p conn saved actions env)
    (hSub : rest ⊆ actions) : start.Exposed T p conn saved rest env := by
  obtain ⟨calls, hMade, hParted⟩ := h.made
  refine ⟨h.valid, h.clean, h.suit, calls, hMade, ?_⟩
  exact hParted.imp_right fun ⟨hCarried, hNone, hMissing⟩ =>
    ⟨hCarried, fun a hMem => hNone a (hSub hMem), hMissing⟩

/-- A call that changes nothing. -/
theorem unchanged {c : Call} (h : start.Exposed T p conn saved actions env)
    (hNot : ∀ statement params affected, c = .execute statement params →
      (Driver.call conn (.execute statement params) env.driver).1 ≠
        .ok affected)
    (hView : T.view conn (Driver.call conn c env.driver).2 =
      T.view conn env.driver)
    (hTrace : last.trace = env.trace ++ [(conn, c)])
    (hDriver : last.driver = (Driver.call conn c env.driver).2) :
    start.Exposed T p conn saved actions last := by
  obtain ⟨calls, hMade, hParted⟩ := h.made
  rw [← hDriver] at hView
  have hSame : Driver.Carried conn (calls ++ [c]) start.driver ↔
      Driver.Carried conn calls start.driver := by
    rw [Driver.carried_snoc, ← hMade.driver]
    refine ⟨fun hOr => hOr.resolve_right ?_, Or.inl⟩
    rintro ⟨statement, params, affected, hC, hCall⟩
    exact hNot statement params affected hC hCall
  refine ⟨?_, ?_, ?_, calls ++ [c], hMade.snoc hTrace hDriver, ?_⟩
  · rw [hDriver]
    exact T.valid_call conn c h.valid
  · rw [Transactions.Clean, hView]
    exact h.clean
  · rw [hView]
    exact h.suit
  · rw [hSame, hView]
    exact hParted

variable {before : Heap} {work : Work σ}

/-- After an update or a delete, the snapshot of its entity that the flush
started with is not that of a row any more. -/
theorem missing {key? : Option Value} {after : Tables}
    (hReady : work.Ready T p conn saved before (action :: rest))
    (hKind : action.kind ≠ .insert)
    (hChanges : action.Changes p.schema work.env.heap key?
      (T.view conn work.env.driver).content after) :
    ∃ key old, saved.snapshot? key = some old ∧
      ¬ after.Has p.schema key old := by
  obtain ⟨key, hGet⟩ := hReady.known action (List.mem_cons_self ..) hKind
  obtain ⟨old, hOld⟩ := hReady.coherent.exists_snapshot? hGet
  have hOwn := hReady.bears hGet
  refine ⟨key, old, hOld, ?_⟩
  intro hHas
  cases hChanges with
  | insert _ _ _ => exact hKind rfl
  | @update ref _ values hBears hValues _ hOnly _ =>
      rw [Heap.snapshot_of_get_eq hReady.get_eq.2] at hValues
      rw [hOwn.unique hBears] at hHas
      exact hReady.stale ref key old values (List.mem_cons_self ..) hGet hOld
        hValues (hOnly old hHas)
  | delete hBears hLeft =>
      exact ((hLeft key old).1 hHas).1 (hOwn.unique hBears)

/-- A write that is carried out, whatever is made of its answer. -/
theorem write (h : start.Exposed T p conn saved (action :: rest) work.env)
    (hReady : work.Ready T p conn saved before (action :: rest))
    (hApart : p.schema.Apart) {c : Call} {answer : c.Answer}
    (hPlan : action.call? p.schema work.env.heap = .ok (some c))
    (hCall : (Driver.call conn c work.env.driver).1 = .ok answer)
    (hLast : last = { p.calling conn c work.env with heap := last.heap }) :
    start.Exposed T p conn saved rest last := by
  obtain ⟨calls, hMade, hParted⟩ := h.made
  obtain ⟨⟨hSuit, hChanges⟩, hClean⟩ := hReady.changes hApart hPlan hCall
  have hDriver : last.driver = (Driver.call conn c work.env.driver).2 := by
    rw [hLast]
    rfl
  have hTrace : last.trace = work.env.trace ++ [(conn, c)] := by
    rw [hLast]
    rfl
  rw [← hDriver] at hSuit hChanges hClean
  refine ⟨?_, hClean h.clean, hSuit, calls ++ [c],
    hMade.snoc hTrace hDriver, ?_⟩
  · rw [hDriver]
    exact T.valid_call conn c h.valid
  rw [Driver.carried_snoc, ← hMade.driver]
  obtain ⟨d, params, _, rfl⟩ := Action.call_of_call? hPlan
  by_cases hKind : action.kind = .insert
  · -- Inserts come first, so nothing has been updated or deleted yet.
    rcases hParted with ⟨hNot, hAll⟩ | ⟨_, hNone, _⟩
    · refine Or.inl ⟨?_, fun key v hHas => ?_⟩
      · rintro (hCarried | ⟨statement, params', affected, hC, _⟩)
        · exact hNot hCarried
        · rw [hKind] at hC
          cases hC
      · obtain ⟨kind, ref⟩ := action
        cases hKind
        cases hChanges with
        | insert _ hOld _ => exact hOld key v (hAll key v hHas)
    · exact absurd hKind (hNone action (List.mem_cons_self ..))
  · refine Or.inr ⟨Or.inr ?_, fun a hMem => ?_,
      missing hReady hKind hChanges⟩
    · obtain ⟨kind, ref⟩ := action
      cases kind with
      | insert => exact absurd rfl hKind
      | update => exact ⟨_, _, answer, rfl, hCall⟩
      | delete => exact ⟨_, _, answer, rfl, hCall⟩
    · have hLe := (List.pairwise_cons.1 hReady.orderly.sorted).1 a hMem
      intro hInsert
      rw [hInsert] at hLe
      obtain ⟨kind, ref⟩ := action
      cases kind with
      | insert => exact hKind rfl
      | update => simp [ActionKind.priority] at hLe
      | delete => simp [ActionKind.priority] at hLe

/-- Actions on a connection without a transaction, up to the end or the first
failure. -/
theorem executeAll (hApart : p.schema.Apart)
    (hReady : work.Ready T p conn saved before actions)
    (h : start.Exposed T p conn saved actions work.env) :
    start.Exposed T p conn saved []
      ((Action.executeAll p conn actions).run work).2.env := by
  have hAll : match (Action.executeAll p conn actions).run work with
      | (.ok _, after) => after.Ready T p conn saved before [] ∧
        start.Exposed T p conn saved [] after.env
      | (.error _, after) => start.Exposed T p conn saved [] after.env := by
    refine Action.executeAll_induct
      (I := fun actions work => work.Ready T p conn saved before actions ∧
        start.Exposed T p conn saved actions work.env)
      (J := fun work => start.Exposed T p conn saved [] work.env)
      ?_ ?_ ⟨hReady, h⟩
    · intro action rest work after ⟨hReady, hExposed⟩ hExecuted
      cases hExecuted with
      | skipped hPlan hFollow =>
          exact ⟨hReady.skipped hFollow,
            hExposed.mono (List.subset_cons_self action rest)⟩
      | done hPlan hCall hCount hKey hFollow =>
          exact ⟨hReady.done hApart hPlan hCall hKey hFollow,
            hExposed.write hReady hApart hPlan hCall hKey.env_eq.1⟩
    · intro action rest work after e ⟨hReady, hExposed⟩ hExecuted
      cases hExecuted with
      | stopped _ => exact hExposed.mono (List.nil_subset _)
      | refused hPlan hCall =>
          obtain ⟨write, hWrite, _⟩ := Action.write_of_call? hPlan
          refine (hExposed.mono (List.nil_subset _)).unchanged ?_
            (Tabular.view_refused hExposed.valid hExposed.clean hWrite hCall)
            rfl rfl
          rintro statement params affected rfl hOk
          cases hCall.symm.trans hOk
      | unsettled _ hPlan hCall hEnv _ =>
          exact (hExposed.write hReady hApart hPlan hCall hEnv).mono
            (List.nil_subset _)
  generalize (Action.executeAll p conn actions).run work = result at hAll ⊢
  obtain ⟨_ | _, after⟩ := result
  · exact hAll
  · exact hAll.2

end Env.Exposed

end UnitOfWork

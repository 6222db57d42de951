import UnitOfWork.Proofs.Residents
import UnitOfWork.Proofs.Stages

/-!
# Where updates go

The dirty check finds an entity under the key that it is looked after under.
Its update writes the row of the key that it has by then, and takes its
snapshot under that key. The two keys are the same unless the identifier of the
entity has been edited since. If it has, the update goes to the row of the other
key, be it that of another entity or of none, and so does the snapshot.

## Main results

* `Session.placed_of_reaches`: the entities that are looked after have the
  types of their keys;
* `Action.updatesRow_iff`: an update writes the row of the key that its entity
  has;
* `Session.Staged.backed_iff`: when a flush leaves a snapshot of nothing;
* `Session.updates_follow_keys`: all of this of runs.
-/

namespace UnitOfWork

variable {σ : Type} {schema : Schema} {heap : Heap} {ref : Ref} {key : Key}

/-! ## Types -/

/-- No instance vanishes, and none changes its type. -/
structure Heap.KeepsTypes (before after : Heap) : Prop where
  next : before.next ≤ after.next
  type : ∀ ref, ref < before.next →
    (after.get ref).type = (before.get ref).type

theorem Heap.KeepsTypes.refl (heap : Heap) : heap.KeepsTypes heap :=
  ⟨Nat.le_refl _, fun _ _ => rfl⟩

theorem Heap.Keyed.keepsTypes {inserted : Ref → Prop} {before now : Heap}
    (h : before.Keyed schema inserted now) : before.KeepsTypes now :=
  ⟨Nat.le_of_eq h.next.symm, fun ref _ => h.type ref⟩

/-- Other contents of a field are no other type. -/
theorem Heap.type_modify_set (heap : Heap) (ref other : Ref) (field : String)
    (slot : Slot) :
    ((heap.modify ref fun e => e.set field slot).get other).type =
      (heap.get other).type := by
  by_cases hSame : other = ref
  · subst hSame
    by_cases hLt : other < heap.next
    · rw [Heap.get_modify_self hLt, Instance.type_set]
    · rw [Heap.modify_of_le (Nat.le_of_not_lt hLt)]
  · rw [Heap.get_modify_ne _ hSame]

/-- Each entity of a context has the type of its key. -/
def Context.Typed (heap : Heap) (ctx : Context) : Prop :=
  ∀ key ref, ctx.get? key = some ref → (heap.get ref).type = key.type

namespace Action

variable {p : Persister}

/-- What is looked after when an action has been carried out was so before, or
has the key. -/
theorem get?_or_bears_of_follow {action : Action} {ctx next : Context}
    (h : action.follow p heap ctx = .ok next)
    (hGet : next.get? key = some ref) :
    ctx.get? key = some ref ∨ heap.Bears p.schema ref key := by
  have hEntity := congrArg Context.Entry.entity? (entry_of_follow h key)
  have hLeft : (leave p.schema heap key (ctx.entry key) action).entity? =
      some ref := hEntity.symm.trans hGet
  unfold leave at hLeft
  by_cases hKey : heap.Bears p.schema action.entity key
  · rw [if_pos hKey] at hLeft
    cases hKind : action.kind with
    | update =>
        rw [hKind] at hLeft
        exact Or.inl hLeft
    | delete =>
        rw [hKind] at hLeft
        cases hLeft
    | insert =>
        cases hHeld : (ctx.entry key).entity? with
        | some resident =>
            simp only [hKind, hHeld] at hLeft
            rw [Option.some.inj hLeft] at hHeld
            exact Or.inl hHeld
        | none =>
            simp only [hKind, hHeld] at hLeft
            rw [← Option.some.inj hLeft]
            exact Or.inr hKey
  · rw [if_neg hKey] at hLeft
    exact Or.inl hLeft

variable [Driver σ] {conn : ConnId}

/-- Instances have their types when actions have been carried out. -/
theorem type_of_executeAll {actions : List Action} {work last : Work σ}
    (hRun : (executeAll p conn actions).run work = (.ok (), last)) (ref : Ref) :
    (last.env.heap.get ref).type = (work.env.heap.get ref).type := by
  have hKeyed : work.env.heap.Keyed p.schema (fun _ => True)
      ((executeAll p conn actions).run work).2.env.heap :=
    keyed_executeAll (.refl ..) fun _ _ => trivial
  rw [hRun] at hKeyed
  exact hKeyed.type ref

/-- Actions leave typed contexts typed. -/
theorem typed_of_executeAll {actions : List Action} {work last : Work σ}
    (hStart : work.context.Typed work.env.heap)
    (hRun : (executeAll p conn actions).run work = (.ok (), last)) :
    last.context.Typed last.env.heap := by
  -- The types are those of the end all along.
  have hTyped : work.context.Typed last.env.heap := fun key ref hGet =>
    (type_of_executeAll hRun ref).trans (hStart key ref hGet)
  clear hStart
  induction actions generalizing work with
  | nil =>
      cases hRun
      exact hTyped
  | cons action rest ih =>
      obtain ⟨mid, hFollow, hGo⟩ := executeAll_cons_ok hRun
      refine ih hGo fun key ref hGet => ?_
      rcases get?_or_bears_of_follow hFollow hGet with hOld | hBears
      · exact hTyped key ref hOld
      · exact (type_of_executeAll hGo ref).trans hBears.1

end Action

namespace Session

/-- The instances that a session refers to exist, and the entities that it looks
after have the types of their keys. -/
structure Placed (scope : Scope σ) : Prop extends Grounded scope where
  typed : scope.session.context.Typed scope.heap

namespace Placed

theorem of_entities {scope : Scope σ}
    (hEntities : ∀ key ref, scope.session.context.get? key = some ref →
      ref < scope.heap.next ∧ (scope.heap.get ref).type = key.type)
    (hQueue : scope.session.queue = {}) : Placed scope :=
  ⟨Grounded.of_entities (fun key ref hGet => (hEntities key ref hGet).1) hQueue,
    fun key ref hGet => (hEntities key ref hGet).2⟩

theorem entity {scope : Scope σ} (h : Placed scope) {key : Key} {ref : Ref}
    (hGet : scope.session.context.get? key = some ref) :
    ref < scope.heap.next ∧ (scope.heap.get ref).type = key.type :=
  ⟨h.entities key ref hGet, h.typed key ref hGet⟩

/-- Only the instances count. -/
theorem of_keepsTypes {scope after : Scope σ} (h : Placed scope)
    (hContext : after.session.context = scope.session.context)
    (hQueue : after.session.queue = scope.session.queue)
    (hTypes : scope.heap.KeepsTypes after.heap) : Placed after := by
  refine ⟨h.toGrounded.of_next hContext hQueue hTypes.next, ?_⟩
  intro key ref hGet
  rw [hContext] at hGet
  obtain ⟨hLt, hType⟩ := h.entity hGet
  rw [hTypes.type ref hLt]
  exact hType

theorem of_keeping {scope after : Scope σ} (h : Placed scope)
    (hKeeping : Keeping scope after) : Placed after := by
  refine h.of_keepsTypes hKeeping.context hKeeping.queue ?_
  rw [hKeeping.heap]
  exact .refl _

variable [Driver σ] {p : Persister}

theorem flush {scope after : Scope σ} {r : Except Error Unit}
    (h : Placed scope) (hFlushed : Flushed p scope r after) : Placed after := by
  refine ⟨h.toGrounded.flush hFlushed, ?_⟩
  have hTypes := (keyed_of_flushed hFlushed).keepsTypes
  -- The context may be the same as before.
  have hSame : scope.session.context.Typed after.heap := by
    intro key ref hGet
    obtain ⟨hLt, hType⟩ := h.entity hGet
    rw [hTypes.type ref hLt]
    exact hType
  cases hFlushed with
  | closed _ => exact hSame
  | unreadable _ _ => exact hSame
  | idle _ _ _ => exact hSame
  | unconnected _ _ _ _ _ => exact hSame
  | rolledBack _ _ _ _ _ _ => exact hSame
  | discarded _ _ _ _ _ _ => exact hSame
  | @committed dirty ctx conn pool work _ hDiff _ _ hRun =>
      cases hRun with
      | committed _ hExecuted _ _ =>
          have hStart : (opened conn scope.session.inTransaction
              ⟨scope.env, ctx⟩).context.Typed (opened conn
                scope.session.inTransaction ⟨scope.env, ctx⟩).env.heap := by
            rw [context_opened, heap_opened]
            intro key ref hGet
            rw [Context.get?, Context.entities_of_diff hDiff] at hGet
            exact h.typed key ref hGet
          have hDone := Action.typed_of_executeAll hStart hExecuted
          exact hDone

/-- A load registers instances of the types of their keys. -/
theorem keeps (L : Loader) (before : Heap) : L.Keeps (fun _ _ => True)
    fun work : Work σ => before.KeepsTypes work.env.heap ∧
      ∀ key ref, work.context.get? key = some ref →
        ref < work.env.heap.next ∧ (work.env.heap.get ref).type = key.type where
  query := fun _ _ hI => ⟨hI, fun _ _ _ _ => trivial⟩
  register := by
    rintro work d row e id _ _ hRead _ _ ⟨hTypes, hEntities⟩
    have hHeap : ((Loader.register d id e).run work).2.env.heap =
        work.env.heap.alloc e := rfl
    rw [hHeap, Heap.next_alloc]
    refine ⟨⟨?_, fun ref hLt => ?_⟩, fun key ref hGet => ?_⟩
    · rw [Heap.next_alloc]
      exact Nat.le_succ_of_le hTypes.next
    · rw [Heap.get_alloc_of_lt (Nat.lt_of_lt_of_le hLt hTypes.next)]
      exact hTypes.type ref hLt
    · by_cases hKey : key = ⟨d.typeName, id⟩
      · subst hKey
        cases (Context.get?_register_self work.context _ _ _).symm.trans hGet
        refine ⟨Nat.lt_succ_self _, ?_⟩
        rw [Heap.get_alloc]
        exact Loader.type_of_readRow hRead
      · obtain ⟨hLt, hType⟩ := hEntities key ref
          ((Context.get?_register_ne hKey ..).symm.trans hGet)
        refine ⟨Nat.lt_succ_of_lt hLt, ?_⟩
        rw [Heap.get_alloc_of_lt hLt]
        exact hType
  assign := by
    rintro work d id ref relation slot _ _ _ ⟨hTypes, hEntities⟩
    have hHeap : ((Loader.assign ref relation.field slot).run
        work).2.env.heap = work.env.heap.modify ref fun e =>
          e.set relation.field slot := rfl
    rw [hHeap, Heap.next_modify]
    refine ⟨⟨?_, fun other hLt => ?_⟩, fun key other hGet => ?_⟩
    · rw [Heap.next_modify]
      exact hTypes.next
    · rw [Heap.type_modify_set]
      exact hTypes.type other hLt
    · rw [Heap.type_modify_set]
      exact hEntities key other hGet
  inspect := fun _ hI => hI

theorem withLoader {α : Type} {shared : Bool} {scope : Scope σ}
    {load : Loader → Step (Work σ) α} (h : Placed scope)
    (hLoad : Loader.Leading load) :
    Placed ((Session.withLoader p shared load).run scope).2 := by
  have hStart : ∀ key ref, (loadStart shared scope).get? key = some ref →
      ref < scope.env.heap.next ∧ (scope.env.heap.get ref).type = key.type := by
    cases shared with
    | true => exact fun _ _ => h.entity
    | false => exact fun _ _ hGet => by cases hGet
  have hLoaded := loaded p shared load scope fun _ _ _ =>
    hLoad (keeps _ scope.heap) ⟨.refl _, hStart⟩
  have hGrounded : Grounded ((Session.withLoader p shared load).run scope).2 :=
    h.toGrounded.withLoader hLoad
  generalize (Session.withLoader p shared load).run scope = result
    at hLoaded hGrounded ⊢
  obtain ⟨r, after⟩ := result
  cases hLoaded with
  | unconnected _ _ => exact h
  | failed _ hI => exact h.of_keepsTypes rfl rfl hI.1
  | done _ hI _ _ =>
      cases shared with
      | true => exact ⟨hGrounded, fun key ref hGet => (hI.2 key ref hGet).2⟩
      | false => exact h.of_keepsTypes rfl rfl hI.1

theorem perform {scope : Scope σ} {op : Operation} (h : Placed scope)
    (hHanded : Handed scope op) : Placed (op.perform p scope) := by
  refine perform_keeps (I := Placed) h ?_ (fun ref _ => ?_)
    (fun _ => h.flush (flushed p scope))
    (fun shared load hLoad s hS => hS.withLoader hLoad)
    (fun _ _ _ hS => ⟨⟨hS.toGrounded.entities, hS.pending⟩, hS.typed⟩)
    (fun _ _ _ => of_entities (fun _ _ hGet => by cases hGet) rfl)
    (fun _ s hS => hS.of_keeping (keeping_releaseConnection s))
    (fun _ s hS => hS.of_keeping (rolledBack s).keeping)
  · rintro ref rfl
    exact ⟨h.toGrounded.persist hHanded,
      persist_keeps (I := fun s => s.session.context.Typed s.heap) h.typed h.typed⟩
  · exact ⟨h.toGrounded.remove,
      remove_keeps (I := fun s => s.session.context.Typed s.heap) h.typed h.typed⟩

end Placed

/-- What the application and other sessions may do: anything to the fields of
the instances, the identifiers included, and to the database; but instances do
not vanish or change their types. -/
def Edits (scope : Scope σ) (backend : Backend σ) : Prop :=
  scope.heap.KeepsTypes backend.env.heap

/-- On every run the entities that are looked after exist and have the types of
their keys. -/
theorem placed_of_reaches [Driver σ] {p : Persister}
    {Allowed : Scope σ → Operation → Prop} {start scope : Scope σ}
    (hHanded : ∀ s op, Allowed s op → Handed s op) (hStart : Placed start)
    (hReaches : Reaches p Allowed Edits start scope) : Placed scope :=
  hReaches.invariant (I := Placed)
    (fun s op h hAllowed => h.perform (hHanded s op hAllowed))
    (fun _ _ h hEdits => h.of_keepsTypes rfl rfl hEdits) hStart

end Session

/-! ## The row of an update -/

/-- An UPDATE of the row that has a key. -/
def Call.UpdatesRow (schema : Schema) (key : Key) (c : Call) : Prop :=
  ∃ d columns values, schema.descriptor key.type = .ok d ∧
    c = .execute (.updateBy d.table columns d.identifier.name)
      (values ++ [key.id.toValue])

namespace Action

variable {c : Call}

/-- An UPDATE has the values of its entity for all columns but the identifier,
which is the last parameter. -/
theorem update_of_call? (h : call? schema heap ⟨.update, ref⟩ = .ok (some c)) :
    ∃ d values, schema.descriptor (heap.get ref).type = .ok d ∧
      heap.valuesOf schema (heap.get ref) d.updatedColumns = .ok values ∧
      c = .execute (.updateBy d.table (d.updatedColumns.map Column.name)
        d.identifier.name) (values ++ [d.idValue (heap.get ref)]) := by
  obtain ⟨d, hD, _, plan?, hPlan, hCall⟩ := call?_eq_ok h
  obtain ⟨id, hId, hRest⟩ := except_bind_eq_ok.1 hPlan
  obtain ⟨values, hValues, hUpdate⟩ := except_bind_eq_ok.1 hRest
  have hOwn : id = d.idValue (heap.get ref) := by
    unfold Heap.requireId at hId
    split at hId
    · cases hId
    · exact (Except.ok.inj hId).symm
  subst hOwn
  split at hUpdate
  · cases hUpdate
    cases hCall
  · cases hUpdate
    exact ⟨d, values, hD, hValues, Option.some.inj hCall⟩

/-- Of the rows of its type an update writes the one with the key that its
entity has. -/
theorem updatesRow_iff (hType : (heap.get ref).type = key.type)
    (h : call? schema heap ⟨.update, ref⟩ = .ok (some c)) :
    c.UpdatesRow schema key ↔ heap.Bears schema ref key := by
  obtain ⟨d, values, hD, _, rfl⟩ := update_of_call? h
  rw [hType] at hD
  constructor
  · rintro ⟨d', columns', values', hD', hCall⟩
    cases hD.symm.trans hD'
    obtain ⟨_, hParams⟩ := Call.execute.inj hCall
    obtain ⟨_, hLast⟩ := List.append_inj' hParams rfl
    refine ⟨hType, d, hD, ?_⟩
    rw [Descriptor.entityId, List.singleton_inj.1 hLast,
      EntityId.ofValue_toValue]
  · rintro ⟨_, d', hD', hId⟩
    cases hD.symm.trans hD'
    refine ⟨d, d.updatedColumns.map Column.name, values, hD, ?_⟩
    rw [EntityId.toValue_of_ofValue hId]

end Action

/-! ## Snapshots of nothing -/

/-- Each snapshot is that of an entity that is looked after. -/
def Context.Backed (ctx : Context) : Prop :=
  ∀ key values, ctx.snapshot? key = some values → ∃ ref, ctx.get? key = some ref

namespace Context.Backed

variable {ctx next : Context}

theorem empty : Backed {} := fun _ _ hNo => by cases hNo

theorem register (h : ctx.Backed) (key : Key) (ref : Ref)
    (values : List Value) : (ctx.register key ref values).Backed := by
  intro other v hSnapshot
  rcases snapshot?_of_register hSnapshot with ⟨rfl, _⟩ | ⟨hNe, hOld⟩
  · exact ⟨ref, ctx.get?_register_self ..⟩
  · rw [Context.get?_register_ne hNe]
    exact h other v hOld

/-- The dirty check takes snapshots of entities only. -/
theorem diff {dirty : List Dirty} (h : ctx.Backed)
    (hDiff : ctx.diff schema heap = .ok (dirty, next)) : next.Backed := by
  intro key values hSnapshot
  rw [Context.get?, Context.entities_of_diff hDiff]
  rcases snapshot?_of_diff hDiff hSnapshot with ⟨d, hD, rfl⟩ | hOld
  · have hMem : d.key ∈ Assoc.keys ctx.entities :=
      List.mem_map_of_mem ((mem_of_diff hDiff d).1 hD).1
    exact Option.isSome_iff_exists.1 ((Assoc.lookup_isSome_iff ..).2 hMem)
  · exact h key values hOld

end Context.Backed

/-- Inserts leave no snapshot of nothing. -/
theorem Action.backed_of_inserts [Driver σ] {p : Persister} {conn : ConnId}
    {actions : List Action} {work last : Work σ}
    (hInserts : ∀ a ∈ actions, a.kind = .insert)
    (hBacked : work.context.Backed)
    (hRun : (executeAll p conn actions).run work = (.ok (), last)) :
    last.context.Backed := by
  induction actions generalizing work with
  | nil =>
      cases hRun
      exact hBacked
  | cons action rest ih =>
      obtain ⟨mid, hFollow, hGo⟩ := executeAll_cons_ok hRun
      have hKind := hInserts action (List.mem_cons_self ..)
      refine ih (fun b hB => hInserts b (List.mem_cons_of_mem _ hB)) ?_ hGo
      obtain ⟨kind, ref⟩ := action
      cases hKind
      obtain ⟨resident, hCache⟩ := follow_insert hFollow
      obtain ⟨key, _, ⟨_, hSame⟩ | ⟨_, _, values, _, hNew⟩⟩ :=
        Context.Coherent.cache_cases hCache
      · rw [hSame]
        exact hBacked
      · rw [hNew]
        exact hBacked.register key ref values

namespace Session

variable [Driver σ] {p : Persister} {scope after : Scope σ}

namespace Staged

variable {dirty : List Dirty} {conn : ConnId} {begun mid last : Work σ}

/-- The first stage leaves no snapshot of nothing. -/
theorem backed_mid (h : Staged p scope dirty conn begun mid last)
    (hBacked : scope.session.context.Backed) : mid.context.Backed :=
  Action.backed_of_inserts (fun _ hA => Queue.kind_of_mem_ofKind hA)
    (hBacked.diff h.diff) h.inserted

/-- A flush leaves no snapshot of nothing exactly if each key that an updated
entity has is that of an entity which is looked after, or was deleted. -/
theorem backed_iff (h : Staged p scope dirty conn begun mid last)
    (hRegular : scope.session.Regular)
    (hBacked : scope.session.context.Backed) :
    last.context.Backed ↔ ∀ d ∈ dirty, ∀ key,
      last.env.heap.Bears p.schema d.ref key →
        (∃ ref, last.context.get? key = some ref) ∨
          ∃ a ∈ scope.session.queue.ofKind .delete,
            last.env.heap.Bears p.schema a.entity key := by
  constructor
  · intro hLast d hD key hBears
    refine or_iff_not_imp_right.2 fun hKept => ?_
    obtain ⟨_, values, _, _, _, hSnapshot⟩ := h.exists_dirty_snapshot hRegular
      (fun a hA hDeleted => hKept ⟨a, hA, hDeleted⟩) hD hBears
    exact hLast key values hSnapshot
  · intro hUpdated key values hSnapshot
    by_cases hDeleted : ∃ a ∈ scope.session.queue.ofKind .delete,
        last.env.heap.Bears p.schema a.entity key
    · have hEntry :=
        congrArg Context.Entry.values? (h.entry_of_deleted hDeleted)
      cases hSnapshot.symm.trans hEntry
    by_cases hBears : ∃ d ∈ dirty, last.env.heap.Bears p.schema d.ref key
    · obtain ⟨d, hD, hKey⟩ := hBears
      exact (hUpdated d hD key hKey).resolve_right hDeleted
    · -- Under a key that no updated entity has all is as after the inserts.
      have hNone : (dirty.filter fun d =>
          last.env.heap.Bears p.schema d.ref key) = [] :=
        List.filter_eq_nil_iff.2 fun d hD hKey =>
          hBears ⟨d, hD, of_decide_eq_true hKey⟩
      have hKept : ∀ a ∈ scope.session.queue.ofKind .delete,
          ¬ last.env.heap.Bears p.schema a.entity key :=
        fun a hA hKey => hDeleted ⟨a, hA, hKey⟩
      have hEntry := h.entry_of_kept hKept
      rw [hNone] at hEntry
      have hMid : mid.context.snapshot? key = some values :=
        (congrArg Context.Entry.values? hEntry).symm.trans hSnapshot
      obtain ⟨ref, hGet⟩ := h.backed_mid hBacked key values hMid
      exact ⟨ref, (congrArg Context.Entry.entity? hEntry).trans hGet⟩

/-- So it is if each updated entity has the key that it is looked after
under. -/
theorem backed_of_bears (h : Staged p scope dirty conn begun mid last)
    (hRegular : scope.session.Regular)
    (hBacked : scope.session.context.Backed)
    (hBears : ∀ d ∈ dirty, last.env.heap.Bears p.schema d.ref d.key) :
    last.context.Backed := by
  refine (h.backed_iff hRegular hBacked).2 fun d hD key hKey => ?_
  have hOwn : d.key = key := (hBears d hD).unique hKey
  subst hOwn
  refine or_iff_not_imp_right.2 fun hNot => ?_
  have hKept : ∀ a ∈ scope.session.queue.ofKind .delete,
      ¬ last.env.heap.Bears p.schema a.entity d.key :=
    fun a hA hDeleted => hNot ⟨a, hA, hDeleted⟩
  have hEntry := h.entry_of_kept hKept
  have hHeld := (((h.lists hRegular).mem d).1 hD).1
  exact ⟨d.ref, (congrArg Context.Entry.entity? hEntry).trans
    (h.within d.key d.ref hHeld)⟩

end Staged

/-! ## Entities that have gone astray -/

/-- A dirty entity has not the key that it is looked after under when a flush
updates it. -/
def Astray (p : Persister) (scope : Scope σ) (d : Dirty) : Prop :=
  IsDirty p scope d ∧
    ¬ ((Session.flush p).run scope).2.heap.Bears p.schema d.ref d.key

/-- A flush leaves no snapshot of nothing unless an entity has gone astray. -/
theorem backed_of_flush (hRegular : scope.session.Regular)
    (hBacked : scope.session.context.Backed)
    (hHome : ∀ d, ¬ Astray p scope d) :
    ((flush p).run scope).2.session.context.Backed := by
  have hFlushed := flushed p scope
  rcases hRun : (flush p).run scope with ⟨e | _, after⟩
  · rw [hRun] at hFlushed
    rw [(restored_of_flushed hFlushed).context]
    exact hBacked
  · rw [hRun] at hFlushed
    obtain ⟨dirty, conn, begun, mid, last, hStaged, hContext, hHeap⟩ :=
      staged_of_flushed hRegular hFlushed
    rw [hContext]
    refine hStaged.backed_of_bears hRegular hBacked fun d hD => ?_
    by_contra hNot
    refine hHome d ⟨((hStaged.lists hRegular).mem d).1 hD, ?_⟩
    rw [hRun, hHeap]
    exact hNot

/-- A load takes snapshots of what it registers. -/
theorem keeps_backed (L : Loader) : L.Keeps (fun _ _ => True)
    fun work : Work σ => work.context.Backed where
  query := fun _ _ hI => ⟨hI, fun _ _ _ _ => trivial⟩
  register := fun _ _ _ _ _ hI => hI.register _ _ _
  assign := fun _ _ _ _ hI => hI
  inspect := fun _ hI => hI

theorem backed_of_withLoader {α : Type} {shared : Bool}
    {load : Loader → Step (Work σ) α}
    (h : scope.session.context.Backed) (hLoad : Loader.Leading load) :
    ((withLoader p shared load).run scope).2.session.context.Backed := by
  have hStart : (loadStart shared scope).Backed := by
    cases shared with
    | true => exact h
    | false => exact .empty
  have hLoaded := loaded p shared load scope fun _ _ _ =>
    hLoad (keeps_backed _) hStart
  generalize (withLoader p shared load).run scope = result at hLoaded ⊢
  obtain ⟨r, after⟩ := result
  cases hLoaded with
  | unconnected _ _ => exact h
  | failed _ _ => exact h
  | done _ hI _ _ =>
      cases shared with
      | true => exact hI
      | false => exact h

/-- Every request leaves each snapshot that of an entity unless it flushes an
entity that has gone astray. -/
theorem backed_of_perform {op : Operation} (hRegular : scope.session.Regular)
    (hBacked : scope.session.context.Backed)
    (hHome : op.flushes = true → ∀ d, ¬ Astray p scope d) :
    (op.perform p scope).session.context.Backed := by
  refine perform_keeps (I := fun scope => scope.session.context.Backed) hBacked
    (fun ref _ => ?_) (fun ref _ => ?_)
    (fun hOp => backed_of_flush hRegular hBacked (hHome hOp))
    (fun _ _ hLoad _ hS => backed_of_withLoader hS hLoad)
    (fun _ _ _ hS => hS) (fun _ _ _ => .empty)
    (fun _ s hS => ?_) (fun _ s hS => ?_)
  · exact persist_keeps (I := fun s => s.session.context.Backed) hBacked hBacked
  · exact remove_keeps (I := fun s => s.session.context.Backed) hBacked hBacked
  · rw [(keeping_releaseConnection s).context]
    exact hS
  · rw [(rolledBack s).keeping.context]
    exact hS

/-! ## Runs -/

/-- On every run, whatever the application does to the fields of its entities:
each UPDATE that a flush sends, whatever comes of it, is that of a dirty entity
and writes the row of the key that the entity has by then; so it is the row of
the key that the entity is looked after under exactly if the entity has not
gone astray. A flush that succeeds leaves no snapshot of nothing exactly if
each key that a dirty entity has is that of one which is looked after, or was
deleted. And as long as no flush finds an entity that has gone astray, each
snapshot is that of an entity. -/
theorem updates_follow_keys {Allowed : Scope σ → Operation → Prop}
    {start : Scope σ} (hContext : start.session.context = {})
    (hQueue : start.session.queue = {})
    (hHanded : ∀ s op, Allowed s op → Handed s op)
    (hReaches : Reaches p Allowed Edits start scope) {r : Except Error Unit}
    (hRun : (flush p).run scope = (r, after)) :
    (∃ conn calls, scope.env.Made conn calls after.env ∧
      ∀ c ∈ calls, c.isUpdate = true → ∃ d, IsDirty p scope d ∧
        Action.call? p.schema after.heap ⟨.update, d.ref⟩ = .ok (some c) ∧
        (∀ key, key.type = d.key.type →
          (c.UpdatesRow p.schema key ↔ after.heap.Bears p.schema d.ref key)) ∧
        (c.UpdatesRow p.schema d.key ↔ ¬ Astray p scope d)) ∧
    (r = .ok () → scope.session.context.Backed →
      (after.session.context.Backed ↔ ∀ d key, IsDirty p scope d →
        after.heap.Bears p.schema d.ref key →
          (∃ ref, after.session.context.get? key = some ref) ∨
            ∃ a ∈ scope.session.queue.ofKind .delete,
              after.heap.Bears p.schema a.entity key)) ∧
    ((∀ s op, Allowed s op → op.flushes = true → ∀ d, ¬ Astray p s d) →
      scope.session.context.Backed) := by
  have hStart : start.session.Regular := regular_of_empty hContext hQueue
  have hRegular : scope.session.Regular := regular_of_reaches hReaches hStart
  have hFlushed := flushed p scope
  rw [hRun] at hFlushed
  refine ⟨?_, ?_, ?_⟩
  · have hPlaced : Placed scope := by
      refine placed_of_reaches hHanded ?_ hReaches
      refine Placed.of_entities (fun key ref hGet => ?_) hQueue
      rw [hContext] at hGet
      cases hGet
    obtain ⟨conn, calls, hMade, hUpdates⟩ := updates_of_flushed hRegular hFlushed
    refine ⟨conn, calls, hMade, fun c hC hUpdate => ?_⟩
    obtain ⟨d, hDirty, hPlan⟩ := hUpdates c hC hUpdate
    have hType : (after.heap.get d.ref).type = d.key.type := by
      rw [(keyed_of_flushed hFlushed).type]
      exact hPlaced.typed d.key d.ref hDirty.1
    have hRows : ∀ key, key.type = d.key.type →
        (c.UpdatesRow p.schema key ↔ after.heap.Bears p.schema d.ref key) :=
      fun key hKey => Action.updatesRow_iff (hType.trans hKey.symm) hPlan
    refine ⟨d, hDirty, hPlan, hRows, ?_⟩
    rw [hRows d.key rfl, Astray, hRun]
    exact ⟨fun hBears hAstray => hAstray.2 hBears,
      fun hHome => by_contra fun hNot => hHome ⟨hDirty, hNot⟩⟩
  · rintro rfl hBacked
    obtain ⟨dirty, conn, begun, mid, last, hStaged, hLeft, hHeap⟩ :=
      staged_of_flushed hRegular hFlushed
    rw [hLeft, hHeap, hStaged.backed_iff hRegular hBacked]
    have hMem := (hStaged.lists hRegular).mem
    exact ⟨fun h d key hDirty => h d ((hMem d).2 hDirty) key,
      fun h d hD key => h d key ((hMem d).1 hD)⟩
  · intro hHome
    refine (hReaches.invariant
      (I := fun s => s.session.Regular ∧ s.session.context.Backed)
      (fun s op ⟨hRegular, hBacked⟩ hAllowed => ⟨hRegular.perform op,
        backed_of_perform hRegular hBacked (hHome s op hAllowed)⟩)
      (fun _ _ h _ => h) ⟨hStart, ?_⟩).2
    rw [hContext]
    exact .empty

end Session

namespace Notes

/-- A session that looks after the first of two notes. -/
def first : Scope Store :=
  (Operation.find "Note" (.int 1)).perform persister
    (scope [[.int 1, .text "a"], [.int 2, .text "b"]] [] { id := 0 })

/-- The note has been given the number of the other one. -/
def renumbered : Backend Store :=
  { first.backend with
    env := first.env.update 0 fun e => e.set "id" (.scalar (.int 2)) }

/-- The session with the note that has gone astray. -/
def strayed : Scope Store := { first with backend := renumbered }

theorem edits_renumbered : Session.Edits first renumbered :=
  ⟨Nat.le_of_eq (Heap.next_modify ..).symm,
    fun _ _ => Heap.type_modify_set ..⟩

theorem reaches_strayed : Session.Reaches persister Session.Handed Session.Edits
    (scope [[.int 1, .text "a"], [.int 2, .text "b"]] [] { id := 0 }) strayed :=
  (Session.Reaches.start.operation (.find "Note" (.int 1)) trivial).outside
    renumbered edits_renumbered

theorem entities_strayed : strayed.session.context.entities =
    [(⟨"Note", .int 1⟩, 0)] := by
  decide +kernel

/-- The only entity that is looked after is the first note. -/
theorem get?_strayed {key : Key} {ref : Ref}
    (hGet : strayed.session.context.get? key = some ref) :
    key = ⟨"Note", .int 1⟩ ∧ ref = 0 := by
  have hMem := Assoc.mem_of_lookup hGet
  rw [entities_strayed] at hMem
  cases List.mem_singleton.1 hMem
  exact ⟨rfl, rfl⟩

theorem backed_strayed : strayed.session.context.Backed := by
  have hKeys : Assoc.keys strayed.session.context.snapshots =
      [⟨"Note", .int 1⟩] := by decide +kernel
  intro key values hSnapshot
  have hMem : key ∈ Assoc.keys strayed.session.context.snapshots :=
    (Assoc.lookup_isSome_iff ..).1 (Option.isSome_of_eq_some hSnapshot)
  rw [hKeys] at hMem
  rw [List.mem_singleton.1 hMem, Context.get?, entities_strayed]
  exact ⟨0, rfl⟩

end Notes

/-- The update of a note whose number was edited overwrites the other note,
and leaves a snapshot for which there is no entity. -/
theorem Session.updates_follow_keys_of_notes :
    (∃ conn calls, Notes.strayed.env.Made conn calls
        ((flush Notes.persister).run Notes.strayed).2.env ∧
      ∃ c ∈ calls, c.UpdatesRow Notes.schema ⟨"Note", .int 2⟩ ∧
        ¬ c.UpdatesRow Notes.schema ⟨"Note", .int 1⟩) ∧
    Notes.strayed.session.context.Backed ∧
    ¬ ((flush Notes.persister).run
      Notes.strayed).2.session.context.Backed := by
  have hRun : (flush Notes.persister).run Notes.strayed =
      (.ok (), ((flush Notes.persister).run Notes.strayed).2) :=
    run_eq_of_isOk (by decide +kernel)
  obtain ⟨⟨conn, calls, hMade, hUpdates⟩, hBackedIff, _⟩ :=
    updates_follow_keys rfl rfl (fun _ _ hHanded => hHanded)
      Notes.reaches_strayed hRun
  have hTwo : ((flush Notes.persister).run Notes.strayed).2.heap.Bears
      Notes.schema 0 ⟨"Note", .int 2⟩ := by decide +kernel
  have hSent : ((((flush Notes.persister).run
      Notes.strayed).2.env.trace.drop Notes.strayed.env.trace.length).any
        fun made => made.2.isUpdate) = true := by decide +kernel
  rw [hMade.trace, List.drop_left, Call.on, List.any_map] at hSent
  obtain ⟨c, hC, hUpdate⟩ := List.any_eq_true.1 hSent
  obtain ⟨d, hDirty, _, hRows, _⟩ := hUpdates c hC hUpdate
  obtain ⟨hKey, hRef⟩ := Notes.get?_strayed hDirty.1
  rw [← hRef] at hTwo
  refine ⟨⟨conn, calls, hMade, c, hC, ?_, fun hFirst => ?_⟩,
    Notes.backed_strayed, fun hAfter => ?_⟩
  · exact (hRows ⟨"Note", .int 2⟩ (by rw [hKey])).2 hTwo
  · have hOne := (hRows ⟨"Note", .int 1⟩ (by rw [hKey])).1 hFirst
    exact absurd (hOne.unique hTwo) (by decide)
  · rcases (hBackedIff rfl Notes.backed_strayed).1 hAfter d _ hDirty hTwo with
      ⟨ref, hGet⟩ | ⟨a, hA, _⟩
    · have hFree : ((flush Notes.persister).run
          Notes.strayed).2.session.context.get? ⟨"Note", .int 2⟩ = none := by
        decide +kernel
      rw [hFree] at hGet
      cases hGet
    · have hKept : Notes.strayed.session.queue.ofKind .delete = [] := by
        decide +kernel
      rw [hKept] at hA
      cases hA

end UnitOfWork

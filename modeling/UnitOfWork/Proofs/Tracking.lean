import UnitOfWork.Proofs.FlushOrder

/-!
# What becomes of inserted entities

The key of an entity that is inserted is known when its row has been written,
and the entity is looked after only if no other one is under its key by then.
What actions leave under a key can be computed from what was there before and
the keys that their entities have in the end (`Action.executeAll_entry`). So it
can be told of each inserted entity whether another one forestalls it
(`Session.Forestalled`); if none does, the entity can be removed and its edits
are written.

## Main results

* `Action.executeAll_entry`: what actions leave under a key;
* `Session.entity?_foldl_ordered_iff`: which inserted entities are looked after;
* `Session.inserted_is_tracked`: what becomes of an inserted entity.
-/

namespace UnitOfWork

variable {σ : Type} {schema : Schema} {heap after : Heap} {ref : Ref}
  {key : Key}

/-! ## Keys that are computed -/

namespace Heap

/-- The key of an instance, if it has one. -/
def keyOf? (schema : Schema) (heap : Heap) (ref : Ref) : Option Key :=
  match schema.descriptor (heap.get ref).type with
  | .error _ => none
  | .ok d =>
    match d.entityId (heap.get ref) with
    | .ok (some id) => some ⟨(heap.get ref).type, id⟩
    | _ => none

theorem keyOf?_eq_some_iff :
    heap.keyOf? schema ref = some key ↔ heap.Bears schema ref key := by
  obtain ⟨type, id⟩ := key
  constructor
  · intro h
    unfold keyOf? at h
    split at h
    · cases h
    · rename_i d hD
      split at h
      · rename_i hId
        cases h
        exact ⟨rfl, d, hD, hId⟩
      · cases h
  · rintro ⟨hType, d, hD, hId⟩
    have hOwn : schema.descriptor (heap.get ref).type = .ok d := by
      rw [hType]
      exact hD
    rw [keyOf?, hOwn]
    simp only [hId, hType]

/-- Whether an instance has a key can be computed. -/
instance : Decidable (heap.Bears schema ref key) :=
  decidable_of_iff _ keyOf?_eq_some_iff

theorem bears_congr (hGet : after.get ref = heap.get ref) :
    after.Bears schema ref key ↔ heap.Bears schema ref key := by
  rw [Bears, Bears, hGet]

theorem entityKey_of_get_eq (hGet : after.get ref = heap.get ref) :
    after.entityKey schema ref = heap.entityKey schema ref := by
  rw [entityKey, entityKey, describe, describe, hGet]

end Heap

/-! ## What is under a key -/

/-- What a context has under a key. -/
structure Context.Entry where
  entity? : Option Ref
  values? : Option (List Value)

namespace Context

/-- The entity and the snapshot under a key. -/
def entry (ctx : Context) (key : Key) : Entry :=
  ⟨ctx.get? key, ctx.snapshot? key⟩

variable (ctx : Context) {other : Key}

theorem entry_register_self (ref : Ref) (values : List Value) :
    (ctx.register key ref values).entry key = ⟨some ref, some values⟩ := by
  simp [entry, get?, snapshot?, register]

theorem entry_register_ne (hNe : other ≠ key) (ref : Ref)
    (values : List Value) :
    (ctx.register key ref values).entry other = ctx.entry other := by
  simp [entry, get?, snapshot?, register, Assoc.lookup_insert_ne hNe]

theorem entry_store_self (values : List Value) :
    (ctx.store key values).entry key =
      { ctx.entry key with values? := some values } := by
  simp [entry, get?, snapshot?, store]

theorem entry_store_ne (hNe : other ≠ key) (values : List Value) :
    (ctx.store key values).entry other = ctx.entry other := by
  simp [entry, get?, snapshot?, store, Assoc.lookup_insert_ne hNe]

theorem entry_forget_self : (ctx.forget key).entry key = ⟨none, none⟩ := by
  simp [entry, get?, snapshot?, forget]

theorem entry_forget_ne (hNe : other ≠ key) :
    (ctx.forget key).entry other = ctx.entry other := by
  simp [entry, get?, snapshot?, forget, Assoc.lookup_erase_ne hNe]

end Context

namespace Action

/-- What an action leaves under a key. It concerns the key of its entity only:
an insert puts the entity there unless another one is there already, an update
takes a snapshot, and a delete takes everything away. -/
def leave (schema : Schema) (heap : Heap) (key : Key) (entry : Context.Entry)
    (action : Action) : Context.Entry :=
  if heap.Bears schema action.entity key then
    match action.kind with
    | .insert =>
      match entry.entity? with
      | some _ => entry
      | none => ⟨some action.entity,
        (heap.snapshot schema action.entity).toOption⟩
    | .update =>
      { entry with values? := (heap.snapshot schema action.entity).toOption }
    | .delete => ⟨none, none⟩
  else entry

/-- Only the entity of the action counts. -/
theorem leave_of_get_eq {action : Action}
    (hGet : after.get action.entity = heap.get action.entity)
    (entry : Context.Entry) :
    leave schema after key entry action =
      leave schema heap key entry action := by
  unfold leave
  rw [Heap.snapshot_of_get_eq hGet]
  exact if_congr (Heap.bears_congr hGet) rfl rfl

/-- A context follows an action as computed. -/
theorem entry_of_follow {p : Persister} {action : Action} {ctx next : Context}
    (h : action.follow p heap ctx = .ok next) (key : Key) :
    next.entry key = leave p.schema heap key (ctx.entry key) action := by
  obtain ⟨kind, ref⟩ := action
  unfold leave
  cases kind with
  | insert =>
      obtain ⟨resident, hCache⟩ := follow_insert h
      obtain ⟨own, hBears, hCases⟩ := Context.Coherent.cache_cases hCache
      by_cases hKey : heap.Bears p.schema ref key
      · have hOwn : own = key := hBears.unique hKey
        subst hOwn
        rw [if_pos hKey]
        rcases hCases with ⟨hTaken, rfl⟩ | ⟨hFree, _, values, hValues, rfl⟩
        · simp only [Context.entry, hTaken]
        · rw [Context.entry_register_self]
          simp only [Context.entry, hFree, hValues, Except.toOption]
      · rw [if_neg hKey]
        have hNe : key ≠ own := fun hEq => hKey (hEq ▸ hBears)
        rcases hCases with ⟨_, rfl⟩ | ⟨_, _, values, _, rfl⟩
        · rfl
        · exact ctx.entry_register_ne hNe ref values
  | update =>
      obtain ⟨own, values, hBears, hValues, rfl⟩ :=
        Context.Coherent.refresh_cases h
      by_cases hKey : heap.Bears p.schema ref key
      · have hOwn : own = key := hBears.unique hKey
        subst hOwn
        rw [if_pos hKey, Context.entry_store_self]
        simp only [hValues, Except.toOption]
      · rw [if_neg hKey]
        have hNe : key ≠ own := fun hEq => hKey (hEq ▸ hBears)
        exact ctx.entry_store_ne hNe values
  | delete =>
      by_cases hKey : heap.Bears p.schema ref key
      · rw [if_pos hKey, Context.Coherent.remove_of_bears hKey h]
        exact ctx.entry_forget_self
      · rw [if_neg hKey]
        rcases Context.Coherent.remove_cases h with rfl | ⟨own, hBears, rfl⟩
        · rfl
        · have hNe : key ≠ own := fun hEq => hKey (hEq ▸ hBears)
          exact ctx.entry_forget_ne hNe

/-! ## What actions leave under a key -/

section

variable {actions : List Action} {entry : Context.Entry}

/-- Entities with other keys do not count. -/
theorem foldl_leave_of_not_bears
    (h : ∀ a ∈ actions, ¬ heap.Bears schema a.entity key) :
    actions.foldl (leave schema heap key) entry = entry := by
  induction actions with
  | nil => rfl
  | cons a rest ih =>
      have hFirst : leave schema heap key entry a = entry :=
        if_neg (h a (List.mem_cons_self ..))
      rw [List.foldl_cons, hFirst]
      exact ih fun b hB => h b (List.mem_cons_of_mem _ hB)

/-- Inserts leave alone what is under the key already. -/
theorem foldl_leave_of_held {resident : Ref}
    (hHeld : entry.entity? = some resident)
    (h : ∀ a ∈ actions, heap.Bears schema a.entity key → a.kind = .insert) :
    actions.foldl (leave schema heap key) entry = entry := by
  induction actions with
  | nil => rfl
  | cons a rest ih =>
      have hFirst : leave schema heap key entry a = entry := by
        unfold leave
        by_cases hKey : heap.Bears schema a.entity key
        · rw [if_pos hKey, h a (List.mem_cons_self ..) hKey]
          simp only [hHeld]
        · rw [if_neg hKey]
      rw [List.foldl_cons, hFirst]
      exact ih fun b hB => h b (List.mem_cons_of_mem _ hB)

/-- An entity that is there stays there unless one with its key is deleted. -/
theorem entity?_foldl_leave {resident : Ref}
    (hHeld : entry.entity? = some resident)
    (h : ∀ a ∈ actions, heap.Bears schema a.entity key → a.kind ≠ .delete) :
    (actions.foldl (leave schema heap key) entry).entity? = some resident := by
  induction actions generalizing entry with
  | nil => exact hHeld
  | cons a rest ih =>
      rw [List.foldl_cons]
      refine ih ?_ fun b hB => h b (List.mem_cons_of_mem _ hB)
      unfold leave
      by_cases hKey : heap.Bears schema a.entity key
      · rw [if_pos hKey]
        cases hKind : a.kind with
        | insert => simp only [hHeld]
        | update => exact hHeld
        | delete => exact absurd hKind (h a (List.mem_cons_self ..) hKey)
      · rw [if_neg hKey]
        exact hHeld

/-- Of inserts whose key is free the first one takes it. -/
theorem exists_entity?_foldl_leave (hFree : entry.entity? = none)
    (hInserts : ∀ a ∈ actions, a.kind = .insert)
    (hBears : ∃ a ∈ actions, heap.Bears schema a.entity key) :
    ∃ a ∈ actions, heap.Bears schema a.entity key ∧
      (actions.foldl (leave schema heap key) entry).entity? =
        some a.entity := by
  induction actions with
  | nil =>
      obtain ⟨a, hMem, _⟩ := hBears
      cases hMem
  | cons a rest ih =>
      have hRest : ∀ b ∈ rest, b.kind = .insert := fun b hB =>
        hInserts b (List.mem_cons_of_mem _ hB)
      rw [List.foldl_cons]
      by_cases hKey : heap.Bears schema a.entity key
      · have hTaken : (leave schema heap key entry a).entity? =
            some a.entity := by
          rw [leave, if_pos hKey, hInserts a (List.mem_cons_self ..)]
          simp only [hFree]
        refine ⟨a, List.mem_cons_self .., hKey,
          entity?_foldl_leave hTaken fun b hB _ => ?_⟩
        rw [hRest b hB]
        simp
      · have hFirst : leave schema heap key entry a = entry := if_neg hKey
        rw [hFirst]
        obtain ⟨b, hB, hBearsB⟩ := hBears
        have hLater : b ∈ rest := by
          rcases List.mem_cons.1 hB with rfl | hLater
          · exact absurd hBearsB hKey
          · exact hLater
        obtain ⟨c, hC, hFound⟩ := ih hRest ⟨b, hLater, hBearsB⟩
        exact ⟨c, List.mem_cons_of_mem _ hC, hFound⟩

/-- Deletes leave nothing under the key of one of their entities. -/
theorem entity?_foldl_leave_deletes
    (hDeletes : ∀ a ∈ actions, a.kind = .delete)
    (h : entry.entity? = none ∨
      ∃ a ∈ actions, heap.Bears schema a.entity key) :
    (actions.foldl (leave schema heap key) entry).entity? = none := by
  induction actions generalizing entry with
  | nil =>
      rcases h with hFree | ⟨a, hMem, _⟩
      · exact hFree
      · cases hMem
  | cons a rest ih =>
      rw [List.foldl_cons]
      refine ih (fun b hB => hDeletes b (List.mem_cons_of_mem _ hB)) ?_
      unfold leave
      by_cases hKey : heap.Bears schema a.entity key
      · rw [if_pos hKey, hDeletes a (List.mem_cons_self ..)]
        exact Or.inl rfl
      · rw [if_neg hKey]
        rcases h with hFree | ⟨b, hB, hBears⟩
        · exact Or.inl hFree
        · rcases List.mem_cons.1 hB with rfl | hLater
          · exact absurd hBears hKey
          · exact Or.inr ⟨b, hLater, hBears⟩

end

/-! ## Carrying actions out -/

variable [Driver σ] {p : Persister} {conn : ConnId} {actions : List Action}

/-- The entity of no action is inserted later on. -/
def Once (actions : List Action) : Prop :=
  actions.Pairwise fun a b => b ≠ ⟨.insert, a.entity⟩

/-- An instance that is not inserted stays what it is. -/
theorem get_of_executeAll {work last : Work σ}
    (hNew : ∀ a ∈ actions, a ≠ ⟨.insert, ref⟩)
    (hRun : (executeAll p conn actions).run work = (.ok (), last)) :
    last.env.heap.get ref = work.env.heap.get ref := by
  have hUnderway := executeAll_underway p conn actions work
  rw [hRun] at hUnderway
  exact (hUnderway.keyed.get ref).resolve_right fun hChanged =>
    hNew _ hChanged.1 rfl

/-- Carrying out actions leaves under a key what is computed from the keys
that their entities have in the end. -/
theorem executeAll_entry {work last : Work σ} (hOnce : Once actions)
    (hRun : (executeAll p conn actions).run work = (.ok (), last))
    (key : Key) :
    last.context.entry key =
      actions.foldl (leave p.schema last.env.heap key)
        (work.context.entry key) := by
  induction actions generalizing work with
  | nil =>
      cases hRun
      rfl
  | cons action rest ih =>
      obtain ⟨hNew, hRest⟩ := List.pairwise_cons.1 hOnce
      obtain ⟨mid, hFollow, hGo⟩ := executeAll_cons_ok hRun
      have hGet := get_of_executeAll hNew hGo
      rw [List.foldl_cons, leave_of_get_eq hGet, ← entry_of_follow hFollow]
      exact ih hRest hGo

/-- Each inserted entity has a key in the end. -/
theorem exists_entityKey_of_inserted {work last : Work σ}
    (hOnce : Once actions) (hMem : ⟨.insert, ref⟩ ∈ actions)
    (hRun : (executeAll p conn actions).run work = (.ok (), last)) :
    ∃ key, last.env.heap.entityKey p.schema ref = .ok (some key) := by
  induction actions generalizing work with
  | nil => cases hMem
  | cons action rest ih =>
      obtain ⟨hNew, hRest⟩ := List.pairwise_cons.1 hOnce
      obtain ⟨mid, hFollow, hGo⟩ := executeAll_cons_ok hRun
      rcases List.mem_cons.1 hMem with rfl | hLater
      · obtain ⟨resident, hCache⟩ := follow_insert hFollow
        obtain ⟨key, hKey, _⟩ := except_bind_eq_ok.1 hCache
        refine ⟨key, ?_⟩
        rw [Heap.entityKey_of_get_eq (get_of_executeAll hNew hGo)]
        exact Context.Coherent.requireKey_eq_ok hKey
      · exact ih hRest hLater hGo

end Action

/-! ## Inserted entities -/

namespace Session

/-- Why an entity that was inserted, after some others, and has got a key does
not come to be looked after. -/
inductive Forestalled (p : Persister) (s : Session) (heap : Heap)
    (earlier : List Action) (ref : Ref) (key : Key) : Prop
  /-- Another entity has been looked after under the key. -/
  | taken {other : Ref} (hTaken : s.context.get? key = some other)
      (hNe : other ≠ ref)
  /-- An entity that was inserted before has the key, too. -/
  | overtaken {insert : Action} (hFree : s.context.get? key = none)
      (hEarlier : insert ∈ earlier)
      (hBears : heap.Bears p.schema insert.entity key)
  /-- An entity with the key was deleted. -/
  | deleted {delete : Action} (hDelete : delete ∈ s.queue.ofKind .delete)
      (hBears : heap.Bears p.schema delete.entity key)

section

variable {p : Persister} {s : Session} {earlier later : List Action}
  {dirty : List Dirty}

/-- If no insert waits twice, no entity is inserted later on in a flush. -/
theorem once_ordered (hNodup : (s.queue.ofKind .insert).Nodup)
    (dirty : List Dirty) : Action.Once (s.ordered dirty) := by
  have hOther : ∀ {a b : Action}, b.kind ≠ .insert →
      b ≠ ⟨.insert, a.entity⟩ := by
    rintro a b hKind rfl
    exact hKind rfl
  have hUpdate : ∀ b ∈ dirty.map fun d => (⟨.update, d.ref⟩ : Action),
      b.kind ≠ .insert := by
    intro b hB
    obtain ⟨d, _, rfl⟩ := List.mem_map.1 hB
    simp
  have hDelete : ∀ b ∈ s.queue.ofKind .delete, b.kind ≠ .insert := by
    intro b hB
    rw [Queue.kind_of_mem_ofKind hB]
    simp
  have hAmong : ∀ {actions : List Action},
      (∀ b ∈ actions, b.kind ≠ .insert) →
        actions.Pairwise fun a b => b ≠ ⟨.insert, a.entity⟩ := by
    intro actions hNone
    exact List.Pairwise.imp_of_mem (fun _ hB _ => hOther (hNone _ hB))
      (List.pairwise_of_forall fun _ _ => trivial)
  refine List.pairwise_append.2 ⟨List.pairwise_append.2
    ⟨?_, hAmong hUpdate, fun a _ b hB => hOther (hUpdate b hB)⟩,
    hAmong hDelete, fun a _ b hB => hOther (hDelete b hB)⟩
  refine List.Pairwise.imp_of_mem ?_ hNodup
  rintro ⟨kind, entity⟩ b hA _ hNe rfl
  have hKind : kind = .insert := Queue.kind_of_mem_ofKind hA
  exact hNe (by rw [hKind])

/-- What a flush does before and after the insert of an entity. -/
theorem exists_rest_ordered (dirty : List Dirty)
    (hInserts : s.queue.ofKind .insert =
      earlier ++ ⟨.insert, ref⟩ :: later) :
    ∃ rest, s.ordered dirty =
        earlier ++ ⟨.insert, ref⟩ :: rest ++ s.queue.ofKind .delete ∧
      (∀ a ∈ earlier, a.kind = .insert) ∧
      ∀ a ∈ rest, a.kind = .insert ∨ ∃ d ∈ dirty, a = ⟨.update, d.ref⟩ := by
  have hKind : ∀ a ∈ earlier ++ ⟨.insert, ref⟩ :: later,
      a.kind = .insert := by
    rw [← hInserts]
    exact fun a hA => Queue.kind_of_mem_ofKind hA
  refine ⟨later ++ dirty.map fun d => ⟨.update, d.ref⟩, ?_, ?_, ?_⟩
  · rw [ordered, hInserts]
    simp
  · exact fun a hA => hKind a (List.mem_append_left _ hA)
  · intro a hA
    rcases List.mem_append.1 hA with hLater | hUpdate
    · exact Or.inl (hKind a
        (List.mem_append_right _ (List.mem_cons_of_mem _ hLater)))
    · obtain ⟨d, hD, rfl⟩ := List.mem_map.1 hUpdate
      exact Or.inr ⟨d, hD, rfl⟩

variable {entry : Context.Entry}

/-- If no entity with its key is deleted, an inserted entity is there in the
end, or the one that was there when its turn came. -/
theorem entity?_foldl_ordered (hKey : heap.Bears p.schema ref key)
    (hInserts : s.queue.ofKind .insert = earlier ++ ⟨.insert, ref⟩ :: later)
    (hKept : ∀ a ∈ s.queue.ofKind .delete,
      ¬ heap.Bears p.schema a.entity key) :
    ((s.ordered dirty).foldl (Action.leave p.schema heap key)
      entry).entity? =
        some ((earlier.foldl (Action.leave p.schema heap key)
          entry).entity?.getD ref) := by
  obtain ⟨rest, hOrdered, _, hRest⟩ := exists_rest_ordered dirty hInserts
  rw [hOrdered, List.foldl_append, List.foldl_append, List.foldl_cons,
    Action.foldl_leave_of_not_bears hKept]
  generalize earlier.foldl (Action.leave p.schema heap key) entry = turn
  refine Action.entity?_foldl_leave ?_ fun a hA _ => ?_
  · rw [Action.leave, if_pos hKey]
    cases hTurn : turn.entity? with
    | none => rfl
    | some resident => exact hTurn
  · rcases hRest a hA with hInsert | ⟨d, _, rfl⟩
    · rw [hInsert]
      simp
    · simp

/-- When the turn of an insert comes, no other entity is under its key exactly
if none was there before, or else no entity inserted earlier has the key. -/
theorem getD_foldl_earlier_iff (hEntry : entry.entity? = s.context.get? key)
    (hNodup : (s.queue.ofKind .insert).Nodup)
    (hInserts : s.queue.ofKind .insert =
      earlier ++ ⟨.insert, ref⟩ :: later) :
    (earlier.foldl (Action.leave p.schema heap key) entry).entity?.getD ref =
        ref ↔
      (∀ resident, s.context.get? key = some resident → resident = ref) ∧
      (s.context.get? key = none →
        ∀ a ∈ earlier, ¬ heap.Bears p.schema a.entity key) := by
  obtain ⟨_, _, hEarlier, _⟩ := exists_rest_ordered [] hInserts
  cases hStart : s.context.get? key with
  | some resident =>
      have hThere : (earlier.foldl (Action.leave p.schema heap key)
          entry).entity? = some resident := by
        refine Action.entity?_foldl_leave (hEntry.trans hStart) ?_
        intro a hA _
        rw [hEarlier a hA]
        simp
      rw [hThere, Option.getD_some]
      simp
  | none =>
      have hFree : entry.entity? = none := hEntry.trans hStart
      by_cases hBefore : ∃ a ∈ earlier, heap.Bears p.schema a.entity key
      · obtain ⟨a, hMem, hBears, hThere⟩ :=
          Action.exists_entity?_foldl_leave hFree hEarlier hBefore
        have hNe : a.entity ≠ ref := by
          have hApart := (List.nodup_append.1 (hInserts ▸ hNodup)).2.2 a hMem
            ⟨.insert, ref⟩ (List.mem_cons_self ..)
          intro hEq
          refine hApart ?_
          rw [← hEarlier a hMem, ← hEq]
        rw [hThere, Option.getD_some]
        exact iff_of_false hNe fun hNone => hNone.2 rfl a hMem hBears
      · have hNone : ∀ a ∈ earlier, ¬ heap.Bears p.schema a.entity key :=
          fun a hA hBears => hBefore ⟨a, hA, hBears⟩
        rw [Action.foldl_leave_of_not_bears hNone, hFree]
        exact iff_of_true rfl ⟨nofun, fun _ => hNone⟩

/-- An inserted entity is under its key when all has been done exactly if it
was not forestalled. -/
theorem entity?_foldl_ordered_iff (hEntry : entry.entity? = s.context.get? key)
    (hKey : heap.Bears p.schema ref key)
    (hNodup : (s.queue.ofKind .insert).Nodup)
    (hInserts : s.queue.ofKind .insert =
      earlier ++ ⟨.insert, ref⟩ :: later) :
    ((s.ordered dirty).foldl (Action.leave p.schema heap key) entry).entity? =
      some ref ↔ ¬ Forestalled p s heap earlier ref key := by
  obtain ⟨rest, hOrdered, _, _⟩ := exists_rest_ordered dirty hInserts
  by_cases hDeleted : ∃ a ∈ s.queue.ofKind .delete,
      heap.Bears p.schema a.entity key
  · refine iff_of_false ?_ fun hNot => ?_
    · rw [hOrdered, List.foldl_append, Action.entity?_foldl_leave_deletes
        (fun a hA => Queue.kind_of_mem_ofKind hA) (Or.inr hDeleted)]
      simp
    · obtain ⟨a, hMem, hBears⟩ := hDeleted
      exact hNot (.deleted hMem hBears)
  · have hKept : ∀ a ∈ s.queue.ofKind .delete,
        ¬ heap.Bears p.schema a.entity key := fun a hA hBears =>
      hDeleted ⟨a, hA, hBears⟩
    rw [entity?_foldl_ordered hKey hInserts hKept, Option.some_inj,
      getD_foldl_earlier_iff hEntry hNodup hInserts]
    constructor
    · rintro ⟨hOwn, hNone⟩
        (⟨hOther, hNe⟩ | ⟨hFree, hMem, hBears⟩ | ⟨hDelete, hBears⟩)
      · exact hNe (hOwn _ hOther)
      · exact hNone hFree _ hMem hBears
      · exact hKept _ hDelete hBears
    · intro hNot
      refine ⟨fun resident hStart => ?_, fun hFree a hMem hBears =>
        hNot (.overtaken hFree hMem hBears)⟩
      by_contra hNe
      exact hNot (.taken hStart hNe)

/-- The snapshot of an inserted entity is that of its values, if no entity that
was looked after before has its key. -/
theorem foldl_ordered_of_not_forestalled
    (hFree : entry.entity? = none)
    (hStart : s.context.get? key = none)
    (hKey : heap.Bears p.schema ref key)
    (hInserts : s.queue.ofKind .insert = earlier ++ ⟨.insert, ref⟩ :: later)
    (hNot : ¬ Forestalled p s heap earlier ref key)
    (hOthers : ∀ d ∈ dirty, ¬ heap.Bears p.schema d.ref key) :
    (s.ordered dirty).foldl (Action.leave p.schema heap key) entry =
      ⟨some ref, (heap.snapshot p.schema ref).toOption⟩ := by
  obtain ⟨rest, hOrdered, hEarlier, hRest⟩ :=
    exists_rest_ordered dirty hInserts
  have hBefore : ∀ a ∈ earlier, ¬ heap.Bears p.schema a.entity key :=
    fun a hA hBears => hNot (.overtaken hStart hA hBears)
  have hKept : ∀ a ∈ s.queue.ofKind .delete,
      ¬ heap.Bears p.schema a.entity key :=
    fun a hA hBears => hNot (.deleted hA hBears)
  have hTaken : Action.leave p.schema heap key entry ⟨.insert, ref⟩ =
      ⟨some ref, (heap.snapshot p.schema ref).toOption⟩ := by
    rw [Action.leave, if_pos hKey]
    simp only [hFree]
  rw [hOrdered, List.foldl_append, List.foldl_append, List.foldl_cons,
    Action.foldl_leave_of_not_bears hKept,
    Action.foldl_leave_of_not_bears hBefore, hTaken]
  refine Action.foldl_leave_of_held rfl fun a hA hBears => ?_
  rcases hRest a hA with hInsert | ⟨d, hD, rfl⟩
  · exact hInsert
  · exact absurd hBears (hOthers d hD)

end

variable [Driver σ] {p : Persister}

/-- A flush that succeeds with something waiting carries it out. -/
theorem executed_of_flushed {scope after : Scope σ}
    (hRegular : scope.session.Regular) (h : Flushed p scope (.ok ()) after)
    (hQueue : scope.session.queue ≠ {}) :
    ∃ dirty conn, ∃ start last : Work σ, ListsDirty p scope dirty ∧
      start.context.entities = scope.session.context.entities ∧
      (Action.executeAll p conn (scope.session.ordered dirty)).run start =
        (.ok (), last) ∧
      after.session.context = last.context ∧ after.heap = last.env.heap := by
  cases h with
  | idle _ _ hNone => exact absurd hNone hQueue
  | @committed dirty ctx conn pool work _ hDiff _ _ hRun =>
      rw [planned_eq_ordered hRegular] at hRun
      cases hRun with
      | committed _ hExecuted _ _ =>
          refine ⟨dirty, conn, _, _, listsDirty_of_diff hRegular hDiff, ?_,
            hExecuted, rfl, rfl⟩
          rw [context_opened, Context.entities_of_diff hDiff]

/-- After a flush that succeeds each inserted entity has a key, and what is
under it is what the actions of the flush leave there. -/
theorem exists_entry_of_flushed {scope after : Scope σ}
    (hRegular : scope.session.Regular)
    (hNodup : (scope.session.queue.ofKind .insert).Nodup)
    (h : Flushed p scope (.ok ()) after)
    (hWaits : ⟨.insert, ref⟩ ∈ scope.session.queue.ofKind .insert) :
    ∃ dirty key, ∃ entry : Context.Entry, ListsDirty p scope dirty ∧
      after.heap.entityKey p.schema ref = .ok (some key) ∧
      entry.entity? = scope.session.context.get? key ∧
      after.session.context.entry key =
        (scope.session.ordered dirty).foldl
          (Action.leave p.schema after.heap key) entry := by
  have hSome : scope.session.queue ≠ {} :=
    Queue.ne_empty_of_mem (List.mem_filter.1 hWaits).1
  obtain ⟨dirty, conn, begun, done, hLists, hEntities, hExecuted, hContext,
    hHeap⟩ := executed_of_flushed hRegular h hSome
  have hOnce := once_ordered hNodup dirty
  have hPlanned : ⟨.insert, ref⟩ ∈ scope.session.ordered dirty :=
    List.mem_append_left _ (List.mem_append_left _ hWaits)
  obtain ⟨key, hKey⟩ :=
    Action.exists_entityKey_of_inserted hOnce hPlanned hExecuted
  rw [hContext, hHeap]
  refine ⟨dirty, key, begun.context.entry key, hLists, hKey, ?_,
    Action.executeAll_entry hOnce hExecuted key⟩
  rw [Context.entry, Context.get?, hEntities]
  rfl

/-- After a flush that succeeds the session is open, and nothing waits. -/
theorem open_of_flushed {scope after : Scope σ}
    (h : Flushed p scope (.ok ()) after) :
    after.session.isOpen = true ∧ after.session.queue = {} := by
  cases h with
  | idle hOpen _ hQueue => exact ⟨hOpen, hQueue⟩
  | committed hOpen _ _ _ _ => exact ⟨hOpen, rfl⟩

omit [Driver σ] in
/-- An open session in a transaction removes the entities that are under their
own keys. -/
theorem remove_eq_ok_iff {scope : Scope σ}
    (hOpen : scope.session.isOpen = true)
    (hTransaction : scope.session.inTransaction = true)
    (hKey : scope.heap.entityKey p.schema ref = .ok (some key)) :
    ((remove p ref).run scope).1 = .ok () ↔
      scope.session.context.get? key = some ref := by
  have hContains : scope.session.context.contains p.schema scope.heap ref =
      .ok (scope.session.context.get? key == some ref) := by
    rw [Context.contains, hKey]
    rfl
  rw [remove_run hOpen hTransaction, hContains]
  by_cases hThere : scope.session.context.get? key = some ref
  · rw [hThere, beq_self_eq_true]
    exact iff_of_true rfl rfl
  · rw [beq_eq_false_iff_ne.2 hThere]
    exact iff_of_false (fun hNo => by cases hNo) hThere

end Session

/-! ## Edits -/

/-- An entity keeps its key and can be looked at, and one of its own columns
other than the identifier has another value. -/
structure Heap.Edited (schema : Schema) (ref : Ref) (key : Key)
    (before after : Heap) : Prop where
  bears : after.Bears schema ref key
  readable : (after.get ref).isReadable = true
  differs : ∃ d c, schema.descriptor key.type = .ok d ∧
    c ∈ d.scalarColumns ∧ c.isIdentifier = false ∧
      ((before.get ref).scalar c.field).equal
        ((after.get ref).scalar c.field) = false

namespace Heap.Edited

variable {p : Persister} {before : Heap} {scope : Scope σ}

/-- The update of an edited entity takes a call. -/
theorem sends (h : before.Edited schema ref key after) :
    Action.sends schema after ⟨.update, ref⟩ = true := by
  obtain ⟨d, c, hD, hC, hNot, _⟩ := h.differs
  have hUpdated : c ∈ d.updatedColumns := by
    refine (Descriptor.mem_scalarColumns hD hC).2.resolve_left ?_
    rintro rfl
    rw [Schema.isIdentifier_identifier hD] at hNot
    cases hNot
  rw [← h.bears.1] at hD
  simp only [Action.sends, hD]
  cases hColumns : d.updatedColumns with
  | nil =>
      rw [hColumns] at hUpdated
      cases hUpdated
  | cons _ _ => rfl

/-- An entity is dirty when it has been edited since its snapshot. -/
theorem isDirty (h : before.Edited p.schema ref key scope.heap)
    (hEntry : scope.session.context.entry key =
      ⟨some ref, (before.snapshot p.schema ref).toOption⟩)
    (hBefore : before.Bears p.schema ref key) :
    ∃ values, Session.IsDirty p scope ⟨key, ref, values⟩ := by
  obtain ⟨d, c, hD, hC, _, hDiffers⟩ := h.differs
  have hOwn : p.schema.descriptor (scope.heap.get ref).type = .ok d := by
    rw [h.bears.1]
    exact hD
  refine ⟨d.snapshot (scope.heap.get ref),
    congrArg Context.Entry.entity? hEntry,
    Heap.snapshot_eq_ok_iff.2 ⟨d, hOwn, h.readable, rfl⟩, ?_⟩
  have hSnapshot : scope.session.context.snapshot? key =
      (before.snapshot p.schema ref).toOption :=
    congrArg Context.Entry.values? hEntry
  rw [Context.isStale, hSnapshot]
  cases hValues : before.snapshot p.schema ref with
  | error e => rfl
  | ok values =>
      obtain ⟨d', hD', _, rfl⟩ := Heap.snapshot_eq_ok_iff.1 hValues
      rw [hBefore.1, hD] at hD'
      cases hD'
      cases hEqual : Value.equalAll (d.snapshot (before.get ref))
        (d.snapshot (scope.heap.get ref)) with
      | false => simp [Except.toOption, hEqual]
      | true =>
          have hSame := Value.equalAll_map_iff.1 hEqual c hC
          rw [hDiffers] at hSame
          cases hSame

end Heap.Edited

namespace Session

variable [Driver σ] {p : Persister}

/-- A flush that succeeds with nothing waiting sends the updates of the dirty
entities that take a call. -/
theorem update_of_dirty {scope last : Scope σ} {d : Dirty}
    (hRegular : scope.session.Regular) (hQueue : scope.session.queue = {})
    (hDirty : IsDirty p scope d)
    (hSends : Action.sends p.schema scope.heap ⟨.update, d.ref⟩ = true)
    (h : Flushed p scope (.ok ()) last) :
    ∃ conn calls c, scope.env.Made conn calls last.env ∧ c ∈ calls ∧
      Action.CarriedBy p.schema (fun _ => False) scope.heap
        ⟨.update, d.ref⟩ c := by
  obtain ⟨dirty, conn, pool, hLists, _, hMoved⟩ :=
    moved_of_flushed hRegular h (Or.inr ⟨d, hDirty⟩)
  have hOrdered : scope.session.ordered dirty =
      dirty.map fun d => ⟨.update, d.ref⟩ := by
    rw [ordered, hQueue]
    simp [Queue.ofKind]
  have hPlanned : ⟨.update, d.ref⟩ ∈ scope.session.ordered dirty := by
    rw [hOrdered]
    exact List.mem_map.2 ⟨d, (hLists.mem d).2 hDirty, rfl⟩
  have hNone : (fun ref => (⟨.insert, ref⟩ : Action) ∈
      scope.session.ordered dirty) = fun _ => False := by
    funext ref
    rw [hOrdered]
    simp
  obtain ⟨calls, c, hMade, hC, hCarried⟩ :=
    hMoved.call_of_mem (write_mem_flushMoves hPlanned hSends)
  rw [hNone] at hCarried
  exact ⟨conn, calls, c, hMade, hC, hCarried⟩

/-- An entity that a flush has inserted has a key, and unless it is forestalled
it is looked after under that key from then on. Just then it can be removed;
and if no entity that was looked after before has the key, a flush that
follows on an edit finds the entity dirty and, if it succeeds, sends its
update, whatever else has happened outside of the session. -/
theorem inserted_is_tracked {start scope after : Scope σ}
    (hContext : start.session.context = {}) (hQueue : start.session.queue = {})
    (hReaches : Reaches p (fun _ _ => True) (fun _ _ => True) start scope)
    (hNodup : (scope.session.queue.ofKind .insert).Nodup)
    {earlier later : List Action} {ref : Ref}
    (hInserts : scope.session.queue.ofKind .insert =
      earlier ++ ⟨.insert, ref⟩ :: later)
    (hRun : (flush p).run scope = (.ok (), after)) :
    ∃ key, after.heap.entityKey p.schema ref = .ok (some key) ∧
      (after.session.context.get? key = some ref ↔
        ¬ Forestalled p scope.session after.heap earlier ref key) ∧
      (((remove p ref).run (Operation.begin.perform p after)).1 = .ok () ↔
        ¬ Forestalled p scope.session after.heap earlier ref key) ∧
      (¬ Forestalled p scope.session after.heap earlier ref key →
        (∀ other resident, scope.session.context.get? other = some resident →
          ¬ after.heap.Bears p.schema resident key) →
        ∀ backend : Backend σ,
          after.heap.Edited p.schema ref key backend.env.heap →
          (∃ values, IsDirty p { after with backend := backend }
            ⟨key, ref, values⟩) ∧
          ∀ last, (flush p).run { after with backend := backend } =
              (.ok (), last) →
            ∃ conn calls c, backend.env.Made conn calls last.env ∧
              c ∈ calls ∧ Action.CarriedBy p.schema (fun _ => False)
                backend.env.heap ⟨.update, ref⟩ c) := by
  have hRegular : scope.session.Regular :=
    regular_of_reaches hReaches (regular_of_empty hContext hQueue)
  have hFlushed := flushed p scope
  rw [hRun] at hFlushed
  have hWaits : ⟨.insert, ref⟩ ∈ scope.session.queue.ofKind .insert := by
    rw [hInserts]
    exact List.mem_append_right _ (List.mem_cons_self ..)
  obtain ⟨dirty, key, entry, hLists, hKey, hStart, hEntry⟩ :=
    exists_entry_of_flushed hRegular hNodup hFlushed hWaits
  obtain ⟨hOpen, hEmpty⟩ := open_of_flushed hFlushed
  have hBears := Heap.bears_of_entityKey hKey
  have hTracked : after.session.context.get? key = some ref ↔
      ¬ Forestalled p scope.session after.heap earlier ref key := by
    rw [← entity?_foldl_ordered_iff hStart hBears hNodup hInserts, ← hEntry]
    rfl
  refine ⟨key, hKey, hTracked, ?_, ?_⟩
  · have hBegun : Operation.begin.perform p after =
        { after with session :=
          { after.session with inTransaction := true } } := by
      show (begin.run after).2 = _
      rw [begin_run, if_pos hOpen]
    rw [← hTracked, hBegun]
    exact remove_eq_ok_iff hOpen rfl hKey
  · intro hNot hOthers backend hEdited
    have hFree : scope.session.context.get? key = none := by
      cases hTaken : scope.session.context.get? key with
      | none => rfl
      | some resident =>
          by_cases hSame : resident = ref
          · subst hSame
            exact absurd hBears (hOthers key resident hTaken)
          · exact absurd (.taken hTaken hSame) hNot
    have hDirty : ∀ d ∈ dirty, ¬ after.heap.Bears p.schema d.ref key :=
      fun d hD => hOthers d.key d.ref ((hLists.mem d).1 hD).1
    rw [foldl_ordered_of_not_forestalled (hStart.trans hFree) hFree hBears
      hInserts hNot hDirty] at hEntry
    have hStale : ∃ values, IsDirty p { after with backend := backend }
        ⟨key, ref, values⟩ := hEdited.isDirty hEntry hBears
    refine ⟨hStale, ?_⟩
    intro last hAgain
    obtain ⟨values, hIsDirty⟩ := hStale
    have hNext := flushed p { after with backend := backend }
    rw [hAgain] at hNext
    refine update_of_dirty ?_ ?_ hIsDirty hEdited.sends hNext
    · have hNextRegular : after.session.Regular := hRegular.flush hFlushed
      exact hNextRegular
    · exact hEmpty

end Session

namespace Memos

/-- A session that has looked up the second of two memos, beside two new ones
that are nowhere yet. -/
def looked : Scope Store :=
  (Operation.find "Memo" (.int 2)).perform persister
    (scope [[.int 1, .text "a"], [.int 2, .text "b"]]
      [memo .null "c", memo .null "d"] { id := 0 })

/-- Another session has deleted the second memo. -/
def shrunk : Backend Store :=
  { looked.backend with
    env := { looked.env with driver := store [[.int 1, .text "a"]] } }

/-- Both new memos are to be inserted. -/
def joined : Scope Store :=
  (Operation.persist 1).perform persister
    ((Operation.persist 0).perform persister
      (Operation.begin.perform persister { looked with backend := shrunk }))

/-- Both have been inserted. -/
def inserted : Scope Store := ((Session.flush persister).run joined).2

/-- The second one has another title. -/
def edited : Backend Store :=
  { inserted.backend with
    env := inserted.env.update 1 fun e => e.set "title" (.scalar (.text "e")) }

end Memos

/-- The first of two new memos gets the number of the deleted one, which the
session still looks after, so it cannot be removed; the second one can, and an
edit of it is written. -/
theorem Session.inserted_is_tracked_of_memos :
    ((remove Memos.persister 0).run (Operation.begin.perform Memos.persister
      Memos.inserted)).1 ≠ .ok () ∧
    ((remove Memos.persister 1).run (Operation.begin.perform Memos.persister
      Memos.inserted)).1 = .ok () ∧
    ∃ conn calls c, Memos.edited.env.Made conn calls
        ((flush Memos.persister).run
          { Memos.inserted with backend := Memos.edited }).2.env ∧
      c ∈ calls ∧ Action.CarriedBy Memos.schema (fun _ => False)
        Memos.edited.env.heap ⟨.update, 1⟩ c := by
  have hReaches : Reaches Memos.persister (fun _ _ => True) (fun _ _ => True)
      (Memos.scope [[.int 1, .text "a"], [.int 2, .text "b"]]
        [Memos.memo .null "c", Memos.memo .null "d"] { id := 0 })
      Memos.joined :=
    ((((Reaches.start.operation (.find "Memo" (.int 2)) trivial).outside
      Memos.shrunk trivial).operation .begin trivial).operation (.persist 0)
      trivial).operation (.persist 1) trivial
  have hNodup : (Memos.joined.session.queue.ofKind .insert).Nodup := by
    decide +kernel
  have hRun : (flush Memos.persister).run Memos.joined =
      (.ok (), Memos.inserted) :=
    run_eq_of_isOk (by decide +kernel)
  have hFirst : Memos.joined.session.queue.ofKind .insert =
      [] ++ ⟨.insert, 0⟩ :: [⟨.insert, 1⟩] := by decide +kernel
  have hSecond : Memos.joined.session.queue.ofKind .insert =
      [⟨.insert, 0⟩] ++ ⟨.insert, 1⟩ :: [] := by decide +kernel
  -- The keys that the two memos get.
  have hTwo : Memos.inserted.heap.Bears Memos.schema 0 ⟨"Memo", .int 2⟩ := by
    decide +kernel
  have hThree : Memos.inserted.heap.Bears Memos.schema 1 ⟨"Memo", .int 3⟩ := by
    decide +kernel
  obtain ⟨first, hFirstKey, _, hFirstRemoved, _⟩ :=
    inserted_is_tracked rfl rfl hReaches hNodup hFirst hRun
  obtain ⟨second, hSecondKey, _, hSecondRemoved, hWritten⟩ :=
    inserted_is_tracked rfl rfl hReaches hNodup hSecond hRun
  have hFirstNumber : first = ⟨"Memo", .int 2⟩ :=
    (Heap.bears_of_entityKey hFirstKey).unique hTwo
  have hSecondNumber : second = ⟨"Memo", .int 3⟩ :=
    (Heap.bears_of_entityKey hSecondKey).unique hThree
  subst hFirstNumber hSecondNumber
  have hEntities : Memos.joined.session.context.entities =
      [(⟨"Memo", .int 2⟩, 2)] := by decide +kernel
  have hTaken : Memos.joined.session.context.get? ⟨"Memo", .int 2⟩ =
      some 2 := by
    rw [Context.get?, hEntities]
    rfl
  have hFree : Memos.joined.session.context.get? ⟨"Memo", .int 3⟩ = none := by
    rw [Context.get?, hEntities]
    rfl
  have hKept : Memos.joined.session.queue.ofKind .delete = [] := by
    decide +kernel
  have hNot : ¬ Forestalled Memos.persister Memos.joined.session
      Memos.inserted.heap [⟨.insert, 0⟩] 1 ⟨"Memo", .int 3⟩ := by
    rintro (⟨hOther, _⟩ | ⟨_, hMem, hBears⟩ | ⟨hDelete, _⟩)
    · rw [hFree] at hOther
      cases hOther
    · rw [List.mem_singleton.1 hMem] at hBears
      exact absurd hBears (by decide +kernel)
    · rw [hKept] at hDelete
      cases hDelete
  have hOthers : ∀ other resident,
      Memos.joined.session.context.get? other = some resident →
        ¬ Memos.inserted.heap.Bears Memos.schema resident
          ⟨"Memo", .int 3⟩ := by
    intro other resident hGet
    have hMem := Assoc.mem_of_lookup hGet
    rw [hEntities] at hMem
    cases List.mem_singleton.1 hMem
    decide +kernel
  have hEdited : Memos.inserted.heap.Edited Memos.schema 1 ⟨"Memo", .int 3⟩
      Memos.edited.env.heap :=
    ⟨by decide +kernel, by decide +kernel,
      _, Notes.title, rfl, by decide +kernel, rfl, by decide +kernel⟩
  refine ⟨?_, hSecondRemoved.2 hNot, ?_⟩
  · exact fun hOk => hFirstRemoved.1 hOk (.taken hTaken (by decide))
  · exact (hWritten hNot hOthers Memos.edited hEdited).2 _
      (run_eq_of_isOk (by decide +kernel))

end UnitOfWork

import UnitOfWork.Proofs.Actions

/-!
# Contexts as identity maps

A context is coherent when each entity in it has the key that it is under, and
when it has a snapshot for just the keys that it has an entity for. All that is
done to a context keeps it coherent: looking after another entity, taking a
snapshot anew, forgetting, and the dirty check. So does all that is done to
the instances as long as those in the context keep their keys.

## Main results

* `Heap.Bears.unique`: an instance has one key;
* `Context.Coherent.cache`, `Context.Coherent.refresh`,
  `Context.Coherent.remove`, `Context.Coherent.diff`: what keeps a context
  coherent.
-/

namespace UnitOfWork

/-! ## Keys of association lists -/

namespace Assoc

variable {κ α : Type} [DecidableEq κ]

theorem keys_insert_of_mem {key : κ} {pairs : List (κ × α)}
    (h : key ∈ keys pairs) (value : α) :
    keys (insert key value pairs) = keys pairs := by
  induction pairs with
  | nil => cases h
  | cons pair rest ih =>
      obtain ⟨k, v⟩ := pair
      unfold insert
      by_cases hk : k = key
      · rw [if_pos hk, hk]
        rfl
      · rw [if_neg hk]
        have hRest : key ∈ keys rest := by
          rcases List.mem_cons.1 h with hEq | hMem
          · exact absurd hEq.symm hk
          · exact hMem
        exact congrArg (k :: ·) (ih hRest)

theorem keys_insert_of_not_mem {key : κ} {pairs : List (κ × α)}
    (h : key ∉ keys pairs) (value : α) :
    keys (insert key value pairs) = keys pairs ++ [key] := by
  induction pairs with
  | nil => rfl
  | cons pair rest ih =>
      obtain ⟨k, v⟩ := pair
      have hk : k ≠ key := fun hEq => h (hEq ▸ List.mem_cons_self ..)
      have hRest : key ∉ keys rest := fun hMem =>
        h (List.mem_cons_of_mem _ hMem)
      unfold insert
      rw [if_neg hk]
      exact congrArg (k :: ·) (ih hRest)

theorem keys_erase (key : κ) (pairs : List (κ × α)) :
    keys (erase key pairs) = (keys pairs).filter fun k => !decide (k = key) := by
  rw [keys, erase, keys, List.filter_map]
  rfl

/-- What a key without repetition stands with is what is found under it. -/
theorem lookup_of_mem {key : κ} {value : α} {pairs : List (κ × α)}
    (hNodup : (keys pairs).Nodup) (h : (key, value) ∈ pairs) :
    List.lookup key pairs = some value := by
  induction pairs with
  | nil => cases h
  | cons pair rest ih =>
      obtain ⟨k, v⟩ := pair
      obtain ⟨hFirst, hRest⟩ := List.nodup_cons.1 hNodup
      rw [lookup_cons]
      rcases List.mem_cons.1 h with hHead | hMem
      · cases hHead
        rw [if_pos rfl]
      · have hKey : key ∈ keys rest := List.mem_map_of_mem hMem
        have hNe : k ≠ key := fun hEq => hFirst (hEq ▸ hKey)
        rw [if_neg hNe]
        exact ih hRest hMem

theorem mem_of_lookup {key : κ} {value : α} {pairs : List (κ × α)}
    (h : List.lookup key pairs = some value) : (key, value) ∈ pairs := by
  induction pairs with
  | nil => cases h
  | cons pair rest ih =>
      obtain ⟨k, v⟩ := pair
      rw [lookup_cons] at h
      by_cases hk : k = key
      · rw [if_pos hk] at h
        rw [hk, Option.some.inj h]
        exact List.mem_cons_self ..
      · rw [if_neg hk] at h
        exact List.mem_cons_of_mem _ (ih h)

end Assoc

/-! ## Keys of instances -/

/-- An instance has a key: its type is that of the key, and its identifier is
the key's. -/
def Heap.Bears (schema : Schema) (heap : Heap) (ref : Ref) (key : Key) :
    Prop :=
  (heap.get ref).type = key.type ∧ ∃ d, schema.descriptor key.type = .ok d ∧
    d.entityId (heap.get ref) = .ok (some key.id)

variable {schema : Schema} {heap after : Heap} {ref : Ref} {key : Key}

/-- An instance has at most one key. -/
theorem Heap.Bears.unique {other : Key} (h : heap.Bears schema ref key)
    (hOther : heap.Bears schema ref other) : key = other := by
  obtain ⟨type, id⟩ := key
  obtain ⟨type', id'⟩ := other
  obtain ⟨hType, d, hD, hId⟩ := h
  obtain ⟨hType', d', hD', hId'⟩ := hOther
  have hTypes : type = type' := hType.symm.trans hType'
  subst hTypes
  have hSame : d = d' := Except.ok.inj (hD.symm.trans hD')
  subst hSame
  have hIds : some id = some id' := Except.ok.inj (hId.symm.trans hId')
  rw [Option.some.inj hIds]

/-- An instance that is not changed keeps its key. -/
theorem Heap.Bears.of_get_eq (h : heap.Bears schema ref key)
    (hGet : after.get ref = heap.get ref) : after.Bears schema ref key := by
  unfold Heap.Bears
  rw [hGet]
  exact h

/-- The descriptor of an instance that can be looked at. -/
theorem Heap.describe_eq_ok {d : Descriptor}
    (h : heap.describe schema ref = .ok d) :
    schema.descriptor (heap.get ref).type = .ok d ∧
      (heap.get ref).isReadable = true := by
  obtain ⟨d', hD, hReadable⟩ := except_bind_eq_ok.1 h
  split at hReadable
  · rename_i hHold
    cases hReadable
    exact ⟨hD, hHold⟩
  · cases hReadable

/-- The values of an instance that can be looked at. -/
theorem Heap.snapshot_eq_ok_iff {values : List Value} :
    heap.snapshot schema ref = .ok values ↔
      ∃ d, schema.descriptor (heap.get ref).type = .ok d ∧
        (heap.get ref).isReadable = true ∧
          values = d.snapshot (heap.get ref) := by
  constructor
  · intro h
    obtain ⟨d, hDescribe, hValues⟩ := except_bind_eq_ok.1 h
    obtain ⟨hD, hReadable⟩ := describe_eq_ok hDescribe
    exact ⟨d, hD, hReadable, (Except.ok.inj hValues).symm⟩
  · rintro ⟨d, hD, hReadable, rfl⟩
    simp [snapshot, describe, hD, hReadable, bind, Except.bind]

/-- An instance that is not changed keeps its values. -/
theorem Heap.snapshot_of_get_eq (hGet : after.get ref = heap.get ref) :
    after.snapshot schema ref = heap.snapshot schema ref := by
  unfold Heap.snapshot Heap.describe
  rw [hGet]

/-- The key of an instance that can be looked at is the one that it has. -/
theorem Heap.bears_of_entityKey
    (h : heap.entityKey schema ref = .ok (some key)) :
    heap.Bears schema ref key := by
  obtain ⟨d, hD, hRest⟩ := except_bind_eq_ok.1 h
  obtain ⟨id?, hId, hKey⟩ := except_bind_eq_ok.1 hRest
  obtain ⟨hD, _⟩ := Heap.describe_eq_ok hD
  cases id? with
  | none => cases hKey
  | some id =>
      cases hKey
      exact ⟨rfl, d, hD, hId⟩

/-- An instance with a key that can be looked at is found to have it. -/
theorem Heap.Bears.entityKey_eq {key? : Option Key}
    (h : heap.Bears schema ref key)
    (hKey : heap.entityKey schema ref = .ok key?) : key? = some key := by
  cases key? with
  | some other => rw [h.unique (Heap.bears_of_entityKey hKey)]
  | none =>
      obtain ⟨hType, d, hD, hId⟩ := h
      obtain ⟨d', hDescribe, hRest⟩ := except_bind_eq_ok.1 hKey
      obtain ⟨id?, hId?, hNone⟩ := except_bind_eq_ok.1 hRest
      obtain ⟨hD', _⟩ := Heap.describe_eq_ok hDescribe
      rw [hType] at hD'
      have hSame : d = d' := Except.ok.inj (hD.symm.trans hD')
      subst hSame
      rw [hId] at hId?
      cases hId?
      cases hNone

/-! ## Contexts that grow -/

/-- All entities of one context are entities of the other, under the same
keys. -/
def Context.Within (ctx after : Context) : Prop :=
  ∀ key ref, ctx.get? key = some ref → after.get? key = some ref

theorem Context.Within.refl (ctx : Context) : ctx.Within ctx :=
  fun _ _ h => h

theorem Context.Within.trans {a b c : Context} (hAb : a.Within b)
    (hBc : b.Within c) : a.Within c :=
  fun key ref h => hBc key ref (hAb key ref h)

theorem Context.get?_register_self (ctx : Context) (key : Key) (ref : Ref)
    (values : List Value) :
    (ctx.register key ref values).get? key = some ref :=
  Assoc.lookup_insert_self key ref ctx.entities

theorem Context.get?_register_ne {key other : Key} (hNe : other ≠ key)
    (ctx : Context) (ref : Ref) (values : List Value) :
    (ctx.register key ref values).get? other = ctx.get? other :=
  Assoc.lookup_insert_ne hNe ref ctx.entities

/-- A key that was not taken can be taken. -/
theorem Context.within_register {ctx : Context} {key : Key}
    (hFree : ctx.get? key = none) (ref : Ref) (values : List Value) :
    ctx.Within (ctx.register key ref values) := by
  intro other resident h
  have hNe : other ≠ key := by
    rintro rfl
    rw [hFree] at h
    cases h
  rw [Context.get?_register_ne hNe, h]

/-! ## Snapshots -/

namespace Context

variable {ctx : Context} {other : Key} {values v : List Value}

/-- A snapshot is the one that was taken when its entity was registered, or one
that was there before. -/
theorem snapshot?_of_register
    (h : (ctx.register key ref values).snapshot? other = some v) :
    other = key ∧ v = values ∨ other ≠ key ∧ ctx.snapshot? other = some v := by
  by_cases hEq : other = key
  · subst hEq
    rw [snapshot?, register, Assoc.lookup_insert_self] at h
    exact Or.inl ⟨rfl, (Option.some.inj h).symm⟩
  · rw [snapshot?, register, Assoc.lookup_insert_ne hEq] at h
    exact Or.inr ⟨hEq, h⟩

/-- The same of a snapshot that is stored. -/
theorem snapshot?_of_store
    (h : (ctx.store key values).snapshot? other = some v) :
    other = key ∧ v = values ∨ other ≠ key ∧ ctx.snapshot? other = some v := by
  have hSame : (ctx.register key 0 values).snapshot? other = some v := h
  exact snapshot?_of_register hSame

theorem snapshot?_of_forget
    (h : (ctx.forget key).snapshot? other = some v) :
    other ≠ key ∧ ctx.snapshot? other = some v := by
  by_cases hEq : other = key
  · subst hEq
    rw [snapshot?, forget, Assoc.lookup_erase_self] at h
    cases h
  · rw [snapshot?, forget, Assoc.lookup_erase_ne hEq] at h
    exact ⟨hEq, h⟩

theorem snapshot?_of_storeAll {dirty : List Dirty}
    (h : (dirty.foldl (fun ctx d => ctx.store d.key d.values) ctx).snapshot?
      key = some v) :
    (∃ d ∈ dirty, d.key = key) ∨ ctx.snapshot? key = some v := by
  induction dirty generalizing ctx with
  | nil => exact Or.inr h
  | cons d rest ih =>
      rcases ih h with ⟨d', hD', hKey⟩ | hOld
      · exact Or.inl ⟨d', List.mem_cons_of_mem _ hD', hKey⟩
      · rcases snapshot?_of_store hOld with ⟨hKey, _⟩ | ⟨_, hThere⟩
        · exact Or.inl ⟨d, List.mem_cons_self .., hKey.symm⟩
        · exact Or.inr hThere

/-- The dirty check finds the entities whose values are stale. -/
theorem mem_of_diff {dirty : List Dirty} {next : Context}
    (hDiff : ctx.diff schema heap = .ok (dirty, next)) (d : Dirty) :
    d ∈ dirty ↔ (d.key, d.ref) ∈ ctx.entities ∧
      heap.snapshot schema d.ref = .ok d.values ∧
        ctx.isStale d.key d.values = true := by
  obtain ⟨found, hFound, hDone⟩ := except_bind_eq_ok.1 hDiff
  cases hDone
  rw [(sortEntries_perm found).mem_iff, mem_dirtyEntries hFound]

/-- A snapshot that the dirty check leaves is that of a dirty entity, or one
that was there before. -/
theorem snapshot?_of_diff {dirty : List Dirty} {next : Context}
    (hDiff : ctx.diff schema heap = .ok (dirty, next))
    (h : next.snapshot? key = some v) :
    (∃ d ∈ dirty, d.key = key) ∨ ctx.snapshot? key = some v := by
  obtain ⟨found, _, hDone⟩ := except_bind_eq_ok.1 hDiff
  cases hDone
  exact snapshot?_of_storeAll h

end Context

/-! ## Coherent contexts -/

/-- Each entity has the key that it is under, and the snapshots are those of
the entities. -/
structure Context.Coherent (schema : Schema) (heap : Heap) (ctx : Context) :
    Prop where
  nodup : (Assoc.keys ctx.entities).Nodup
  keys : Assoc.keys ctx.snapshots = Assoc.keys ctx.entities
  present : ∀ key ref, ctx.get? key = some ref → ref < heap.next
  bears : ∀ key ref, ctx.get? key = some ref → heap.Bears schema ref key

namespace Context

variable {ctx : Context}

theorem mem_keys_of_get? (h : ctx.get? key = some ref) :
    key ∈ Assoc.keys ctx.entities := by
  rw [← Assoc.lookup_isSome_iff]
  exact Option.isSome_of_eq_some h

theorem coherent_empty : Coherent schema heap {} where
  nodup := List.nodup_nil
  keys := rfl
  present := fun _ _ h => by cases h
  bears := fun _ _ h => by cases h

namespace Coherent

/-- No entity is under two keys. -/
theorem key_unique {other : Key} (h : ctx.Coherent schema heap)
    (hKey : ctx.get? key = some ref) (hOther : ctx.get? other = some ref) :
    key = other :=
  (h.bears key ref hKey).unique (h.bears other ref hOther)

/-- An entity that is looked after has a snapshot. -/
theorem exists_snapshot? (h : ctx.Coherent schema heap)
    (hGet : ctx.get? key = some ref) : ∃ v, ctx.snapshot? key = some v := by
  have hMem := mem_keys_of_get? hGet
  rw [← h.keys, ← Assoc.lookup_isSome_iff] at hMem
  exact Option.isSome_iff_exists.1 hMem

/-- What may happen to the instances. -/
theorem of_bears (h : ctx.Coherent schema heap)
    (hNext : heap.next ≤ after.next)
    (hBears : ∀ key ref, ctx.get? key = some ref →
      heap.Bears schema ref key → after.Bears schema ref key) :
    ctx.Coherent schema after where
  nodup := h.nodup
  keys := h.keys
  present := fun key ref hGet =>
    Nat.lt_of_lt_of_le (h.present key ref hGet) hNext
  bears := fun key ref hGet => hBears key ref hGet (h.bears key ref hGet)

/-- An entity that is not in the context may change. -/
theorem of_agreesBut (h : ctx.Coherent schema heap)
    (hAgrees : heap.AgreesBut ref after)
    (hOut : ∀ key, ctx.get? key ≠ some ref) :
    ctx.Coherent schema after := by
  refine h.of_bears (Nat.le_of_eq hAgrees.next.symm)
    fun key other hGet hBears => ?_
  have hNe : other ≠ ref := fun hEq => hOut key (hEq ▸ hGet)
  exact hBears.of_get_eq (hAgrees.get other hNe)

theorem register (h : ctx.Coherent schema heap) (hLt : ref < heap.next)
    (hBears : heap.Bears schema ref key) (values : List Value) :
    (ctx.register key ref values).Coherent schema heap where
  nodup := Assoc.nodup_keys_insert h.nodup key ref
  keys := by
    simp only [Context.register]
    by_cases hMem : key ∈ Assoc.keys ctx.entities
    · rw [Assoc.keys_insert_of_mem hMem, Assoc.keys_insert_of_mem
        (h.keys ▸ hMem), h.keys]
    · rw [Assoc.keys_insert_of_not_mem hMem, Assoc.keys_insert_of_not_mem
        (h.keys ▸ hMem), h.keys]
  present := by
    intro other resident hGet
    by_cases hEq : other = key
    · subst hEq
      rw [Context.get?_register_self] at hGet
      rw [← Option.some.inj hGet]
      exact hLt
    · rw [Context.get?_register_ne hEq] at hGet
      exact h.present other resident hGet
  bears := by
    intro other resident hGet
    by_cases hEq : other = key
    · subst hEq
      rw [Context.get?_register_self] at hGet
      rw [← Option.some.inj hGet]
      exact hBears
    · rw [Context.get?_register_ne hEq] at hGet
      exact h.bears other resident hGet

theorem store (h : ctx.Coherent schema heap)
    (hMem : key ∈ Assoc.keys ctx.entities) (values : List Value) :
    (ctx.store key values).Coherent schema heap where
  nodup := h.nodup
  keys := by
    simp only [Context.store]
    rw [Assoc.keys_insert_of_mem (h.keys ▸ hMem), h.keys]
  present := h.present
  bears := h.bears

theorem get?_of_forget {other : Key}
    (h : (ctx.forget key).get? other = some ref) :
    other ≠ key ∧ ctx.get? other = some ref := by
  by_cases hEq : other = key
  · subst hEq
    rw [Context.get?, Context.forget, Assoc.lookup_erase_self] at h
    cases h
  · rw [Context.get?, Context.forget, Assoc.lookup_erase_ne hEq] at h
    exact ⟨hEq, h⟩

theorem forget (h : ctx.Coherent schema heap) (key : Key) :
    (ctx.forget key).Coherent schema heap where
  nodup := Assoc.nodup_keys_erase h.nodup key
  keys := by
    simp only [Context.forget]
    rw [Assoc.keys_erase, Assoc.keys_erase, h.keys]
  present := fun other resident hGet =>
    h.present other resident (get?_of_forget hGet).2
  bears := fun other resident hGet =>
    h.bears other resident (get?_of_forget hGet).2

/-! ## What is done with a context -/

theorem requireKey_eq_ok (h : requireKey schema heap ref = .ok key) :
    heap.entityKey schema ref = .ok (some key) := by
  obtain ⟨key?, hKey, hSome⟩ := except_bind_eq_ok.1 h
  cases key? with
  | none => cases hSome
  | some other =>
      cases hSome
      exact hKey

/-- What a context has after an entity was to be looked after: the entity
under its key, or another one that is there already. -/
theorem cache_cases {resident : Ref} {after : Context}
    (h : ctx.cache schema heap ref = .ok (resident, after)) :
    ∃ key, heap.Bears schema ref key ∧
      (ctx.get? key = some resident ∧ after = ctx ∨
        ctx.get? key = none ∧ resident = ref ∧ ∃ values,
          heap.snapshot schema ref = .ok values ∧
            after = ctx.register key ref values) := by
  obtain ⟨key, hKey, hRest⟩ := except_bind_eq_ok.1 h
  have hBears := Heap.bears_of_entityKey (requireKey_eq_ok hKey)
  refine ⟨key, hBears, ?_⟩
  cases hGet : ctx.get? key with
  | some other =>
      simp only [hGet] at hRest
      cases hRest
      exact Or.inl ⟨rfl, rfl⟩
  | none =>
      simp only [hGet] at hRest
      obtain ⟨values, hValues, hDone⟩ := except_bind_eq_ok.1 hRest
      cases hDone
      exact Or.inr ⟨rfl, rfl, values, hValues, rfl⟩

theorem cache {resident : Ref} {next : Context}
    (h : ctx.Coherent schema heap) (hLt : ref < heap.next)
    (hCache : ctx.cache schema heap ref = .ok (resident, next)) :
    next.Coherent schema heap := by
  obtain ⟨key, hBears, ⟨_, rfl⟩ | ⟨_, _, values, _, rfl⟩⟩ :=
    cache_cases hCache
  · exact h
  · exact h.register hLt hBears values

theorem refresh_cases {after : Context}
    (h : ctx.refresh schema heap ref = .ok after) :
    ∃ key values, heap.Bears schema ref key ∧
      heap.snapshot schema ref = .ok values ∧ after = ctx.store key values := by
  obtain ⟨key, hKey, hRest⟩ := except_bind_eq_ok.1 h
  obtain ⟨values, hValues, hDone⟩ := except_bind_eq_ok.1 hRest
  cases hDone
  exact ⟨key, values, Heap.bears_of_entityKey (requireKey_eq_ok hKey),
    hValues, rfl⟩

/-- The snapshot of an entity in the context is taken under its key. -/
theorem refresh {next : Context} (h : ctx.Coherent schema heap)
    (hIn : ctx.get? key = some ref)
    (hRefresh : ctx.refresh schema heap ref = .ok next) :
    next.Coherent schema heap ∧ next.entities = ctx.entities := by
  obtain ⟨other, values, hBears, _, rfl⟩ := refresh_cases hRefresh
  have hKey : key = other := (h.bears key ref hIn).unique hBears
  subst hKey
  exact ⟨h.store (mem_keys_of_get? hIn) values, rfl⟩

theorem remove_cases {after : Context}
    (h : ctx.remove schema heap ref = .ok after) :
    after = ctx ∨ ∃ key, heap.Bears schema ref key ∧
      after = ctx.forget key := by
  obtain ⟨key?, hKey, hRest⟩ := except_bind_eq_ok.1 h
  cases key? with
  | none =>
      cases hRest
      exact Or.inl rfl
  | some key =>
      cases hRest
      exact Or.inr ⟨key, Heap.bears_of_entityKey hKey, rfl⟩

/-- An instance with a key is removed from under it. -/
theorem remove_of_bears {after : Context} (hBears : heap.Bears schema ref key)
    (h : ctx.remove schema heap ref = .ok after) : after = ctx.forget key := by
  obtain ⟨key?, hKey, hRest⟩ := except_bind_eq_ok.1 h
  rw [hBears.entityKey_eq hKey] at hRest
  exact (Except.ok.inj hRest).symm

theorem remove {next : Context} (h : ctx.Coherent schema heap)
    (hRemove : ctx.remove schema heap ref = .ok next) :
    next.Coherent schema heap := by
  rcases remove_cases hRemove with rfl | ⟨key, _, rfl⟩
  · exact h
  · exact h.forget key

theorem storeAll {dirty : List Dirty} (h : ctx.Coherent schema heap)
    (hIn : ∀ d ∈ dirty, ctx.get? d.key = some d.ref) :
    (dirty.foldl (fun ctx d => ctx.store d.key d.values) ctx).Coherent schema
      heap := by
  induction dirty generalizing ctx with
  | nil => exact h
  | cons d rest ih =>
      have hD := mem_keys_of_get? (hIn d (List.mem_cons_self ..))
      exact ih (h.store hD d.values) fun e he =>
        hIn e (List.mem_cons_of_mem _ he)

/-- The entities that the dirty check reports are in the context, and it
leaves the context coherent. -/
theorem diff {dirty : List Dirty} {next : Context}
    (h : ctx.Coherent schema heap)
    (hDiff : ctx.diff schema heap = .ok (dirty, next)) :
    next.Coherent schema heap ∧ ∀ d ∈ dirty, ctx.get? d.key = some d.ref := by
  have hIn : ∀ d ∈ dirty, ctx.get? d.key = some d.ref := fun d hMem =>
    Assoc.lookup_of_mem h.nodup ((mem_of_diff hDiff d).1 hMem).1
  obtain ⟨found, _, hDone⟩ := except_bind_eq_ok.1 hDiff
  cases hDone
  exact ⟨h.storeAll hIn, hIn⟩

end Coherent

theorem entities_storeAll (dirty : List Dirty) (ctx : Context) :
    (dirty.foldl (fun ctx d => ctx.store d.key d.values) ctx).entities =
      ctx.entities := by
  induction dirty generalizing ctx with
  | nil => rfl
  | cons d rest ih => exact ih (ctx.store d.key d.values)

/-- The dirty check changes snapshots only. -/
theorem entities_of_diff {dirty : List Dirty} {next : Context}
    (h : ctx.diff schema heap = .ok (dirty, next)) :
    next.entities = ctx.entities := by
  obtain ⟨found, _, hDone⟩ := except_bind_eq_ok.1 h
  cases hDone
  exact entities_storeAll (sortEntries found) ctx

end Context

/-- After an insert its entity is looked after. -/
theorem Action.follow_insert {p : Persister} {ref : Ref} {heap : Heap}
    {ctx next : Context} (h : follow p ⟨.insert, ref⟩ heap ctx = .ok next) :
    ∃ resident, ctx.cache p.schema heap ref = .ok (resident, next) := by
  simp only [follow] at h
  cases hCache : ctx.cache p.schema heap ref with
  | error e => simp [hCache, Functor.map, Except.map] at h
  | ok result =>
      obtain ⟨resident, after⟩ := result
      have hNext : after = next := by
        simpa [hCache, Functor.map, Except.map] using h
      exact ⟨resident, by rw [hNext]⟩

end UnitOfWork

import UnitOfWork.Heap

/-!
# Identity map and snapshots

A context holds the entities that a session looks after, each under its key,
so that one row is one instance; and for each the values that its columns had
when the entity was last read or written. An entity is dirty when its present
values are not equal to its snapshot, or when it has none.

## Main results

* `Context.mem_dirtyEntries`: what the dirty check reports;
* `Context.sortEntries_perm`, `Context.sortEntries_sorted`: it reports in the
  order of the keys.
-/

namespace UnitOfWork

/-- The entities that are looked after, and their snapshots. -/
structure Context where
  entities : List (Key × Ref) := []
  snapshots : List (Key × List Value) := []

/-- An entity that is out of step with its snapshot: its key, its reference
and its present values. -/
structure Dirty where
  key : Key
  ref : Ref
  values : List Value

namespace Context

/-! ## Looking up -/

/-- The entity under a key. -/
def get? (ctx : Context) (key : Key) : Option Ref := ctx.entities.lookup key

/-- Whether there is an entity under a key. -/
def containsKey (ctx : Context) (key : Key) : Bool := (ctx.get? key).isSome

/-- The snapshot under a key. -/
def snapshot? (ctx : Context) (key : Key) : Option (List Value) :=
  ctx.snapshots.lookup key

/-- The number of entities. -/
def size (ctx : Context) : Nat := ctx.entities.length

/-- Whether there are no entities. -/
def isEmpty (ctx : Context) : Bool := ctx.entities.isEmpty

/-! ## Adding and removing -/

/-- Looks after an entity under a key, with a snapshot. -/
def register (ctx : Context) (key : Key) (ref : Ref) (values : List Value) :
    Context :=
  ⟨Assoc.insert key ref ctx.entities, Assoc.insert key values ctx.snapshots⟩

/-- Keeps a snapshot under a key. -/
def store (ctx : Context) (key : Key) (values : List Value) : Context :=
  { ctx with snapshots := Assoc.insert key values ctx.snapshots }

/-- Forgets the entity and the snapshot under a key. -/
def forget (ctx : Context) (key : Key) : Context :=
  ⟨Assoc.erase key ctx.entities, Assoc.erase key ctx.snapshots⟩

section

variable (schema : Schema) (heap : Heap)

/-- The key of an entity, which has to have one. -/
def requireKey (ref : Ref) : Except Error Key := do
  match ← heap.entityKey schema ref with
  | some key => .ok key
  | none => .error (.state (.cacheWithoutId (heap.get ref).type))

/-- Looks after an entity, unless there is one under its key already; gives
the entity that is there then. -/
def cache (ctx : Context) (ref : Ref) : Except Error (Ref × Context) := do
  let key ← requireKey schema heap ref
  match ctx.get? key with
  | some resident => .ok (resident, ctx)
  | none =>
    let values ← heap.snapshot schema ref
    .ok (ref, ctx.register key ref values)

/-- Takes the snapshot of an entity anew. -/
def refresh (ctx : Context) (ref : Ref) : Except Error Context := do
  let key ← requireKey schema heap ref
  let values ← heap.snapshot schema ref
  .ok (ctx.store key values)

/-- Forgets whatever is under the key of an entity. -/
def remove (ctx : Context) (ref : Ref) : Except Error Context := do
  match ← heap.entityKey schema ref with
  | some key => .ok (ctx.forget key)
  | none => .ok ctx

/-- Whether an entity is the one under its own key. -/
def contains (ctx : Context) (ref : Ref) : Except Error Bool := do
  match ← heap.entityKey schema ref with
  | some key => .ok (ctx.get? key == some ref)
  | none => .ok false

/-! ## The dirty check -/

/-- Whether the snapshot under a key is missing or differs. -/
def isStale (ctx : Context) (key : Key) (values : List Value) : Bool :=
  match ctx.snapshot? key with
  | some snapshot => !Value.equalAll snapshot values
  | none => true

/-- The entries that are out of step, in the order of the entries. -/
def dirtyEntries (ctx : Context) : List (Key × Ref) → Except Error (List Dirty)
  | [] => .ok []
  | (key, ref) :: rest => do
    let values ← heap.snapshot schema ref
    let others ← dirtyEntries ctx rest
    .ok (if ctx.isStale key values then ⟨key, ref, values⟩ :: others
      else others)

/-- Puts an entry where its key belongs. -/
def insertEntry (entry : Dirty) : List Dirty → List Dirty
  | [] => [entry]
  | other :: rest =>
    if entry.key.atMost other.key then entry :: other :: rest
    else other :: insertEntry entry rest

/-- The entries in the order of their keys. -/
def sortEntries : List Dirty → List Dirty
  | [] => []
  | entry :: rest => insertEntry entry (sortEntries rest)

/-- Finds the entities that are out of step and brings their snapshots up to
date. Fails without a change if an entity cannot be looked at. -/
def diff (ctx : Context) : Except Error (List Dirty × Context) := do
  let dirty ← ctx.dirtyEntries schema heap ctx.entities
  let sorted := sortEntries dirty
  .ok (sorted, sorted.foldl (fun ctx d => ctx.store d.key d.values) ctx)

end

/-! ## Law of the dirty check -/

/-- The dirty check reports an entity when it is looked after, its present
values can be read, and they are stale; and nothing else. -/
theorem mem_dirtyEntries {schema : Schema} {heap : Heap} {ctx : Context}
    {entries : List (Key × Ref)} {dirty : List Dirty}
    (h : ctx.dirtyEntries schema heap entries = .ok dirty) (d : Dirty) :
    d ∈ dirty ↔ (d.key, d.ref) ∈ entries ∧
      heap.snapshot schema d.ref = .ok d.values ∧
      ctx.isStale d.key d.values = true := by
  induction entries generalizing dirty with
  | nil =>
      have hNil : [] = dirty := Except.ok.inj h
      simp [← hNil]
  | cons entry rest ih =>
      obtain ⟨key, ref⟩ := entry
      cases hValues : heap.snapshot schema ref with
      | error e => simp [dirtyEntries, hValues, bind, Except.bind] at h
      | ok values =>
          cases hRest : ctx.dirtyEntries schema heap rest with
          | error e =>
              simp [dirtyEntries, hValues, hRest, bind, Except.bind] at h
          | ok others =>
              have hDirty : dirty = if ctx.isStale key values then
                  ⟨key, ref, values⟩ :: others else others := by
                simp only [dirtyEntries, hValues, hRest, bind, Except.bind] at h
                exact (Except.ok.inj h).symm
              have hOthers := ih hRest
              obtain ⟨dKey, dRef, dValues⟩ := d
              by_cases hStale : ctx.isStale key values = true
              · rw [hDirty, if_pos hStale, List.mem_cons, List.mem_cons,
                  hOthers]
                constructor
                · rintro (hHead | ⟨hMem, hRead⟩)
                  · cases hHead
                    exact ⟨Or.inl rfl, hValues, hStale⟩
                  · exact ⟨Or.inr hMem, hRead⟩
                · rintro ⟨hHead | hMem, hRead, hStaleD⟩
                  · cases hHead
                    cases hValues.symm.trans hRead
                    exact Or.inl rfl
                  · exact Or.inr ⟨hMem, hRead, hStaleD⟩
              · rw [hDirty, if_neg hStale, List.mem_cons, hOthers]
                constructor
                · rintro ⟨hMem, hRead⟩
                  exact ⟨Or.inr hMem, hRead⟩
                · rintro ⟨hHead | hMem, hRead, hStaleD⟩
                  · cases hHead
                    cases hValues.symm.trans hRead
                    exact absurd hStaleD hStale
                  · exact ⟨hMem, hRead, hStaleD⟩

/-! ## Laws of the order -/

theorem insertEntry_perm (entry : Dirty) (entries : List Dirty) :
    (insertEntry entry entries).Perm (entry :: entries) := by
  induction entries with
  | nil => exact List.Perm.refl _
  | cons other rest ih =>
      unfold insertEntry
      split
      · exact List.Perm.refl _
      · exact (ih.cons other).trans (List.Perm.swap entry other rest)

/-- Sorting neither loses nor repeats an entry. -/
theorem sortEntries_perm (entries : List Dirty) :
    (sortEntries entries).Perm entries := by
  induction entries with
  | nil => exact List.Perm.refl _
  | cons entry rest ih =>
      exact (insertEntry_perm entry _).trans (ih.cons entry)

theorem insertEntry_sorted (entry : Dirty) {entries : List Dirty}
    (h : entries.Pairwise fun a b => a.key.atMost b.key) :
    (insertEntry entry entries).Pairwise fun a b => a.key.atMost b.key := by
  induction entries with
  | nil => simp [insertEntry]
  | cons other rest ih =>
      obtain ⟨hOther, hRest⟩ := List.pairwise_cons.1 h
      unfold insertEntry
      split
      · rename_i hLe
        refine List.pairwise_cons.2 ⟨fun d hd => ?_, h⟩
        rcases List.mem_cons.1 hd with rfl | hd
        · exact hLe
        · exact Key.atMost_trans hLe (hOther d hd)
      · rename_i hNot
        have hLe : other.key.atMost entry.key :=
          (Key.atMost_total entry.key other.key).resolve_left hNot
        refine List.pairwise_cons.2 ⟨fun d hd => ?_, ih hRest⟩
        rcases List.mem_cons.1 ((insertEntry_perm entry rest).mem_iff.1 hd) with
          rfl | hd
        · exact hLe
        · exact hOther d hd

/-- Sorted entries stand in the order of their keys. -/
theorem sortEntries_sorted (entries : List Dirty) :
    (sortEntries entries).Pairwise fun a b => a.key.atMost b.key := by
  induction entries with
  | nil => exact List.Pairwise.nil
  | cons entry rest ih => exact insertEntry_sorted entry ih

/-- Taking over snapshots leaves the entities alone. -/
@[simp] theorem entities_store (ctx : Context) (key : Key)
    (values : List Value) : (ctx.store key values).entities = ctx.entities :=
  rfl

end Context

end UnitOfWork

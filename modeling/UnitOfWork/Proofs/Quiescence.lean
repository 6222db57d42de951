import Mathlib.Data.List.Duplicate
import UnitOfWork.Proofs.Stages

/-!
# Flushing twice

After a flush that succeeds nothing waits, so a second one has something to do
only if an entity is dirty. The snapshot of an entity is its values when it was
read or written last, so an entity that nobody has touched is dirty only if its
values are not equal to themselves, as a NaN is not; or if its snapshot is not
its own: another entity has been given its key, or it was inserted when it was
looked after already or waited twice.

## Main results

* `Value.equal_self_iff`: values that equal themselves;
* `Session.Staged.snapshot?_of_home`: the snapshots that a flush leaves;
* `Session.flush_eq_self_iff`: when a flush does nothing at all;
* `Session.flush_twice`: when a flush that follows on another does nothing.
-/

namespace UnitOfWork

variable {σ : Type} {schema : Schema} {heap : Heap} {key : Key} {ref : Ref}

/-! ## Values that equal themselves -/

theorem Double.equal_self_of_equal {a b : Double} (h : a.equal b = true) :
    b.equal b = true := by
  have hBack : b.equal a = true := by
    rw [Double.equal_comm]
    exact h
  exact Double.equal_trans hBack h

namespace Json

mutual

/-- What anything equals equals itself. -/
theorem equal_self_of_equal : ∀ {a b : Json}, a.equal b = true →
    b.equal b = true
  | null, null, _ => rfl
  | bool _, bool _, _ => by simp [equal]
  | integer _, integer _, _ => by simp [equal]
  | real _, real _, h => Double.equal_self_of_equal h
  | text _, text _, _ => by simp [equal]
  | array _, array _, h => equalItems_self h
  | object _, object _, h => equalMembers_self h

theorem equalItems_self : ∀ {as bs : List Json}, equalItems as bs = true →
    equalItems bs bs = true
  | [], [], _ => rfl
  | _ :: _, _ :: _, h => by
      obtain ⟨hFirst, hRest⟩ := Bool.and_eq_true_iff.1 h
      exact Bool.and_eq_true_iff.2
        ⟨equal_self_of_equal hFirst, equalItems_self hRest⟩

theorem equalMembers_self : ∀ {as bs : List (String × Json)},
    equalMembers as bs = true → equalMembers bs bs = true
  | [], [], _ => rfl
  | (_, _) :: _, (_, _) :: _, h => by
      obtain ⟨hFirst, hRest⟩ := Bool.and_eq_true_iff.1 h
      obtain ⟨_, hValue⟩ := Bool.and_eq_true_iff.1 hFirst
      exact Bool.and_eq_true_iff.2 ⟨Bool.and_eq_true_iff.2
        ⟨beq_self_eq_true _, equal_self_of_equal hValue⟩,
        equalMembers_self hRest⟩

end

end Json

namespace Value

/-- A value equals itself unless it is a NaN, or a document with one in it. -/
theorem equal_self_iff (v : Value) : v.equal v = true ↔
    (∀ x, v = .float x → x.isNaN = false) ∧
      ∀ j, v = .json j → j.equal j = true := by
  cases v <;> simp [equal, Double.equal_self_iff]

theorem equal_self_of_equal {a b : Value} (h : a.equal b = true) :
    b.equal b = true := by
  cases a <;> cases b <;> try cases h
  all_goals try simp [equal]
  · exact Double.equal_self_of_equal h
  · exact Json.equal_self_of_equal h

theorem equalAll_self_of_equalAll {as bs : List Value}
    (h : equalAll as bs = true) : equalAll bs bs = true := by
  induction as generalizing bs with
  | nil =>
      cases bs with
      | nil => rfl
      | cons _ _ => cases h
  | cons a rest ih =>
      cases bs with
      | nil => cases h
      | cons b others =>
          obtain ⟨hFirst, hRest⟩ := Bool.and_eq_true_iff.1 h
          exact Bool.and_eq_true_iff.2
            ⟨equal_self_of_equal hFirst, ih hRest⟩

end Value

/-- The values of an instance can be read and are equal to themselves. -/
def Heap.Comparable (schema : Schema) (heap : Heap) (ref : Ref) : Prop :=
  ∃ values, heap.snapshot schema ref = .ok values ∧
    Value.equalAll values values = true

/-- It is so unless a column has a value that is not equal to itself. -/
theorem Heap.comparable_iff {d : Descriptor}
    (hD : schema.descriptor (heap.get ref).type = .ok d)
    (hReadable : (heap.get ref).isReadable = true) :
    heap.Comparable schema ref ↔ ∀ c ∈ d.scalarColumns,
      ((heap.get ref).scalar c.field).equal
        ((heap.get ref).scalar c.field) = true := by
  have hValues : heap.snapshot schema ref =
      .ok (d.snapshot (heap.get ref)) :=
    Heap.snapshot_eq_ok_iff.2 ⟨d, hD, hReadable, rfl⟩
  constructor
  · rintro ⟨values, hSame, hEqual⟩
    rw [hValues] at hSame
    cases hSame
    exact Value.equalAll_map_iff.1 hEqual
  · exact fun hAll => ⟨_, hValues, Value.equalAll_map_iff.2 hAll⟩

/-- Stale or not, a snapshot counts for an entity whose values are not equal to
themselves as if there was none. -/
theorem Context.isStale_of_not_self {ctx : Context} {values : List Value}
    (h : Value.equalAll values values = false) :
    ctx.isStale key values = true := by
  unfold isStale
  split
  · rename_i taken _
    cases hEqual : Value.equalAll taken values with
    | false => rfl
    | true =>
        rw [Value.equalAll_self_of_equalAll hEqual] at h
        cases h
  · rfl

/-! ## What a flush leaves under the keys of entities -/

namespace Context

/-- Of the snapshots that the dirty check takes under a key the last one
counts. -/
theorem snapshot?_storeAll (dirty : List Dirty) (ctx : Context) (key : Key) :
    (dirty.foldl (fun ctx d => ctx.store d.key d.values) ctx).snapshot? key =
      match (dirty.filter fun d => d.key = key).getLast? with
      | some d => some d.values
      | none => ctx.snapshot? key := by
  induction dirty generalizing ctx with
  | nil => rfl
  | cons d rest ih =>
      rw [List.foldl_cons, ih]
      by_cases hKey : d.key = key
      · rw [List.filter_cons, if_pos (decide_eq_true hKey),
          List.getLast?_cons]
        cases (rest.filter fun d => d.key = key).getLast? with
        | some _ => rfl
        | none =>
            rw [← hKey]
            exact Assoc.lookup_insert_self ..
      · have hNot : ¬ decide (d.key = key) = true :=
          fun hTrue => hKey (of_decide_eq_true hTrue)
        rw [List.filter_cons, if_neg hNot]
        cases (rest.filter fun d => d.key = key).getLast? with
        | some _ => rfl
        | none => exact Assoc.lookup_insert_ne (Ne.symm hKey) ..

theorem eq_storeAll_of_diff {ctx next : Context} {dirty : List Dirty}
    (h : ctx.diff schema heap = .ok (dirty, next)) :
    next = dirty.foldl (fun ctx d => ctx.store d.key d.values) ctx := by
  obtain ⟨found, _, hDone⟩ := except_bind_eq_ok.1 h
  cases hDone
  rfl

end Context

/-- What inserts leave under the key of an entity: what was there before, or an
entity that is inserted, with its snapshot if it is inserted once. -/
theorem Action.entry_of_inserts [Driver σ] {p : Persister} {conn : ConnId}
    {actions : List Action} {work last : Work σ}
    (hInserts : ∀ a ∈ actions, a.kind = .insert)
    (hRun : (executeAll p conn actions).run work = (.ok (), last))
    (hGet : last.context.get? key = some ref) :
    last.context.entry key = work.context.entry key ∨
      ⟨.insert, ref⟩ ∈ actions ∧ ∃ values,
        last.env.heap.snapshot p.schema ref = .ok values ∧
          (¬ List.Duplicate ⟨.insert, ref⟩ actions →
            last.context.snapshot? key = some values) := by
  induction actions generalizing work with
  | nil =>
      cases hRun
      exact Or.inl rfl
  | cons action rest ih =>
      obtain ⟨mid, hFollow, hGo⟩ := executeAll_cons_ok hRun
      have hKind := hInserts action (List.mem_cons_self ..)
      obtain ⟨kind, entity⟩ := action
      cases hKind
      rcases ih (fun b hB => hInserts b (List.mem_cons_of_mem _ hB)) hGo with
        hSame | ⟨hMem, values, hValues, hTaken⟩
      · obtain ⟨resident, hCache⟩ := follow_insert hFollow
        obtain ⟨own, _, ⟨_, hOld⟩ | ⟨_, _, values, hValues, hNew⟩⟩ :=
          Context.Coherent.cache_cases hCache
        · exact Or.inl (by rw [hSame, hOld])
        · by_cases hKey : key = own
          · -- The entity that is looked after newly is this one.
            subst hKey
            rw [hNew, Context.entry_register_self] at hSame
            have hEntity : entity = ref := Option.some.inj
              ((congrArg Context.Entry.entity? hSame).symm.trans hGet)
            subst hEntity
            have hUnderway := executeAll_underway p conn rest mid
            rw [hGo] at hUnderway
            obtain ⟨current, hCurrent⟩ :=
              hUnderway.keyed.exists_snapshot hValues
            refine Or.inr ⟨List.mem_cons_self .., current, hCurrent, ?_⟩
            intro hOnce
            have hLater : ∀ a ∈ rest, a ≠ ⟨.insert, entity⟩ := by
              rintro a hA rfl
              exact hOnce (List.Mem.duplicate_cons_self hA)
            rw [Heap.snapshot_of_get_eq (get_of_executeAll hLater hGo),
              hValues] at hCurrent
            cases hCurrent
            exact congrArg Context.Entry.values? hSame
          · refine Or.inl ?_
            rw [hSame, hNew, Context.entry_register_ne _ hKey]
      · refine Or.inr ⟨List.mem_cons_of_mem _ hMem, values, hValues, ?_⟩
        exact fun hOnce => hTaken fun hTwice => hOnce (hTwice.duplicate_cons _)

namespace Session

/-- Why the snapshot of an entity may be another's or out of date after a
flush. -/
inductive Displaced (p : Persister) (scope : Scope σ) (heap : Heap) (key : Key)
    (ref : Ref) : Prop
  /-- Another entity that was updated has got its key. -/
  | overwritten {d : Dirty} (hDirty : IsDirty p scope d) (hNe : d.ref ≠ ref)
      (hBears : heap.Bears p.schema d.ref key)
  /-- It was inserted though it had been looked after under the key. -/
  | inserted (hHeld : scope.session.context.get? key = some ref)
      (hWaits : ⟨.insert, ref⟩ ∈ scope.session.queue.pending)
  /-- It was inserted more than once. -/
  | repeated (hTwice : List.Duplicate ⟨.insert, ref⟩
      (scope.session.queue.ofKind .insert))

variable [Driver σ] {p : Persister} {scope after : Scope σ}

namespace Staged

variable {dirty : List Dirty} {conn : ConnId} {begun mid last : Work σ}

/-- What is looked after in the end was so before the second stage, and no
entity with its key was deleted. -/
theorem kept_of_get? (h : Staged p scope dirty conn begun mid last)
    (hGet : last.context.get? key = some ref) :
    mid.context.get? key = some ref ∧
      ∀ a ∈ scope.session.queue.ofKind .delete,
        ¬ last.env.heap.Bears p.schema a.entity key := by
  have hKept : ∀ a ∈ scope.session.queue.ofKind .delete,
      ¬ last.env.heap.Bears p.schema a.entity key := by
    intro a hA hBears
    have hEntry := h.entry_of_deleted ⟨a, hA, hBears⟩
    cases hGet.symm.trans (congrArg Context.Entry.entity? hEntry)
  have hEntry := h.entry_of_kept hKept
  exact ⟨(congrArg Context.Entry.entity? hEntry).symm.trans hGet, hKept⟩

/-- What has been looked after before can be read, and its snapshot is brought
up to date. -/
theorem exists_snapshot?_begun (h : Staged p scope dirty conn begun mid last)
    (hRegular : scope.session.Regular)
    (hGet : scope.session.context.get? key = some ref) :
    ∃ values taken, scope.heap.snapshot p.schema ref = .ok values ∧
      begun.context.snapshot? key = some taken ∧
        (taken = values ∨ Value.equalAll taken values = true) := by
  obtain ⟨values, hValues⟩ := Context.diff_isOk_iff.1
    ⟨dirty, begun.context, h.diff⟩ (key, ref) (Assoc.mem_of_lookup hGet)
  have hMem := (h.lists hRegular).mem
  have hSnapshot := Context.snapshot?_storeAll dirty scope.session.context key
  rw [← Context.eq_storeAll_of_diff h.diff] at hSnapshot
  refine ⟨values, ?_⟩
  cases hLast : (dirty.filter fun d => d.key = key).getLast? with
  | some d =>
      rw [hLast] at hSnapshot
      obtain ⟨hD, hKey⟩ := List.mem_filter.1 (List.mem_of_getLast? hLast)
      obtain ⟨hHeld, hOwn, _⟩ := (hMem d).1 hD
      rw [of_decide_eq_true hKey, hGet] at hHeld
      rw [← Option.some.inj hHeld, hValues] at hOwn
      exact ⟨d.values, hValues, hSnapshot, Or.inl (Except.ok.inj hOwn).symm⟩
  | none =>
      rw [hLast] at hSnapshot
      have hClean : scope.session.context.isStale key values = false := by
        refine Bool.eq_false_iff.2 fun hStale => ?_
        have hThere : (⟨key, ref, values⟩ : Dirty) ∈
            dirty.filter fun d => d.key = key :=
          List.mem_filter.2 ⟨(hMem _).2 ⟨hGet, hValues, hStale⟩,
            decide_eq_true rfl⟩
        rw [List.getLast?_eq_none_iff.1 hLast] at hThere
        cases hThere
      unfold Context.isStale at hClean
      split at hClean
      · rename_i taken hTaken
        refine ⟨taken, hValues, hSnapshot.trans hTaken, Or.inr ?_⟩
        simpa using hClean
      · cases hClean

/-- Where an entity comes from that is looked after in the end: it was so
before, or it was inserted. -/
theorem origin (h : Staged p scope dirty conn begun mid last)
    (hGet : last.context.get? key = some ref) :
    (scope.session.context.get? key = some ref ∧
      mid.context.snapshot? key = begun.context.snapshot? key) ∨
    ⟨.insert, ref⟩ ∈ scope.session.queue.pending ∧ ∃ values,
      last.env.heap.snapshot p.schema ref = .ok values ∧
        (¬ List.Duplicate ⟨.insert, ref⟩
            (scope.session.queue.ofKind .insert) →
          mid.context.snapshot? key = some values) := by
  obtain ⟨hMid, _⟩ := h.kept_of_get? hGet
  rcases Action.entry_of_inserts (fun _ hA => Queue.kind_of_mem_ofKind hA)
    h.inserted hMid with hSame | ⟨hMem, values, hValues, hTaken⟩
  · refine Or.inl ⟨?_, congrArg Context.Entry.values? hSame⟩
    have hBegun := (congrArg Context.Entry.entity? hSame).symm.trans hMid
    simp only [Context.entry, Context.get?,
      Context.entities_of_diff h.diff] at hBegun
    exact hBegun
  · rw [h.heap_last]
    exact Or.inr ⟨(List.mem_filter.1 hMem).1, values, hValues, hTaken⟩

/-- Everything that is looked after in the end can be read. -/
theorem exists_values (h : Staged p scope dirty conn begun mid last)
    (hRegular : scope.session.Regular)
    (hGet : last.context.get? key = some ref) :
    ∃ values, last.env.heap.snapshot p.schema ref = .ok values := by
  rcases h.origin hGet with ⟨hHeld, _⟩ | ⟨_, values, hValues, _⟩
  · obtain ⟨values, _, hValues, _⟩ := h.exists_snapshot?_begun hRegular hHeld
    exact h.keyed.exists_snapshot hValues
  · exact ⟨values, hValues⟩

/-- The snapshot of an entity that is not displaced is its values, or equal to
them. -/
theorem snapshot?_of_home (h : Staged p scope dirty conn begun mid last)
    (hRegular : scope.session.Regular)
    (hGet : last.context.get? key = some ref)
    (hHome : ¬ Displaced p scope last.env.heap key ref) :
    ∃ values taken, last.env.heap.snapshot p.schema ref = .ok values ∧
      last.context.snapshot? key = some taken ∧
        (taken = values ∨ Value.equalAll taken values = true) := by
  obtain ⟨_, hKept⟩ := h.kept_of_get? hGet
  have hEntry := congrArg Context.Entry.values? (h.entry_of_kept hKept)
  cases hLast : (dirty.filter fun d =>
      last.env.heap.Bears p.schema d.ref key).getLast? with
  | some d =>
      obtain ⟨hD, hBears⟩ := List.mem_filter.1 (List.mem_of_getLast? hLast)
      have hOwn : d.ref = ref := by
        by_contra hNe
        exact hHome (.overwritten (((h.lists hRegular).mem d).1 hD) hNe
          (of_decide_eq_true hBears))
      obtain ⟨values, hValues⟩ := h.exists_values hRegular hGet
      rw [hLast] at hEntry
      simp only [hOwn, hValues] at hEntry
      exact ⟨values, values, hValues, hEntry, Or.inl rfl⟩
  | none =>
      rw [hLast] at hEntry
      rcases h.origin hGet with
        ⟨hHeld, hSame⟩ | ⟨_, values, hValues, hTaken⟩
      · obtain ⟨values, taken, hValues, hBegun, hEqual⟩ :=
          h.exists_snapshot?_begun hRegular hHeld
        have hUntouched : last.env.heap.get ref = scope.heap.get ref :=
          (h.keyed.get ref).resolve_right fun hChanged =>
            hHome (.inserted hHeld (List.mem_filter.1 hChanged.1).1)
        rw [← Heap.snapshot_of_get_eq hUntouched] at hValues
        exact ⟨values, taken, hValues, hEntry.trans (hSame.trans hBegun),
          hEqual⟩
      · exact ⟨values, values, hValues, hEntry.trans
          (hTaken fun hTwice => hHome (.repeated hTwice)), Or.inl rfl⟩

/-- An entity that is not displaced is not dirty after the flush if its values
are equal to themselves. -/
theorem clean_of_home (h : Staged p scope dirty conn begun mid last)
    (hRegular : scope.session.Regular)
    (hGet : last.context.get? key = some ref)
    (hHome : ¬ Displaced p scope last.env.heap key ref)
    (hSelf : last.env.heap.Comparable p.schema ref) {values : List Value}
    (hValues : last.env.heap.snapshot p.schema ref = .ok values) :
    last.context.isStale key values = false := by
  obtain ⟨own, taken, hOwn, hTaken, hEqual⟩ :=
    h.snapshot?_of_home hRegular hGet hHome
  obtain ⟨same, hSame, hReflexive⟩ := hSelf
  cases hValues.symm.trans hOwn
  cases hValues.symm.trans hSame
  have hClean : Value.equalAll taken values = true := by
    rcases hEqual with rfl | hEqual
    · exact hReflexive
    · exact hEqual
  rw [Context.isStale, hTaken]
  simp only [hClean, Bool.not_true]

/-- In a tidy session no entity is displaced. -/
theorem home_of_tidy (h : Staged p scope dirty conn begun mid last)
    (hTidy : Tidy p scope) (hGet : last.context.get? key = some ref) :
    ¬ Displaced p scope last.env.heap key ref := by
  rintro (⟨hDirty, hNe, hBears⟩ | ⟨hHeld, hWaits⟩ | ⟨hTwice⟩)
  · rename_i d
    have hHeld := hDirty.1
    have hUntouched : last.env.heap.get d.ref = scope.heap.get d.ref :=
      (h.keyed.get d.ref).resolve_right fun hChanged =>
        (hTidy.inserts d.ref (List.mem_filter.1 hChanged.1).1).2 d.key hHeld
    have hOwn : d.key = key := ((hTidy.coherent.bears d.key d.ref
      hHeld).of_get_eq hUntouched).unique hBears
    have hThere := h.within d.key d.ref hHeld
    rw [hOwn, (h.kept_of_get? hGet).1] at hThere
    exact hNe (Option.some.inj hThere).symm
  · exact (hTidy.inserts ref hWaits).2 key hHeld
  · exact hTwice.not_nodup hTidy.nodup

end Staged

/-! ## Flushing again -/

/-- A flush of an open session in which nothing waits does nothing at all
exactly if no entity is dirty. -/
theorem flush_eq_self_iff (hRegular : scope.session.Regular)
    (hOpen : scope.session.isOpen = true) (hQueue : scope.session.queue = {})
    (hReadable : ∀ key ref, scope.session.context.get? key = some ref →
      ∃ values, scope.heap.snapshot p.schema ref = .ok values) :
    (flush p).run scope = (.ok (), scope) ↔ ∀ d, ¬ IsDirty p scope d := by
  have hFlushed := flushed p scope
  constructor
  · intro hRun d hDirty
    rw [hRun] at hFlushed
    obtain ⟨dirty, conn, _, _, _, calls, hMade, hMoves⟩ :=
      moved_of_flushed hRegular hFlushed (Or.inr ⟨d, hDirty⟩)
    have hCalls : calls = [] :=
      (hMade.unique (Env.Made.refl conn scope.env)).1.symm
    have hLength := hMoves.length_eq
    rw [hCalls, flushMoves, moves] at hLength
    simp at hLength
  · intro hNone
    have hSame := flush_of_nothing hRegular hQueue hNone
    have hNil : ∀ {dirty ctx},
        scope.session.context.diff p.schema scope.heap = .ok (dirty, ctx) →
          scope.session.planned dirty = [] :=
      planned_of_nothing hRegular hQueue hNone
    generalize (flush p).run scope = result at hFlushed ⊢
    obtain ⟨r, after⟩ := result
    cases hFlushed with
    | idle _ _ _ => rfl
    | closed hClosed => cases hOpen.symm.trans hClosed
    | unreadable _ hDiff =>
        obtain ⟨dirty, ctx, hOk⟩ := Context.diff_isOk_iff.2
          fun entry hEntry => hReadable entry.1 entry.2
            (Assoc.lookup_of_mem hRegular.nodup hEntry)
        cases hDiff.symm.trans hOk
    | unconnected _ hDiff hPending _ _ => exact absurd (hNil hDiff) hPending
    | committed _ hDiff hPending _ _ => exact absurd (hNil hDiff) hPending
    | rolledBack _ hDiff hPending _ _ _ => exact absurd (hNil hDiff) hPending
    | discarded _ hDiff hPending _ _ _ => exact absurd (hNil hDiff) hPending

/-- What the instances of a session are when nobody has touched its entities
since: their values are the same. -/
def Untouched (p : Persister) (scope : Scope σ) (backend : Backend σ) : Prop :=
  ∀ key ref, scope.session.context.get? key = some ref →
    backend.env.heap.snapshot p.schema ref = scope.heap.snapshot p.schema ref

omit [Driver σ] in
/-- Values that nobody has touched are equal to themselves as before. -/
theorem Untouched.comparable_iff {backend : Backend σ}
    (h : Untouched p scope backend)
    (hGet : scope.session.context.get? key = some ref) :
    backend.env.heap.Comparable p.schema ref ↔
      scope.heap.Comparable p.schema ref := by
  unfold Heap.Comparable
  rw [h key ref hGet]

omit [Driver σ] in
/-- An entity whose values are not equal to themselves is dirty. -/
theorem exists_isDirty_of_not_comparable {values : List Value}
    (hGet : scope.session.context.get? key = some ref)
    (hValues : scope.heap.snapshot p.schema ref = .ok values)
    (hNot : ¬ scope.heap.Comparable p.schema ref) :
    ∃ values, IsDirty p scope ⟨key, ref, values⟩ :=
  ⟨values, hGet, hValues, Context.isStale_of_not_self
    (Bool.eq_false_iff.2 fun hEqual => hNot ⟨values, hValues, hEqual⟩)⟩

/-- An entity that is dirty though nobody has touched it since a flush was
displaced by the flush if its values are equal to themselves. -/
theorem Staged.displaced_of_isDirty {dirty : List Dirty} {conn : ConnId}
    {begun mid last : Work σ} {backend : Backend σ} {d : Dirty}
    (h : Staged p scope dirty conn begun mid last)
    (hRegular : scope.session.Regular)
    (hContext : after.session.context = last.context)
    (hHeap : after.heap = last.env.heap)
    (hUntouched : Untouched p after backend)
    (hDirty : IsDirty p { after with backend := backend } d)
    (hSelf : after.heap.Comparable p.schema d.ref) :
    Displaced p scope after.heap d.key d.ref := by
  obtain ⟨hGet, hValues, hStale⟩ := hDirty
  by_contra hHome
  have hOwn : backend.env.heap.snapshot p.schema d.ref = .ok d.values :=
    hValues
  rw [hUntouched d.key d.ref hGet, hHeap] at hOwn
  rw [hHeap] at hSelf hHome
  have hThere : last.context.get? d.key = some d.ref := hContext ▸ hGet
  have hClean := h.clean_of_home hRegular hThere hHome hSelf hOwn
  rw [← hContext] at hClean
  cases hStale.symm.trans hClean

/-- After a flush that succeeds, on any run, and with entities that nobody has
touched since: a second flush succeeds and does nothing at all exactly if no
entity is dirty; an entity whose values are not equal to themselves is dirty,
and any other one only if it was displaced. So if the application neither
changes identifiers nor persists twice, the second flush does nothing exactly
if the values of all entities are equal to themselves. -/
theorem flush_twice {Allowed : Scope σ → Operation → Prop}
    {Outside : Scope σ → Backend σ → Prop} {start : Scope σ}
    (hContext : start.session.context = {}) (hQueue : start.session.queue = {})
    (hReaches : Reaches p Allowed Outside start scope)
    (hRun : (flush p).run scope = (.ok (), after)) (backend : Backend σ)
    (hUntouched : Untouched p after backend) :
    ((flush p).run { after with backend := backend } =
        (.ok (), { after with backend := backend }) ↔
      ∀ d, ¬ IsDirty p { after with backend := backend } d) ∧
    (∀ key ref, after.session.context.get? key = some ref →
      ¬ after.heap.Comparable p.schema ref →
        ∃ values, IsDirty p { after with backend := backend }
          ⟨key, ref, values⟩) ∧
    (∀ d, IsDirty p { after with backend := backend } d →
      after.heap.Comparable p.schema d.ref →
        Displaced p scope after.heap d.key d.ref) ∧
    (p.schema.IdentifierAlone → (∀ s op, Allowed s op → Proper s op) →
      (∀ s b, Outside s b → Respects p s b) →
      ((flush p).run { after with backend := backend } =
          (.ok (), { after with backend := backend }) ↔
        ∀ key ref, after.session.context.get? key = some ref →
          after.heap.Comparable p.schema ref)) := by
  have hRegular : scope.session.Regular :=
    regular_of_reaches hReaches (regular_of_empty hContext hQueue)
  have hFlushed := flushed p scope
  rw [hRun] at hFlushed
  obtain ⟨hOpen, hEmpty⟩ := open_of_flushed hFlushed
  have hAfter : after.session.Regular := hRegular.flush hFlushed
  obtain ⟨dirty, conn, begun, mid, last, hStaged, hLeft, hHeap⟩ :=
    staged_of_flushed hRegular hFlushed
  have hReadable : ∀ key ref, after.session.context.get? key = some ref →
      ∃ values, backend.env.heap.snapshot p.schema ref = .ok values := by
    intro key ref hGet
    rw [hUntouched key ref hGet, hHeap]
    rw [hLeft] at hGet
    exact hStaged.exists_values hRegular hGet
  have hSilent : (flush p).run { after with backend := backend } =
      (.ok (), { after with backend := backend }) ↔
        ∀ d, ¬ IsDirty p { after with backend := backend } d :=
    flush_eq_self_iff hAfter hOpen hEmpty hReadable
  have hUnequal : ∀ key ref, after.session.context.get? key = some ref →
      ¬ after.heap.Comparable p.schema ref →
        ∃ values, IsDirty p { after with backend := backend }
          ⟨key, ref, values⟩ := by
    intro key ref hGet hNot
    obtain ⟨values, hValues⟩ := hReadable key ref hGet
    exact exists_isDirty_of_not_comparable hGet hValues
      fun hSelf => hNot ((hUntouched.comparable_iff hGet).1 hSelf)
  have hOther : ∀ d, IsDirty p { after with backend := backend } d →
      after.heap.Comparable p.schema d.ref →
        Displaced p scope after.heap d.key d.ref := fun _ hDirty =>
    hStaged.displaced_of_isDirty hRegular hLeft hHeap hUntouched hDirty
  refine ⟨hSilent, hUnequal, hOther, ?_⟩
  intro hAlone hProper hRespects
  have hTidy : Tidy p scope :=
    hReaches.invariant (I := Tidy p)
      (fun s op h hAllowed => h.perform hAlone (hProper s op hAllowed))
      (fun s b h hOut => h.outside (hRespects s b hOut))
      (tidy_of_empty hContext hQueue)
  rw [hSilent]
  constructor
  · intro hNone key ref hGet
    by_contra hNot
    obtain ⟨values, hDirty⟩ := hUnequal key ref hGet hNot
    exact hNone _ hDirty
  · intro hAll d hDirty
    have hGet : after.session.context.get? d.key = some d.ref := hDirty.1
    have hDisplaced := hOther d hDirty (hAll d.key d.ref hGet)
    rw [hHeap] at hDisplaced
    rw [hLeft] at hGet
    exact hStaged.home_of_tidy hTidy hGet hDisplaced

end Session

namespace Samples

/-- A session that looks after one sample. -/
def looked : Scope Store :=
  (Operation.find "Sample" (.int 1)).perform persister
    (scope [[.int 1, .float ⟨0⟩]])

/-- The sample has another reading. -/
def measured (x : Double) : Backend Store :=
  { looked.backend with
    env := looked.env.update 0 fun e => e.set "reading" (.scalar (.float x)) }

/-- The new reading has been written. -/
def written (x : Double) : Scope Store :=
  ((Session.flush persister).run { looked with backend := measured x }).2

def nan : Double := ⟨0x7ff8000000000000⟩

def twelve : Double := ⟨0x4028000000000000⟩

/-- The session looks after the one sample. -/
theorem get?_looked {key : Key} {ref : Ref}
    (hGet : looked.session.context.get? key = some ref) :
    key = ⟨"Sample", .int 1⟩ ∧ ref = 0 := by
  have hEntities : looked.session.context.entities =
      [(⟨"Sample", .int 1⟩, 0)] := by decide +kernel
  have hMem := Assoc.mem_of_lookup hGet
  rw [hEntities] at hMem
  cases List.mem_singleton.1 hMem
  exact ⟨rfl, rfl⟩

/-- Another reading is no other identifier. -/
theorem respects_measured (x : Double) :
    Session.Respects persister looked (measured x) := by
  refine ⟨Nat.le_of_eq (Heap.next_modify ..).symm, ?_⟩
  rintro key ref hGet ⟨hType, d, hD, hId⟩
  obtain ⟨_, rfl⟩ := get?_looked hGet
  have hHeap : (measured x).env.heap.get 0 =
      (looked.heap.get 0).set "reading" (.scalar (.float x)) :=
    Heap.get_modify_self (by decide +kernel) _
  refine ⟨?_, d, hD, ?_⟩
  · rw [hHeap]
    exact hType
  · obtain ⟨_, rfl⟩ := descriptor_schema hD
    rw [hHeap, Descriptor.entityId, Descriptor.idValue,
      Instance.scalar_set_ne _ (by decide)]
    exact hId

theorem reaches_measured (x : Double) :
    Session.Reaches persister Session.Proper (Session.Respects persister)
      (scope [[.int 1, .float ⟨0⟩]]) { looked with backend := measured x } :=
  (Session.Reaches.start.operation (.find "Sample" (.int 1)) trivial).outside
    (measured x) (respects_measured x)

/-- A sample can be compared exactly if its values equal themselves. -/
theorem comparable_iff {heap : Heap} (hType : (heap.get 0).type = "Sample")
    (hReadable : (heap.get 0).isReadable = true) :
    heap.Comparable Samples.schema 0 ↔ ∀ c ∈ [number, reading],
      ((heap.get 0).scalar c.field).equal
        ((heap.get 0).scalar c.field) = true := by
  have hD : Samples.schema.descriptor (heap.get 0).type = .ok ⟨"Sample",
      "samples", [.column number, .column reading], number⟩ := by
    rw [hType]
    rfl
  exact Heap.comparable_iff hD hReadable

end Samples

/-- A reading that is a number is written once, and one that is not is written
again. -/
theorem Session.flush_twice_of_samples :
    (flush Samples.persister).run (Samples.written Samples.twelve) =
      (.ok (), Samples.written Samples.twelve) ∧
    (flush Samples.persister).run (Samples.written Samples.nan) ≠
      (.ok (), Samples.written Samples.nan) := by
  have hTwelve : (flush Samples.persister).run
      { Samples.looked with backend := Samples.measured Samples.twelve } =
        (.ok (), Samples.written Samples.twelve) :=
    run_eq_of_isOk (by decide +kernel)
  have hNan : (flush Samples.persister).run
      { Samples.looked with backend := Samples.measured Samples.nan } =
        (.ok (), Samples.written Samples.nan) :=
    run_eq_of_isOk (by decide +kernel)
  obtain ⟨_, _, _, hFirst⟩ := flush_twice rfl rfl
    (Samples.reaches_measured Samples.twelve) hTwelve
    (Samples.written Samples.twelve).backend (fun _ _ _ => rfl)
  obtain ⟨hSilent, hUnequal, _⟩ := flush_twice rfl rfl
    (Samples.reaches_measured Samples.nan) hNan
    (Samples.written Samples.nan).backend (fun _ _ _ => rfl)
  refine ⟨(hFirst Samples.identifierAlone_schema (fun _ _ h => h)
    (fun _ _ h => h)).2 ?_, ?_⟩
  · intro key ref hGet
    have hEntities : (Samples.written Samples.twelve).session.context.entities =
        [(⟨"Sample", .int 1⟩, 0)] := by decide +kernel
    have hMem := Assoc.mem_of_lookup hGet
    rw [hEntities] at hMem
    cases List.mem_singleton.1 hMem
    exact (Samples.comparable_iff (by decide +kernel)
      (by decide +kernel)).2 (by decide +kernel)
  · intro hAgain
    obtain ⟨values, hDirty⟩ := hUnequal ⟨"Sample", .int 1⟩ 0
      (by decide +kernel) fun hSelf => by
        have hAll := (Samples.comparable_iff (by decide +kernel)
          (by decide +kernel)).1 hSelf
        exact absurd (hAll Samples.reading (by decide)) (by decide +kernel)
    exact hSilent.1 hAgain _ hDirty

end UnitOfWork

import Mathlib.Data.List.Nodup
import UnitOfWork.Proofs.ByteOrder
import UnitOfWork.Proofs.Quiescence

/-!
# The dirty check

The dirty check goes through the entities of a context in the order in which
they happen to be kept, and sorts what it finds. Keys are totally ordered and
each stands once, so the list is the only one with these members in this
order: it does not depend on where the check begins. The snapshots that are
brought up to date are those of the keys that are reported, each once.

The check fails when one of the entities cannot be looked at, because it is on
loan for change or its type has no valid mapping; then nothing has been
changed.

## Main results

* `Context.reports_of_diff`: what the dirty check reports and leaves;
* `Context.Reports.unique`: no other list is a report;
* `Context.conceals_of_diff`: why it fails;
* `Session.dirty_check`: the dirty check, whatever the order of the entities.
-/

namespace UnitOfWork

/-! ## Maps in any order -/

namespace Assoc

variable {κ α : Type} [DecidableEq κ] {pairs others : List (κ × α)}

theorem mem_iff_lookup (h : (keys pairs).Nodup) {key : κ} {value : α} :
    (key, value) ∈ pairs ↔ List.lookup key pairs = some value :=
  ⟨lookup_of_mem h, mem_of_lookup⟩

omit [DecidableEq κ] in
theorem nodup_keys_perm (h : (keys pairs).Nodup) (hPerm : others.Perm pairs) :
    (keys others).Nodup :=
  (hPerm.map Prod.fst).nodup_iff.2 h

/-- What is found under a key does not depend on the order of the pairs. -/
theorem lookup_perm (h : (keys pairs).Nodup) (hPerm : others.Perm pairs)
    (key : κ) : List.lookup key others = List.lookup key pairs := by
  have hOthers := nodup_keys_perm h hPerm
  refine Option.ext fun value => ?_
  rw [← mem_iff_lookup hOthers, ← mem_iff_lookup h, hPerm.mem_iff]

/-- Maps that agree on every key differ at most in their order. -/
theorem perm_of_lookup (h : (keys pairs).Nodup) (hOthers : (keys others).Nodup)
    (hSame : ∀ key, List.lookup key others = List.lookup key pairs) :
    others.Perm pairs := by
  refine (List.perm_ext_iff_of_nodup hOthers.of_map h.of_map).2 ?_
  rintro ⟨key, value⟩
  rw [mem_iff_lookup hOthers, mem_iff_lookup h, hSame]

end Assoc

namespace Context

/-- Each key stands once: the lists of a context are maps. -/
structure KeysOnce (ctx : Context) : Prop where
  entities : (Assoc.keys ctx.entities).Nodup
  snapshots : (Assoc.keys ctx.snapshots).Nodup

/-- Two contexts hold the same, in any order. -/
structure Alike (ctx other : Context) : Prop where
  entities : other.entities.Perm ctx.entities
  snapshots : other.snapshots.Perm ctx.snapshots

variable {schema : Schema} {heap : Heap} {ctx other next : Context}
  {dirty again : List Dirty} {e : Error}

namespace Alike

theorem keysOnce (h : ctx.Alike other) (hOnce : ctx.KeysOnce) :
    other.KeysOnce :=
  ⟨Assoc.nodup_keys_perm hOnce.entities h.entities,
    Assoc.nodup_keys_perm hOnce.snapshots h.snapshots⟩

theorem get?_eq (h : ctx.Alike other) (hOnce : ctx.KeysOnce) (key : Key) :
    other.get? key = ctx.get? key :=
  Assoc.lookup_perm hOnce.entities h.entities key

theorem snapshot?_eq (h : ctx.Alike other) (hOnce : ctx.KeysOnce) (key : Key) :
    other.snapshot? key = ctx.snapshot? key :=
  Assoc.lookup_perm hOnce.snapshots h.snapshots key

end Alike

/-- Taking over snapshots repeats no key. -/
theorem KeysOnce.storeAll (h : ctx.KeysOnce) (dirty : List Dirty) :
    (dirty.foldl (fun ctx d => ctx.store d.key d.values) ctx).KeysOnce := by
  induction dirty generalizing ctx with
  | nil => exact h
  | cons d rest ih =>
      exact ih ⟨h.entities, Assoc.nodup_keys_insert h.snapshots d.key d.values⟩

/-! ## What the check reports -/

/-- What the dirty check of a context reports and leaves. -/
structure Reports (schema : Schema) (heap : Heap) (ctx : Context)
    (dirty : List Dirty) (next : Context) : Prop where
  /-- In the order of the keys, and no key twice. -/
  sorted : dirty.Pairwise fun a b => a.key.Before b.key
  /-- The entities that have no snapshot or differ from it, as they are. -/
  mem : ∀ d, d ∈ dirty ↔ ctx.get? d.key = some d.ref ∧
    heap.snapshot schema d.ref = .ok d.values ∧
      ∀ taken, ctx.snapshot? d.key = some taken →
        Value.equalAll taken d.values = false
  entities : next.entities = ctx.entities
  refreshed : ∀ d ∈ dirty, next.snapshot? d.key = some d.values
  kept : ∀ key, (∀ d ∈ dirty, d.key ≠ key) →
    next.snapshot? key = ctx.snapshot? key

/-- An entity is stale if it has no snapshot that its values are equal to. -/
theorem isStale_iff {key : Key} {values : List Value} :
    ctx.isStale key values = true ↔ ∀ taken, ctx.snapshot? key = some taken →
      Value.equalAll taken values = false := by
  unfold isStale
  cases ctx.snapshot? key <;> simp

/-- What is found stands in the order of the entries. -/
theorem dirtyEntries_sublist {entries : List (Key × Ref)}
    (h : ctx.dirtyEntries schema heap entries = .ok dirty) :
    (dirty.map fun d => (d.key, d.ref)).Sublist entries := by
  induction entries generalizing dirty with
  | nil =>
      cases h
      exact List.Sublist.refl _
  | cons entry rest ih =>
      obtain ⟨key, ref⟩ := entry
      obtain ⟨values, hValues, hRest⟩ := except_bind_eq_ok.1 h
      obtain ⟨others, hOthers, hDirty⟩ := except_bind_eq_ok.1 hRest
      have hSublist := ih hOthers
      cases hDirty
      split
      · exact hSublist.cons_cons (key, ref)
      · exact hSublist.cons (key, ref)

/-- No key is reported twice. -/
theorem nodup_keys_of_diff (hOnce : ctx.KeysOnce)
    (h : ctx.diff schema heap = .ok (dirty, next)) :
    (dirty.map Dirty.key).Nodup := by
  obtain ⟨found, hFound, hDone⟩ := except_bind_eq_ok.1 h
  cases hDone
  have hKeys : (found.map Dirty.key).Sublist (Assoc.keys ctx.entities) := by
    have hSublist := (dirtyEntries_sublist hFound).map Prod.fst
    rwa [List.map_map] at hSublist
  exact ((sortEntries_perm found).map Dirty.key).nodup_iff.2
    (hOnce.entities.sublist hKeys)

/-- A key that is reported once is the key of one entity. -/
theorem filter_key_eq (h : (dirty.map Dirty.key).Nodup) {d : Dirty}
    (hD : d ∈ dirty) : dirty.filter (fun other => other.key = d.key) = [d] := by
  induction dirty with
  | nil => cases hD
  | cons first rest ih =>
      obtain ⟨hFirst, hRest⟩ := List.nodup_cons.1 h
      rcases List.mem_cons.1 hD with rfl | hLater
      · have hNone : rest.filter (fun other => other.key = d.key) = [] := by
          rw [List.filter_eq_nil_iff]
          intro other hOther hKey
          exact hFirst (of_decide_eq_true hKey ▸ List.mem_map_of_mem hOther)
        rw [List.filter_cons_of_pos (by simp), hNone]
      · have hKey : ¬ first.key = d.key :=
          fun hKey => hFirst (hKey ▸ List.mem_map_of_mem hLater)
        rw [List.filter_cons_of_neg (by simpa using hKey), ih hRest hLater]

/-- The dirty check reports what it should, in order, and brings the snapshots
of what it reports up to date. -/
theorem reports_of_diff (hOnce : ctx.KeysOnce)
    (h : ctx.diff schema heap = .ok (dirty, next)) :
    ctx.Reports schema heap dirty next := by
  have hNodup := nodup_keys_of_diff hOnce h
  have hNext := eq_storeAll_of_diff h
  have hSorted : dirty.Pairwise fun a b => a.key.atMost b.key := by
    obtain ⟨found, _, hDone⟩ := except_bind_eq_ok.1 h
    cases hDone
    exact sortEntries_sorted found
  refine ⟨?_, fun d => ?_, entities_of_diff h, fun d hD => ?_,
    fun key hKey => ?_⟩
  · refine (hSorted.and (List.pairwise_map.1 hNodup)).imp ?_
    exact fun hOrder => Key.before_iff.2 hOrder
  · rw [mem_of_diff h, Assoc.mem_iff_lookup hOnce.entities, isStale_iff]
    rfl
  · rw [hNext, snapshot?_storeAll, filter_key_eq hNodup hD]
    rfl
  · have hNone : dirty.filter (fun d => d.key = key) = [] := by
      simpa [List.filter_eq_nil_iff] using hKey
    rw [hNext, snapshot?_storeAll, hNone]
    rfl

/-! ## There is one report -/

/-- Two lists in the order of the keys that report the same are the same. -/
theorem eq_of_sorted (h : dirty.Pairwise fun a b => a.key.Before b.key)
    (hAgain : again.Pairwise fun a b => a.key.Before b.key)
    (hMem : ∀ d, d ∈ again ↔ d ∈ dirty) : again = dirty := by
  have hNodup : ∀ {list : List Dirty},
      (list.Pairwise fun a b => a.key.Before b.key) → list.Nodup :=
    fun hSorted => hSorted.imp fun hBefore hEq =>
      (Key.before_iff.1 hBefore).2 (congrArg Dirty.key hEq)
  refine List.Perm.eq_of_pairwise (fun a b _ _ hAb hBa => ?_) hAgain h
    ((List.perm_ext_iff_of_nodup (hNodup hAgain) (hNodup h)).2 hMem)
  have hKeys := Key.atMost_antisymm (Key.before_iff.1 hAb).1
    (Key.before_iff.1 hBa).1
  exact absurd hKeys (Key.before_iff.1 hAb).2

/-- Contexts that hold the same have the same report. -/
theorem Reports.unique {after : Context}
    (h : ctx.Reports schema heap dirty next) (hOnce : ctx.KeysOnce)
    (hAlike : ctx.Alike other)
    (hAgain : other.Reports schema heap again after) : again = dirty := by
  refine eq_of_sorted h.sorted hAgain.sorted fun d => ?_
  rw [hAgain.mem, h.mem, hAlike.get?_eq hOnce, hAlike.snapshot?_eq hOnce]

/-- They still hold the same afterwards. -/
theorem Reports.alike {after : Context}
    (h : ctx.Reports schema heap dirty next) (hOnce : ctx.KeysOnce)
    (hNext : next.KeysOnce) (hAlike : ctx.Alike other)
    (hAgain : other.Reports schema heap dirty after)
    (hAfter : after.KeysOnce) : next.Alike after where
  entities := by
    rw [h.entities, hAgain.entities]
    exact hAlike.entities
  snapshots := by
    refine Assoc.perm_of_lookup hNext.snapshots hAfter.snapshots fun key => ?_
    show after.snapshot? key = next.snapshot? key
    by_cases hKey : ∃ d ∈ dirty, d.key = key
    · obtain ⟨d, hD, rfl⟩ := hKey
      rw [h.refreshed d hD, hAgain.refreshed d hD]
    · have hNone : ∀ d ∈ dirty, d.key ≠ key :=
        fun d hD hEq => hKey ⟨d, hD, hEq⟩
      rw [h.kept key hNone, hAgain.kept key hNone, hAlike.snapshot?_eq hOnce]

/-! ## Why the check fails -/

/-- A context has an entity that cannot be looked at: the mapping of its type
is refused, or it is on loan for change. -/
def Conceals (schema : Schema) (heap : Heap) (ctx : Context) (e : Error) :
    Prop :=
  ∃ key ref, ctx.get? key = some ref ∧
    (schema.descriptor (heap.get ref).type = .error e ∨
      (heap.get ref).hold = .exclusive ∧
        e = .state (.mutablyBorrowed (heap.get ref).type))

/-- The first entity that cannot be looked at is reported. -/
theorem exists_snapshot_of_dirtyEntries {entries : List (Key × Ref)}
    (h : ctx.dirtyEntries schema heap entries = .error e) :
    ∃ entry ∈ entries, heap.snapshot schema entry.2 = .error e := by
  induction entries with
  | nil => cases h
  | cons entry rest ih =>
      obtain ⟨key, ref⟩ := entry
      cases hValues : heap.snapshot schema ref with
      | error e' =>
          rw [dirtyEntries, hValues] at h
          cases h
          exact ⟨(key, ref), List.mem_cons_self .., hValues⟩
      | ok values =>
          cases hRest : ctx.dirtyEntries schema heap rest with
          | ok others =>
              rw [dirtyEntries, hValues, hRest] at h
              cases h
          | error e' =>
              rw [dirtyEntries, hValues, hRest] at h
              cases h
              obtain ⟨entry, hMem, hError⟩ := ih hRest
              exact ⟨entry, List.mem_cons_of_mem _ hMem, hError⟩

/-- A dirty check that fails has met an entity that cannot be looked at. -/
theorem conceals_of_diff (hOnce : ctx.KeysOnce)
    (h : ctx.diff schema heap = .error e) : ctx.Conceals schema heap e := by
  have hFound : ctx.dirtyEntries schema heap ctx.entities = .error e := by
    cases hDirty : ctx.dirtyEntries schema heap ctx.entities with
    | ok dirty =>
        rw [diff, hDirty] at h
        cases h
    | error e' =>
        rw [diff, hDirty] at h
        cases h
        rfl
  obtain ⟨⟨key, ref⟩, hMem, hValues⟩ := exists_snapshot_of_dirtyEntries hFound
  refine ⟨key, ref, Assoc.lookup_of_mem hOnce.entities hMem, ?_⟩
  cases hD : schema.descriptor (heap.get ref).type with
  | error e' =>
      rw [Heap.snapshot, Heap.describe, hD] at hValues
      cases hValues
      exact Or.inl rfl
  | ok d =>
      cases hReadable : (heap.get ref).isReadable with
      | true =>
          cases (Heap.snapshot_eq_ok_iff.2 ⟨d, hD, hReadable, rfl⟩).symm.trans
            hValues
      | false =>
          rw [Heap.snapshot, Heap.describe, hD] at hValues
          simp only [hReadable, bind, Except.bind, Bool.false_eq_true,
            if_false] at hValues
          rw [Schema.typeName_of_descriptor hD] at hValues
          refine Or.inr ⟨?_, (Except.error.inj hValues).symm⟩
          simpa [Instance.isReadable] using hReadable

/-- With an entity that cannot be looked at there is no report. -/
theorem Conceals.diff_error (h : ctx.Conceals schema heap e) :
    ∃ e', ctx.diff schema heap = .error e' := by
  obtain ⟨key, ref, hGet, hWhy⟩ := h
  cases hDiff : ctx.diff schema heap with
  | error e' => exact ⟨e', rfl⟩
  | ok found =>
      obtain ⟨values, hValues⟩ := diff_isOk_iff.1 ⟨found.1, found.2, hDiff⟩
        (key, ref) (Assoc.mem_of_lookup hGet)
      obtain ⟨d, hD, hReadable, _⟩ := Heap.snapshot_eq_ok_iff.1 hValues
      rcases hWhy with hError | ⟨hHold, _⟩
      · cases hError.symm.trans hD
      · simp [Instance.isReadable, hHold] at hReadable

theorem Alike.conceals (h : ctx.Alike other) (hOnce : ctx.KeysOnce)
    (hConceals : ctx.Conceals schema heap e) :
    other.Conceals schema heap e := by
  obtain ⟨key, ref, hGet, hWhy⟩ := hConceals
  exact ⟨key, ref, (h.get?_eq hOnce key).trans hGet, hWhy⟩

theorem Alike.symm (h : ctx.Alike other) : other.Alike ctx :=
  ⟨h.entities.symm, h.snapshots.symm⟩

/-- Contexts that hold the same are checked with the same result. -/
theorem Alike.diff (h : ctx.Alike other) (hOnce : ctx.KeysOnce) :
    match ctx.diff schema heap, other.diff schema heap with
    | .ok (dirty, next), .ok (again, after) =>
      again = dirty ∧ next.KeysOnce ∧ next.Alike after
    | .error _, .error _ => True
    | _, _ => False := by
  have hOther := h.keysOnce hOnce
  cases hDiff : ctx.diff schema heap with
  | error e =>
      obtain ⟨e', hError⟩ :=
        (h.conceals hOnce (conceals_of_diff hOnce hDiff)).diff_error
      rw [hError]
      trivial
  | ok found =>
      cases hAgain : other.diff schema heap with
      | error e =>
          obtain ⟨e', hError⟩ :=
            (h.symm.conceals hOther (conceals_of_diff hOther hAgain)).diff_error
          cases hError.symm.trans hDiff
      | ok foundAgain =>
          have hReports := reports_of_diff hOnce hDiff
          have hReportsAgain := reports_of_diff hOther hAgain
          have hSame := hReports.unique hOnce h hReportsAgain
          have hNext : found.2.KeysOnce :=
            eq_storeAll_of_diff hDiff ▸ hOnce.storeAll found.1
          have hAfter : foundAgain.2.KeysOnce :=
            eq_storeAll_of_diff hAgain ▸ hOther.storeAll foundAgain.1
          rw [hSame] at hReportsAgain
          exact ⟨hSame, hNext,
            hReports.alike hOnce hNext h hReportsAgain hAfter⟩

end Context

/-! ## The check in a session -/

/-- The dirty check of a session reports the entities that are out of step, in
the order of their keys, and brings just their snapshots up to date. It fails
just when some entity cannot be looked at, as one on loan for change, and leaves
everything as it was. The order in which entities are kept makes no
difference. -/
theorem Session.dirty_check {σ : Type} [Driver σ] (p : Persister)
    (scope : Scope σ) (hOnce : scope.session.context.KeysOnce) :
    (match scope.session.context.diff p.schema scope.heap with
      | .ok (dirty, next) =>
        (∀ e, ¬ scope.session.context.Conceals p.schema scope.heap e) ∧
          scope.session.context.Reports p.schema scope.heap dirty next
      | .error e =>
        scope.session.context.Conceals p.schema scope.heap e ∧
          (collectDirty p).run scope = (.error e, scope)) ∧
    (∀ key ref, scope.session.context.get? key = some ref →
      (scope.heap.get ref).hold = .exclusive →
        ∃ e, scope.session.context.diff p.schema scope.heap = .error e) ∧
    ∀ other, scope.session.context.Alike other →
      match scope.session.context.diff p.schema scope.heap,
          other.diff p.schema scope.heap with
      | .ok (dirty, next), .ok (again, after) =>
        again = dirty ∧ next.KeysOnce ∧ next.Alike after
      | .error _, .error _ => True
      | _, _ => False := by
  refine ⟨?_, fun key ref hGet hHold => ?_, fun other hAlike =>
    hAlike.diff hOnce⟩
  · cases hDiff : scope.session.context.diff p.schema scope.heap with
    | ok found =>
        refine ⟨fun e hConceals => ?_, Context.reports_of_diff hOnce hDiff⟩
        obtain ⟨e', hError⟩ := hConceals.diff_error
        cases hError.symm.trans hDiff
    | error e =>
        refine ⟨Context.conceals_of_diff hOnce hDiff, ?_⟩
        show collectDirty p scope = _
        simp only [collectDirty, hDiff]
  · have hConceals : scope.session.context.Conceals p.schema scope.heap
        (.state (.mutablyBorrowed (scope.heap.get ref).type)) :=
      ⟨key, ref, hGet, Or.inr ⟨hHold, rfl⟩⟩
    exact hConceals.diff_error

/-! ## Notes under keys of both kinds -/

namespace Notes

/-- A session that looks after three notes: one without a snapshot, one that
has another title now, and one that is in step. -/
def assorted : Scope Store :=
  scope [] [note 1 "a", note 10 "b", note 9 "c"]
    { id := 0
      context :=
        { entities := [(⟨"Note", .text "1"⟩, 0), (⟨"Note", .int 10⟩, 1),
            (⟨"Note", .int 9⟩, 2)]
          snapshots := [(⟨"Note", .int 9⟩, [.int 9, .text "c"]),
            (⟨"Note", .int 10⟩, [.int 10, .text "a"])] } }

end Notes

/-- The note that is in step is not reported, and a number comes before a
text. -/
theorem Session.dirty_check_of_notes :
    Notes.assorted.session.context.KeysOnce ∧ ∃ dirty next,
      Notes.assorted.session.context.diff Notes.schema Notes.assorted.heap =
          .ok (dirty, next) ∧
        dirty.map Dirty.key = [⟨"Note", .int 10⟩, ⟨"Note", .text "1"⟩] ∧
        Notes.assorted.session.context.Reports Notes.schema Notes.assorted.heap
          dirty next := by
  have hOnce : Notes.assorted.session.context.KeysOnce :=
    ⟨by decide, by decide⟩
  have hRun := (dirty_check Notes.persister Notes.assorted hOnce).1
  refine ⟨hOnce, _, _, rfl, rfl, hRun.2⟩

end UnitOfWork

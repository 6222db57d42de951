import UnitOfWork.Proofs.FlushOrder
import UnitOfWork.Proofs.IdentityMap

/-!
# Actions that wait once

The checks of a session look at its context: an entity that it looks after is
not persisted again, and one that it does not look after is not removed. They
do not look at the queue, so what waits already may be queued once more
(`Session.Repeats`). As long as that is not asked for, no action waits twice,
a flush inserts and deletes every instance once at most, and no instance comes
to be looked after under two keys.

## Main results

* `Session.nodup_perform_iff`: the requests that keep actions from waiting
  twice;
* `Session.nodup_flushMoves`: what a flush does to each instance once;
* `Session.no_action_waits_twice`: the same of runs.
-/

namespace UnitOfWork

variable {σ : Type}

/-- The action of a move that adds a row or removes some. -/
def Move.addsOrRemoves? : Move → Option Action
  | .write action => if action.kind = .update then none else some action
  | _ => none

/-- Those are the actions among the moves that are no updates. -/
theorem Move.filterMap_addsOrRemoves? (made : List Move) :
    made.filterMap Move.addsOrRemoves? =
      (made.filterMap Move.action?).filter fun a => a.kind ≠ .update := by
  rw [List.filter_filterMap]
  refine List.filterMap_congr fun move _ => ?_
  cases move with
  | autoCommit on => rfl
  | commit => rfl
  | write action =>
      by_cases hUpdate : action.kind = .update
      · simp [addsOrRemoves?, action?, Option.filter, hUpdate]
      · simp [addsOrRemoves?, action?, Option.filter, hUpdate]

namespace Session

variable [Driver σ] {p : Persister}

/-! ## The queue -/

/-- A request is accepted that queues an action which waits already. -/
def Repeats (p : Persister) (scope : Scope σ) : Operation → Prop
  | .persist ref => ((persist p ref).run scope).1 = .ok () ∧
    ⟨.insert, ref⟩ ∈ scope.session.queue.pending
  | .remove ref => ((remove p ref).run scope).1 = .ok () ∧
    ⟨.delete, ref⟩ ∈ scope.session.queue.pending
  | _ => False

omit [Driver σ] in
/-- No action waits twice after a request to queue one, exactly if it was
refused or does not wait already. -/
theorem Queued.nodup_iff {Checked : Prop} {action : Action}
    {scope after : Scope σ} {r : Except Error Unit}
    (h : Queued Checked action scope r after)
    (hNodup : scope.session.queue.pending.Nodup) :
    after.session.queue.pending.Nodup ↔
      ¬ (r = .ok () ∧ action ∈ scope.session.queue.pending) := by
  cases h with
  | refused e =>
      refine iff_of_true hNodup ?_
      rintro ⟨hOk, _⟩
      cases hOk
  | accepted _ _ _ =>
      show (scope.session.queue.pending ++ [action]).Nodup ↔ _
      constructor
      · rintro hAppended ⟨_, hWaits⟩
        exact (List.nodup_append.1 hAppended).2.2 action hWaits action
          (List.mem_singleton_self action) rfl
      · intro hNew
        refine List.nodup_append.2 ⟨hNodup, List.pairwise_singleton .., ?_⟩
        rintro a hA b hB rfl
        rw [List.mem_singleton.1 hB] at hA
        exact hNew ⟨rfl, hA⟩

/-- Whatever else is asked, the same waits as before, or nothing. -/
theorem queue_perform {scope : Scope σ} {op : Operation}
    (hPersist : ∀ ref, op ≠ .persist ref) (hRemove : ∀ ref, op ≠ .remove ref) :
    (op.perform p scope).session.queue = scope.session.queue ∨
      (op.perform p scope).session.queue = {} := by
  refine perform_keeps (I := fun s => s.session.queue = scope.session.queue ∨
      s.session.queue = {}) (Or.inl rfl)
    (fun ref hOp => absurd hOp (hPersist ref))
    (fun ref hOp => absurd hOp (hRemove ref)) (fun _ => ?_)
    (fun shared load _ s hS => ?_) (fun _ _ _ hS => hS)
    (fun _ _ _ => Or.inr rfl) (fun _ s hS => ?_) (fun _ s hS => ?_)
  · have hFlushed := flushed p scope
    generalize (flush p).run scope = result at hFlushed ⊢
    obtain ⟨r, after⟩ := result
    cases hFlushed with
    | closed _ => exact Or.inl rfl
    | unreadable _ _ => exact Or.inl rfl
    | idle _ _ _ => exact Or.inl rfl
    | unconnected _ _ _ _ _ => exact Or.inr rfl
    | committed _ _ _ _ _ => exact Or.inr rfl
    | rolledBack _ _ _ _ _ _ => exact Or.inr rfl
    | discarded _ _ _ _ _ _ => exact Or.inr rfl
  · rw [(steady_withLoader p shared load s).queue]
    exact hS
  · rw [(keeping_releaseConnection s).queue]
    exact hS
  · rw [(rolledBack s).keeping.queue]
    exact hS

/-- A request leaves no action waiting twice exactly if it repeats none. -/
theorem nodup_perform_iff {scope : Scope σ}
    (hNodup : scope.session.queue.pending.Nodup) (op : Operation) :
    (op.perform p scope).session.queue.pending.Nodup ↔
      ¬ Repeats p scope op := by
  -- A request that queues nothing.
  have hOther : (∀ ref, op ≠ .persist ref) → (∀ ref, op ≠ .remove ref) →
      (op.perform p scope).session.queue.pending.Nodup := by
    intro hPersist hRemove
    have hQueue : (op.perform p scope).session.queue =
        scope.session.queue ∨ (op.perform p scope).session.queue = {} :=
      queue_perform hPersist hRemove
    rcases hQueue with hSame | hEmpty
    · rw [hSame]
      exact hNodup
    · rw [hEmpty]
      exact List.nodup_nil
  cases op with
  | persist ref => exact (persist_queued p ref scope).nodup_iff hNodup
  | remove ref => exact (remove_queued p ref scope).nodup_iff hNodup
  | _ => exact iff_of_true (hOther (by simp) (by simp)) fun hNo => hNo

/-! ## The flush -/

omit [Driver σ] in
/-- What a flush inserts and deletes is what waits, the inserts first. -/
theorem filterMap_flushMoves {scope : Scope σ} (dirty : List Dirty) :
    (flushMoves p scope dirty).filterMap Move.addsOrRemoves? =
      scope.session.queue.ofKind .insert ++
        scope.session.queue.ofKind .delete := by
  -- What waits takes a call, and is no update.
  have hWaits : ∀ kind, kind ≠ .update →
      ((scope.session.queue.ofKind kind).filter
        (Action.sends p.schema scope.heap)).filter
          (fun a => a.kind ≠ .update) = scope.session.queue.ofKind kind := by
    intro kind hKind
    rw [List.filter_filter]
    refine List.filter_eq_self.2 fun a hA => ?_
    obtain ⟨own, ref⟩ := a
    have hOwn : own = kind := Queue.kind_of_mem_ofKind hA
    subst hOwn
    cases own with
    | insert => rfl
    | update => exact absurd rfl hKind
    | delete => rfl
  have hUpdates : ((dirty.map fun d => (⟨.update, d.ref⟩ : Action)).filter
      (Action.sends p.schema scope.heap)).filter
        (fun a => a.kind ≠ .update) = [] := by
    refine List.filter_eq_nil_iff.2 fun a hA => ?_
    obtain ⟨d, _, rfl⟩ := List.mem_map.1 (List.mem_filter.1 hA).1
    simp
  rw [Move.filterMap_addsOrRemoves?, flushMoves, filterMap_moves, ordered]
  simp only [List.filter_append]
  rw [hWaits .insert (by decide), hWaits .delete (by decide), hUpdates,
    List.append_nil]

omit [Driver σ] in
/-- A flush inserts and deletes each instance once at most if no action waits
twice. -/
theorem nodup_flushMoves {scope : Scope σ}
    (hNodup : scope.session.queue.pending.Nodup) (dirty : List Dirty) :
    ((flushMoves p scope dirty).filterMap Move.addsOrRemoves?).Nodup := by
  rw [filterMap_flushMoves]
  refine List.nodup_append.2 ⟨hNodup.filter _, hNodup.filter _, ?_⟩
  rintro a hA b hB rfl
  have hInsert := Queue.kind_of_mem_ofKind hA
  rw [Queue.kind_of_mem_ofKind hB] at hInsert
  cases hInsert

/-- The moves that a flush has made when it ends, whichever way it does. -/
theorem moves_of_flushed {scope after : Scope σ} {r : Except Error Unit}
    (hRegular : scope.session.Regular) (h : Flushed p scope r after) :
    after.env = scope.env ∨ ∃ dirty conn made env,
      made <+: flushMoves p scope dirty ∧
      Moved p conn (scope.session.ordered dirty) scope.env made env ∧
      (r = .ok () ∧ env = after.env ∨
        ∃ e, r = .error e ∧ TakenBack conn env e after.env) := by
  cases h with
  | closed _ => exact Or.inl rfl
  | unreadable _ _ => exact Or.inl rfl
  | idle _ _ _ => exact Or.inl rfl
  | unconnected _ _ _ _ _ => exact Or.inl rfl
  | committed _ _ _ _ hRun =>
      obtain ⟨made, hPrefix, hMoved, _⟩ := performed_moves hRegular hRun
      exact Or.inr ⟨_, _, made, _, hPrefix, hMoved, Or.inl ⟨rfl, rfl⟩⟩
  | rolledBack _ _ _ _ hRun hRollback =>
      obtain ⟨made, hPrefix, hMoved, _⟩ := performed_moves hRegular hRun
      exact Or.inr ⟨_, _, made, _, hPrefix, hMoved,
        Or.inr ⟨_, rfl, .rolledBack hRollback⟩⟩
  | discarded _ _ _ _ hRun hRollback =>
      obtain ⟨made, hPrefix, hMoved, _⟩ := performed_moves hRegular hRun
      exact Or.inr ⟨_, _, made, _, hPrefix, hMoved,
        Or.inr ⟨_, rfl, .discarded hRollback⟩⟩

/-! ## Keys -/

/-- Instances that are persisted exist. -/
def Known (scope : Scope σ) : Operation → Prop
  | .persist ref => ref < scope.heap.next
  | _ => True

/-- A request that repeats no action is proper, or is refused. -/
theorem Tidy.perform_of_not_repeats (hAlone : p.schema.IdentifierAlone)
    {scope : Scope σ} {op : Operation} (h : Tidy p scope)
    (hKnown : Known scope op) (hOnce : ¬ Repeats p scope op) :
    Tidy p (op.perform p scope) := by
  cases op with
  | persist ref =>
      by_cases hWaits : Waits scope ref
      · have hQueued := persist_queued p ref scope
        show Tidy p ((Session.persist p ref).run scope).2
        rcases hRun : (Session.persist p ref).run scope with ⟨e | _, after⟩
        · rw [hRun] at hQueued
          cases hQueued
          exact h
        · refine absurd ⟨?_, hWaits⟩ hOnce
          rw [hRun]
      · exact h.perform hAlone ⟨hKnown, hWaits⟩
  | _ => exact h.perform hAlone trivial

omit [Driver σ] in
/-- Instances that wait to be deleted do not share a key. -/
theorem Tidy.unique_of_deletes {scope : Scope σ} (h : Tidy p scope)
    {ref other : Ref} {key : Key}
    (hRef : ⟨.delete, ref⟩ ∈ scope.session.queue.pending)
    (hOther : ⟨.delete, other⟩ ∈ scope.session.queue.pending)
    (hKey : scope.heap.Bears p.schema ref key)
    (hOtherKey : scope.heap.Bears p.schema other key) : other = ref := by
  obtain ⟨k, hGet⟩ := h.deletes ref hRef
  obtain ⟨k', hGet'⟩ := h.deletes other hOther
  have hK : k = key := (h.coherent.bears k ref hGet).unique hKey
  have hK' : k' = key := (h.coherent.bears k' other hGet').unique hOtherKey
  rw [hK', ← hK, hGet] at hGet'
  exact (Option.some.inj hGet').symm

/-! ## Runs -/

/-- On every run of a session that repeats no action, no action waits twice,
and a flush that comes next inserts and deletes each instance once at most,
whatever comes of it. From there a request leaves no action waiting twice
exactly if it repeats none. If nothing outside of the session changes the keys
of the entities that it looks after, each of them is under one key, and no two
instances that wait to be deleted have the same key. -/
theorem no_action_waits_twice {Outside : Scope σ → Backend σ → Prop}
    {start scope : Scope σ} (hContext : start.session.context = {})
    (hQueue : start.session.queue = {})
    (hReaches : Reaches p
      (fun scope op => Known scope op ∧ ¬ Repeats p scope op) Outside start
      scope) :
    scope.session.queue.pending.Nodup ∧
    (∀ op, (op.perform p scope).session.queue.pending.Nodup ↔
      ¬ Repeats p scope op) ∧
    (∀ r after, (flush p).run scope = (r, after) →
      after.env = scope.env ∨ ∃ dirty conn made env,
        Moved p conn (scope.session.ordered dirty) scope.env made env ∧
        (r = .ok () ∧ env = after.env ∨
          ∃ e, r = .error e ∧ TakenBack conn env e after.env) ∧
        (made.filterMap Move.addsOrRemoves?).Nodup) ∧
    (p.schema.IdentifierAlone →
      (∀ s backend, Outside s backend → Respects p s backend) →
      (∀ key other ref, scope.session.context.get? key = some ref →
        scope.session.context.get? other = some ref → key = other) ∧
      ∀ ref other key, ⟨.delete, ref⟩ ∈ scope.session.queue.pending →
        ⟨.delete, other⟩ ∈ scope.session.queue.pending →
        scope.heap.Bears p.schema ref key →
          scope.heap.Bears p.schema other key → other = ref) := by
  have hNodup : scope.session.queue.pending.Nodup := by
    refine hReaches.invariant (I := fun s => s.session.queue.pending.Nodup)
      (fun s op hNodup hAllowed => (nodup_perform_iff hNodup op).2 hAllowed.2)
      (fun _ _ hNodup _ => hNodup) ?_
    rw [hQueue]
    exact List.nodup_nil
  have hRegular : scope.session.Regular :=
    regular_of_reaches hReaches (regular_of_empty hContext hQueue)
  refine ⟨hNodup, nodup_perform_iff hNodup, ?_, ?_⟩
  · intro r after hRun
    have hFlushed := flushed p scope
    rw [hRun] at hFlushed
    rcases moves_of_flushed hRegular hFlushed with
      hSame | ⟨dirty, conn, made, env, hPrefix, hMoved, hEnd⟩
    · exact Or.inl hSame
    · have hOnce := nodup_flushMoves (p := p) hNodup dirty
      exact Or.inr ⟨dirty, conn, made, env, hMoved, hEnd,
        (hPrefix.filterMap _).sublist.nodup hOnce⟩
  · intro hAlone hOutside
    have hTidy : Tidy p scope := by
      refine hReaches.invariant (I := Tidy p)
        (fun s op hTidy hAllowed =>
          hTidy.perform_of_not_repeats hAlone hAllowed.1 hAllowed.2)
        (fun s backend hTidy hOut => hTidy.outside (hOutside s backend hOut))
        (tidy_of_coherent ?_ hQueue)
      rw [hContext]
      exact Context.coherent_empty
    exact ⟨fun _ _ _ => hTidy.coherent.key_unique,
      fun _ _ _ => hTidy.unique_of_deletes⟩

end Session

/-- A session in a transaction that is to insert a note and to delete
another. -/
def Notes.exchanging : Scope Store :=
  (Operation.remove 1).perform persister
    ((Operation.persist 0).perform persister
      ((Operation.find "Note" (.int 1)).perform persister
        (Operation.begin.perform persister
          (scope [[.int 1, .text "a"]] [note 2 "b"] { id := 0 }))))

/-- Both actions wait once until they are asked for again, which is not
refused. -/
theorem Session.no_action_waits_twice_of_notes :
    Notes.exchanging.session.queue.pending.Nodup ∧
    ¬ ((Operation.persist 0).perform Notes.persister
      Notes.exchanging).session.queue.pending.Nodup ∧
    ¬ ((Operation.remove 1).perform Notes.persister
      Notes.exchanging).session.queue.pending.Nodup ∧
    ((Operation.find "Note" (.int 2)).perform Notes.persister
      Notes.exchanging).session.queue.pending.Nodup := by
  have hReaches : Reaches Notes.persister
      (fun scope op => Known scope op ∧ ¬ Repeats Notes.persister scope op)
      (fun _ _ => False)
      (Notes.scope [[.int 1, .text "a"]] [Notes.note 2 "b"] { id := 0 })
      Notes.exchanging :=
    (((Reaches.start.operation .begin ⟨trivial, fun hNo => hNo⟩).operation
      (.find "Note" (.int 1)) ⟨trivial, fun hNo => hNo⟩).operation (.persist 0)
      ⟨show 0 < Heap.next _ by decide +kernel,
        fun hRepeats => absurd hRepeats.2 (by decide +kernel)⟩).operation
      (.remove 1) ⟨trivial,
        fun hRepeats => absurd hRepeats.2 (by decide +kernel)⟩
  obtain ⟨hNodup, hPerform, _⟩ := no_action_waits_twice rfl rfl hReaches
  have hPersist : Repeats Notes.persister Notes.exchanging (.persist 0) :=
    ⟨except_eq_ok_of_isOk (by decide +kernel), by decide +kernel⟩
  have hRemove : Repeats Notes.persister Notes.exchanging (.remove 1) :=
    ⟨except_eq_ok_of_isOk (by decide +kernel), by decide +kernel⟩
  exact ⟨hNodup, fun h => (hPerform _).1 h hPersist,
    fun h => (hPerform _).1 h hRemove, (hPerform _).2 fun hNo => hNo⟩

end UnitOfWork

import UnitOfWork.Proofs.Contexts
import UnitOfWork.Proofs.Loads
import UnitOfWork.Proofs.Readings
import UnitOfWork.Proofs.Runs

/-!
# The identity map of a session

Whatever is asked of a session, and whatever the driver makes of it, the
context of the session stays coherent, as long as the application does not
change the identifier of an entity that the session looks after and does not
persist an instance that already waits to be inserted. Two things carry the
proof. What waits to be inserted is not in the context, so the keys that a
flush assigns are those of instances that are not looked after yet; and the
instances that a load changes are its own new ones, in fields other than their
identifiers.

## Main results

* `Session.mem_planned`: what a flush carries out;
* `Session.Tidy.flush`, `Session.Tidy.perform`: every request keeps a session
  tidy.
-/

namespace UnitOfWork

variable {σ : Type}

/-! ## Carrying out actions -/

namespace Action

/-- What has been looked after before an action stays so unless the action is
a deletion, and only what is inserted is looked after newly. -/
theorem get?_of_follow {p : Persister} {action : Action} {heap : Heap}
    {ctx next : Context} (h : action.follow p heap ctx = .ok next) :
    (∀ key ref, next.get? key = some ref →
      ctx.get? key = some ref ∨ action = ⟨.insert, ref⟩) ∧
    (action.kind ≠ .delete → ctx.Within next) := by
  obtain ⟨kind, entity⟩ := action
  cases kind with
  | insert =>
      obtain ⟨resident, hCache⟩ := follow_insert h
      obtain ⟨key, _, ⟨_, rfl⟩ | ⟨hFree, _, values, _, rfl⟩⟩ :=
        Context.Coherent.cache_cases hCache
      · exact ⟨fun _ _ hGet => Or.inl hGet, fun _ => .refl _⟩
      · refine ⟨?_, fun _ => Context.within_register hFree _ _⟩
        intro other ref hGet
        by_cases hEq : other = key
        · subst hEq
          rw [Context.get?_register_self] at hGet
          rw [Option.some.inj hGet]
          exact Or.inr rfl
        · rw [Context.get?_register_ne hEq] at hGet
          exact Or.inl hGet
  | update =>
      obtain ⟨key, values, _, _, rfl⟩ := Context.Coherent.refresh_cases h
      exact ⟨fun _ _ hGet => Or.inl hGet, fun _ _ _ hGet => hGet⟩
  | delete =>
      rcases Context.Coherent.remove_cases h with rfl | ⟨key, _, rfl⟩
      · exact ⟨fun _ _ hGet => Or.inl hGet, fun h => absurd rfl h⟩
      · exact ⟨fun _ _ hGet =>
          Or.inl (Context.Coherent.get?_of_forget hGet).2,
          fun h => absurd rfl h⟩

/-- The context after an action is coherent if what is updated is looked
after. -/
theorem coherent_follow {p : Persister} {action : Action} {heap : Heap}
    {ctx next : Context} (hCoherent : ctx.Coherent p.schema heap)
    (hLt : action.kind = .insert → action.entity < heap.next)
    (hIn : action.kind = .update → ∃ key, ctx.get? key = some action.entity)
    (h : action.follow p heap ctx = .ok next) :
    next.Coherent p.schema heap := by
  obtain ⟨kind, entity⟩ := action
  cases kind with
  | insert =>
      obtain ⟨resident, hCache⟩ := follow_insert h
      exact hCoherent.cache (hLt rfl) hCache
  | update =>
      obtain ⟨key, hGet⟩ := hIn rfl
      exact (hCoherent.refresh hGet h).1
  | delete => exact hCoherent.remove h

end Action

/-- The work of a flush in the middle of its actions: the context is coherent,
what is still to be inserted is not looked after, and neither is it in the
context `saved` that the flush started with, whose instances are as they were
`before`. -/
structure Work.Orderly (p : Persister) (saved : Context) (before : Heap)
    (actions : List Action) (work : Work σ) : Prop where
  coherent : work.context.Coherent p.schema work.env.heap
  next : work.env.heap.next = before.next
  same : ∀ key ref, saved.get? key = some ref →
    work.env.heap.get ref = before.get ref
  inserts : ∀ ref, ⟨.insert, ref⟩ ∈ actions → ref < before.next ∧
    (∀ key, saved.get? key ≠ some ref) ∧
      ∀ key, work.context.get? key ≠ some ref
  nodup : (actions.filter fun a => a.kind = .insert).Nodup
  updates : ∀ ref, ⟨.update, ref⟩ ∈ actions →
    ∃ key, work.context.get? key = some ref
  sorted : actions.Pairwise fun a b => a.kind.priority ≤ b.kind.priority

namespace Work.Orderly

variable {p : Persister} {saved : Context} {before : Heap} {action : Action}
  {rest : List Action} {work : Work σ}

/-- The instances that an action leaves. -/
theorem heap (h : Orderly p saved before (action :: rest) work) {after : Heap}
    (hSpares : action.Spares work.env.heap after) :
    work.context.Coherent p.schema after ∧ after.next = before.next ∧
      ∀ key ref, saved.get? key = some ref → after.get ref = before.get ref := by
  by_cases hKind : action.kind = .insert
  · obtain ⟨kind, entity⟩ := action
    cases hKind
    obtain ⟨_, hSaved, hOut⟩ := h.inserts entity (List.mem_cons_self ..)
    refine ⟨h.coherent.of_agreesBut hSpares.agrees hOut,
      hSpares.agrees.next.trans h.next, ?_⟩
    intro key ref hGet
    have hNe : ref ≠ entity := fun hEq => hSaved key (hEq ▸ hGet)
    exact (hSpares.agrees.get ref hNe).trans (h.same key ref hGet)
  · rw [hSpares.same hKind]
    exact ⟨h.coherent, h.next, h.same⟩

/-- No instance is inserted twice. -/
theorem ne_entity (h : Orderly p saved before (action :: rest) work)
    (hKind : action.kind = .insert) {ref : Ref}
    (hMem : ⟨.insert, ref⟩ ∈ rest) : ref ≠ action.entity := by
  rintro rfl
  obtain ⟨kind, entity⟩ := action
  cases hKind
  have hNodup := h.nodup
  rw [List.filter_cons, if_pos (by simp)] at hNodup
  exact (List.nodup_cons.1 hNodup).1 (List.mem_filter.2 ⟨hMem, rfl⟩)

/-- What is left to do after an action that has been carried out. -/
theorem follow (h : Orderly p saved before (action :: rest) work)
    {env : Env σ} {ctx : Context}
    (hSpares : action.Spares work.env.heap env.heap)
    (hFollow : action.follow p env.heap work.context = .ok ctx) :
    Orderly p saved before rest ⟨env, ctx⟩ := by
  obtain ⟨hCoherent, hNext, hSame⟩ := h.heap hSpares
  obtain ⟨hGet, hWithin⟩ := Action.get?_of_follow hFollow
  obtain ⟨hFirst, hSorted⟩ := List.pairwise_cons.1 h.sorted
  have hRest : (rest.filter fun a => a.kind = .insert).Nodup := by
    have hNodup := h.nodup
    rw [List.filter_cons] at hNodup
    split at hNodup
    · exact (List.nodup_cons.1 hNodup).2
    · exact hNodup
  refine ⟨?_, hNext, hSame, ?_, hRest, ?_, hSorted⟩
  · refine Action.coherent_follow hCoherent ?_ ?_ hFollow
    · intro hKind
      obtain ⟨kind, entity⟩ := action
      cases hKind
      rw [hNext]
      exact (h.inserts entity (List.mem_cons_self ..)).1
    · intro hKind
      obtain ⟨kind, entity⟩ := action
      cases hKind
      exact h.updates entity (List.mem_cons_self ..)
  · intro ref hMem
    obtain ⟨hLt, hSaved, hOut⟩ := h.inserts ref (List.mem_cons_of_mem _ hMem)
    refine ⟨hLt, hSaved, ?_⟩
    intro key hKey
    rcases hGet key ref hKey with hOld | hNew
    · exact hOut key hOld
    · exact h.ne_entity (by rw [hNew]) hMem (by rw [hNew])
  · intro ref hMem
    obtain ⟨key, hKey⟩ := h.updates ref (List.mem_cons_of_mem _ hMem)
    refine ⟨key, hWithin ?_ key ref hKey⟩
    intro hKind
    have hLe := hFirst _ hMem
    rw [hKind] at hLe
    simp [ActionKind.priority] at hLe

theorem opened [Driver σ] {actions : List Action}
    (h : Orderly p saved before actions work) (conn : ConnId)
    (inTransaction : Bool) :
    Orderly p saved before actions
      (Session.opened conn inTransaction work) := by
  obtain ⟨h₁, h₂, h₃, h₄, h₅, h₆, h₇⟩ := h
  constructor <;> simpa

end Work.Orderly

/-- The instances of a context after a flush that fails. -/
def Work.Unharmed (saved : Context) (before : Heap) (work : Work σ) : Prop :=
  work.env.heap.next = before.next ∧ ∀ key ref, saved.get? key = some ref →
    work.env.heap.get ref = before.get ref

namespace Session

variable [Driver σ] {p : Persister}

/-- Carrying out actions is orderly up to the end or the first failure. -/
theorem executeAll_orderly (conn : ConnId) {saved : Context} {before : Heap}
    {actions : List Action} {work : Work σ}
    (h : work.Orderly p saved before actions) :
    match (Action.executeAll p conn actions).run work with
    | (.ok _, after) => after.Orderly p saved before []
    | (.error _, after) => after.Unharmed saved before := by
  refine Action.executeAll_induct (I := fun actions work =>
      work.Orderly p saved before actions)
    (J := Work.Unharmed saved before) ?_ ?_ h
  · intro action rest work after hOrderly hExecuted
    cases hExecuted with
    | skipped hPlan hFollow =>
        exact hOrderly.follow (Action.Spares.refl ..) hFollow
    | done hPlan hCall hCount hKey hFollow =>
        exact hOrderly.follow hKey.env_eq.2 hFollow
  · intro action rest work after e hOrderly hExecuted
    cases hExecuted with
    | stopped _ => exact ⟨hOrderly.next, hOrderly.same⟩
    | refused hPlan hCall => exact ⟨hOrderly.next, hOrderly.same⟩
    | unsettled _ hPlan hCall hEnv hHeap => exact (hOrderly.heap hHeap).2

theorem performed_orderly {conn : ConnId} {inTransaction : Bool}
    {saved : Context} {before : Heap} {actions : List Action}
    {work after : Work σ} {r : Except Error Unit}
    (hOrderly : work.Orderly p saved before actions)
    (h : Performed p conn inTransaction actions work r after) :
    after.Unharmed saved before ∧
      (r = .ok () → after.Orderly p saved before []) := by
  have hOpened := hOrderly.opened conn inTransaction
  have hActions := executeAll_orderly conn hOpened
  cases h with
  | unopened _ _ => exact ⟨⟨hOpened.next, hOpened.same⟩, fun h => by cases h⟩
  | failed _ hRun =>
      rw [hRun] at hActions
      exact ⟨hActions, fun h => by cases h⟩
  | uncommitted _ hRun _ =>
      rw [hRun] at hActions
      exact ⟨⟨hActions.next, hActions.same⟩, fun h => by cases h⟩
  | committed _ hRun _ _ =>
      rw [hRun] at hActions
      obtain ⟨h₁, h₂, h₃, h₄, h₅, h₆, h₇⟩ := hActions
      exact ⟨⟨h₂, h₃⟩, fun _ => ⟨h₁, h₂, h₃, h₄, h₅, h₆, h₇⟩⟩

/-! ## Sessions that are tidy -/

/-- A session whose context is coherent, and whose queue holds insertions of
different instances that are not looked after, deletions of entities that are,
and no updates. -/
structure Tidy (p : Persister) (scope : Scope σ) : Prop where
  coherent : scope.session.context.Coherent p.schema scope.heap
  inserts : ∀ ref, ⟨.insert, ref⟩ ∈ scope.session.queue.pending →
    ref < scope.heap.next ∧ ∀ key, scope.session.context.get? key ≠ some ref
  nodup : (scope.session.queue.ofKind .insert).Nodup
  updates : ∀ ref, ⟨.update, ref⟩ ∉ scope.session.queue.pending
  deletes : ∀ ref, ⟨.delete, ref⟩ ∈ scope.session.queue.pending →
    ∃ key, scope.session.context.get? key = some ref

omit [Driver σ] in
/-- With nothing queued only the context counts. -/
theorem tidy_of_coherent {scope : Scope σ}
    (hCoherent : scope.session.context.Coherent p.schema scope.heap)
    (hQueue : scope.session.queue = {}) : Tidy p scope := by
  refine ⟨hCoherent, ?_, ?_, ?_, ?_⟩ <;> rw [hQueue]
  · exact fun _ hMem => by cases hMem
  · exact List.nodup_nil
  · exact fun _ hMem => by cases hMem
  · exact fun _ hMem => by cases hMem

omit [Driver σ] in
theorem tidy_of_empty {scope : Scope σ}
    (hContext : scope.session.context = {})
    (hQueue : scope.session.queue = {}) : Tidy p scope := by
  refine tidy_of_coherent ?_ hQueue
  rw [hContext]
  exact Context.coherent_empty

omit [Driver σ] in
theorem Tidy.of_keeping {scope after : Scope σ} (h : Tidy p scope)
    (hKeeping : Keeping scope after) : Tidy p after := by
  obtain ⟨hContext, hQueue, hHeap⟩ := hKeeping
  refine ⟨?_, ?_, ?_, ?_, ?_⟩
  · rw [hContext, hHeap]
    exact h.coherent
  · rw [hContext, hQueue, hHeap]
    exact h.inserts
  · rw [hQueue]
    exact h.nodup
  · rw [hQueue]
    exact h.updates
  · rw [hContext, hQueue]
    exact h.deletes

omit [Driver σ] in
/-- What a flush carries out. -/
theorem mem_planned {s : Session} {dirty : List Dirty} {action : Action} :
    action ∈ s.planned dirty ↔ action ∈ s.queue.pending ∨
      ∃ d ∈ dirty, action = ⟨.update, d.ref⟩ := by
  rw [planned, (Queue.drain_perm _).mem_iff, Queue.enqueueAll,
    List.mem_append, List.mem_map]
  simp only [eq_comm]

omit [Driver σ] in
theorem inserts_planned (s : Session) (dirty : List Dirty) :
    ((s.planned dirty).filter fun a => a.kind = .insert) =
      s.queue.ofKind .insert := by
  rw [planned, Queue.filter_drain]
  simp [Queue.ofKind, Queue.enqueueAll, List.filter_append,
    List.filter_map, Function.comp_def]

omit [Driver σ] in
/-- A flush of a tidy session starts orderly. -/
theorem Tidy.orderly {scope : Scope σ} (h : Tidy p scope) {dirty : List Dirty}
    {ctx : Context}
    (hDiff : scope.session.context.diff p.schema scope.heap =
      .ok (dirty, ctx)) :
    Work.Orderly p scope.session.context scope.heap
      (scope.session.planned dirty) (⟨scope.env, ctx⟩ : Work σ) := by
  obtain ⟨hCoherent, hIn⟩ := h.coherent.diff hDiff
  have hEntities := Context.entities_of_diff hDiff
  have hGet : ∀ key, ctx.get? key = scope.session.context.get? key := by
    intro key
    rw [Context.get?, hEntities]
    rfl
  refine ⟨hCoherent, rfl, fun _ _ _ => rfl, ?_, ?_, ?_, Queue.drain_sorted _⟩
  · intro ref hMem
    rcases mem_planned.1 hMem with hPending | ⟨d, _, hNo⟩
    · obtain ⟨hLt, hOut⟩ := h.inserts ref hPending
      exact ⟨hLt, hOut, fun key => hGet key ▸ hOut key⟩
    · cases hNo
  · rw [inserts_planned]
    exact h.nodup
  · intro ref hMem
    rcases mem_planned.1 hMem with hPending | ⟨d, hD, hEq⟩
    · exact absurd hPending (h.updates ref)
    · cases hEq
      exact ⟨d.key, (hGet d.key).trans (hIn d hD)⟩

/-- A flush leaves a tidy session, whatever comes of it. -/
theorem Tidy.flush {scope after : Scope σ} {r : Except Error Unit}
    (h : Tidy p scope) (hFlushed : Flushed p scope r after) :
    Tidy p after := by
  -- After a failure the context is back, and its instances are unharmed.
  have hBack : ∀ {work : Work σ},
      work.Unharmed scope.session.context scope.heap →
        scope.session.context.Coherent p.schema work.env.heap := by
    intro work hUnharmed
    exact h.coherent.of_bears (Nat.le_of_eq hUnharmed.1.symm)
      fun key ref hGet hBears =>
        hBears.of_get_eq (hUnharmed.2 key ref hGet)
  cases hFlushed with
  | closed _ => exact h
  | unreadable _ _ => exact h
  | idle _ _ _ => exact h
  | unconnected _ _ _ _ _ => exact tidy_of_coherent h.coherent rfl
  | committed _ hDiff _ _ hRun =>
      have hDone := (performed_orderly (h.orderly hDiff) hRun).2 rfl
      exact tidy_of_coherent hDone.coherent rfl
  | rolledBack _ hDiff _ _ hRun _ =>
      have hUnharmed := (performed_orderly (h.orderly hDiff) hRun).1
      exact tidy_of_coherent (hBack hUnharmed) rfl
  | discarded _ hDiff _ _ hRun _ =>
      have hUnharmed := (performed_orderly (h.orderly hDiff) hRun).1
      exact tidy_of_coherent (hBack hUnharmed) rfl

end Session

/-! ## Loads -/

/-- The work of a load: the context is coherent, the instances that were there
`before` have kept their keys, and those of them that satisfy `Out` are not
looked after. -/
structure Work.Loading (p : Persister) (before : Heap) (Out : Ref → Prop)
    (work : Work σ) : Prop where
  coherent : work.context.Coherent p.schema work.env.heap
  next : before.next ≤ work.env.heap.next
  bears : ∀ ref key, ref < before.next → before.Bears p.schema ref key →
    work.env.heap.Bears p.schema ref key
  out : ∀ ref, Out ref → ref < before.next ∧
    ∀ key, work.context.get? key ≠ some ref

namespace Work.Loading

variable {p : Persister} {before : Heap} {Out : Ref → Prop} {work : Work σ}

theorem register (h : work.Loading p before Out) {d : Descriptor} {row : Row}
    {e : Instance} {id : EntityId}
    (hD : p.schema.descriptor d.typeName = .ok d)
    (hRead : Loader.readRow d row = .ok e)
    (hId : Loader.requireId d e = .ok id) :
    ((Loader.register d id e).run work).2.Loading p before Out := by
  have hNew : (work.env.heap.alloc e).Bears p.schema work.env.heap.next
      ⟨d.typeName, id⟩ := by
    refine ⟨?_, d, hD, ?_⟩
    · rw [Heap.get_alloc]
      exact Loader.type_of_readRow hRead
    · rw [Heap.get_alloc]
      exact Loader.requireId_eq_ok hId
  have hOld : work.context.Coherent p.schema (work.env.heap.alloc e) := by
    refine h.coherent.of_bears ?_ fun key ref hGet hBears =>
      hBears.of_get_eq (Heap.get_alloc_of_lt (h.coherent.present key ref hGet) e)
    rw [Heap.next_alloc]
    exact Nat.le_succ _
  refine ⟨?_, ?_, ?_, ?_⟩
  · refine hOld.register ?_ hNew _
    rw [Heap.next_alloc]
    exact Nat.lt_succ_self _
  · show before.next ≤ (work.env.heap.alloc e).next
    rw [Heap.next_alloc]
    exact Nat.le_succ_of_le h.next
  · intro ref key hLt hBears
    have hStill : ref < work.env.heap.next := Nat.lt_of_lt_of_le hLt h.next
    exact (h.bears ref key hLt hBears).of_get_eq (Heap.get_alloc_of_lt hStill e)
  · intro ref hOut
    obtain ⟨hLt, hNone⟩ := h.out ref hOut
    refine ⟨hLt, ?_⟩
    intro key hGet
    by_cases hEq : key = ⟨d.typeName, id⟩
    · subst hEq
      have hRef := Context.get?_register_self work.context ⟨d.typeName, id⟩
        work.env.heap.next (d.snapshot e)
      have hSame : work.env.heap.next = ref :=
        Option.some.inj (hRef.symm.trans hGet)
      exact absurd hLt (Nat.not_lt_of_le (hSame ▸ h.next))
    · have hOther := Context.get?_register_ne hEq work.context
        work.env.heap.next (d.snapshot e)
      exact hNone key (hOther.symm.trans hGet)

theorem assign (h : work.Loading p before Out)
    (hAlone : p.schema.IdentifierAlone) {d : Descriptor} {id : EntityId}
    {ref : Ref} {relation : Relation} (slot : Slot)
    (hD : p.schema.descriptor d.typeName = .ok d)
    (hGet : work.context.get? ⟨d.typeName, id⟩ = some ref)
    (hRelation : relation ∈ d.relations) :
    ((Loader.assign ref relation.field slot).run work).2.Loading p before
      Out := by
  have hLt := h.coherent.present _ _ hGet
  have hOwn := h.coherent.bears _ _ hGet
  have hBears : ∀ other key, work.env.heap.Bears p.schema other key →
      (work.env.heap.modify ref fun e => e.set relation.field slot).Bears
        p.schema other key := by
    intro other key hOther
    by_cases hEq : other = ref
    · subst hEq
      have hKey := hOwn.unique hOther
      subst hKey
      obtain ⟨hType, d', hD', hId⟩ := hOwn
      have hSame : d' = d := Except.ok.inj (hD'.symm.trans hD)
      subst hSame
      refine ⟨?_, d', hD, ?_⟩
      · rw [Heap.get_modify_self hLt, Instance.type_set]
        exact hType
      · rw [Heap.get_modify_self hLt, Descriptor.entityId, Descriptor.idValue,
          Instance.scalar_set_ne _ (hAlone.relation hD hRelation)]
        exact hId
    · exact hOther.of_get_eq (Heap.get_modify_ne _ hEq _)
  refine ⟨?_, ?_, ?_, h.out⟩
  · refine h.coherent.of_bears ?_ fun key other _ => hBears other key
    exact Nat.le_of_eq (Heap.next_modify ..).symm
  · show before.next ≤ (work.env.heap.modify ref _).next
    rw [Heap.next_modify]
    exact h.next
  · exact fun other key hOther hHad =>
      hBears other key (h.bears other key hOther hHad)

end Work.Loading

namespace Session

variable [Driver σ] {p : Persister}

theorem keeps_loading (hAlone : p.schema.IdentifierAlone) (conn : ConnId)
    (session : Option Nat) (before : Heap) (Out : Ref → Prop) :
    Loader.Keeps ⟨p, conn, session⟩ (fun _ _ => True)
      (Work.Loading (σ := σ) p before Out) where
  query := fun _ _ hI => ⟨⟨hI.coherent, hI.next, hI.bears, hI.out⟩,
    fun _ _ _ _ => trivial⟩
  register := fun hKnows _ hRead hId _ hI => hI.register hKnows hRead hId
  assign := fun slot hKnows hGet hRelation hI =>
    hI.assign hAlone slot hKnows hGet hRelation
  inspect := fun _ hI => ⟨hI.coherent, hI.next, hI.bears, hI.out⟩

/-- What waits to be inserted. -/
def Waits (scope : Scope σ) (ref : Ref) : Prop :=
  ⟨.insert, ref⟩ ∈ scope.session.queue.pending

omit [Driver σ] in
/-- A load of a tidy session starts with what it keeps. -/
theorem Tidy.loading {scope : Scope σ} (h : Tidy p scope) (shared : Bool) :
    Work.Loading p scope.heap (Waits scope)
      (⟨scope.env, loadStart shared scope⟩ : Work σ) := by
  cases shared with
  | true => exact ⟨h.coherent, Nat.le_refl _, fun _ _ _ hB => hB, h.inserts⟩
  | false =>
      exact ⟨Context.coherent_empty, Nat.le_refl _, fun _ _ _ hB => hB,
        fun ref hMem => ⟨(h.inserts ref hMem).1, fun _ hGet => by cases hGet⟩⟩

omit [Driver σ] in
/-- A load leaves a tidy session, whatever comes of it. -/
theorem Tidy.load {α : Type} {Q : α → Work σ → Prop} {shared : Bool}
    {scope after : Scope σ} {r : Except Error α} (h : Tidy p scope)
    (hLoaded : Loaded (Work.Loading p scope.heap (Waits scope)) Q shared scope
      r after) : Tidy p after := by
  have hKept : ∀ {work : Work σ},
      work.Loading p scope.heap (Waits scope) →
        scope.session.context.Coherent p.schema work.env.heap := by
    intro work hLoading
    exact h.coherent.of_bears hLoading.next fun key ref hGet hBears =>
      hLoading.bears ref key (h.coherent.present key ref hGet) hBears
  have hLt : ∀ {work : Work σ} {ref : Ref},
      work.Loading p scope.heap (Waits scope) → Waits scope ref →
        ref < work.env.heap.next := by
    intro work ref hLoading hWaits
    exact Nat.lt_of_lt_of_le (hLoading.out ref hWaits).1 hLoading.next
  cases hLoaded with
  | unconnected _ _ => exact h
  | failed _ hI =>
      exact ⟨hKept hI, fun ref hMem => ⟨hLt hI hMem, (h.inserts ref hMem).2⟩,
        h.nodup, h.updates, h.deletes⟩
  | done _ hI hContext _ =>
      cases shared with
      | false =>
          exact ⟨hKept hI,
            fun ref hMem => ⟨hLt hI hMem, (h.inserts ref hMem).2⟩,
            h.nodup, h.updates, h.deletes⟩
      | true =>
          refine ⟨hI.coherent,
            fun ref hMem => ⟨hLt hI hMem, (hI.out ref hMem).2⟩,
            h.nodup, h.updates, ?_⟩
          intro ref hMem
          obtain ⟨key, hGet⟩ := h.deletes ref hMem
          exact ⟨key, hContext key ref hGet⟩

/-! ## Requests -/

/-- What may be asked of a session: an instance that is persisted exists and
does not wait to be inserted already. -/
def Proper (scope : Scope σ) : Operation → Prop
  | .persist ref => ref < scope.heap.next ∧ ¬ Waits scope ref
  | _ => True

/-- What may happen outside of a session: the entities that it looks after
keep their keys. -/
def Respects (p : Persister) (scope : Scope σ) (backend : Backend σ) : Prop :=
  scope.heap.next ≤ backend.env.heap.next ∧
    ∀ key ref, scope.session.context.get? key = some ref →
      scope.heap.Bears p.schema ref key →
        backend.env.heap.Bears p.schema ref key

omit [Driver σ] in
/-- An instance that is queued for insertion is not looked after. -/
theorem Tidy.persist {scope : Scope σ} {ref : Ref} (h : Tidy p scope)
    (hProper : Proper scope (.persist ref)) :
    Tidy p ((Session.persist p ref).run scope).2 := by
  rcases persist_cases p ref scope with hSame | ⟨⟨key?, hKey, hFree⟩, hQueued⟩
  · rw [hSame]
    exact h
  · rw [hQueued]
    obtain ⟨hLt, hNew⟩ := hProper
    have hOut : ∀ key, scope.session.context.get? key ≠ some ref := by
      intro key hGet
      have hSome := (h.coherent.bears key ref hGet).entityKey_eq hKey
      rw [hSome] at hFree
      simp [Context.containsKey, hGet] at hFree
    refine ⟨h.coherent, ?_, ?_, ?_, ?_⟩
    · intro other hMem
      rcases Queue.mem_enqueue.1 hMem with hOld | hLast
      · exact h.inserts other hOld
      · cases hLast
        exact ⟨hLt, hOut⟩
    · show ((scope.session.queue.enqueue ⟨.insert, ref⟩).ofKind .insert).Nodup
      rw [Queue.ofKind_enqueue_self]
      refine List.nodup_append.2 ⟨h.nodup, by simp, fun a hA b hB hEq => ?_⟩
      rw [hEq, List.mem_singleton.1 hB] at hA
      exact hNew (List.mem_filter.1 hA).1
    · intro other hMem
      exact h.updates other (Queue.mem_of_mem_enqueue hMem (by simp))
    · intro other hMem
      exact h.deletes other (Queue.mem_of_mem_enqueue hMem (by simp))

omit [Driver σ] in
theorem Tidy.remove {scope : Scope σ} {ref : Ref} (h : Tidy p scope) :
    Tidy p ((Session.remove p ref).run scope).2 := by
  rcases remove_cases p ref scope with hSame | ⟨hContains, hQueued⟩
  · rw [hSame]
    exact h
  · rw [hQueued]
    have hIn : ∃ key, scope.session.context.get? key = some ref := by
      obtain ⟨key?, _, hFound⟩ := except_bind_eq_ok.1 hContains
      cases key? with
      | none => cases hFound
      | some key => exact ⟨key, eq_of_beq (Except.ok.inj hFound)⟩
    refine ⟨h.coherent, ?_, ?_, ?_, ?_⟩
    · intro other hMem
      exact h.inserts other (Queue.mem_of_mem_enqueue hMem (by simp))
    · show ((scope.session.queue.enqueue ⟨.delete, ref⟩).ofKind .insert).Nodup
      rw [Queue.ofKind_enqueue_ne (by simp)]
      exact h.nodup
    · intro other hMem
      exact h.updates other (Queue.mem_of_mem_enqueue hMem (by simp))
    · intro other hMem
      rcases Queue.mem_enqueue.1 hMem with hOld | hLast
      · exact h.deletes other hOld
      · cases hLast
        exact hIn

theorem Tidy.withLoader (hAlone : p.schema.IdentifierAlone) {α : Type}
    {shared : Bool} {scope : Scope σ} {load : Loader → Step (Work σ) α}
    (h : Tidy p scope) (hLoad : Loader.Leading load) :
    Tidy p ((Session.withLoader p shared load).run scope).2 :=
  h.load (loaded p shared load scope fun _ _ _ =>
    hLoad (keeps_loading hAlone ..) (h.loading shared))

/-- Every request leaves a tidy session, whatever comes of it. -/
theorem Tidy.perform (hAlone : p.schema.IdentifierAlone) {scope : Scope σ}
    {op : Operation} (h : Tidy p scope) (hProper : Proper scope op) :
    Tidy p (op.perform p scope) := by
  refine perform_keeps (I := Tidy p) h ?_ (fun ref _ => h.remove)
    (fun _ => h.flush (flushed p scope))
    (fun shared load hLoad s hS => hS.withLoader hAlone hLoad)
    (fun s _ _ hS => ⟨hS.coherent, hS.inserts, hS.nodup, hS.updates,
      hS.deletes⟩)
    (fun _ _ _ => tidy_of_coherent Context.coherent_empty rfl)
    (fun _ s hS => hS.of_keeping (keeping_releaseConnection s))
    (fun _ s hS => hS.of_keeping (rolledBack s).keeping)
  rintro ref rfl
  exact h.persist hProper

omit [Driver σ] in
/-- What happens outside of a tidy session leaves it tidy. -/
theorem Tidy.outside {scope : Scope σ} {backend : Backend σ}
    (h : Tidy p scope) (hRespects : Respects p scope backend) :
    Tidy p { scope with backend := backend } where
  coherent := h.coherent.of_bears hRespects.1 hRespects.2
  inserts := fun ref hMem => ⟨Nat.lt_of_lt_of_le (h.inserts ref hMem).1
    hRespects.1, (h.inserts ref hMem).2⟩
  nodup := h.nodup
  updates := h.updates
  deletes := h.deletes

end Session

end UnitOfWork

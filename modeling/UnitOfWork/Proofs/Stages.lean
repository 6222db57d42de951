import UnitOfWork.Proofs.Failures
import UnitOfWork.Proofs.Tracking

/-!
# The two stages of a flush

A flush first inserts what waits. From then on the instances do not change: the
updates and the deletes of the second stage read them as they are, and as they
are found after the flush. So what the second stage sends, and what it leaves
under each key, can be told from the instances after the flush.

## Main results

* `Action.executeAll_append_run`: actions are carried out in stages;
* `Session.updates_of_flushed`: the updates that a flush sends, whatever comes
  of it;
* `Session.Staged.entry_of_deleted`, `Session.Staged.entry_of_kept`: what a
  flush leaves under a key.
-/

namespace UnitOfWork

variable {σ : Type} {schema : Schema} {heap : Heap} {key : Key}

/-! ## Instances that do not change -/

/-- If nothing is inserted the instances stay what they are. -/
theorem Heap.Keyed.eq_of_none {inserted : Ref → Prop} {before now : Heap}
    (h : before.Keyed schema inserted now) (hNone : ∀ ref, ¬ inserted ref) :
    now = before := by
  have hGet : ∀ ref, now.get ref = before.get ref := fun ref =>
    (h.get ref).resolve_right fun hChanged => hNone ref hChanged.1
  obtain ⟨now⟩ := now
  obtain ⟨before⟩ := before
  have hLength : now.length = before.length := h.next
  refine congrArg Heap.mk (List.ext_getElem hLength fun ref hNow hBefore => ?_)
  have hSame := hGet ref
  simpa [Heap.get, hNow, hBefore] using hSame

/-! ## What updates and deletes leave under a key -/

namespace Action

/-- Of the updates of entities that have the key the last one counts. -/
theorem foldl_leave_updates (dirty : List Dirty) (entry : Context.Entry) :
    (dirty.map fun d => (⟨.update, d.ref⟩ : Action)).foldl
        (leave schema heap key) entry =
      { entry with values? :=
          match (dirty.filter fun d => heap.Bears schema d.ref key).getLast? with
          | some d => (heap.snapshot schema d.ref).toOption
          | none => entry.values? } := by
  induction dirty generalizing entry with
  | nil => rfl
  | cons d rest ih =>
      rw [List.map_cons, List.foldl_cons, ih]
      by_cases hKey : heap.Bears schema d.ref key
      · rw [leave, if_pos hKey, List.filter_cons, if_pos (decide_eq_true hKey),
          List.getLast?_cons]
        cases (rest.filter fun d => heap.Bears schema d.ref key).getLast? <;> rfl
      · have hNot : ¬ decide (heap.Bears schema d.ref key) = true :=
          fun hTrue => hKey (of_decide_eq_true hTrue)
        rw [leave, if_neg hKey, List.filter_cons, if_neg hNot]

/-- Deletes leave nothing at all under the key of one of their entities. -/
theorem foldl_leave_deletes {actions : List Action} {entry : Context.Entry}
    (hDeletes : ∀ a ∈ actions, a.kind = .delete)
    (h : ∃ a ∈ actions, heap.Bears schema a.entity key) :
    actions.foldl (leave schema heap key) entry = ⟨none, none⟩ := by
  induction actions generalizing entry with
  | nil =>
      obtain ⟨a, hMem, _⟩ := h
      cases hMem
  | cons a rest ih =>
      have hRest : ∀ b ∈ rest, b.kind = .delete := fun b hB =>
        hDeletes b (List.mem_cons_of_mem _ hB)
      rw [List.foldl_cons]
      by_cases hLater : ∃ b ∈ rest, heap.Bears schema b.entity key
      · exact ih hRest hLater
      · obtain ⟨b, hMem, hKey⟩ := h
        have hHead : b = a := (List.mem_cons.1 hMem).resolve_right
          fun hB => hLater ⟨b, hB, hKey⟩
        subst hHead
        rw [foldl_leave_of_not_bears fun c hC hBears => hLater ⟨c, hC, hBears⟩,
          leave, if_pos hKey, hDeletes b (List.mem_cons_self ..)]

/-! ## Actions in stages -/

variable [Driver σ] {p : Persister} {conn : ConnId}
  {first rest actions : List Action}

theorem executeAll_append_run (first rest : List Action) (work : Work σ) :
    (executeAll p conn (first ++ rest)).run work =
      match (executeAll p conn first).run work with
      | (.ok _, mid) => (executeAll p conn rest).run mid
      | (.error e, mid) => (.error e, mid) := by
  induction first generalizing work with
  | nil => rfl
  | cons action others ih =>
      rw [List.cons_append, executeAll, executeAll, Step.bind_run,
        Step.bind_run]
      rcases (action.execute p conn).run work with ⟨_ | _, next⟩
      · rfl
      · exact ih next

theorem executeAll_append_ok {work last : Work σ}
    (h : (executeAll p conn (first ++ rest)).run work = (.ok (), last)) :
    ∃ mid, (executeAll p conn first).run work = (.ok (), mid) ∧
      (executeAll p conn rest).run mid = (.ok (), last) := by
  rw [executeAll_append_run] at h
  rcases hFirst : (executeAll p conn first).run work with ⟨e | _, mid⟩
  · rw [hFirst] at h
    cases h
  · rw [hFirst] at h
    exact ⟨mid, rfl, h⟩

/-- Only inserts change instances. -/
theorem heap_of_executeAll (hNone : ∀ a ∈ actions, a.kind ≠ .insert)
    {work last : Work σ} {r : Except Error Unit}
    (hRun : (executeAll p conn actions).run work = (r, last)) :
    last.env.heap = work.env.heap := by
  have hKeyed : work.env.heap.Keyed p.schema (fun _ => False)
      ((executeAll p conn actions).run work).2.env.heap :=
    keyed_executeAll (.refl ..) fun ref hInserts =>
      hNone _ hInserts.mem rfl
  rw [hRun] at hKeyed
  exact hKeyed.eq_of_none fun _ hNo => hNo

/-- Without an insert what is under a key can be told from the instances as
they are throughout. -/
theorem entry_of_executeAll (hNone : ∀ a ∈ actions, a.kind ≠ .insert)
    {work last : Work σ}
    (hRun : (executeAll p conn actions).run work = (.ok (), last))
    (key : Key) :
    last.context.entry key =
      actions.foldl (leave p.schema work.env.heap key)
        (work.context.entry key) := by
  have hOnce : Once actions :=
    List.Pairwise.imp_of_mem
      (fun _ hB _ hEq => hNone _ hB (congrArg Action.kind hEq))
      (List.pairwise_of_forall fun _ _ => trivial)
  rw [executeAll_entry hOnce hRun, heap_of_executeAll hNone hRun]

/-- Inserts take no key from an entity. -/
theorem within_of_inserts (hInserts : ∀ a ∈ actions, a.kind = .insert)
    {work last : Work σ}
    (hRun : (executeAll p conn actions).run work = (.ok (), last)) :
    work.context.Within last.context := by
  induction actions generalizing work with
  | nil =>
      cases hRun
      exact .refl _
  | cons action others ih =>
      obtain ⟨mid, hFollow, hGo⟩ := executeAll_cons_ok hRun
      have hKind := hInserts action (List.mem_cons_self ..)
      have hFirst := (get?_of_follow hFollow).2 (by simp [hKind])
      exact hFirst.trans
        (ih (fun b hB => hInserts b (List.mem_cons_of_mem _ hB)) hGo)

end Action

/-! ## The updates that are sent -/

/-- Whether a call is an UPDATE. -/
def Call.isUpdate : Call → Bool
  | .execute (.updateBy ..) _ => true
  | _ => false

namespace Action

variable {p : Persister} {first rest actions : List Action} {c : Call}

/-- Each UPDATE among some calls is that of one of the actions, as planned on
the instances. -/
def Updating (schema : Schema) (heap : Heap) (actions : List Action)
    (calls : List Call) : Prop :=
  ∀ c ∈ calls, c.isUpdate = true → ∃ ref, ⟨.update, ref⟩ ∈ actions ∧
    call? schema heap ⟨.update, ref⟩ = .ok (some c)

theorem Updating.nil : Updating schema heap actions [] :=
  fun _ hMem => by cases hMem

theorem Updating.snoc {calls : List Call}
    (h : Updating schema heap actions calls) (hCall : c.isUpdate = false) :
    Updating schema heap actions (calls ++ [c]) := by
  intro other hMem hUpdate
  rcases List.mem_append.1 hMem with hOld | hLast
  · exact h other hOld hUpdate
  · rw [List.mem_singleton.1 hLast, hCall] at hUpdate
    cases hUpdate

/-- What carries out an action is an UPDATE if the action is an update. -/
theorem CarriedBy.kind_of_isUpdate {inserted : Ref → Prop} {action : Action}
    (h : action.CarriedBy schema inserted heap c) (hUpdate : c.isUpdate = true) :
    action.kind = .update := by
  obtain ⟨⟨d, params, _, rfl⟩, _⟩ := h
  obtain ⟨kind, ref⟩ := action
  cases kind with
  | update => rfl
  | insert => cases hUpdate
  | delete => cases hUpdate

/-- Of two related lists each member of the second has one of the first. -/
theorem exists_of_forall₂_mem {α β : Type} {R : α → β → Prop} {as : List α}
    {bs : List β} (h : List.Forall₂ R as bs) {b : β} (hMem : b ∈ bs) :
    ∃ a ∈ as, R a b := by
  induction h with
  | nil => cases hMem
  | cons hHead _ ih =>
      rcases List.mem_cons.1 hMem with rfl | hRest
      · exact ⟨_, List.mem_cons_self .., hHead⟩
      · obtain ⟨a, hA, hRel⟩ := ih hRest
        exact ⟨a, List.mem_cons_of_mem _ hA, hRel⟩

variable [Driver σ] {conn : ConnId} {work last : Work σ}
  {r : Except Error Unit}

/-- Inserts send no UPDATE. -/
theorem made_of_inserts (hInserts : ∀ a ∈ actions, a.kind = .insert)
    (hRun : (executeAll p conn actions).run work = (r, last)) :
    ∃ calls, work.env.Made conn calls last.env ∧
      ∀ c ∈ calls, c.isUpdate = false := by
  obtain ⟨made, hPrefix, ⟨calls, hMade, hCarried⟩, _⟩ := executeAll_made hRun
  refine ⟨calls, hMade, fun c hC => ?_⟩
  obtain ⟨a, hA, hCarries⟩ := exists_of_forall₂_mem hCarried hC
  have hKind := hInserts a (List.mem_filter.1 (hPrefix.subset hA)).1
  refine Bool.eq_false_iff.2 fun hUpdate => ?_
  rw [hCarries.kind_of_isUpdate hUpdate] at hKind
  cases hKind

/-- Without an insert each UPDATE is planned on the instances as they are
throughout. -/
theorem updating_of_executeAll (hNone : ∀ a ∈ actions, a.kind ≠ .insert)
    (hRun : (executeAll p conn actions).run work = (r, last)) :
    ∃ calls, work.env.Made conn calls last.env ∧
      Updating p.schema last.env.heap actions calls := by
  obtain ⟨made, hPrefix, ⟨calls, hMade, hCarried⟩, _⟩ := executeAll_made hRun
  refine ⟨calls, hMade, fun c hC hUpdate => ?_⟩
  obtain ⟨a, hA, hCarries⟩ := exists_of_forall₂_mem hCarried hC
  have hMem := (List.mem_filter.1 (hPrefix.subset hA)).1
  have hKind := hCarries.kind_of_isUpdate hUpdate
  obtain ⟨_, now, hKeyed, hPlan⟩ := hCarries
  have hNow : now = last.env.heap := by
    rw [heap_of_executeAll hNone hRun]
    exact hKeyed.eq_of_none fun ref hInsert => hNone _ hInsert rfl
  obtain ⟨kind, ref⟩ := a
  cases hKind
  exact ⟨ref, hMem, hNow ▸ hPlan⟩

/-- So it is when inserts have gone before. -/
theorem updating_of_stages (hFirst : ∀ a ∈ first, a.kind = .insert)
    (hRest : ∀ a ∈ rest, a.kind ≠ .insert)
    (hRun : (executeAll p conn (first ++ rest)).run work = (r, last)) :
    ∃ calls, work.env.Made conn calls last.env ∧
      Updating p.schema last.env.heap rest calls := by
  rw [executeAll_append_run] at hRun
  rcases hInserted : (executeAll p conn first).run work with ⟨e | _, mid⟩
  · rw [hInserted] at hRun
    cases hRun
    obtain ⟨calls, hMade, hNot⟩ := made_of_inserts hFirst hInserted
    refine ⟨calls, hMade, fun c hC hUpdate => ?_⟩
    rw [hNot c hC] at hUpdate
    cases hUpdate
  · rw [hInserted] at hRun
    obtain ⟨before, hBefore, hNot⟩ := made_of_inserts hFirst hInserted
    obtain ⟨calls, hMade, hUpdating⟩ := updating_of_executeAll hRest hRun
    refine ⟨before ++ calls, hBefore.trans hMade, fun c hC hUpdate => ?_⟩
    rcases List.mem_append.1 hC with hEarly | hLate
    · rw [hNot c hEarly] at hUpdate
      cases hUpdate
    · exact hUpdating c hLate hUpdate

end Action

/-! ## The stages of a flush -/

namespace Session

/-- What a flush does when it has inserted what waits. -/
def later (s : Session) (dirty : List Dirty) : List Action :=
  dirty.map (fun d => ⟨.update, d.ref⟩) ++ s.queue.ofKind .delete

theorem ordered_eq_append (s : Session) (dirty : List Dirty) :
    s.ordered dirty = s.queue.ofKind .insert ++ s.later dirty :=
  List.append_assoc ..

theorem kind_of_mem_later {s : Session} {dirty : List Dirty} {action : Action}
    (h : action ∈ s.later dirty) : action.kind ≠ .insert := by
  rcases List.mem_append.1 h with hUpdate | hDelete
  · obtain ⟨d, _, rfl⟩ := List.mem_map.1 hUpdate
    simp
  · rw [Queue.kind_of_mem_ofKind hDelete]
    simp

theorem mem_later_update {s : Session} {dirty : List Dirty} {ref : Ref}
    (h : ⟨.update, ref⟩ ∈ s.later dirty) : ∃ d ∈ dirty, d.ref = ref := by
  rcases List.mem_append.1 h with hUpdate | hDelete
  · obtain ⟨d, hD, hEq⟩ := List.mem_map.1 hUpdate
    cases hEq
    exact ⟨d, hD, rfl⟩
  · cases Queue.kind_of_mem_ofKind hDelete

variable [Driver σ] {p : Persister} {scope after : Scope σ}

/-- The updates that the work on the connection sends, whatever comes of it. -/
theorem updating_of_performed {conn : ConnId} {inTransaction : Bool}
    {first rest : List Action} {work last : Work σ} {r : Except Error Unit}
    (hFirst : ∀ a ∈ first, a.kind = .insert)
    (hRest : ∀ a ∈ rest, a.kind ≠ .insert)
    (h : Performed p conn inTransaction (first ++ rest) work r last) :
    ∃ calls, work.env.Made conn calls last.env ∧
      Action.Updating p.schema last.env.heap rest calls := by
  -- The calls up to the first action are no updates.
  have hOpened : ∀ heap, ∃ calls,
      work.env.Made conn calls (opened conn inTransaction work).env ∧
        Action.Updating p.schema heap rest calls := by
    intro heap
    cases inTransaction with
    | false => exact ⟨[], .refl .., .nil⟩
    | true =>
        exact ⟨[.setAutoCommit false], (Env.Made.refl ..).called _,
          Action.Updating.nil.snoc rfl⟩
  have hActions : ∀ {r : Except Error Unit} {last : Work σ},
      (Action.executeAll p conn (first ++ rest)).run
        (opened conn inTransaction work) = (r, last) →
      ∃ calls, work.env.Made conn calls last.env ∧
        Action.Updating p.schema last.env.heap rest calls := by
    intro r last hRun
    obtain ⟨before, hBefore, hNone⟩ := hOpened last.env.heap
    obtain ⟨calls, hMade, hUpdating⟩ :=
      Action.updating_of_stages hFirst hRest hRun
    refine ⟨before ++ calls, hBefore.trans hMade, fun c hC => ?_⟩
    exact (List.mem_append.1 hC).elim (hNone c) (hUpdating c)
  cases h with
  | unopened _ _ => exact hOpened _
  | failed _ hRun => exact hActions hRun
  | uncommitted _ hRun _ =>
      obtain ⟨calls, hMade, hUpdating⟩ := hActions hRun
      exact ⟨_, hMade.called .commit, hUpdating.snoc rfl⟩
  | committed _ hRun _ _ =>
      obtain ⟨calls, hMade, hUpdating⟩ := hActions hRun
      exact ⟨_, (hMade.called .commit).called (.setAutoCommit true),
        (hUpdating.snoc rfl).snoc rfl⟩

/-- Whatever comes of a flush, each UPDATE that it sends is that of a dirty
entity, as planned on the instances that the flush leaves. -/
theorem updates_of_flushed {r : Except Error Unit}
    (hRegular : scope.session.Regular) (h : Flushed p scope r after) :
    ∃ conn calls, scope.env.Made conn calls after.env ∧
      ∀ c ∈ calls, c.isUpdate = true → ∃ d, IsDirty p scope d ∧
        Action.call? p.schema after.heap ⟨.update, d.ref⟩ = .ok (some c) := by
  -- What the work on the connection has sent is followed by calls of others.
  have hWork : ∀ {conn : ConnId} {dirty : List Dirty} {ctx : Context}
      {work : Work σ} {r : Except Error Unit},
      scope.session.context.diff p.schema scope.heap = .ok (dirty, ctx) →
      Performed p conn scope.session.inTransaction
        (scope.session.planned dirty) ⟨scope.env, ctx⟩ r work →
      ∃ calls, scope.env.Made conn calls work.env ∧
        Action.Updating p.schema work.env.heap (scope.session.later dirty)
          calls := by
    intro conn dirty ctx work r hDiff hRun
    rw [planned_eq_ordered hRegular, ordered_eq_append] at hRun
    exact updating_of_performed (fun a hA => Queue.kind_of_mem_ofKind hA)
      (fun a hA => kind_of_mem_later hA) hRun
  have hDirty : ∀ {dirty : List Dirty} {ctx : Context} {heap : Heap}
      {calls : List Call},
      scope.session.context.diff p.schema scope.heap = .ok (dirty, ctx) →
      Action.Updating p.schema heap (scope.session.later dirty) calls →
      ∀ c ∈ calls, c.isUpdate = true → ∃ d, IsDirty p scope d ∧
        Action.call? p.schema heap ⟨.update, d.ref⟩ = .ok (some c) := by
    intro dirty ctx heap calls hDiff hUpdating c hC hUpdate
    obtain ⟨ref, hMem, hPlan⟩ := hUpdating c hC hUpdate
    obtain ⟨d, hD, rfl⟩ := mem_later_update hMem
    exact ⟨d, ((listsDirty_of_diff hRegular hDiff).mem d).1 hD, hPlan⟩
  have hIdle : scope.env.Made 0 [] scope.env := .refl ..
  have hNone : ∀ {Q : Call → Prop}, ∀ c ∈ ([] : List Call), Q c :=
    fun _ hMem => by cases hMem
  cases h with
  | closed _ => exact ⟨0, [], hIdle, hNone⟩
  | unreadable _ _ => exact ⟨0, [], hIdle, hNone⟩
  | idle _ _ _ => exact ⟨0, [], hIdle, hNone⟩
  | unconnected _ _ _ _ _ => exact ⟨0, [], hIdle, hNone⟩
  | committed _ hDiff _ _ hRun =>
      obtain ⟨calls, hMade, hUpdating⟩ := hWork hDiff hRun
      exact ⟨_, calls, hMade, hDirty hDiff hUpdating⟩
  | rolledBack _ hDiff _ _ hRun _ =>
      obtain ⟨calls, hMade, hUpdating⟩ := hWork hDiff hRun
      exact ⟨_, _, (hMade.called .rollback).called (.setAutoCommit true),
        hDirty hDiff ((hUpdating.snoc rfl).snoc rfl)⟩
  | discarded _ hDiff _ _ hRun _ =>
      obtain ⟨calls, hMade, hUpdating⟩ := hWork hDiff hRun
      exact ⟨_, _, (hMade.called .rollback).called .close,
        hDirty hDiff ((hUpdating.snoc rfl).snoc rfl)⟩

/-! ## What a flush leaves under a key -/

/-- A flush that succeeds: it finds the dirty entities, inserts what waits, and
then updates and deletes. -/
structure Staged (p : Persister) (scope : Scope σ) (dirty : List Dirty)
    (conn : ConnId) (begun mid last : Work σ) : Prop where
  diff : scope.session.context.diff p.schema scope.heap =
    .ok (dirty, begun.context)
  heap : begun.env.heap = scope.heap
  inserted : (Action.executeAll p conn (scope.session.queue.ofKind
    .insert)).run begun = (.ok (), mid)
  done : (Action.executeAll p conn (scope.session.later dirty)).run mid =
    (.ok (), last)

theorem staged_of_flushed (hRegular : scope.session.Regular)
    (h : Flushed p scope (.ok ()) after) :
    ∃ dirty conn, ∃ begun mid last : Work σ,
      Staged p scope dirty conn begun mid last ∧
        after.session.context = last.context ∧
          after.heap = last.env.heap := by
  cases h with
  | idle _ hDiff hQueue =>
      let work : Work σ := ⟨scope.env, scope.session.context⟩
      refine ⟨[], 0, work, work, work, ⟨hDiff, rfl, ?_, ?_⟩, rfl, rfl⟩
      · rw [hQueue]
        rfl
      · rw [later, hQueue]
        rfl
  | @committed dirty ctx conn pool work _ hDiff _ _ hRun =>
      rw [planned_eq_ordered hRegular, ordered_eq_append] at hRun
      cases hRun with
      | @committed _ last _ hExecuted _ _ =>
          obtain ⟨mid, hInserted, hLater⟩ :=
            Action.executeAll_append_ok hExecuted
          refine ⟨dirty, conn, _, mid, last,
            ⟨?_, heap_opened .., hInserted, hLater⟩, rfl, rfl⟩
          rw [context_opened]
          exact hDiff

namespace Staged

variable {dirty : List Dirty} {conn : ConnId} {begun mid last : Work σ}

theorem lists (h : Staged p scope dirty conn begun mid last)
    (hRegular : scope.session.Regular) : ListsDirty p scope dirty :=
  listsDirty_of_diff hRegular h.diff

/-- The second stage changes no instance. -/
theorem heap_last (h : Staged p scope dirty conn begun mid last) :
    last.env.heap = mid.env.heap :=
  Action.heap_of_executeAll (fun _ hA => kind_of_mem_later hA) h.done

/-- The first stage only assigns identifiers. -/
theorem keyed (h : Staged p scope dirty conn begun mid last) :
    scope.heap.Keyed p.schema
      (fun ref => ⟨.insert, ref⟩ ∈ scope.session.queue.ofKind .insert)
      last.env.heap := by
  have hUnderway := Action.executeAll_underway p conn
    (scope.session.queue.ofKind .insert) begun
  rw [h.inserted] at hUnderway
  rw [h.heap_last, ← h.heap]
  exact hUnderway.keyed

/-- The first stage takes no key from an entity. -/
theorem within (h : Staged p scope dirty conn begun mid last) :
    scope.session.context.Within mid.context := by
  intro key ref hGet
  refine Action.within_of_inserts (fun _ hA => Queue.kind_of_mem_ofKind hA)
    h.inserted key ref ?_
  rw [Context.get?, Context.entities_of_diff h.diff]
  exact hGet

/-- Nothing is left under the key of an entity that is deleted. -/
theorem entry_of_deleted (h : Staged p scope dirty conn begun mid last)
    (hDeleted : ∃ a ∈ scope.session.queue.ofKind .delete,
      last.env.heap.Bears p.schema a.entity key) :
    last.context.entry key = ⟨none, none⟩ := by
  rw [Action.entry_of_executeAll (fun _ hA => kind_of_mem_later hA) h.done,
    ← h.heap_last, later, List.foldl_append]
  exact Action.foldl_leave_deletes
    (fun _ hA => Queue.kind_of_mem_ofKind hA) hDeleted

/-- Under any other key the last update of an entity with the key counts. -/
theorem entry_of_kept (h : Staged p scope dirty conn begun mid last)
    (hKept : ∀ a ∈ scope.session.queue.ofKind .delete,
      ¬ last.env.heap.Bears p.schema a.entity key) :
    last.context.entry key = ⟨mid.context.get? key,
      match (dirty.filter fun d =>
        last.env.heap.Bears p.schema d.ref key).getLast? with
      | some d => (last.env.heap.snapshot p.schema d.ref).toOption
      | none => mid.context.snapshot? key⟩ := by
  rw [Action.entry_of_executeAll (fun _ hA => kind_of_mem_later hA) h.done,
    ← h.heap_last, later, List.foldl_append,
    Action.foldl_leave_of_not_bears hKept, Action.foldl_leave_updates]
  rfl

/-- Under the key of an updated entity the snapshot of an updated entity is
left, as the entity is. -/
theorem exists_dirty_snapshot (h : Staged p scope dirty conn begun mid last)
    (hRegular : scope.session.Regular)
    (hKept : ∀ a ∈ scope.session.queue.ofKind .delete,
      ¬ last.env.heap.Bears p.schema a.entity key)
    {d : Dirty} (hD : d ∈ dirty)
    (hBears : last.env.heap.Bears p.schema d.ref key) :
    ∃ other values, other ∈ dirty ∧
      last.env.heap.Bears p.schema other.ref key ∧
      last.env.heap.snapshot p.schema other.ref = .ok values ∧
      last.context.snapshot? key = some values := by
  have hEntry := congrArg Context.Entry.values? (h.entry_of_kept hKept)
  have hMem : d ∈ dirty.filter fun d =>
      last.env.heap.Bears p.schema d.ref key :=
    List.mem_filter.2 ⟨hD, decide_eq_true hBears⟩
  cases hLast : (dirty.filter fun d =>
      last.env.heap.Bears p.schema d.ref key).getLast? with
  | none =>
      rw [List.getLast?_eq_none_iff.1 hLast] at hMem
      cases hMem
  | some other =>
      obtain ⟨hOther, hKey⟩ := List.mem_filter.1 (List.mem_of_getLast? hLast)
      obtain ⟨values, hValues⟩ := h.keyed.exists_snapshot
        (((h.lists hRegular).mem other).1 hOther).2.1
      refine ⟨other, values, hOther, of_decide_eq_true hKey, hValues, ?_⟩
      rw [hLast] at hEntry
      simp only [hValues] at hEntry
      exact hEntry

end Staged

end Session

end UnitOfWork

import UnitOfWork.Proofs.Fallible
import UnitOfWork.Proofs.Stages

/-!
# What a flush reports and what is committed

A flush in a transaction ends with a commit and with the switch to auto-commit.
What it reports should be what has become of its writes: they are all committed
if it succeeds, and none of them is if it fails. That is so up to the commit.
What comes after it is not part of the transaction any more, but it can fail
still: when the commit has succeeded and the switch fails, the flush reports
its failure as one that has been rolled back, and goes back to the context it
started with, though all its writes are committed.

## Main results

* `Fallible.Agrees`: what is committed, told from the calls that were made;
* `Session.agrees_of_performed`, `Session.outcome_of_flushed`: the work of a
  flush, and the flush;
* `Session.reflects_of_flushed`: the context after a flush that succeeds;
* `Session.flush_outcome`: what a flush reports, what it commits and which
  context it leaves.
-/

namespace UnitOfWork

variable {σ γ : Type} [Driver σ]

/-! ## Commits among calls -/

namespace Driver

variable {conn : ConnId} {calls more first : List Call} {t : σ}
  {r : Except Error Unit}

/-- A commit among these calls has succeeded. -/
def Committed (conn : ConnId) (calls : List Call) (t : σ) : Prop :=
  ∃ first, first ++ [.commit] <+: calls ∧
    (Driver.call conn .commit (after conn first t)).1 = .ok ()

/-- After some calls the commit succeeds, and `r` is what comes of the switch to
auto-commit that follows. -/
def Switched (conn : ConnId) (first : List Call) (t : σ)
    (r : Except Error Unit) : Prop :=
  (Driver.call conn .commit (after conn first t)).1 = .ok () ∧
    (Driver.call conn (.setAutoCommit true)
      (after conn (first ++ [.commit]) t)).1 = r

/-- One more call may be the one. -/
theorem committed_snoc {c : Call} :
    Committed conn (calls ++ [c]) t ↔ Committed conn calls t ∨
      c = .commit ∧
        (Driver.call conn .commit (after conn calls t)).1 = .ok () := by
  constructor
  · rintro ⟨first, hPrefix, hCall⟩
    rcases List.prefix_concat_iff.1 hPrefix with hWhole | hBefore
    · obtain ⟨rfl, hLast⟩ := List.append_inj' hWhole rfl
      exact Or.inr ⟨(List.singleton_inj.1 hLast).symm, hCall⟩
    · exact Or.inl ⟨first, hBefore, hCall⟩
  · rintro (⟨first, hPrefix, hCall⟩ | ⟨rfl, hCall⟩)
    · exact ⟨first, hPrefix.trans (List.prefix_append ..), hCall⟩
    · exact ⟨calls, List.prefix_refl _, hCall⟩

/-- Where there is no commit, none succeeds. -/
theorem not_committed (h : .commit ∉ calls) : ¬ Committed conn calls t := by
  rintro ⟨first, hPrefix, _⟩
  exact h (hPrefix.subset (List.mem_append_right _ (List.mem_singleton_self _)))

/-- Calls without a commit do not count. -/
theorem committed_append (h : .commit ∉ more) :
    Committed conn (calls ++ more) t ↔ Committed conn calls t := by
  induction more generalizing calls with
  | nil => rw [List.append_nil]
  | cons c rest ih =>
      obtain ⟨hNe, hRest⟩ := List.ne_and_not_mem_of_not_mem_cons h
      rw [List.append_cons, ih hRest, committed_snoc]
      exact or_iff_left fun hCommit => hNe hCommit.1.symm

theorem Switched.committed (h : Switched conn first t r)
    (hPrefix : first ++ [.commit] <+: calls) : Committed conn calls t :=
  ⟨first, hPrefix, h.1⟩

end Driver

/-! ## What is committed -/

namespace Fallible

open Driver

variable {F : Fallible σ γ} {conn : ConnId} {calls more : List Call}
  {before env after : Env σ}

/-- Calls on a connection have been made. If a commit among them has succeeded,
their writes have been carried out in order on the contents that there were,
and all that is committed; if none has, what is committed is as it was. -/
structure Agrees (F : Fallible σ γ) (conn : ConnId) (calls : List Call)
    (before after : Env σ) : Prop where
  made : before.Made conn calls after
  durable : Committed conn calls before.driver →
    Transactional.runAll F.run (calls.filterMap Call.write?)
        (F.view conn before.driver).content =
      .ok (F.committed conn after.driver)
  kept : ¬ Committed conn calls before.driver →
    F.committed conn after.driver = F.committed conn before.driver

/-- Calls on a connection have been made, with auto-commit off; their writes
have been carried out, and none of them is committed. -/
structure Writing (F : Fallible σ γ) (conn : ConnId) (calls : List Call)
    (before env : Env σ) : Prop where
  valid : F.Valid env.driver
  made : before.Made conn calls env
  pending : .commit ∉ calls
  collects : (F.view conn env.driver).Collects F.run
    (F.committed conn before.driver) (F.view conn before.driver).content
    (calls.filterMap Call.write?)

theorem Agrees.refl (F : Fallible σ γ) (conn : ConnId) (env : Env σ) :
    F.Agrees conn [] env env :=
  ⟨.refl .., fun hCommitted => absurd hCommitted (not_committed (by simp)),
    fun _ => rfl⟩

/-- Calls that write and commit nothing may follow. -/
theorem Agrees.append (h : F.Agrees conn calls before env)
    (hMade : env.Made conn more after) (hCommit : .commit ∉ more)
    (hWrite : more.filterMap Call.write? = [])
    (hKept : F.committed conn after.driver = F.committed conn env.driver) :
    F.Agrees conn (calls ++ more) before after where
  made := h.made.trans hMade
  durable := by
    rw [committed_append hCommit, List.filterMap_append, hWrite,
      List.append_nil, hKept]
    exact h.durable
  kept := by
    rw [committed_append hCommit, hKept]
    exact h.kept

namespace Writing

theorem agrees (h : F.Writing conn calls before env) :
    F.Agrees conn calls before env :=
  ⟨h.made, fun hCommitted => absurd hCommitted (not_committed h.pending),
    fun _ => h.collects.committed⟩

/-- A write that is carried out joins the others. -/
theorem write {c : Call} {answer : c.Answer} {write : Statement × List Value}
    (h : F.Writing conn calls before env) (hWrite : c.write? = some write)
    (hQuery : write.1.isQuery = false)
    (hCall : (Driver.call conn c env.driver).1 = .ok answer)
    (hMade : env.Made conn [c] after) :
    F.Writing conn (calls ++ [c]) before after := by
  have hDriver : after.driver = (Driver.call conn c env.driver).2 :=
    hMade.driver
  have hAnswers : Transactional.Answers F.run (F.view conn env.driver)
      (F.view conn after.driver) c (.ok answer) := by
    have hReply := F.replies conn c h.valid
    rw [hCall] at hReply
    rw [hDriver]
    exact hReply.answers
  refine ⟨valid_made h.valid hMade, h.made.trans hMade, ?_, ?_⟩
  · intro hCommit
    rcases List.mem_append.1 hCommit with hEarlier | hLast
    · exact h.pending hEarlier
    · cases List.mem_singleton.1 hLast
      cases hWrite
  · have hCollects := h.collects.write hAnswers hWrite hQuery
    simpa [List.filterMap_append, hWrite] using hCollects

/-- A call that fails commits nothing, be it the commit. -/
theorem fail {c : Call} {e : Error} (h : F.Writing conn calls before env)
    (hConnect : c ≠ .connect)
    (hCall : (Driver.call conn c env.driver).1 = .error e)
    (hMade : env.Made conn [c] after) :
    ¬ Committed conn (calls ++ [c]) before.driver ∧
      F.Agrees conn (calls ++ [c]) before after := by
  have hDriver : after.driver = (Driver.call conn c env.driver).2 :=
    hMade.driver
  have hNone : ¬ Committed conn (calls ++ [c]) before.driver := by
    rw [committed_snoc, ← h.made.driver]
    rintro (hEarlier | ⟨rfl, hOk⟩)
    · exact not_committed h.pending hEarlier
    · cases hCall.symm.trans hOk
  refine ⟨hNone, h.made.trans hMade, fun hCommitted => absurd hCommitted hNone,
    fun _ => ?_⟩
  rw [hDriver, committed_of_error h.valid hConnect hCall]
  exact h.collects.committed

/-- A commit that succeeds commits what has been written, and nothing is left
to commit. -/
theorem commit (h : F.Writing conn calls before env)
    (hCommit : (Driver.call conn .commit env.driver).1 = .ok ()) :
    F.Agrees conn (calls ++ [.commit]) before (env.called conn .commit) ∧
      (F.view conn (env.called conn .commit).driver).inTransaction = false := by
  have hView : F.view conn (env.called conn .commit).driver =
      (F.view conn env.driver).commit := view_commit h.valid hCommit
  refine ⟨⟨h.made.called .commit, fun _ => ?_, fun hNot => ?_⟩, ?_⟩
  · have hNone : [Call.commit].filterMap Call.write? = [] := rfl
    rw [List.filterMap_append, hNone, List.append_nil, committed, hView,
      Transactional.committed_commit]
    exact h.collects.content
  · refine absurd ⟨calls, List.prefix_refl _, ?_⟩ hNot
    rw [← h.made.driver]
    exact hCommit
  · rw [hView, Transactional.inTransaction_commit]

end Writing

/-- Actions write in the transaction, up to the end or the first failure. -/
theorem writing_executeAll (p : Persister) (actions : List Action)
    {work : Work σ} (h : F.Writing conn calls before work.env) :
    match (Action.executeAll p conn actions).run work with
    | (.ok _, after) => ∃ calls, F.Writing conn calls before after.env
    | (.error _, after) => ∃ calls,
      ¬ Committed conn calls before.driver ∧
        F.Agrees conn calls before after.env := by
  refine Action.executeAll_induct
    (I := fun _ work => ∃ calls, F.Writing conn calls before work.env)
    (J := fun work => ∃ calls, ¬ Committed conn calls before.driver ∧
      F.Agrees conn calls before work.env) ?_ ?_ ⟨calls, h⟩
  · rintro action rest work after ⟨calls, hWriting⟩ hExecuted
    cases hExecuted with
    | skipped _ _ => exact ⟨calls, hWriting⟩
    | done hPlan hCall _ hKey _ =>
        obtain ⟨write, hWrite, hQuery⟩ := Action.write_of_call? hPlan
        refine ⟨_, hWriting.write hWrite hQuery hCall ?_⟩
        exact p.made_calling hKey.env_eq.1
  · rintro action rest work after e ⟨calls, hWriting⟩ hExecuted
    cases hExecuted with
    | stopped _ =>
        exact ⟨calls, not_committed hWriting.pending, hWriting.agrees⟩
    | refused hPlan hCall =>
        obtain ⟨write, hWrite, _⟩ := Action.write_of_call? hPlan
        exact ⟨_, hWriting.fail (Call.ne_connect_of_write? hWrite) hCall
          (p.made_calling rfl)⟩
    | unsettled _ hPlan hCall hEnv _ =>
        obtain ⟨write, hWrite, hQuery⟩ := Action.write_of_call? hPlan
        have hNext := hWriting.write hWrite hQuery hCall (p.made_calling hEnv)
        exact ⟨_, not_committed hNext.pending, hNext.agrees⟩

/-- With auto-commit switched off, writes are collected. -/
theorem writing_opened (conn : ConnId) (hValid : F.Valid env.driver)
    (hCall : (Driver.call conn (.setAutoCommit false) env.driver).1 = .ok ()) :
    F.Writing conn [.setAutoCommit false] env
      (env.called conn (.setAutoCommit false)) := by
  have hView : F.view conn (env.called conn (.setAutoCommit false)).driver =
      (F.view conn env.driver).setAutoCommit false :=
    view_setAutoCommit hValid hCall
  refine ⟨F.valid_call conn _ hValid, (Env.Made.refl ..).called _, by simp, ?_⟩
  rw [hView]
  exact ⟨rfl, rfl, rfl⟩

end Fallible

/-! ## The work of a flush -/

namespace Session

open Fallible Driver

variable {F : Fallible σ γ} {p : Persister} {conn : ConnId}
  {scope after : Scope σ}

/-- The work of a flush in a transaction agrees with what is committed. If the
commit has succeeded, what comes of the work is what comes of the switch after
it; if it has not, the work fails. -/
theorem agrees_of_performed {actions : List Action} {work last : Work σ}
    {r : Except Error Unit} (hValid : F.Valid work.env.driver)
    (h : Performed p conn true actions work r last) :
    ∃ calls, F.Agrees conn calls work.env last.env ∧
      (¬ Committed conn calls work.env.driver ∧ (∃ e, r = .error e) ∨
        ∃ first, calls = first ++ [.commit, .setAutoCommit true] ∧
          Switched conn first work.env.driver r) := by
  have hOpen :
      (Driver.call conn (.setAutoCommit false) work.env.driver).1 = .ok () →
      F.Writing conn [.setAutoCommit false] work.env
        (opened conn true work).env := writing_opened conn hValid
  cases h with
  | @unopened e _ hCall =>
      have hKept : F.committed conn
          (opened conn true work).env.driver =
            F.committed conn work.env.driver :=
        committed_of_error hValid (by simp) hCall
      exact ⟨_, (Agrees.refl F conn work.env).append
        ((Env.Made.refl ..).called (.setAutoCommit false)) (by simp) rfl hKept,
        Or.inl ⟨not_committed (by simp), e, rfl⟩⟩
  | @failed e _ hOpened hRun =>
      have hActions := writing_executeAll p actions (hOpen (hOpened rfl))
      rw [hRun] at hActions
      obtain ⟨calls, hNone, hAgrees⟩ := hActions
      exact ⟨calls, hAgrees, Or.inl ⟨hNone, e, rfl⟩⟩
  | @uncommitted e _ hOpened hRun hCommit =>
      have hActions := writing_executeAll p actions (hOpen (hOpened rfl))
      rw [hRun] at hActions
      obtain ⟨calls, hWriting⟩ := hActions
      obtain ⟨hNone, hAgrees⟩ := hWriting.fail (by simp) hCommit
        ((Env.Made.refl ..).called .commit)
      exact ⟨_, hAgrees, Or.inl ⟨hNone, e, rfl⟩⟩
  | @committed _ done hOpened hRun hCommit hClose =>
      have hActions := writing_executeAll p actions (hOpen (hOpened rfl))
      rw [hRun] at hActions
      obtain ⟨calls, hWriting⟩ := hActions
      obtain ⟨hAgrees, hNone⟩ := hWriting.commit hCommit
      have hDone : F.Valid (done.env.called conn .commit).driver :=
        F.valid_call conn .commit hWriting.valid
      have hBefore : Driver.after conn calls work.env.driver =
          done.env.driver := hWriting.made.driver.symm
      have hBetween : Driver.after conn (calls ++ [.commit]) work.env.driver =
          (done.env.called conn .commit).driver := hAgrees.made.driver.symm
      refine ⟨calls ++ [.commit, .setAutoCommit true], ?_, Or.inr
        ⟨calls, rfl, ?_, ?_⟩⟩
      · have hLast := hAgrees.append
          ((Env.Made.refl ..).called (.setAutoCommit true)) (by simp) rfl
          (committed_switch hDone hNone)
        rw [List.append_assoc] at hLast
        exact hLast
      · rw [hBefore]
        exact hCommit
      · rw [hBetween]
        exact hClose

/-! ## The context after a flush -/

/-- The flush is to delete an entity that has a key when it is done. -/
def Deletes (p : Persister) (scope after : Scope σ) (key : Key) : Prop :=
  ∃ ref, ⟨.delete, ref⟩ ∈ scope.session.queue.pending ∧
    after.heap.Bears p.schema ref key

/-- The context after a flush shows what the flush has done. Each entity that
it was to write has a key. There is nothing under the keys of deleted entities.
Under those of inserted ones an entity is looked after, and under those of
dirty ones there is the snapshot of a dirty entity as it is. -/
structure Reflects (p : Persister) (scope after : Scope σ) : Prop where
  inserted : ∀ ref, ⟨.insert, ref⟩ ∈ scope.session.queue.pending →
    ∃ key, after.heap.Bears p.schema ref key ∧ (Deletes p scope after key ∨
      after.session.context.containsKey key = true)
  updated : ∀ d, IsDirty p scope d → ∃ key,
    after.heap.Bears p.schema d.ref key ∧ (Deletes p scope after key ∨
      ∃ other values, IsDirty p scope other ∧
        after.heap.Bears p.schema other.ref key ∧
        after.heap.snapshot p.schema other.ref = .ok values ∧
        after.session.context.snapshot? key = some values)
  deleted : ∀ ref, ⟨.delete, ref⟩ ∈ scope.session.queue.pending →
    ∃ key, after.heap.Bears p.schema ref key ∧
      after.session.context.entry key = ⟨none, none⟩

end Session

namespace Action

variable {p : Persister} {conn : ConnId} {actions : List Action}
  {action : Action}

/-- The entity of an action that is carried out has a key. -/
theorem exists_bears_of_executed {work after : Work σ}
    (h : Executed p conn action work (.ok ()) after) :
    ∃ key, after.env.heap.Bears p.schema action.entity key := by
  have hFollow := h.follow
  obtain ⟨kind, ref⟩ := action
  cases kind with
  | insert =>
      obtain ⟨resident, hCache⟩ := follow_insert hFollow
      obtain ⟨key, hBears, _⟩ := Context.Coherent.cache_cases hCache
      exact ⟨key, hBears⟩
  | update =>
      obtain ⟨key, _, hBears, _⟩ := Context.Coherent.refresh_cases hFollow
      exact ⟨key, hBears⟩
  | delete =>
      -- A plan to delete needs an identifier, so there is one to forget.
      have hSet : ∃ d, p.schema.descriptor (after.env.heap.get ref).type =
          .ok d ∧ (d.idValue (after.env.heap.get ref)).isNull = false := by
        cases h with
        | skipped hPlan _ =>
            obtain ⟨d, _, _, plan, _, hCall⟩ := call?_eq_ok hPlan
            cases hCall
        | @done _ _ env _ hPlan _ _ hKey _ =>
            obtain ⟨d, hD, _, plan, hDeletion, _⟩ := call?_eq_ok hPlan
            obtain ⟨id, hId, _⟩ := except_bind_eq_ok.1 hDeletion
            have hSame : env.heap = work.env.heap :=
              hKey.env_eq.2.same (by simp)
            rw [hSame]
            refine ⟨d, hD, Bool.eq_false_iff.2 fun hNull => ?_⟩
            rw [Heap.requireId, if_pos hNull] at hId
            cases hId
      obtain ⟨d, hD, hNull⟩ := hSet
      obtain ⟨key?, hKey, _⟩ := except_bind_eq_ok.1 hFollow
      cases key? with
      | some key => exact ⟨key, Heap.bears_of_entityKey hKey⟩
      | none =>
          obtain ⟨d', hDescribe, hRest⟩ := except_bind_eq_ok.1 hKey
          obtain ⟨id?, hId, hNone⟩ := except_bind_eq_ok.1 hRest
          have hSame : d' = d := Except.ok.inj
            ((Heap.describe_eq_ok hDescribe).1.symm.trans hD)
          subst hSame
          cases id? with
          | some id => cases hNone
          | none =>
              rw [EntityId.eq_null_of_ofValue hId] at hNull
              cases hNull

/-- Each entity that something was done to has a key in the end. -/
theorem exists_bears_of_executeAll {work last : Work σ}
    (hMem : action ∈ actions)
    (hRun : (executeAll p conn actions).run work = (.ok (), last)) :
    ∃ key, last.env.heap.Bears p.schema action.entity key := by
  induction actions generalizing work action with
  | nil => cases hMem
  | cons first rest ih =>
      obtain ⟨mid, hFirst, hRest⟩ := executeAll_cons_cases hRun
      by_cases hAgain : ⟨.insert, action.entity⟩ ∈ rest
      · have hInserted := ih hAgain hRest
        exact hInserted
      · rcases List.mem_cons.1 hMem with rfl | hLater
        · obtain ⟨key, hBears⟩ := exists_bears_of_executed hFirst
          have hGet : last.env.heap.get action.entity =
              mid.env.heap.get action.entity :=
            get_of_executeAll (fun a hA hEq => hAgain (hEq ▸ hA)) hRest
          exact ⟨key, (Heap.bears_congr hGet).2 hBears⟩
        · exact ih hLater hRest

/-- When entities have been inserted, there is an entity under the key of each
of them. -/
theorem exists_get?_of_inserts (hInserts : ∀ a ∈ actions, a.kind = .insert)
    {work last : Work σ}
    (hRun : (executeAll p conn actions).run work = (.ok (), last))
    {ref : Ref} (hMem : ⟨.insert, ref⟩ ∈ actions) {key : Key}
    (hKey : last.env.heap.Bears p.schema ref key) :
    ∃ resident, last.context.get? key = some resident := by
  induction actions generalizing work with
  | nil => cases hMem
  | cons first rest ih =>
      have hOthers : ∀ a ∈ rest, a.kind = .insert := fun a hA =>
        hInserts a (List.mem_cons_of_mem _ hA)
      obtain ⟨mid, hFollow, hRest⟩ := executeAll_cons_ok hRun
      by_cases hAgain : ⟨.insert, ref⟩ ∈ rest
      · exact ih hOthers hRest hAgain
      · have hFirst : first = ⟨.insert, ref⟩ :=
          ((List.mem_cons.1 hMem).resolve_right hAgain).symm
        subst hFirst
        obtain ⟨resident, hCache⟩ := follow_insert hFollow
        obtain ⟨own, hBears, hCases⟩ := Context.Coherent.cache_cases hCache
        have hGet : last.env.heap.get ref = mid.env.heap.get ref :=
          get_of_executeAll (fun a hA hEq => hAgain (hEq ▸ hA)) hRest
        have hOwn : own = key :=
          hBears.unique ((Heap.bears_congr hGet).1 hKey)
        subst hOwn
        have hThere : ∃ resident, mid.context.get? own = some resident := by
          rcases hCases with ⟨hTaken, hSame⟩ | ⟨_, _, values, _, hNew⟩
          · rw [hSame]
            exact ⟨resident, hTaken⟩
          · rw [hNew]
            exact ⟨ref, Context.get?_register_self ..⟩
        obtain ⟨resident, hThere⟩ := hThere
        exact ⟨resident, within_of_inserts hOthers hRest own resident hThere⟩

end Action

namespace Session

open Fallible Driver

variable {F : Fallible σ γ} {p : Persister} {conn : ConnId}
  {scope after : Scope σ}

/-- A flush that succeeds leaves a context that shows what it has done. -/
theorem reflects_of_flushed (hRegular : scope.session.Regular)
    (h : Flushed p scope (.ok ()) after) : Reflects p scope after := by
  obtain ⟨dirty, conn, begun, mid, last, hStaged, hContext, hHeap⟩ :=
    staged_of_flushed hRegular h
  have hQueued : ∀ {kind : ActionKind} {ref : Ref},
      ⟨kind, ref⟩ ∈ scope.session.queue.pending →
        ⟨kind, ref⟩ ∈ scope.session.queue.ofKind kind := fun hMem =>
    List.mem_filter.2 ⟨hMem, by simp⟩
  -- Unless a key is that of a deleted entity, its entry is told by the rest.
  have hKept : ∀ key, ¬ Deletes p scope after key →
      ∀ a ∈ scope.session.queue.ofKind .delete,
        ¬ last.env.heap.Bears p.schema a.entity key := by
    intro key hNot a hA hBears
    refine hNot ⟨a.entity, ?_, hHeap ▸ hBears⟩
    have hKind := Queue.kind_of_mem_ofKind hA
    obtain ⟨kind, ref⟩ := a
    cases hKind
    exact (List.mem_filter.1 hA).1
  refine ⟨fun ref hInsert => ?_, fun d hDirty => ?_, fun ref hDelete => ?_⟩
  · obtain ⟨key, hKey⟩ := Action.exists_bears_of_executeAll (hQueued hInsert)
      hStaged.inserted
    obtain ⟨resident, hGet⟩ := Action.exists_get?_of_inserts
      (fun _ hA => Queue.kind_of_mem_ofKind hA) hStaged.inserted
      (hQueued hInsert) hKey
    rw [← hStaged.heap_last, ← hHeap] at hKey
    refine ⟨key, hKey, or_iff_not_imp_left.2 fun hNot => ?_⟩
    have hEntry := congrArg Context.Entry.entity?
      (hStaged.entry_of_kept (hKept key hNot))
    have hThere : last.context.get? key = some resident := hEntry.trans hGet
    rw [hContext, Context.containsKey, hThere]
    rfl
  · have hD := ((hStaged.lists hRegular).mem d).2 hDirty
    have hLater : (⟨.update, d.ref⟩ : Action) ∈ scope.session.later dirty :=
      List.mem_append_left _ (List.mem_map.2 ⟨d, hD, rfl⟩)
    obtain ⟨key, hKey⟩ :=
      Action.exists_bears_of_executeAll hLater hStaged.done
    refine ⟨key, hHeap ▸ hKey, or_iff_not_imp_left.2 fun hNot => ?_⟩
    obtain ⟨other, values, hOther, hBears, hValues, hSnapshot⟩ :=
      hStaged.exists_dirty_snapshot hRegular (hKept key hNot) hD hKey
    rw [hHeap, hContext]
    exact ⟨other, values, ((hStaged.lists hRegular).mem other).1 hOther,
      hBears, hValues, hSnapshot⟩
  · have hLater : (⟨.delete, ref⟩ : Action) ∈ scope.session.later dirty :=
      List.mem_append_right _ (hQueued hDelete)
    obtain ⟨key, hKey⟩ :=
      Action.exists_bears_of_executeAll hLater hStaged.done
    refine ⟨key, hHeap ▸ hKey, ?_⟩
    rw [hContext]
    exact hStaged.entry_of_deleted ⟨_, hQueued hDelete, hKey⟩

/-! ## What a flush reports -/

/-- What a flush reports, commits and leaves. -/
structure Outcome (F : Fallible σ γ) (p : Persister) (conn : ConnId)
    (calls : List Call) (scope : Scope σ) (r : Except Error Unit)
    (after : Scope σ) : Prop where
  /-- What is committed is told by the commit. -/
  agrees : F.Agrees conn calls scope.env after.env
  /-- It succeeds if the commit and the switch after it do. -/
  finished : r = .ok () ↔ ∃ first,
    calls = first ++ [.commit, .setAutoCommit true] ∧
      Switched conn first scope.env.driver (.ok ())
  /-- If it succeeds the context is that of what has been done. -/
  reflects : r = .ok () → Reflects p scope after
  /-- If it fails the context is the old one. -/
  restored : ∀ e, r = .error e →
    after.session.context = scope.session.context
  /-- If it fails though the commit has succeeded, it reports the failure of
  the switch after it, as one that has been rolled back or could not be. -/
  misreported : ∀ e, r = .error e → Committed conn calls scope.env.driver →
    ∃ first more cause,
      calls = first ++ [.commit, .setAutoCommit true] ++ more ∧
        Switched conn first scope.env.driver (.error cause) ∧
        (e = .flush cause ∨ ∃ source, e = .rollback source cause)

/-- So it is for a flush that fails before anything is called. -/
theorem Outcome.of_error {e : Error} (hEnv : after.env = scope.env)
    (hContext : after.session.context = scope.session.context) :
    Outcome F p conn [] scope (.error e) after where
  agrees := by
    rw [hEnv]
    exact .refl F conn scope.env
  finished := by
    refine iff_of_false (fun hOk => by cases hOk) ?_
    rintro ⟨first, hCalls, _⟩
    simp at hCalls
  reflects := fun hOk => by cases hOk
  restored := fun _ _ => hContext
  misreported := fun _ _ hCommitted =>
    absurd hCommitted (not_committed (by simp))

/-- The work of a flush that fails is followed by calls that commit nothing,
the first of which is a rollback. -/
theorem Outcome.of_work {actions : List Action} {ctx : Context}
    {work : Work σ} {cause e : Error} {c : Call}
    (hValid : F.Valid scope.env.driver)
    (hRun : Performed p conn true actions ⟨scope.env, ctx⟩ (.error cause) work)
    (hMade : work.env.Made conn [.rollback, c] after.env) (hC : c ≠ .commit)
    (hWrite : c.write? = none)
    (hKept : F.committed conn after.env.driver =
      F.committed conn work.env.driver)
    (hContext : after.session.context = scope.session.context)
    (hError : e = .flush cause ∨ ∃ source, e = .rollback source cause) :
    ∃ calls, Outcome F p conn calls scope (.error e) after := by
  obtain ⟨calls, hAgrees, hEnds⟩ := agrees_of_performed hValid hRun
  have hNone : Call.commit ∉ [.rollback, c] := by
    simpa using hC.symm
  have hWrites : [Call.rollback, c].filterMap Call.write? = [] := by
    rw [List.filterMap_cons_none rfl, List.filterMap_cons_none hWrite]
    rfl
  refine ⟨calls ++ [.rollback, c], hAgrees.append hMade hNone hWrites hKept,
    ?_, (fun hOk => by cases hOk), fun _ _ => hContext, ?_⟩
  · refine iff_of_false (fun hOk => by cases hOk) ?_
    rintro ⟨first, hCalls, _⟩
    have hLast := (List.append_inj' hCalls rfl).2
    cases hLast
  · intro e' hE hCommitted
    cases hE
    rw [committed_append hNone] at hCommitted
    rcases hEnds with ⟨hNot, _⟩ | ⟨first, rfl, hSwitched⟩
    · exact absurd hCommitted hNot
    · exact ⟨first, _, cause, rfl, hSwitched, hError⟩

/-- Whatever comes of a flush in a transaction that has something to do. -/
theorem outcome_of_flushed {r : Except Error Unit}
    (hRegular : scope.session.Regular)
    (hTransaction : scope.session.inTransaction = true)
    (hSome : scope.session.queue ≠ {} ∨ ∃ d, IsDirty p scope d)
    (hConn : ∀ c pool, scope.Obtains c pool → c = conn)
    (hValid : F.Valid scope.env.driver) (h : Flushed p scope r after) :
    ∃ calls, Outcome F p conn calls scope r after := by
  have hFlushed := h
  cases h with
  | closed _ => exact ⟨[], .of_error rfl rfl⟩
  | unreadable _ _ => exact ⟨[], .of_error rfl rfl⟩
  | unconnected _ _ _ _ _ => exact ⟨[], .of_error rfl rfl⟩
  | idle _ hDiff hQueue =>
      rcases hSome with hQueued | ⟨d, hDirty⟩
      · exact absurd hQueue hQueued
      · cases ((listsDirty_of_diff hRegular hDiff).mem d).2 hDirty
  | committed _ _ _ hObtains hRun =>
      cases hConn _ _ hObtains
      rw [hTransaction] at hRun
      obtain ⟨calls, hAgrees, hEnds⟩ := agrees_of_performed hValid hRun
      rcases hEnds with ⟨_, e, hError⟩ | ⟨first, hCalls, hSwitched⟩
      · cases hError
      · exact ⟨calls, hAgrees, iff_of_true rfl ⟨first, hCalls, hSwitched⟩,
          fun _ => reflects_of_flushed hRegular hFlushed,
          (fun e hError => by cases hError),
          fun e hError => by cases hError⟩
  | @rolledBack _ _ _ _ work _ _ _ _ hObtains hRun hRollback =>
      cases hConn _ _ hObtains
      rw [hTransaction] at hRun
      have hMade : work.env.Made conn [.rollback, .setAutoCommit true]
          ((work.env.called conn .rollback).called conn
            (.setAutoCommit true)) :=
        ((Env.Made.refl ..).called .rollback).called (.setAutoCommit true)
      obtain ⟨calls, hAgrees, _⟩ := agrees_of_performed hValid hRun
      exact Outcome.of_work hValid hRun hMade (by simp) rfl
        (committed_restored (valid_made hValid hAgrees.made) hRollback) rfl
        (Or.inl rfl)
  | @discarded _ _ _ _ work _ source _ _ _ hObtains hRun hRollback =>
      cases hConn _ _ hObtains
      rw [hTransaction] at hRun
      have hMade : work.env.Made conn [.rollback, .close]
          ((work.env.called conn .rollback).called conn .close) :=
        ((Env.Made.refl ..).called .rollback).called .close
      obtain ⟨calls, hAgrees, _⟩ := agrees_of_performed hValid hRun
      have hStill := valid_made hValid hAgrees.made
      have hKept : F.committed conn
          ((work.env.called conn .rollback).called conn .close).driver =
            F.committed conn work.env.driver :=
        (committed_close conn (F.valid_call conn .rollback hStill)).trans
          (committed_of_error hStill (by simp) hRollback)
      exact Outcome.of_work hValid hRun hMade (by simp) rfl hKept rfl
        (Or.inr ⟨source, rfl⟩)

/-- On every run, when a flush in a transaction has something to do, and
whatever calls fail without effect: it succeeds exactly if its commit and the
switch to auto-commit after it do; its writes are all committed if the commit
succeeds, and nothing is otherwise; the context shows what the flush has done
if it succeeds, and is the old one if it fails. So it fails with its writes
committed if the commit succeeds and the switch fails, and in no other case. -/
theorem flush_outcome {start : Scope σ} {r : Except Error Unit}
    (hContext : start.session.context = {}) (hQueue : start.session.queue = {})
    (hReaches : Reaches p (fun _ _ => True) (fun _ _ => True) start scope)
    (hTransaction : scope.session.inTransaction = true)
    (hSome : scope.session.queue ≠ {} ∨ ∃ d, IsDirty p scope d)
    (hConn : ∀ c pool, scope.Obtains c pool → c = conn)
    (hValid : F.Valid scope.env.driver)
    (hRun : (flush p).run scope = (r, after)) :
    ∃ calls, Outcome F p conn calls scope r after := by
  have hRegular : scope.session.Regular :=
    regular_of_reaches hReaches (regular_of_empty hContext hQueue)
  have hFlushed := flushed p scope
  rw [hRun] at hFlushed
  exact outcome_of_flushed hRegular hTransaction hSome hConn hValid hFlushed

end Session

/-! ## A memo that is committed -/

namespace Memos

/-- A new session on a store without memos, beside a new memo. Auto-commit
cannot be switched on at first. -/
def hindered : Scope Store where
  backend := ⟨{
    driver := { store [] with
      faults := [⟨"AUTOCOMMIT ON", 0, 1, .failure "timeout"⟩] }
    heap := ⟨[memo .null "a"]⟩ }, { size := 1, idle := [], leased := [0] }⟩
  session := { id := 0, connection := some 0 }

/-- The memo is to be inserted. -/
def submitted : Scope Store :=
  (Operation.persist 0).perform persister
    (Operation.begin.perform persister hindered)

theorem obtains_submitted {conn : ConnId} {pool : Pool}
    (h : submitted.Obtains conn pool) : conn = 0 := by
  cases h with
  | held hHeld => exact (Option.some.inj hHeld).symm
  | leased hNone _ => cases hNone

end Memos

/-- The memo has been inserted and committed. The flush fails all the same, as
one that has been rolled back, and leaves a context without the memo. -/
theorem Session.flush_outcome_of_memos :
    ∃ calls after, (flush Memos.persister).run Memos.submitted =
        (.error (.flush (.connection "timeout")), after) ∧
      Outcome (Store.fallible .exact) Memos.persister 0 calls Memos.submitted
        (.error (.flush (.connection "timeout"))) after ∧
      Driver.Committed 0 calls Memos.submitted.env.driver ∧
      after.session.context = {} ∧
      ((Store.fallible .exact).committed 0 after.env.driver).map Table.rows =
        [[[.int 1, .text "a"]]] := by
  have hReaches : Reaches Memos.persister (fun _ _ => True) (fun _ _ => True)
      Memos.hindered Memos.submitted :=
    (Reaches.start.operation .begin trivial).operation (.persist 0) trivial
  have hValid : (Store.fallible .exact).Valid
      Memos.submitted.env.driver := by
    refine ⟨rfl, fun f hMem => ?_⟩
    cases List.mem_singleton.1 hMem
    exact ⟨_, rfl⟩
  have hRun : (flush Memos.persister).run Memos.submitted =
      (.error (.flush (.connection "timeout")),
        ((flush Memos.persister).run Memos.submitted).2) := Prod.ext rfl rfl
  obtain ⟨calls, hOutcome⟩ := flush_outcome rfl rfl hReaches rfl
    (Or.inl (by decide +kernel)) (fun _ _ => Memos.obtains_submitted) hValid hRun
  have hMade : Memos.submitted.env.Made 0
      [.setAutoCommit false, .insert (.insert "memos" ["title"]) [.text "a"],
        .commit, .setAutoCommit true, .rollback, .setAutoCommit true]
      ((flush Memos.persister).run Memos.submitted).2.env := ⟨rfl, rfl⟩
  obtain ⟨hCalls, _⟩ := hMade.unique hOutcome.agrees.made
  have hCommitted : Driver.Committed 0 calls Memos.submitted.env.driver := by
    rw [hCalls]
    exact ⟨[.setAutoCommit false,
      .insert (.insert "memos" ["title"]) [.text "a"]], ⟨_, rfl⟩, rfl⟩
  exact ⟨calls, _, hRun, hOutcome, hCommitted, hOutcome.restored _ rfl, rfl⟩

end UnitOfWork

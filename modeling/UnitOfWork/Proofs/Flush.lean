import UnitOfWork.Proofs.Actions
import UnitOfWork.Session

/-!
# How a flush ends

A flush has many exits: it may refuse a closed session, stop at an entity that
cannot be looked at, find nothing to do, get no connection, commit, or fail
and be taken back in one of two ways. `Session.flushed` lists them with what
holds on each, and `Session.performed` does the same for the part that is done
on the connection. The definitions themselves are not opened again.

## Main results

* `Session.performed`: the exits of the work on the connection;
* `Session.flushed`: the exits of a flush.
-/

namespace UnitOfWork

variable {σ : Type}

/-! ## The work on the connection -/

namespace Env

variable [Driver σ] (conn : ConnId) (c : Call) (env : Env σ)

/-- The environment that a call leaves. -/
def called : Env σ := ((call conn c).run env).2

theorem call_run :
    (call conn c).run env =
      ((Driver.call conn c env.driver).1, env.called conn c) := rfl

@[simp] theorem driver_called :
    (env.called conn c).driver = (Driver.call conn c env.driver).2 := rfl

@[simp] theorem trace_called :
    (env.called conn c).trace = env.trace ++ [(conn, c)] := rfl

@[simp] theorem heap_called : (env.called conn c).heap = env.heap := rfl

end Env

namespace Session

variable [Driver σ]

/-- The work as the first action finds it: inside a transaction auto-commit
has been switched off. -/
def opened (conn : ConnId) (inTransaction : Bool) (work : Work σ) : Work σ :=
  if inTransaction then
    { work with env := work.env.called conn (.setAutoCommit false) }
  else work

@[simp] theorem context_opened (conn : ConnId) (inTransaction : Bool)
    (work : Work σ) :
    (opened conn inTransaction work).context = work.context := by
  cases inTransaction <;> rfl

@[simp] theorem heap_opened (conn : ConnId) (inTransaction : Bool)
    (work : Work σ) :
    (opened conn inTransaction work).env.heap = work.env.heap := by
  cases inTransaction <;> rfl

/-- How the work of a flush on its connection ends. -/
inductive Performed (p : Persister) (conn : ConnId) (inTransaction : Bool)
    (actions : List Action) (work : Work σ) :
    Except Error Unit → Work σ → Prop
  /-- Auto-commit cannot be switched off. -/
  | unopened {e : Error} (hTransaction : inTransaction = true)
      (hCall : (Driver.call conn (.setAutoCommit false) work.env.driver).1 =
        .error e) :
    Performed p conn inTransaction actions work (.error e)
      (opened conn inTransaction work)
  /-- An action fails. -/
  | failed {e : Error} {after : Work σ}
      (hOpened : inTransaction = true →
        (Driver.call conn (.setAutoCommit false) work.env.driver).1 = .ok ())
      (hRun : (Action.executeAll p conn actions).run
        (opened conn inTransaction work) = (.error e, after)) :
    Performed p conn inTransaction actions work (.error e) after
  /-- The commit fails. -/
  | uncommitted {e : Error} {after : Work σ}
      (hOpened : inTransaction = true →
        (Driver.call conn (.setAutoCommit false) work.env.driver).1 = .ok ())
      (hRun : (Action.executeAll p conn actions).run
        (opened conn inTransaction work) = (.ok (), after))
      (hCommit : (Driver.call conn .commit after.env.driver).1 = .error e) :
    Performed p conn inTransaction actions work (.error e)
      { after with env := after.env.called conn .commit }
  /-- Everything is carried out and committed; `r` is what comes of switching
  auto-commit on again. -/
  | committed {r : Except Error Unit} {after : Work σ}
      (hOpened : inTransaction = true →
        (Driver.call conn (.setAutoCommit false) work.env.driver).1 = .ok ())
      (hRun : (Action.executeAll p conn actions).run
        (opened conn inTransaction work) = (.ok (), after))
      (hCommit : (Driver.call conn .commit after.env.driver).1 = .ok ())
      (hClose : (Driver.call conn (.setAutoCommit true)
        (Driver.call conn .commit after.env.driver).2).1 = r) :
    Performed p conn inTransaction actions work r
      { after with env :=
          (after.env.called conn .commit).called conn (.setAutoCommit true) }

/-- The work from the first action on. -/
theorem performed_of_opened {p : Persister} {conn : ConnId}
    {inTransaction : Bool} (actions : List Action) {work : Work σ}
    (hOpened : inTransaction = true →
      (Driver.call conn (.setAutoCommit false) work.env.driver).1 = .ok ()) :
    let rest : Step (Work σ) Unit := do
      Action.executeAll p conn actions
      Work.onEnv (Env.call conn .commit)
      Work.onEnv (Env.call conn (.setAutoCommit true))
    Performed p conn inTransaction actions work
      (rest.run (opened conn inTransaction work)).1
      (rest.run (opened conn inTransaction work)).2 := by
  intro rest
  simp only [rest, Step.bind_run]
  rcases hRun : (Action.executeAll p conn actions).run
    (opened conn inTransaction work) with ⟨e | _, after⟩
  · exact .failed hOpened hRun
  · simp only [← Step.bind_run, Work.onEnv_bind_run,
      Env.call_run conn .commit]
    cases hCommit : (Driver.call conn .commit after.env.driver).1 with
    | error e => exact .uncommitted hOpened hRun hCommit
    | ok _ => exact .committed hOpened hRun hCommit rfl

/-- The work on the connection ends in one of these ways. -/
theorem performed (p : Persister) (conn : ConnId) (inTransaction : Bool)
    (actions : List Action) (work : Work σ) :
    Performed p conn inTransaction actions work
      ((runActions p conn inTransaction actions).run work).1
      ((runActions p conn inTransaction actions).run work).2 := by
  cases inTransaction with
  | false => exact performed_of_opened actions fun h => by cases h
  | true =>
      simp only [runActions, if_true, Work.onEnv_bind_run,
        Env.call_run conn (.setAutoCommit false)]
      cases hCall :
        (Driver.call conn (.setAutoCommit false) work.env.driver).1 with
      | error e => exact .unopened rfl hCall
      | ok _ => exact performed_of_opened actions fun _ => hCall

end Session

/-! ## The flush -/

/-- The connection that a session works on, and the pool that is left when it
has it: the one it has on lease, or else one that it leases. -/
inductive Scope.Obtains (scope : Scope σ) : ConnId → Pool → Prop
  | held {conn : ConnId} (h : scope.session.connection = some conn) :
    Obtains scope conn scope.backend.pool
  | leased {conn : ConnId} {pool : Pool} (h : scope.session.connection = none)
      (hLease : scope.backend.pool.lease = .ok (conn, pool)) :
    Obtains scope conn pool

/-- There is one connection that a session works on. -/
theorem Scope.Obtains.unique {scope : Scope σ} {conn other : ConnId}
    {pool rest : Pool} (h : scope.Obtains conn pool)
    (hOther : scope.Obtains other rest) : other = conn := by
  cases h with
  | held hHeld =>
      cases hOther with
      | held hSame => exact Option.some.inj (hSame.symm.trans hHeld)
      | leased hNone _ => cases hNone.symm.trans hHeld
  | leased hNone hLease =>
      cases hOther with
      | held hHeld => cases hNone.symm.trans hHeld
      | leased _ hSame =>
          cases hSame.symm.trans hLease
          rfl

theorem Scope.exists_unique_conn (scope : Scope σ) :
    ∃ conn, ∀ c pool, scope.Obtains c pool → c = conn := by
  by_cases hSome : ∃ conn pool, scope.Obtains conn pool
  · obtain ⟨conn, pool, hObtains⟩ := hSome
    exact ⟨conn, fun c rest hC => hObtains.unique hC⟩
  · exact ⟨0, fun c pool hC => absurd ⟨c, pool, hC⟩ hSome⟩

namespace Session

/-- What a flush carries out that finds some entities out of step, in
order. -/
def planned (s : Session) (dirty : List Dirty) : List Action :=
  (s.queue.enqueueAll (dirty.map fun d => ⟨.update, d.ref⟩)).drain

variable [Driver σ]

/-- How a flush ends: what comes of it and what it leaves. -/
inductive Flushed (p : Persister) (scope : Scope σ) :
    Except Error Unit → Scope σ → Prop
  | closed (hClosed : scope.session.isOpen = false) :
    Flushed p scope (.error (.state .sessionClosed)) scope
  /-- An entity cannot be looked at. -/
  | unreadable {e : Error} (hOpen : scope.session.isOpen = true)
      (hDiff : scope.session.context.diff p.schema scope.heap = .error e) :
    Flushed p scope (.error e) scope
  /-- There is nothing to write. -/
  | idle (hOpen : scope.session.isOpen = true)
      (hDiff : scope.session.context.diff p.schema scope.heap =
        .ok ([], scope.session.context))
      (hQueue : scope.session.queue = {}) :
    Flushed p scope (.ok ()) scope
  /-- No connection can be leased. -/
  | unconnected {dirty : List Dirty} {ctx : Context} {e : Error}
      (hOpen : scope.session.isOpen = true)
      (hDiff : scope.session.context.diff p.schema scope.heap =
        .ok (dirty, ctx))
      (hPending : scope.session.planned dirty ≠ [])
      (hNone : scope.session.connection = none)
      (hLease : scope.backend.pool.lease = .error e) :
    Flushed p scope (.error e)
      { scope with session := { scope.session with queue := {} } }
  | committed {dirty : List Dirty} {ctx : Context} {conn : ConnId}
      {pool : Pool} {work : Work σ} (hOpen : scope.session.isOpen = true)
      (hDiff : scope.session.context.diff p.schema scope.heap =
        .ok (dirty, ctx))
      (hPending : scope.session.planned dirty ≠ [])
      (hConn : scope.Obtains conn pool)
      (hRun : Performed p conn scope.session.inTransaction
        (scope.session.planned dirty) ⟨scope.env, ctx⟩ (.ok ()) work) :
    Flushed p scope (.ok ())
      { backend := ⟨work.env, pool⟩
        session := { scope.session with
          connection := some conn, context := work.context, queue := {} } }
  /-- The flush fails and is rolled back. -/
  | rolledBack {dirty : List Dirty} {ctx : Context} {conn : ConnId}
      {pool : Pool} {work : Work σ} {cause : Error}
      (hOpen : scope.session.isOpen = true)
      (hDiff : scope.session.context.diff p.schema scope.heap =
        .ok (dirty, ctx))
      (hPending : scope.session.planned dirty ≠ [])
      (hConn : scope.Obtains conn pool)
      (hRun : Performed p conn scope.session.inTransaction
        (scope.session.planned dirty) ⟨scope.env, ctx⟩ (.error cause) work)
      (hRollback : (Driver.call conn .rollback work.env.driver).1 = .ok ()) :
    Flushed p scope (.error (.flush cause))
      { backend := ⟨(work.env.called conn .rollback).called conn
          (.setAutoCommit true), pool⟩
        session := { scope.session with
          connection := some conn, queue := {} } }
  /-- The flush fails, cannot be rolled back, and the connection is given
  up. -/
  | discarded {dirty : List Dirty} {ctx : Context} {conn : ConnId}
      {pool : Pool} {work : Work σ} {cause source : Error}
      (hOpen : scope.session.isOpen = true)
      (hDiff : scope.session.context.diff p.schema scope.heap =
        .ok (dirty, ctx))
      (hPending : scope.session.planned dirty ≠ [])
      (hConn : scope.Obtains conn pool)
      (hRun : Performed p conn scope.session.inTransaction
        (scope.session.planned dirty) ⟨scope.env, ctx⟩ (.error cause) work)
      (hRollback : (Driver.call conn .rollback work.env.driver).1 =
        .error source) :
    Flushed p scope (.error (.rollback source cause))
      { backend := ⟨(work.env.called conn .rollback).called conn .close,
          pool.endLease conn⟩
        session := { scope.session with connection := none, queue := {} } }

/-! ## The parts of a flush -/

/-- The scope with a connection on lease. -/
def holding (conn : ConnId) (pool : Pool) (scope : Scope σ) : Scope σ where
  backend := { scope.backend with pool := pool }
  session := { scope.session with connection := some conn }

omit [Driver σ] in
/-- A session that can have a connection has it then. -/
theorem ensureConnection_run {scope : Scope σ} {conn : ConnId} {pool : Pool}
    (h : scope.Obtains conn pool) :
    ensureConnection.run scope = (.ok conn, holding conn pool scope) := by
  obtain ⟨⟨env, rest⟩, session⟩ := scope
  obtain ⟨id, connection, context, queue, isOpen, inTransaction⟩ := session
  cases h with
  | held hHeld =>
      cases hHeld
      rfl
  | leased hNone hLease =>
      cases hNone
      simp only [ensureConnection, self, onBackend, Backend.lease, Step.run,
        Step.zoom, bind, hLease]
      rfl

omit [Driver σ] in
/-- A session has its connection, or leases one, or cannot. -/
theorem ensureConnection_cases (scope : Scope σ) :
    (∃ conn pool, scope.Obtains conn pool ∧
      ensureConnection.run scope = (.ok conn, holding conn pool scope)) ∨
    ∃ e, scope.session.connection = none ∧
      scope.backend.pool.lease = .error e ∧
        ensureConnection.run scope = (.error e, scope) := by
  cases hConn : scope.session.connection with
  | some conn =>
      have hHeld : scope.Obtains conn scope.backend.pool := .held hConn
      exact Or.inl ⟨conn, _, hHeld, ensureConnection_run hHeld⟩
  | none =>
      cases hLease : scope.backend.pool.lease with
      | ok leased =>
          have hLeased : scope.Obtains leased.1 leased.2 := .leased hConn hLease
          exact Or.inl ⟨_, _, hLeased, ensureConnection_run hLeased⟩
      | error e =>
          refine Or.inr ⟨e, rfl, rfl, ?_⟩
          simp [ensureConnection, self, onBackend, Backend.lease, Step.run,
            Step.zoom, bind, hConn, hLease]

omit [Driver σ] in
/-- Nothing is planned exactly when nothing waits and nothing is out of
step. -/
theorem planned_eq_nil_iff {s : Session} {dirty : List Dirty} :
    s.planned dirty = [] ↔ s.queue = {} ∧ dirty = [] := by
  obtain ⟨id, connection, context, ⟨pending⟩, isOpen, inTransaction⟩ := s
  have hPerm := Queue.drain_perm (Queue.enqueueAll ⟨pending⟩
    (dirty.map fun d => ⟨.update, d.ref⟩))
  constructor
  · intro hNil
    rw [planned] at hNil
    rw [hNil] at hPerm
    have hBoth := hPerm.symm.eq_nil
    simp only [Queue.enqueueAll, List.append_eq_nil_iff,
      List.map_eq_nil_iff] at hBoth
    exact ⟨congrArg Queue.mk hBoth.1, hBoth.2⟩
  · rintro ⟨hEmpty, rfl⟩
    cases hEmpty
    rfl

omit [Driver σ] in
/-- What is planned is what waits and the updates. -/
theorem isEmpty_enqueueAll_iff {s : Session} {dirty : List Dirty} :
    (s.queue.enqueueAll
      (dirty.map fun d => (⟨.update, d.ref⟩ : Action))).isEmpty = true ↔
      s.planned dirty = [] := by
  rw [planned_eq_nil_iff]
  obtain ⟨id, connection, context, ⟨pending⟩, isOpen, inTransaction⟩ := s
  simp [Queue.isEmpty, Queue.enqueueAll]

omit [Driver σ] in
/-- With nothing out of step there are no new snapshots. -/
theorem context_of_diff_nil {schema : Schema} {heap : Heap}
    {ctx after : Context} (h : ctx.diff schema heap = .ok ([], after)) :
    after = ctx := by
  unfold Context.diff at h
  cases hDirty : ctx.dirtyEntries schema heap ctx.entities with
  | error e => simp [hDirty, bind, Except.bind] at h
  | ok dirty =>
      simp only [hDirty, except_ok_bind, Except.ok.injEq, Prod.mk.injEq] at h
      rw [← h.2, h.1]
      rfl

omit [Driver σ] in
theorem ensureOpen_run (scope : Scope σ) :
    ensureOpen.run scope =
      (if scope.session.isOpen then .ok ()
        else .error (.state .sessionClosed), scope) := by
  simp only [ensureOpen, self, Step.run, bind]
  cases scope.session.isOpen <;> rfl

/-- A flush that finds something to do carries it out. -/
theorem flush_run_of_pending {p : Persister} {scope : Scope σ}
    {dirty : List Dirty} {ctx : Context}
    (hOpen : scope.session.isOpen = true)
    (hDiff : scope.session.context.diff p.schema scope.heap = .ok (dirty, ctx))
    (hPending : scope.session.planned dirty ≠ []) :
    (flush p).run scope = (runQueue p scope.session.context).run
      { scope with session := { scope.session with
          context := ctx
          queue := scope.session.queue.enqueueAll
            (dirty.map fun d => ⟨.update, d.ref⟩) } } := by
  have hQueue : (scope.session.queue.enqueueAll
      (dirty.map fun d => (⟨.update, d.ref⟩ : Action))).isEmpty = false := by
    rw [Bool.eq_false_iff]
    exact fun hEmpty => hPending (isEmpty_enqueueAll_iff.1 hEmpty)
  simp only [flush]
  rw [Step.bind_run, ensureOpen_run, hOpen]
  simp only [self, Step.run, bind, collectDirty, hDiff, hQueue, if_true,
    Bool.false_eq_true, if_false]
  rw [hOpen]

omit [Driver σ] in
theorem self_run (scope : Scope σ) :
    self.run scope = (.ok scope.session, scope) := rfl

omit [Driver σ] in
theorem change_run (f : Session → Session) (scope : Scope σ) :
    (change f).run scope =
      (.ok (), { scope with session := f scope.session }) := rfl

/-- A session that holds a connection carries its queue out on it. -/
theorem runQueue_run {p : Persister} {saved : Context} {scope : Scope σ}
    {conn : ConnId} {pool : Pool}
    (hRun : ensureConnection.run scope = (.ok conn, holding conn pool scope)) :
    (runQueue p saved).run scope =
      match (runActions p conn scope.session.inTransaction
        scope.session.queue.drain).run ⟨scope.env, scope.session.context⟩ with
      | (.ok _, work) =>
        (.ok (),
          { backend := ⟨work.env, pool⟩
            session := { scope.session with
              connection := some conn, context := work.context, queue := {} } })
      | (.error cause, work) =>
        (undo conn cause).run
          { backend := ⟨work.env, pool⟩
            session := { scope.session with
              connection := some conn, context := saved, queue := {} } } := by
  rw [runQueue, Step.bind_run, Step.attempt_run, hRun]
  simp only
  rw [Step.bind_run, self_run]
  simp only
  rw [Step.bind_run, change_run]
  simp only
  rw [Step.bind_run, Step.attempt_run, onWork, Step.zoom_run]
  rcases hActions : (runActions p conn scope.session.inTransaction
    scope.session.queue.drain).run ⟨scope.env, scope.session.context⟩ with
    ⟨cause | _, work⟩
  · simp only [holding, Scope.env] at hActions ⊢
    rw [hActions]
    rfl
  · simp only [holding, Scope.env] at hActions ⊢
    rw [hActions]
    rfl

/-- A failed flush is rolled back, or its connection is given up. -/
theorem undo_run {conn : ConnId} {cause : Error} {scope : Scope σ}
    (hConn : scope.session.connection = some conn) :
    (undo conn cause).run scope =
      match (Driver.call conn .rollback scope.env.driver).1 with
      | .ok _ =>
        (.error (.flush cause), scope.withEnv
          ((scope.env.called conn .rollback).called conn (.setAutoCommit true)))
      | .error source =>
        (.error (.rollback source cause),
          { backend := ⟨(scope.env.called conn .rollback).called conn .close,
              scope.backend.pool.endLease conn⟩
            session := { scope.session with connection := none } }) := by
  rw [undo, Step.bind_run, Step.attempt_run, onEnv, Step.zoom_run,
    Env.call_run conn .rollback]
  simp only
  cases (Driver.call conn .rollback scope.env.driver).1 with
  | ok _ => rfl
  | error source =>
      simp only
      rw [Step.bind_run, discardConnection, Step.bind_run, self_run]
      simp only [Scope.withEnv, hConn]
      rfl

/-- What is carried out commits, is rolled back, or costs the connection. -/
theorem flushed_of_pending {p : Persister} {scope : Scope σ}
    {dirty : List Dirty} {ctx : Context}
    (hOpen : scope.session.isOpen = true)
    (hDiff : scope.session.context.diff p.schema scope.heap = .ok (dirty, ctx))
    (hPending : scope.session.planned dirty ≠ []) :
    Flushed p scope ((flush p).run scope).1 ((flush p).run scope).2 := by
  rw [flush_run_of_pending hOpen hDiff hPending]
  rcases ensureConnection_cases { scope with session := { scope.session with
      context := ctx
      queue := scope.session.queue.enqueueAll
        (dirty.map fun d => ⟨.update, d.ref⟩) } } with
    ⟨conn, pool, hConn, hRun⟩ | ⟨e, hNone, hLease, hRun⟩
  · have hObtains : scope.Obtains conn pool := by
      cases hConn with
      | held hHeld => exact .held hHeld
      | leased hNone hLease => exact .leased hNone hLease
    have hPerformed := performed p conn scope.session.inTransaction
      (scope.session.planned dirty) ⟨scope.env, ctx⟩
    rw [runQueue_run hRun]
    rcases hActions : (runActions p conn scope.session.inTransaction
      (scope.session.planned dirty)).run ⟨scope.env, ctx⟩ with
      ⟨cause | _, work⟩
    · rw [hActions] at hPerformed
      simp only [planned, Scope.env] at hActions ⊢
      rw [hActions]
      simp only
      rw [undo_run rfl]
      cases hRollback : (Driver.call conn .rollback work.env.driver).1 with
      | ok _ =>
          simp only [Scope.env, hRollback]
          exact .rolledBack hOpen hDiff hPending hObtains hPerformed hRollback
      | error source =>
          simp only [Scope.env, hRollback]
          exact .discarded hOpen hDiff hPending hObtains hPerformed hRollback
    · rw [hActions] at hPerformed
      simp only [planned, Scope.env] at hActions ⊢
      rw [hActions]
      exact .committed hOpen hDiff hPending hObtains hPerformed
  · simp only [runQueue]
    rw [Step.bind_run, Step.attempt_run, hRun]
    exact .unconnected hOpen hDiff hPending hNone hLease

/-- A flush ends in one of these ways. -/
theorem flushed (p : Persister) (scope : Scope σ) :
    Flushed p scope ((flush p).run scope).1 ((flush p).run scope).2 := by
  cases hOpen : scope.session.isOpen with
  | false =>
      have hRun : (flush p).run scope =
          (.error (.state .sessionClosed), scope) := by
        rw [flush, Step.bind_run, ensureOpen_run, hOpen]
        rfl
      rw [hRun]
      exact .closed hOpen
  | true =>
      cases hDiff : scope.session.context.diff p.schema scope.heap with
      | error e =>
          have hRun : (flush p).run scope = (.error e, scope) := by
            rw [flush, Step.bind_run, ensureOpen_run, hOpen]
            simp only [self, Step.run, bind, collectDirty, hDiff, if_true]
          rw [hRun]
          exact .unreadable hOpen hDiff
      | ok found =>
          obtain ⟨dirty, ctx⟩ := found
          by_cases hPending : scope.session.planned dirty = []
          · obtain ⟨hQueue, rfl⟩ := planned_eq_nil_iff.1 hPending
            have hContext := context_of_diff_nil hDiff
            rw [hContext] at hDiff
            have hRun : (flush p).run scope = (.ok (), scope) := by
              rw [flush, Step.bind_run, ensureOpen_run, hOpen]
              simp only [self, Step.run, bind, collectDirty, hDiff, hQueue,
                if_true]
              obtain ⟨backend, session⟩ := scope
              cases session
              cases hQueue
              rfl
            rw [hRun]
            exact .idle hOpen hDiff hQueue
          · exact flushed_of_pending hOpen hDiff hPending

end Session

end UnitOfWork

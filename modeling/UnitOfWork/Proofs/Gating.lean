import UnitOfWork.Proofs.FlushOrder
import UnitOfWork.Proofs.IdentityMap

/-!
# Rows are added and removed in transactions

Entities are queued for insertion and for deletion in a transaction only, but
their statements are sent by a later flush, so they are sent in a transaction
as long as nothing waits when the transaction is closed. Whatever closes it
has emptied the queue, with one exception: a commit whose flush stops at an
entity that cannot be looked at closes the transaction and leaves the queue
(`Session.Strands`). What is left is sent by the next flush, with auto-commit
on.

## Main results

* `Session.perform_sends`: a session with nothing waiting outside of a
  transaction inserts and deletes in transactions, whatever is asked of it;
* `Session.Gated.perform`: every request but that commit leaves it so;
* `Session.Strands.session`: what that commit leaves;
* `Session.writes_in_transaction`: the same of runs.
-/

namespace UnitOfWork

variable {σ : Type}

/-! ## Calls and the states they are made in -/

/-- Whether a statement adds a row or removes some. -/
def Statement.addsOrRemoves : Statement → Bool
  | insert .. | deleteBy .. => true
  | _ => false

/-- Whether a call runs such a statement. -/
def Call.addsOrRemoves (c : Call) : Bool :=
  c.statement?.any Statement.addsOrRemoves

/-- The driver after calls on its connections. -/
def Driver.afterAll [Driver σ] (made : List (ConnId × Call)) (t : σ) : σ :=
  made.foldl (fun t call => (Driver.call call.1 call.2 t).2) t

/-- Each call that is made from one environment to another is as `P` says, of
its connection and of the driver as the call finds it. -/
def Env.Sends [Driver σ] (P : ConnId → Call → σ → Prop) (before after : Env σ) :
    Prop :=
  ∃ made, after.trace = before.trace ++ made ∧
    after.driver = Driver.afterAll made before.driver ∧
    ∀ first conn c, first ++ [(conn, c)] <+: made →
      P conn c (Driver.afterAll first before.driver)

namespace Env.Sends

variable [Driver σ] {P : ConnId → Call → σ → Prop} {before env after : Env σ}

theorem refl (P : ConnId → Call → σ → Prop) (env : Env σ) :
    env.Sends P env := by
  refine ⟨[], (List.append_nil _).symm, rfl, ?_⟩
  intro first conn c hPrefix
  have hNil := List.prefix_nil.1 hPrefix
  simp at hNil

/-- One more call. -/
theorem snoc {conn : ConnId} {c : Call} (h : before.Sends P env)
    (hCall : P conn c env.driver)
    (hTrace : after.trace = env.trace ++ [(conn, c)])
    (hDriver : after.driver = (Driver.call conn c env.driver).2) :
    before.Sends P after := by
  obtain ⟨made, hMade, hState, hAll⟩ := h
  refine ⟨made ++ [(conn, c)], ?_, ?_, ?_⟩
  · rw [hTrace, hMade, List.append_assoc]
  · rw [hDriver, hState]
    simp [Driver.afterAll]
  · intro first conn' c' hPrefix
    rcases List.prefix_concat_iff.1 hPrefix with hWhole | hBefore
    · obtain ⟨rfl, hLast⟩ := List.append_inj' hWhole rfl
      obtain ⟨rfl, rfl⟩ := Prod.mk.inj (List.singleton_inj.1 hLast)
      rw [← hState]
      exact hCall
    · exact hAll first conn' c' hBefore

theorem called (h : before.Sends P env) (conn : ConnId) (c : Call)
    (hCall : P conn c env.driver) : before.Sends P (env.called conn c) :=
  h.snoc hCall rfl rfl

/-- Each of the calls is as `P` says. -/
theorem exists_made (h : before.Sends P after) :
    ∃ made, after.trace = before.trace ++ made ∧
      ∀ call ∈ made, ∃ t, P call.1 call.2 t := by
  obtain ⟨made, hTrace, _, hAll⟩ := h
  refine ⟨made, hTrace, fun call hMem => ?_⟩
  obtain ⟨first, rest, rfl⟩ := List.append_of_mem hMem
  exact ⟨_, hAll first call.1 call.2 ⟨rest, by simp⟩⟩

/-- So is a call that is known to have been made. -/
theorem of_made {conn : ConnId} {calls : List Call} {c : Call}
    (h : before.Sends P after) (hMade : before.Made conn calls after)
    (hMem : c ∈ calls) : ∃ t, P conn c t := by
  obtain ⟨made, hTrace, hAll⟩ := h.exists_made
  have hCalls : made = Call.on conn calls :=
    List.append_cancel_left (hTrace.symm.trans hMade.trace)
  exact hAll (conn, c) (hCalls ▸ List.mem_map_of_mem hMem)

end Env.Sends

/-- Auto-commit is off once it has been switched off, and writes leave it
off. -/
structure Driver.Switches (σ : Type) [Driver σ] : Prop where
  off : ∀ (conn : ConnId) (t : σ),
    (Driver.call conn (.setAutoCommit false) t).1 = .ok () →
      Driver.autoCommit conn (Driver.call conn (.setAutoCommit false) t).2 =
        false
  stays : ∀ (conn : ConnId) (c : Call) (t : σ), c.write? ≠ none →
    Driver.autoCommit conn t = false →
      Driver.autoCommit conn (Driver.call conn c t).2 = false

/-- What is asked of the calls of a session: rows are added and removed when it
is in a transaction and auto-commit is off. -/
def Session.Gate [Driver σ] (inTransaction : Bool) (conn : ConnId) (c : Call)
    (t : σ) : Prop :=
  ∀ statement, c.statement? = some statement →
    statement.addsOrRemoves = true →
      inTransaction = true ∧ Driver.autoCommit conn t = false

namespace Session

variable [Driver σ] {p : Persister} {inTransaction : Bool} {conn : ConnId}
  {start : Env σ}

/-- What `P` says of calls it says of all that neither add nor remove rows. -/
def Lenient (P : ConnId → Call → σ → Prop) : Prop :=
  ∀ conn c t, c.addsOrRemoves = false → P conn c t

/-- Anything else may be called at any time. -/
theorem lenient_gate (inTransaction : Bool) :
    Lenient (Gate (σ := σ) inTransaction) := by
  intro conn c t hOther statement hStatement hAdds
  rw [Call.addsOrRemoves, hStatement, Option.any_some, hAdds] at hOther
  cases hOther

/-! ## The flush -/

/-- The call of an action is for the gate when the action is an update or
auto-commit is off in a transaction. -/
theorem gate_of_call? {schema : Schema} {heap : Heap} {action : Action}
    {c : Call} {t : σ} (hPlan : action.call? schema heap = .ok (some c))
    (hOff : inTransaction = true → Driver.autoCommit conn t = false)
    (hUpdate : inTransaction = false → action.kind = .update) :
    Gate inTransaction conn c t := by
  cases hTransaction : inTransaction with
  | true => exact fun _ _ _ => ⟨rfl, hOff hTransaction⟩
  | false =>
      obtain ⟨d, params, _, rfl⟩ := Action.call_of_call? hPlan
      rw [hUpdate hTransaction, ← hTransaction]
      exact lenient_gate inTransaction conn _ t rfl

/-- Work in the middle of the actions of a flush: what has been sent was let
through, and what is still to be done will be. -/
structure Guarded (inTransaction : Bool) (conn : ConnId) (start : Env σ)
    (rest : List Action) (work : Work σ) : Prop where
  sent : start.Sends (Gate inTransaction) work.env
  off : inTransaction = true → Driver.autoCommit conn work.env.driver = false
  updates : inTransaction = false → ∀ a ∈ rest, a.kind = .update

/-- The call of the next action is let through, and leaves auto-commit off. -/
theorem Guarded.call (hSwitches : Driver.Switches σ) {action : Action}
    {rest : List Action} {work : Work σ} {c : Call} {after : Env σ}
    (h : Guarded inTransaction conn start (action :: rest) work)
    (hPlan : action.call? p.schema work.env.heap = .ok (some c))
    (hAfter : after = { p.calling conn c work.env with heap := after.heap }) :
    start.Sends (Gate inTransaction) after ∧
      (inTransaction = true → Driver.autoCommit conn after.driver = false) := by
  have hUpdate : inTransaction = false → action.kind = .update :=
    fun hOutside => h.updates hOutside action (List.mem_cons_self ..)
  rw [hAfter]
  refine ⟨h.sent.snoc (gate_of_call? hPlan h.off hUpdate) rfl rfl, ?_⟩
  intro hTransaction
  obtain ⟨write, hWrite, _⟩ := Action.write_of_call? hPlan
  refine hSwitches.stays conn c work.env.driver ?_ (h.off hTransaction)
  rw [hWrite]
  exact Option.some_ne_none write

/-- Actions are carried out in a transaction with auto-commit off, or are
updates, up to the end or the first failure. -/
theorem executeAll_guarded (hSwitches : Driver.Switches σ)
    {actions : List Action} {work : Work σ}
    (h : Guarded inTransaction conn start actions work) :
    match (Action.executeAll p conn actions).run work with
    | (.ok _, after) => Guarded inTransaction conn start [] after
    | (.error _, after) => start.Sends (Gate inTransaction) after.env := by
  refine Action.executeAll_induct (I := Guarded inTransaction conn start)
    (J := fun work => start.Sends (Gate inTransaction) work.env) ?_ ?_ h
  · intro action rest work after hGuarded hExecuted
    have hRest : inTransaction = false → ∀ a ∈ rest, a.kind = .update :=
      fun hOutside a hMem =>
        hGuarded.updates hOutside a (List.mem_cons_of_mem _ hMem)
    cases hExecuted with
    | skipped _ _ => exact ⟨hGuarded.sent, hGuarded.off, hRest⟩
    | done hPlan _ _ hKey _ =>
        obtain ⟨hSent, hOff⟩ := hGuarded.call hSwitches hPlan hKey.env_eq.1
        exact ⟨hSent, hOff, hRest⟩
  · intro action rest work after e hGuarded hExecuted
    cases hExecuted with
    | stopped _ => exact hGuarded.sent
    | refused hPlan _ => exact (hGuarded.call hSwitches hPlan rfl).1
    | unsettled _ hPlan _ hEnv _ => exact (hGuarded.call hSwitches hPlan hEnv).1

/-- So what they send is let through, whatever comes of them. -/
theorem executeAll_sends (hSwitches : Driver.Switches σ)
    {actions : List Action} {work : Work σ}
    (h : Guarded inTransaction conn start actions work) :
    start.Sends (Gate inTransaction)
      ((Action.executeAll p conn actions).run work).2.env := by
  have hAll := executeAll_guarded (p := p) hSwitches h
  generalize (Action.executeAll p conn actions).run work = result at hAll ⊢
  obtain ⟨_ | _, after⟩ := result
  · exact hAll
  · exact hAll.sent

/-- The other calls of a flush neither add nor remove rows. -/
theorem performed_sends (hSwitches : Driver.Switches σ) {actions : List Action}
    {work after : Work σ} {r : Except Error Unit}
    (hUpdates : inTransaction = false → ∀ a ∈ actions, a.kind = .update)
    (h : Performed p conn inTransaction actions work r after) :
    work.env.Sends (Gate inTransaction) after.env := by
  have hOpened : work.env.Sends (Gate inTransaction)
      (opened conn inTransaction work).env := by
    cases inTransaction with
    | false => exact .refl ..
    | true => exact (Env.Sends.refl _ _).called _ _ fun _ h => by cases h
  -- What has been sent when the actions are done with.
  have hActions : ∀ {r : Except Error Unit} {last : Work σ},
      (inTransaction = true →
        (Driver.call conn (.setAutoCommit false) work.env.driver).1 = .ok ()) →
      (Action.executeAll p conn actions).run (opened conn inTransaction work) =
        (r, last) →
      work.env.Sends (Gate inTransaction) last.env := by
    intro r last hOff hRun
    have hDone : work.env.Sends (Gate inTransaction)
        ((Action.executeAll p conn actions).run
          (opened conn inTransaction work)).2.env := by
      refine executeAll_sends hSwitches ⟨hOpened, ?_, hUpdates⟩
      intro hTransaction
      subst hTransaction
      exact hSwitches.off conn work.env.driver (hOff rfl)
    rw [hRun] at hDone
    exact hDone
  cases h with
  | unopened _ _ => exact hOpened
  | failed hOff hRun => exact hActions hOff hRun
  | uncommitted hOff hRun _ =>
      exact (hActions hOff hRun).called _ _ fun _ h => by cases h
  | committed hOff hRun _ _ =>
      have hCommit := (hActions hOff hRun).called conn .commit
        fun _ h => by cases h
      exact hCommit.called _ _ fun _ h => by cases h

/-- Outside of a transaction nothing waits, and a closed session is not in
one. -/
structure Gated (s : Session) : Prop where
  waits : s.inTransaction = false → s.queue = {}
  closed : s.isOpen = false → s.inTransaction = false

/-- A flush adds and removes rows in a transaction if nothing waits outside of
one. -/
theorem flushed_sends (hSwitches : Driver.Switches σ) {scope after : Scope σ}
    {r : Except Error Unit} (hGated : Gated scope.session)
    (h : Flushed p scope r after) :
    scope.env.Sends (Gate scope.session.inTransaction) after.env := by
  have hUpdates : ∀ dirty, scope.session.inTransaction = false →
      ∀ a ∈ scope.session.planned dirty, a.kind = .update := by
    intro dirty hOutside a hMem
    rcases mem_planned.1 hMem with hWaits | ⟨d, _, rfl⟩
    · rw [hGated.waits hOutside] at hWaits
      cases hWaits
    · rfl
  cases h with
  | closed _ => exact .refl ..
  | unreadable _ _ => exact .refl ..
  | idle _ _ _ => exact .refl ..
  | unconnected _ _ _ _ _ => exact .refl ..
  | committed _ _ _ _ hRun => exact performed_sends hSwitches (hUpdates _) hRun
  | @rolledBack _ _ conn _ _ _ _ _ _ _ hRun _ =>
      have hSent := performed_sends hSwitches (hUpdates _) hRun
      have hRolledBack := hSent.called conn .rollback fun _ h => by cases h
      exact hRolledBack.called conn _ fun _ h => by cases h
  | @discarded _ _ conn _ _ _ _ _ _ _ _ hRun _ =>
      have hSent := performed_sends hSwitches (hUpdates _) hRun
      have hRolledBack := hSent.called conn .rollback fun _ h => by cases h
      exact hRolledBack.called conn _ fun _ h => by cases h

/-! ## Requests -/

section

variable {P : ConnId → Call → σ → Prop} {scope : Scope σ}

/-- A load makes no calls but queries. -/
theorem keeps_sends (hP : Lenient P) (L : Loader) :
    L.Keeps (fun _ _ => True)
      fun work : Work σ => start.Sends P work.env where
  query := by
    intro work d plan _ hPlan hI
    refine ⟨hI.snoc (hP _ _ _ ?_) rfl rfl, fun _ _ _ _ => trivial⟩
    rcases hPlan with hAll | ⟨column, hBy⟩
    · rw [hAll]
      rfl
    · rw [hBy]
      rfl
  register := fun _ _ _ _ _ hI => hI
  assign := fun _ _ _ _ hI => hI
  inspect := fun _ hI => hI

theorem withLoader_sends (hP : Lenient P) {α : Type} {shared : Bool}
    {load : Loader → Step (Work σ) α} (hLoad : Loader.Leading load)
    (h : start.Sends P scope.env) :
    start.Sends P ((withLoader p shared load).run scope).2.env := by
  have hLoaded := loaded p shared load scope fun _ _ _ =>
    hLoad (keeps_sends hP _) h
  generalize (withLoader p shared load).run scope = result at hLoaded ⊢
  obtain ⟨r, after⟩ := result
  cases hLoaded with
  | unconnected _ _ => exact h
  | failed _ hI => exact hI
  | done _ hI _ _ => exact hI

theorem releaseConnection_sends (hP : Lenient P)
    (h : start.Sends P scope.env) :
    start.Sends P (releaseConnection.run scope).2.env := by
  rcases releaseConnection_cases scope with
    hSame | ⟨c, _, pool, hKept | hClosed⟩
  · rw [hSame]
    exact h
  · rw [hKept]
    exact h
  · rw [hClosed]
    exact h.called c .close (hP _ _ _ rfl)

theorem rollbackConnection_sends (hP : Lenient P)
    (h : start.Sends P scope.env) :
    start.Sends P (rollbackConnection.run scope).2.env := by
  have hBack := rolledBack scope
  generalize (rollbackConnection.run scope).2 = after at hBack ⊢
  cases hBack with
  | none _ => exact h
  | @done c _ _ =>
      exact (h.called c .rollback (hP _ _ _ rfl)).called c _ (hP _ _ _ rfl)
  | @discarded c _ _ _ =>
      exact (h.called c .rollback (hP _ _ _ rfl)).called c _ (hP _ _ _ rfl)

/-- Besides its flush a request neither adds nor removes rows. -/
theorem perform_sends_of_flush (hP : Lenient P) {op : Operation}
    (hFlush : op.flushes = true →
      scope.env.Sends P ((flush p).run scope).2.env) :
    scope.env.Sends P (op.perform p scope).env := by
  let Sent (s : Scope σ) : Prop := scope.env.Sends P s.env
  exact perform_keeps (I := Sent) (.refl ..)
    (fun _ _ => persist_keeps (I := Sent) (.refl ..) (.refl ..))
    (fun _ _ => remove_keeps (I := Sent) (.refl ..) (.refl ..)) hFlush
    (fun _ _ hLoad _ hS => withLoader_sends hP hLoad hS) (fun _ _ _ hS => hS)
    (fun _ _ hS => hS) (fun _ _ hS => releaseConnection_sends hP hS)
    (fun _ _ hS => rollbackConnection_sends hP hS)

/-- So it does after its flush. -/
theorem sends_since_flush (hP : Lenient P) {op : Operation}
    (hOp : Flushing scope op) :
    ((flush p).run scope).2.env.Sends P (op.perform p scope).env :=
  perform_keeps_flushed
    (I := fun s => ((flush p).run scope).2.env.Sends P s.env) hOp (.refl ..)
    (fun _ _ hLoad _ hS => withLoader_sends hP hLoad hS) (fun _ _ _ hS => hS)
    (fun _ _ hS => hS) fun _ _ hS => releaseConnection_sends hP hS

end

/-- Whatever is asked of a session with nothing waiting outside of a
transaction, rows are added and removed only if it is in one, and with
auto-commit off. -/
theorem perform_sends (hSwitches : Driver.Switches σ) {scope : Scope σ}
    (hGated : Gated scope.session) (op : Operation) :
    scope.env.Sends (Gate scope.session.inTransaction)
      (op.perform p scope).env :=
  perform_sends_of_flush (lenient_gate _) fun _ =>
    flushed_sends hSwitches hGated (flushed p scope)

/-! ## The queue and the transaction -/

/-- A commit whose flush stops at an entity that cannot be looked at while
something waits. -/
def Strands (p : Persister) (scope : Scope σ) (op : Operation) : Prop :=
  op = .commit ∧ scope.session.inTransaction = true ∧
    scope.session.queue ≠ {} ∧
      ∃ e, scope.session.context.diff p.schema scope.heap = .error e

omit [Driver σ] in
theorem Gated.of_eq {s after : Session} (h : Gated s)
    (hQueue : after.queue = s.queue)
    (hTransaction : after.inTransaction = s.inTransaction)
    (hOpen : after.isOpen = s.isOpen) : Gated after := by
  constructor
  · rw [hQueue, hTransaction]
    exact h.waits
  · rw [hTransaction, hOpen]
    exact h.closed

omit [Driver σ] in
theorem Gated.of_empty {s : Session} (hQueue : s.queue = {})
    (hClosed : s.isOpen = false → s.inTransaction = false) : Gated s :=
  ⟨fun _ => hQueue, hClosed⟩

/-- A flush empties the queue or leaves the session as it is. -/
theorem Gated.flush {scope after : Scope σ} {r : Except Error Unit}
    (h : Gated scope.session) (hFlushed : Flushed p scope r after) :
    Gated after.session := by
  cases hFlushed with
  | closed _ => exact h
  | unreadable _ _ => exact h
  | idle _ _ _ => exact h
  | unconnected _ _ _ _ _ => exact .of_empty rfl h.closed
  | committed _ _ _ _ _ => exact .of_empty rfl h.closed
  | rolledBack _ _ _ _ _ _ => exact .of_empty rfl h.closed
  | discarded _ _ _ _ _ _ => exact .of_empty rfl h.closed

/-- A flush that leaves something in the queue has not begun. -/
theorem waits_of_flushed {scope after : Scope σ} {r : Except Error Unit}
    (h : Flushed p scope r after) : after.session.queue = {} ∨
      after = scope ∧ (scope.session.isOpen = false ∨
        ∃ e, scope.session.context.diff p.schema scope.heap = .error e) := by
  cases h with
  | closed hClosed => exact Or.inr ⟨rfl, Or.inl hClosed⟩
  | unreadable _ hDiff => exact Or.inr ⟨rfl, Or.inr ⟨_, hDiff⟩⟩
  | idle _ _ hQueue => exact Or.inl hQueue
  | unconnected _ _ _ _ _ => exact Or.inl rfl
  | committed _ _ _ _ _ => exact Or.inl rfl
  | rolledBack _ _ _ _ _ _ => exact Or.inl rfl
  | discarded _ _ _ _ _ _ => exact Or.inl rfl

/-- A commit empties the queue unless it strands something. -/
theorem Gated.commit {scope : Scope σ} (h : Gated scope.session)
    (hKept : ¬ Strands p scope .commit) :
    Gated ((Session.commit p).run scope).2.session := by
  rw [commit_run]
  by_cases hTransaction : scope.session.inTransaction = true
  · rw [if_pos hTransaction]
    refine .of_empty ?_ fun _ => rfl
    show ((Session.flush p).run scope).2.session.queue = {}
    rcases waits_of_flushed (flushed p scope) with
      hEmpty | ⟨hSame, hClosed | hUnreadable⟩
    · exact hEmpty
    · rw [h.closed hClosed] at hTransaction
      cases hTransaction
    · rw [hSame]
      by_contra hWaits
      exact hKept ⟨rfl, hTransaction, hWaits, hUnreadable⟩
  · rw [if_neg hTransaction]
    exact h

omit [Driver σ] in
theorem Gated.begin {scope : Scope σ} (h : Gated scope.session) :
    Gated (Session.begin.run scope).2.session := by
  rw [begin_run]
  by_cases hOpen : scope.session.isOpen = true
  · rw [if_pos hOpen]
    constructor
    · intro hOutside
      cases hOutside
    · intro hClosed
      cases hOpen.symm.trans hClosed
  · rw [if_neg hOpen]
    exact h

theorem RolledBack.gated {scope after : Scope σ} (hBack : RolledBack scope after)
    (hQueue : scope.session.queue = {})
    (hTransaction : scope.session.inTransaction = false) :
    Gated after.session := by
  cases hBack with
  | none _ => exact .of_empty hQueue fun _ => hTransaction
  | done _ _ => exact .of_empty hQueue fun _ => hTransaction
  | discarded _ _ => exact .of_empty hQueue fun _ => hTransaction

theorem Gated.rollback {scope : Scope σ} (h : Gated scope.session) :
    Gated (Session.rollback.run scope).2.session := by
  rw [rollback_run]
  by_cases hTransaction : scope.session.inTransaction = true
  · rw [if_pos hTransaction]
    exact (rolledBack _).gated rfl rfl
  · rw [if_neg hTransaction]
    exact h

theorem Gated.close {scope : Scope σ} (h : Gated scope.session) :
    Gated ((Session.close p).run scope).2.session := by
  refine close_keeps (I := fun s => Gated s.session)
    (h.flush (flushed p scope)) fun flushed _ => ?_
  rcases releaseConnection_cases { flushed with
      session := { flushed.session with
        context := {}, queue := {}
        isOpen := false, inTransaction := false } } with
    hSame | ⟨_, _, _, hKept | hClosed⟩
  · rw [hSame]
    exact .of_empty rfl fun _ => rfl
  · rw [hKept]
    exact .of_empty rfl fun _ => rfl
  · rw [hClosed]
    exact .of_empty rfl fun _ => rfl

/-- Every request but a commit that strands something leaves a session with
nothing waiting outside of a transaction. -/
theorem Gated.perform {scope : Scope σ} {op : Operation}
    (h : Gated scope.session) (hKept : ¬ Strands p scope op) :
    Gated (op.perform p scope).session := by
  have hFlush := h.flush (flushed p scope)
  have hLoad : ∀ {α : Type} {s : Scope σ} (shared : Bool)
      (load : Loader → Step (Work σ) α), Gated s.session →
      Gated ((withLoader p shared load).run s).2.session := by
    intro α s shared load hS
    have hSteady := steady_withLoader p shared load s
    exact hS.of_eq hSteady.queue hSteady.inTransaction hSteady.isOpen
  -- What is queued is queued in a transaction.
  have hQueued : ∀ {Checked : Prop} {action : Action} {r : Except Error Unit}
      {after : Scope σ}, Queued Checked action scope r after →
        Gated after.session := by
    intro Checked action r after hQueued
    cases hQueued with
    | refused _ => exact h
    | accepted hOpen hTransaction _ =>
        refine ⟨fun hOutside => ?_, h.closed⟩
        cases hTransaction.symm.trans hOutside
  cases op with
  | persist ref => exact hQueued (persist_queued p ref scope)
  | remove ref => exact hQueued (remove_queued p ref scope)
  | flush => exact hFlush
  | find type id =>
      exact find_keeps (I := fun s => Gated s.session) hFlush
        fun _ => hLoad true _ hFlush
  | findAll type =>
      exact findAll_keeps (I := fun s => Gated s.session) hFlush
        fun _ => hLoad false _ hFlush
  | loadMembers source =>
      exact loadMembers_keeps (I := fun s => Gated s.session) h
        (hLoad true _ h)
  | begin => exact h.begin
  | commit => exact h.commit hKept
  | rollback => exact h.rollback
  | clear =>
      show Gated (clear.run scope).2.session
      rw [clear_run]
      split
      · exact .of_empty rfl h.closed
      · exact h
  | close => exact h.close

/-! ## What is stranded -/

/-- After a commit that strands something the transaction is closed and the
same waits. -/
theorem Strands.session {scope : Scope σ} {op : Operation}
    (hOpen : scope.session.isOpen = true) (h : Strands p scope op) :
    (op.perform p scope).session =
      { scope.session with inTransaction := false } := by
  obtain ⟨rfl, hTransaction, _, e, hDiff⟩ := h
  have hFlush : ((flush p).run scope).2 = scope := by
    have hFlushed := flushed p scope
    generalize (flush p).run scope = result at hFlushed ⊢
    obtain ⟨r, after⟩ := result
    cases hFlushed with
    | closed _ => rfl
    | unreadable _ _ => rfl
    | idle _ _ _ => rfl
    | unconnected _ hOk _ _ _ => cases hDiff.symm.trans hOk
    | committed _ hOk _ _ _ => cases hDiff.symm.trans hOk
    | rolledBack _ hOk _ _ _ _ => cases hDiff.symm.trans hOk
    | discarded _ hOk _ _ _ _ => cases hDiff.symm.trans hOk
  show ((commit p).run scope).2.session = _
  rw [commit_run, if_pos hTransaction, hFlush]

/-- What waits has its call in a flush that succeeds. -/
theorem call_of_waits {scope after : Scope σ} (hRegular : scope.session.Regular)
    (h : Flushed p scope (.ok ()) after) {action : Action}
    (hWaits : action ∈ scope.session.queue.pending) :
    ∃ conn calls d params, scope.env.Made conn calls after.env ∧
      action.kind.call d params ∈ calls := by
  obtain ⟨dirty, conn, _, _, _, hMoved⟩ :=
    moved_of_flushed hRegular h (Or.inl (Queue.ne_empty_of_mem hWaits))
  have hKind : action.kind ≠ .update := by
    obtain ⟨kind, ref⟩ := action
    rintro rfl
    exact hRegular.updates ref hWaits
  have hSends : action.sends p.schema scope.heap = true := by
    obtain ⟨kind, ref⟩ := action
    cases kind with
    | insert => rfl
    | update => exact absurd rfl hKind
    | delete => rfl
  have hOrdered : action ∈ scope.session.ordered dirty := by
    rw [← planned_eq_ordered hRegular]
    exact mem_planned.2 (Or.inl hWaits)
  obtain ⟨calls, c, hMade, hMem, ⟨d, params, _, rfl⟩, _⟩ :=
    hMoved.call_of_mem (write_mem_flushMoves hOrdered hSends)
  exact ⟨conn, calls, d, params, hMade, hMem⟩

/-- What waits outside of a transaction is sent outside of one. -/
theorem not_sends_of_waits {scope after : Scope σ}
    (hRegular : scope.session.Regular)
    (hOutside : scope.session.inTransaction = false)
    (hWaits : scope.session.queue ≠ {}) (h : Flushed p scope (.ok ()) after) :
    ¬ scope.env.Sends (Gate scope.session.inTransaction) after.env := by
  intro hSends
  obtain ⟨action, hMem⟩ : ∃ action, action ∈ scope.session.queue.pending := by
    refine List.exists_mem_of_ne_nil _ fun hNil => hWaits ?_
    exact congrArg Queue.mk hNil
  obtain ⟨conn, calls, d, params, hMade, hCall⟩ := call_of_waits hRegular h hMem
  obtain ⟨t, hGate⟩ := hSends.of_made hMade hCall
  have hIn : scope.session.inTransaction = true := by
    obtain ⟨kind, ref⟩ := action
    cases kind with
    | insert => exact (hGate _ rfl rfl).1
    | update => exact absurd hMem (hRegular.updates ref)
    | delete => exact (hGate _ rfl rfl).1
  cases hOutside.symm.trans hIn

/-! ## Runs -/

/-- On every run of a session in which no commit has stranded anything,
nothing waits outside of a transaction, and whatever is asked next, rows are
added and removed only in the transaction and with auto-commit off. From there
the request leaves nothing waiting outside of a transaction exactly if it is
not a commit that strands something; what is stranded is sent outside of a
transaction by the next flush that succeeds. -/
theorem writes_in_transaction (hSwitches : Driver.Switches σ)
    {Outside : Scope σ → Backend σ → Prop} {start scope : Scope σ}
    (hContext : start.session.context = {}) (hQueue : start.session.queue = {})
    (hOpen : start.session.isOpen = true)
    (hReaches : Reaches p (fun scope op => ¬ Strands p scope op) Outside start
      scope) :
    (scope.session.inTransaction = false → scope.session.queue = {}) ∧
    ∀ op, scope.env.Sends (Gate scope.session.inTransaction)
        (op.perform p scope).env ∧
      (((op.perform p scope).session.inTransaction = false →
        (op.perform p scope).session.queue = {}) ↔ ¬ Strands p scope op) ∧
      (Strands p scope op → ∀ backend,
        let left : Scope σ := ⟨backend, (op.perform p scope).session⟩
        ((flush p).run left).1 = .ok () →
          ¬ left.env.Sends (Gate left.session.inTransaction)
            ((flush p).run left).2.env) := by
  have hGated : Gated scope.session := by
    refine hReaches.invariant (I := fun scope => Gated scope.session)
      (fun _ _ hGated hKept => hGated.perform hKept)
      (fun _ _ hGated _ => hGated) (.of_empty hQueue fun hClosed => ?_)
    cases hOpen.symm.trans hClosed
  have hRegular : scope.session.Regular :=
    regular_of_reaches hReaches (regular_of_empty hContext hQueue)
  -- A session in a transaction is open.
  have hStranded : ∀ {op}, Strands p scope op → (op.perform p scope).session =
      { scope.session with inTransaction := false } := by
    intro op hStrands
    refine hStrands.session ?_
    by_contra hClosed
    have hOutside := hGated.closed (Bool.eq_false_iff.2 hClosed)
    cases hOutside.symm.trans hStrands.2.1
  refine ⟨hGated.waits, fun op => ⟨perform_sends hSwitches hGated op, ?_, ?_⟩⟩
  · constructor
    · intro hEmpty hStrands
      rw [hStranded hStrands] at hEmpty
      exact hStrands.2.2.1 (hEmpty rfl)
    · exact fun hKept => (hGated.perform hKept).waits
  · intro hStrands backend left hOk
    have hFlushed := flushed p left
    rw [hOk] at hFlushed
    have hSession : left.session =
        { scope.session with inTransaction := false } := hStranded hStrands
    refine not_sends_of_waits ?_ ?_ ?_ hFlushed
    · rw [hSession]
      exact hRegular.of_eq rfl rfl
    · rw [hSession]
    · rw [hSession]
      exact hStrands.2.2.1

end Session

/-! ## Stores -/

/-- A statement leaves auto-commit as it is. -/
theorem Transactional.autoCommit_execute {γ ε α : Type}
    (statement : γ → Except ε (α × γ)) (t : Transactional γ) :
    (t.execute statement).2.autoCommit = t.autoCommit := by
  simp only [execute]
  split <;> exact autoCommit_begin t

namespace Store

/-- A call fails, or is made under the effect of a fault that lets it
happen. -/
theorem call_cases (store : Store) (conn : ConnId) (c : Call) :
    (∃ e, (Store.call conn c).run store = (.error e,
      ((performStopped conn c).run { store with
        faults := (Fault.next c.text store.faults).2 }).2)) ∨
    ∃ effect, (Store.call conn c).run store = (perform conn effect c).run
      { store with faults := (Fault.next c.text store.faults).2 } := by
  rw [Store.call, Step.bind_run, Step.get_run]
  simp only
  rw [Step.bind_run, Step.modify_run]
  simp only
  split
  · rename_i message _
    refine Or.inl ⟨stopped message c, ?_⟩
    rw [Step.bind_run]
    cases c <;> rfl
  · exact Or.inr ⟨_, rfl⟩

/-- Auto-commit is switched as it should be in every store. -/
theorem switches : Driver.Switches Store where
  off := by
    intro conn store hOk
    replace hOk : ((Store.call conn (.setAutoCommit false)).run store).1 =
      .ok () := hOk
    show (((Store.call conn (.setAutoCommit false)).run store).2.view
      conn).autoCommit = false
    rcases call_cases store conn (.setAutoCommit false) with
      ⟨e, hStopped⟩ | ⟨effect, hPerformed⟩
    · rw [hStopped] at hOk
      cases hOk
    · rw [hPerformed, perform, view_onLine]
      rfl
  stays := by
    intro conn c store hWrite hOff
    replace hOff : (store.view conn).autoCommit = false := hOff
    show (((Store.call conn c).run store).2.view conn).autoCommit = false
    -- The fault that acts on a call is no part of what the connection sees.
    have hExecute : ∀ statement params, ((execute { store with
        faults := (Fault.next c.text store.faults).2 } conn statement
          params).2.view conn).autoCommit = false := by
      intro statement params
      rw [(view_execute conn _ statement params).2,
        Transactional.autoCommit_execute]
      exact hOff
    have hStopped : ((performStopped conn c).run { store with
        faults := (Fault.next c.text store.faults).2 }).2.view conn =
          (store.view conn).begin := by
      cases c with
      | execute statement params => exact view_onLine ..
      | insert statement params => exact view_onLine ..
      | _ => exact absurd rfl hWrite
    rcases call_cases store conn c with ⟨e, hFails⟩ | ⟨effect, hPerformed⟩
    · rw [hFails, hStopped, Transactional.autoCommit_begin]
      exact hOff
    · rw [hPerformed]
      cases c with
      | execute statement params =>
          simp only [perform, Step.run, snd_report, snd_executeWrite]
          exact hExecute statement params
      | insert statement params =>
          simp only [perform, Step.run, snd_report, snd_executeWrite]
          exact hExecute statement params
      | _ => exact absurd rfl hWrite

end Store

namespace Notes

/-- A session in a transaction that looks after a note and is to insert
another. -/
def adding : Scope Store :=
  (Operation.persist 0).perform persister
    ((Operation.find "Note" (.int 1)).perform persister
      (Operation.begin.perform persister
        (scope [[.int 1, .text "a"]] [note 2 "b"] { id := 0 })))

/-- The backend with the note that is looked after on such a loan. -/
def lending (hold : Hold) (backend : Backend Store) : Backend Store :=
  { backend with env := backend.env.update 1 fun e => { e with hold := hold } }

/-- The note that is looked after is on loan for change. -/
def lent : Scope Store :=
  { adding with backend := lending .exclusive adding.backend }

/-- The note is given back after a commit. -/
def returned : Scope Store :=
  let committed := Operation.commit.perform persister lent
  { committed with backend := lending .free committed.backend }

theorem reaches_adding :
    Session.Reaches persister
      (fun scope op => ¬ Session.Strands persister scope op)
      (fun _ _ => True)
      (scope [[.int 1, .text "a"]] [note 2 "b"] { id := 0 }) adding :=
  ((Session.Reaches.start.operation .begin fun h => by cases h.1).operation
    (.find "Note" (.int 1)) fun h => by cases h.1).operation (.persist 0)
      fun h => by cases h.1

/-- A commit cannot look at the note that is on loan. -/
theorem strands_lent : Session.Strands persister lent .commit := by
  refine ⟨rfl, by decide +kernel, by decide +kernel, ?_⟩
  have hFails : (lent.session.context.diff schema lent.heap).isOk = false := by
    decide +kernel
  show ∃ e, lent.session.context.diff schema lent.heap = .error e
  cases hDiff : lent.session.context.diff schema lent.heap with
  | error e => exact ⟨e, rfl⟩
  | ok found =>
      rw [hDiff] at hFails
      cases hFails

end Notes

/-- A note is inserted in the transaction by its commit. If the commit cannot
look at another note, which is on loan, the new one is inserted by the next
flush, outside of the transaction. -/
theorem Session.writes_in_transaction_of_notes :
    Notes.adding.env.Sends (Gate true)
      (Operation.commit.perform Notes.persister Notes.adding).env ∧
    Notes.returned.session.inTransaction = false ∧
    Notes.returned.session.queue ≠ {} ∧
    ¬ Notes.returned.env.Sends (Gate false)
      ((flush Notes.persister).run Notes.returned).2.env := by
  have hIn : Notes.adding.session.inTransaction = true := by decide +kernel
  have hOut : Notes.returned.session.inTransaction = false := by decide +kernel
  have hOk : ((flush Notes.persister).run Notes.returned).1 = .ok () :=
    except_eq_ok_of_isOk (by decide +kernel)
  have hLent : Reaches Notes.persister
      (fun scope op => ¬ Strands Notes.persister scope op) (fun _ _ => True)
      (Notes.scope [[.int 1, .text "a"]] [Notes.note 2 "b"] { id := 0 })
      Notes.lent :=
    Notes.reaches_adding.outside _ trivial
  have hCommitted := ((writes_in_transaction Store.switches rfl rfl rfl
    Notes.reaches_adding).2 .commit).1
  have hStranded := ((writes_in_transaction Store.switches rfl rfl rfl
    hLent).2 .commit).2.2 Notes.strands_lent Notes.returned.backend hOk
  rw [hIn] at hCommitted
  refine ⟨hCommitted, hOut, by decide +kernel, ?_⟩
  rw [← hOut]
  exact hStranded

end UnitOfWork

import UnitOfWork.Proofs.Calls
import UnitOfWork.Proofs.Stores
import UnitOfWork.Proofs.Tables

/-!
# Drivers over tables

A driver with transactions whose contents are tables that keep values as they
are. What it tells of a statement is what the statement gave; what is done on
one connection does not open a transaction on another one; and as long as no
connection is in a transaction, all of them see the same tables. A store is
such a driver.

While auto-commit is on and no transaction is open, only writes change what a
connection sees.

## Main results

* `Tabular.view_idle`, `Tabular.view_refused`: calls that change nothing;
* `Tabular.content_of_write`: what a write changes;
* `Store.tabular`: a store is a driver over tables.
-/

namespace UnitOfWork

variable {σ : Type}

/-- What a driver may tell of a statement that it has carried out on some
tables: a query gives what the statement finds, and an insert the key of the
row. -/
def Tables.Tells (tables : Tables) : (c : Call) → c.Answer → Prop
  | .query statement params, found => statement.isQuery = true →
    ∃ outcome after, tables.run .exact statement params =
      .ok (outcome, after) ∧ found = outcome.result
  | .insert statement params, receipt => statement.isQuery = false →
    ∀ outcome after, tables.run .exact statement params =
      .ok (outcome, after) → receipt.2 = outcome.key
  | _, _ => True

/-- A driver with transactions over tables that keep values as they are. -/
structure Tabular (σ : Type) [Driver σ] extends Transactions σ Tables where
  exact : run = Tables.run .exact
  tells : ∀ {t : σ} (conn : ConnId) (c : Call) (answer : c.Answer), Valid t →
    (Driver.call conn c t).1 = .ok answer →
      (view conn t).content.Tells c answer
  /-- A call leaves other connections out of transactions. -/
  others : ∀ {t : σ} {conn other : ConnId} (c : Call), Valid t →
    other ≠ conn → toTransactions.Clean other t →
      toTransactions.Clean other (Driver.call conn c t).2
  /-- Without transactions all connections see the same. -/
  agree : ∀ {t : σ}, Valid t → (∀ conn, toTransactions.Clean conn t) →
    ∀ conn other, (view conn t).content = (view other t).content
  /-- A connection that has been closed starts afresh. -/
  fresh : ∀ {t : σ} (conn : ConnId), Valid t →
    (view conn (Driver.call conn .close t).2).autoCommit = true

/-! ## Calls that change nothing -/

/-- Calls that change nothing outside of transactions. -/
def Call.Idle : Call → Prop
  | .query statement _ => statement.isQuery = true
  | .setAutoCommit on => on = true
  | .commit | .rollback | .close => True
  | _ => False

namespace Tabular

variable [Driver σ] {T : Tabular σ} {t : σ} {conn : ConnId}

/-- A connection that is closed is not in a transaction. -/
theorem view_close (conn : ConnId) (hValid : T.Valid t) :
    T.Clean conn (Driver.call conn .close t).2 ∧
      (T.view conn (Driver.call conn .close t).2).content =
        T.committed conn t := by
  obtain ⟨hClosed, hContent⟩ := T.answers conn .close hValid
  exact ⟨⟨T.fresh conn hValid, hClosed⟩, hContent⟩

/-- Only statements change what a connection without a transaction sees. -/
theorem view_idle (hValid : T.Valid t) (hClean : T.Clean conn t) {c : Call}
    (hIdle : c.Idle) :
    T.view conn (Driver.call conn c t).2 = T.view conn t := by
  obtain ⟨hOn, hNone⟩ := hClean
  have hContent := Transactional.committed_of_not_inTransaction hNone
  by_cases hClose : c = .close
  · subst hClose
    obtain ⟨hAfter, hSame⟩ := view_close conn hValid
    exact Transactional.eq_of_clean (hSame.trans hContent) hOn hNone
      hAfter.1 hAfter.2
  have hConnect : c ≠ .connect := by
    rintro rfl
    exact hIdle
  have hAnswers := T.answers conn c hValid
  cases hCall : (Driver.call conn c t).1 with
  | error e =>
      rw [hCall] at hAnswers
      exact (hAnswers.retains hConnect hClose).eq hOn hNone
  | ok answer =>
      cases c with
      | query statement params =>
          exact (hAnswers.retains_query hIdle).eq hOn hNone
      | setAutoCommit on =>
          cases hIdle
          rw [T.view_setAutoCommit hValid hCall]
          exact Transactional.eq_of_clean rfl hOn hNone rfl rfl
      | commit =>
          rw [T.view_commit hValid hCall]
          exact Transactional.eq_of_clean rfl hOn hNone hOn rfl
      | rollback =>
          rw [T.view_rollback hValid hCall]
          exact Transactional.Retains.eq (Or.inr (Or.inr rfl)) hOn hNone
      | close => exact absurd rfl hClose
      | _ => cases hIdle

/-- Statements change nothing when they fail. -/
theorem view_refused (hValid : T.Valid t) (hClean : T.Clean conn t) {c : Call}
    {write : Statement × List Value} (hWrite : c.write? = some write)
    {e : Error} (hCall : (Driver.call conn c t).1 = .error e) :
    T.view conn (Driver.call conn c t).2 = T.view conn t := by
  have hAnswers := T.answers conn c hValid
  rw [hCall] at hAnswers
  have hClose : c ≠ .close := by
    rintro rfl
    cases hWrite
  exact (hAnswers.retains (Call.ne_connect_of_write? hWrite) hClose).eq
    hClean.1 hClean.2

/-! ## Writes -/

/-- A write that is carried out changes what its connection sees as its
statement says; it starts no transaction unless auto-commit is off. -/
theorem content_of_write (hValid : T.Valid t) {c : Call} {answer : c.Answer}
    {write : Statement × List Value} (hWrite : c.write? = some write)
    (hQuery : write.1.isQuery = false)
    (hCall : (Driver.call conn c t).1 = .ok answer) :
    (∃ outcome, Tables.run .exact write.1 write.2 (T.view conn t).content =
      .ok (outcome, (T.view conn (Driver.call conn c t).2).content)) ∧
    (T.Clean conn t → T.Clean conn (Driver.call conn c t).2) := by
  have hAnswers := T.answers conn c hValid
  rw [hCall] at hAnswers
  obtain ⟨outcome, hRun⟩ :=
    Transactional.execute_of_answers hAnswers hWrite hQuery
  obtain ⟨hContent, hAfter⟩ := Transactional.execute_eq_ok hRun
  rw [T.exact] at hContent
  refine ⟨⟨outcome, hContent⟩, fun ⟨hOn, hSaved⟩ => ?_⟩
  have hBegin : (T.view conn t).begin = T.view conn t := by
    rw [Transactional.begin, hOn]
    rfl
  rw [hBegin] at hAfter
  rw [Transactions.Clean, hAfter]
  exact ⟨hOn, hSaved⟩

/-! ## Without transactions -/

/-- No connection is in a transaction. -/
structure Quiet (T : Tabular σ) (t : σ) : Prop where
  valid : T.Valid t
  clean : ∀ conn, T.Clean conn t

/-- The contents of a connection without a transaction are committed. -/
theorem committed_of_clean (h : T.Clean conn t) :
    T.committed conn t = (T.view conn t).content :=
  Transactional.committed_of_not_inTransaction h.2

theorem Quiet.committed_eq (h : T.Quiet t) (conn other : ConnId) :
    T.committed conn t = T.committed other t := by
  rw [committed_of_clean (h.clean conn), committed_of_clean (h.clean other)]
  exact T.agree h.valid h.clean conn other

theorem valid_after {calls : List Call} (hValid : T.Valid t) :
    T.Valid (Driver.after conn calls t) := by
  induction calls generalizing t with
  | nil => exact hValid
  | cons c rest ih => exact ih (T.valid_call conn c hValid)

/-- Calls on one connection open no transaction on another one. -/
theorem clean_after {other : ConnId} (hNe : other ≠ conn) {calls : List Call}
    (hValid : T.Valid t) (hClean : T.Clean other t) :
    T.Clean other (Driver.after conn calls t) := by
  induction calls generalizing t with
  | nil => exact hClean
  | cons c rest ih =>
      exact ih (T.valid_call conn c hValid) (T.others c hValid hNe hClean)

/-- After calls on one connection only that one can be in a transaction. -/
theorem Quiet.after (h : T.Quiet t) {calls : List Call}
    (hClean : T.Clean conn (Driver.after conn calls t)) :
    T.Quiet (Driver.after conn calls t) := by
  refine ⟨valid_after h.valid, ?_⟩
  intro other
  by_cases hEq : other = conn
  · rw [hEq]
    exact hClean
  · exact clean_after hEq h.valid (h.clean other)

/-- An idle call leaves all connections as they are. -/
theorem Quiet.idle (h : T.Quiet t) (conn : ConnId) {c : Call}
    (hIdle : c.Idle) :
    T.Quiet (Driver.call conn c t).2 ∧
      T.committed conn (Driver.call conn c t).2 = T.committed conn t := by
  have hView := view_idle h.valid (h.clean conn) hIdle
  have hClean : T.Clean conn (Driver.after conn [c] t) := by
    show T.Clean conn (Driver.call conn c t).2
    rw [Transactions.Clean, hView]
    exact h.clean conn
  refine ⟨h.after hClean, ?_⟩
  rw [Transactions.committed, hView]
  rfl

/-! ## The ends of a transaction -/

/-- When auto-commit has been switched, what the connection sees is the same,
and if it is on, no transaction is open. -/
theorem view_switched {on : Bool} (hValid : T.Valid t)
    (hCall : (Driver.call conn (.setAutoCommit on) t).1 = .ok ()) :
    (T.view conn (Driver.call conn (.setAutoCommit on) t).2).content =
        (T.view conn t).content ∧
      (on = true → T.Clean conn (Driver.call conn (.setAutoCommit on) t).2) := by
  rw [Transactions.Clean, T.view_setAutoCommit hValid hCall]
  cases on with
  | false => exact ⟨rfl, fun h => by cases h⟩
  | true => exact ⟨rfl, fun _ => ⟨rfl, rfl⟩⟩

/-- A commit leaves what its connection sees. -/
theorem content_commit (hValid : T.Valid t)
    (hCall : (Driver.call conn .commit t).1 = .ok ()) :
    (T.view conn (Driver.call conn .commit t).2).content =
      (T.view conn t).content := by
  rw [T.view_commit hValid hCall]
  rfl

end Tabular

/-! ## Stores -/

namespace Store

variable {conn other : ConnId}

theorem line_setLine_ne (hNe : other ≠ conn) (store : Store) (line : Line) :
    (store.setLine conn line).line other = store.line other := by
  rw [Store.line, setLine, Assoc.lookup_insert_ne hNe]
  rfl

theorem line_onLine_ne (hNe : other ≠ conn) (store : Store)
    (f : Transactional Tables → Transactional Tables) :
    ((onLine conn f).run store).2.line other = store.line other :=
  line_setLine_ne hNe store _

theorem line_hangUp_ne (hNe : other ≠ conn) (store : Store) :
    ((hangUp conn).run store).2.line other = store.line other := by
  rw [hangUp, Step.bind_run, onLine, Step.modify_run]
  simp only [Step.modify_run]
  rw [Store.line, Assoc.lookup_erase_ne hNe]
  exact line_setLine_ne hNe store _

theorem line_execute_ne (hNe : other ≠ conn) (store : Store)
    (statement : Statement) (params : List Value) :
    (store.execute conn statement params).2.line other = store.line other :=
  (line_setLine_ne hNe ..).trans (line_setLine_ne hNe store _)

/-- Calls leave other connections alone. -/
theorem line_call_ne (hNe : other ≠ conn) (store : Store) (c : Call) :
    ((Store.call conn c).run store).2.line other = store.line other := by
  have hStopped : ∀ store : Store,
      ((performStopped conn c).run store).2.line other = store.line other := by
    intro store
    cases c with
    | query statement params => exact line_onLine_ne hNe store _
    | execute statement params => exact line_onLine_ne hNe store _
    | insert statement params => exact line_onLine_ne hNe store _
    | close => exact line_hangUp_ne hNe store
    | _ => rfl
  have hPerformed : ∀ (effect : Option FaultEffect) (store : Store),
      ((perform conn effect c).run store).2.line other = store.line other := by
    intro effect store
    cases c with
    | connect => exact line_setLine_ne hNe store _
    | query statement params =>
        simp only [perform, Step.run, snd_report]
        exact line_execute_ne hNe store statement params
    | execute statement params =>
        simp only [perform, Step.run, snd_report, snd_executeWrite]
        exact line_execute_ne hNe store statement params
    | insert statement params =>
        simp only [perform, Step.run, snd_report, snd_executeWrite]
        exact line_execute_ne hNe store statement params
    | close => exact line_hangUp_ne hNe store
    | _ => exact line_onLine_ne hNe store _
  rw [Store.call, Step.bind_run, Step.get_run]
  simp only
  rw [Step.bind_run, Step.modify_run]
  simp only
  split
  · rw [Step.bind_run]
    generalize hRun : (performStopped conn c).run { store with
      faults := (Fault.next c.text store.faults).2 } = result
    have hLine := hStopped { store with
      faults := (Fault.next c.text store.faults).2 }
    rw [hRun] at hLine
    obtain ⟨_ | _, after⟩ := result <;> exact hLine
  · exact hPerformed _ _

theorem report_eq_ok {α : Type} {statement : Statement}
    {f : Store → Outcome → α} {r : Except StoreFault Outcome × Store} {a : α}
    (h : (report statement f r).1 = .ok a) :
    ∃ outcome, r.1 = .ok outcome ∧ a = f r.2 outcome := by
  unfold report at h
  split at h
  · rename_i outcome hOutcome
    exact ⟨outcome, hOutcome, (Except.ok.inj h).symm⟩
  · cases h

/-- A statement that is run gives what it gives on the tables. -/
theorem run_of_execute {dialect : Dialect} {store : Store}
    (hDialect : store.dialect = dialect) {statement : Statement}
    {params : List Value} {outcome : Outcome}
    (h : (store.execute conn statement params).1 = .ok outcome) :
    ∃ after, Tables.run dialect statement params store.tables =
      .ok (outcome, after) := by
  rw [(view_execute conn store statement params).1, hDialect] at h
  obtain ⟨hRun, _⟩ := Transactional.execute_eq_ok (Prod.ext h rfl)
  exact ⟨_, hRun⟩

/-- So does a write. -/
theorem run_of_executeWrite {dialect : Dialect} {store : Store}
    (hDialect : store.dialect = dialect) {statement : Statement}
    (hQuery : statement.isQuery = false) {params : List Value}
    {outcome : Outcome}
    (h : (store.executeWrite conn statement params).1 = .ok outcome) :
    ∃ after, Tables.run dialect statement params store.tables =
      .ok (outcome, after) := by
  have hExecute : (store.execute conn statement params).1 = .ok outcome := by
    simp only [executeWrite, hQuery, Bool.not_false, if_true] at h
    cases hRun : (store.execute conn statement params).1 with
    | error fault =>
        rw [hRun] at h
        exact hRun.symm.trans h
    | ok found =>
        rw [hRun] at h
        exact hRun.symm.trans h
  exact run_of_execute hDialect hExecute

/-- A call that is carried out tells what its statement gives. -/
theorem tells_perform {store : Store} {c : Call} {answer : c.Answer}
    (h : store.Plain .exact)
    (hRun : ((perform conn none c).run store).1 = .ok answer) :
    store.tables.Tells c answer := by
  cases c with
  | query statement params =>
      intro _
      simp only [perform, Step.run] at hRun
      obtain ⟨outcome, hOutcome, hAnswer⟩ := report_eq_ok hRun
      obtain ⟨after, hAfter⟩ := run_of_execute h.dialect hOutcome
      exact ⟨outcome, after, hAfter, hAnswer⟩
  | insert statement params =>
      intro hQuery outcome after hInsert
      simp only [perform, Step.run] at hRun
      obtain ⟨written, hWritten, rfl⟩ := report_eq_ok hRun
      obtain ⟨last, hLast⟩ := run_of_executeWrite h.dialect hQuery hWritten
      cases hInsert.symm.trans hLast
      have hEngine : (store.executeWrite conn statement params).2.hasEngine =
          false := by
        rw [snd_executeWrite]
        exact h.noEngine
      simp only [reportKey, reportedKey, hEngine, Bool.false_eq_true, if_false]
  | _ => trivial

theorem tells_call {store : Store} {c : Call} {answer : c.Answer}
    (h : store.Plain .exact)
    (hCall : ((Store.call conn c).run store).1 = .ok answer) :
    store.tables.Tells c answer := by
  rcases h.call_cases c with ⟨message, hNext, _⟩ | hNext
  · rw [call_of_failure conn hNext] at hCall
    cases hCall
  · rw [call_of_none conn hNext] at hCall
    have hTells := tells_perform (h.next c.text) hCall
    exact hTells

/-- A store that keeps values as they are is a driver over its tables. -/
def tabular : Tabular Store where
  toTransactions := transactions .exact
  exact := rfl
  tells := fun _ _ _ hValid hCall => tells_call hValid hCall
  others := by
    intro store conn other c _ hNe hClean
    have hLine := line_call_ne hNe store c
    have hView : ((Store.call conn c).run store).2.view other =
        ⟨((Store.call conn c).run store).2.tables, (store.view other).saved,
          (store.view other).autoCommit⟩ := by
      rw [view, hLine]
      rfl
    show (((Store.call conn c).run store).2.view other).autoCommit = true ∧
      (((Store.call conn c).run store).2.view other).inTransaction = false
    rw [hView]
    exact hClean
  agree := fun _ _ _ _ => rfl
  fresh := by
    intro store conn hValid
    show ((((Store.call conn .close).run store).2).view conn).autoCommit = true
    rcases Plain.call_cases hValid .close with ⟨message, hNext, _⟩ | hNext
    · rw [call_of_failure conn hNext]
      exact congrArg Transactional.autoCommit (view_hangUp conn _)
    · rw [call_of_none conn hNext]
      exact congrArg Transactional.autoCommit (view_hangUp conn _)

end Store

end UnitOfWork

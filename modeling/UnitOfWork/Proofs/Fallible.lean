import UnitOfWork.Proofs.AutoCommit
import UnitOfWork.Proofs.Tabular

/-!
# Drivers any call of which may fail

`Transactional.Answers` has auto-commit switched on whenever no transaction is
open, and off at all times. Nothing of the kind can be relied on when any call
may report an error without having taken effect: `Transactional.Replies` allows
that for every call. What is done on one connection is still no concern of the
others.

A connection is clean if auto-commit is on and no transaction is open. Calls
that only read keep it so, and so do a rollback and the switch to auto-commit,
whatever comes of them. A connection with auto-commit off is made clean by
nothing but a switch that succeeds.

## Main results

* `Fallible.clean_restored`: what a rollback and the switch to auto-commit
  leave behind;
* `Fallible.modes_after`: calls on another connection;
* `Fallible.committed_of_error`, `Fallible.committed_restored`: failures, and
  what is done about them, commit nothing;
* `Store.fallible`: a store is such a driver, whatever calls its faults stop.
-/

namespace UnitOfWork

variable {σ γ : Type}

namespace Transactional

variable {run : Statement → List Value → γ → Except StoreFault (Outcome × γ)}
  {before after : Transactional γ} {c : Call}

/-- What may come of a call, and what it may do to its connection, if any call
may fail; `run` is what statements do to the contents. -/
def Replies
    (run : Statement → List Value → γ → Except StoreFault (Outcome × γ))
    (before after : Transactional γ) (c : Call) (r : Except Error c.Answer) :
    Prop :=
  match c, r with
  | .setAutoCommit _, .error _ => Retains before after
  | c, r => Answers run before after c r

/-- A call that succeeds does what it should. -/
theorem Replies.answers {answer : c.Answer}
    (h : Replies run before after c (.ok answer)) :
    Answers run before after c (.ok answer) := by
  cases c <;> exact h

/-- But for failed switches of auto-commit, calls are answered as ever. -/
theorem Replies.answers_of_ne {r : Except Error c.Answer}
    (h : Replies run before after c r) (hNe : ∀ on, c ≠ .setAutoCommit on) :
    Answers run before after c r := by
  cases c with
  | setAutoCommit on => exact absurd rfl (hNe on)
  | _ => exact h

theorem Answers.replies {r : Except Error c.Answer}
    (h : Answers run before after c r) : Replies run before after c r := by
  cases c with
  | setAutoCommit on =>
      cases r with
      | ok _ => exact h
      | error e => exact h.2.2
  | _ => exact h

/-- A call that fails takes no effect, unless the connection is opened or
closed. -/
theorem Replies.retains {e : Error}
    (h : Replies run before after c (.error e)) (hConnect : c ≠ .connect)
    (hOpen : c ≠ .close) : Retains before after := by
  cases c with
  | setAutoCommit on => exact h
  | _ => exact (h.answers_of_ne nofun).retains hConnect hOpen

/-- A call that fails commits nothing. -/
theorem Replies.committed {e : Error}
    (h : Replies run before after c (.error e)) (hConnect : c ≠ .connect) :
    after.committed = before.committed := by
  by_cases hOpen : c = .close
  · subst hOpen
    exact (h.answers_of_ne nofun).committed_close
  · exact (h.retains hConnect hOpen).committed

theorem Retains.autoCommit (h : Retains before after) :
    after.autoCommit = before.autoCommit := by
  rcases h with rfl | rfl | rfl
  · rfl
  · exact autoCommit_begin before
  · rfl

end Transactional

/-- A driver with transactions over contents of type `γ` any call of which may
fail. -/
structure Fallible (σ γ : Type) [Driver σ] where
  /-- The states of the driver that this is said of. -/
  Valid : σ → Prop
  /-- What a connection sees. -/
  view : ConnId → σ → Transactional γ
  /-- What a statement does to the contents. -/
  run : Statement → List Value → γ → Except StoreFault (Outcome × γ)
  valid_call : ∀ {t : σ} (conn : ConnId) (c : Call), Valid t →
    Valid (Driver.call conn c t).2
  replies : ∀ {t : σ} (conn : ConnId) (c : Call), Valid t →
    Transactional.Replies run (view conn t)
      (view conn (Driver.call conn c t).2) c (Driver.call conn c t).1
  autoCommit : ∀ (conn : ConnId) (t : σ),
    (view conn t).autoCommit = Driver.autoCommit conn t
  /-- A call changes the mode of its own connection only. -/
  apart : ∀ {t : σ} {conn other : ConnId} (c : Call), Valid t →
    other ≠ conn →
      Driver.autoCommit other (Driver.call conn c t).2 =
          Driver.autoCommit other t ∧
        (view other (Driver.call conn c t).2).inTransaction =
          (view other t).inTransaction

namespace Fallible

variable [Driver σ] (F : Fallible σ γ)

/-- What is committed, as a connection sees it. -/
def committed (conn : ConnId) (t : σ) : γ := (F.view conn t).committed

/-- Auto-commit is on and no transaction is open. -/
structure Clean (conn : ConnId) (t : σ) : Prop where
  autoCommit : Driver.autoCommit conn t = true
  inTransaction : (F.view conn t).inTransaction = false

/-- Each connection has the mode that it had. -/
def SameModes (before after : σ) : Prop :=
  ∀ conn, Driver.autoCommit conn after = Driver.autoCommit conn before ∧
    (F.view conn after).inTransaction = (F.view conn before).inTransaction

variable {F} {t : σ} {conn other : ConnId} {c : Call}

/-! ## Calls one after another -/

theorem valid_after (hValid : F.Valid t) (conn : ConnId)
    (calls : List Call) : F.Valid (Driver.after conn calls t) := by
  induction calls generalizing t with
  | nil => exact hValid
  | cons c rest ih => exact ih (F.valid_call conn c hValid)

theorem valid_made {calls : List Call} {before after : Env σ}
    (hValid : F.Valid before.driver) (hMade : before.Made conn calls after) :
    F.Valid after.driver := by
  rw [hMade.driver]
  exact valid_after hValid conn calls

/-- Calls on another connection leave a connection in its mode. -/
theorem modes_after (hValid : F.Valid t) (hNe : other ≠ conn)
    (calls : List Call) :
    Driver.autoCommit other (Driver.after conn calls t) =
        Driver.autoCommit other t ∧
      (F.view other (Driver.after conn calls t)).inTransaction =
        (F.view other t).inTransaction := by
  induction calls generalizing t with
  | nil => exact ⟨rfl, rfl⟩
  | cons c rest ih =>
      obtain ⟨hMode, hOpen⟩ := F.apart c hValid hNe
      obtain ⟨hModes, hOpens⟩ := ih (F.valid_call conn c hValid)
      exact ⟨hModes.trans hMode, hOpens.trans hOpen⟩

/-! ## Clean connections -/

theorem Clean.of_modes {after : σ} (h : F.Clean conn t)
    (hMode : Driver.autoCommit conn after = Driver.autoCommit conn t)
    (hOpen : (F.view conn after).inTransaction =
      (F.view conn t).inTransaction) : F.Clean conn after :=
  ⟨hMode.trans h.autoCommit, hOpen.trans h.inTransaction⟩

/-- A failure leaves a clean connection clean. -/
theorem Clean.of_retains {after : σ} (h : F.Clean conn t)
    (hRetains : (F.view conn t).Retains (F.view conn after)) :
    F.Clean conn after := by
  have hOn : (F.view conn t).autoCommit = true :=
    (F.autoCommit conn t).trans h.autoCommit
  have hSame := hRetains.eq hOn h.inTransaction
  refine ⟨?_, ?_⟩
  · rw [← F.autoCommit, hSame]
    exact hOn
  · rw [hSame]
    exact h.inTransaction

/-- A query leaves a clean connection clean. -/
theorem Clean.query {statement : Statement} (h : F.Clean conn t)
    (hValid : F.Valid t) (hQuery : statement.isQuery = true)
    (params : List Value) :
    F.Clean conn (Driver.call conn (.query statement params) t).2 := by
  have hReply := F.replies conn (.query statement params) hValid
  exact h.of_retains ((hReply.answers_of_ne nofun).retains_query hQuery)

theorem view_setAutoCommit {on : Bool} (hValid : F.Valid t)
    (hCall : (Driver.call conn (.setAutoCommit on) t).1 = .ok ()) :
    F.view conn (Driver.call conn (.setAutoCommit on) t).2 =
      (F.view conn t).setAutoCommit on := by
  have hReply := F.replies conn (.setAutoCommit on) hValid
  rw [hCall] at hReply
  exact hReply

/-- Where auto-commit has been switched on, the connection is clean. -/
theorem clean_of_switch (hValid : F.Valid t)
    (hCall : (Driver.call conn (.setAutoCommit true) t).1 = .ok ()) :
    F.Clean conn (Driver.call conn (.setAutoCommit true) t).2 := by
  have hView := view_setAutoCommit hValid hCall
  refine ⟨?_, ?_⟩
  · rw [← F.autoCommit, hView]
    rfl
  · rw [hView]
    rfl

/-- Where the switch to auto-commit fails, the mode stays what it is. -/
theorem autoCommit_of_failed_switch {e : Error} (hValid : F.Valid t)
    (hCall : (Driver.call conn (.setAutoCommit true) t).1 = .error e) :
    Driver.autoCommit conn (Driver.call conn (.setAutoCommit true) t).2 =
      Driver.autoCommit conn t := by
  have hReply := F.replies conn (.setAutoCommit true) hValid
  rw [hCall] at hReply
  rw [← F.autoCommit, ← F.autoCommit]
  exact Transactional.Retains.autoCommit hReply

theorem view_commit (hValid : F.Valid t)
    (hCommit : (Driver.call conn .commit t).1 = .ok ()) :
    F.view conn (Driver.call conn .commit t).2 = (F.view conn t).commit := by
  have hReply := F.replies conn .commit hValid
  rw [hCommit] at hReply
  exact hReply

theorem view_rollback (hValid : F.Valid t)
    (hRollback : (Driver.call conn .rollback t).1 = .ok ()) :
    F.view conn (Driver.call conn .rollback t).2 =
      (F.view conn t).rollback := by
  have hReply := F.replies conn .rollback hValid
  rw [hRollback] at hReply
  exact hReply

/-- After a rollback and the switch to auto-commit a connection is clean, unless
the switch has failed and auto-commit had been off. -/
theorem clean_restored (hValid : F.Valid t)
    (hRollback : (Driver.call conn .rollback t).1 = .ok ()) :
    let back := (Driver.call conn .rollback t).2
    F.Clean conn (Driver.call conn (.setAutoCommit true) back).2 ∨
      (∃ e, (Driver.call conn (.setAutoCommit true) back).1 = .error e) ∧
        Driver.autoCommit conn back = false := by
  intro back
  have hView : F.view conn back = (F.view conn t).rollback :=
    view_rollback hValid hRollback
  have hStill : F.Valid back := F.valid_call conn .rollback hValid
  cases hCall : (Driver.call conn (.setAutoCommit true) back).1 with
  | ok _ => exact Or.inl (clean_of_switch hStill hCall)
  | error e =>
      cases hMode : Driver.autoCommit conn back with
      | false => exact Or.inr ⟨⟨e, rfl⟩, rfl⟩
      | true =>
          have hClean : F.Clean conn back := by
            refine ⟨hMode, ?_⟩
            rw [hView]
            rfl
          have hReply := F.replies conn (.setAutoCommit true) hStill
          rw [hCall] at hReply
          exact Or.inl (hClean.of_retains hReply)

/-! ## What is committed -/

/-- A call that fails commits nothing. -/
theorem committed_of_error {e : Error} (hValid : F.Valid t)
    (hConnect : c ≠ .connect)
    (hCall : (Driver.call conn c t).1 = .error e) :
    F.committed conn (Driver.call conn c t).2 = F.committed conn t := by
  have hReply := F.replies conn c hValid
  rw [hCall] at hReply
  exact hReply.committed hConnect

/-- With nothing left to commit, the switch to auto-commit commits nothing. -/
theorem committed_switch (hValid : F.Valid t)
    (hNone : (F.view conn t).inTransaction = false) :
    F.committed conn (Driver.call conn (.setAutoCommit true) t).2 =
      F.committed conn t := by
  cases hCall : (Driver.call conn (.setAutoCommit true) t).1 with
  | error e => exact committed_of_error hValid (by simp) hCall
  | ok _ =>
      rw [committed, committed, view_setAutoCommit hValid hCall,
        Transactional.committed_of_not_inTransaction hNone]
      rfl

/-- A rollback and the switch to auto-commit commit nothing. -/
theorem committed_restored (hValid : F.Valid t)
    (hRollback : (Driver.call conn .rollback t).1 = .ok ()) :
    F.committed conn (Driver.call conn (.setAutoCommit true)
      (Driver.call conn .rollback t).2).2 = F.committed conn t := by
  have hView := view_rollback hValid hRollback
  rw [committed_switch (F.valid_call conn .rollback hValid)]
  · rw [committed, committed, hView, Transactional.committed_rollback]
  · rw [hView, Transactional.inTransaction_rollback]

/-- Closing a connection commits nothing. -/
theorem committed_close (conn : ConnId) (hValid : F.Valid t) :
    F.committed conn (Driver.call conn .close t).2 = F.committed conn t :=
  ((F.replies conn .close hValid).answers_of_ne nofun).committed_close

end Fallible

/-! ## Stores -/

namespace Store

theorem view_call_ne {conn other : ConnId} (hNe : other ≠ conn)
    (store : Store) (c : Call) :
    (Driver.call conn c store).2.view other =
      ⟨(Driver.call conn c store).2.tables, (store.view other).saved,
        (store.view other).autoCommit⟩ := by
  have hLine : (Driver.call conn c store).2.line other = store.line other :=
    line_call_ne hNe store c
  simp only [view, hLine]

/-- A store of a dialect as a driver any call of which may fail. -/
def fallible (dialect : Dialect) : Fallible Store Tables where
  Valid store := store.dialect = dialect ∧ store.OnlyFails
  view conn store := store.view conn
  run := Tables.run dialect
  valid_call := by
    rintro store conn c ⟨hDialect, hFails⟩
    have hSettings := settings_call conn hFails c
    have hKept : (Driver.call conn c store).2.settings =
        settings { store with
          faults := (Fault.next c.text store.faults).2 } := hSettings
    refine ⟨?_, (hFails.next c.text).of_settings hKept⟩
    exact (congrArg Prod.fst hSettings).trans hDialect
  replies := by
    rintro store conn c ⟨rfl, hFails⟩
    show Transactional.Replies _ _ (((Store.call conn c).run store).2.view conn)
      c ((Store.call conn c).run store).1
    rcases hFails.stops c.text with ⟨message, hNext⟩ | hNext
    · rw [call_of_failure conn hNext]
      by_cases hSwitch : ∃ on, c = .setAutoCommit on
      · obtain ⟨on, rfl⟩ := hSwitch
        exact Or.inl rfl
      · exact (answers_performStopped conn { store with
          faults := (Fault.next c.text store.faults).2 } _
            fun on hC => hSwitch ⟨on, hC⟩).replies
    · rw [call_of_none conn hNext]
      exact (answers_perform conn { store with
        faults := (Fault.next c.text store.faults).2 } c).replies
  autoCommit conn store := rfl
  apart := by
    intro store conn other c _ hNe
    have hView := view_call_ne hNe store c
    refine ⟨congrArg Transactional.autoCommit hView, ?_⟩
    rw [Transactional.inTransaction, hView]
    rfl

end Store

end UnitOfWork

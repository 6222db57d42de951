import UnitOfWork.Proofs.Gating
import UnitOfWork.Proofs.Stores

/-!
# What auto-commit promises

A connection with auto-commit is meant to behave as a simple machine. With
auto-commit on, a statement that is carried out is durable at once. With
auto-commit off the statements carried out are pending: they become durable
together with a commit, or when auto-commit is switched on, and are gone
together with a rollback. What is read is what is durable, with what is pending
done to it. `Promise` is that machine; by its constructors, nothing is pending
with auto-commit on.

The connections of a store keep no list of what is pending. They remember the
contents to go back to, begin a transaction with the first statement after a
boundary, be it one that only reads or one that fails, and end it only if there
is one. `Store.keeps_promise` says that nobody who makes calls on a connection
can tell the difference.

## Main results

* `Transactional.obey_begin`, `Transactional.obey_commit`,
  `Transactional.obey_rollback`, `Transactional.obey_setAutoCommit`: an engine
  is never told to begin a transaction inside another, or to end one when there
  is none;
* `Promise.commit_eq_self`, `Promise.rollback_eq_self`: with nothing pending
  the end of a transaction changes nothing;
* `Transactional.Keeps`: when the state of a connection keeps a promise, with a
  lemma for each thing that a call does to it;
* `Store.keeps_call`: so does a call, and what it answers is as promised;
* `Store.keeps_promise`: the same of any sequence of calls.
-/

namespace UnitOfWork

/-! ## The engine under a connection -/

/-- What an engine can be told about transactions. -/
inductive Command
  | begin
  | commit
  | rollback

/-- An engine: its contents, and those at the start of the open transaction. -/
structure Engine (γ : Type) where
  content : γ
  saved : Option γ := none

/-- What an engine makes of a command. It refuses to begin a transaction inside
another, and to end one when none is open. -/
def Engine.obey {γ : Type} (engine : Engine γ) : Command → Option (Engine γ)
  | .begin =>
    match engine.saved with
    | none => some { engine with saved := some engine.content }
    | some _ => none
  | .commit => engine.saved.map fun _ => { engine with saved := none }
  | .rollback => engine.saved.map fun start => { content := start }

namespace Transactional

variable {γ : Type} (t : Transactional γ)

/-- The engine under a connection, which does not know about auto-commit. -/
def engine : Engine γ := ⟨t.content, t.saved⟩

/-- A statement has the engine begin a transaction if auto-commit is off and
none is open, and the engine does not refuse. -/
theorem obey_begin :
    (if t.autoCommit = false ∧ t.inTransaction = false then
      t.engine.obey .begin else some t.engine) = some t.begin.engine := by
  obtain ⟨content, saved, autoCommit⟩ := t
  cases autoCommit <;> cases saved <;> rfl

/-- A commit has the engine commit if a transaction is open. -/
theorem obey_commit :
    (if t.inTransaction = true then t.engine.obey .commit
      else some t.engine) = some t.commit.engine := by
  obtain ⟨content, saved, autoCommit⟩ := t
  cases saved <;> rfl

/-- A rollback has the engine roll back if a transaction is open. -/
theorem obey_rollback :
    (if t.inTransaction = true then t.engine.obey .rollback
      else some t.engine) = some t.rollback.engine := by
  obtain ⟨content, saved, autoCommit⟩ := t
  cases saved <;> rfl

/-- Switching auto-commit on has the engine commit if a transaction is open,
and switching it off does not concern the engine. -/
theorem obey_setAutoCommit (on : Bool) :
    (if on = true ∧ t.inTransaction = true then t.engine.obey .commit
      else some t.engine) = some (t.setAutoCommit on).engine := by
  obtain ⟨content, saved, autoCommit⟩ := t
  cases on <;> cases saved <;> rfl

end Transactional

/-! ## The promise -/

/-- What those who use a connection may think of it. -/
inductive Promise
  /-- Auto-commit is on. -/
  | automatic (durable : Tables)
  /-- Auto-commit is off; some statements have been carried out since the last
  boundary. -/
  | manual (durable : Tables) (pending : List (Statement × List Value))

/-- What can be seen of a call. -/
inductive Observation
  | failed
  /-- A query found rows. -/
  | found (result : ResultSet)
  /-- A write touched so many rows. -/
  | touched (count : Nat)
  | done

/-- What is seen of the answer to a call. -/
def Call.observe : (c : Call) → Except Error c.Answer → Observation
  | .query _ _, .ok result => .found result
  | .execute statement _, .ok count =>
    if statement.isQuery then .done else .touched count
  | .insert statement _, .ok (count, _) =>
    if statement.isQuery then .done else .touched count
  | _, .ok _ => .done
  | _, .error _ => .failed

namespace Promise

variable (dialect : Dialect)

/-- What a statement makes of some tables. -/
def effect (tables : Tables) (write : Statement × List Value) : Tables :=
  match tables.run dialect write.1 write.2 with
  | .ok (_, after) => after
  | .error _ => tables

/-- What nothing can take back. -/
def durable : Promise → Tables
  | automatic durable | manual durable _ => durable

/-- What the next boundary decides on. -/
def pending : Promise → List (Statement × List Value)
  | automatic _ => []
  | manual _ pending => pending

def autoCommit : Promise → Bool
  | automatic _ => true
  | manual _ _ => false

/-- What statements work on: what is durable, with what is pending done to
it. -/
def content (promise : Promise) : Tables :=
  promise.pending.foldl (effect dialect) promise.durable

/-- A write that is carried out is durable at once, or pending. -/
def carryOut (write : Statement × List Value) : Promise → Promise
  | automatic durable => automatic (effect dialect durable write)
  | manual durable pending => manual durable (pending ++ [write])

/-- What is pending becomes durable. -/
def commit : Promise → Promise
  | automatic durable => automatic durable
  | manual durable pending => manual (content dialect (manual durable pending)) []

/-- What is pending is gone. -/
def rollback : Promise → Promise
  | automatic durable => automatic durable
  | manual durable _ => manual durable []

/-- Switching auto-commit on makes durable what is pending. -/
def setAutoCommit (on : Bool) (promise : Promise) : Promise :=
  match on, promise with
  | true, promise => automatic (promise.content dialect)
  | false, automatic durable => manual durable []
  | false, promise => promise

/-- What comes of a statement. -/
def outcome (statement : Statement) (params : List Value)
    (promise : Promise) : Except StoreFault Outcome :=
  ((promise.content dialect).run dialect statement params).map Prod.fst

/-- A statement is carried out if that is possible; one that only reads leaves
nothing to decide on. -/
def attempt (statement : Statement) (params : List Value)
    (promise : Promise) : Promise :=
  match promise.outcome dialect statement params with
  | .ok _ =>
    if statement.isQuery then promise
    else promise.carryOut dialect (statement, params)
  | .error _ => promise

/-- What is promised after a call. -/
def next (promise : Promise) : Call → Promise
  | .query statement params | .execute statement params
  | .insert statement params => promise.attempt dialect statement params
  | .commit => promise.commit dialect
  | .rollback => promise.rollback
  | .setAutoCommit on => promise.setAutoCommit dialect on
  | .connect | .close => promise

/-- What is promised to be seen of a call. A statement that only reads is not
to be run as a write, unless it finds nothing. -/
def answer (promise : Promise) : Call → Observation
  | .query statement params =>
    match promise.outcome dialect statement params with
    | .ok outcome => .found outcome.result
    | .error _ => .failed
  | .execute statement params | .insert statement params =>
    match promise.outcome dialect statement params with
    | .ok outcome =>
      if statement.isQuery then
        if outcome.result.rows.isEmpty then .done else .failed
      else .touched outcome.affected
    | .error _ => .failed
  | _ => .done

/-- A commit with nothing to decide on changes nothing. -/
theorem commit_eq_self {promise : Promise} (h : promise.pending = []) :
    promise.commit dialect = promise := by
  cases promise with
  | automatic durable => rfl
  | manual durable pending =>
      have hNone : pending = [] := h
      rw [hNone]
      rfl

/-- So does a rollback. -/
theorem rollback_eq_self {promise : Promise} (h : promise.pending = []) :
    promise.rollback = promise := by
  cases promise with
  | automatic durable => rfl
  | manual durable pending =>
      have hNone : pending = [] := h
      rw [hNone]
      rfl

/-- A call; one that is stopped fails and has no effect. -/
def respond (promise : Promise) (c : Call) (stopped : Bool) :
    Observation × Promise :=
  if stopped then (.failed, promise)
  else (promise.answer dialect c, promise.next dialect c)

/-- A sequence of calls, some of which are stopped. -/
def run (promise : Promise) : List (Call × Bool) → List Observation × Promise
  | [] => ([], promise)
  | (c, stopped) :: rest =>
    let now := promise.respond dialect c stopped
    let later := now.2.run rest
    (now.1 :: later.1, later.2)

end Promise

/-! ## Keeping the promise -/

namespace Transactional

/-- The state of a connection keeps a promise. -/
structure Keeps (dialect : Dialect) (t : Transactional Tables)
    (promise : Promise) : Prop where
  autoCommit : t.autoCommit = promise.autoCommit
  committed : t.committed = promise.durable
  content : t.content = promise.content dialect
  /-- No transaction is open with auto-commit on. -/
  resting : t.autoCommit = true → t.inTransaction = false
  /-- What is pending is in a transaction. -/
  boundary : t.inTransaction = false → promise.pending = []

namespace Keeps

variable {dialect : Dialect} {t : Transactional Tables} {promise : Promise}

/-- A connection that rests keeps the promise that what there is is durable. -/
theorem automatic (hOn : t.autoCommit = true)
    (hNone : t.inTransaction = false) :
    t.Keeps dialect (.automatic t.content) where
  autoCommit := hOn
  committed := committed_of_not_inTransaction hNone
  content := rfl
  resting := fun _ => hNone
  boundary := fun _ => rfl

/-- At a boundary of a connection with auto-commit off nothing is pending. -/
theorem manual (hOff : t.autoCommit = false)
    (hNone : t.inTransaction = false) :
    t.Keeps dialect (.manual t.content []) where
  autoCommit := hOff
  committed := committed_of_not_inTransaction hNone
  content := rfl
  resting := fun _ => hNone
  boundary := fun _ => rfl

/-- With auto-commit on nothing is pending. -/
theorem of_automatic {durable : Tables}
    (h : t.Keeps dialect (.automatic durable)) :
    t.autoCommit = true ∧ t.inTransaction = false ∧ t.content = durable :=
  ⟨h.autoCommit, h.resting h.autoCommit, h.content⟩

/-- That a transaction has begun cannot be seen. -/
theorem begin (h : t.Keeps dialect promise) :
    t.begin.Keeps dialect promise where
  autoCommit := (autoCommit_begin t).trans h.autoCommit
  committed := (committed_begin t).trans h.committed
  content := (content_begin t).trans h.content
  resting := by
    intro hOn
    rw [autoCommit_begin] at hOn
    rw [Transactional.begin, if_pos hOn]
    exact h.resting hOn
  boundary := by
    intro hNone
    rw [Transactional.begin] at hNone
    split at hNone
    · exact h.boundary hNone
    · cases hNone

/-- A statement that only reads cannot be seen. -/
theorem read {statement : Statement} (h : t.Keeps dialect promise)
    (hQuery : statement.isQuery = true) (params : List Value) :
    (t.execute (Tables.run dialect statement params)).2.Keeps dialect
      promise := by
  have hSame : (t.execute (Tables.run dialect statement params)).2 =
      t.begin := by
    rw [execute]
    cases hRun : Tables.run dialect statement params t.begin.content with
    | error fault => rfl
    | ok result =>
        have hKept := Tables.run_query hQuery hRun
        simp only [hKept]
  rw [hSame]
  exact h.begin

/-- A write that is carried out is durable or pending, as promised. -/
theorem write {statement : Statement} {params : List Value}
    {outcome : Outcome} {after : Tables} (h : t.Keeps dialect promise)
    (hRun : t.content.run dialect statement params = .ok (outcome, after)) :
    Keeps dialect { t.begin with content := after }
      (promise.carryOut dialect (statement, params)) := by
  have hEffect : Promise.effect dialect t.content (statement, params) =
      after := by
    rw [Promise.effect, hRun]
  cases promise with
  | automatic durable =>
      obtain ⟨hOn, hNone, hContent⟩ := h.of_automatic
      have hBegin : t.begin = t := by rw [Transactional.begin, if_pos hOn]
      rw [hBegin, Promise.carryOut, ← hContent, hEffect]
      exact automatic (t := { t with content := after }) hOn hNone
  | manual durable pending =>
      have hOff : t.autoCommit = false := h.autoCommit
      have hBegin : t.begin = { t with saved := some t.committed } := by
        rw [Transactional.begin, hOff, if_neg Bool.false_ne_true]
      rw [hBegin, Promise.carryOut]
      refine ⟨hOff, h.committed, ?_, ?_, ?_⟩
      · show after = (pending ++ [(statement, params)]).foldl
          (Promise.effect dialect) durable
        rw [List.foldl_append, ← hEffect, h.content]
        rfl
      · intro hOn
        exact absurd (hOff.symm.trans hOn) Bool.false_ne_true
      · intro hNone
        cases hNone

/-- A statement has the effect that is promised, whether or not it can be
carried out. -/
theorem attempt (h : t.Keeps dialect promise) (statement : Statement)
    (params : List Value) :
    (t.execute (Tables.run dialect statement params)).2.Keeps dialect
      (promise.attempt dialect statement params) := by
  rw [Promise.attempt, Promise.outcome, ← h.content]
  cases hRun : t.content.run dialect statement params with
  | error fault =>
      have hBegun : (t.execute (Tables.run dialect statement params)).2 =
          t.begin := by
        simp only [execute, content_begin, hRun]
      rw [hBegun]
      exact h.begin
  | ok result =>
      obtain ⟨outcome, after⟩ := result
      simp only [Except.map]
      by_cases hQuery : statement.isQuery = true
      · rw [if_pos hQuery]
        exact h.read hQuery params
      · have hAfter : (t.execute (Tables.run dialect statement params)).2 =
            { t.begin with content := after } := by
          simp only [execute, content_begin, hRun]
        rw [hAfter, if_neg hQuery]
        exact h.write hRun

/-- A commit makes durable what is pending. -/
theorem commit (h : t.Keeps dialect promise) :
    t.commit.Keeps dialect (promise.commit dialect) := by
  cases promise with
  | automatic durable =>
      obtain ⟨hOn, _, hContent⟩ := h.of_automatic
      rw [Promise.commit, ← hContent]
      exact automatic (t := t.commit) hOn rfl
  | manual durable pending =>
      rw [Promise.commit, ← h.content]
      exact manual (t := t.commit) h.autoCommit rfl

/-- After a rollback what was pending is gone. -/
theorem rollback (h : t.Keeps dialect promise) :
    t.rollback.Keeps dialect promise.rollback := by
  have hContent : t.rollback.content = promise.durable := h.committed
  cases promise with
  | automatic durable =>
      rw [Promise.rollback, ← show t.rollback.content = durable from hContent]
      exact automatic h.autoCommit rfl
  | manual durable pending =>
      rw [Promise.rollback, ← show t.rollback.content = durable from hContent]
      exact manual h.autoCommit rfl

/-- Switching auto-commit on commits, and switching it off changes nothing
yet. -/
theorem setAutoCommit (h : t.Keeps dialect promise) (on : Bool) :
    (t.setAutoCommit on).Keeps dialect (promise.setAutoCommit dialect on) := by
  cases on with
  | true =>
      rw [Promise.setAutoCommit, ← h.content]
      exact automatic (t := t.setAutoCommit true) rfl rfl
  | false =>
      cases promise with
      | automatic durable =>
          obtain ⟨_, hNone, hContent⟩ := h.of_automatic
          rw [Promise.setAutoCommit, ← hContent]
          exact manual (t := t.setAutoCommit false) rfl hNone
      | manual durable pending =>
          refine ⟨rfl, h.committed, h.content, ?_, h.boundary⟩
          intro hOn
          cases hOn

end Keeps

end Transactional

/-! ## Calls on a store -/

/-- Which calls of a sequence a plan of faults stops. -/
def Fault.stops (faults : List Fault) : List Call → List Bool
  | [] => []
  | c :: rest =>
    let planned := next c.text faults
    planned.1.isSome :: stops planned.2 rest

namespace Store

variable (conn : ConnId)

/-- What is seen of a sequence of calls on a connection. -/
def observe (store : Store) : List Call → List Observation × Store
  | [] => ([], store)
  | c :: rest =>
    let now := Driver.call conn c store
    let later := now.2.observe rest
    (c.observe now.1 :: later.1, later.2)

/-- A connection keeps a promise. -/
abbrev Keeps (store : Store) (promise : Promise) : Prop :=
  (store.view conn).Keeps store.dialect promise

/-- All that goes wrong by plan are calls that fail. -/
def OnlyFails (store : Store) : Prop :=
  ∀ f ∈ store.faults, ∃ message, f.effect = .failure message

variable {conn} {store : Store} {promise : Promise}

theorem OnlyFails.next (h : store.OnlyFails) (text : String) :
    OnlyFails { store with faults := (Fault.next text store.faults).2 } := by
  intro f hMem
  obtain ⟨g, hG, _, hEffect⟩ := Fault.next_kept hMem
  obtain ⟨message, hFails⟩ := h g hG
  exact ⟨message, hEffect.trans hFails⟩

theorem OnlyFails.of_settings {after : Store} (h : store.OnlyFails)
    (hSettings : after.settings = store.settings) : after.OnlyFails := by
  have hFaults : after.faults = store.faults :=
    congrArg (fun settings => settings.2.2) hSettings
  rw [OnlyFails, hFaults]
  exact h

/-- Such a plan stops a call or does not concern it. -/
theorem OnlyFails.stops (h : store.OnlyFails) (text : String) :
    (∃ message, (Fault.next text store.faults).1 = some (.failure message)) ∨
      (Fault.next text store.faults).1 = none := by
  cases hNext : (Fault.next text store.faults).1 with
  | none => exact Or.inr rfl
  | some effect =>
      obtain ⟨f, hMem, _, rfl⟩ := Fault.next_sound hNext
      obtain ⟨message, hFails⟩ := h f hMem
      exact Or.inl ⟨message, by rw [hFails]⟩

/-- A call that is stopped has no effect but that a statement may have begun a
transaction. -/
theorem Keeps.performStopped (h : store.Keeps conn promise) {c : Call}
    (hOpen : c ≠ .close) :
    ((Store.performStopped conn c).run store).2.Keeps conn promise := by
  have hBegun : ((onLine conn Transactional.begin).run store).2.Keeps conn
      promise := by
    rw [Keeps, view_onLine]
    exact h.begin
  cases c with
  | query statement params => exact hBegun
  | execute statement params => exact hBegun
  | insert statement params => exact hBegun
  | close => exact absurd rfl hOpen
  | _ => exact h

/-- A statement that is run keeps what is promised, and comes to what is
promised. -/
theorem Keeps.execute (h : store.Keeps conn promise) (statement : Statement)
    (params : List Value) :
    (store.execute conn statement params).1 =
        promise.outcome store.dialect statement params ∧
      (store.execute conn statement params).2.Keeps conn
        (promise.attempt store.dialect statement params) := by
  obtain ⟨hResult, hView⟩ := view_execute conn store statement params
  refine ⟨?_, ?_⟩
  · rw [hResult, Promise.outcome, ← h.content, Transactional.execute,
      Transactional.content_begin]
    cases (store.view conn).content.run store.dialect statement params <;> rfl
  · rw [Keeps, hView]
    exact h.attempt statement params

/-- What is seen of a write that is run. -/
theorem observe_executeWrite (h : store.Keeps conn promise)
    (statement : Statement) (params : List Value) :
    (match (store.executeWrite conn statement params).1 with
      | .ok outcome => if statement.isQuery then Observation.done
        else .touched outcome.affected
      | .error _ => .failed) =
      promise.answer store.dialect (.execute statement params) := by
  have hOutcome := (h.execute statement params).1
  simp only [executeWrite, Promise.answer, ← hOutcome]
  cases hRun : (store.execute conn statement params).1 with
  | error fault => simp only [hRun]
  | ok outcome =>
      cases hQuery : statement.isQuery with
      | false => simp [hRun]
      | true => cases hRows : outcome.result.rows.isEmpty <;> simp [hRows]

/-- A call that is carried out keeps what is promised, and answers as
promised. -/
theorem Keeps.perform (h : store.Keeps conn promise) {c : Call}
    (hConnect : c ≠ .connect) (hOpen : c ≠ .close) :
    c.observe ((Store.perform conn none c).run store).1 =
        promise.answer store.dialect c ∧
      ((Store.perform conn none c).run store).2.Keeps conn
        (promise.next store.dialect c) := by
  cases c with
  | connect => exact absurd rfl hConnect
  | query statement params =>
      obtain ⟨hOutcome, hKeeps⟩ := h.execute statement params
      simp only [Store.perform, Step.run, snd_report]
      refine ⟨?_, hKeeps⟩
      simp only [report, Promise.answer, ← hOutcome]
      cases (store.execute conn statement params).1 <;> rfl
  | execute statement params =>
      have hKeeps := (h.execute statement params).2
      simp only [Store.perform, Step.run, snd_report, snd_executeWrite]
      refine ⟨?_, hKeeps⟩
      rw [← observe_executeWrite h statement params]
      simp only [report]
      cases (store.executeWrite conn statement params).1 <;> rfl
  | insert statement params =>
      have hKeeps := (h.execute statement params).2
      simp only [Store.perform, Step.run, snd_report, snd_executeWrite]
      refine ⟨?_, hKeeps⟩
      refine Eq.trans ?_ (observe_executeWrite h statement params)
      simp only [report]
      cases (store.executeWrite conn statement params).1 <;> rfl
  | setAutoCommit on =>
      refine ⟨rfl, ?_⟩
      rw [Keeps, Store.perform, view_onLine]
      exact Transactional.Keeps.setAutoCommit h on
  | commit =>
      refine ⟨rfl, ?_⟩
      rw [Keeps, Store.perform, view_onLine]
      exact Transactional.Keeps.commit h
  | rollback =>
      refine ⟨rfl, ?_⟩
      rw [Keeps, Store.perform, view_onLine]
      exact Transactional.Keeps.rollback h
  | close => exact absurd rfl hOpen

/-- A call keeps what is promised, and what is seen of it is as promised. -/
theorem keeps_call (h : store.Keeps conn promise) (hFails : store.OnlyFails)
    {c : Call} (hConnect : c ≠ .connect) (hOpen : c ≠ .close) :
    let stopped := (Fault.next c.text store.faults).1.isSome
    let response := promise.respond store.dialect c stopped
    c.observe (Driver.call conn c store).1 = response.1 ∧
      (Driver.call conn c store).2.Keeps conn response.2 := by
  have hPlan : Keeps conn { store with
      faults := (Fault.next c.text store.faults).2 } promise := h
  show c.observe ((Store.call conn c).run store).1 = _ ∧
    ((Store.call conn c).run store).2.Keeps conn _
  rcases hFails.stops c.text with ⟨message, hNext⟩ | hNext
  · rw [call_of_failure conn hNext, hNext]
    refine ⟨?_, hPlan.performStopped hOpen⟩
    cases c <;> rfl
  · rw [call_of_none conn hNext, hNext]
    exact hPlan.perform hConnect hOpen

/-- Calls leave the plan as it is, but for what it has done. -/
theorem settings_call (conn : ConnId) (hFails : store.OnlyFails) (c : Call) :
    (Driver.call conn c store).2.settings =
      (store.dialect, store.hasEngine,
        (Fault.next c.text store.faults).2) := by
  show ((Store.call conn c).run store).2.settings = _
  rcases hFails.stops c.text with ⟨message, hNext⟩ | hNext
  · rw [call_of_failure conn hNext, settings_performStopped]
    rfl
  · rw [call_of_none conn hNext, settings_perform]
    rfl

/-- What is left when a connection is closed is what was durable. -/
theorem Keeps.tables_close (h : store.Keeps conn promise) :
    (Driver.call conn .close store).2.tables = promise.durable := by
  have hHungUp : ∀ faults, ((hangUp conn).run { store with
      faults := faults }).2.tables = promise.durable := by
    intro faults
    have hView := view_hangUp conn { store with faults := faults }
    have hContent := congrArg Transactional.content hView
    exact hContent.trans h.committed
  show ((Store.call conn .close).run store).2.tables = _
  rcases call_cases store conn .close with ⟨e, hStopped⟩ | ⟨effect, hDone⟩
  · rw [hStopped]
    exact hHungUp _
  · rw [hDone]
    exact hHungUp _

/-- Sequences of calls keep what is promised, and are seen to. -/
theorem Keeps.observe (h : store.Keeps conn promise)
    (hFails : store.OnlyFails) {calls : List Call}
    (hCalls : ∀ c ∈ calls, c ≠ .connect ∧ c ≠ .close) :
    let tried := calls.zip (Fault.stops store.faults calls)
    let promised := promise.run store.dialect tried
    let observed := Store.observe conn store calls
    observed.1 = promised.1 ∧ observed.2.Keeps conn promised.2 := by
  induction calls generalizing store promise with
  | nil => exact ⟨rfl, h⟩
  | cons c rest ih =>
      obtain ⟨hConnect, hOpen⟩ := hCalls c (List.mem_cons_self ..)
      obtain ⟨hSeen, hKeeps⟩ := keeps_call h hFails hConnect hOpen
      have hSettings := settings_call conn hFails c
      obtain ⟨hDialect, -, hFaults⟩ : _ ∧ _ ∧ _ := by
        simpa [settings] using hSettings
      have hNext : (Driver.call conn c store).2.OnlyFails :=
        (hFails.next c.text).of_settings hSettings
      obtain ⟨hRest, hLast⟩ := ih hKeeps hNext fun c' hMem =>
        hCalls c' (List.mem_cons_of_mem _ hMem)
      rw [hFaults, hDialect] at hRest hLast
      exact ⟨List.cons_eq_cons.2 ⟨hSeen, hRest⟩, hLast⟩

/-- A connection keeps the promise of auto-commit. Whoever makes calls on it,
some of which are stopped without effect, sees just what is promised; and at
every point the connection has auto-commit on as promised, works on what is
durable with what is pending done to it, has no transaction open with
auto-commit on, and leaves what is durable if it is closed. -/
theorem keeps_promise {store : Store} {conn : ConnId}
    (hFails : store.OnlyFails) (hOn : (store.view conn).autoCommit = true)
    (hNone : (store.view conn).inTransaction = false) {calls : List Call}
    (hCalls : ∀ c ∈ calls, c ≠ .connect ∧ c ≠ .close) :
    let tried := calls.zip (Fault.stops store.faults calls)
    let promised := (Promise.automatic store.tables).run store.dialect tried
    let observed := Store.observe conn store calls
    observed.1 = promised.1 ∧ observed.2.Keeps conn promised.2 ∧
      (Driver.call conn .close observed.2).2.tables = promised.2.durable := by
  have hStart : store.Keeps conn (.automatic store.tables) :=
    Transactional.Keeps.automatic hOn hNone
  obtain ⟨hSeen, hKeeps⟩ := hStart.observe hFails hCalls
  exact ⟨hSeen, hKeeps, hKeeps.tables_close⟩

end Store

/-! ## Promises about memos -/

namespace Memos

/-- A store of memos with an engine, where the first commit fails. -/
def engine : Store :=
  { store [] with
    dialect := .cells
    hasEngine := true
    faults := [⟨"COMMIT", 0, 1, .failure "disk I/O error"⟩] }

/-- Two transactions: the first cannot be committed and is taken back, the
second is committed with the switch to auto-commit, which leaves nothing to
take back. The second memo with the same title is refused. -/
def calls : List Call :=
  let add (title : String) : Call :=
    .insert (.insert "memos" ["title"]) [.text title]
  let all : Call := .query (.selectAll "memos") []
  [.setAutoCommit false, add "Milk", add "Milk", .commit, all, .rollback, all,
    add "Eggs", .setAutoCommit true, .rollback, all]

/-- What is found in a table of memos. -/
def found (rows : List (List Value)) : Observation :=
  .found (ResultSet.ofRows ["id", "title"] rows)

end Memos

theorem Store.keeps_promise_of_memos :
    let observed := Store.observe 0 Memos.engine Memos.calls
    observed.1 = [.done, .touched 1, .failed, .failed,
        Memos.found [[.int 1, .text "Milk"]], .done, Memos.found [],
        .touched 1, .done, .done, Memos.found [[.int 1, .text "Eggs"]]] ∧
      Driver.autoCommit 0 observed.2 = true ∧
      (observed.2.view 0).inTransaction = false ∧
      ((Driver.call 0 .close observed.2).2.tables.map Table.rows) =
        [[[.int 1, .text "Eggs"]]] := by
  have hFails : Memos.engine.OnlyFails := by
    intro f hMem
    cases List.mem_singleton.1 hMem
    exact ⟨_, rfl⟩
  have hOn : (Memos.engine.view 0).autoCommit = true := rfl
  have hCalls : ∀ c ∈ Memos.calls, c ≠ .connect ∧ c ≠ .close := by
    intro c hMem
    simp only [Memos.calls, List.mem_cons, List.not_mem_nil, or_false] at hMem
    rcases hMem with rfl | rfl | rfl | rfl | rfl | rfl | rfl | rfl | rfl |
      rfl | rfl <;> simp
  obtain ⟨hSeen, hKeeps, hClosed⟩ :=
    Store.keeps_promise hFails hOn rfl hCalls
  refine ⟨hSeen.trans rfl, hKeeps.autoCommit.trans rfl, ?_, ?_⟩
  · exact hKeeps.resting (hKeeps.autoCommit.trans rfl)
  · rw [hClosed]
    rfl

end UnitOfWork

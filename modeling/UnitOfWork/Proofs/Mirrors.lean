import UnitOfWork.Proofs.Atomicity
import UnitOfWork.Proofs.Lookups
import UnitOfWork.Proofs.Writes

/-!
# Snapshots and the database

The dirty check compares an entity with its snapshot, so it is right as long as
the snapshot is what the database has. It is, whatever is asked of a session
that is the only one to write, with one exception: outside of a transaction a
flush that fails puts the snapshots back, but what it has updated or deleted by
then stays as it is.

## Main results

* `Session.Settled.flush`, `Session.Settled.perform`: what keeps snapshots those
  of rows;
* `Session.not_mirrored_of_carried`: what does not;
* `Session.snapshots_mirror_rows`: on every run without a flush of that kind the
  snapshots are those of rows, and such a flush is all that can end this.
-/

namespace UnitOfWork

variable {σ : Type}

/-- All instances hold values that their fields accept. -/
def Heap.Accepted (schema : Schema) (heap : Heap) : Prop :=
  ∀ ref, ref < heap.next → heap.Accepts schema ref

namespace Session

variable [Driver σ] {T : Tabular σ} {p : Persister}

/-- Each snapshot is what the row with its key reads as, in the database as any
connection sees it. -/
def Mirrored (T : Tabular σ) (p : Persister) (scope : Scope σ) : Prop :=
  ∀ conn key values, scope.session.context.snapshot? key = some values →
    (T.committed conn scope.env.driver).Has p.schema key values

/-- A request flushes outside of a transaction, and the flush fails when it has
updated or deleted rows. -/
def Torn (p : Persister) (op : Operation) (scope : Scope σ) : Prop :=
  op.flushes = true ∧ op ≠ .commit ∧ scope.session.inTransaction = false ∧
    (∃ e, ((flush p).run scope).1 = .error e) ∧
      ∃ conn calls, scope.env.Made conn calls ((flush p).run scope).2.env ∧
        Driver.Carried conn calls scope.env.driver

/-- A session between two requests: no connection is in a transaction, the
tables suit the schema, and the snapshots are those of rows. -/
structure Settled (T : Tabular σ) (p : Persister) (scope : Scope σ) :
    Prop where
  quiet : T.Quiet scope.env.driver
  suit : ∀ conn, (T.committed conn scope.env.driver).Suit p.schema
  mirrored : Mirrored T p scope

/-- Without transactions one connection speaks for all. -/
theorem settled_of_content {scope : Scope σ} {conn : ConnId}
    (hQuiet : T.Quiet scope.env.driver)
    (hSuit : (T.view conn scope.env.driver).content.Suit p.schema)
    (hHas : ∀ key values, scope.session.context.snapshot? key = some values →
      (T.view conn scope.env.driver).content.Has p.schema key values) :
    Settled T p scope := by
  rw [← Tabular.committed_of_clean (hQuiet.clean conn)] at hSuit
  refine ⟨hQuiet, ?_, ?_⟩
  · intro other
    rw [hQuiet.committed_eq other conn]
    exact hSuit
  · intro other key values hSnapshot
    rw [hQuiet.committed_eq other conn,
      Tabular.committed_of_clean (hQuiet.clean conn)]
    exact hHas key values hSnapshot

namespace Settled

variable {scope : Scope σ} (h : Settled T p scope)

include h

/-- Only the context and the database count. -/
theorem of_eq {after : Scope σ} (hQuiet : T.Quiet after.env.driver)
    (hContext : ∀ key values,
      after.session.context.snapshot? key = some values →
        scope.session.context.snapshot? key = some values) (conn : ConnId)
    (hCommitted : T.committed conn after.env.driver =
      T.committed conn scope.env.driver) : Settled T p after := by
  have hSame : ∀ other, T.committed other after.env.driver =
      T.committed other scope.env.driver := by
    intro other
    rw [hQuiet.committed_eq other conn, hCommitted,
      h.quiet.committed_eq conn other]
  refine ⟨hQuiet, ?_, ?_⟩
  · intro other
    rw [hSame]
    exact h.suit other
  · intro other key values hSnapshot
    rw [hSame]
    exact h.mirrored other key values (hContext key values hSnapshot)

/-- What a connection sees are the tables of all. -/
theorem content (conn : ConnId) :
    (T.view conn scope.env.driver).content.Suit p.schema ∧
      ∀ key values, scope.session.context.snapshot? key = some values →
        (T.view conn scope.env.driver).content.Has p.schema key values := by
  rw [← Tabular.committed_of_clean (h.quiet.clean conn)]
  exact ⟨h.suit conn, h.mirrored conn⟩

/-! ## Flushes -/

/-- A flush starts with everything ready to be written. -/
theorem ready (hTidy : Tidy p scope) (hAccepted : scope.heap.Accepted p.schema)
    {dirty : List Dirty} {ctx : Context}
    (hDiff : scope.session.context.diff p.schema scope.heap = .ok (dirty, ctx))
    (conn : ConnId) :
    Work.Ready T p conn scope.session.context scope.heap
      (scope.session.planned dirty) (⟨scope.env, ctx⟩ : Work σ) where
  orderly := hTidy.orderly hDiff
  coherent := hTidy.coherent
  accepted := hAccepted
  valid := h.quiet.valid
  suit := (h.content conn).1
  waiting := fun _ _ => rfl
  known := by
    intro action hMem hKind
    rcases mem_planned.1 hMem with hPending | ⟨d, hD, rfl⟩
    · obtain ⟨kind, ref⟩ := action
      cases kind with
      | insert => exact absurd rfl hKind
      | update => exact absurd hPending (hTidy.updates ref)
      | delete => exact hTidy.deletes ref hPending
    · exact ⟨d.key, (hTidy.coherent.diff hDiff).2 d hD⟩
  stale := by
    intro ref key old values hMem hGet hOld hValues
    rcases mem_planned.1 hMem with hPending | ⟨d, hD, hEq⟩
    · exact absurd hPending (hTidy.updates ref)
    · cases hEq
      have hKey := hTidy.coherent.key_unique hGet
        ((hTidy.coherent.diff hDiff).2 d hD)
      obtain ⟨_, hPresent, hStale⟩ := (Context.mem_of_diff hDiff d).1 hD
      cases hPresent.symm.trans hValues
      rw [Context.isStale, ← hKey, hOld] at hStale
      rintro rfl
      obtain ⟨d', hD', _, hSnapshot⟩ := Heap.snapshot_eq_ok_iff.1 hValues
      have hEqual := (hAccepted d.ref
        (hTidy.coherent.present key d.ref hGet) d' hD').equalAll
      rw [← hSnapshot] at hEqual
      simp [hEqual] at hStale

/-- The snapshots that the dirty check has left are those of rows, but for the
updates that it has asked for. -/
theorem mirroring (hTidy : Tidy p scope)
    (hAccepted : scope.heap.Accepted p.schema) {dirty : List Dirty}
    {ctx : Context}
    (hDiff : scope.session.context.diff p.schema scope.heap = .ok (dirty, ctx))
    (conn : ConnId) :
    Work.Mirroring T p conn scope.session.context scope.heap
      (scope.session.planned dirty) (⟨scope.env, ctx⟩ : Work σ) := by
  refine ⟨h.ready hTidy hAccepted hDiff conn, ?_⟩
  intro key values hSnapshot
  obtain ⟨_, hHas⟩ := h.content conn
  rcases Context.snapshot?_of_diff hDiff hSnapshot with
    ⟨d, hD, rfl⟩ | hBefore
  · have hGet := (hTidy.coherent.diff hDiff).2 d hD
    obtain ⟨old, hOld⟩ := hTidy.coherent.exists_snapshot? hGet
    exact Or.inr ⟨d.ref, old, mem_planned.2 (Or.inr ⟨d, hD, rfl⟩), hGet,
      hHas d.key old hOld⟩
  · exact Or.inl (hHas key values hBefore)

end Settled

/-- Switching auto-commit off changes nothing of this. -/
theorem mirroring_opened {conn : ConnId} {inTransaction : Bool}
    {saved : Context} {before : Heap} {actions : List Action} {work : Work σ}
    (h : work.Mirroring T p conn saved before actions)
    (hOpened : inTransaction = true →
      (Driver.call conn (.setAutoCommit false) work.env.driver).1 = .ok ()) :
    (opened conn inTransaction work).Mirroring T p conn saved before
      actions := by
  cases inTransaction with
  | false => exact h
  | true =>
      obtain ⟨hSame, _⟩ := Tabular.view_switched h.ready.valid (hOpened rfl)
      have hOrderly := h.ready.orderly.opened conn true
      refine ⟨⟨hOrderly, h.ready.coherent, h.ready.accepted,
        T.valid_call conn _ h.ready.valid, ?_, h.ready.waiting,
        h.ready.known, h.ready.stale⟩, ?_⟩
      · show (T.view conn (Driver.call conn (.setAutoCommit false)
          work.env.driver).2).content.Suit p.schema
        rw [hSame]
        exact h.ready.suit
      · intro key values hSnapshot
        show (T.view conn (Driver.call conn (.setAutoCommit false)
          work.env.driver).2).content.WillHave p.schema saved actions key values
        rw [hSame]
        exact h.mirrored key values hSnapshot

/-- After the work on the connection has succeeded, the snapshots are those of
rows. -/
theorem performed_mirrors (hApart : p.schema.Apart) {conn : ConnId}
    {inTransaction : Bool} {saved : Context} {before : Heap}
    {actions : List Action} {work after : Work σ}
    (h : work.Mirroring T p conn saved before actions)
    (hPerformed : Performed p conn inTransaction actions work (.ok ()) after) :
    (T.view conn after.env.driver).content.Suit p.schema ∧
      ∀ key values, after.context.snapshot? key = some values →
        (T.view conn after.env.driver).content.Has p.schema key values := by
  cases hPerformed with
  | @committed _ done hOpened hRun hCommit hClose =>
      have hDone := (mirroring_opened h hOpened).executeAll hApart
      rw [hRun] at hDone
      have hValid := T.valid_call conn .commit hDone.ready.valid
      obtain ⟨hSame, _⟩ := Tabular.view_switched hValid hClose
      rw [Tabular.content_commit hDone.ready.valid hCommit] at hSame
      constructor
      · show (T.view conn (Driver.call conn (.setAutoCommit true) (Driver.call
          conn .commit done.env.driver).2).2).content.Suit p.schema
        rw [hSame]
        exact hDone.ready.suit
      · intro key values hSnapshot
        show (T.view conn (Driver.call conn (.setAutoCommit true) (Driver.call
          conn .commit done.env.driver).2).2).content.Has p.schema key values
        rw [hSame]
        rcases hDone.mirrored key values hSnapshot with
          hHas | ⟨_, _, hMem, _, _⟩
        · exact hHas
        · cases hMem

/-- After work that has succeeded its connection is in no transaction. -/
theorem clean_of_performed {conn : ConnId} {inTransaction : Bool}
    {actions : List Action} {work after : Work σ}
    (hValid : T.Valid work.env.driver)
    (h : Performed p conn inTransaction actions work (.ok ()) after) :
    T.Clean conn after.env.driver := by
  cases h with
  | @committed _ done _ hRun _ hClose =>
      obtain ⟨_, _, ⟨calls, hMade, _⟩, _⟩ := Action.executeAll_made hRun
      have hOpened : T.Valid (opened conn inTransaction work).env.driver := by
        cases inTransaction with
        | false => exact hValid
        | true => exact T.valid_call conn _ hValid
      have hDone : T.Valid done.env.driver := by
        rw [hMade.driver]
        exact Tabular.valid_after hOpened
      exact (Tabular.view_switched (T.valid_call conn .commit hDone)
        hClose).2 rfl

/-- After the work of a flush only its connection can be in a transaction. -/
theorem quiet_of_performed {conn : ConnId} {inTransaction : Bool}
    {actions : List Action} {work after : Work σ} {r : Except Error Unit}
    (hQuiet : T.Quiet work.env.driver)
    (h : Performed p conn inTransaction actions work r after) :
    T.Valid after.env.driver ∧ ∀ calls,
      T.Clean conn (Driver.after conn calls after.env.driver) →
        T.Quiet (Driver.after conn calls after.env.driver) := by
  obtain ⟨_, _, ⟨made, hMade, _⟩, _⟩ := performed_made h
  constructor
  · rw [hMade.driver]
    exact Tabular.valid_after hQuiet.valid
  · intro calls hClean
    have hAfter : Driver.after conn calls after.env.driver =
        Driver.after conn (made ++ calls) work.env.driver := by
      rw [hMade.driver, Driver.after, Driver.after, Driver.after,
        List.foldl_append]
    rw [hAfter] at hClean ⊢
    exact hQuiet.after hClean

/-- No flush leaves a connection in a transaction. -/
theorem quiet_of_flushed {scope after : Scope σ} {r : Except Error Unit}
    (hQuiet : T.Quiet scope.env.driver) (h : Flushed p scope r after) :
    T.Quiet after.env.driver := by
  cases h with
  | closed _ => exact hQuiet
  | unreadable _ _ => exact hQuiet
  | idle _ _ _ => exact hQuiet
  | unconnected _ _ _ _ _ => exact hQuiet
  | committed _ _ _ _ hRun =>
      exact (quiet_of_performed hQuiet hRun).2 []
        (clean_of_performed hQuiet.valid hRun)
  | rolledBack _ _ _ _ hRun hRollback =>
      obtain ⟨hValid, hStill⟩ := quiet_of_performed hQuiet hRun
      exact hStill [.rollback, .setAutoCommit true]
        (T.committed_rollback hValid hRollback).1
  | @discarded _ _ conn _ _ _ _ _ _ _ _ hRun hRollback =>
      obtain ⟨hValid, hStill⟩ := quiet_of_performed hQuiet hRun
      exact hStill [.rollback, .close]
        (Tabular.view_close conn (T.valid_call conn .rollback hValid)).1

/-- A flush makes its calls on one connection, if it makes any. -/
theorem made_of_flushed {scope after : Scope σ} {r : Except Error Unit}
    (h : Flushed p scope r after) :
    after.env = scope.env ∨
      ∃ conn calls, scope.env.Made conn calls after.env := by
  cases h with
  | closed _ => exact Or.inl rfl
  | unreadable _ _ => exact Or.inl rfl
  | idle _ _ _ => exact Or.inl rfl
  | unconnected _ _ _ _ _ => exact Or.inl rfl
  | committed _ _ _ _ hRun =>
      obtain ⟨_, _, ⟨calls, hMade, _⟩, _⟩ := performed_made hRun
      exact Or.inr ⟨_, calls, hMade⟩
  | rolledBack _ _ _ _ hRun _ =>
      obtain ⟨_, _, ⟨calls, hMade, _⟩, _⟩ := performed_made hRun
      exact Or.inr ⟨_, _, (hMade.called .rollback).called (.setAutoCommit true)⟩
  | discarded _ _ _ _ hRun _ =>
      obtain ⟨_, _, ⟨calls, hMade, _⟩, _⟩ := performed_made hRun
      exact Or.inr ⟨_, _, (hMade.called .rollback).called .close⟩

/-! ## Flushes that fail outside of a transaction -/

/-- Idle calls leave exposed what was. -/
theorem exposed_called {conn : ConnId} {saved : Context} {start env : Env σ}
    {actions : List Action} (h : start.Exposed T p conn saved actions env)
    (c : Call) (hIdle : c.Idle) :
    start.Exposed T p conn saved actions (env.called conn c) := by
  refine h.unchanged ?_ (Tabular.view_idle h.valid h.clean hIdle) rfl rfl
  rintro statement params affected rfl
  cases hIdle

/-- What has become of the rows when the flush has failed on a connection. -/
theorem exposed_of_flushed (hApart : p.schema.Apart) {scope after : Scope σ}
    {e : Error} (h : Settled T p scope) (hTidy : Tidy p scope)
    (hAccepted : scope.heap.Accepted p.schema)
    (hOutside : scope.session.inTransaction = false)
    (hFlushed : Flushed p scope (.error e) after) :
    after.env = scope.env ∨ ∃ conn,
      scope.env.Exposed T p conn scope.session.context [] after.env := by
  -- What the work on the connection has left, whatever comes of it.
  have hWork : ∀ {dirty ctx conn work} {r : Except Error Unit},
      scope.session.context.diff p.schema scope.heap = .ok (dirty, ctx) →
      Performed p conn scope.session.inTransaction
        (scope.session.planned dirty) ⟨scope.env, ctx⟩ r work →
      scope.env.Exposed T p conn scope.session.context [] work.env := by
    intro dirty ctx conn work r hDiff hRun
    rw [hOutside] at hRun
    have hReady := h.ready hTidy hAccepted hDiff conn
    have hStart : scope.env.Exposed T p conn scope.session.context
        (scope.session.planned dirty) scope.env :=
      ⟨h.quiet.valid, h.quiet.clean conn, hReady.suit, [], .refl .., Or.inl
        ⟨Driver.not_carried_nil, fun _ _ hHas => hHas⟩⟩
    have hAll : ∀ {r : Except Error Unit} {done : Work σ},
        (Action.executeAll p conn (scope.session.planned dirty)).run
          (opened conn false ⟨scope.env, ctx⟩) = (r, done) →
        scope.env.Exposed T p conn scope.session.context [] done.env := by
      intro r done hExecuted
      have hDone := hStart.executeAll hApart hReady
      exact (congrArg (fun result => result.2.env) hExecuted) ▸ hDone
    cases hRun with
    | unopened hIn _ => cases hIn
    | failed _ hExecuted => exact hAll hExecuted
    | uncommitted _ hExecuted _ =>
        exact exposed_called (hAll hExecuted) .commit trivial
    | committed _ hExecuted _ _ =>
        exact exposed_called (exposed_called (hAll hExecuted) .commit trivial)
          (.setAutoCommit true) rfl
  cases hFlushed with
  | closed _ => exact Or.inl rfl
  | unreadable _ _ => exact Or.inl rfl
  | unconnected _ _ _ _ _ => exact Or.inl rfl
  | rolledBack _ hDiff _ _ hRun _ =>
      exact Or.inr ⟨_, exposed_called (exposed_called (hWork hDiff hRun)
        .rollback trivial) (.setAutoCommit true) rfl⟩
  | discarded _ hDiff _ _ hRun _ =>
      exact Or.inr ⟨_, exposed_called (exposed_called (hWork hDiff hRun)
        .rollback trivial) .close trivial⟩

/-- A flush that fails puts the context back. -/
theorem context_of_flushed {scope after : Scope σ} {e : Error}
    (h : Flushed p scope (.error e) after) :
    after.session.context = scope.session.context := by
  cases h <;> rfl

/-- A flush keeps snapshots those of rows, unless it fails outside of a
transaction when it has updated or deleted rows. -/
theorem Settled.flush (hApart : p.schema.Apart) {scope after : Scope σ}
    {r : Except Error Unit} (h : Settled T p scope) (hTidy : Tidy p scope)
    (hAccepted : scope.heap.Accepted p.schema)
    (hFlushed : Flushed p scope r after)
    (hWhole : ∀ e, r = .error e → scope.session.inTransaction = false →
      ∀ conn calls, scope.env.Made conn calls after.env →
        ¬ Driver.Carried conn calls scope.env.driver) :
    Settled T p after := by
  have hQuiet := quiet_of_flushed h.quiet hFlushed
  cases r with
  | ok _ =>
      cases hFlushed with
      | idle _ _ _ => exact h
      | @committed _ _ conn _ _ _ hDiff _ _ hRun =>
          obtain ⟨hSuit, hHas⟩ := performed_mirrors hApart
            (h.mirroring hTidy hAccepted hDiff conn) hRun
          exact settled_of_content hQuiet hSuit hHas
  | error e =>
      have hContext := context_of_flushed hFlushed
      cases hIn : scope.session.inTransaction with
      | true =>
          obtain ⟨conn, hConn⟩ := scope.exists_unique_conn
          obtain ⟨hSame, _⟩ := flushed_all_or_nothing hIn hConn h.quiet.valid
            (h.quiet.clean conn) hFlushed
          exact h.of_eq hQuiet (fun _ _ hV => hContext ▸ hV) conn hSame
      | false =>
          rcases exposed_of_flushed hApart h hTidy hAccepted hIn hFlushed with
            hSame | ⟨conn, hExposed⟩
          · exact h.of_eq hQuiet (fun _ _ hV => hContext ▸ hV) 0
              (by rw [hSame])
          · obtain ⟨calls, hMade, ⟨_, hKept⟩ | ⟨hCarried, _⟩⟩ := hExposed.made
            · refine settled_of_content hQuiet hExposed.suit
                fun key values hSnapshot => ?_
              rw [hContext] at hSnapshot
              exact hKept key values ((h.content conn).2 key values hSnapshot)
            · exact absurd hCarried (hWhole e rfl hIn conn calls hMade)

/-- A flush that does so leaves a snapshot that is not that of a row. -/
theorem not_mirrored_of_carried (hApart : p.schema.Apart)
    {scope after : Scope σ} {e : Error} (h : Settled T p scope)
    (hTidy : Tidy p scope) (hAccepted : scope.heap.Accepted p.schema)
    (hOutside : scope.session.inTransaction = false)
    (hFlushed : Flushed p scope (.error e) after) {conn : ConnId}
    {calls : List Call} (hMade : scope.env.Made conn calls after.env)
    (hCarried : Driver.Carried conn calls scope.env.driver) :
    ¬ Mirrored T p after := by
  have hSome : calls ≠ [] := by
    rintro rfl
    exact Driver.not_carried_nil hCarried
  have hQuiet := quiet_of_flushed h.quiet hFlushed
  rcases exposed_of_flushed hApart h hTidy hAccepted hOutside hFlushed with
    hSame | ⟨other, hExposed⟩
  · rw [hSame] at hMade
    exact absurd (hMade.unique (.refl conn scope.env)).1.symm hSome
  · obtain ⟨others, hOthers, hParted⟩ := hExposed.made
    obtain ⟨rfl, hConn⟩ := hMade.unique hOthers
    cases hConn hSome
    rcases hParted with ⟨hNot, _⟩ | ⟨_, _, key, old, hOld, hMissing⟩
    · exact absurd hCarried hNot
    · intro hMirrored
      rw [← context_of_flushed hFlushed] at hOld
      have hHas := hMirrored conn key old hOld
      rw [Tabular.committed_of_clean (hQuiet.clean conn)] at hHas
      exact hMissing hHas

/-! ## Loads -/

/-- What is known of the rows that a query finds in some tables. -/
def RowsOf (tables : Tables) (plan : Plan) (row : Row) : Prop :=
  ∀ table, plan.Selects table → row ∈ tables.shown table

/-- The work of a load: no connection is in a transaction, the tables are
those that they were, and the snapshots are those of rows. -/
structure Reading (T : Tabular σ) (p : Persister) (tables : Tables)
    (work : Work σ) : Prop where
  quiet : T.Quiet work.env.driver
  committed : ∀ conn, T.committed conn work.env.driver = tables
  mirrored : ∀ key values, work.context.snapshot? key = some values →
    tables.Has p.schema key values

theorem keeps_reading (conn : ConnId) (session : Option Nat)
    (tables : Tables) :
    Loader.Keeps ⟨p, conn, session⟩ (RowsOf tables)
      (Reading (σ := σ) T p tables) where
  query := by
    intro work d plan _ hPlan hI
    obtain ⟨hQuiet, hSame⟩ := hI.quiet.idle conn
      (c := .query plan.statement plan.params) hPlan.isQuery
    refine ⟨⟨hQuiet, ?_, hI.mirrored⟩, ?_⟩
    · intro other
      exact (hQuiet.committed_eq other conn).trans
        (hSame.trans (hI.committed conn))
    · intro found hFound row hRow table hTable
      obtain ⟨outcome, after, hRun, rfl⟩ :=
        T.tells conn (.query plan.statement plan.params) found hI.quiet.valid
          hFound hPlan.isQuery
      rw [← Tabular.committed_of_clean (hI.quiet.clean conn),
        hI.committed conn] at hRun
      exact Tables.mem_shown_of_query hTable hRun hRow
  register := by
    intro work d row e id hKnows hFound hRead hId _ hI
    refine ⟨hI.quiet, hI.committed, ?_⟩
    intro key values hSnapshot
    rcases Context.snapshot?_of_register hSnapshot with
      ⟨rfl, rfl⟩ | ⟨_, hBefore⟩
    · obtain ⟨plan, hPlan, hRow⟩ := hFound
      exact ⟨d, hKnows, row, hRow d.table hPlan, e, hRead, hId, rfl⟩
    · exact hI.mirrored key values hBefore
  assign := fun _ _ _ _ hI => ⟨hI.quiet, hI.committed, hI.mirrored⟩
  inspect := fun _ hI => ⟨hI.quiet, hI.committed, hI.mirrored⟩

/-- A load keeps snapshots those of rows. -/
theorem Settled.withLoader {α : Type} {shared : Bool} {scope : Scope σ}
    {load : Loader → Step (Work σ) α} (h : Settled T p scope)
    (hLoad : Loader.Leading load) :
    Settled T p ((Session.withLoader p shared load).run scope).2 := by
  have hStart : Reading T p (T.committed 0 scope.env.driver)
      (⟨scope.env, loadStart shared scope⟩ : Work σ) := by
    refine ⟨h.quiet, fun conn => h.quiet.committed_eq conn 0, ?_⟩
    intro key values hSnapshot
    cases shared with
    | true => exact h.mirrored 0 key values hSnapshot
    | false => cases hSnapshot
  have hLoaded := loaded p shared load scope fun conn _ _ =>
    hLoad (keeps_reading conn _ _) hStart
  generalize (Session.withLoader p shared load).run scope = result at hLoaded ⊢
  obtain ⟨r, after⟩ := result
  cases hLoaded with
  | unconnected _ _ => exact h
  | failed _ hI =>
      exact h.of_eq hI.quiet (fun _ _ hV => hV) 0 (hI.committed 0)
  | @done _ _ work _ _ hI _ _ =>
      cases shared with
      | false => exact h.of_eq hI.quiet (fun _ _ hV => hV) 0 (hI.committed 0)
      | true =>
          refine ⟨hI.quiet, ?_, ?_⟩
          · intro conn
            show (T.committed conn work.env.driver).Suit p.schema
            rw [hI.committed]
            exact h.suit 0
          · intro conn key values hSnapshot
            show (T.committed conn work.env.driver).Has p.schema key values
            rw [hI.committed]
            exact hI.mirrored key values hSnapshot

/-! ## Requests -/

/-- An idle call keeps snapshots those of rows. -/
theorem Settled.called {scope : Scope σ} (h : Settled T p scope)
    (conn : ConnId) (c : Call) (hIdle : c.Idle) :
    Settled T p (scope.withEnv (scope.env.called conn c)) := by
  obtain ⟨hQuiet, hSame⟩ := h.quiet.idle conn hIdle
  exact h.of_eq hQuiet (fun _ _ hV => hV) conn hSame

/-- Every request keeps snapshots those of rows, unless it tears. -/
theorem Settled.perform (hApart : p.schema.Apart) {scope : Scope σ}
    {op : Operation} (h : Settled T p scope) (hTidy : Tidy p scope)
    (hAccepted : scope.heap.Accepted p.schema) (hWhole : ¬ Torn p op scope) :
    Settled T p (op.perform p scope) := by
  by_cases hCommit : op = .commit ∧ scope.session.inTransaction = false
  · obtain ⟨rfl, hOutside⟩ := hCommit
    show Settled T p ((commit p).run scope).2
    rw [commit_run, hOutside]
    exact h
  · refine perform_keeps (I := Settled T p) h ?_ ?_ ?_
      (fun shared load hLoad s hS => hS.withLoader hLoad)
      (fun s _ _ hS => ⟨hS.quiet, hS.suit, hS.mirrored⟩) ?_ ?_ ?_
    · exact fun ref _ => persist_keeps (I := Settled T p) h
        ⟨h.quiet, h.suit, h.mirrored⟩
    · exact fun ref _ => remove_keeps (I := Settled T p) h
        ⟨h.quiet, h.suit, h.mirrored⟩
    · intro hOp
      refine h.flush hApart hTidy hAccepted (flushed p scope)
        fun e hError hOutside conn calls hMade hCarried => ?_
      refine hWhole ⟨hOp, fun hEq => hCommit ⟨hEq, hOutside⟩, hOutside,
        ⟨e, hError⟩, conn, calls, hMade, hCarried⟩
    · exact fun _ s hS => ⟨hS.quiet, hS.suit, fun _ _ _ hV => by cases hV⟩
    · intro _ s hS
      rcases releaseConnection_cases s with
        hSame | ⟨conn, _, pool, hKept | hClosed⟩
      · rw [hSame]
        exact hS
      · rw [hKept]
        exact ⟨hS.quiet, hS.suit, hS.mirrored⟩
      · rw [hClosed]
        have hDone := hS.called conn .close trivial
        exact ⟨hDone.quiet, hDone.suit, hDone.mirrored⟩
    · intro _ s hS
      have hRolledBack := rolledBack s
      generalize (rollbackConnection.run s).2 = after at hRolledBack ⊢
      cases hRolledBack with
      | none _ => exact hS
      | @done conn _ _ =>
          exact (hS.called conn .rollback trivial).called conn
            (.setAutoCommit true) rfl
      | @discarded conn _ _ _ =>
          have hDone := (hS.called conn .rollback trivial).called conn .close
            trivial
          exact ⟨hDone.quiet, hDone.suit, hDone.mirrored⟩

/-- A request that tears leaves a snapshot that is not that of a row. -/
theorem Torn.not_mirrored (hApart : p.schema.Apart) {scope : Scope σ}
    {op : Operation} (hTorn : Torn p op scope) (h : Settled T p scope)
    (hTidy : Tidy p scope) (hAccepted : scope.heap.Accepted p.schema) :
    ¬ Mirrored T p (op.perform p scope) := by
  obtain ⟨hOp, hCommit, hOutside, ⟨e, hError⟩, conn, calls, hMade, hCarried⟩ :=
    hTorn
  have hFlushed := flushed p scope
  rw [hError] at hFlushed
  rw [perform_of_flush_error hOp hCommit hError]
  exact not_mirrored_of_carried hApart h hTidy hAccepted hOutside hFlushed hMade
    hCarried

/-! ## Runs -/

/-- What is asked of a session that does not tear: the instances hold values
that their fields accept. -/
def Sound (p : Persister) (scope : Scope σ) (op : Operation) : Prop :=
  Proper scope op ∧ scope.heap.Accepted p.schema ∧ ¬ Torn p op scope

/-- What happens outside of a session that is the only one to write. -/
def Undisturbed (p : Persister) (scope : Scope σ) (backend : Backend σ) :
    Prop :=
  Respects p scope backend ∧ backend.env.driver = scope.env.driver

theorem settled_of_reaches (hApart : p.schema.Apart) {start scope : Scope σ}
    (hTidy : Tidy p start) (hSettled : Settled T p start)
    (h : Reaches p (Sound p) (Undisturbed p) start scope) :
    Tidy p scope ∧ Settled T p scope := by
  refine h.invariant (I := fun scope => Tidy p scope ∧ Settled T p scope)
    (fun scope op ⟨hTidy, hSettled⟩ ⟨hProper, hAccepted, hWhole⟩ => ?_)
    (fun scope backend ⟨hTidy, hSettled⟩ ⟨hRespects, hDriver⟩ => ?_)
    ⟨hTidy, hSettled⟩
  · exact ⟨hTidy.perform hApart.identifierAlone hProper,
      hSettled.perform hApart hTidy hAccepted hWhole⟩
  · refine ⟨hTidy.outside hRespects, ?_⟩
    have hQuiet : T.Quiet backend.env.driver := by
      rw [hDriver]
      exact hSettled.quiet
    refine hSettled.of_eq hQuiet (fun _ _ hV => hV) 0 ?_
    show T.committed 0 backend.env.driver = T.committed 0 scope.env.driver
    rw [hDriver]

/-- On every run of a session that is the only one to write and has not torn
anything, each snapshot is what the row with its key reads as. From there every
request leaves it so, whatever comes of it, exactly if it does not flush outside
of a transaction and fail when it has updated or deleted rows. -/
theorem snapshots_mirror_rows (hApart : p.schema.Apart)
    {start scope : Scope σ} (hContext : start.session.context = {})
    (hQueue : start.session.queue = {}) (hQuiet : T.Quiet start.env.driver)
    (hSuit : ∀ conn, (T.committed conn start.env.driver).Suit p.schema)
    (hReaches : Reaches p (Sound p) (Undisturbed p) start scope) :
    Mirrored T p scope ∧ (scope.heap.Accepted p.schema → ∀ op,
      (Mirrored T p (op.perform p scope) ↔ ¬ Torn p op scope)) := by
  have hTidy : Tidy p start := by
    refine tidy_of_coherent ?_ hQueue
    rw [hContext]
    exact Context.coherent_empty
  have hSettled : Settled T p start := by
    refine ⟨hQuiet, hSuit, ?_⟩
    intro conn key values hSnapshot
    rw [hContext] at hSnapshot
    cases hSnapshot
  obtain ⟨hTidy, hSettled⟩ := settled_of_reaches hApart hTidy hSettled hReaches
  refine ⟨hSettled.mirrored, ?_⟩
  intro hAccepted op
  constructor
  · intro hMirrored hTorn
    exact hTorn.not_mirrored hApart hSettled hTidy hAccepted hMirrored
  · intro hWhole
    exact (hSettled.perform hApart hTidy hAccepted hWhole).mirrored

end Session

namespace Notes

/-- The second update fails. -/
def refusal : Fault := ⟨"UPDATE", 1, 1, .failure "no"⟩

/-- A session on a store with two notes that refuses the second update. -/
def shelf : Scope Store where
  backend := ⟨{ driver := { store [[.int 1, .text "a"], [.int 2, .text "b"]]
                with faults := [refusal] } },
    { size := 1, idle := [], leased := [0] }⟩
  session := { id := 0, connection := some 0 }

/-- Both notes have been looked up. -/
def taken : Scope Store :=
  (Operation.find "Note" (.int 2)).perform persister
    ((Operation.find "Note" (.int 1)).perform persister shelf)

/-- An instance with another title. -/
def retitled (ref : Ref) (title : String) (backend : Backend Store) :
    Backend Store :=
  { backend with
    env := backend.env.update ref fun e =>
      e.set "title" (.scalar (.text title)) }

/-- Both notes have new titles. -/
def renamed : Scope Store :=
  { taken with backend := retitled 1 "y" (retitled 0 "x" taken.backend) }

/-- After the flush they have their old titles again. -/
def restored : Scope Store :=
  let flushed := Operation.flush.perform persister renamed
  { flushed with backend := retitled 1 "b" (retitled 0 "a" flushed.backend) }

theorem apart_schema : Schema.Apart schema := by
  constructor
  · intro type d hD m hM m' hM' hField
    obtain ⟨_, rfl⟩ := descriptor_schema hD
    simp only [List.mem_cons, List.not_mem_nil, or_false] at hM hM'
    rcases hM with rfl | rfl <;> rcases hM' with rfl | rfl <;>
      first | rfl | exact absurd hField (by decide)
  · intro type type' d d' hD hD' _
    rw [(descriptor_schema hD).1, (descriptor_schema hD').1]

/-- Whether an instance has a number and a title. -/
def isNote (x : Instance) : Bool :=
  match x.scalar "id", x.scalar "title" with
  | .int _, .text _ => true
  | _, _ => false

/-- Numbers and titles are accepted. -/
theorem accepted_of_isNote {heap : Heap}
    (h : heap.instances.all isNote = true) : heap.Accepted schema := by
  intro ref hLt d hD
  obtain ⟨_, rfl⟩ := descriptor_schema hD
  have hNote : isNote (heap.get ref) = true := by
    rw [Heap.get, List.getElem?_eq_getElem hLt]
    exact List.all_eq_true.1 h _ (List.getElem_mem hLt)
  generalize heap.get ref = x at hNote ⊢
  have hCases : ∀ c ∈ Descriptor.scalarColumns ⟨"Note", "notes",
      [.column number, .column title], number⟩, c = number ∨ c = title := by
    decide
  unfold isNote at hNote
  split at hNote
  · rename_i hNumber hTitle
    constructor
    · intro c hC type hType
      rcases hCases c hC with rfl | rfl
      · cases hType
        rw [FieldType.Holds, number, hNumber]
        rfl
      · cases hType
        rw [FieldType.Holds, title, hTitle]
        rfl
    · intro c hC
      rcases hCases c hC with rfl | rfl
      · simp [number, hNumber, Value.equal]
      · simp [title, hTitle, Value.equal]
  · cases hNote

/-- Another title is no other key. -/
theorem undisturbed_retitled (scope : Scope Store) (ref : Ref)
    (title : String) :
    Session.Undisturbed persister scope
      (retitled ref title scope.backend) := by
  refine ⟨⟨Nat.le_of_eq (Heap.next_modify ..).symm, ?_⟩, rfl⟩
  intro key other _ hBears
  by_cases hChanged : other = ref ∧ ref < scope.heap.next
  · obtain ⟨rfl, hLt⟩ := hChanged
    obtain ⟨hType, d, hD, hId⟩ := hBears
    obtain ⟨_, rfl⟩ := descriptor_schema hD
    have hGet : (retitled other title scope.backend).env.heap.get other =
        (scope.heap.get other).set "title" (.scalar (.text title)) :=
      Heap.get_modify_self hLt _
    refine ⟨?_, _, hD, ?_⟩
    · rw [hGet, Instance.type_set]
      exact hType
    · rw [hGet, Descriptor.entityId, Descriptor.idValue,
        Instance.scalar_set_ne _ (by decide)]
      exact hId
  · refine hBears.of_get_eq ?_
    by_cases hEq : other = ref
    · have hLe := Nat.le_of_not_lt fun hLt => hChanged ⟨hEq, hLt⟩
      exact congrArg (Heap.get · other) (Heap.modify_of_le hLe _)
    · exact Heap.get_modify_ne _ hEq _

theorem quiet_shelf : Store.tabular.Quiet shelf.env.driver where
  valid := ⟨rfl, rfl, fun f hMem => by
    rw [List.mem_singleton.1 hMem]
    exact ⟨⟨_, rfl⟩, by decide, by decide⟩⟩
  clean := fun _ => ⟨rfl, rfl⟩

theorem suit_shelf (conn : ConnId) :
    (Store.tabular.committed conn shelf.env.driver).Suit schema := by
  intro type d hD t hT
  obtain ⟨_, rfl⟩ := descriptor_schema hD
  cases hT
  refine ⟨?_, ?_, fun n hNone => by cases hNone⟩
  · show List.Pairwise _ ["id", "title"]
    decide
  · show ∀ row ∈ [[Value.int 1, .text "a"], [.int 2, .text "b"]],
      row.length = 2
    decide

/-- The notes are looked up and given new titles without anything torn. -/
theorem reaches_renamed :
    Session.Reaches persister (Session.Sound persister)
      (Session.Undisturbed persister) shelf renamed := by
  have hFind : ∀ {scope : Scope Store} (n : Int),
      scope.heap.instances.all isNote = true →
      ((Session.flush persister).run scope).1.isOk = true →
      Session.Sound persister scope (.find "Note" (.int n)) := by
    intro scope n hNotes hOk
    refine ⟨trivial, accepted_of_isNote hNotes, ?_⟩
    intro hTorn
    obtain ⟨_, _, _, ⟨e, hError⟩, _⟩ := hTorn
    rw [hError] at hOk
    cases hOk
  exact (((Session.Reaches.start.operation (.find "Note" (.int 1))
    (hFind 1 rfl (by decide +kernel))).operation (.find "Note" (.int 2))
    (hFind 2 (by decide +kernel) (by decide +kernel))).outside
    (retitled 0 "x" taken.backend) (undisturbed_retitled ..)).outside
    (retitled 1 "y" (retitled 0 "x" taken.backend)) (undisturbed_retitled ..)

/-- Whether the first call updates or deletes rows and is carried out. -/
def firstCarried (store : Store) : List (ConnId × Call) → Bool
  | (conn, .execute statement params) :: _ =>
    (Driver.call conn (.execute statement params) store).1.isOk
  | _ => false

theorem carried_of_firstCarried {conn : ConnId} {calls : List Call}
    {store : Store} (h : firstCarried store (Call.on conn calls) = true) :
    Driver.Carried conn calls store := by
  cases calls with
  | nil => cases h
  | cons c rest =>
      cases c with
      | execute statement params =>
          have hOk : (Driver.call conn (.execute statement params)
              store).1.isOk = true := h
          cases hCall : (Driver.call conn (.execute statement params)
              store).1 with
          | error e =>
              rw [hCall] at hOk
              cases hOk
          | ok affected =>
              exact ⟨[], statement, params, affected, ⟨rest, rfl⟩, hCall⟩
      | _ => cases h

/-- The flush of the new titles fails when the first one has been written. -/
theorem torn_renamed : Session.Torn persister .flush renamed := by
  have hFails : ((Session.flush persister).run renamed).1.isOk = false := by
    decide +kernel
  have hFirst : firstCarried renamed.env.driver
      (((Session.flush persister).run renamed).2.env.trace.drop
        renamed.env.trace.length) = true := by
    decide +kernel
  have hFlushed := Session.flushed persister renamed
  unfold Session.Torn
  generalize (Session.flush persister).run renamed = result
    at hFails hFirst hFlushed ⊢
  obtain ⟨_ | e, after⟩ := result
  · refine ⟨rfl, by simp, by decide +kernel, ⟨_, rfl⟩, ?_⟩
    rcases Session.made_of_flushed hFlushed with hSame | ⟨conn, calls, hMade⟩
    · rw [hSame, List.drop_length] at hFirst
      cases hFirst
    · rw [hMade.trace, List.drop_left] at hFirst
      exact ⟨conn, calls, hMade, carried_of_firstCarried hFirst⟩
  · cases hFails

end Notes

/-- A flush without a transaction that fails at its second update leaves the
snapshots of the titles as they were, but not the titles; what is then given
its old title is not even written. In a transaction it leaves both. -/
theorem Session.snapshots_mirror_rows_of_notes :
    Mirrored Store.tabular Notes.persister Notes.renamed ∧
    ¬ Mirrored Store.tabular Notes.persister
      (Operation.flush.perform Notes.persister Notes.renamed) ∧
    ((flush Notes.persister).run Notes.restored).2.env.trace.length =
      Notes.restored.env.trace.length ∧
    Mirrored Store.tabular Notes.persister
      (Operation.flush.perform Notes.persister
        (Operation.begin.perform Notes.persister Notes.renamed)) := by
  have hAccepted : Notes.renamed.heap.Accepted Notes.schema :=
    Notes.accepted_of_isNote (by decide +kernel)
  have hBegun : Reaches Notes.persister (Sound Notes.persister)
      (Undisturbed Notes.persister) Notes.shelf
      (Operation.begin.perform Notes.persister Notes.renamed) :=
    Notes.reaches_renamed.operation .begin
      ⟨trivial, hAccepted, fun hTorn => by cases hTorn.1⟩
  obtain ⟨hMirrored, hFlush⟩ := snapshots_mirror_rows Notes.apart_schema rfl rfl
    Notes.quiet_shelf Notes.suit_shelf Notes.reaches_renamed
  refine ⟨hMirrored, fun h => (hFlush hAccepted .flush).1 h Notes.torn_renamed,
    by decide +kernel, ?_⟩
  refine ((snapshots_mirror_rows Notes.apart_schema rfl rfl Notes.quiet_shelf
    Notes.suit_shelf hBegun).2 ?_ .flush).2 fun hTorn => ?_
  · exact Notes.accepted_of_isNote (by decide +kernel)
  · obtain ⟨_, _, hOutside, _⟩ := hTorn
    exact absurd hOutside (by decide +kernel)

end UnitOfWork

import UnitOfWork.Proofs.Calls
import UnitOfWork.Proofs.Runs
import UnitOfWork.Proofs.Stores

/-!
# A flush in a transaction is all or nothing

On a connection that is clean when the flush starts, the statements of a flush
in a transaction are collected in one transaction of the database. What each
action keeps is that the statements carried out so far are in that
transaction and nothing of it is committed (`Transactions.Joined`). Either all
of it is committed, or all of it is taken back: by the rollback, or by the
loss of the connection that cannot be rolled back. In the end nothing is open
(`Transactions.AtRest`).

## Main results

* `Session.writesPlanned_of_moved`: the statements of a flush are those of what
  it has planned;
* `Session.flush_all_or_nothing`: they take effect together or not at all, for
  every way to flush a session.
-/

namespace UnitOfWork

variable {σ γ : Type}

/-! ## The actions -/

namespace Transactions

variable [Driver σ] {T : Transactions σ γ} {conn : ConnId} {start : γ}
  {p : Persister} {before env after : Env σ}

/-- The calls made since then are those of a transaction that is not
committed. -/
def Writing (T : Transactions σ γ) (conn : ConnId) (start : γ)
    (before env : Env σ) : Prop :=
  ∃ calls, before.Made conn calls env ∧
    T.Joined conn start (calls.filterMap Call.write?) env.driver

/-- Nothing is committed. -/
def Untouched (T : Transactions σ γ) (conn : ConnId) (start : γ)
    (env : Env σ) : Prop :=
  T.Valid env.driver ∧ T.committed conn env.driver = start

theorem Writing.untouched (h : T.Writing conn start before env) :
    T.Untouched conn start env := by
  obtain ⟨calls, _, hJoined⟩ := h
  exact ⟨hJoined.valid, hJoined.collects.committed⟩

/-- A write that is carried out joins the transaction. -/
theorem Writing.call {c : Call} {answer : c.Answer}
    (h : T.Writing conn start before env) {write : Statement × List Value}
    (hWrite : c.write? = some write) (hQuery : write.1.isQuery = false)
    (hCall : (Driver.call conn c env.driver).1 = .ok answer)
    (hAfter : after = { p.calling conn c env with heap := after.heap }) :
    T.Writing conn start before after := by
  obtain ⟨calls, hMade, hJoined⟩ := h
  refine ⟨calls ++ [c], hMade.trans (p.made_calling hAfter), ?_⟩
  have hNext := T.joined_write hJoined hWrite hQuery hCall
  rw [hAfter]
  simpa [List.filterMap_append, hWrite] using hNext

/-- What is written one action after another stays in the transaction. -/
theorem executeAll_writing (actions : List Action) {work : Work σ}
    (h : T.Writing conn start before work.env) :
    match (Action.executeAll p conn actions).run work with
    | (.ok _, after) => T.Writing conn start before after.env
    | (.error _, after) => T.Untouched conn start after.env := by
  refine Action.executeAll_induct
    (I := fun _ work => T.Writing conn start before work.env)
    (J := fun work => T.Untouched conn start work.env) ?_ ?_ h
  · intro action rest work after hWriting hExecuted
    cases hExecuted with
    | skipped hPlan hFollow => exact hWriting
    | done hPlan hCall hCount hKey hFollow =>
        obtain ⟨write, hWrite, hQuery⟩ := Action.write_of_call? hPlan
        exact hWriting.call hWrite hQuery hCall hKey.env_eq.1
  · intro action rest work after e hWriting hExecuted
    cases hExecuted with
    | stopped _ => exact hWriting.untouched
    | refused hPlan hCall =>
        obtain ⟨write, hWrite, _⟩ := Action.write_of_call? hPlan
        have hStart := hWriting.untouched
        refine ⟨T.valid_call conn _ hStart.1, ?_⟩
        rw [Persister.driver_calling, committed_of_error hStart.1
          (Call.ne_connect_of_write? hWrite) hCall]
        exact hStart.2
    | unsettled _ hPlan hCall hEnv _ =>
        obtain ⟨write, hWrite, hQuery⟩ := Action.write_of_call? hPlan
        exact (hWriting.call hWrite hQuery hCall hEnv).untouched

/-! ## When nothing is open -/

/-- Nothing is open on a connection: no transaction has begun, and auto-commit
is on unless the last call has closed the connection. -/
def AtRest (T : Transactions σ γ) (conn : ConnId) (env : Env σ) : Prop :=
  (T.view conn env.driver).inTransaction = false ∧
    ((T.view conn env.driver).autoCommit = true ∨
      env.trace.getLast? = some (conn, .close))

/-- On a clean connection just `start` is committed. -/
structure Rests (T : Transactions σ γ) (conn : ConnId) (start : γ) (t : σ) :
    Prop where
  valid : T.Valid t
  clean : T.Clean conn t
  committed : T.committed conn t = start

/-- On a connection where nothing is open just `start` is committed. -/
structure Concluded (T : Transactions σ γ) (conn : ConnId) (start : γ)
    (env : Env σ) : Prop where
  committed : T.committed conn env.driver = start
  atRest : T.AtRest conn env

theorem Rests.concluded (h : T.Rests conn start env.driver) :
    T.Concluded conn start env :=
  ⟨h.committed, h.clean.2, Or.inl h.clean.1⟩

/-- Closing a connection takes back what was not committed. -/
theorem Untouched.close (h : T.Untouched conn start env) :
    T.Concluded conn start (env.called conn .close) := by
  refine ⟨(T.committed_close conn h.1).trans h.2,
    T.inTransaction_close conn h.1, Or.inr ?_⟩
  rw [Env.trace_called, List.getLast?_concat]

/-- A rollback and the switch to auto-commit take it back, too. -/
theorem Untouched.rollback (h : T.Untouched conn start env)
    (hRollback : (Driver.call conn .rollback env.driver).1 = .ok ()) :
    T.Rests conn start ((env.called conn .rollback).called conn
      (.setAutoCommit true)).driver := by
  obtain ⟨hClean, hBack⟩ := T.committed_rollback h.1 hRollback
  exact ⟨T.valid_call conn _ (T.valid_call conn _ h.1), hClean,
    hBack.trans h.2⟩

/-- A query leaves things as they are. -/
theorem Rests.query {t : σ} {statement : Statement} (h : T.Rests conn start t)
    (hQuery : statement.isQuery = true) (params : List Value) :
    T.Rests conn start (Driver.call conn (.query statement params) t).2 := by
  have hView := view_query h.valid h.clean hQuery params
  refine ⟨T.valid_call conn _ h.valid, ?_, ?_⟩
  · rw [Clean, hView]
    exact h.clean
  · rw [Transactions.committed, hView]
    exact h.committed

end Transactions

/-! ## What a flush has written -/

/-- A statement with its parameters carries out an action. -/
def Action.WrittenBy (schema : Schema) (inserted : Ref → Prop) (before : Heap)
    (action : Action) (write : Statement × List Value) : Prop :=
  ∃ c, action.CarriedBy schema inserted before c ∧ c.write? = some write

/-- The writes among some calls carry out the actions among the moves that they
make, in the same order. -/
theorem Move.forall₂_writes {schema : Schema} {inserted : Ref → Prop}
    {heap : Heap} {made : List Move} {calls : List Call}
    (h : List.Forall₂ (Move.MadeBy schema inserted heap) made calls) :
    List.Forall₂ (Action.WrittenBy schema inserted heap)
      (made.filterMap Move.action?) (calls.filterMap Call.write?) := by
  induction h with
  | nil => exact .nil
  | @cons move c made calls hMove _ ih =>
      cases move with
      | autoCommit on =>
          cases hMove
          exact ih
      | commit =>
          cases hMove
          exact ih
      | write action =>
          have hCarried : action.CarriedBy schema inserted heap c := hMove
          obtain ⟨⟨d, params, _, rfl⟩, _⟩ := hMove
          obtain ⟨kind, ref⟩ := action
          cases kind <;> exact .cons ⟨_, hCarried, rfl⟩ ih

namespace Session

variable [Driver σ] {T : Transactions σ γ} {conn : ConnId} {p : Persister}
  {scope after : Scope σ} {start : γ}

/-- These statements carry out what a flush has planned that finds these
entities dirty: there is one for each action that takes one, in their order.
(Where no updates wait, which is so after every run, that is the order of
`Session.ordered`.) -/
def WritesPlanned (p : Persister) (scope : Scope σ) (dirty : List Dirty)
    (writes : List (Statement × List Value)) : Prop :=
  List.Forall₂ (Action.WrittenBy p.schema
      (fun ref => ⟨.insert, ref⟩ ∈ scope.session.planned dirty) scope.heap)
    ((scope.session.planned dirty).filter
      (Action.sends p.schema scope.heap)) writes

/-- The calls that make the moves of a flush write what is planned. -/
theorem writesPlanned_of_moved {dirty : List Dirty} {env : Env σ}
    {calls : List Call} {inTransaction : Bool}
    (hMoved : Moved p conn (scope.session.planned dirty) scope.env
      (moves p.schema scope.heap inTransaction (scope.session.planned dirty))
      env) (hMade : scope.env.Made conn calls env) :
    WritesPlanned p scope dirty (calls.filterMap Call.write?) := by
  obtain ⟨others, hOthers, hMoves⟩ := hMoved
  cases (hMade.unique hOthers).1
  have hWrites := Move.forall₂_writes hMoves
  rw [filterMap_moves] at hWrites
  exact hWrites

/-! ## The flush -/

/-- Either everything that was called since has taken effect, or nothing is
committed. -/
def AllOrNothing (T : Transactions σ γ) (conn : ConnId) (before : Env σ) :
    Except Error Unit → Env σ → Prop
  | .ok _, after => ∃ calls content, before.Made conn calls after ∧
    T.runAll (calls.filterMap Call.write?)
      (T.committed conn before.driver) = .ok content ∧
        T.Rests conn content after.driver
  | .error _, after => T.Untouched conn (T.committed conn before.driver) after

/-- The work of a flush in a transaction is all or nothing. -/
theorem performed_all_or_nothing {actions : List Action} {work after : Work σ}
    {r : Except Error Unit} (hValid : T.Valid work.env.driver)
    (hClean : T.Clean conn work.env.driver)
    (h : Performed p conn true actions work r after) :
    AllOrNothing T conn work.env r after.env := by
  obtain ⟨hOpen, hJoined⟩ := T.joined_setAutoCommit hValid hClean
  have hOpened : T.Writing conn (T.committed conn work.env.driver)
      work.env (opened conn true work).env :=
    ⟨[.setAutoCommit false], (Env.Made.refl ..).called _, hJoined⟩
  have hActions := Transactions.executeAll_writing (p := p) actions
    hOpened
  cases h with
  | unopened _ hCall =>
      rw [hOpen] at hCall
      cases hCall
  | failed _ hRun =>
      rw [hRun] at hActions
      exact hActions
  | uncommitted _ hRun hCommit =>
      rw [hRun] at hActions
      obtain ⟨hStill, hCommitted⟩ := Transactions.Writing.untouched hActions
      refine ⟨T.valid_call conn .commit hStill, ?_⟩
      rw [Env.driver_called, Transactions.committed_of_error hStill (by simp)
        hCommit]
      exact hCommitted
  | @committed r done _ hRun hCommit hClose =>
      rw [hRun] at hActions
      obtain ⟨calls, hMade, hDone⟩ := hActions
      obtain ⟨hClosed, hAfter, hContent⟩ := T.committed_commit hDone hCommit
      rw [hClose] at hClosed
      subst hClosed
      have hNone : [Call.commit, .setAutoCommit true].filterMap
          Call.write? = [] := rfl
      refine ⟨calls ++ [.commit, .setAutoCommit true], _, ?_, ?_,
        T.valid_call conn _ (T.valid_call conn _ hDone.valid), hAfter, rfl⟩
      · rw [List.append_cons]
        exact (hMade.called .commit).called (.setAutoCommit true)
      · rw [List.filterMap_append, hNone, List.append_nil]
        exact hContent

/-- What comes of a flush: the statements that carry out what it has planned
have taken effect, or nothing is committed. Nothing is left open. -/
def Settles (T : Transactions σ γ) (p : Persister) (conn : ConnId)
    (scope : Scope σ) : Except Error Unit → Env σ → Prop
  | .ok _, after => ∃ dirty ctx calls content,
    scope.session.context.diff p.schema scope.heap = .ok (dirty, ctx) ∧
      scope.env.Made conn calls after ∧
      WritesPlanned p scope dirty (calls.filterMap Call.write?) ∧
      T.runAll (calls.filterMap Call.write?)
        (T.committed conn scope.env.driver) = .ok content ∧
          T.Rests conn content after.driver
  | .error _, after =>
    T.Concluded conn (T.committed conn scope.env.driver) after

/-- A flush in a transaction is all or nothing. -/
theorem flushed_all_or_nothing {r : Except Error Unit}
    (hTransaction : scope.session.inTransaction = true)
    (hConn : ∀ c pool, scope.Obtains c pool → c = conn)
    (hValid : T.Valid scope.env.driver)
    (hClean : T.Clean conn scope.env.driver)
    (h : Flushed p scope r after) : Settles T p conn scope r after.env := by
  have hStart : T.Rests conn (T.committed conn scope.env.driver)
      scope.env.driver := ⟨hValid, hClean, rfl⟩
  cases h with
  | closed _ => exact hStart.concluded
  | unreadable _ _ => exact hStart.concluded
  | idle _ hDiff hQueue =>
      have hNone : scope.session.planned [] = [] :=
        planned_eq_nil_iff.2 ⟨hQueue, rfl⟩
      refine ⟨[], _, [], _, hDiff, .refl .., ?_, rfl, hStart⟩
      rw [WritesPlanned, hNone]
      exact .nil
  | unconnected _ _ _ _ _ => exact hStart.concluded
  | committed _ hDiff _ hObtains hRun =>
      cases hConn _ _ hObtains
      rw [hTransaction] at hRun
      obtain ⟨calls, content, hMade, hContent, hAfter⟩ :=
        performed_all_or_nothing hValid hClean hRun
      obtain ⟨made, _, hMoved, hAll⟩ := performed_made hRun
      rw [hAll rfl] at hMoved
      exact ⟨_, _, calls, content, hDiff, hMade,
        writesPlanned_of_moved hMoved hMade, hContent, hAfter⟩
  | rolledBack _ _ _ hObtains hRun hRollback =>
      cases hConn _ _ hObtains
      rw [hTransaction] at hRun
      have hUntouched := performed_all_or_nothing hValid hClean hRun
      exact (Transactions.Untouched.rollback hUntouched hRollback).concluded
  | discarded _ _ _ hObtains hRun hRollback =>
      cases hConn _ _ hObtains
      rw [hTransaction] at hRun
      obtain ⟨hStill, hCommitted⟩ :=
        performed_all_or_nothing hValid hClean hRun
      have hBack := Transactions.committed_of_error hStill (by simp) hRollback
      exact Transactions.Untouched.close
        ⟨T.valid_call conn .rollback hStill, hBack.trans hCommitted⟩

/-- After a flush that succeeds the session has the connection it had, or the
one it got. -/
theorem obtains_of_flushed
    (hConn : ∀ c pool, scope.Obtains c pool → c = conn)
    (h : Flushed p scope (.ok ()) after) :
    ∀ c pool, after.Obtains c pool → c = conn := by
  cases h with
  | idle _ _ _ => exact hConn
  | committed _ _ _ hObtains _ =>
      intro c pool hC
      cases hC with
      | held hHeld =>
          rw [← Option.some.inj hHeld]
          exact hConn _ _ hObtains
      | leased hNone _ => cases hNone

/-! ## Requests that flush -/

/-- A load commits nothing and leaves nothing open. -/
theorem keeps_rests {L : Loader} (hConn : L.connection = conn) (start : γ) :
    L.Keeps (fun _ _ => True)
      fun work : Work σ => T.Rests conn start work.env.driver where
  query := by
    intro work d plan _ hPlan h
    subst hConn
    rw [Persister.driver_calling]
    exact ⟨h.query hPlan.isQuery plan.params, fun _ _ _ _ => trivial⟩
  register := fun _ _ _ _ _ hI => hI
  assign := fun _ _ _ _ hI => hI
  inspect := fun _ hI => hI

theorem withLoader_rests {shared : Bool} {α : Type}
    {load : Loader → Step (Work σ) α}
    (hConn : ∀ c pool, scope.Obtains c pool → c = conn)
    (hLoad : Loader.Leading load) (h : T.Rests conn start scope.env.driver) :
    T.Rests conn start
      ((withLoader p shared load).run scope).2.env.driver := by
  have hLoaded := loaded p shared load scope
    (I := fun work => T.Rests conn start work.env.driver)
    (Q := fun _ _ => True) fun c pool hObtains =>
      hLoad (keeps_rests (hConn c pool hObtains) start) h
  generalize (withLoader p shared load).run scope = result at hLoaded ⊢
  obtain ⟨r, after⟩ := result
  cases hLoaded with
  | unconnected _ _ => exact h
  | failed _ hI => exact hI
  | done _ hI _ _ => exact hI

/-- What a request does beyond its flush commits nothing and leaves nothing
open. -/
theorem concluded_of_flushed {op : Operation} (hOp : op.flushes = true)
    (hTransaction : scope.session.inTransaction = true)
    (hOk : ((flush p).run scope).1 = .ok () →
      (∀ c pool, ((flush p).run scope).2.Obtains c pool → c = conn) ∧
        T.Rests conn start ((flush p).run scope).2.env.driver)
    (h : T.Concluded conn start ((flush p).run scope).2.env) :
    T.Concluded conn start (op.perform p scope).env := by
  have hLoad : ∀ {α : Type} (shared : Bool) {load : Loader → Step (Work σ) α},
      Loader.Leading load → ((flush p).run scope).1 = .ok () →
        T.Concluded conn start ((withLoader p shared load).run
          ((flush p).run scope).2).2.env := by
    intro α shared load hLeading hFlushed
    obtain ⟨hConn, hRests⟩ := hOk hFlushed
    exact (withLoader_rests hConn hLeading hRests).concluded
  cases op with
  | flush => exact h
  | find type id =>
      exact find_keeps (I := fun s => T.Concluded conn start s.env) h
        (hLoad true (Loader.leading_loadById type id))
  | findAll type =>
      exact findAll_keeps (I := fun s => T.Concluded conn start s.env) h
        (hLoad false (Loader.leading_loadAll type))
  | commit =>
      show T.Concluded conn start ((commit p).run scope).2.env
      rw [commit_run, if_pos hTransaction]
      exact h
  | close =>
      refine close_keeps (I := fun s => T.Concluded conn start s.env) h
        fun flushed hFlushed => ?_
      rw [hFlushed] at hOk h
      obtain ⟨hConn, hRests⟩ := hOk rfl
      rcases releaseConnection_cases { flushed with
          session := { flushed.session with
            context := {}, queue := {}
            isOpen := false, inTransaction := false } } with
        hSame | ⟨c, hHeld, pool, hKept | hClosed⟩
      · rw [hSame]
        exact h
      · rw [hKept]
        exact h
      · have hC : c = conn := hConn c _ (.held hHeld)
        rw [hClosed, hC]
        exact Transactions.Untouched.close ⟨hRests.valid, hRests.committed⟩
  | _ => cases hOp

/-- In a transaction, on a connection that is clean when a flush starts, the
statements that carry out what the flush has planned take effect in order if it
succeeds, and nothing does if it fails; whichever request it is that flushes.
No transaction is left open, and auto-commit is on again unless the request has
closed the connection. -/
theorem flush_all_or_nothing (op : Operation) (hOp : op.flushes = true)
    {scope : Scope σ} (hTransaction : scope.session.inTransaction = true)
    (hConn : ∀ c pool, scope.Obtains c pool → c = conn)
    (hValid : T.Valid scope.env.driver)
    (hClean : T.Clean conn scope.env.driver) :
    (((flush p).run scope).1 = .ok () →
      ∃ dirty ctx calls,
        scope.session.context.diff p.schema scope.heap = .ok (dirty, ctx) ∧
        ((flush p).run scope).2.env.trace =
          scope.env.trace ++ Call.on conn calls ∧
        WritesPlanned p scope dirty (calls.filterMap Call.write?) ∧
        T.runAll (calls.filterMap Call.write?)
          (T.committed conn scope.env.driver) =
            .ok (T.committed conn (op.perform p scope).env.driver)) ∧
    (∀ e, ((flush p).run scope).1 = .error e →
      T.committed conn (op.perform p scope).env.driver =
        T.committed conn scope.env.driver) ∧
    T.AtRest conn (op.perform p scope).env := by
  have hFlushed := flushed p scope
  have hAll := flushed_all_or_nothing hTransaction hConn hValid hClean hFlushed
  cases hResult : ((flush p).run scope).1 with
  | ok _ =>
      rw [hResult] at hFlushed hAll
      obtain ⟨dirty, ctx, calls, content, hDiff, hMade, hWrites, hContent,
        hRests⟩ := hAll
      have hEnd := concluded_of_flushed hOp hTransaction
        (fun _ => ⟨obtains_of_flushed hConn hFlushed, hRests⟩) hRests.concluded
      refine ⟨fun _ => ?_, fun e hError => ?_, hEnd.atRest⟩
      · rw [hEnd.committed]
        exact ⟨dirty, ctx, calls, hDiff, hMade.trace, hWrites, hContent⟩
      · cases hError
  | error e =>
      rw [hResult] at hAll
      have hEnd := concluded_of_flushed hOp hTransaction
        (fun hOk => by cases hResult.symm.trans hOk) hAll
      refine ⟨fun hOk => ?_, fun _ _ => hEnd.committed, hEnd.atRest⟩
      cases hOk

end Session

/-- A session that is to insert two notes, the second with some number, beside
one that is there. -/
def Notes.twoNew (n : Int) : Scope Store :=
  scope [[.int 7, .text "c"]] [note 1 "a", note n "b"]
    { id := 0, inTransaction := true
      queue := ⟨[⟨.insert, 0⟩, ⟨.insert, 1⟩]⟩ }

/-- Two notes are inserted and committed; with a number that is taken, neither
of them is. Either way nothing is left open. -/
theorem Session.flush_all_or_nothing_of_notes :
    (∃ dirty ctx calls,
      (Notes.twoNew 2).session.context.diff Notes.schema
          (Notes.twoNew 2).heap = .ok (dirty, ctx) ∧
      ((flush Notes.persister).run (Notes.twoNew 2)).2.env.trace =
        (Notes.twoNew 2).env.trace ++ Call.on 0 calls ∧
      WritesPlanned Notes.persister (Notes.twoNew 2) dirty
        (calls.filterMap Call.write?) ∧
      (Store.transactions .exact).runAll (calls.filterMap Call.write?)
        ((Store.transactions .exact).committed 0
          (Notes.twoNew 2).env.driver) =
        .ok ((Store.transactions .exact).committed 0
          (Operation.commit.perform Notes.persister
            (Notes.twoNew 2)).env.driver)) ∧
    (Store.transactions .exact).AtRest 0
      (Operation.commit.perform Notes.persister (Notes.twoNew 2)).env ∧
    (Store.transactions .exact).committed 0
        (Operation.flush.perform Notes.persister
          (Notes.twoNew 7)).env.driver =
      (Store.transactions .exact).committed 0 (Notes.twoNew 7).env.driver ∧
    (Store.transactions .exact).AtRest 0
      (Operation.flush.perform Notes.persister (Notes.twoNew 7)).env := by
  have hCommit : ((flush Notes.persister).run (Notes.twoNew 2)).1 =
      .ok () := by rfl
  have hFail : ∃ e, ((flush Notes.persister).run (Notes.twoNew 7)).1 =
      .error e := ⟨_, rfl⟩
  obtain ⟨e, hFail⟩ := hFail
  have hConn : ∀ n conn pool, (Notes.twoNew n).Obtains conn pool → conn = 0 :=
    fun _ _ _ => Notes.obtains_scope
  obtain ⟨hOk, _, hRest⟩ := flush_all_or_nothing
    (T := Store.transactions .exact) (p := Notes.persister) .commit rfl rfl
    (hConn 2) (Notes.plain_store _) ⟨rfl, rfl⟩
  obtain ⟨_, hError, hStill⟩ := flush_all_or_nothing
    (T := Store.transactions .exact) (p := Notes.persister) .flush rfl rfl
    (hConn 7) (Notes.plain_store _) ⟨rfl, rfl⟩
  exact ⟨hOk hCommit, hRest, hError e hFail, hStill⟩

end UnitOfWork

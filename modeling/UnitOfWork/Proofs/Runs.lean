import UnitOfWork.Proofs.Loads

/-!
# Runs of a session

What can be asked of a session one after another, and what happens outside of
it in between: the application works on its entities, and other sessions on
the database. Each request is taken apart once here, into a flush, a load and
the little it does besides.

## Main results

* `Session.find_run`, `Session.close_run`, `Session.rollback_run` and the
  like: the requests as flushes and loads;
* `Session.find_keeps`, `Session.close_keeps` and the like,
  `Session.perform_keeps`: what the parts of requests keep, requests keep;
* `Session.Reaches.invariant`: what each step keeps, every run keeps.
-/

namespace UnitOfWork

variable {σ α : Type}

/-- A request to a session. -/
inductive Operation
  | persist (ref : Ref)
  | remove (ref : Ref)
  | find (type : String) (id : EntityId)
  | findAll (type : String)
  /-- Reads the members of a collection. -/
  | loadMembers (source : Source)
  | flush
  | begin
  | commit
  | rollback
  | clear
  | close

namespace Operation

/-- What a request leaves, whatever comes of it. -/
def perform [Driver σ] (p : Persister) (op : Operation) (scope : Scope σ) :
    Scope σ :=
  match op with
  | persist ref => ((Session.persist p ref).run scope).2
  | remove ref => ((Session.remove p ref).run scope).2
  | find type id => ((Session.find p type id).run scope).2
  | findAll type => ((Session.findAll p type).run scope).2
  | loadMembers source => ((Session.loadMembers p source).run scope).2
  | flush => ((Session.flush p).run scope).2
  | begin => (Session.begin.run scope).2
  | commit => ((Session.commit p).run scope).2
  | rollback => (Session.rollback.run scope).2
  | clear => (Session.clear.run scope).2
  | close => ((Session.close p).run scope).2

/-- Whether a request can make a session forget all that it knows. -/
def forgets : Operation → Bool
  | rollback | clear | close => true
  | _ => false

/-- Whether a request flushes the session before anything else. -/
def flushes : Operation → Bool
  | flush | commit | find .. | findAll _ | close => true
  | _ => false

end Operation

/-! ## What is added to a queue -/

namespace Queue

variable {q : Queue} {action other : Action}

theorem mem_enqueue : other ∈ (q.enqueue action).pending ↔
    other ∈ q.pending ∨ other = action := by
  rw [enqueue, List.mem_append, List.mem_singleton]

theorem ne_empty_of_mem (h : action ∈ q.pending) : q ≠ {} := by
  rintro rfl
  cases h

/-- Actions of other kinds have been waiting before. -/
theorem mem_of_mem_enqueue (h : other ∈ (q.enqueue action).pending)
    (hKind : other.kind ≠ action.kind) : other ∈ q.pending := by
  rcases mem_enqueue.1 h with hOld | rfl
  · exact hOld
  · exact absurd rfl hKind

theorem kind_of_mem_ofKind {kind : ActionKind}
    (h : action ∈ q.ofKind kind) : action.kind = kind := by
  simpa using (List.mem_filter.1 h).2

theorem ofKind_enqueue_self :
    (q.enqueue action).ofKind action.kind =
      q.ofKind action.kind ++ [action] := by
  rw [ofKind, enqueue, List.filter_append, ofKind]
  simp

theorem ofKind_enqueue_ne {kind : ActionKind} (h : action.kind ≠ kind) :
    (q.enqueue action).ofKind kind = q.ofKind kind := by
  rw [ofKind, enqueue, List.filter_append, ofKind]
  simp [h]

end Queue

namespace Session

/-! ## Requests that need no database -/

theorem ensureTransaction_run (scope : Scope σ) :
    ensureTransaction.run scope =
      (if scope.session.inTransaction then .ok ()
        else .error (.state .transactionClosed), scope) := by
  simp only [ensureTransaction, self, Step.run, bind]
  cases scope.session.inTransaction <;> rfl

/-- What is asked of open sessions in transactions only goes on in one. -/
theorem ensured_run {scope : Scope σ} (hOpen : scope.session.isOpen = true)
    (hTransaction : scope.session.inTransaction = true)
    (m : Step (Scope σ) α) :
    (do ensureOpen; ensureTransaction; m).run scope = m.run scope := by
  rw [Step.bind_run, ensureOpen_run, if_pos hOpen]
  simp only
  rw [Step.bind_run, ensureTransaction_run, if_pos hTransaction]

/-- It is refused otherwise. -/
theorem ensured_run_of_not {scope : Scope σ}
    (hNot : ¬ (scope.session.isOpen = true ∧
      scope.session.inTransaction = true)) (m : Step (Scope σ) α) :
    ∃ e, (do ensureOpen; ensureTransaction; m).run scope =
      (.error e, scope) := by
  rw [Step.bind_run, ensureOpen_run]
  by_cases hOpen : scope.session.isOpen = true
  · have hOutside : ¬ scope.session.inTransaction = true :=
      fun hTransaction => hNot ⟨hOpen, hTransaction⟩
    rw [if_pos hOpen]
    simp only
    rw [Step.bind_run, ensureTransaction_run, if_neg hOutside]
    exact ⟨_, rfl⟩
  · rw [if_neg hOpen]
    exact ⟨_, rfl⟩

/-- The scope with one more action waiting. -/
def queueing (action : Action) (scope : Scope σ) : Scope σ :=
  { scope with session := { scope.session with
      queue := scope.session.queue.enqueue action } }

/-- What is asked for is the insertion of an entity: it is queued unless there
is an entity under its key. -/
theorem persist_run {p : Persister} {ref : Ref} {scope : Scope σ}
    (hOpen : scope.session.isOpen = true)
    (hTransaction : scope.session.inTransaction = true) :
    (persist p ref).run scope =
      match scope.heap.entityKey p.schema ref with
      | .ok key =>
        match key.filter scope.session.context.containsKey with
        | some key => (.error (.state (.alreadyPersistent key.render)), scope)
        | none => (.ok (), queueing ⟨.insert, ref⟩ scope)
      | .error e => (.error e, scope) := by
  rw [persist, ensured_run hOpen hTransaction, Step.bind_run, Step.get_run]
  simp only
  rw [Step.bind_run, Step.lift_run]
  cases scope.heap.entityKey p.schema ref with
  | error e => rfl
  | ok key =>
      simp only
      rw [Step.bind_run, self_run]
      simp only
      cases key.filter scope.session.context.containsKey <;> rfl

/-- What is asked for is the deletion of an entity: it is queued if the entity
is looked after. -/
theorem remove_run {p : Persister} {ref : Ref} {scope : Scope σ}
    (hOpen : scope.session.isOpen = true)
    (hTransaction : scope.session.inTransaction = true) :
    (remove p ref).run scope =
      match scope.session.context.contains p.schema scope.heap ref with
      | .ok true => (.ok (), queueing ⟨.delete, ref⟩ scope)
      | .ok false =>
        (.error (.state (.notPersistent (scope.heap.get ref).type)), scope)
      | .error e => (.error e, scope) := by
  rw [remove, ensured_run hOpen hTransaction, Step.bind_run, Step.get_run]
  simp only
  rw [Step.bind_run, self_run]
  simp only
  rw [Step.bind_run, Step.lift_run]
  cases scope.session.context.contains p.schema scope.heap ref with
  | error e => rfl
  | ok contained => cases contained <;> rfl

/-- An open session in a transaction is asked to queue an action, and does it
if a check allows it; or nothing happens. -/
inductive Queued (Checked : Prop) (action : Action) (scope : Scope σ) :
    Except Error Unit → Scope σ → Prop
  | refused (e : Error) : Queued Checked action scope (.error e) scope
  | accepted (hOpen : scope.session.isOpen = true)
      (hTransaction : scope.session.inTransaction = true)
      (hChecked : Checked) :
    Queued Checked action scope (.ok ()) (queueing action scope)

/-- No entity in the context has the key of the one that is inserted. -/
theorem persist_queued (p : Persister) (ref : Ref) (scope : Scope σ) :
    Queued (∃ key, scope.heap.entityKey p.schema ref = .ok key ∧
        key.filter scope.session.context.containsKey = none)
      ⟨.insert, ref⟩ scope ((persist p ref).run scope).1
      ((persist p ref).run scope).2 := by
  by_cases hReady : scope.session.isOpen = true ∧
      scope.session.inTransaction = true
  · rw [persist_run hReady.1 hReady.2]
    cases hKey : scope.heap.entityKey p.schema ref with
    | error e => exact .refused e
    | ok key =>
        simp only
        cases hFree : key.filter scope.session.context.containsKey with
        | some taken => exact .refused _
        | none => exact .accepted hReady.1 hReady.2 ⟨key, rfl, hFree⟩
  · obtain ⟨e, hRun⟩ := ensured_run_of_not hReady _
    rw [persist, hRun]
    exact .refused e

/-- The entity that is deleted is looked after. -/
theorem remove_queued (p : Persister) (ref : Ref) (scope : Scope σ) :
    Queued (scope.session.context.contains p.schema scope.heap ref = .ok true)
      ⟨.delete, ref⟩ scope ((remove p ref).run scope).1
      ((remove p ref).run scope).2 := by
  by_cases hReady : scope.session.isOpen = true ∧
      scope.session.inTransaction = true
  · rw [remove_run hReady.1 hReady.2]
    cases hContains : scope.session.context.contains p.schema scope.heap
      ref with
    | error e => exact .refused e
    | ok contained =>
        cases contained with
        | false => exact .refused _
        | true => exact .accepted hReady.1 hReady.2 rfl
  · obtain ⟨e, hRun⟩ := ensured_run_of_not hReady _
    rw [remove, hRun]
    exact .refused e

/-- The action has been checked and waits, or nothing has happened. -/
theorem Queued.cases {Checked : Prop} {action : Action}
    {scope after : Scope σ} {r : Except Error Unit}
    (h : Queued Checked action scope r after) :
    after = scope ∨ Checked ∧ after = queueing action scope := by
  cases h with
  | refused e => exact Or.inl rfl
  | accepted _ _ hChecked => exact Or.inr ⟨hChecked, rfl⟩

/-- It is accepted just when its action waits. -/
theorem Queued.isOk_cases {Checked : Prop} {action : Action}
    {scope after : Scope σ} {r : Except Error Unit}
    (h : Queued Checked action scope r after) :
    r.isOk = true ∧ after = queueing action scope ∨
      ¬ r.isOk = true ∧ after = scope := by
  cases h with
  | refused e => exact Or.inr ⟨Bool.false_ne_true, rfl⟩
  | accepted _ _ _ => exact Or.inl ⟨rfl, rfl⟩

theorem persist_cases (p : Persister) (ref : Ref) (scope : Scope σ) :
    ((persist p ref).run scope).2 = scope ∨
      (∃ key, scope.heap.entityKey p.schema ref = .ok key ∧
        key.filter scope.session.context.containsKey = none) ∧
      ((persist p ref).run scope).2 = queueing ⟨.insert, ref⟩ scope :=
  (persist_queued p ref scope).cases

theorem remove_cases (p : Persister) (ref : Ref) (scope : Scope σ) :
    ((remove p ref).run scope).2 = scope ∨
      scope.session.context.contains p.schema scope.heap ref = .ok true ∧
      ((remove p ref).run scope).2 = queueing ⟨.delete, ref⟩ scope :=
  (remove_queued p ref scope).cases

/-- What is kept when an action is queued is kept by persisting. -/
theorem persist_keeps {p : Persister} {I : Scope σ → Prop} {ref : Ref}
    {scope : Scope σ} (hStart : I scope)
    (hQueued : I (queueing ⟨.insert, ref⟩ scope)) :
    I ((persist p ref).run scope).2 := by
  rcases persist_cases p ref scope with hSame | ⟨_, hAfter⟩
  · rw [hSame]
    exact hStart
  · rw [hAfter]
    exact hQueued

/-- So it is by removing. -/
theorem remove_keeps {p : Persister} {I : Scope σ → Prop} {ref : Ref}
    {scope : Scope σ} (hStart : I scope)
    (hQueued : I (queueing ⟨.delete, ref⟩ scope)) :
    I ((remove p ref).run scope).2 := by
  rcases remove_cases p ref scope with hSame | ⟨_, hAfter⟩
  · rw [hSame]
    exact hStart
  · rw [hAfter]
    exact hQueued

theorem clear_run (scope : Scope σ) :
    ((clear (σ := σ)).run scope).2 =
      if scope.session.isOpen then
        { scope with session := { scope.session with
            context := {}, queue := {} } }
      else scope := by
  rw [clear, Step.bind_run, ensureOpen_run]
  cases scope.session.isOpen <;> rfl

theorem begin_run (scope : Scope σ) :
    ((begin (σ := σ)).run scope).2 =
      if scope.session.isOpen then
        { scope with session := { scope.session with inTransaction := true } }
      else scope := by
  rw [begin, Step.bind_run, ensureOpen_run]
  cases scope.session.isOpen <;> rfl

/-! ## Requests that flush -/

section

variable [Driver σ] (p : Persister)

/-- A session that is closed cannot be flushed. -/
theorem flush_run_of_closed {scope : Scope σ}
    (hClosed : scope.session.isOpen = false) :
    (flush p).run scope = (.error (.state .sessionClosed), scope) := by
  rw [flush, Step.bind_run, ensureOpen_run, hClosed]
  rfl

/-- What first checks that a session is open and then flushes can as well just
flush. -/
theorem ensureOpen_flush_run (f : Unit → Step (Scope σ) α) (scope : Scope σ) :
    (do ensureOpen; let a ← flush p; f a).run scope =
      (flush p >>= f).run scope := by
  rw [Step.bind_run, ensureOpen_run]
  cases hOpen : scope.session.isOpen with
  | false =>
      rw [Step.bind_run, flush_run_of_closed p hOpen]
      rfl
  | true => rfl

/-- A lookup flushes first, and loads what is not there. -/
theorem find_run (type : String) (id : EntityId) (scope : Scope σ) :
    (find p type id).run scope =
      match (flush p).run scope with
      | (.error e, flushed) => (.error e, flushed)
      | (.ok _, flushed) =>
        match flushed.session.context.get? ⟨type, id⟩ with
        | some ref => (.ok (some ref), flushed)
        | none => (withLoader p true fun L => L.loadById type id).run flushed := by
  rw [find, ensureOpen_flush_run, Step.bind_run]
  rcases (flush p).run scope with ⟨_ | _, flushed⟩
  · rfl
  · simp only
    rw [Step.bind_run, self_run]
    simp only
    cases flushed.session.context.get? ⟨type, id⟩ <;> rfl

theorem findAll_run (type : String) (scope : Scope σ) :
    (findAll p type).run scope =
      match (flush p).run scope with
      | (.error e, flushed) => (.error e, flushed)
      | (.ok _, flushed) =>
        match p.schema.descriptor type with
        | .error e => (.error e, flushed)
        | .ok _ => (withLoader p false fun L => L.loadAll type).run flushed := by
  rw [findAll, ensureOpen_flush_run, Step.bind_run]
  rcases (flush p).run scope with ⟨_ | _, flushed⟩
  · rfl
  · simp only
    rw [Step.bind_run, Step.lift_run]
    cases p.schema.descriptor type <;> rfl

theorem loadMembers_run (source : Source) (scope : Scope σ) :
    (loadMembers p source).run scope =
      match p.schema.descriptor source.target with
      | .error e => (.error e, scope)
      | .ok _ =>
        (withLoader p true fun L => L.loadMembers source).run scope := by
  rw [loadMembers, Step.bind_run, Step.lift_run]
  cases p.schema.descriptor source.target <;> rfl

/-- What concerns loads and connections only leaves this alone. -/
structure Steady (s after : Session) : Prop where
  queue : after.queue = s.queue
  isOpen : after.isOpen = s.isOpen
  inTransaction : after.inTransaction = s.inTransaction

omit [Driver σ] in
theorem steady_withLoader (shared : Bool) (load : Loader → Step (Work σ) α)
    (scope : Scope σ) :
    Steady scope.session ((withLoader p shared load).run scope).2.session := by
  rw [withLoader, Step.bind_run]
  rcases ensureConnection_cases scope with
    ⟨conn, pool, _, hRun⟩ | ⟨e, _, _, hRun⟩
  · rw [hRun]
    simp only
    rw [Step.bind_run, self_run]
    simp only [loadIn, Step.run]
    split <;> exact ⟨rfl, rfl, rfl⟩
  · rw [hRun]
    exact ⟨rfl, rfl, rfl⟩

/-- A commit is a flush that closes the transaction, whatever comes of it. -/
theorem commit_run (scope : Scope σ) :
    (commit p).run scope =
      if scope.session.inTransaction then
        (((flush p).run scope).1,
          { ((flush p).run scope).2 with
            session := { ((flush p).run scope).2.session with
              inTransaction := false } })
      else (.error (.state .transactionClosed), scope) := by
  rw [commit, Step.bind_run, ensureTransaction_run]
  cases scope.session.inTransaction <;> rfl

/-- A session that has been flushed forgets everything and gives its
connection back. -/
theorem close_run (scope : Scope σ) :
    (close p).run scope =
      match (flush p).run scope with
      | (.error e, flushed) => (.error e, flushed)
      | (.ok _, flushed) =>
        releaseConnection.run
          { flushed with session := { flushed.session with
              context := {}, queue := {}
              isOpen := false, inTransaction := false } } := by
  rw [close, ensureOpen_flush_run, Step.bind_run]
  rcases (flush p).run scope with ⟨_ | _, flushed⟩ <;> rfl

end

/-! ## Giving a connection back and taking work back -/

variable [Driver σ]

/-- A connection that is given back is kept by the pool, or closed if the pool
is closed. -/
theorem releaseConnection_cases (scope : Scope σ) :
    (releaseConnection.run scope).2 = scope ∨
      ∃ conn, scope.session.connection = some conn ∧ ∃ pool,
        (releaseConnection.run scope).2 =
            { backend := ⟨scope.env, pool⟩
              session := { scope.session with connection := none } } ∨
          (releaseConnection.run scope).2 =
            { backend := ⟨scope.env.called conn .close, pool⟩
              session := { scope.session with connection := none } } := by
  obtain ⟨⟨env, pool⟩, session⟩ := scope
  obtain ⟨id, connection, context, queue, isOpen, inTransaction⟩ := session
  cases connection with
  | none => exact Or.inl rfl
  | some conn =>
      refine Or.inr ⟨conn, rfl, ?_⟩
      rw [releaseConnection, Step.bind_run, self_run]
      simp only
      rw [Step.bind_run, change_run, onBackend]
      simp only
      rw [Step.zoom_run, Backend.release, Step.bind_run, Step.get_run]
      cases hClosed : pool.closed with
      | false =>
          simp only [hClosed, Bool.false_eq_true, if_false]
          exact ⟨pool.putBack conn, Or.inl rfl⟩
      | true =>
          simp only [hClosed, if_true]
          exact ⟨pool.endLease conn, Or.inr rfl⟩

/-- What concerns connections only leaves this alone. -/
structure Keeping (scope after : Scope σ) : Prop where
  context : after.session.context = scope.session.context
  queue : after.session.queue = scope.session.queue
  heap : after.heap = scope.heap

theorem keeping_releaseConnection (scope : Scope σ) :
    Keeping scope (releaseConnection.run scope).2 := by
  rcases releaseConnection_cases scope with
    hSame | ⟨conn, _, pool, hBack | hBack⟩
  · rw [hSame]
    exact ⟨rfl, rfl, rfl⟩
  · rw [hBack]
    exact ⟨rfl, rfl, rfl⟩
  · rw [hBack]
    exact ⟨rfl, rfl, rfl⟩

/-- What the connection of a session is rolled back to. -/
inductive RolledBack (scope : Scope σ) : Scope σ → Prop
  | none (h : scope.session.connection = none) : RolledBack scope scope
  | done {conn : ConnId} (h : scope.session.connection = some conn)
      (hRollback : (Driver.call conn .rollback scope.env.driver).1 = .ok ()) :
    RolledBack scope (scope.withEnv
      ((scope.env.called conn .rollback).called conn (.setAutoCommit true)))
  | discarded {conn : ConnId} {e : Error}
      (h : scope.session.connection = some conn)
      (hRollback : (Driver.call conn .rollback scope.env.driver).1 =
        .error e) :
    RolledBack scope
      { backend := ⟨(scope.env.called conn .rollback).called conn .close,
          scope.backend.pool.endLease conn⟩
        session := { scope.session with connection := none } }

theorem rolledBack (scope : Scope σ) :
    RolledBack scope (rollbackConnection.run scope).2 := by
  rw [rollbackConnection, Step.bind_run, self_run]
  cases hConn : scope.session.connection with
  | none =>
      simp only [hConn]
      exact .none hConn
  | some conn =>
      simp only [hConn]
      rw [Step.bind_run, Step.attempt_run, onEnv, Step.zoom_run,
        Env.call_run conn .rollback]
      cases hRollback : (Driver.call conn .rollback scope.env.driver).1 with
      | ok _ => exact .done hConn hRollback
      | error e =>
          simp only
          rw [Step.bind_run, discardConnection, Step.bind_run, self_run]
          simp only [Scope.withEnv, hConn]
          exact .discarded hConn hRollback

theorem RolledBack.keeping {scope after : Scope σ}
    (h : RolledBack scope after) : Keeping scope after := by
  cases h with
  | none _ => exact ⟨rfl, rfl, rfl⟩
  | done _ _ => exact ⟨rfl, rfl, rfl⟩
  | discarded _ _ => exact ⟨rfl, rfl, rfl⟩

/-- A rollback forgets everything before it takes the work back. -/
theorem rollback_run (scope : Scope σ) :
    (rollback.run scope).2 =
      if scope.session.inTransaction then
        (rollbackConnection.run
          { scope with session := { scope.session with
              context := {}, queue := {}, inTransaction := false } }).2
      else scope := by
  rw [rollback, Step.bind_run, ensureTransaction_run]
  cases scope.session.inTransaction <;> rfl

/-- A request whose flush fails does nothing else. -/
theorem perform_of_flush_error {p : Persister} {scope : Scope σ}
    {op : Operation} {e : Error}
    (hOp : op.flushes = true) (hCommit : op ≠ .commit)
    (h : ((flush p).run scope).1 = .error e) :
    op.perform p scope = ((flush p).run scope).2 := by
  generalize hRun : (flush p).run scope = result at h ⊢
  obtain ⟨r, after⟩ := result
  cases h
  cases op with
  | flush => simp only [Operation.perform, hRun]
  | find type id => simp only [Operation.perform, find_run, hRun]
  | findAll type => simp only [Operation.perform, findAll_run, hRun]
  | close => simp only [Operation.perform, close_run, hRun]
  | commit => exact absurd rfl hCommit
  | _ => cases hOp

/-! ## What requests keep -/

/-- A request that flushes the session as it finds it: a commit does so in a
transaction only. -/
def Flushing (scope : Scope σ) (op : Operation) : Prop :=
  op.flushes = true ∧ (op = .commit → scope.session.inTransaction = true)

section Parts

variable {p : Persister} {I : Scope σ → Prop} {scope : Scope σ}

/-- What its flush leaves, and its load if it comes to one, a lookup leaves. -/
theorem find_keeps {type : String} {id : EntityId}
    (hFlush : I ((flush p).run scope).2)
    (hLoad : ((flush p).run scope).1 = .ok () →
      I ((withLoader p true fun L => L.loadById type id).run
        ((flush p).run scope).2).2) :
    I ((find p type id).run scope).2 := by
  rw [find_run]
  generalize (flush p).run scope = result at hFlush hLoad ⊢
  obtain ⟨_ | _, flushed⟩ := result
  · exact hFlush
  · simp only
    cases flushed.session.context.get? ⟨type, id⟩ with
    | some ref => exact hFlush
    | none => exact hLoad rfl

theorem findAll_keeps {type : String}
    (hFlush : I ((flush p).run scope).2)
    (hLoad : ((flush p).run scope).1 = .ok () →
      I ((withLoader p false fun L => L.loadAll type).run
        ((flush p).run scope).2).2) :
    I ((findAll p type).run scope).2 := by
  rw [findAll_run]
  generalize (flush p).run scope = result at hFlush hLoad ⊢
  obtain ⟨_ | _, flushed⟩ := result
  · exact hFlush
  · simp only
    cases p.schema.descriptor type with
    | error e => exact hFlush
    | ok d => exact hLoad rfl

/-- The members of a collection are read without a flush. -/
theorem loadMembers_keeps {source : Source} (hStart : I scope)
    (hLoad : I ((withLoader p true fun L =>
      L.loadMembers source).run scope).2) :
    I ((loadMembers p source).run scope).2 := by
  rw [loadMembers_run]
  cases p.schema.descriptor source.target with
  | error e => exact hStart
  | ok d => exact hLoad

/-- A close leaves what its flush leaves or, if that succeeds, what is left
when everything has been forgotten and the connection given back. -/
theorem close_keeps (hFlush : I ((flush p).run scope).2)
    (hRelease : ∀ flushed, (flush p).run scope = (.ok (), flushed) →
      I (releaseConnection.run { flushed with
        session := { flushed.session with
          context := {}, queue := {}
          isOpen := false, inTransaction := false } }).2) :
    I ((close p).run scope).2 := by
  rw [close_run]
  generalize (flush p).run scope = result at hFlush hRelease ⊢
  obtain ⟨_ | _, flushed⟩ := result
  · exact hFlush
  · exact hRelease flushed rfl

end Parts

/-- What the flush of a request leaves, and loads and the other parts keep, the
request leaves. -/
theorem perform_keeps_flushed {p : Persister} {I : Scope σ → Prop}
    {op : Operation} {scope : Scope σ} (hOp : Flushing scope op)
    (hFlush : I ((flush p).run scope).2)
    (hLoad : ∀ {α : Type} (shared : Bool) (load : Loader → Step (Work σ) α),
      Loader.Leading load → ∀ s, I s → I ((withLoader p shared load).run s).2)
    (hTurn : ∀ s inTransaction isOpen, I s → I { s with session :=
      { s.session with inTransaction := inTransaction, isOpen := isOpen } })
    (hForget : op.forgets = true → ∀ s, I s → I (forgetAll.run s).2)
    (hRelease : op.forgets = true → ∀ s, I s →
      I (releaseConnection.run s).2) :
    I (op.perform p scope) := by
  cases op with
  | flush => exact hFlush
  | find type id =>
      exact find_keeps hFlush fun _ =>
        hLoad true _ (Loader.leading_loadById type id) _ hFlush
  | findAll type =>
      exact findAll_keeps hFlush fun _ =>
        hLoad false _ (Loader.leading_loadAll type) _ hFlush
  | commit =>
      show I ((commit p).run scope).2
      rw [commit_run, if_pos (hOp.2 rfl)]
      exact hTurn _ false _ hFlush
  | close =>
      refine close_keeps hFlush fun flushed hOk => ?_
      rw [hOk] at hFlush
      exact hRelease rfl _ (hTurn _ false false (hForget rfl _ hFlush))
  | _ => cases hOp.1

/-- What flushes, loads and the other parts of a request keep, the request
keeps. -/
theorem perform_keeps {p : Persister} {I : Scope σ → Prop} {op : Operation}
    {scope : Scope σ} (hStart : I scope)
    (hPersist : ∀ ref, op = .persist ref → I ((persist p ref).run scope).2)
    (hRemove : ∀ ref, op = .remove ref → I ((remove p ref).run scope).2)
    (hFlush : op.flushes = true → I ((flush p).run scope).2)
    (hLoad : ∀ {α : Type} (shared : Bool) (load : Loader → Step (Work σ) α),
      Loader.Leading load → ∀ s, I s → I ((withLoader p shared load).run s).2)
    (hTurn : ∀ s inTransaction isOpen, I s → I { s with session :=
      { s.session with inTransaction := inTransaction, isOpen := isOpen } })
    (hForget : op.forgets = true → ∀ s, I s → I (forgetAll.run s).2)
    (hRelease : op.forgets = true → ∀ s, I s → I (releaseConnection.run s).2)
    (hRollback : op.forgets = true → ∀ s, I s →
      I (rollbackConnection.run s).2) :
    I (op.perform p scope) := by
  by_cases hFlushing : Flushing scope op
  · exact perform_keeps_flushed hFlushing (hFlush hFlushing.1) hLoad hTurn
      hForget hRelease
  cases op with
  | persist ref => exact hPersist ref rfl
  | remove ref => exact hRemove ref rfl
  | loadMembers source =>
      exact loadMembers_keeps hStart
        (hLoad true _ (Loader.leading_loadMembers source) _ hStart)
  | begin =>
      show I (begin.run scope).2
      rw [begin_run]
      split
      · exact hTurn scope true _ hStart
      · exact hStart
  | commit =>
      have hOutside : ¬ scope.session.inTransaction = true :=
        fun hTransaction => hFlushing ⟨rfl, fun _ => hTransaction⟩
      show I ((commit p).run scope).2
      rw [commit_run, if_neg hOutside]
      exact hStart
  | rollback =>
      show I (rollback.run scope).2
      rw [rollback_run]
      split
      · exact hRollback rfl _ (hForget rfl _ (hTurn scope false _ hStart))
      · exact hStart
  | clear =>
      show I (clear.run scope).2
      rw [clear_run]
      split
      · exact hForget rfl scope hStart
      · exact hStart
  | flush => exact absurd ⟨rfl, fun h => by cases h⟩ hFlushing
  | find type id => exact absurd ⟨rfl, fun h => by cases h⟩ hFlushing
  | findAll type => exact absurd ⟨rfl, fun h => by cases h⟩ hFlushing
  | close => exact absurd ⟨rfl, fun h => by cases h⟩ hFlushing

/-! ## Runs -/

/-- The scopes that a run leads to from a start: requests that are allowed,
and changes of the backend from outside. -/
inductive Reaches (p : Persister) (Allowed : Scope σ → Operation → Prop)
    (Outside : Scope σ → Backend σ → Prop) (start : Scope σ) : Scope σ → Prop
  | start : Reaches p Allowed Outside start start
  | operation {scope : Scope σ} (h : Reaches p Allowed Outside start scope)
      (op : Operation) (hAllowed : Allowed scope op) :
    Reaches p Allowed Outside start (op.perform p scope)
  | outside {scope : Scope σ} (h : Reaches p Allowed Outside start scope)
      (backend : Backend σ) (hOutside : Outside scope backend) :
    Reaches p Allowed Outside start { scope with backend := backend }

/-- What each step keeps, every run keeps. -/
theorem Reaches.invariant {p : Persister}
    {Allowed : Scope σ → Operation → Prop}
    {Outside : Scope σ → Backend σ → Prop} {I : Scope σ → Prop}
    (hOperation : ∀ scope op, I scope → Allowed scope op →
      I (op.perform p scope))
    (hOutside : ∀ scope backend, I scope → Outside scope backend →
      I { scope with backend := backend })
    {start scope : Scope σ} (h : Reaches p Allowed Outside start scope)
    (hStart : I start) : I scope := by
  induction h with
  | start => exact hStart
  | operation _ op hAllowed ih => exact hOperation _ op ih hAllowed
  | outside _ backend hOut ih => exact hOutside _ backend ih hOut

end Session

end UnitOfWork

import UnitOfWork.Session.Basic

/-!
# Flushing a session

A flush writes what a session has pending: it queues an update for each entity
that is out of step with its snapshot, carries out the queue, inserts first,
updates next, deletes last, and commits. In a transaction auto-commit is off
for the time of the flush, so that its statements take effect together.

A flush that fails takes everything back: the context is what it was before,
the queue is empty, and the connection is rolled back. If that fails too, the
connection may still be inside the failed transaction and is discarded. Two
failures come before anything is written and are reported as they are: an
entity that cannot be looked at, which also leaves the queue as it was, and a
connection that cannot be leased.
-/

namespace UnitOfWork.Session

variable {σ : Type} [Driver σ] (p : Persister)

/-- Carries out actions on a connection and commits; inside a transaction
auto-commit is switched off first. -/
def runActions (conn : ConnId) (inTransaction : Bool)
    (actions : List Action) : Step (Work σ) Unit := do
  if inTransaction then Work.onEnv (Env.call conn (.setAutoCommit false))
  Action.executeAll p conn actions
  Work.onEnv (Env.call conn .commit)
  Work.onEnv (Env.call conn (.setAutoCommit true))

/-- Puts a context back in its place. -/
def restore (saved : Context) : Step (Scope σ) Unit :=
  change fun s => { s with context := saved }

/-- Rolls the connection back after a flush that failed. -/
def undo (conn : ConnId) (cause : Error) : Step (Scope σ) Unit := do
  match ← (onEnv (Env.call conn .rollback)).attempt with
  | .ok _ => do
    let _ ← (onEnv (Env.call conn (.setAutoCommit true))).attempt
    Step.fail (.flush cause)
  | .error source => do
    discardConnection
    Step.fail (.rollback source cause)

/-- Carries out what is queued on the session's connection; `saved` is the
context to go back to. -/
def runQueue (saved : Context) : Step (Scope σ) Unit := do
  match ← ensureConnection.attempt with
  | .error e => do
    restore saved
    change fun s => { s with queue := {} }
    Step.fail e
  | .ok conn => do
    let s ← self
    change fun s => { s with queue := {} }
    let run := runActions p conn s.inTransaction s.queue.drain
    match ← (onWork run).attempt with
    | .ok _ => pure ()
    | .error cause => do
      restore saved
      undo conn cause

/-- Finds the entities that are out of step, queues an update for each, and
brings their snapshots up to date. -/
def collectDirty : Step (Scope σ) Unit := fun scope =>
  match scope.session.context.diff p.schema scope.heap with
  | .error e => (.error e, scope)
  | .ok (dirty, context) =>
    let updates := dirty.map fun d => (⟨.update, d.ref⟩ : Action)
    (.ok (),
      { scope with
        session := { scope.session with
          context := context
          queue := scope.session.queue.enqueueAll updates } })

/-- Writes what the session has pending. -/
def flush : Step (Scope σ) Unit := do
  ensureOpen
  let saved := (← self).context
  collectDirty p
  if (← self).queue.isEmpty then pure () else runQueue p saved

end UnitOfWork.Session

import UnitOfWork.Loader
import UnitOfWork.Pool

/-!
# The state of a session

A session looks after entities in a context, queues writes, and works on one
connection, which it leases when it first needs one and keeps. It is open
until it is closed, and it is in a transaction or not. What a session does, it
does to itself and to the backend it works on; the two together are its scope.

## Main results

* `Session.session_loadIn_error`: a load that fails leaves the session alone;
* `Session.session_loadIn_apart`: so does a load apart from its context.
-/

namespace UnitOfWork

/-- A session. -/
structure Session where
  /-- The number that collections know their session by. -/
  id : Nat
  /-- The connection on lease, if one has been needed yet. -/
  connection : Option ConnId := none
  context : Context := {}
  queue : Queue := {}
  isOpen : Bool := true
  inTransaction : Bool := false

/-- A session and the backend it works on. -/
structure Scope (σ : Type) where
  backend : Backend σ
  session : Session

namespace Scope

variable {σ : Type}

/-- The environment that a session works in. -/
def env (scope : Scope σ) : Env σ := scope.backend.env

/-- The scope with another environment. -/
def withEnv (env : Env σ) (scope : Scope σ) : Scope σ :=
  { scope with backend := { scope.backend with env := env } }

/-- The instances. -/
def heap (scope : Scope σ) : Heap := scope.env.heap

end Scope

namespace Session

variable {σ α : Type}

/-! ## Parts of the scope -/

/-- Works on the backend alone. -/
def onBackend (m : Step (Backend σ) α) : Step (Scope σ) α :=
  Step.zoom Scope.backend
    (fun backend scope => { scope with backend := backend }) m

/-- Works on the environment alone. -/
def onEnv (m : Step (Env σ) α) : Step (Scope σ) α :=
  Step.zoom Scope.env Scope.withEnv m

/-- Works on the environment and the session's context. -/
def onWork (m : Step (Work σ) α) : Step (Scope σ) α :=
  Step.zoom (fun scope => ⟨scope.env, scope.session.context⟩)
    (fun work scope =>
      { scope.withEnv work.env with
        session := { scope.session with context := work.context } }) m

/-- The session. -/
def self : Step (Scope σ) Session := fun scope => (.ok scope.session, scope)

/-- Changes the session. -/
def change (f : Session → Session) : Step (Scope σ) Unit :=
  Step.modify fun scope => { scope with session := f scope.session }

/-! ## Guards -/

/-- Refuses a session that has been closed. -/
def ensureOpen : Step (Scope σ) Unit := do
  if (← self).isOpen then pure () else Step.fail (.state .sessionClosed)

/-- Refuses a session that is not in a transaction. -/
def ensureTransaction : Step (Scope σ) Unit := do
  if (← self).inTransaction then pure ()
  else Step.fail (.state .transactionClosed)

/-- The session's connection, which is leased now if there is none yet. -/
def ensureConnection : Step (Scope σ) ConnId := do
  match (← self).connection with
  | some conn => pure conn
  | none => do
    let conn ← onBackend Backend.lease
    change fun s => { s with connection := some conn }
    pure conn

/-- Closes the session's connection for good. -/
def discardConnection [Driver σ] : Step (Scope σ) Unit := do
  match (← self).connection with
  | some conn => do
    change fun s => { s with connection := none }
    onBackend (Backend.discard conn)
  | none => pure ()

/-- Gives the session's connection back to the pool. -/
def releaseConnection [Driver σ] : Step (Scope σ) Unit := do
  match (← self).connection with
  | some conn => do
    change fun s => { s with connection := none }
    onBackend (Backend.release conn)
  | none => pure ()

/-! ## Loading -/

/-- Runs a load on the session's context or, with `shared` off, on a context
of its own. If the load fails, the session's context stays what it was. -/
def loadIn (shared : Bool) (m : Step (Work σ) α) : Step (Scope σ) α :=
  fun scope =>
    let start := if shared then scope.session.context else {}
    match m.run ⟨scope.env, start⟩ with
    | (.error e, work) => (.error e, scope.withEnv work.env)
    | (.ok a, work) =>
      let context := if shared then work.context else scope.session.context
      (.ok a,
        { scope.withEnv work.env with
          session := { scope.session with context := context } })

/-- Runs a load with a loader on the session's connection. -/
def withLoader (p : Persister) (shared : Bool)
    (load : Loader → Step (Work σ) α) : Step (Scope σ) α := do
  let conn ← ensureConnection
  let id := (← self).id
  loadIn shared (load ⟨p, conn, some id⟩)

/-- A load that fails leaves the session alone. -/
theorem session_loadIn_error {shared : Bool} {m : Step (Work σ) α}
    {scope after : Scope σ} {e : Error}
    (h : (loadIn shared m).run scope = (.error e, after)) :
    after.session = scope.session := by
  simp only [loadIn, Step.run] at h
  split at h
  · cases h
    rfl
  · cases h

/-- A load apart from the context leaves the session alone. -/
theorem session_loadIn_apart (m : Step (Work σ) α) (scope : Scope σ) :
    ((loadIn false m).run scope).2.session = scope.session := by
  simp only [loadIn, Step.run]
  split <;> rfl

end Session

end UnitOfWork

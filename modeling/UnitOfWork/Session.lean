import UnitOfWork.Session.Flush

/-!
# Sessions

What can be asked of a session. Entities are queued for insertion or deletion
inside a transaction only, and written with the next flush; looking entities
up flushes first, so that what is found is up to date. Closing a session
flushes it and gives its connection back; if the flush fails the session stays
open.

The transaction of a session is opened and closed explicitly. It is closed by
a commit even if the flush of the commit fails, and a rollback forgets all the
session knows.
-/

namespace UnitOfWork.Session

variable {σ : Type}

/-! ## Writing -/

/-- Queues an entity for insertion. -/
def persist (p : Persister) (ref : Ref) : Step (Scope σ) Unit := do
  ensureOpen
  ensureTransaction
  let key ← (← Step.get).heap.entityKey p.schema ref
  let s ← self
  match key.filter s.context.containsKey with
  | some key => Step.fail (.state (.alreadyPersistent key.render))
  | none => change fun s => { s with queue := s.queue.enqueue ⟨.insert, ref⟩ }

/-- Queues the deletion of an entity that the session looks after. -/
def remove (p : Persister) (ref : Ref) : Step (Scope σ) Unit := do
  ensureOpen
  ensureTransaction
  let heap := (← Step.get).heap
  let contained ← (← self).context.contains p.schema heap ref
  if contained then
    change fun s => { s with queue := s.queue.enqueue ⟨.delete, ref⟩ }
  else Step.fail (.state (.notPersistent (heap.get ref).type))

/-! ## Reading -/

section

variable [Driver σ] (p : Persister)

/-- The entity of a type with an identifier. -/
def find (type : String) (id : EntityId) : Step (Scope σ) (Option Ref) := do
  ensureOpen
  flush p
  match (← self).context.get? ⟨type, id⟩ with
  | some ref => pure (some ref)
  | none => withLoader p true fun L => L.loadById type id

/-- The entities of all rows of a type, loaded apart from the session. -/
def findAll (type : String) : Step (Scope σ) (List Ref) := do
  ensureOpen
  flush p
  let _ ← p.schema.descriptor type
  withLoader p false fun L => L.loadAll type

/-- Loads the members of a collection of the session. -/
def loadMembers (source : Source) : Step (Scope σ) (List Ref) := do
  let _ ← p.schema.descriptor source.target
  withLoader p true fun L => L.loadMembers source

end

/-! ## Clearing and closing -/

/-- Forgets all entities and all that is queued. -/
def forgetAll : Step (Scope σ) Unit :=
  change fun s => { s with context := {}, queue := {} }

/-- Forgets all entities and all that is queued, if the session is open. -/
def clear : Step (Scope σ) Unit := do
  ensureOpen
  forgetAll

/-- Flushes and closes the session. -/
def close [Driver σ] (p : Persister) : Step (Scope σ) Unit := do
  ensureOpen
  flush p
  forgetAll
  change fun s => { s with isOpen := false, inTransaction := false }
  releaseConnection

/-! ## The transaction -/

/-- Opens the transaction, unless it is open already. -/
def begin : Step (Scope σ) Unit := do
  ensureOpen
  change fun s => { s with inTransaction := true }

section

variable [Driver σ]

/-- Flushes, and closes the transaction whatever comes of it. -/
def commit (p : Persister) : Step (Scope σ) Unit := do
  ensureTransaction
  let flushed ← (flush p).attempt
  change fun s => { s with inTransaction := false }
  Step.ofExcept flushed

/-- Takes back what was done on the connection since the last commit; a
connection that cannot be rolled back is discarded. -/
def rollbackConnection : Step (Scope σ) Unit := do
  match (← self).connection with
  | none => pure ()
  | some conn => do
    match ← (onEnv (Env.call conn .rollback)).attempt with
    | .ok _ => onEnv (Env.call conn (.setAutoCommit true))
    | .error e => do
      discardConnection
      Step.fail e

/-- Closes the transaction and forgets everything. -/
def rollback : Step (Scope σ) Unit := do
  ensureTransaction
  change fun s => { s with inTransaction := false }
  forgetAll
  rollbackConnection

end

end UnitOfWork.Session

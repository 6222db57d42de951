import UnitOfWork.Session

/-!
# Databases

A database that has been opened by its settings: the pool of connections to it
and the sessions over it. Sessions are numbered, and a number is never used
again, so a collection can tell whether the session it was loaded by is still
there. Its members can be loaded as long as that session is there and open.
-/

namespace UnitOfWork

/-- An open database with its sessions. -/
structure Database (σ : Type) where
  settings : Settings
  persister : Persister
  backend : Backend σ
  /-- The sessions that have not been dropped, each under its number. -/
  sessions : List (Nat × Session) := []
  /-- The number of the next session. -/
  nextSession : Nat := 0

namespace Database

variable {σ α : Type}

/-- Works on the backend alone. -/
def onBackend (m : Step (Backend σ) α) : Step (Database σ) α :=
  Step.zoom Database.backend
    (fun backend db => { db with backend := backend }) m

/-- Works on the environment alone. -/
def onEnv (m : Step (Env σ) α) : Step (Database σ) α :=
  onBackend (Backend.onEnv m)

/-- The instances. -/
def heap (db : Database σ) : Heap := db.backend.env.heap

/-- Whether the database has been closed. -/
def isClosed (db : Database σ) : Bool := db.backend.pool.closed

/-- The session of a number, if it is still there. -/
def session? (db : Database σ) (id : Nat) : Option Session :=
  db.sessions.lookup id

/-! ## Opening and closing -/

/-- Opens a database. -/
def connect [Driver σ] (schema : Schema) (settings : Settings) (env : Env σ) :
    Except Error (Database σ) × Env σ :=
  match settings.validate with
  | .error e => (.error e, env)
  | .ok _ =>
    match (Backend.openPool settings).run env with
    | (.error e, env) => (.error e, env)
    | (.ok pool, env) =>
      (.ok
        { settings := settings
          persister := ⟨schema, settings.showSql⟩
          backend := ⟨env, pool⟩ }, env)

/-- Closes the pool. -/
def close [Driver σ] : Step (Database σ) Unit := onBackend Backend.close

/-! ## Sessions -/

/-- Opens a session; gives its number. -/
def openSession : Step (Database σ) Nat := fun db =>
  if db.isClosed then (.error (.state .databaseClosed), db)
  else
    (.ok db.nextSession,
      { db with
        sessions := db.sessions ++ [(db.nextSession, { id := db.nextSession })]
        nextSession := db.nextSession + 1 })

/-- Works in a session. -/
def inSession (id : Nat) (m : Step (Scope σ) α) : Step (Database σ) α :=
  fun db =>
    match db.session? id with
    | none => (.error (.state .sessionClosed), db)
    | some session =>
      let r := m.run ⟨db.backend, session⟩
      (r.1,
        { db with
          backend := r.2.backend
          sessions := Assoc.insert id r.2.session db.sessions })

/-- Drops a session without closing it; its connection goes back. -/
def dropSession [Driver σ] (id : Nat) : Step (Database σ) Unit := do
  inSession id Session.releaseConnection
  Step.modify fun db => { db with sessions := Assoc.erase id db.sessions }

/-! ## Collections -/

variable [Driver σ]

/-- Loads the members of a collection through the session that the collection
was loaded by. -/
def loadMembers (source : Source) : Step (Database σ) (List Ref) := do
  let db ← Step.get
  let gone : Error := .lazyInitialization source.target
  match source.session with
  | none => Step.fail gone
  | some id =>
    match db.session? id with
    | none => Step.fail gone
    | some session =>
      if session.isOpen then
        inSession id (Session.loadMembers db.persister source)
      else Step.fail gone

/-- Asks something of the collection in a field of an entity. -/
def ask (owner : Ref) (field : String) (request : Request) :
    Step (Database σ) Reply := fun db =>
  let members := (db.heap.get owner).toMany field
  let (reply, members, db) := members.perform loadMembers request db
  let store := Env.update owner fun e => e.set field (.toMany members)
  (reply,
    { db with backend := { db.backend with env := store db.backend.env } })

end Database

end UnitOfWork

import UnitOfWork.Proofs.Custody
import UnitOfWork.Proofs.Echoes

/-!
# The echo of sessions

All that a session or a database does is made of calls that send no statement,
of writes, and of loads, so it echoes the statements that the persister of the
database sends in it and nothing else. What is done with connections and pools
sends no statement, and neither does opening a database.

## Main results

* `Session.echoes_flush`, `Session.echoes_find` and the like: requests to a
  session;
* `Database.echoes_inSession`, `Database.echoes_ask`: work in a session, and
  reading a collection;
* `Database.connect_sounding`: opening a database.
-/

namespace UnitOfWork

variable {Φ σ α : Type} {on : Φ → Bool}

/-! ## Backends -/

instance : Recorded (Backend σ) := ⟨fun backend => backend.env.trace⟩

instance : Echoed Φ (Backend σ) := ⟨fun _ echo backend =>
  { backend with env := { backend.env with echo := echo } }⟩

namespace Backend

theorem echoes_onEnv {m : Φ → Step (Env σ) α} (h : Echoes on m) :
    Echoes on fun φ => Backend.onEnv (m φ) :=
  h.zoom (fun _ _ _ => rfl) (fun _ _ _ _ _ => rfl) (fun _ => rfl)
    fun _ _ => rfl

theorem echoes_onPool (f : Pool → Pool) :
    Echoes on fun _ => (onPool f : Step (Backend σ) Unit) :=
  .modify (fun _ _ _ => rfl) fun _ => rfl

theorem echoes_lease :
    Echoes on fun _ => (lease : Step (Backend σ) ConnId) := by
  refine .of_silent fun backend => ⟨(lease.run backend).1,
    (lease.run backend).2, ?_, fun φ echo => ?_⟩
  · rw [lease_run]
    split <;> rfl
  · have hSame : (Echoed.sound φ echo backend : Backend σ).pool =
        backend.pool := rfl
    rw [lease_run, lease_run, hSame]
    split <;> rfl

variable [Driver σ]

theorem echoes_discard (conn : ConnId) :
    Echoes on fun _ => (discard conn : Step (Backend σ) Unit) :=
  .bind (echoes_onPool _) fun _ =>
    .bind (.attempt (echoes_onEnv (Env.echoes_call conn rfl))) fun _ => .pure ()

theorem echoes_release (conn : ConnId) :
    Echoes on fun _ => (release conn : Step (Backend σ) Unit) :=
  .get_bind (fun _ _ _ => rfl) fun _ =>
    .ite (echoes_discard conn) (echoes_onPool _)

theorem echoes_closeAll (conns : List ConnId) :
    Echoes on fun _ => (closeAll conns : Step (Env σ) (Option Error)) := by
  induction conns with
  | nil => exact .pure none
  | cons conn rest ih =>
      refine .bind (.attempt (Env.echoes_call conn rfl)) fun closed =>
        .bind ih fun later => ?_
      cases closed with
      | ok _ => exact .pure later
      | error e => exact .pure (some e)

theorem echoes_openMore (opened : List ConnId) (count : Nat) :
    Echoes on fun _ =>
      (openMore opened count : Step (Env σ) (List ConnId)) := by
  induction count generalizing opened with
  | zero => exact .pure opened
  | succ count ih =>
      refine .bind (.attempt (Env.echoes_call _ rfl)) fun connected => ?_
      cases connected with
      | ok _ => exact ih _
      | error e => exact .bind (echoes_closeAll opened) fun _ => .fail e

theorem echoes_openPool (settings : Settings) :
    Echoes on fun _ => (openPool settings : Step (Env σ) Pool) :=
  .ite (.fail _) (.bind (echoes_openMore [] settings.poolSize) fun conns =>
    .lift (Pool.ofConnections conns))

theorem echoes_close :
    Echoes on fun _ => (close : Step (Backend σ) Unit) := by
  refine .get_bind (fun _ _ _ => rfl) fun backend => .ite (.pure ()) ?_
  refine .bind (echoes_onPool _) fun _ =>
    .bind (echoes_onEnv (echoes_closeAll _)) fun failure => ?_
  cases failure with
  | none => exact .pure ()
  | some e => exact .fail e

end Backend

/-! ## Sessions -/

instance : Recorded (Scope σ) := ⟨fun scope => scope.backend.env.trace⟩

instance : Echoed Φ (Scope σ) := ⟨fun φ echo scope =>
  { scope with backend := Echoed.sound φ echo scope.backend }⟩

namespace Session

theorem echoes_onBackend {m : Φ → Step (Backend σ) α} (h : Echoes on m) :
    Echoes on fun φ => Session.onBackend (m φ) :=
  h.zoom (fun _ _ _ => rfl) (fun _ _ _ _ _ => rfl) (fun _ => rfl)
    fun _ _ => rfl

theorem echoes_onEnv {m : Φ → Step (Env σ) α} (h : Echoes on m) :
    Echoes on fun φ => Session.onEnv (m φ) :=
  h.zoom (fun _ _ _ => rfl) (fun _ _ _ _ _ => rfl) (fun _ => rfl)
    fun _ _ => rfl

theorem echoes_onWork {m : Φ → Step (Work σ) α} (h : Echoes on m) :
    Echoes on fun φ => Session.onWork (m φ) :=
  h.zoom (fun _ _ _ => rfl) (fun _ _ _ _ _ => rfl) (fun _ => rfl)
    fun _ _ => rfl

theorem echoes_self : Echoes on fun _ => (self : Step (Scope σ) Session) :=
  .of_silent fun scope => ⟨.ok scope.session, scope, rfl, fun _ _ => rfl⟩

theorem echoes_change (f : Session → Session) :
    Echoes on fun _ => (change f : Step (Scope σ) Unit) :=
  .modify (fun _ _ _ => rfl) fun _ => rfl

theorem echoes_ensureOpen :
    Echoes on fun _ => (ensureOpen : Step (Scope σ) Unit) :=
  .bind echoes_self fun _ => .ite (.pure ()) (.fail _)

theorem echoes_ensureTransaction :
    Echoes on fun _ => (ensureTransaction : Step (Scope σ) Unit) :=
  .bind echoes_self fun _ => .ite (.pure ()) (.fail _)

theorem echoes_ensureConnection :
    Echoes on fun _ => (ensureConnection : Step (Scope σ) ConnId) := by
  refine .bind echoes_self fun s => ?_
  cases s.connection with
  | some conn => exact .pure conn
  | none =>
      refine .bind (echoes_onBackend Backend.echoes_lease) fun conn => ?_
      exact .bind (echoes_change _) fun _ => .pure conn

/-- A load on a context echoes what the load echoes. -/
theorem echoes_loadIn (shared : Bool) {m : Φ → Step (Work σ) α}
    (h : Echoes on m) : Echoes on fun φ => loadIn shared (m φ) := by
  intro scope
  obtain ⟨r, work, made, hCalls, hRun⟩ := h ⟨scope.env,
    if shared then scope.session.context else {}⟩
  have hLoad : ∀ φ echo, (m φ).run ⟨(Echoed.sound φ echo scope).env,
      if shared then (Echoed.sound φ echo scope).session.context else {}⟩ =
        (r, Echoed.sound φ (echo ++ Call.echo (on φ) made) work) :=
    fun φ echo => hRun φ echo
  cases r with
  | error e =>
      refine ⟨.error e, scope.withEnv work.env, made, hCalls, fun φ echo => ?_⟩
      have hFailed := hLoad φ echo
      simp only [loadIn, Step.run] at hFailed ⊢
      rw [hFailed]
      rfl
  | ok a =>
      let context := if shared then work.context else scope.session.context
      refine ⟨.ok a, { scope.withEnv work.env with
        session := { scope.session with context := context } }, made, hCalls,
        fun φ echo => ?_⟩
      have hLoaded := hLoad φ echo
      simp only [loadIn, Step.run] at hLoaded ⊢
      rw [hLoaded]
      rfl

variable (schema : Schema)

theorem echoes_persist (ref : Ref) :
    Echoes on fun φ =>
      (persist ⟨schema, on φ⟩ ref : Step (Scope σ) Unit) := by
  refine .bind echoes_ensureOpen fun _ => .bind echoes_ensureTransaction
    fun _ => .get_bind (fun _ _ _ => rfl) fun scope => ?_
  refine .bind (.lift (scope.heap.entityKey schema ref)) fun key =>
    .bind echoes_self fun s => ?_
  cases key.filter s.context.containsKey with
  | some key => exact .fail _
  | none => exact echoes_change _

theorem echoes_remove (ref : Ref) :
    Echoes on fun φ =>
      (remove ⟨schema, on φ⟩ ref : Step (Scope σ) Unit) := by
  refine .bind echoes_ensureOpen fun _ => .bind echoes_ensureTransaction
    fun _ => .get_bind (fun _ _ _ => rfl) fun scope => ?_
  refine .bind echoes_self fun s => .bind
    (.lift (s.context.contains schema scope.heap ref)) fun contained => ?_
  exact .ite (echoes_change _) (.fail _)

variable [Driver σ]

theorem echoes_discardConnection :
    Echoes on fun _ => (discardConnection : Step (Scope σ) Unit) := by
  refine .bind echoes_self fun s => ?_
  cases s.connection with
  | none => exact .pure ()
  | some conn =>
      refine .bind (echoes_change _) fun _ => ?_
      exact echoes_onBackend (Backend.echoes_discard conn)

theorem echoes_releaseConnection :
    Echoes on fun _ => (releaseConnection : Step (Scope σ) Unit) := by
  refine .bind echoes_self fun s => ?_
  cases s.connection with
  | none => exact .pure ()
  | some conn =>
      refine .bind (echoes_change _) fun _ => ?_
      exact echoes_onBackend (Backend.echoes_release conn)

omit [Driver σ] in
theorem echoes_withLoader (shared : Bool) {load : Loader → Step (Work σ) α}
    (h : ∀ conn session, Echoes on fun φ =>
      load ⟨⟨schema, on φ⟩, conn, session⟩) :
    Echoes on fun φ => withLoader ⟨schema, on φ⟩ shared load :=
  .bind echoes_ensureConnection fun conn => .bind echoes_self fun s =>
    echoes_loadIn shared (h conn (some s.id))

theorem echoes_undo (conn : ConnId) (cause : Error) :
    Echoes on fun _ => (undo conn cause : Step (Scope σ) Unit) := by
  refine .bind (.attempt (echoes_onEnv (Env.echoes_call conn rfl)))
    fun rolledBack => ?_
  cases rolledBack with
  | ok _ =>
      refine .bind (.attempt (echoes_onEnv (Env.echoes_call conn rfl)))
        fun _ => ?_
      exact .fail _
  | error source => exact .bind echoes_discardConnection fun _ => .fail _

/-- What is carried out echoes its statements, and no more. -/
theorem echoes_runActions (conn : ConnId) (inTransaction : Bool)
    (actions : List Action) :
    Echoes on fun φ => (runActions ⟨schema, on φ⟩ conn inTransaction actions :
      Step (Work σ) Unit) := by
  have hCall : ∀ c : Call, c.statement? = none →
      Echoes on fun _ => Work.onEnv (σ := σ) (Env.call conn c) :=
    fun _ hNone => Work.echoes_onEnv (Env.echoes_call conn hNone)
  have hWork : Echoes on fun φ =>
      Action.executeAll (σ := σ) ⟨schema, on φ⟩ conn actions :=
    Action.echoes_executeAll schema conn actions
  have hRest := fun _ : Unit => hWork.bind fun _ =>
    (hCall .commit rfl).bind fun _ => hCall (.setAutoCommit true) rfl
  cases inTransaction with
  | true => exact .bind (hCall (.setAutoCommit false) rfl) hRest
  | false => exact hRest ()

theorem echoes_runQueue (saved : Context) :
    Echoes on fun φ =>
      (runQueue ⟨schema, on φ⟩ saved : Step (Scope σ) Unit) := by
  refine .bind (.attempt echoes_ensureConnection) fun leased => ?_
  cases leased with
  | error e =>
      exact .bind (echoes_change _) fun _ => .bind (echoes_change _) fun _ =>
        .fail e
  | ok conn =>
      refine .bind echoes_self fun s => .bind (echoes_change _) fun _ => ?_
      refine .bind (.attempt (echoes_onWork
        (echoes_runActions schema conn s.inTransaction s.queue.drain)))
        fun done => ?_
      cases done with
      | ok _ => exact .pure ()
      | error cause =>
          exact .bind (echoes_change _) fun _ => echoes_undo conn cause

omit [Driver σ] in
theorem echoes_collectDirty :
    Echoes on fun φ =>
      (collectDirty ⟨schema, on φ⟩ : Step (Scope σ) Unit) := by
  refine .of_silent fun scope => ?_
  have hSame : ∀ (φ : Φ) echo,
      (Echoed.sound φ echo scope).session.context.diff schema
        (Echoed.sound φ echo scope).heap =
      scope.session.context.diff schema scope.heap := fun _ _ => rfl
  rcases hDiff : scope.session.context.diff schema scope.heap with
    e | ⟨dirty, context⟩
  · refine ⟨.error e, scope, rfl, fun φ echo => ?_⟩
    simp only [collectDirty, Step.run, hSame, hDiff]
  · let updates := dirty.map fun d => (⟨.update, d.ref⟩ : Action)
    refine ⟨.ok (), { scope with session := { scope.session with
      context := context, queue := scope.session.queue.enqueueAll updates } },
      rfl, fun φ echo => ?_⟩
    simp only [collectDirty, Step.run, hSame, hDiff]
    rfl

/-- A flush echoes what its actions send. -/
theorem echoes_flush :
    Echoes on fun φ => (flush ⟨schema, on φ⟩ : Step (Scope σ) Unit) :=
  .bind echoes_ensureOpen fun _ => .bind echoes_self fun saved =>
    .bind (echoes_collectDirty schema) fun _ => .bind echoes_self fun _ =>
      .ite (.pure ()) (echoes_runQueue schema saved.context)

theorem echoes_find (type : String) (id : EntityId) :
    Echoes on fun φ =>
      (find ⟨schema, on φ⟩ type id : Step (Scope σ) (Option Ref)) := by
  refine .bind echoes_ensureOpen fun _ => .bind (echoes_flush schema) fun _ =>
    .bind echoes_self fun s => ?_
  cases s.context.get? ⟨type, id⟩ with
  | some ref => exact .pure _
  | none =>
      exact echoes_withLoader schema true fun conn session =>
        Loader.echoes_loadById schema conn session type id

theorem echoes_findAll (type : String) :
    Echoes on fun φ =>
      (findAll ⟨schema, on φ⟩ type : Step (Scope σ) (List Ref)) :=
  .bind echoes_ensureOpen fun _ => .bind (echoes_flush schema) fun _ =>
    .bind (.lift (schema.descriptor type)) fun _ =>
      echoes_withLoader schema false fun conn session =>
        Loader.echoes_loadAll schema conn session type

theorem echoes_loadMembers (source : Source) :
    Echoes on fun φ =>
      (loadMembers ⟨schema, on φ⟩ source : Step (Scope σ) (List Ref)) :=
  .bind (.lift (schema.descriptor source.target)) fun _ =>
    echoes_withLoader schema true fun conn session =>
      Loader.echoes_loadMembers schema conn session source

theorem echoes_close :
    Echoes on fun φ => (close ⟨schema, on φ⟩ : Step (Scope σ) Unit) :=
  .bind echoes_ensureOpen fun _ => .bind (echoes_flush schema) fun _ =>
    .bind (echoes_change _) fun _ => .bind (echoes_change _) fun _ =>
      echoes_releaseConnection

theorem echoes_commit :
    Echoes on fun φ => (commit ⟨schema, on φ⟩ : Step (Scope σ) Unit) :=
  .bind echoes_ensureTransaction fun _ =>
    .bind (.attempt (echoes_flush schema)) fun flushed =>
      .bind (echoes_change _) fun _ => .lift flushed

theorem echoes_rollbackConnection :
    Echoes on fun _ => (rollbackConnection : Step (Scope σ) Unit) := by
  refine .bind echoes_self fun s => ?_
  cases s.connection with
  | none => exact .pure ()
  | some conn =>
      refine .bind (.attempt (echoes_onEnv (Env.echoes_call conn rfl)))
        fun rolledBack => ?_
      cases rolledBack with
      | ok _ => exact echoes_onEnv (Env.echoes_call conn rfl)
      | error e => exact .bind echoes_discardConnection fun _ => .fail e

theorem echoes_rollback :
    Echoes on fun _ => (rollback : Step (Scope σ) Unit) :=
  .bind echoes_ensureTransaction fun _ => .bind (echoes_change _) fun _ =>
    .bind (echoes_change _) fun _ => echoes_rollbackConnection

end Session

/-! ## Databases -/

/-- Who sends statements: the persister that the sessions of a database share,
and the persisters that are used without a session. -/
inductive Speaker
  | database
  | bare (number : Nat)
deriving DecidableEq

/-- For whom the echo is on. What the settings of a database say is what its
sessions go by when it is opened. -/
structure Loudness where
  settings : Bool
  database : Bool
  bare : Nat → Bool

namespace Loudness

/-- Whether it is on for a speaker. -/
def isOn (l : Loudness) : Speaker → Bool
  | .database => l.database
  | .bare number => l.bare number

/-- It is on for nobody. -/
def off : Loudness := ⟨false, false, fun _ => false⟩

/-- It is on for one speaker only. -/
def only (speaker : Speaker) : Loudness :=
  ⟨speaker = .database, speaker = .database, fun n => speaker = .bare n⟩

theorem isOn_off (speaker : Speaker) : off.isOn speaker = false := by
  cases speaker <;> rfl

theorem isOn_only (speaker other : Speaker) :
    (only speaker).isOn other = decide (speaker = other) := by
  cases other <;> rfl

end Loudness

namespace Database

/-- The database with this echo, where the echo is on for those. -/
def sounding (l : Loudness) (echo : List String) (db : Database σ) :
    Database σ :=
  { db with
    settings := db.settings.withShowSql l.settings
    persister := { db.persister with showSql := l.database }
    backend := Echoed.sound l echo db.backend }

instance : Recorded (Database σ) := ⟨fun db => db.backend.env.trace⟩

instance : Echoed Loudness (Database σ) := ⟨sounding⟩

theorem echoes_onBackend {on : Loudness → Bool}
    {m : Loudness → Step (Backend σ) α} (h : Echoes on m) :
    Echoes on fun l => Database.onBackend (m l) :=
  h.zoom (fun _ _ _ => rfl) (fun _ _ _ _ _ => rfl) (fun _ => rfl)
    fun _ _ => rfl

theorem echoes_openSession {on : Loudness → Bool} :
    Echoes on fun _ => (openSession : Step (Database σ) Nat) := by
  refine .of_silent fun db => ⟨(openSession.run db).1,
    (openSession.run db).2, ?_, fun l echo => ?_⟩
  · simp only [openSession, Step.run]
    split <;> rfl
  · have hSame : (Echoed.sound l echo db).isClosed = db.isClosed := rfl
    simp only [openSession, Step.run, hSame]
    split <;> rfl

/-- Work in a session echoes what it echoes. -/
theorem echoes_inSession {on : Loudness → Bool} (id : Nat)
    {m : Loudness → Step (Scope σ) α} (h : Echoes on m) :
    Echoes on fun l => inSession id (m l) := by
  intro db
  have hSame : ∀ l echo, (Echoed.sound l echo db).session? id =
      db.session? id := fun (_ : Loudness) _ => rfl
  cases hSession : db.session? id with
  | none =>
      refine ⟨.error (.state .sessionClosed), db, [],
        (List.append_nil _).symm, fun l echo => ?_⟩
      simp only [inSession, Step.run, hSame, hSession, Call.echo_nil,
        List.append_nil]
  | some session =>
      obtain ⟨r, after, made, hCalls, hRun⟩ := h ⟨db.backend, session⟩
      refine ⟨r, { db with
        backend := after.backend
        sessions := Assoc.insert id after.session db.sessions }, made, hCalls,
        fun l echo => ?_⟩
      have hWork : (m l).run ⟨(Echoed.sound l echo db).backend, session⟩ =
          (r, Echoed.sound l (echo ++ Call.echo (on l) made) after) :=
        hRun l echo
      simp only [Step.run] at hWork
      simp only [inSession, Step.run, hSame, hSession, hWork]
      rfl

variable [Driver σ]

theorem echoes_dropSession {on : Loudness → Bool} (id : Nat) :
    Echoes on fun _ => (dropSession id : Step (Database σ) Unit) :=
  .bind (echoes_inSession id Session.echoes_releaseConnection) fun _ =>
    .modify (fun _ _ _ => rfl) fun _ => rfl

/-- Opening a database echoes nothing, and its sessions will echo what they
send as its settings say. -/
theorem connect_sounding (schema : Schema) (settings : Settings)
    (env : Env σ) :
    let opened := connect schema settings env
    opened.2.echo = env.echo ∧
      (∀ db, opened.1 = .ok db → db.settings = settings ∧
        db.persister = ⟨schema, settings.showSql⟩ ∧
          db.backend.env = opened.2) ∧
      ∀ on bare echo, connect schema (settings.withShowSql on)
          { env with echo := echo } =
        (opened.1.map (sounding ⟨on, on, bare⟩ echo),
          { opened.2 with echo := echo }) := by
  intro opened
  have hOpening : Echoes (fun _ : Unit => false) fun _ =>
      (Backend.openPool settings : Step (Env σ) Pool) :=
    Backend.echoes_openPool settings
  obtain ⟨r, after, made, -, hRun⟩ := hOpening env
  have hPool : ∀ echo : List String, (Backend.openPool settings).run
      { env with echo := echo } = (r, { after with echo := echo }) := by
    intro echo
    have hSilent := hRun () echo
    rw [Call.echo, if_neg Bool.false_ne_true, List.append_nil] at hSilent
    exact hSilent
  have hOwn : (Backend.openPool settings).run env =
      (r, { after with echo := env.echo }) := hPool env.echo
  -- Whether it is on matters neither to the settings nor to the pool.
  have hSame : ∀ on, (settings.withShowSql on).validate = settings.validate ∧
      Backend.openPool (σ := σ) (settings.withShowSql on) =
        Backend.openPool settings := fun _ => ⟨rfl, rfl⟩
  cases hValid : settings.validate with
  | error e =>
      have hOpened : opened = (.error e, env) := by
        simp only [opened, connect, hValid]
      rw [hOpened]
      refine ⟨rfl, fun _ hDb => (by cases hDb), fun on bare echo => ?_⟩
      simp only [connect, hSame, hValid]
      rfl
  | ok _ =>
      cases r with
      | error e =>
          have hOpened : opened =
              (.error e, { after with echo := env.echo }) := by
            simp only [opened, connect, hValid, hOwn]
          rw [hOpened]
          refine ⟨rfl, fun _ hDb => (by cases hDb), fun on bare echo => ?_⟩
          simp only [connect, hSame, hValid, hPool]
          rfl
      | ok pool =>
          have hOpened : opened =
              (.ok ⟨settings, ⟨schema, settings.showSql⟩,
                ⟨{ after with echo := env.echo }, pool⟩, [], 0⟩,
                { after with echo := env.echo }) := by
            simp only [opened, connect, hValid, hOwn]
          rw [hOpened]
          refine ⟨rfl, ?_, fun on bare echo => ?_⟩
          · rintro db hDb
            cases hDb
            exact ⟨rfl, rfl, rfl⟩
          · simp only [connect, hSame, hValid, hPool]
            rfl

/-- The session that a collection can be read through: the one that it was
loaded by, as long as that is open. -/
def reader? (db : Database σ) (source : Source) : Option Nat :=
  source.session.filter fun id => (db.session? id).any Session.isOpen

theorem loadMembers_run_of_reader {db : Database σ} {source : Source}
    {id : Nat} (h : db.reader? source = some id) :
    (loadMembers source).run db =
      (inSession id (Session.loadMembers db.persister source)).run db := by
  obtain ⟨hSource, hAny⟩ := Option.filter_eq_some_iff.1 h
  obtain ⟨session, hSession, hOpen⟩ := (Option.any_eq_true _ _).1 hAny
  rw [loadMembers, Step.bind_run, Step.get_run]
  simp only [hSource, hSession, hOpen, if_true]

theorem loadMembers_run_of_none {db : Database σ} {source : Source}
    (h : db.reader? source = none) :
    (loadMembers source).run db =
      (.error (.lazyInitialization source.target), db) := by
  rw [loadMembers, Step.bind_run, Step.get_run]
  cases hSource : source.session with
  | none => rfl
  | some id =>
      simp only [reader?, hSource] at h
      cases hSession : db.session? id with
      | none => simp only [hSession, Step.fail_run]
      | some session =>
          have hClosed : session.isOpen = false := by
            simpa [hSession] using h
          simp only [hSession, hClosed, Bool.false_eq_true, if_false,
            Step.fail_run]

/-- Reading a collection echoes its query, if it is read from the database. -/
theorem echoes_loadMembers (source : Source) :
    Echoes Loudness.database fun _ =>
      (loadMembers source : Step (Database σ) (List Ref)) := by
  refine .of_eq fun db => ?_
  cases hReader : db.reader? source with
  | none =>
      exact ⟨_, .fail (.lazyInitialization source.target),
        fun _ _ => loadMembers_run_of_none hReader⟩
  | some id =>
      exact ⟨fun l => inSession id (Session.loadMembers
          ⟨db.persister.schema, l.database⟩ source),
        echoes_inSession id (Session.echoes_loadMembers _ source),
        fun _ _ => loadMembers_run_of_reader hReader⟩

/-- What a request on an unresolved collection comes to when its members have
been loaded, or could not be. -/
def settle (source : Source) (request : Request) :
    Except Error (List Ref) → Except Error Reply × Collection Source
  | .error e => (.error e, .unresolved source)
  | .ok items =>
    (.ok (request.onList items).1, .resolved (request.onList items).2)

/-- Gives an answer and leaves a collection in a field. -/
def answer (owner : Ref) (field : String)
    (r : Except Error Reply × Collection Source) : Step (Database σ) Reply := do
  Step.modify fun db => db.giving owner field r.2
  Step.ofExcept r.1

omit [Driver σ] in
theorem echoes_answer {on : Loudness → Bool} (owner : Ref) (field : String)
    (r : Except Error Reply × Collection Source) :
    Echoes on fun _ => (answer owner field r : Step (Database σ) Reply) :=
  .bind (.modify (fun _ _ _ => rfl) fun _ => rfl) fun _ => .lift r.1

/-- A request on a collection is answered at once, or after a load. -/
theorem ask_cases (owner : Ref) (field : String) (request : Request)
    (members : Collection Source) :
    (∃ r, ∀ db : Database σ, (db.heap.get owner).toMany field = members →
      (ask owner field request).run db = (answer owner field r).run db) ∨
    ∃ source, ∀ db : Database σ, (db.heap.get owner).toMany field = members →
      (ask owner field request).run db =
        ((loadMembers source).attempt >>= fun loaded =>
          answer owner field (settle source request loaded)).run db := by
  cases members with
  | resolved items =>
      refine .inl ⟨(.ok (request.onList items).1,
        .resolved (request.onList items).2), fun db hMembers => ?_⟩
      rw [ask_run, hMembers]
      simp only [Collection.perform_resolved]
      rfl
  | unresolved source =>
      by_cases hLoaded : request = .isLoaded
      · subst hLoaded
        refine .inl ⟨(.ok (.flag false), .unresolved source),
          fun db hMembers => ?_⟩
        rw [ask_run, hMembers]
        rfl
      · by_cases hDebug : request = .debug
        · subst hDebug
          refine .inl ⟨(.ok (.text "EntityCollection(<unresolved>)"),
            .unresolved source), fun db hMembers => ?_⟩
          rw [ask_run, hMembers]
          rfl
        · refine .inr ⟨source, fun db hMembers => ?_⟩
          rw [ask_run, hMembers, Step.bind_run, Step.attempt_run]
          simp only
          rw [Collection.perform_unresolved _ source hLoaded hDebug]
          rcases (loadMembers source).run db with ⟨e | items, after⟩
          · rfl
          · simp only [Collection.perform_resolved]
            rfl

theorem echoes_ask (owner : Ref) (field : String) (request : Request) :
    Echoes Loudness.database fun _ =>
      (ask owner field request : Step (Database σ) Reply) := by
  refine .of_eq fun db => ?_
  rcases ask_cases (σ := σ) owner field request
      ((db.heap.get owner).toMany field) with ⟨r, hRun⟩ | ⟨source, hRun⟩
  · exact ⟨_, echoes_answer owner field r, fun _ _ => hRun _ rfl⟩
  · refine ⟨_, ?_, fun _ _ => hRun _ rfl⟩
    exact .bind (.attempt (echoes_loadMembers source)) fun loaded =>
      echoes_answer owner field (settle source request loaded)

end Database

end UnitOfWork

import UnitOfWork.Proofs.EchoedSessions

/-!
# The echo of a run

A database is used through its sessions, and persisters are used beside them;
each of them has its echo on or off. An application may also make calls itself,
which nobody echoes, and it edits its entities.

Whatever is done, in whatever order, and whatever fails, the echo shows what was
sent by those who have it on, each statement once and in the order in which it
was sent, and nothing else. What is sent, what is given back and what is left
does not depend on who has the echo on.

## Main results

* `Chorus.Task.echoes_step`: what is done echoes what is sent in it;
* `Chorus.run_sounding`: so do runs;
* `Chorus.echo_faithful`: databases from their opening on.
-/

namespace UnitOfWork

variable {Φ σ α : Type} {on : Φ → Bool}

/-! ## What is asked -/

/-- What is given back. -/
inductive Answer
  | done
  /-- The number of a session or of a connection. -/
  | number (n : Nat)
  | entity (ref : Option Ref)
  | entities (refs : List Ref)
  | reply (reply : Reply)
  /-- What the driver answers to a call. -/
  | called (c : Call) (answer : c.Answer)

/-- A request to a session, with what the session gives back. -/
def Operation.ask [Driver σ] (p : Persister) :
    Operation → Step (Scope σ) Answer
  | persist ref => do Session.persist p ref; pure .done
  | remove ref => do Session.remove p ref; pure .done
  | find type id => do let ref ← Session.find p type id; pure (.entity ref)
  | findAll type => do let refs ← Session.findAll p type; pure (.entities refs)
  | loadMembers source => do
    let refs ← Session.loadMembers p source
    pure (.entities refs)
  | flush => do Session.flush p; pure .done
  | begin => do Session.begin; pure .done
  | commit => do Session.commit p; pure .done
  | rollback => do Session.rollback; pure .done
  | clear => do Session.clear; pure .done
  | close => do Session.close p; pure .done

/-- Every request echoes what the session sends. -/
theorem Operation.echoes_ask [Driver σ] (schema : Schema) (op : Operation) :
    Echoes on fun φ =>
      (op.ask ⟨schema, on φ⟩ : Step (Scope σ) Answer) := by
  cases op with
  | persist ref =>
      exact .bind (Session.echoes_persist schema ref) fun _ => .pure _
  | remove ref =>
      exact .bind (Session.echoes_remove schema ref) fun _ => .pure _
  | find type id =>
      exact .bind (Session.echoes_find schema type id) fun _ => .pure _
  | findAll type =>
      exact .bind (Session.echoes_findAll schema type) fun _ => .pure _
  | loadMembers source =>
      exact .bind (Session.echoes_loadMembers schema source) fun _ => .pure _
  | flush => exact .bind (Session.echoes_flush schema) fun _ => .pure _
  | begin =>
      refine .bind ?_ fun _ => .pure _
      exact .bind Session.echoes_ensureOpen fun _ => Session.echoes_change _
  | commit => exact .bind (Session.echoes_commit schema) fun _ => .pure _
  | rollback => exact .bind Session.echoes_rollback fun _ => .pure _
  | clear =>
      refine .bind ?_ fun _ => .pure _
      exact .bind Session.echoes_ensureOpen fun _ => Session.echoes_change _
  | close => exact .bind (Session.echoes_close schema) fun _ => .pure _

/-- A load apart echoes what the load echoes. -/
theorem Work.echoes_apart {m : Φ → Step (Work σ) α} (h : Echoes on m) :
    Echoes on fun φ => Work.apart (m φ) := by
  have hZoom : Echoes on fun φ => Step.zoom (fun env : Env σ => ⟨env, {}⟩)
      (fun work _ => work.env) (m φ) :=
    h.zoom (fun _ _ _ => rfl) (fun _ _ _ _ _ => rfl) (fun _ => rfl)
      fun _ _ => rfl
  exact hZoom

/-- So what a persister looks up without a session echoes its queries. -/
theorem Find.echoes_load [Driver σ] (schema : Schema) (conn : ConnId)
    (find : Find) :
    Echoes on fun φ => Work.apart (σ := σ)
      (find.load ⟨⟨schema, on φ⟩, conn, none⟩) := by
  refine Work.echoes_apart ?_
  cases find with
  | byId type id =>
      refine .bind ?_ fun _ => .pure _
      exact Loader.echoes_loadById schema conn none type id
  | one type field v =>
      refine .bind ?_ fun _ => .pure _
      exact Loader.echoes_loadOne schema conn none type field v
  | all type => exact Loader.echoes_loadAll schema conn none type
  | allBy type field v =>
      exact Loader.echoes_loadAllBy schema conn none type field v

/-! ## Runs -/

/-- A database with its sessions, and the persisters that are used beside
them. -/
structure Chorus (σ : Type) where
  db : Database σ
  /-- Whether the bare persister of a number has its echo on. -/
  bare : Nat → Bool

namespace Chorus

/-- For whom the echo is on. -/
def loudness (c : Chorus σ) : Loudness :=
  ⟨c.db.settings.showSql, c.db.persister.showSql, c.bare⟩

/-- What has been echoed so far. -/
def echo (c : Chorus σ) : List String := c.db.backend.env.echo

/-- The calls made so far. -/
def trace (c : Chorus σ) : List (ConnId × Call) := c.db.backend.env.trace

/-- The same with another echo, which is on for others. -/
def sounding (l : Loudness) (echo : List String) (c : Chorus σ) : Chorus σ :=
  ⟨c.db.sounding l echo, l.bare⟩

/-- The bare persister of a number. -/
def persister (c : Chorus σ) (number : Nat) : Persister :=
  ⟨c.db.persister.schema, c.bare number⟩

instance : Recorded (Chorus σ) := ⟨trace⟩

instance : Echoed Loudness (Chorus σ) := ⟨sounding⟩

/-- Works on the database alone. -/
def onDatabase (m : Step (Database σ) α) : Step (Chorus σ) α :=
  Step.zoom Chorus.db (fun db c => { c with db := db }) m

/-- Works with a bare persister. -/
def withBare (number : Nat) (m : Persister → Step (Env σ) α) :
    Step (Chorus σ) α := do
  let p := (← Step.get).persister number
  onDatabase (Database.onEnv (m p))

/-- Something that is done. -/
inductive Task (σ : Type)
  | openSession
  | request (session : Nat) (op : Operation)
  | dropSession (session : Nat)
  /-- A collection is asked something. -/
  | ask (owner : Ref) (field : String) (request : Request)
  /-- A bare persister writes an entity, or looks some up, on a connection. -/
  | write (persister : Nat) (conn : ConnId) (action : Action)
  | find (persister : Nat) (conn : ConnId) (find : Find)
  /-- The application leases a connection, gives one back, or discards it. -/
  | lease
  | release (conn : ConnId)
  | discard (conn : ConnId)
  /-- It makes a call on a connection itself. -/
  | call (conn : ConnId) (c : Call)
  | closeDatabase
  /-- Entities are edited, or the database is worked on by other means. -/
  | outside (f : σ → Heap → σ × Heap)

namespace Task

/-- Who sends the statements of it. Those of calls that the application makes
itself are its own. -/
def speaker : Task σ → Option Speaker
  | write number .. | find number .. => some (.bare number)
  | call .. | outside _ => none
  | _ => some .database

/-- Does it. -/
def step [Driver σ] : Task σ → Step (Chorus σ) Answer
  | openSession => onDatabase do
    let id ← Database.openSession
    pure (.number id)
  | request session op => onDatabase do
    let db ← Step.get
    Database.inSession session (op.ask db.persister)
  | dropSession session => onDatabase do
    Database.dropSession session
    pure .done
  | ask owner field asked => onDatabase do
    let reply ← Database.ask owner field asked
    pure (.reply reply)
  | write number conn action => do
    withBare number fun p => p.write conn action
    pure .done
  | find number conn wanted => do
    let refs ← withBare number fun p =>
      Work.apart (wanted.load ⟨p, conn, none⟩)
    pure (.entities refs)
  | lease => onDatabase do
    let conn ← Database.onBackend Backend.lease
    pure (.number conn)
  | release conn => onDatabase do
    Database.onBackend (Backend.release conn)
    pure .done
  | discard conn => onDatabase do
    Database.onBackend (Backend.discard conn)
    pure .done
  | call conn c => onDatabase do
    let answer ← Database.onEnv (Env.call conn c)
    pure (.called c answer)
  | closeDatabase => onDatabase do
    Database.close
    pure .done
  | outside f => onDatabase do
    Database.onEnv (Step.modify fun env =>
      let r := f env.driver env.heap
      { env with driver := r.1, heap := r.2 })
    pure .done

end Task

/-- What has been done: who may have sent statements, what was given back, and
the calls that were made. -/
structure Entry where
  speaker : Option Speaker
  answer : Except Error Answer
  calls : List (ConnId × Call)

/-- What is echoed of it: the texts of the statements that were sent, if the
echo is on for who sent them. -/
def Entry.echoed (l : Loudness) (entry : Entry) : List String :=
  Call.echo (entry.speaker.any l.isOn) entry.calls

/-- Does one thing after another, whatever comes of each. -/
def run [Driver σ] : List (Task σ) → Chorus σ → List Entry × Chorus σ
  | [], c => ([], c)
  | task :: rest, c =>
    let r := task.step.run c
    let later := run rest r.2
    (⟨task.speaker, r.1, r.2.trace.drop c.trace.length⟩ :: later.1, later.2)

/-! ## What is echoed of a run -/

/-- Nothing else is there than for whom the echo is on, and what has been
echoed. -/
@[simp] theorem sounding_self (c : Chorus σ) :
    c.sounding c.loudness c.echo = c := rfl

@[simp] theorem trace_sounding (l : Loudness) (echo : List String)
    (c : Chorus σ) : (c.sounding l echo).trace = c.trace := rfl

theorem echoes_onDatabase {on : Loudness → Bool}
    {m : Loudness → Step (Database σ) α} (h : Echoes on m) :
    Echoes on fun l => onDatabase (m l) :=
  h.zoom (fun _ _ _ => rfl) (fun _ _ _ _ _ => rfl) (fun _ => rfl)
    fun _ _ => rfl

variable [Driver σ]

omit [Driver σ] in
/-- What a bare persister does echoes what it sends. -/
theorem echoes_withBare {number : Nat} {m : Persister → Step (Env σ) α}
    (h : ∀ schema, Echoes (Loudness.isOn · (.bare number)) fun l =>
      m ⟨schema, l.bare number⟩) :
    Echoes (Loudness.isOn · (.bare number)) fun _ => withBare number m :=
  .of_eq fun c => ⟨_, echoes_onDatabase (Database.echoes_onBackend
    (Backend.echoes_onEnv (h c.db.persister.schema))), fun _ _ => rfl⟩

theorem Task.echoes_step (task : Task σ) :
    Echoes (fun l : Loudness => task.speaker.any l.isOn) fun _ =>
      (task.step : Step (Chorus σ) Answer) := by
  cases task with
  | openSession =>
      exact echoes_onDatabase (.bind Database.echoes_openSession fun _ =>
        .pure _)
  | request session op =>
      refine echoes_onDatabase (.of_eq fun db => ⟨fun l => Database.inSession
        session (op.ask ⟨db.persister.schema, l.database⟩), ?_,
        fun _ _ => rfl⟩)
      exact Database.echoes_inSession session (op.echoes_ask _)
  | dropSession session =>
      exact echoes_onDatabase (.bind (Database.echoes_dropSession session)
        fun _ => .pure _)
  | ask owner field asked =>
      exact echoes_onDatabase (.bind (Database.echoes_ask owner field asked)
        fun _ => .pure _)
  | write number conn action =>
      exact .bind (echoes_withBare fun schema =>
        Persister.echoes_write schema conn action) fun _ => .pure _
  | find number conn wanted =>
      exact .bind (echoes_withBare fun schema =>
        wanted.echoes_load schema conn) fun _ => .pure _
  | lease =>
      exact echoes_onDatabase (.bind (Database.echoes_onBackend
        Backend.echoes_lease) fun _ => .pure _)
  | release conn =>
      exact echoes_onDatabase (.bind (Database.echoes_onBackend
        (Backend.echoes_release conn)) fun _ => .pure _)
  | discard conn =>
      exact echoes_onDatabase (.bind (Database.echoes_onBackend
        (Backend.echoes_discard conn)) fun _ => .pure _)
  | call conn c =>
      exact echoes_onDatabase (.bind (Database.echoes_onBackend
        (Backend.echoes_onEnv (Env.echoes_call_apart conn c))) fun _ => .pure _)
  | closeDatabase =>
      exact echoes_onDatabase (.bind (Database.echoes_onBackend
        Backend.echoes_close) fun _ => .pure _)
  | outside f =>
      exact echoes_onDatabase (.bind (Database.echoes_onBackend
        (Backend.echoes_onEnv (.modify (fun _ _ _ => rfl) fun _ => rfl)))
          fun _ => .pure _)

/-- What is done one after another is the same whatever has been echoed before
and for whomever the echo is on, and echoes what is sent. -/
theorem run_sounding (tasks : List (Task σ)) (c : Chorus σ) :
    ∃ (entries : List Entry) (last : Chorus σ),
      last.trace = c.trace ++ entries.flatMap Entry.calls ∧
      entries.map Entry.speaker = tasks.map Task.speaker ∧
      ∀ l echo, run tasks (c.sounding l echo) = (entries,
        last.sounding l (echo ++ entries.flatMap (Entry.echoed l))) := by
  induction tasks generalizing c with
  | nil =>
      refine ⟨[], c, (List.append_nil _).symm, rfl, fun l echo => ?_⟩
      rw [List.flatMap_nil, List.append_nil]
      rfl
  | cons task rest ih =>
      obtain ⟨r, after, made, hMade, hRun⟩ := task.echoes_step c
      obtain ⟨entries, last, hTrace, hSpeakers, hLater⟩ := ih after
      have hCalls : after.trace = c.trace ++ made := hMade
      have hStep : ∀ l echo, task.step.run (c.sounding l echo) =
          (r, after.sounding l
            (echo ++ Call.echo (task.speaker.any l.isOn) made)) := hRun
      refine ⟨⟨task.speaker, r, made⟩ :: entries, last, ?_, ?_,
        fun l echo => ?_⟩
      · rw [hTrace, hCalls, List.flatMap_cons, List.append_assoc]
      · rw [List.map_cons, List.map_cons, hSpeakers]
      · simp only [run, hStep, hLater, trace_sounding, hCalls,
          List.drop_left, List.flatMap_cons, List.append_assoc]
        rfl

/-! ## Who is heard -/

omit [Driver σ] in
/-- Of what nobody is to echo nothing is echoed. -/
theorem echoed_off (entries : List Entry) :
    entries.flatMap (Entry.echoed .off) = [] := by
  refine List.flatMap_eq_nil_iff.2 fun entry _ => ?_
  have hOff : entry.speaker.any Loudness.off.isOn = false := by
    cases entry.speaker with
    | none => rfl
    | some speaker => exact Loudness.isOn_off speaker
  rw [Entry.echoed, hOff]
  rfl

omit [Driver σ] in
/-- If only one speaker is to echo, what is echoed are the texts of what that
one has sent. -/
theorem echoed_only (speaker : Speaker) (entries : List Entry) :
    entries.flatMap (Entry.echoed (.only speaker)) =
      (entries.filter fun entry => entry.speaker = some speaker).flatMap
        fun entry => Call.texts entry.calls := by
  induction entries with
  | nil => rfl
  | cons entry rest ih =>
      have hOn : entry.speaker.any (Loudness.only speaker).isOn =
          decide (entry.speaker = some speaker) := by
        cases entry.speaker with
        | none => rfl
        | some other =>
            rw [Option.any_some, Loudness.isOn_only]
            simp only [Option.some.injEq, eq_comm]
      rw [List.flatMap_cons, ih, Entry.echoed, hOn, List.filter_cons]
      by_cases hSpeaker : entry.speaker = some speaker
      · simp only [hSpeaker, decide_true, Call.echo, if_true, List.flatMap_cons]
      · simp only [hSpeaker, decide_false, Call.echo, Bool.false_eq_true,
          if_false, List.nil_append]

/-- The echo is faithful. A database is opened alike whether its echo is to be
on or off, and opening it echoes nothing. Whatever is done then with its
sessions, with bare persisters, and besides, and whatever fails: the texts of
the statements that were sent by those for whom the echo is on have been
echoed, each once and in the order in which they were sent, and nothing else;
nothing at all if it is on for nobody. For whomever it is on, the same is given
back, the same calls are made, and the same is left. -/
theorem echo_faithful (schema : Schema) :
    (∀ (settings : Settings) (env : Env σ),
      let opened := Database.connect schema settings env
      opened.2.echo = env.echo ∧
        (∀ db, opened.1 = .ok db → db.settings = settings ∧
          db.persister = ⟨schema, settings.showSql⟩ ∧
            db.backend.env = opened.2) ∧
        ∀ on bare echo, Database.connect schema (settings.withShowSql on)
            { env with echo := echo } =
          (opened.1.map (Database.sounding ⟨on, on, bare⟩ echo),
            { opened.2 with echo := echo })) ∧
    ∀ (tasks : List (Task σ)) (start : Chorus σ),
      match run tasks start with
      | (entries, last) =>
        entries.map Entry.speaker = tasks.map Task.speaker ∧
        last.trace = start.trace ++ entries.flatMap Entry.calls ∧
        last.loudness = start.loudness ∧
        last.echo = start.echo ++
          entries.flatMap (Entry.echoed start.loudness) ∧
        (∀ l echo, run tasks (start.sounding l echo) = (entries,
          last.sounding l (echo ++ entries.flatMap (Entry.echoed l)))) ∧
        (∀ echo, run tasks (start.sounding .off echo) =
          (entries, last.sounding .off echo)) ∧
        ∀ speaker echo, run tasks (start.sounding (.only speaker) echo) =
          (entries, last.sounding (.only speaker) (echo ++
            (entries.filter fun entry => entry.speaker = some speaker).flatMap
              fun entry => Call.texts entry.calls)) := by
  refine ⟨Database.connect_sounding schema, fun tasks start => ?_⟩
  obtain ⟨entries, last, hTrace, hSpeakers, hRun⟩ := run_sounding tasks start
  have hOwn := hRun start.loudness start.echo
  rw [sounding_self] at hOwn
  rw [hOwn]
  refine ⟨hSpeakers, hTrace, rfl, rfl, hRun, fun echo => ?_,
    fun speaker echo => ?_⟩
  · rw [hRun, echoed_off, List.append_nil]
    rfl
  · rw [hRun, echoed_only]
    rfl

end Chorus

/-! ## A session and two bare persisters -/

namespace Memos

def insertion : String := "INSERT INTO memos(title) VALUES (?)"

def listing : String := "SELECT * FROM memos"

def lookup : String := "SELECT * FROM memos WHERE title = ?"

/-- A store without memos, and two memos with the same title that have not been
stored. -/
def drafts : Env Store where
  driver := store []
  heap := ⟨[memo .null "a", memo .null "a"]⟩

/-- Settings with two connections, and the echo on. -/
def audible : Settings :=
  ((Settings.ofUrl "memos").withPoolSize 2).withShowSql true

/-- The database that is opened, and bare persisters of which the first has its
echo on. -/
def chorus : Chorus Store where
  db :=
    { settings := audible
      persister := ⟨schema, true⟩
      backend := ⟨(drafts.called 0 .connect).called 1 .connect,
        { size := 2, idle := [1, 0] }⟩ }
  bare := fun number => number == 0

/-- A session stores both memos, and the second is refused. On a connection of
its own the application then has the first persister look for all memos, the
second one for one of them, and the first one delete a memo without a
number; the last query is its own. -/
def concert : List (Chorus.Task Store) :=
  [.openSession, .request 0 .begin, .request 0 (.persist 0),
    .request 0 (.persist 1), .request 0 .flush, .lease,
    .find 0 0 (.all "Memo"), .find 1 0 (.one "Memo" "title" (.text "a")),
    .write 0 0 ⟨.delete, 1⟩, .call 0 (.query (.selectAll "memos") [])]

/-- What comes of it. -/
def performed : List Chorus.Entry × Chorus Store := Chorus.run concert chorus

end Memos

/-- Both inserts and the first query are echoed, although the second insert is
refused; the deletion fails before anything is sent. With the echo off for
everybody the same comes of it in silence, and with the echo on for the second
bare persister alone only its query is echoed. -/
theorem Chorus.echo_faithful_of_memos :
    Database.connect Memos.schema Memos.audible Memos.drafts =
        (.ok Memos.chorus.db, Memos.chorus.db.backend.env) ∧
      Memos.performed.1.map (fun entry =>
          (entry.answer.isOk, Call.texts entry.calls)) =
        [(true, []), (true, []), (true, []), (true, []),
          (false, [Memos.insertion, Memos.insertion]), (true, []),
          (true, [Memos.listing]), (true, [Memos.lookup]), (false, []),
          (true, [Memos.listing])] ∧
      Memos.performed.2.echo =
        [Memos.insertion, Memos.insertion, Memos.listing] ∧
      run Memos.concert (Memos.chorus.sounding .off []) =
        (Memos.performed.1, Memos.performed.2.sounding .off []) ∧
      (run Memos.concert
        (Memos.chorus.sounding (.only (.bare 1)) [])).2.echo =
          [Memos.lookup] := by
  obtain ⟨-, hRuns⟩ := echo_faithful (σ := Store) Memos.schema
  have hRun := hRuns Memos.concert Memos.chorus
  have hEnd : run Memos.concert Memos.chorus =
      (Memos.performed.1, Memos.performed.2) := rfl
  rw [hEnd] at hRun
  obtain ⟨_, _, _, _, _, hOff, hOnly⟩ := hRun
  refine ⟨rfl, by decide +kernel, by decide +kernel, hOff [], ?_⟩
  rw [hOnly]
  show (Memos.performed.1.filter fun entry =>
    entry.speaker = some (.bare 1)).flatMap
      (fun entry => Call.texts entry.calls) = [Memos.lookup]
  decide +kernel

end UnitOfWork

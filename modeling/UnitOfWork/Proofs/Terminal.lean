import UnitOfWork.Proofs.Custody

/-!
# Sessions that have ended

A session ends when it is closed or when it is dropped. Its number is not used
again, so the session stays ended: whatever happens to the database, what is
called on the session is refused without a statement or a lease, and nothing
comes to be in it any more. A collection that it has loaded and that nobody
has read yet cannot be read any more; the others are lists that need nobody.

The members of a collection are read by asking the collection. That is where
it is checked that the session is still there and open, for the load itself
does not check it (`Operation.isCall`).

## Main results

* `Session.closed_of_close`: closing a session leaves nothing in it;
* `Session.Closed.call`: what is called on it from then on is refused;
* `Usage.becomes`: all that can become of the session of a number;
* `Usage.ended_is_terminal`: what has ended stays ended.
-/

namespace UnitOfWork

variable {σ : Type}

/-! ## Calls -/

namespace Operation

/-- Whether an application can make the request to the session itself. The
members of a collection are read by asking the collection. -/
def isCall : Operation → Bool
  | loadMembers _ => false
  | _ => true

/-- The error of a call on a session that has been closed. -/
def refusal : Operation → Error
  | commit | rollback => .state .transactionClosed
  | _ => .state .sessionClosed

variable [Driver σ]

/-- A request with what comes of it, but for what is found. -/
def call (p : Persister) : Operation → Step (Scope σ) Unit
  | persist ref => Session.persist p ref
  | remove ref => Session.remove p ref
  | find type id => do let _ ← Session.find p type id
  | findAll type => do let _ ← Session.findAll p type
  | loadMembers source => do let _ ← Session.loadMembers p source
  | flush => Session.flush p
  | begin => Session.begin
  | commit => Session.commit p
  | rollback => Session.rollback
  | clear => Session.clear
  | close => Session.close p

/-- It leaves what the request leaves. -/
theorem call_run_snd (p : Persister) (op : Operation) (scope : Scope σ) :
    ((op.call p).run scope).2 = op.perform p scope := by
  cases op with
  | find type id =>
      rw [call, Step.bind_run, perform]
      rcases (Session.find p type id).run scope with ⟨_ | _, _⟩ <;> rfl
  | findAll type =>
      rw [call, Step.bind_run, perform]
      rcases (Session.findAll p type).run scope with ⟨_ | _, _⟩ <;> rfl
  | loadMembers source =>
      rw [call, Step.bind_run, perform]
      rcases (Session.loadMembers p source).run scope with ⟨_ | _, _⟩ <;> rfl
  | _ => rfl

end Operation

/-! ## Sessions that are closed -/

namespace Session

/-- Nothing is left in a session that has been closed. -/
structure Closed (session : Session) : Prop where
  isOpen : session.isOpen = false
  inTransaction : session.inTransaction = false
  connection : session.connection = none
  context : session.context = {}
  queue : session.queue = {}

variable [Driver σ] {p : Persister} {scope after : Scope σ}

omit [Driver σ] in
/-- A session from which everything has been taken is closed. -/
theorem Closed.emptied (session : Session) (hConn : session.connection = none) :
    Closed { session with
      context := {}, queue := {}, isOpen := false, inTransaction := false } :=
  ⟨rfl, rfl, hConn, rfl, rfl⟩

/-- Closing a session leaves nothing in it. -/
theorem closed_of_close (h : (close p).run scope = (.ok (), after)) :
    after.session.Closed := by
  rw [close_run] at h
  rcases hFlush : (flush p).run scope with ⟨e | _, flushed⟩
  · rw [hFlush] at h
    cases h
  · rw [hFlush] at h
    have hAfter := congrArg Prod.snd h
    simp only [releaseConnection_run] at hAfter
    rw [← hAfter]
    cases flushed.session.connection with
    | none => exact .emptied { flushed.session with connection := none } rfl
    | some conn =>
        exact .emptied { flushed.session with connection := none } rfl

/-- Giving a connection back always succeeds. -/
theorem releaseConnection_isOk (scope : Scope σ) :
    (releaseConnection.run scope).1 = .ok () := by
  rw [releaseConnection, Step.bind_run, self_run]
  cases hConn : scope.session.connection with
  | none => simp only [hConn]; rfl
  | some conn =>
      simp only [hConn]
      rw [Step.bind_run, change_run, onBackend]
      simp only
      rw [Step.zoom_run, Backend.release, Step.bind_run, Step.get_run]
      cases hClosed : scope.backend.pool.closed <;> simp only [hClosed] <;> rfl

/-- What is called on a session that is closed is refused, and nothing
happens. -/
theorem Closed.call (h : scope.session.Closed) {op : Operation}
    (hCall : op.isCall = true) :
    (op.call p).run scope = (.error op.refusal, scope) := by
  have hShut : ensureOpen.run scope =
      (.error (.state .sessionClosed), scope) := by
    rw [ensureOpen_run, h.isOpen]
    rfl
  have hOutside : ensureTransaction.run scope =
      (.error (.state .transactionClosed), scope) := by
    rw [ensureTransaction_run, h.inTransaction]
    rfl
  have hUnflushed := flush_run_of_closed p h.isOpen
  cases op with
  | loadMembers source => cases hCall
  | persist ref =>
      show (persist p ref).run scope = _
      rw [persist, Step.bind_run, hShut]
      rfl
  | remove ref =>
      show (remove p ref).run scope = _
      rw [remove, Step.bind_run, hShut]
      rfl
  | find type id =>
      rw [Operation.call, Step.bind_run, find_run, hUnflushed]
      rfl
  | findAll type =>
      rw [Operation.call, Step.bind_run, findAll_run, hUnflushed]
      rfl
  | flush => exact hUnflushed
  | begin =>
      show begin.run scope = _
      rw [begin, Step.bind_run, hShut]
      rfl
  | commit =>
      show (commit p).run scope = _
      rw [commit, Step.bind_run, hOutside]
      rfl
  | rollback =>
      show rollback.run scope = _
      rw [rollback, Step.bind_run, hOutside]
      rfl
  | clear =>
      show clear.run scope = _
      rw [clear, Step.bind_run, hShut]
      rfl
  | close =>
      show (close p).run scope = _
      rw [close_run, hUnflushed]
      rfl

/-- So the session stays closed. -/
theorem Closed.perform (h : scope.session.Closed) {op : Operation}
    (hCall : op.isCall = true) : op.perform p scope = scope := by
  rw [← Operation.call_run_snd, h.call hCall]

omit [Driver σ] in
/-- A load does not change the number of a session. -/
theorem id_withLoader {α : Type} (p : Persister) (shared : Bool)
    (load : Loader → Step (Work σ) α) (scope : Scope σ) :
    ((withLoader p shared load).run scope).2.session.id = scope.session.id := by
  rw [withLoader, Step.bind_run]
  rcases ensureConnection_cases scope with
    ⟨conn, pool, _, hRun⟩ | ⟨e, _, _, hRun⟩
  · rw [hRun]
    simp only
    rw [Step.bind_run, self_run]
    simp only [loadIn, Step.run]
    split <;> rfl
  · rw [hRun]

/-- Nor does anything else that is asked of it. -/
theorem id_perform (p : Persister) (op : Operation) (scope : Scope σ) :
    (op.perform p scope).session.id = scope.session.id := by
  let Same (s : Scope σ) : Prop := s.session.id = scope.session.id
  have hFlush : Same ((flush p).run scope).2 := by
    have hFlushed := flushed p scope
    generalize (flush p).run scope = result at hFlushed ⊢
    obtain ⟨r, after⟩ := result
    cases hFlushed <;> rfl
  refine perform_keeps (I := Same) rfl
    (fun _ _ => persist_keeps (I := Same) rfl rfl)
    (fun _ _ => remove_keeps (I := Same) rfl rfl) (fun _ => hFlush)
    (fun shared load _ s hS => (id_withLoader p shared load s).trans hS)
    (fun _ _ _ hS => hS) (fun _ _ hS => hS) (fun _ s hS => ?_)
    fun _ s hS => ?_
  · have hReleased := releaseConnection_run s
    cases hConn : s.session.connection <;> rw [hConn] at hReleased <;>
      rw [hReleased] <;> exact hS
  · have hBack := rolledBack s
    generalize (rollbackConnection.run s).2 = after at hBack ⊢
    cases hBack <;> exact hS

end Session

/-! ## What becomes of a session -/

/-- What can become of the session of a number at one step: it stays as it is,
it is opened, it is asked something, or it is dropped. A session that is not
open is asked nothing but what can be called. -/
inductive Database.Becomes [Driver σ] (id : Nat) (db after : Database σ) :
    Prop
  | same (h : after.session? id = db.session? id)
  | opened (hNew : db.nextSession ≤ id) (hGiven : id < after.nextSession)
      (h : after.session? id = some { id := id })
  | asked (session : Session) (op : Operation)
      (hCall : op.isCall = true ∨ session.isOpen = true)
      (hSession : db.session? id = some session)
      (h : after.session? id =
        some (op.perform db.persister ⟨db.backend, session⟩).session)
  | dropped (h : after.session? id = none)

namespace Database

variable {α : Type} {db : Database σ} {id other : Nat}

/-- Work in a session leaves the other sessions alone. -/
theorem session?_inSession_ne (h : id ≠ other) (m : Step (Scope σ) α)
    (db : Database σ) :
    ((inSession other m).run db).2.session? id = db.session? id := by
  simp only [inSession, Step.run]
  cases db.session? other with
  | none => rfl
  | some session => exact Assoc.lookup_insert_ne h ..

/-- The session itself becomes what the work makes of it. -/
theorem session?_inSession_self {session : Session}
    (h : db.session? id = some session) (m : Step (Scope σ) α) :
    ((inSession id m).run db).2.session? id =
      some (m.run ⟨db.backend, session⟩).2.session := by
  simp only [inSession, Step.run, h]
  exact Assoc.lookup_insert_self ..

theorem inSession_run_of_none (h : db.session? id = none)
    (m : Step (Scope σ) α) :
    (inSession id m).run db = (.error (.state .sessionClosed), db) := by
  simp only [inSession, Step.run, h]

theorem nextSession_inSession (id : Nat) (m : Step (Scope σ) α)
    (db : Database σ) :
    ((inSession id m).run db).2.nextSession = db.nextSession := by
  simp only [inSession, Step.run]
  cases db.session? id <;> rfl

/-- Work that gives back what it has been given changes nothing. -/
theorem inSession_run_of_same {session : Session} {r : Except Error α}
    {m : Step (Scope σ) α} (h : db.session? id = some session)
    (hSame : m.run ⟨db.backend, session⟩ = (r, ⟨db.backend, session⟩)) :
    (inSession id m).run db = (r, db) := by
  rw [Step.run] at hSame
  simp only [inSession, Step.run, h, hSame, Assoc.insert_of_lookup h]

variable [Driver σ]

/-- A request to a session. -/
theorem becomes_inSession {m : Step (Scope σ) α} (op : Operation)
    (hWork : ∀ scope, (m.run scope).2 = op.perform db.persister scope)
    (hCall : op.isCall = true ∨
      ∃ session, db.session? other = some session ∧ session.isOpen = true) :
    db.Becomes id ((inSession other m).run db).2 := by
  by_cases hId : id = other
  · subst hId
    cases hSession : db.session? id with
    | none =>
        rw [inSession_run_of_none hSession]
        exact .same rfl
    | some session =>
        have hAfter := session?_inSession_self hSession m
        rw [hWork] at hAfter
        refine .asked session op (hCall.imp_right ?_) hSession hAfter
        rintro ⟨found, hFound, hOpen⟩
        rw [hSession] at hFound
        rw [Option.some.inj hFound]
        exact hOpen
  · exact .same (session?_inSession_ne hId m db)

omit [Driver σ] in
/-- The session that is opened has the next number. -/
theorem session?_openSession (id : Nat) (db : Database σ) :
    (openSession.run db).2.session? id = db.session? id ∨
      id = db.nextSession ∧
        (openSession.run db).2.nextSession = db.nextSession + 1 ∧
        (openSession.run db).2.session? id = some { id := id } := by
  simp only [openSession, Step.run]
  split
  · exact Or.inl rfl
  · simp only [session?, List.lookup_append]
    cases db.sessions.lookup id with
    | some session => exact Or.inl rfl
    | none =>
        simp only [Option.none_or]
        by_cases hId : id = db.nextSession
        · subst hId
          exact Or.inr ⟨rfl, trivial, List.lookup_cons_self⟩
        · rw [Assoc.lookup_cons, if_neg (Ne.symm hId)]
          exact Or.inl rfl

/-- Nothing is left under the number of a session that is dropped. -/
theorem session?_dropSession_self (id : Nat) (db : Database σ) :
    ((dropSession id).run db).2.session? id = none := by
  rw [dropSession, Step.bind_run]
  cases hSession : db.session? id with
  | none =>
      rw [inSession_run_of_none hSession]
      exact hSession
  | some session =>
      have hReleased := Session.releaseConnection_isOk
        (⟨db.backend, session⟩ : Scope σ)
      rw [Step.run] at hReleased
      simp only [inSession, Step.run, hSession, hReleased]
      exact Assoc.lookup_erase_self ..

theorem session?_dropSession_ne (h : id ≠ other) :
    ((dropSession other).run db).2.session? id = db.session? id := by
  have hSame := session?_inSession_ne h Session.releaseConnection db
  rw [dropSession, Step.bind_run]
  generalize (inSession other Session.releaseConnection).run db = result
    at hSame ⊢
  obtain ⟨e | _, released⟩ := result
  · exact hSame
  · rw [← hSame]
    exact Assoc.lookup_erase_ne h _

/-- The members of a collection are loaded in a session that is open, or
nothing happens. -/
theorem becomes_loadMembers (id : Nat) (source : Source) (db : Database σ) :
    db.Becomes id ((loadMembers source).run db).2 := by
  rw [loadMembers, Step.bind_run, Step.get_run]
  simp only
  split
  · exact .same rfl
  · split
    · exact .same rfl
    · rename_i other session hSession
      split
      · rename_i hOpen
        exact becomes_inSession (.loadMembers source) (fun _ => rfl)
          (Or.inr ⟨session, hSession, hOpen⟩)
      · exact .same rfl

theorem becomes_ask (id : Nat) (owner : Ref) (field : String)
    (request : Request) (db : Database σ) :
    db.Becomes id ((ask owner field request).run db).2 := by
  rw [ask_run]
  rcases Collection.perform_state
      (fun source => (loadMembers (σ := σ) source).run)
      ((db.heap.get owner).toMany field) request db with
    hSame | ⟨source, hLoaded⟩
  · simp only [hSame]
    exact .same rfl
  · simp only [hLoaded]
    cases becomes_loadMembers id source db with
    | same h => exact .same h
    | opened hNew hGiven h => exact .opened hNew hGiven h
    | asked session op hCall hSession h =>
        exact .asked session op hCall hSession h
    | dropped h => exact .dropped h

/-- Numbers are given out in order. -/
theorem nextSession_loadMembers (source : Source) (db : Database σ) :
    ((loadMembers source).run db).2.nextSession = db.nextSession := by
  rw [loadMembers, Step.bind_run, Step.get_run]
  simp only
  split
  · rfl
  · split
    · rfl
    · split
      · exact nextSession_inSession _ _ db
      · rfl

theorem nextSession_ask (owner : Ref) (field : String) (request : Request)
    (db : Database σ) :
    ((ask owner field request).run db).2.nextSession = db.nextSession := by
  rw [ask_run]
  rcases Collection.perform_state
      (fun source => (loadMembers (σ := σ) source).run)
      ((db.heap.get owner).toMany field) request db with
    hSame | ⟨source, hLoaded⟩
  · simp only [hSame]
    rfl
  · simp only [hLoaded]
    exact nextSession_loadMembers source db

theorem nextSession_dropSession (id : Nat) (db : Database σ) :
    ((dropSession id).run db).2.nextSession = db.nextSession := by
  have hSame := nextSession_inSession id Session.releaseConnection db
  rw [dropSession, Step.bind_run]
  generalize (inSession id Session.releaseConnection).run db = result
    at hSame ⊢
  obtain ⟨e | _, released⟩ := result <;> exact hSame

end Database

namespace Usage

variable [Driver σ] {start u last : Usage σ} {id : Nat}

/-- An event that does not go round a collection to load its members. -/
def Event.IsCall : Event σ → Prop
  | .request _ op => op.isCall = true
  | _ => True

/-- A lease by an application does not concern the sessions. -/
theorem sessions_lease (u : Usage σ) :
    (u.next .lease).db.sessions = u.db.sessions ∧
      (u.next .lease).db.nextSession = u.db.nextSession := by
  simp only [next]
  rw [Database.onBackend, Step.zoom_run, Backend.lease_run]
  cases u.db.backend.pool.lease <;> exact ⟨rfl, rfl⟩

/-- What becomes of the session of a number when something happens. -/
theorem becomes (id : Nat) {event : Event σ} (hCall : event.IsCall) :
    u.db.Becomes id (u.next event).db := by
  cases event with
  | lease => exact .same (congrArg (List.lookup id) (sessions_lease u).1)
  | openSession =>
      rcases Database.session?_openSession id u.db with
        hSame | ⟨rfl, hNext, hNew⟩
      · exact .same hSame
      · refine .opened (Nat.le_refl _) ?_ hNew
        exact Nat.lt_of_lt_of_eq (Nat.lt_succ_self _) hNext.symm
  | request other op =>
      exact Database.becomes_inSession op (fun _ => rfl) (Or.inl hCall)
  | dropSession other =>
      by_cases hId : id = other
      · subst hId
        exact .dropped (Database.session?_dropSession_self id u.db)
      · exact .same (Database.session?_dropSession_ne hId)
  | ask owner field request =>
      exact Database.becomes_ask id owner field request u.db
  | release conn => exact .same rfl
  | discard conn => exact .same rfl
  | call conn c => exact .same rfl
  | close => exact .same rfl
  | outside env => exact .same rfl

/-- No number is given out again. -/
theorem nextSession_le (u : Usage σ) (event : Event σ) :
    u.db.nextSession ≤ (u.next event).db.nextSession := by
  cases event with
  | openSession =>
      simp only [next, Database.openSession, Step.run]
      split <;> simp
  | lease => exact Nat.le_of_eq (sessions_lease u).2.symm
  | request other op => exact Nat.le_of_eq (Database.nextSession_inSession ..).symm
  | dropSession other =>
      exact Nat.le_of_eq (Database.nextSession_dropSession other u.db).symm
  | ask owner field request =>
      exact Nat.le_of_eq (Database.nextSession_ask owner field request u.db).symm
  | release conn => exact Nat.le_refl _
  | discard conn => exact Nat.le_refl _
  | call conn c => exact Nat.le_refl _
  | close => exact Nat.le_refl _
  | outside env => exact Nat.le_refl _

/-- What can happen from some point on. -/
inductive Follows (start : Usage σ) : Usage σ → Prop
  | start : Follows start start
  | step {u : Usage σ} (h : Follows start u) (event : Event σ)
      (hEnabled : u.Enabled event) (hCall : event.IsCall) :
    Follows start (u.next event)

/-! ## Numbers -/

/-- A session has the number that it is found by, which has been given out. -/
def Numbered (u : Usage σ) : Prop :=
  ∀ id session, u.db.session? id = some session →
    session.id = id ∧ id < u.db.nextSession

theorem Numbered.next (h : u.Numbered) {event : Event σ}
    (hCall : event.IsCall) : (u.next event).Numbered := by
  intro id session hSession
  have hLe := nextSession_le u event
  cases becomes id hCall with
  | same hSame =>
      obtain ⟨hId, hLt⟩ := h id session (hSame.symm.trans hSession)
      exact ⟨hId, by omega⟩
  | opened _ hGiven hNew =>
      rw [hNew] at hSession
      rw [← Option.some.inj hSession]
      exact ⟨rfl, hGiven⟩
  | asked old op _ hOld hAfter =>
      obtain ⟨hId, hLt⟩ := h id old hOld
      rw [hAfter] at hSession
      rw [← Option.some.inj hSession, Session.id_perform]
      exact ⟨hId, by omega⟩
  | dropped hNone =>
      rw [hNone] at hSession
      cases hSession

theorem Numbered.follows (h : start.Numbered) (hFollows : start.Follows u) :
    u.Numbered := by
  induction hFollows with
  | start => exact h
  | step _ event _ hCall ih => exact ih.next hCall

/-! ## The end of a session -/

/-- What ends a session: it is closed, and that succeeds, or it is dropped. -/
inductive Ends (u : Usage σ) (id : Nat) : Event σ → Prop
  | closed (h : ((Database.inSession id
      (Session.close u.db.persister)).run u.db).1 = .ok ()) :
    Ends u id (.request id .close)
  | dropped : Ends u id (.dropSession id)

/-- The number of a session has been given out, and the session is closed now
if it is still there. -/
structure Over (id : Nat) (u : Usage σ) : Prop where
  past : id < u.db.nextSession
  closed : ∀ session, u.db.session? id = some session → session.Closed

/-- A session that has ended is over. -/
theorem over_of_ends {session : Session} {event : Event σ}
    (hNumbered : u.Numbered) (hSession : u.db.session? id = some session)
    (hEnds : u.Ends id event) : (u.next event).Over id := by
  have hPast := (hNumbered id session hSession).2
  refine ⟨Nat.lt_of_lt_of_le hPast (nextSession_le u event), ?_⟩
  intro left hLeft
  cases hEnds with
  | closed h =>
      have hRun : (Session.close u.db.persister).run ⟨u.db.backend, session⟩ =
          (.ok (), ((Session.close u.db.persister).run
            ⟨u.db.backend, session⟩).2) := by
        refine Prod.ext ?_ rfl
        simp only [Database.inSession, Step.run, hSession] at h
        exact h
      have hAfter : (u.next (.request id .close)).db.session? id =
          some ((Session.close u.db.persister).run
            ⟨u.db.backend, session⟩).2.session :=
        Database.session?_inSession_self hSession _
      rw [hAfter] at hLeft
      rw [← Option.some.inj hLeft]
      exact Session.closed_of_close hRun
  | dropped =>
      have hNone : (u.next (.dropSession id)).db.session? id = none :=
        Database.session?_dropSession_self id u.db
      rw [hNone] at hLeft
      cases hLeft

/-- What is over stays over: a session that refuses every call stays as it is,
and no other one gets its number. -/
theorem Over.next (h : u.Over id) {event : Event σ} (hCall : event.IsCall) :
    (u.next event).Over id := by
  have hLe := nextSession_le u event
  refine ⟨Nat.lt_of_lt_of_le h.past hLe, ?_⟩
  intro session hSession
  cases becomes id hCall with
  | same hSame => exact h.closed session (hSame.symm.trans hSession)
  | opened hNew _ _ => exact absurd h.past (Nat.not_lt_of_le hNew)
  | asked old op hCall hOld hAfter =>
      have hClosed := h.closed old hOld
      have hOp : op.isCall = true :=
        hCall.resolve_right (by rw [hClosed.isOpen]; simp)
      have hStays : op.perform u.db.persister ⟨u.db.backend, old⟩ =
          ⟨u.db.backend, old⟩ := Session.Closed.perform hClosed hOp
      rw [hAfter, hStays] at hSession
      rw [← Option.some.inj hSession]
      exact hClosed
  | dropped hNone =>
      rw [hNone] at hSession
      cases hSession

theorem Over.follows (h : start.Over id) (hFollows : start.Follows u) :
    u.Over id := by
  induction hFollows with
  | start => exact h
  | step _ event _ hCall ih => exact ih.next hCall

/-- The members of a collection of a session that is over cannot be loaded. -/
theorem Over.loadMembers_run (h : u.Over id) {source : Source}
    (hSource : source.session = some id) :
    (Database.loadMembers source).run u.db =
      (.error (.lazyInitialization source.target), u.db) := by
  rw [Database.loadMembers, Step.bind_run, Step.get_run]
  cases hSession : u.db.session? id with
  | none =>
      simp only [hSource, hSession]
      rfl
  | some session =>
      simp only [hSource, hSession, (h.closed session hSession).isOpen]
      rfl

/-- A session has ended for good. Whatever would change the database gives
back the very same one, so no call is made and nothing is leased. -/
structure Ended (id : Nat) (u : Usage σ) : Prop where
  /-- If the session is still there, it is closed and nothing is in it. -/
  left : ∀ session, u.db.session? id = some session → session.Closed
  /-- What is called on it is refused. -/
  refused : ∀ session (op : Operation), u.db.session? id = some session →
    op.isCall = true →
      (Database.inSession id (op.call u.db.persister)).run u.db =
        (.error op.refusal, u.db)
  /-- A collection of it that has not been read cannot be read. -/
  unread : ∀ owner field source request,
    (u.db.heap.get owner).toMany field = .unresolved source →
      source.session = some id → request ≠ .isLoaded → request ≠ .debug →
      (Database.ask owner field request).run u.db =
        (.error (.lazyInitialization source.target), u.db)
  /-- One that has been read is a list of its own. -/
  read : ∀ owner field items request,
    (u.db.heap.get owner).toMany field = .resolved items →
      (Database.ask owner field request).run u.db =
        (.ok (request.onList items).1, u.db.giving owner field
          (.resolved (request.onList items).2))

theorem Over.ended (h : u.Over id) : u.Ended id := by
  refine ⟨h.closed, ?_, ?_, ?_⟩
  · intro session op hSession hCall
    exact Database.inSession_run_of_same hSession
      (Session.Closed.call (h.closed session hSession) hCall)
  · intro owner field source request hMembers hSource hLoaded hDebug
    exact Database.ask_of_error hMembers hLoaded hDebug
      (h.loadMembers_run hSource) rfl
  · intro owner field items request hMembers
    rw [Database.ask_run, hMembers]
    simp only [Collection.perform_resolved]

/-- A session that has been closed without an error, or dropped, has ended for
good: however long the database is used afterwards, by calls on the session,
its transaction and the collections that it has loaded, or by anybody else,
nothing can be done with it any more. -/
theorem ended_is_terminal {session : Session} {event : Event σ}
    (hStart : start.db.sessions = []) (hBefore : start.Follows u)
    (hSession : u.db.session? id = some session) (hEnds : u.Ends id event)
    (hAfter : (u.next event).Follows last) :
    session.id = id ∧ last.Ended id := by
  have hNone : start.Numbered := by
    intro other session hOther
    rw [Database.session?, hStart] at hOther
    cases hOther
  have hNumbered := hNone.follows hBefore
  exact ⟨(hNumbered id session hSession).1,
    ((over_of_ends hNumbered hSession hEnds).follows hAfter).ended⟩

end Usage

/-! ## Children that nobody has read -/

namespace Nodes

/-- A database of two nodes, the first of which is its own parent and that of
the other one. It has one connection. -/
def grove : Usage Store where
  db :=
    { settings := .ofUrl "grove"
      persister := persister .lazy
      backend :=
        { env := { driver := store [[.int 1, .text "a", .int 1],
            [.int 2, .text "b", .int 1]] }
          pool := { size := 1, idle := [0] } } }

/-- A session is opened, and the first node is looked up. -/
def visited : Usage Store :=
  [.openSession, .request 0 (.find "Node" (.int 1))].foldl Usage.next grove

/-- The session is closed or dropped, and another one looks both nodes up. -/
def revisited (ending : Usage.Event Store) : Usage Store :=
  [.openSession, .request 1 (.findAll "Node")].foldl Usage.next
    (visited.next ending)

theorem follows_visited : grove.Follows visited :=
  (Usage.Follows.start.step .openSession trivial trivial).step
    (.request 0 (.find "Node" (.int 1))) trivial rfl

theorem follows_revisited (ending : Usage.Event Store) :
    (visited.next ending).Follows (revisited ending) :=
  (Usage.Follows.start.step .openSession trivial trivial).step
    (.request 1 (.findAll "Node")) trivial rfl

end Nodes

/-- The children of the first node have not been read when its session is
closed or dropped, and cannot be read any more, though another session gets the
connection and finds both nodes. -/
theorem Usage.ended_is_terminal_of_nodes :
    ((Nodes.revisited (.request 0 .close)).Ended 0 ∧
      (Database.ask 0 "children" .len).run
          (Nodes.revisited (.request 0 .close)).db =
        (.error (.lazyInitialization "Node"),
          (Nodes.revisited (.request 0 .close)).db)) ∧
    (Nodes.revisited (.dropSession 0)).Ended 0 ∧
      (Database.ask 0 "children" .len).run
          (Nodes.revisited (.dropSession 0)).db =
        (.error (.lazyInitialization "Node"),
          (Nodes.revisited (.dropSession 0)).db) := by
  have hEnded : ∀ ending, Nodes.visited.Ends 0 ending →
      ((Nodes.revisited ending).db.heap.get 0).toMany "children" =
        .unresolved (Nodes.childrenOf (some 0) 1) →
      (Nodes.revisited ending).Ended 0 ∧
        (Database.ask 0 "children" .len).run (Nodes.revisited ending).db =
          (.error (.lazyInitialization "Node"),
            (Nodes.revisited ending).db) := by
    intro ending hEnds hUnread
    obtain ⟨_, hEnded⟩ := ended_is_terminal rfl Nodes.follows_visited rfl hEnds
      (Nodes.follows_revisited ending)
    exact ⟨hEnded, hEnded.unread 0 "children" _ .len hUnread rfl nofun nofun⟩
  exact ⟨hEnded _ (.closed rfl) rfl, hEnded _ .dropped rfl⟩

end UnitOfWork

import Mathlib.Data.List.Nodup
import UnitOfWork.Database
import UnitOfWork.Proofs.Residents
import UnitOfWork.Proofs.Stages

/-!
# Who has the connections of a pool

A connection of a pool is idle, on lease, or closed. It is on lease to an
application, which holds it and gives it back or discards it, or to a session,
which gives it back when it is closed or dropped and discards it when it
cannot be rolled back. Whatever applications and sessions do, and in whatever
order, no connection is lost, shared between two of them, or closed twice; and
when the pool has been closed and every lease has ended, all of them have been
closed, whether or not that went well.

A connection counts as closed when the call that closes it has been made, for
nobody makes another one on it when that call fails.

## Main results

* `Backend.Accounted`: the balance of a pool, with a lemma for each way that a
  lease begins or ends;
* `Session.accounted_perform`: requests to a session keep it;
* `Usage.Accounted.next`, `Usage.Accounted.reaches`: so does all that happens
  around a pool;
* `Usage.connections_conserved`: where the connections are at every point.
-/

namespace UnitOfWork

variable {σ : Type}

/-! ## Calls that close connections -/

/-- The connections that some calls close. -/
def Env.closings (made : List (ConnId × Call)) : List ConnId :=
  made.filterMap fun
    | (conn, .close) => some conn
    | _ => none

theorem Env.closings_append (made more : List (ConnId × Call)) :
    closings (made ++ more) = closings made ++ closings more :=
  List.filterMap_append

/-- Other calls close nothing. -/
theorem Env.closings_eq_nil {made : List (ConnId × Call)}
    (h : ∀ call ∈ made, call.2 ≠ .close) : closings made = [] := by
  refine List.filterMap_eq_nil_iff.2 fun call hMem => ?_
  obtain ⟨conn, c⟩ := call
  have hOpen := h _ hMem
  cases c <;> first | rfl | exact absurd rfl hOpen

/-- No connection has been closed meanwhile. -/
def Env.Quiet (before after : Env σ) : Prop :=
  ∃ made, after.trace = before.trace ++ made ∧ closings made = []

namespace Env.Quiet

variable {before env after : Env σ}

theorem refl (env : Env σ) : env.Quiet env :=
  ⟨[], (List.append_nil _).symm, rfl⟩

theorem trans (h : before.Quiet env) (hNext : env.Quiet after) :
    before.Quiet after := by
  obtain ⟨made, hMade, hNone⟩ := h
  obtain ⟨more, hMore, hNoMore⟩ := hNext
  refine ⟨made ++ more, ?_, ?_⟩
  · rw [hMore, hMade, List.append_assoc]
  · rw [closings_append, hNone, hNoMore]
    rfl

/-- A call that closes nothing. -/
theorem snoc {conn : ConnId} {c : Call} (h : before.Quiet env)
    (hOpen : c ≠ .close) (hTrace : after.trace = env.trace ++ [(conn, c)]) :
    before.Quiet after := by
  refine h.trans ⟨[(conn, c)], hTrace, closings_eq_nil ?_⟩
  intro call hMem
  rw [List.mem_singleton.1 hMem]
  exact hOpen

theorem called [Driver σ] (h : before.Quiet env) (conn : ConnId) {c : Call}
    (hOpen : c ≠ .close) : before.Quiet (env.called conn c) :=
  h.snoc hOpen rfl

end Env.Quiet

/-- What makes a move of a flush closes nothing. -/
theorem Move.MadeBy.ne_close {schema : Schema} {inserted : Ref → Prop}
    {before : Heap} {move : Move} {c : Call}
    (h : move.MadeBy schema inserted before c) : c ≠ .close := by
  cases move with
  | autoCommit on =>
      cases h
      simp
  | commit =>
      cases h
      simp
  | write action =>
      obtain ⟨⟨d, params, _, rfl⟩, _⟩ := h
      cases action.kind <;> simp [ActionKind.call]

/-- The work of a flush on its connection closes nothing. -/
theorem Session.Performed.quiet [Driver σ] {p : Persister} {conn : ConnId}
    {inTransaction : Bool} {actions : List Action} {work after : Work σ}
    {r : Except Error Unit}
    (h : Performed p conn inTransaction actions work r after) :
    work.env.Quiet after.env := by
  obtain ⟨made, _, ⟨calls, hMade, hMoves⟩, _⟩ := performed_made h
  refine ⟨Call.on conn calls, hMade.trace, Env.closings_eq_nil ?_⟩
  intro call hMem
  obtain ⟨c, hCall, rfl⟩ := List.mem_map.1 hMem
  obtain ⟨move, _, hMove⟩ := Action.exists_of_forall₂_mem hMoves hCall
  exact hMove.ne_close

/-- A load makes no calls but queries. -/
theorem Loader.keeps_quiet [Driver σ] (L : Loader) (before : Env σ) :
    L.Keeps (fun _ _ => True) fun work => before.Quiet work.env where
  query := fun _ _ hI => ⟨hI.snoc (by simp) rfl, fun _ _ _ _ => trivial⟩
  register := fun _ _ _ _ _ hI => hI
  assign := fun _ _ _ _ hI => hI
  inspect := fun _ hI => hI

/-! ## The balance of a pool -/

/-- The balance of a pool that was opened with some connections: each of them
is idle, on lease or closed since, where `out` are those on lease, one for
each lease. With `shut` the pool is closed. -/
structure Backend.Accounted (conns : List ConnId) (before : Env σ)
    (shut : Bool) (out : List ConnId) (backend : Backend σ) : Prop where
  balance : ∃ made, backend.env.trace = before.trace ++ made ∧
    (backend.pool.idle ++ (out ++ Env.closings made)).Perm conns
  leased : backend.pool.leased.Perm out
  drained : backend.pool.closed = true → backend.pool.idle = []
  shut : shut = true → backend.pool.closed = true

namespace Backend.Accounted

variable {conns out rest : List ConnId} {before : Env σ} {shut : Bool}
  {backend : Backend σ} {conn : ConnId}

/-- It does not matter in which order the leases are listed. -/
theorem perm (h : backend.Accounted conns before shut out)
    (hPerm : out.Perm rest) : backend.Accounted conns before shut rest := by
  obtain ⟨⟨made, hTrace, hBalance⟩, hLeased, hDrained, hShut⟩ := h
  refine ⟨⟨made, hTrace, ?_⟩, hLeased.trans hPerm, hDrained, hShut⟩
  exact ((hPerm.symm.append_right _).append_left _).trans hBalance

/-- As long as no connection is closed, work on the environment does not
concern the balance. -/
theorem quiet {env : Env σ} (h : backend.Accounted conns before shut out)
    (hQuiet : backend.env.Quiet env) :
    Accounted conns before shut out { backend with env := env } := by
  obtain ⟨⟨made, hTrace, hBalance⟩, hLeased, hDrained, hShut⟩ := h
  obtain ⟨more, hMore, hNone⟩ := hQuiet
  refine ⟨⟨made ++ more, ?_, ?_⟩, hLeased, hDrained, hShut⟩
  · rw [hMore, hTrace, List.append_assoc]
  · rw [Env.closings_append, hNone, List.append_nil]
    exact hBalance

/-- A lease takes the next idle connection. -/
theorem lease {pool : Pool} (h : backend.Accounted conns before shut out)
    (hLease : backend.pool.lease = .ok (conn, pool)) :
    Accounted conns before shut (conn :: out)
      { backend with pool := pool } := by
  obtain ⟨⟨made, hTrace, hBalance⟩, hLeased, _, hShut⟩ := h
  obtain ⟨hOpen, hIdle, hPool⟩ := (Pool.lease_eq_ok_iff _ _ _).1 hLease
  have hClosed : pool.closed = false := by
    rw [hPool]
    exact hOpen
  refine ⟨⟨made, hTrace, ?_⟩, ?_, ?_, ?_⟩
  · rw [hIdle] at hBalance
    exact List.perm_middle.trans hBalance
  · rw [hPool]
    exact hLeased.cons conn
  · intro hShut
    rw [hClosed] at hShut
    cases hShut
  · intro hWas
    rw [hShut hWas] at hOpen
    cases hOpen

section

variable [Driver σ]

/-- A connection that is discarded is closed. -/
theorem discard (h : backend.Accounted conns before shut (conn :: out)) :
    Accounted conns before shut out
      ⟨backend.env.called conn .close, backend.pool.endLease conn⟩ := by
  obtain ⟨⟨made, hTrace, hBalance⟩, hLeased, hDrained, hShut⟩ := h
  refine ⟨⟨made ++ [(conn, .close)], ?_, ?_⟩, ?_, hDrained, hShut⟩
  · show backend.env.trace ++ [(conn, .close)] = _
    rw [hTrace, List.append_assoc]
  · rw [Env.closings_append]
    refine List.Perm.trans (List.Perm.append_left _ ?_) hBalance
    show (out ++ (Env.closings made ++ [conn])).Perm _
    rw [← List.append_assoc]
    exact List.perm_append_singleton ..
  · have hErased := hLeased.erase conn
    rw [List.erase_cons_head] at hErased
    exact hErased

omit [Driver σ] in
/-- A connection that is put back is idle. -/
theorem putBack (h : backend.Accounted conns before shut (conn :: out))
    (hOpen : backend.pool.closed = false) :
    Accounted conns before shut out
      { backend with pool := backend.pool.putBack conn } := by
  obtain ⟨⟨made, hTrace, hBalance⟩, hLeased, _, hShut⟩ := h
  refine ⟨⟨made, hTrace, ?_⟩, ?_, ?_, hShut⟩
  · exact List.perm_middle.symm.trans hBalance
  · have hErased := hLeased.erase conn
    rw [List.erase_cons_head] at hErased
    exact hErased
  · intro hClosed
    exact absurd (hOpen.symm.trans hClosed) Bool.false_ne_true

/-- A connection that is given back is idle, or closed if the pool is. -/
theorem release (h : backend.Accounted conns before shut (conn :: out)) :
    Accounted conns before shut out
      ((Backend.release conn).run backend).2 := by
  rw [Backend.release, Step.bind_run, Step.get_run]
  by_cases hClosed : backend.pool.closed = true
  · simp only [hClosed, if_true]
    exact h.discard
  · simp only [hClosed]
    exact h.putBack (Bool.eq_false_iff.2 hClosed)

end

end Backend.Accounted

theorem Backend.lease_run (backend : Backend σ) :
    Backend.lease.run backend =
      match backend.pool.lease with
      | .ok (conn, pool) => (.ok conn, { backend with pool := pool })
      | .error e => (.error e, backend) := rfl

/-- The environment that calls leave, on any connections and whatever comes of
them. -/
def Env.calledAll [Driver σ] (made : List (ConnId × Call)) (env : Env σ) :
    Env σ :=
  made.foldl (fun env call => env.called call.1 call.2) env

namespace Env

variable [Driver σ] (made more : List (ConnId × Call)) (env : Env σ)

theorem calledAll_append : env.calledAll (made ++ more) =
    (env.calledAll made).calledAll more := List.foldl_append

theorem trace_calledAll : (env.calledAll made).trace = env.trace ++ made := by
  induction made generalizing env with
  | nil => exact (List.append_nil _).symm
  | cons call rest ih =>
      refine (ih (env.called call.1 call.2)).trans ?_
      rw [trace_called, List.append_assoc]
      rfl

end Env

/-- Closing connections is one call for each, whether or not it fails. -/
theorem Backend.closeAll_run [Driver σ] (conns : List ConnId) (env : Env σ) :
    ∃ failure, (closeAll conns).run env = (.ok failure,
      env.calledAll (conns.map fun conn => (conn, .close))) := by
  induction conns generalizing env with
  | nil => exact ⟨none, rfl⟩
  | cons conn rest ih =>
      obtain ⟨later, hRest⟩ := ih (env.called conn .close)
      rw [closeAll, Step.bind_run, Step.attempt_run, Env.call_run]
      simp only
      rw [Step.bind_run, hRest]
      cases (Driver.call conn .close env.driver).1 with
      | error e => exact ⟨some e, rfl⟩
      | ok _ => exact ⟨later, rfl⟩

theorem Backend.trace_closeAll [Driver σ] (conns : List ConnId)
    (env : Env σ) : ((closeAll conns).run env).2.trace =
      env.trace ++ conns.map fun conn => (conn, .close) := by
  obtain ⟨failure, hRun⟩ := closeAll_run conns env
  rw [hRun]
  exact env.trace_calledAll _

theorem Env.closings_map_close (conns : List ConnId) :
    closings (conns.map fun conn => (conn, .close)) = conns := by
  induction conns with
  | nil => rfl
  | cons conn rest ih => exact congrArg (conn :: ·) ih

/-- Closing the pool closes what is idle, and keeps the pool closed. -/
theorem Backend.Accounted.close [Driver σ] {conns out : List ConnId}
    {before : Env σ} {shut : Bool} {backend : Backend σ}
    (h : backend.Accounted conns before shut out) :
    Accounted conns before true out (Backend.close.run backend).2 := by
  obtain ⟨⟨made, hTrace, hBalance⟩, hLeased, hDrained, _⟩ := h
  rw [Backend.close, Step.bind_run, Step.get_run]
  by_cases hClosed : backend.pool.closed = true
  · simp only [hClosed, if_true]
    exact ⟨⟨made, hTrace, hBalance⟩, hLeased, hDrained, fun _ => hClosed⟩
  · simp only [hClosed]
    have hAll := trace_closeAll backend.pool.idle backend.env
    simp only [Bool.false_eq_true, if_false]
    rw [Step.bind_run, onPool, Step.modify_run]
    simp only
    rw [Step.bind_run, onEnv, Step.zoom_run]
    simp only
    generalize (closeAll backend.pool.idle).run backend.env = result
      at hAll ⊢
    obtain ⟨r, env⟩ := result
    have hAfter : Accounted conns before true out
        ⟨env, { backend.pool with idle := [], closed := true }⟩ := by
      refine ⟨⟨made ++ backend.pool.idle.map fun conn => (conn, .close),
        ?_, ?_⟩, hLeased, fun _ => rfl, fun _ => rfl⟩
      · rw [hAll, hTrace, List.append_assoc]
      · rw [Env.closings_append, Env.closings_map_close, List.nil_append,
          ← List.append_assoc]
        exact List.perm_append_comm.trans hBalance
    match r with
    | .error e => exact hAfter
    | .ok none => exact hAfter
    | .ok (some e) => exact hAfter

/-! ## Sessions -/

/-- The balance of the pool that a session works on, where `others` are on
lease to others. -/
abbrev Scope.Accounted (conns : List ConnId) (before : Env σ) (shut : Bool)
    (others : List ConnId) (scope : Scope σ) : Prop :=
  scope.backend.Accounted conns before shut
    (scope.session.connection.toList ++ others)

namespace Session

variable {conns others : List ConnId} {before : Env σ} {shut : Bool}
  {scope : Scope σ}

/-- The connection that a session works on is on lease to it. -/
theorem accounted_of_obtains {conn : ConnId} {pool : Pool}
    (h : scope.Accounted conns before shut others)
    (hConn : scope.Obtains conn pool) :
    Backend.Accounted conns before shut (conn :: others)
      { scope.backend with pool := pool } := by
  cases hConn with
  | held hHeld =>
      rw [Scope.Accounted, hHeld] at h
      exact h
  | leased hNone hLease =>
      rw [Scope.Accounted, hNone] at h
      exact h.lease hLease

variable [Driver σ] {p : Persister}

theorem accounted_flush {r : Except Error Unit} {after : Scope σ}
    (h : scope.Accounted conns before shut others)
    (hFlushed : Flushed p scope r after) :
    after.Accounted conns before shut others := by
  cases hFlushed with
  | closed _ => exact h
  | unreadable _ _ => exact h
  | idle _ _ _ => exact h
  | unconnected _ _ _ _ _ => exact h
  | committed _ _ _ hConn hRun =>
      exact (accounted_of_obtains h hConn).quiet hRun.quiet
  | @rolledBack _ _ conn _ _ _ _ _ _ hConn hRun _ =>
      have hBack := hRun.quiet.called conn (c := .rollback) (by simp)
      exact (accounted_of_obtains h hConn).quiet
        (hBack.called conn (c := .setAutoCommit true) (by simp))
  | @discarded _ _ conn _ _ _ _ _ _ _ hConn hRun _ =>
      have hBack := hRun.quiet.called conn (c := .rollback) (by simp)
      exact ((accounted_of_obtains h hConn).quiet hBack).discard

theorem accounted_withLoader {α : Type} {shared : Bool}
    {load : Loader → Step (Work σ) α} (hLoad : Loader.Leading load)
    (h : scope.Accounted conns before shut others) :
    ((withLoader p shared load).run scope).2.Accounted conns before shut
      others := by
  have hLoaded := loaded p shared load scope fun _ _ _ =>
    hLoad (Loader.keeps_quiet _ scope.env) (.refl _)
  generalize (withLoader p shared load).run scope = result at hLoaded ⊢
  obtain ⟨r, after⟩ := result
  cases hLoaded with
  | unconnected _ _ => exact h
  | failed hConn hI => exact (accounted_of_obtains h hConn).quiet hI
  | done hConn hI _ _ => exact (accounted_of_obtains h hConn).quiet hI

/-- A session gives back the connection that it has. -/
theorem releaseConnection_run (scope : Scope σ) :
    (releaseConnection.run scope).2 =
      match scope.session.connection with
      | none => scope
      | some conn =>
        { backend := ((Backend.release conn).run scope.backend).2
          session := { scope.session with connection := none } } := by
  rw [releaseConnection, Step.bind_run, self_run]
  cases hConn : scope.session.connection <;> simp only [hConn] <;> rfl

theorem connection_releaseConnection (scope : Scope σ) :
    (releaseConnection.run scope).2.session.connection = none := by
  rw [releaseConnection_run]
  cases hConn : scope.session.connection with
  | none => exact hConn
  | some conn => rfl

theorem accounted_releaseConnection
    (h : scope.Accounted conns before shut others) :
    (releaseConnection.run scope).2.Accounted conns before shut others := by
  rw [releaseConnection_run]
  cases hConn : scope.session.connection with
  | none => exact h
  | some conn =>
      rw [Scope.Accounted, hConn] at h
      exact h.release

theorem accounted_rollbackConnection
    (h : scope.Accounted conns before shut others) :
    (rollbackConnection.run scope).2.Accounted conns before shut others := by
  have hBack := rolledBack scope
  generalize (rollbackConnection.run scope).2 = after at hBack ⊢
  cases hBack with
  | none _ => exact h
  | @done conn hConn _ =>
      have hCall := (Env.Quiet.refl scope.env).called conn (c := .rollback)
        (by simp)
      exact h.quiet (hCall.called conn (c := .setAutoCommit true) (by simp))
  | @discarded conn _ hConn _ =>
      have hCall := (Env.Quiet.refl scope.env).called conn (c := .rollback)
        (by simp)
      rw [Scope.Accounted, hConn] at h
      exact (h.quiet hCall).discard

/-- Whatever is asked of a session, and whatever comes of it, the balance of
its pool is kept. -/
theorem accounted_perform (h : scope.Accounted conns before shut others)
    (op : Operation) :
    (op.perform p scope).Accounted conns before shut others := by
  exact perform_keeps (I := Scope.Accounted conns before shut others) h
    (fun _ _ => persist_keeps (I := Scope.Accounted conns before shut others)
      h h)
    (fun _ _ => remove_keeps (I := Scope.Accounted conns before shut others)
      h h)
    (fun _ => accounted_flush h (flushed p scope))
    (fun _ _ hLoad _ hS => accounted_withLoader hLoad hS)
    (fun _ _ _ hS => hS) (fun _ _ hS => hS)
    (fun _ _ hS => accounted_releaseConnection hS)
    (fun _ _ hS => accounted_rollbackConnection hS)

end Session

/-! ## The sessions of a database -/

namespace Assoc

variable {κ α : Type} [DecidableEq κ]

/-- An insert puts its pair in the place of the one with its key. -/
theorem perm_insert {pairs : List (κ × α)} (h : (keys pairs).Nodup) (key : κ)
    (value : α) :
    (insert key value pairs).Perm ((key, value) :: erase key pairs) := by
  induction pairs with
  | nil => exact .refl _
  | cons pair rest ih =>
      obtain ⟨k, v⟩ := pair
      simp only [keys, List.map_cons, List.nodup_cons] at h
      by_cases hKey : k = key
      · subst hKey
        have hSame : erase k rest = rest := by
          refine List.filter_eq_self.2 fun pair hMem => ?_
          have hOther : pair.1 ≠ k := fun hEq =>
            h.1 (hEq ▸ List.mem_map_of_mem hMem)
          simpa using hOther
        have hErased : erase k ((k, v) :: rest) = erase k rest := by
          simp [erase]
        rw [insert, if_pos rfl, hErased, hSame]
      · have hErased : erase key ((k, v) :: rest) =
            (k, v) :: erase key rest := by
          simp [erase, hKey]
        rw [insert, if_neg hKey, hErased]
        exact ((ih h.2).cons _).trans (.swap ..)

/-- What is erased may as well be replaced before. -/
theorem erase_insert (key : κ) (value : α) (pairs : List (κ × α)) :
    erase key (insert key value pairs) = erase key pairs := by
  induction pairs with
  | nil => simp [insert, erase]
  | cons pair rest ih =>
      obtain ⟨k, v⟩ := pair
      unfold erase at ih ⊢
      by_cases hKey : k = key
      · simp [insert, hKey]
      · simp [insert, hKey, ih]

end Assoc

/-- A request changes nothing but by loading the members. -/
theorem Collection.perform_state {source τ : Type}
    (load : source → τ → Except Error (List Ref) × τ)
    (members : Collection source) (request : Request) (t : τ) :
    (members.perform load request t).2.2 = t ∨
      ∃ s, (members.perform load request t).2.2 = (load s t).2 := by
  cases members with
  | resolved items =>
      rw [perform_resolved]
      exact Or.inl rfl
  | unresolved s =>
      by_cases hLoaded : request = .isLoaded
      · subst hLoaded
        exact Or.inl rfl
      by_cases hDebug : request = .debug
      · subst hDebug
        exact Or.inl rfl
      rw [perform_unresolved load s hLoaded hDebug]
      refine Or.inr ⟨s, ?_⟩
      rcases load s t with ⟨e | items, after⟩
      · rfl
      · simp only [perform_resolved]

/-- The connections on lease to sessions. -/
def Session.leases (sessions : List (Nat × Session)) : List ConnId :=
  sessions.filterMap fun pair => pair.2.connection

/-- A session that changes has its connection, and the others have theirs. -/
theorem Session.leases_insert {sessions : List (Nat × Session)}
    (h : (Assoc.keys sessions).Nodup) (id : Nat) (session : Session)
    (held : List ConnId) :
    (held ++ leases (Assoc.insert id session sessions)).Perm
      (session.connection.toList ++
        (held ++ leases (Assoc.erase id sessions))) := by
  have hPerm := (Assoc.perm_insert h id session).filterMap
    fun pair => pair.2.connection
  rw [List.filterMap_cons] at hPerm
  have hLeases : (leases (Assoc.insert id session sessions)).Perm
      (session.connection.toList ++ leases (Assoc.erase id sessions)) := by
    cases hConn : session.connection <;>
      simpa [leases, hConn] using hPerm
  refine (hLeases.append_left held).trans ?_
  rw [← List.append_assoc, ← List.append_assoc]
  exact List.perm_append_comm.append_right _

namespace Database

/-- The balance of the pool of a database, where `held` are on lease to
applications; and its sessions have numbers of their own. -/
structure Accounted (conns : List ConnId) (before : Env σ) (shut : Bool)
    (held : List ConnId) (db : Database σ) : Prop where
  backend : db.backend.Accounted conns before shut
    (held ++ Session.leases db.sessions)
  distinct : (Assoc.keys db.sessions).Nodup
  fresh : ∀ id ∈ Assoc.keys db.sessions, id < db.nextSession

namespace Accounted

variable {α : Type} {conns held : List ConnId} {before : Env σ} {shut : Bool}
  {db : Database σ} {id : Nat}

/-- Work in a session keeps the balance if it does so on the session and what
it works on. -/
theorem inSession {m : Step (Scope σ) α}
    (h : db.Accounted conns before shut held)
    (hWork : ∀ scope others, scope.Accounted conns before shut others →
      (m.run scope).2.Accounted conns before shut others) :
    ((Database.inSession id m).run db).2.Accounted conns before shut
      held := by
  cases hSession : db.session? id with
  | none =>
      simp only [Database.inSession, Step.run, hSession]
      exact h
  | some session =>
      have hPerm := Session.leases_insert h.distinct id session held
      rw [Assoc.insert_of_lookup hSession] at hPerm
      have hScope := hWork ⟨db.backend, session⟩ _ (h.backend.perm hPerm)
      simp only [Database.inSession, Step.run, hSession] at hScope ⊢
      refine ⟨hScope.perm (Session.leases_insert h.distinct id _ held).symm,
        Assoc.nodup_keys_insert h.distinct id _, fun other hMem => ?_⟩
      rcases Assoc.mem_keys_insert.1 hMem with rfl | hOld
      · refine h.fresh other ((Assoc.lookup_isSome_iff _ _).1 ?_)
        rw [session?] at hSession
        rw [hSession]
        rfl
      · exact h.fresh other hOld

/-- A new session has no connection yet. -/
theorem openSession (h : db.Accounted conns before shut held) :
    (Database.openSession.run db).2.Accounted conns before shut held := by
  simp only [Database.openSession, Step.run]
  by_cases hClosed : db.isClosed = true
  · simp only [hClosed, if_true]
    exact h
  · simp only [hClosed]
    have hLeases : Session.leases
        (db.sessions ++ [(db.nextSession, { id := db.nextSession })]) =
          Session.leases db.sessions := by
      simp [Session.leases, List.filterMap_append]
    refine ⟨?_, ?_, ?_⟩
    · show db.backend.Accounted conns before shut (held ++ Session.leases
        (db.sessions ++ [(db.nextSession, { id := db.nextSession })]))
      rw [hLeases]
      exact h.backend
    · show (Assoc.keys (db.sessions ++ [(db.nextSession, _)])).Nodup
      rw [Assoc.keys, List.map_append, List.nodup_append]
      refine ⟨h.distinct, by simp, ?_⟩
      intro old hOld new hNew
      rw [List.mem_singleton.1 hNew]
      exact Nat.ne_of_lt (h.fresh old hOld)
    · intro other hMem
      show other < db.nextSession + 1
      rcases List.mem_map.1 hMem with ⟨pair, hPair, rfl⟩
      rcases List.mem_append.1 hPair with hOld | hNew
      · have hLt := h.fresh pair.1 (List.mem_map_of_mem hOld)
        omega
      · rw [List.mem_singleton.1 hNew]
        exact Nat.lt_succ_self _

variable [Driver σ]

/-- A session that is dropped has given its connection back. -/
theorem dropSession (h : db.Accounted conns before shut held) :
    ((Database.dropSession id).run db).2.Accounted conns before shut held := by
  have hReleased : ((Database.inSession id Session.releaseConnection).run
      db).2.Accounted conns before shut held :=
    h.inSession fun _ _ hScope => Session.accounted_releaseConnection hScope
  rw [Database.dropSession, Step.bind_run]
  cases hSession : db.session? id with
  | none =>
      simp only [Database.inSession, Step.run, hSession]
      exact h
  | some session =>
      have hNone := Session.connection_releaseConnection
        (⟨db.backend, session⟩ : Scope σ)
      simp only [Database.inSession, Step.run, hSession] at hReleased hNone ⊢
      generalize Session.releaseConnection
        (⟨db.backend, session⟩ : Scope σ) = released at hReleased hNone ⊢
      obtain ⟨e | _, scope⟩ := released
      · exact hReleased
      · have hPerm := Session.leases_insert h.distinct id scope.session held
        rw [hNone] at hPerm
        refine ⟨?_, ?_, ?_⟩
        · show scope.backend.Accounted conns before shut (held ++
            Session.leases (Assoc.erase id
              (Assoc.insert id scope.session db.sessions)))
          rw [Assoc.erase_insert]
          exact hReleased.backend.perm hPerm
        · exact Assoc.nodup_keys_erase hReleased.distinct id
        · exact fun other hMem =>
            hReleased.fresh other (Assoc.mem_keys_erase.1 hMem).2

theorem loadMembers (h : db.Accounted conns before shut held)
    (source : Source) :
    ((Database.loadMembers source).run db).2.Accounted conns before shut
      held := by
  rw [Database.loadMembers, Step.bind_run, Step.get_run]
  simp only
  split
  · exact h
  · split
    · exact h
    · split
      · exact h.inSession fun _ _ hScope =>
          Session.accounted_perform hScope (.loadMembers source)
      · exact h

/-- Reading a collection loads its members, and changes the owner besides. -/
theorem ask (h : db.Accounted conns before shut held) (owner : Ref)
    (field : String) (request : Request) :
    ((Database.ask owner field request).run db).2.Accounted conns before shut
      held := by
  rw [ask_run]
  have hAsked : (((db.heap.get owner).toMany field).perform
      (fun source => (Database.loadMembers (σ := σ) source).run) request
        db).2.2.Accounted conns before shut held := by
    rcases Collection.perform_state
        (fun source => (Database.loadMembers (σ := σ) source).run)
        ((db.heap.get owner).toMany field) request db with
      hSame | ⟨source, hLoaded⟩
    · rw [hSame]
      exact h
    · rw [hLoaded]
      exact h.loadMembers source
  exact ⟨hAsked.backend.quiet (.refl _), hAsked.distinct, hAsked.fresh⟩

end Accounted

end Database

/-! ## Everybody who uses the connections -/

/-- A database with its sessions, and the applications that hold connections
of its pool themselves. -/
structure Usage (σ : Type) where
  db : Database σ
  /-- The connections on lease to applications, one for each lease. -/
  held : List ConnId := []

namespace Usage

/-- What can happen to the connections of a pool. -/
inductive Event (σ : Type)
  /-- An application leases a connection. -/
  | lease
  /-- It gives one back, or drops it. -/
  | release (conn : ConnId)
  | discard (conn : ConnId)
  /-- It makes a call on a connection that it holds. -/
  | call (conn : ConnId) (c : Call)
  | openSession
  | request (session : Nat) (op : Operation)
  | dropSession (session : Nat)
  /-- A collection is asked something. -/
  | ask (owner : Ref) (field : String) (request : Request)
  /-- The pool is closed. -/
  | close
  /-- Entities are edited, or the database is worked on by other means. -/
  | outside (env : Env σ)

/-- What is needed for it: only who holds a connection can use it or give it
up, and connections are closed by the pool only. -/
def Enabled (u : Usage σ) : Event σ → Prop
  | .release conn | .discard conn => conn ∈ u.held
  | .call conn c => conn ∈ u.held ∧ c ≠ .close
  | .outside env => env.trace = u.db.backend.env.trace
  | _ => True

/-- The balance of the pool. -/
abbrev Accounted (conns : List ConnId) (before : Env σ) (shut : Bool)
    (u : Usage σ) : Prop :=
  u.db.Accounted conns before shut u.held

/-- The pool is as it was opened, and nobody has a connection of it. -/
structure Untouched (pool : Pool) (u : Usage σ) : Prop where
  pool : u.db.backend.pool = pool
  sessions : u.db.sessions = []
  held : u.held = []

/-- The connections that have been closed since. -/
def closed (before : Env σ) (u : Usage σ) : List ConnId :=
  Env.closings (u.db.backend.env.trace.drop before.trace.length)

section

variable {conns : List ConnId} {before : Env σ} {shut : Bool} {u : Usage σ}

/-- A connection that an application holds is on lease to it. -/
theorem Accounted.of_mem {conn : ConnId} (h : u.Accounted conns before shut)
    (hMem : conn ∈ u.held) : u.db.backend.Accounted conns before shut
      (conn :: (u.held.erase conn ++ Session.leases u.db.sessions)) :=
  h.backend.perm ((List.perm_cons_erase hMem).append_right _)

theorem accounted_of_untouched {conns : List ConnId} {pool : Pool}
    {start : Usage σ} (hPool : Pool.ofConnections conns = .ok pool)
    (h : start.Untouched pool) :
    start.Accounted conns start.db.backend.env false := by
  obtain ⟨⟨settings, persister, ⟨env, _⟩, _, next⟩, _⟩ := start
  obtain ⟨rfl, rfl, rfl⟩ := h
  unfold Pool.ofConnections at hPool
  split at hPool
  · cases hPool
  · cases hPool
    refine ⟨⟨⟨[], (List.append_nil _).symm, ?_⟩, .refl _, nofun, nofun⟩, ?_,
      nofun⟩
    · show (conns.reverse ++ []).Perm conns
      rw [List.append_nil]
      exact List.reverse_perm conns
    · exact List.nodup_nil

/-- The balance, with the connections that have been closed. -/
theorem Accounted.balance (h : u.Accounted conns before shut) :
    (u.db.backend.pool.idle ++ ((u.held ++ Session.leases u.db.sessions) ++
      u.closed before)).Perm conns := by
  obtain ⟨made, hTrace, hBalance⟩ := h.backend.balance
  have hClosed : u.closed before = Env.closings made := by
    rw [closed, hTrace, List.drop_left]
  rw [hClosed]
  exact hBalance

/-- A lease succeeds as long as there is something to lease. -/
theorem lease_isOk_iff (backend : Backend σ) :
    (∃ conn, (Backend.lease.run backend).1 = .ok conn) ↔
      backend.pool.closed = false ∧ 0 < backend.pool.available := by
  obtain ⟨env, ⟨size, idle, leased, closed⟩⟩ := backend
  rw [Backend.lease_run, Pool.lease, Pool.available]
  cases closed with
  | true => simp
  | false =>
      cases idle with
      | nil => simp
      | cons conn rest => simp

theorem ensureConnection_isOk_iff {backend : Backend σ} {session : Session}
    (hNone : session.connection = none) :
    (∃ conn, (Session.ensureConnection.run ⟨backend, session⟩).1 = .ok conn) ↔
      backend.pool.closed = false ∧ 0 < backend.pool.available := by
  rw [← lease_isOk_iff, Backend.lease_run]
  rcases Session.ensureConnection_cases ⟨backend, session⟩ with
    ⟨conn, pool, hConn, hRun⟩ | ⟨e, _, hLease, hRun⟩
  · rw [hRun]
    cases hConn with
    | held hHeld => exact absurd (hHeld.symm.trans hNone) nofun
    | leased _ hLease =>
        simp only [hLease]
  · rw [hRun]
    simp only [hLease]

/-- What a closed pool has had of connections is closed when nobody has one of
them any more. -/
theorem Accounted.closed_perm (h : u.Accounted conns before true)
    (hHeld : u.held = []) (hLeases : Session.leases u.db.sessions = []) :
    (u.closed before).Perm conns := by
  have hBalance := h.balance
  have hIdle := h.backend.drained (h.backend.shut rfl)
  rw [hIdle, hHeld, hLeases] at hBalance
  exact hBalance

end

variable [Driver σ]

/-- What comes of it. -/
def next (u : Usage σ) : Event σ → Usage σ
  | .lease =>
    match (Database.onBackend Backend.lease).run u.db with
    | (.ok conn, db) => ⟨db, conn :: u.held⟩
    | (.error _, db) => ⟨db, u.held⟩
  | .release conn =>
    ⟨((Database.onBackend (Backend.release conn)).run u.db).2,
      u.held.erase conn⟩
  | .discard conn =>
    ⟨((Database.onBackend (Backend.discard conn)).run u.db).2,
      u.held.erase conn⟩
  | .call conn c => ⟨((Database.onEnv (Env.call conn c)).run u.db).2, u.held⟩
  | .openSession => ⟨(Database.openSession.run u.db).2, u.held⟩
  | .request session op =>
    let work : Step (Scope σ) Unit := fun scope =>
      (.ok (), op.perform u.db.persister scope)
    ⟨((Database.inSession session work).run u.db).2, u.held⟩
  | .dropSession session =>
    ⟨((Database.dropSession session).run u.db).2, u.held⟩
  | .ask owner field request =>
    ⟨((Database.ask owner field request).run u.db).2, u.held⟩
  | .close => ⟨(Database.close.run u.db).2, u.held⟩
  | .outside env => ⟨{ u.db with backend := { u.db.backend with env := env } },
      u.held⟩

/-- What can be reached from some usage. -/
inductive Reaches (start : Usage σ) : Usage σ → Prop
  | start : Reaches start start
  | step {u : Usage σ} (h : Reaches start u) (event : Event σ)
      (hEnabled : u.Enabled event) : Reaches start (u.next event)

namespace Accounted

variable {conns : List ConnId} {before : Env σ} {shut : Bool} {u : Usage σ}

theorem close (h : u.Accounted conns before shut) :
    (u.next .close).Accounted conns before true :=
  ⟨h.backend.close, h.distinct, h.fresh⟩

/-- Whatever happens, the balance is kept. -/
theorem next (h : u.Accounted conns before shut) {event : Event σ}
    (hEnabled : u.Enabled event) :
    (u.next event).Accounted conns before shut := by
  cases event with
  | lease =>
      have hRun : u.next .lease =
          match u.db.backend.pool.lease with
          | .ok (conn, pool) => ⟨{ u.db with backend :=
              { u.db.backend with pool := pool } }, conn :: u.held⟩
          | .error _ => u := by
        simp only [Usage.next]
        rw [Database.onBackend, Step.zoom_run, Backend.lease_run]
        cases u.db.backend.pool.lease <;> rfl
      rw [hRun]
      cases hLease : u.db.backend.pool.lease with
      | error e => exact h
      | ok leased => exact ⟨h.backend.lease hLease, h.distinct, h.fresh⟩
  | release conn => exact ⟨(h.of_mem hEnabled).release, h.distinct, h.fresh⟩
  | discard conn => exact ⟨(h.of_mem hEnabled).discard, h.distinct, h.fresh⟩
  | call conn c =>
      have hQuiet := (Env.Quiet.refl u.db.backend.env).called conn hEnabled.2
      exact ⟨h.backend.quiet hQuiet, h.distinct, h.fresh⟩
  | openSession => exact h.openSession
  | request session op =>
      exact h.inSession fun _ _ hScope => Session.accounted_perform hScope op
  | dropSession session => exact h.dropSession
  | ask owner field request => exact h.ask owner field request
  | close =>
      have hClosed := h.close
      have hBackend := hClosed.backend
      exact ⟨{ hBackend with shut := fun _ => hBackend.shut rfl },
        h.distinct, h.fresh⟩
  | outside env =>
      have hQuiet : u.db.backend.env.Quiet env :=
        ⟨[], by rw [hEnabled, List.append_nil], rfl⟩
      exact ⟨h.backend.quiet hQuiet, h.distinct, h.fresh⟩

theorem reaches {last : Usage σ} (h : u.Accounted conns before shut)
    (hReaches : u.Reaches last) : last.Accounted conns before shut := by
  induction hReaches with
  | start => exact h
  | step _ event hEnabled ih => exact ih.next hEnabled

end Accounted

/-! ## Where the connections are -/

/-- Where the connections are that a pool was opened with. -/
structure Conserved (conns : List ConnId) (before : Env σ) (u : Usage σ) :
    Prop where
  /-- Each is in one place, and there once. -/
  place : ∀ conn ∈ conns, u.db.backend.pool.idle.count conn +
    u.held.count conn + (Session.leases u.db.sessions).count conn +
      (u.closed before).count conn = 1
  /-- There are no others. -/
  known : ∀ conn, conn ∈ u.db.backend.pool.idle ∨ conn ∈ u.held ∨
    conn ∈ Session.leases u.db.sessions ∨ conn ∈ u.closed before →
      conn ∈ conns
  total : u.db.backend.pool.available + u.held.length +
    (Session.leases u.db.sessions).length + (u.closed before).length =
      conns.length
  /-- Sessions have numbers of their own. -/
  sessions : (Assoc.keys u.db.sessions).Nodup
  recorded : u.db.backend.pool.leased.Perm
    (u.held ++ Session.leases u.db.sessions)
  /-- None has been closed twice. -/
  once : (u.closed before).Nodup
  /-- An application can lease one as long as one is idle and the pool has not
  been closed. -/
  lease : (∃ conn, (Backend.lease.run u.db.backend).1 = .ok conn) ↔
    u.db.backend.pool.closed = false ∧ 0 < u.db.backend.pool.available
  /-- So can a session that has none. -/
  ensure : ∀ session : Session, session.connection = none →
    ((∃ conn, (Session.ensureConnection.run ⟨u.db.backend, session⟩).1 =
        .ok conn) ↔
      u.db.backend.pool.closed = false ∧ 0 < u.db.backend.pool.available)
  /-- After the pool has been closed there are no more leases, and when those
  have ended that there were, each connection has been closed. -/
  shut : ∀ last, (u.next .close).Reaches last →
    (Backend.lease.run last.db.backend).1 = .error .poolClosed ∧
      (last.held = [] → Session.leases last.db.sessions = [] →
        (last.closed before).Perm conns)

/-- A balance says where the connections are. -/
theorem Accounted.conserved {conns : List ConnId} {before : Env σ}
    {shut : Bool} {u : Usage σ} (h : u.Accounted conns before shut)
    (hDistinct : conns.Nodup) : u.Conserved conns before := by
  have hBalance := h.balance
  have hNodup := hBalance.nodup_iff.2 hDistinct
  refine ⟨?_, ?_, ?_, h.distinct, h.backend.leased, ?_, lease_isOk_iff _,
    fun _ hNone => ensureConnection_isOk_iff hNone, ?_⟩
  · intro conn hMem
    have hCount := hBalance.count_eq conn
    rw [List.count_eq_one_of_mem hDistinct hMem] at hCount
    simp only [List.count_append] at hCount
    omega
  · intro conn hPlace
    refine hBalance.mem_iff.1 ?_
    simp only [List.mem_append]
    tauto
  · have hLength := hBalance.length_eq
    simp only [List.length_append] at hLength
    rw [Pool.available]
    omega
  · have hRest := (List.nodup_append.1 hNodup).2.1
    exact (List.nodup_append.1 hRest).2.1
  · intro last hReaches
    have hLast := h.close.reaches hReaches
    have hClosed := hLast.backend.shut rfl
    refine ⟨?_, hLast.closed_perm⟩
    rw [Backend.lease_run, Pool.lease, if_pos hClosed]

/-! ## Pools that are opened -/

/-- Connections are numbered as they are opened. -/
theorem openMore_range {count : Nat} {opened conns : List ConnId}
    {env after : Env σ} (hOpened : opened = List.range opened.length)
    (h : (Backend.openMore opened count).run env = (.ok conns, after)) :
    conns = List.range (opened.length + count) := by
  induction count generalizing opened env with
  | zero =>
      cases h
      exact hOpened
  | succ count ih =>
      rw [Backend.openMore, Step.bind_run, Step.attempt_run,
        Env.call_run] at h
      cases hCall : (Driver.call opened.length .connect env.driver).1 with
      | error e =>
          simp only [hCall] at h
          rw [Step.bind_run] at h
          split at h <;> cases h
      | ok _ =>
          simp only [hCall] at h
          have hNext : opened ++ [opened.length] =
              List.range (opened ++ [opened.length]).length := by
            rw [List.length_append, List.length_singleton, List.range_succ,
              ← hOpened]
          have hConns := ih hNext h
          rw [List.length_append, List.length_singleton] at hConns
          rw [hConns]
          congr 1
          omega

/-- A database that has been opened has a pool of as many connections as its
settings say, and nobody has one of them. -/
theorem untouched_of_connect {schema : Schema} {settings : Settings}
    {env after : Env σ} {db : Database σ}
    (h : Database.connect schema settings env = (.ok db, after)) :
    ∃ pool, Pool.ofConnections (List.range settings.poolSize) = .ok pool ∧
      Untouched pool ⟨db, []⟩ := by
  unfold Database.connect at h
  cases hValid : settings.validate with
  | error e =>
      simp only [hValid] at h
      cases h
  | ok _ =>
      rcases hOpen : (Backend.openPool settings).run env with
        ⟨e | pool, left⟩
      · simp only [hValid, hOpen] at h
        cases h
      · simp only [hValid, hOpen] at h
        cases h
        have hSize := ((Settings.validate_eq_ok_iff _).1 hValid).2
        rw [Backend.openPool, if_neg hSize, Step.bind_run] at hOpen
        rcases hMore : (Backend.openMore [] settings.poolSize).run env with
          ⟨e | conns, later⟩
        · rw [hMore] at hOpen
          cases hOpen
        · rw [hMore] at hOpen
          have hConns := openMore_range rfl hMore
          rw [List.length_nil, Nat.zero_add] at hConns
          rw [hConns] at hOpen
          refine ⟨pool, ?_, rfl, rfl, rfl⟩
          exact congrArg Prod.fst hOpen

/-- Whatever applications and sessions do with the connections of a pool, and
in whatever order, and whatever goes wrong when one is closed: each of them is
idle, on lease to one of them, or closed, and it is closed once at the most.
A lease succeeds exactly as long as one is idle and the pool has not been
closed. Afterwards no lease does, and once everybody has given up what they
had on lease, all connections have been closed. -/
theorem connections_conserved {conns : List ConnId} {pool : Pool}
    {start u : Usage σ} (hPool : Pool.ofConnections conns = .ok pool)
    (hDistinct : conns.Nodup) (hStart : start.Untouched pool)
    (h : start.Reaches u) : u.Conserved conns start.db.backend.env :=
  ((accounted_of_untouched hPool hStart).reaches h).conserved hDistinct

end Usage

/-! ## Three connections -/

namespace Notes

/-- A store of one note. The first connection to be closed is closed
properly, and the call that closes the next two reports a failure. -/
def rusty : Env Store where
  driver := { store [[.int 7, .text "c"]] with
    faults := [⟨"CLOSE", 1, 2, .failure "broken pipe"⟩] }

/-- A database with three connections to it. -/
def harbour : Database Store where
  settings := (Settings.ofUrl "notes").withPoolSize 3
  persister := persister
  backend := ⟨((rusty.called 0 .connect).called 1 .connect).called 2 .connect,
    { size := 3, idle := [2, 1, 0] }⟩

/-- An application leases a connection, and a session another one to look a
note up. -/
def moored : Usage Store :=
  [.lease, .openSession, .request 0 (.find "Note" (.int 7))].foldl Usage.next
    ⟨harbour, []⟩

/-- The pool is closed, the application discards its connection, and the
session is dropped. -/
def sailed : Usage Store :=
  [.close, .discard 2, .dropSession 0].foldl Usage.next moored

theorem reaches_moored : Usage.Reaches ⟨harbour, []⟩ moored :=
  ((Usage.Reaches.start.step .lease trivial).step .openSession trivial).step
    (.request 0 (.find "Note" (.int 7))) trivial

theorem reaches_sailed : (moored.next .close).Reaches sailed := by
  have hHeld : (moored.next .close).Enabled (.discard 2) := by
    show 2 ∈ (moored.next .close).held
    decide +kernel
  exact (Usage.Reaches.start.step (.discard 2) hHeld).step (.dropSession 0)
    trivial

end Notes

/-- Of three connections an application has the third, a session the second,
and nobody the first. When the pool is closed and both have given up theirs,
all three have been closed. -/
theorem Usage.connections_conserved_of_harbour :
    Database.connect Notes.schema Notes.harbour.settings Notes.rusty =
        (.ok Notes.harbour, Notes.harbour.backend.env) ∧
      Notes.moored.Conserved [0, 1, 2] Notes.harbour.backend.env ∧
      Notes.moored.held = [2] ∧
      Session.leases Notes.moored.db.sessions = [1] ∧
      Notes.moored.db.backend.pool.idle = [0] ∧
      (Notes.sailed.closed Notes.harbour.backend.env).Perm [0, 1, 2] := by
  have hConnect : Database.connect Notes.schema Notes.harbour.settings
      Notes.rusty = (.ok Notes.harbour, Notes.harbour.backend.env) := rfl
  obtain ⟨pool, hPool, hStart⟩ := untouched_of_connect hConnect
  have hConserved := connections_conserved hPool (by decide) hStart
    Notes.reaches_moored
  refine ⟨hConnect, hConserved, by decide +kernel, by decide +kernel,
    by decide +kernel, ?_⟩
  exact (hConserved.shut _ Notes.reaches_sailed).2 (by decide +kernel)
    (by decide +kernel)

end UnitOfWork

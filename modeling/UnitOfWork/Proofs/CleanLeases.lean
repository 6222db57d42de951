import UnitOfWork.Proofs.Custody
import UnitOfWork.Proofs.Fallible

/-!
# Connections that are given back clean

A session switches auto-commit off for a flush in a transaction, and on again
when the flush is over. A connection that goes back to the pool should be as it
was taken out of it: with auto-commit on, and outside of any transaction. When
a failed flush cannot be rolled back the connection is discarded, and so it is
when a rollback fails. When the rollback succeeds and the switch to auto-commit
fails after it, the connection is not discarded: the session keeps it with
auto-commit off (`Env.Stuck`), and gives it back to the pool so. This is the
only way in which a session spoils a connection.

## Main results

* `Session.spares_flush`, `Session.spares_perform`: a request leaves a clean
  connection clean, closes it, or gets it stuck;
* `Usage.spares_next`: so does all that happens to a database;
* `Usage.leases_clean`: which connections are clean, and what becomes of one
  that is stuck.
-/

namespace UnitOfWork

variable {σ γ : Type} [Driver σ]

/-- The last call that was made has been the switch to auto-commit on a
connection that had it off, and has failed. -/
def Env.Stuck (conn : ConnId) (before after : Env σ) : Prop :=
  ∃ first, before.Made conn (first ++ [.setAutoCommit true]) after ∧
    .close ∉ first ∧
    (∃ e, (Driver.call conn (.setAutoCommit true)
      (Driver.after conn first before.driver)).1 = .error e) ∧
    Driver.autoCommit conn (Driver.after conn first before.driver) = false

/-- Without a call no connection gets stuck. -/
theorem Env.not_stuck_of_trace {conn : ConnId} {before after : Env σ}
    (h : after.trace = before.trace) : ¬ before.Stuck conn after := by
  rintro ⟨first, hMade, _⟩
  have hTrace := hMade.trace
  rw [h] at hTrace
  have hNone := List.self_eq_append_right.1 hTrace
  simp [Call.on] at hNone

/-- The calls on a connection close it if there is one that does. -/
theorem Env.mem_closings_on {conn : ConnId} {calls : List Call} :
    conn ∈ closings (Call.on conn calls) ↔ .close ∈ calls := by
  simp only [closings, Call.on, List.mem_filterMap, List.mem_map]
  constructor
  · rintro ⟨call, ⟨c, hMem, rfl⟩, hClose⟩
    cases c <;> first | exact hMem | cases hClose
  · intro hMem
    exact ⟨(conn, .close), ⟨.close, hMem, rfl⟩, rfl⟩

namespace Fallible

/-- A connection that has been clean is clean still, unless it has been
closed. -/
structure Spares (F : Fallible σ γ) (conn : ConnId) (before after : Env σ) :
    Prop where
  valid : F.Valid after.driver
  clean : ∃ made, after.trace = before.trace ++ made ∧
    (F.Clean conn before.driver →
      F.Clean conn after.driver ∨ conn ∈ Env.closings made)

variable {F : Fallible σ γ} {conn other : ConnId} {calls : List Call}
  {before env after : Env σ}

/-! ## Connections that are stuck -/

/-- A connection that is stuck has auto-commit off. -/
theorem autoCommit_of_stuck (hValid : F.Valid before.driver)
    (h : before.Stuck conn after) :
    Driver.autoCommit conn after.driver = false := by
  obtain ⟨first, hMade, _, ⟨e, hFails⟩, hOff⟩ := h
  have hDriver : after.driver = (Driver.call conn (.setAutoCommit true)
      (Driver.after conn first before.driver)).2 := by
    rw [hMade.driver]
    simp [Driver.after]
  rw [hDriver, autoCommit_of_failed_switch (valid_after hValid conn first)
    hFails]
  exact hOff

/-- It has not been closed. -/
theorem not_closed_of_stuck {made : List (ConnId × Call)}
    (h : before.Stuck conn after) (hTrace : after.trace = before.trace ++ made) :
    conn ∉ Env.closings made := by
  obtain ⟨first, hMade, hOpen, _, _⟩ := h
  have hSame : made = Call.on conn (first ++ [.setAutoCommit true]) :=
    List.append_cancel_left (hTrace.symm.trans hMade.trace)
  rw [hSame, Env.mem_closings_on, List.mem_append]
  rintro (hFirst | hLast)
  · exact hOpen hFirst
  · cases List.mem_singleton.1 hLast

/-- So it has not been spared if it was clean. -/
theorem Spares.not_stuck (h : F.Spares conn before after)
    (hValid : F.Valid before.driver) (hClean : F.Clean conn before.driver) :
    ¬ before.Stuck conn after := by
  intro hStuck
  obtain ⟨made, hTrace, hSpared⟩ := h.clean
  rcases hSpared hClean with hStill | hClosed
  · have hOff := autoCommit_of_stuck hValid hStuck
    exact Bool.false_ne_true (hOff.symm.trans hStill.autoCommit)
  · exact not_closed_of_stuck hStuck hTrace hClosed

/-! ## Connections that are spared -/

namespace Spares

/-- Where no call is made nothing happens to connections. -/
theorem of_eq (hValid : F.Valid before.driver)
    (hTrace : after.trace = before.trace)
    (hDriver : after.driver = before.driver) : F.Spares conn before after where
  valid := by
    rw [hDriver]
    exact hValid
  clean := by
    refine ⟨[], by simp [hTrace], fun hClean => Or.inl ?_⟩
    rw [hDriver]
    exact hClean

theorem refl (hValid : F.Valid env.driver) : F.Spares conn env env :=
  of_eq hValid rfl rfl

theorem trans (h : F.Spares conn before env) (hNext : F.Spares conn env after) :
    F.Spares conn before after := by
  obtain ⟨_, made, hMade, hFirst⟩ := h
  obtain ⟨hValid, more, hMore, hLast⟩ := hNext
  refine ⟨hValid, made ++ more, ?_, fun hClean => ?_⟩
  · rw [hMore, hMade, List.append_assoc]
  · rw [Env.closings_append, List.mem_append]
    rcases hFirst hClean with hStill | hClosed
    · exact (hLast hStill).imp_right Or.inr
    · exact Or.inr (Or.inl hClosed)

/-- Calls that leave the connection clean. -/
theorem of_clean (hValid : F.Valid before.driver)
    (hMade : before.Made other calls after)
    (h : F.Clean conn before.driver → F.Clean conn after.driver) :
    F.Spares conn before after where
  valid := by
    rw [hMade.driver]
    exact valid_after hValid other calls
  clean := ⟨_, hMade.trace, fun hClean => Or.inl (h hClean)⟩

/-- Calls on another connection. -/
theorem of_ne (hValid : F.Valid before.driver)
    (hMade : before.Made other calls after) (hNe : conn ≠ other) :
    F.Spares conn before after := by
  refine of_clean hValid hMade fun hClean => ?_
  obtain ⟨hMode, hOpen⟩ := modes_after hValid hNe calls
  rw [hMade.driver]
  exact hClean.of_modes hMode hOpen

/-- Calls the last of which closes its connection. -/
theorem of_close (hValid : F.Valid before.driver)
    (hMade : before.Made other (calls ++ [.close]) after) :
    F.Spares conn before after := by
  by_cases hSame : conn = other
  · subst hSame
    refine ⟨?_, _, hMade.trace, fun _ => Or.inr ?_⟩
    · rw [hMade.driver]
      exact valid_after hValid conn _
    · rw [Env.mem_closings_on]
      exact List.mem_append_right _ (List.mem_singleton_self _)
  · exact of_ne hValid hMade hSame

end Spares

end Fallible

/-! ## Requests to a session -/

namespace Session

variable {F : Fallible σ γ} {p : Persister} {conn : ConnId}
  {scope after : Scope σ}

open Fallible

/-- The work of a flush that succeeds leaves its connection clean. -/
theorem switched_of_performed {inTransaction : Bool} {actions : List Action}
    {work last : Work σ} (hValid : F.Valid work.env.driver)
    (h : Performed p conn inTransaction actions work (.ok ()) last) :
    F.Clean conn last.env.driver := by
  cases h with
  | @committed _ done _ hRun _ hClose =>
      have hOpened : F.Valid
          (opened conn inTransaction work).env.driver := by
        cases inTransaction with
        | false => exact hValid
        | true => exact F.valid_call conn _ hValid
      obtain ⟨_, _, ⟨calls, hMade, _⟩, _⟩ := Action.executeAll_made hRun
      have hDone := F.valid_call conn .commit (valid_made hOpened hMade)
      exact clean_of_switch hDone hClose

/-- The calls of the work of a flush on its connection do not close it. -/
theorem made_of_performed {inTransaction : Bool} {actions : List Action}
    {work last : Work σ} {r : Except Error Unit}
    (h : Performed p conn inTransaction actions work r last) :
    ∃ calls, work.env.Made conn calls last.env ∧ .close ∉ calls := by
  obtain ⟨made, _, ⟨calls, hMade, hMoves⟩, _⟩ := performed_made h
  refine ⟨calls, hMade, fun hClose => ?_⟩
  obtain ⟨move, _, hMove⟩ := Action.exists_of_forall₂_mem hMoves hClose
  exact hMove.ne_close rfl

/-- A flush leaves a clean connection clean or closes it, or else it fails and
the connection that the session keeps is stuck. -/
theorem spares_flush {r : Except Error Unit} (hValid : F.Valid scope.env.driver)
    (h : Flushed p scope r after) :
    F.Spares conn scope.env after.env ∨
      scope.env.Stuck conn after.env ∧
        after.session.connection = some conn ∧ ∃ e, r = .error e := by
  cases h with
  | closed _ => exact Or.inl (.refl hValid)
  | unreadable _ _ => exact Or.inl (.refl hValid)
  | idle _ _ _ => exact Or.inl (.refl hValid)
  | unconnected _ _ _ _ _ => exact Or.inl (.refl hValid)
  | @committed _ _ other _ work _ _ _ _ hRun =>
      obtain ⟨calls, hMade, _⟩ := made_of_performed hRun
      by_cases hSame : conn = other
      · subst hSame
        exact Or.inl (.of_clean hValid hMade fun _ =>
          switched_of_performed hValid hRun)
      · exact Or.inl (.of_ne hValid hMade hSame)
  | @rolledBack _ _ other _ work _ _ _ _ _ hRun hRollback =>
      obtain ⟨calls, hMade, hOpen⟩ := made_of_performed hRun
      have hBack := hMade.called .rollback
      have hLast := hBack.called (.setAutoCommit true)
      by_cases hSame : conn = other
      · subst hSame
        rcases clean_restored (valid_made hValid hMade) hRollback with
          hClean | ⟨hFails, hOff⟩
        · exact Or.inl (.of_clean hValid hLast fun _ => hClean)
        · have hDriver : (Driver.call conn .rollback work.env.driver).2 =
              Driver.after conn (calls ++ [.rollback]) scope.env.driver :=
            hBack.driver
          rw [hDriver] at hFails hOff
          refine Or.inr ⟨⟨_, hLast, ?_, hFails, hOff⟩, rfl, _, rfl⟩
          simpa using hOpen
      · exact Or.inl (.of_ne hValid hLast hSame)
  | @discarded _ _ other _ work _ _ _ _ _ _ hRun _ =>
      obtain ⟨calls, hMade, _⟩ := made_of_performed hRun
      exact Or.inl (.of_close hValid
        ((hMade.called .rollback).called .close))

/-- What a load does to a connection does not spoil it. -/
theorem keeps_spares (L : Loader) (before : Env σ) (conn : ConnId) :
    L.Keeps (fun _ _ => True)
      fun work : Work σ => F.Spares conn before work.env where
  query := by
    intro work d plan _ hPlan hI
    refine ⟨hI.trans ?_, fun _ _ _ _ => trivial⟩
    have hMade : work.env.Made L.connection
        [.query plan.statement plan.params]
        (L.persister.calling L.connection
          (.query plan.statement plan.params) work.env) :=
      (Env.Made.refl ..).snoc rfl rfl
    by_cases hSame : conn = L.connection
    · refine .of_clean hI.valid hMade fun hClean => ?_
      rw [Persister.driver_calling, ← hSame]
      exact hClean.query hI.valid hPlan.isQuery plan.params
    · exact .of_ne hI.valid hMade hSame
  register := fun _ _ _ _ _ hI => ⟨hI.valid, hI.clean⟩
  assign := fun _ _ _ _ hI => ⟨hI.valid, hI.clean⟩
  inspect := fun _ hI => ⟨hI.valid, hI.clean⟩

theorem spares_withLoader {α : Type} {shared : Bool}
    {load : Loader → Step (Work σ) α} (hLoad : Loader.Leading load)
    (hValid : F.Valid scope.env.driver) :
    F.Spares conn scope.env ((withLoader p shared load).run scope).2.env := by
  have hLoaded := loaded p shared load scope fun _ _ _ =>
    hLoad (keeps_spares (F := F) _ scope.env conn) (.refl hValid)
  generalize (withLoader p shared load).run scope = result at hLoaded ⊢
  obtain ⟨r, after⟩ := result
  cases hLoaded with
  | unconnected _ _ => exact .refl hValid
  | failed _ hI => exact hI
  | done _ hI _ _ => exact hI

theorem spares_releaseConnection (hValid : F.Valid scope.env.driver) :
    F.Spares conn scope.env (releaseConnection.run scope).2.env := by
  rcases releaseConnection_cases scope with
    hSame | ⟨other, _, pool, hBack | hClosed⟩
  · rw [hSame]
    exact .refl hValid
  · rw [hBack]
    exact .refl hValid
  · rw [hClosed]
    exact .of_close hValid ((Env.Made.refl other scope.env).called .close)

/-- A rollback that is asked for leaves a clean connection clean, whatever comes
of the switch to auto-commit. -/
theorem spares_rollbackConnection (hValid : F.Valid scope.env.driver) :
    F.Spares conn scope.env (rollbackConnection.run scope).2.env := by
  have hBack := rolledBack scope
  generalize (rollbackConnection.run scope).2 = after at hBack ⊢
  cases hBack with
  | none _ => exact .refl hValid
  | @done other _ hRollback =>
      have hMade := ((Env.Made.refl other scope.env).called .rollback).called
        (.setAutoCommit true)
      by_cases hSame : conn = other
      · subst hSame
        refine .of_clean hValid hMade fun hClean => ?_
        refine (clean_restored hValid hRollback).resolve_right ?_
        rintro ⟨_, hOff⟩
        have hView := view_rollback hValid hRollback
        rw [← F.autoCommit, hView, Transactional.autoCommit_rollback,
          F.autoCommit, hClean.autoCommit] at hOff
        cases hOff
      · exact .of_ne hValid hMade hSame
  | @discarded other _ _ _ =>
      exact .of_close hValid
        (((Env.Made.refl other scope.env).called .rollback).called .close)

/-- What is asked of a session leaves a clean connection clean or closes it, or
else the connection that the session keeps is stuck. -/
theorem spares_perform (hValid : F.Valid scope.env.driver) (op : Operation) :
    F.Spares conn scope.env (op.perform p scope).env ∨
      scope.env.Stuck conn (op.perform p scope).env ∧
        (op.perform p scope).session.connection = some conn := by
  -- As long as the flush of the request spares the connection, so does the rest.
  have hSpares : (op.flushes = true →
      F.Spares conn scope.env ((flush p).run scope).2.env) →
      F.Spares conn scope.env (op.perform p scope).env := by
    intro hFlush
    let Kept (s : Scope σ) : Prop := F.Spares conn scope.env s.env
    exact perform_keeps (I := Kept) (.refl hValid)
      (fun _ _ => persist_keeps (I := Kept) (.refl hValid) (.refl hValid))
      (fun _ _ => remove_keeps (I := Kept) (.refl hValid) (.refl hValid)) hFlush
      (fun _ _ hLoad _ hS => hS.trans (spares_withLoader hLoad hS.valid))
      (fun _ _ _ hS => hS) (fun _ _ hS => hS)
      (fun _ _ hS => hS.trans (spares_releaseConnection hS.valid))
      (fun _ _ hS => hS.trans (spares_rollbackConnection hS.valid))
  have hFlushed : F.Spares conn scope.env ((flush p).run scope).2.env ∨ _ :=
    spares_flush hValid (flushed p scope)
  by_cases hOp : op.flushes = true
  · rcases hFlushed with hFlush | ⟨hStuck, hConn, e, hError⟩
    · exact Or.inl (hSpares fun _ => hFlush)
    · by_cases hCommit : op = .commit
      · subst hCommit
        cases hTransaction : scope.session.inTransaction with
        | false =>
            have hRun : (Operation.commit.perform p scope) = scope := by
              rw [Operation.perform, commit_run, hTransaction]
              rfl
            rw [hRun]
            exact Or.inl (.refl hValid)
        | true =>
            rw [Operation.perform, commit_run, hTransaction]
            exact Or.inr ⟨hStuck, hConn⟩
      · rw [perform_of_flush_error hOp hCommit hError]
        exact Or.inr ⟨hStuck, hConn⟩
  · exact Or.inl (hSpares fun h => absurd h hOp)

end Session

/-! ## All that happens to a database -/

namespace Backend

variable {F : Fallible σ γ} {conn : ConnId}

/-- Closing connections spoils none of the others. -/
theorem spares_closeAll (conns : List ConnId) {env : Env σ}
    (hValid : F.Valid env.driver) :
    F.Spares conn env ((closeAll conns).run env).2 := by
  induction conns generalizing env with
  | nil => exact .refl hValid
  | cons other rest ih =>
      have hFirst : F.Spares conn env (env.called other .close) :=
        .of_close hValid ((Env.Made.refl other env).called .close)
      have hRest := hFirst.trans (ih hFirst.valid)
      rw [closeAll, Step.bind_run, Step.attempt_run, Env.call_run]
      simp only
      rw [Step.bind_run]
      generalize (closeAll rest).run (env.called other .close) = result
        at hRest ⊢
      obtain ⟨_ | _, after⟩ := result
      · exact hRest
      · cases (Driver.call other .close env.driver).1 <;> exact hRest

theorem spares_close {backend : Backend σ} (hValid : F.Valid backend.env.driver) :
    F.Spares conn backend.env (Backend.close.run backend).2.env := by
  have hAll : F.Spares conn backend.env
      ((closeAll backend.pool.idle).run backend.env).2 :=
    spares_closeAll backend.pool.idle hValid
  rw [Backend.close, Step.bind_run, Step.get_run]
  by_cases hClosed : backend.pool.closed = true
  · simp only [hClosed, if_true]
    exact .refl hValid
  · simp only [hClosed, Bool.false_eq_true, if_false]
    rw [Step.bind_run, onPool, Step.modify_run]
    simp only
    rw [Step.bind_run, onEnv, Step.zoom_run]
    simp only
    generalize (closeAll backend.pool.idle).run backend.env = result
      at hAll ⊢
    obtain ⟨_ | _ | _, env⟩ := result <;> exact hAll

end Backend

namespace Database

variable {F : Fallible σ γ} {conn : ConnId} {db : Database σ} {id : Nat}

/-- The environment of a database. -/
abbrev env (db : Database σ) : Env σ := db.backend.env

/-- Work in a session spares a connection if it does so in the scope of the
session. -/
theorem spares_inSession {α : Type} {m : Step (Scope σ) α}
    (hValid : F.Valid db.env.driver)
    (hWork : ∀ scope : Scope σ, F.Valid scope.env.driver →
      F.Spares conn scope.env (m.run scope).2.env) :
    F.Spares conn db.env ((inSession id m).run db).2.env := by
  cases hSession : db.session? id with
  | none =>
      simp only [inSession, Step.run, hSession]
      exact .refl hValid
  | some session =>
      have hScope := hWork ⟨db.backend, session⟩ hValid
      simp only [inSession, Step.run, hSession] at hScope ⊢
      exact hScope

theorem spares_dropSession (hValid : F.Valid db.env.driver) :
    F.Spares conn db.env ((dropSession id).run db).2.env := by
  have hReleased : F.Spares conn db.env
      ((inSession id Session.releaseConnection).run db).2.env :=
    spares_inSession hValid fun _ => Session.spares_releaseConnection
  rw [dropSession, Step.bind_run]
  generalize (inSession id Session.releaseConnection).run db = result
    at hReleased ⊢
  obtain ⟨_ | _, after⟩ := result <;> exact hReleased

theorem spares_loadMembers (source : Source) (hValid : F.Valid db.env.driver) :
    F.Spares conn db.env ((loadMembers source).run db).2.env := by
  rw [loadMembers, Step.bind_run, Step.get_run]
  simp only
  split
  · exact .refl hValid
  · split
    · exact .refl hValid
    · split
      · refine spares_inSession hValid fun scope hScope => ?_
        rw [Session.loadMembers_run]
        cases db.persister.schema.descriptor source.target with
        | error e => exact .refl hScope
        | ok d =>
            exact Session.spares_withLoader
              (Loader.leading_loadMembers source) hScope
      · exact .refl hValid

theorem spares_ask (owner : Ref) (field : String) (request : Request)
    (hValid : F.Valid db.env.driver) :
    F.Spares conn db.env ((ask owner field request).run db).2.env := by
  rw [ask_run]
  have hAsked : F.Spares conn db.env (((db.heap.get owner).toMany field).perform
      (fun source => (loadMembers (σ := σ) source).run) request db).2.2.env := by
    rcases Collection.perform_state
        (fun source => (loadMembers (σ := σ) source).run)
        ((db.heap.get owner).toMany field) request db with
      hSame | ⟨source, hLoaded⟩
    · rw [hSame]
      exact .refl hValid
    · rw [hLoaded]
      exact spares_loadMembers source hValid
  exact ⟨hAsked.valid, hAsked.clean⟩

end Database

namespace Usage

variable {F : Fallible σ γ} {conn : ConnId} {conns : List ConnId}
  {start u : Usage σ}

/-- What happens to a database that is used through sessions only; what happens
besides leaves the connections in their modes. -/
def Permitted (F : Fallible σ γ) (u : Usage σ) : Event σ → Prop
  | .lease | .release _ | .discard _ | .call .. => False
  | .outside env => env.trace = u.db.env.trace ∧ F.Valid env.driver ∧
    F.SameModes u.db.env.driver env.driver
  | _ => True

theorem enabled_of_permitted {event : Event σ} (h : u.Permitted F event) :
    u.Enabled event := by
  cases event with
  | outside env => exact h.1
  | release _ => cases h
  | discard _ => cases h
  | call _ _ => cases h
  | _ => trivial

/-- Applications hold no connection if they lease none. -/
theorem held_next {event : Event σ} (h : u.Permitted F event)
    (hHeld : u.held = []) : (u.next event).held = [] := by
  cases event with
  | lease => cases h
  | release _ => cases h
  | discard _ => cases h
  | _ => exact hHeld

/-- A session has a connection that is stuck. -/
def Keeps (u : Usage σ) (conn : ConnId) (id : Nat) : Prop :=
  ∃ session, u.db.session? id = some session ∧
    session.connection = some conn

/-- Whatever happens leaves a clean connection clean or closes it, or else it is
a request to a session that keeps the connection, which is stuck. -/
theorem spares_next {event : Event σ} (hValid : F.Valid u.db.env.driver)
    (h : u.Permitted F event) :
    F.Spares conn u.db.env (u.next event).db.env ∨
      u.db.env.Stuck conn (u.next event).db.env ∧
        ∃ id op, event = .request id op ∧ (u.next event).Keeps conn id := by
  cases event with
  | lease => cases h
  | release _ => cases h
  | discard _ => cases h
  | call _ _ => cases h
  | openSession =>
      refine Or.inl ?_
      simp only [Usage.next, Database.openSession, Step.run]
      split <;> exact .refl hValid
  | dropSession id => exact Or.inl (Database.spares_dropSession hValid)
  | ask owner field request =>
      exact Or.inl (Database.spares_ask owner field request hValid)
  | close => exact Or.inl (Backend.spares_close hValid)
  | outside env =>
      obtain ⟨hTrace, hStill, hModes⟩ := h
      have hMade : (u.next (.outside env)).db.env.trace =
          u.db.env.trace ++ [] := by
        rw [List.append_nil]
        exact hTrace
      exact Or.inl ⟨hStill, [], hMade, fun hClean =>
        Or.inl (hClean.of_modes (hModes conn).1 (hModes conn).2)⟩
  | request id op =>
      simp only [Usage.next, Database.inSession, Step.run]
      cases hSession : u.db.session? id with
      | none => exact Or.inl (.refl hValid)
      | some session =>
          have hScope : F.Valid (Scope.mk u.db.backend session).env.driver :=
            hValid
          rcases Session.spares_perform hScope op with
            hSpares | ⟨hStuck, hConn⟩
          · exact Or.inl hSpares
          · refine Or.inr ⟨hStuck, id, op, rfl, _, ?_, hConn⟩
            exact Assoc.lookup_insert_self ..

/-- What can happen without a connection ever getting stuck. -/
inductive Runs (F : Fallible σ γ) (conn : ConnId) (start : Usage σ) :
    Usage σ → Prop
  | start : Runs F conn start start
  | step {u : Usage σ} (h : Runs F conn start u) (event : Event σ)
      (hPermitted : u.Permitted F event)
      (hFree : ¬ u.db.env.Stuck conn (u.next event).db.env) :
    Runs F conn start (u.next event)

/-- What has been closed stays closed, and what an event closes is closed. -/
theorem closed_next {before : Env σ} {event : Event σ}
    {made more : List (ConnId × Call)}
    (hMade : u.db.env.trace = before.trace ++ made)
    (hMore : (u.next event).db.env.trace = u.db.env.trace ++ more) :
    (u.next event).closed before = u.closed before ++ Env.closings more := by
  rw [closed, closed, hMore, hMade, List.append_assoc, List.drop_left,
    List.drop_left, Env.closings_append]

/-- As long as a connection does not get stuck it is clean or closed. -/
theorem Runs.clean (h : Runs F conn start u)
    (hAccounted : start.Accounted conns start.db.env false)
    (hHeld : start.held = []) (hValid : F.Valid start.db.env.driver)
    (hClean : F.Clean conn start.db.env.driver) :
    u.Accounted conns start.db.env false ∧ u.held = [] ∧
      F.Valid u.db.env.driver ∧
        (F.Clean conn u.db.env.driver ∨ conn ∈ u.closed start.db.env) := by
  induction h with
  | start => exact ⟨hAccounted, hHeld, hValid, Or.inl hClean⟩
  | @step u h event hPermitted hFree ih =>
      obtain ⟨hBalance, hNone, hStill, hState⟩ := ih
      have hSpares : F.Spares conn u.db.env (u.next event).db.env :=
        (spares_next hStill hPermitted).resolve_right fun hStuck =>
          hFree hStuck.1
      obtain ⟨more, hMore, hNext⟩ := hSpares.clean
      obtain ⟨made, hMade, _⟩ := hBalance.backend.balance
      refine ⟨hBalance.next (enabled_of_permitted hPermitted),
        held_next hPermitted hNone, hSpares.valid, ?_⟩
      rw [closed_next hMade hMore, List.mem_append]
      rcases hState with hStands | hClosed
      · exact (hNext hStands).imp_right Or.inr
      · exact Or.inr (Or.inl hClosed)

/-! ## Connections that are stuck -/

/-- When a session is dropped its connection goes back to a pool that is
open. -/
theorem dropSession_run {db : Database σ} {id : Nat} {session : Session}
    (hSession : db.session? id = some session)
    (hConn : session.connection = some conn)
    (hOpen : db.isClosed = false) :
    ((Database.dropSession id).run db).2.backend =
      { db.backend with pool := db.backend.pool.putBack conn } := by
  have hReleased : Session.releaseConnection.run ⟨db.backend, session⟩ =
      (.ok (), ⟨{ db.backend with pool := db.backend.pool.putBack conn },
        { session with connection := none }⟩) := by
    rw [Database.isClosed] at hOpen
    rw [Session.releaseConnection, Step.bind_run, Session.self_run]
    simp only [hConn]
    rw [Step.bind_run, Session.change_run]
    simp only
    rw [Session.onBackend, Step.zoom_run, Backend.release, Step.bind_run,
      Step.get_run]
    simp only [hOpen, Bool.false_eq_true, if_false]
    rfl
  rw [Database.dropSession, Step.bind_run]
  simp only [Database.inSession, Step.run, hSession] at hReleased ⊢
  rw [hReleased]
  rfl

omit [Driver σ] in
/-- A connection that is put back is the next to be leased. -/
theorem lease_putBack {pool : Pool} (hOpen : pool.closed = false)
    (conn : ConnId) :
    ∃ after, (pool.putBack conn).lease = .ok (conn, after) := by
  let after : Pool := { pool.putBack conn with
    idle := pool.idle, leased := conn :: (pool.putBack conn).leased }
  have hLease := Pool.lease_eq_ok_iff (pool.putBack conn) conn after
  exact ⟨after, hLease.2 ⟨hOpen, rfl, rfl⟩⟩

/-- What becomes of a connection that is stuck: the session keeps it, and
auto-commit is off; it has not been discarded. When the session is dropped,
and the pool is open, the connection is the next to be leased, with auto-commit
off. -/
structure Stranded (before : Env σ) (conn : ConnId) (id : Nat)
    (u : Usage σ) : Prop where
  keeps : u.Keeps conn id
  off : Driver.autoCommit conn u.db.env.driver = false
  kept : conn ∉ u.closed before
  given : u.db.isClosed = false →
    (∃ pool, (u.next (.dropSession id)).db.backend.pool.lease =
      .ok (conn, pool)) ∧
      Driver.autoCommit conn (u.next (.dropSession id)).db.env.driver = false

theorem stranded_of_keeps {before : Env σ} {id : Nat} (h : u.Keeps conn id)
    (hOff : Driver.autoCommit conn u.db.env.driver = false)
    (hKept : conn ∉ u.closed before) : u.Stranded before conn id := by
  refine ⟨h, hOff, hKept, fun hOpen => ?_⟩
  obtain ⟨session, hSession, hConn⟩ := h
  have hBackend : (u.next (.dropSession id)).db.backend =
      { u.db.backend with pool := u.db.backend.pool.putBack conn } :=
    dropSession_run hSession hConn hOpen
  rw [Database.env, hBackend]
  exact ⟨lease_putBack hOpen conn, hOff⟩

/-- Sessions on a pool of clean connections, any call on which may fail without
effect, keep them clean: a connection that has never got stuck is clean
whenever it is idle or on lease to a session, and otherwise it has been closed.
It gets stuck only by a request whose last call fails, the switch to
auto-commit after a rollback; the session keeps it then, auto-commit is off,
and it goes back to the pool so. -/
theorem leases_clean {pool : Pool}
    (hPool : Pool.ofConnections conns = .ok pool) (hDistinct : conns.Nodup)
    (hStart : start.Untouched pool) (hValid : F.Valid start.db.env.driver)
    (hMem : conn ∈ conns) (hClean : F.Clean conn start.db.env.driver)
    (h : Runs F conn start u) :
    conn ∈ u.closed start.db.env ∧ conn ∉ u.db.backend.pool.idle ∧
        conn ∉ Session.leases u.db.sessions ∨
      (conn ∈ u.db.backend.pool.idle ∨ conn ∈ Session.leases u.db.sessions) ∧
        conn ∉ u.closed start.db.env ∧ F.Clean conn u.db.env.driver ∧
        ∀ event, u.Permitted F event →
          u.db.env.Stuck conn (u.next event).db.env →
            ∃ id op, event = .request id op ∧
              (u.next event).Stranded start.db.env conn id := by
  obtain ⟨hBalance, hHeld, hStill, hState⟩ :=
    h.clean (accounted_of_untouched hPool hStart) hStart.held hValid hClean
  have hPlace := (hBalance.conserved hDistinct).place conn hMem
  rw [hHeld, List.count_nil] at hPlace
  by_cases hClosed : conn ∈ u.closed start.db.env
  · have hOnce := List.count_pos_iff.2 hClosed
    refine Or.inl ⟨hClosed, ?_, ?_⟩
    · exact List.count_eq_zero.1 (by omega)
    · exact List.count_eq_zero.1 (by omega)
  · have hNone := List.count_eq_zero.2 hClosed
    have hStands := hState.resolve_right hClosed
    refine Or.inr ⟨?_, hClosed, hStands, ?_⟩
    · by_cases hIdle : conn ∈ u.db.backend.pool.idle
      · exact Or.inl hIdle
      · have hElsewhere := List.count_eq_zero.2 hIdle
        exact Or.inr (List.count_pos_iff.1 (by omega))
    · intro event hPermitted hStuck
      rcases spares_next hStill hPermitted with
        hSpares | ⟨_, id, op, hEvent, hKeeps⟩
      · exact absurd hStuck (hSpares.not_stuck hStill hStands)
      · obtain ⟨made, hMade, _⟩ := hBalance.backend.balance
        obtain ⟨first, hCalls, hRest⟩ := hStuck
        have hKept := closed_next hMade hCalls.trace
        refine ⟨id, op, hEvent, stranded_of_keeps hKeeps
          (Fallible.autoCommit_of_stuck hStill ⟨first, hCalls, hRest⟩) ?_⟩
        rw [hKept, List.mem_append]
        rintro (hBefore | hNow)
        · exact hClosed hBefore
        · exact Fallible.not_closed_of_stuck ⟨first, hCalls, hRest⟩
            hCalls.trace hNow

end Usage

/-! ## Two connections -/

namespace Notes

/-- A database with two connections to a store of one note. Auto-commit cannot
be switched on. A new note has the number of the one that is there. -/
def quay : Usage Store where
  db :=
    { settings := (Settings.ofUrl "notes").withPoolSize 2
      persister := persister
      backend := ⟨{
        driver := { store [[.int 7, .text "c"]] with
          faults := [⟨"AUTOCOMMIT ON", 0, 9, .failure "timeout"⟩] }
        heap := ⟨[note 7 "a"]⟩ }, { size := 2, idle := [1, 0] }⟩ }

/-- A session is to insert the new note. -/
def laden : Usage Store :=
  [.openSession, .request 0 .begin, .request 0 (.persist 0)].foldl Usage.next
    quay

/-- It cannot be inserted, and auto-commit is not switched on again. -/
def aground : Usage Store := laden.next (.request 0 .commit)

theorem runs_laden : Usage.Runs (Store.fallible .exact) 1 quay laden :=
  ((Usage.Runs.start.step .openSession trivial
    (Env.not_stuck_of_trace rfl)).step (.request 0 .begin) trivial
      (Env.not_stuck_of_trace rfl)).step (.request 0 (.persist 0)) trivial
        (Env.not_stuck_of_trace rfl)

theorem stuck_aground : laden.db.env.Stuck 1 aground.db.env := by
  refine ⟨[.setAutoCommit false, .insert (.insert "notes" ["id", "title"])
    [.int 7, .text "a"], .rollback], ⟨rfl, rfl⟩, by simp, ⟨_, rfl⟩, rfl⟩

end Notes

/-- The connection is clean when the session asks for it. It is not discarded,
and when the session is dropped it is in the pool with auto-commit off. -/
theorem Usage.leases_clean_of_quay :
    (Store.fallible .exact).Clean 1 Notes.laden.db.env.driver ∧
      Notes.laden.db.env.Stuck 1 Notes.aground.db.env ∧
      Notes.aground.Stranded Notes.quay.db.env 1 0 ∧
      (Notes.aground.next (.dropSession 0)).db.backend.pool.idle = [1, 0] ∧
      Driver.autoCommit 1
        (Notes.aground.next (.dropSession 0)).db.env.driver = false := by
  have hPool : Pool.ofConnections [0, 1] =
      .ok Notes.quay.db.backend.pool := rfl
  have hValid : (Store.fallible .exact).Valid Notes.quay.db.env.driver := by
    refine ⟨rfl, fun f hMem => ?_⟩
    cases List.mem_singleton.1 hMem
    exact ⟨_, rfl⟩
  have hState := leases_clean hPool (by decide) ⟨rfl, rfl, rfl⟩ hValid
    (by simp) ⟨rfl, rfl⟩ Notes.runs_laden
  have hIdle : 1 ∈ Notes.laden.db.backend.pool.idle := by decide +kernel
  obtain ⟨_, _, hClean, hNext⟩ :=
    hState.resolve_left fun hClosed => hClosed.2.1 hIdle
  obtain ⟨id, op, hEvent, hStranded⟩ :=
    hNext (.request 0 .commit) trivial Notes.stuck_aground
  cases hEvent
  exact ⟨hClean, Notes.stuck_aground, hStranded, by decide +kernel,
    (hStranded.given rfl).2⟩

end UnitOfWork

import UnitOfWork.Proofs.Calls
import UnitOfWork.Proofs.Runs
import UnitOfWork.Proofs.Stores

/-!
# The order of a flush

What a flush carries out is determined by the state of the session: what waits
to be inserted in the order of persisting, the entities that are dirty in the
order of their keys, and what waits to be deleted in the order of removing. No
run of a session leaves updates in its queue or a key twice in its context, so
this is so in every state that a session can be in.

## Main results

* `Session.regular_of_reaches`: no run leaves updates in the queue or a key
  twice in the context;
* `Session.listsDirty_of_diff`: the dirty entities;
* `Session.flush_calls`: the calls of a flush.
-/

namespace UnitOfWork

variable {σ : Type}

/-! ## Regular sessions -/

/-- No key is twice in the context, and no updates wait. -/
structure Session.Regular (s : Session) : Prop where
  nodup : (Assoc.keys s.context.entities).Nodup
  updates : ∀ ref, ⟨.update, ref⟩ ∉ s.queue.pending

/-- Following an action never puts a key into the context twice. -/
theorem Action.nodup_follow {p : Persister} {action : Action} {heap : Heap}
    {ctx next : Context} (hNodup : (Assoc.keys ctx.entities).Nodup)
    (h : action.follow p heap ctx = .ok next) :
    (Assoc.keys next.entities).Nodup := by
  obtain ⟨kind, ref⟩ := action
  cases kind with
  | insert =>
      obtain ⟨resident, hCache⟩ := follow_insert h
      obtain ⟨key, _, ⟨_, rfl⟩ | ⟨_, _, values, _, rfl⟩⟩ :=
        Context.Coherent.cache_cases hCache
      · exact hNodup
      · exact Assoc.nodup_keys_insert hNodup key ref
  | update =>
      obtain ⟨key, values, _, _, rfl⟩ := Context.Coherent.refresh_cases h
      exact hNodup
  | delete =>
      rcases Context.Coherent.remove_cases h with rfl | ⟨key, _, rfl⟩
      · exact hNodup
      · exact Assoc.nodup_keys_erase hNodup key

namespace Session

/-! ## Dirty entities -/

/-- An entity is looked after, and its values are not those of its
snapshot. -/
def IsDirty (p : Persister) (scope : Scope σ) (d : Dirty) : Prop :=
  scope.session.context.get? d.key = some d.ref ∧
    scope.heap.snapshot p.schema d.ref = .ok d.values ∧
      scope.session.context.isStale d.key d.values = true

/-- All dirty entities, each once, in the order of their keys. -/
structure ListsDirty (p : Persister) (scope : Scope σ) (dirty : List Dirty) :
    Prop where
  mem : ∀ d, d ∈ dirty ↔ IsDirty p scope d
  sorted : dirty.Pairwise fun a b =>
    a.key.atMost b.key = true ∧ a.key ≠ b.key

/-- The keys that the dirty check reports are among those of the entries. -/
theorem keys_dirtyEntries {schema : Schema} {heap : Heap} {ctx : Context}
    {entries : List (Key × Ref)} {dirty : List Dirty}
    (h : ctx.dirtyEntries schema heap entries = .ok dirty) :
    (dirty.map Dirty.key).Sublist (Assoc.keys entries) := by
  induction entries generalizing dirty with
  | nil =>
      cases h
      exact List.Sublist.refl _
  | cons entry rest ih =>
      obtain ⟨key, ref⟩ := entry
      obtain ⟨values, _, hRest⟩ := except_bind_eq_ok.1 h
      obtain ⟨others, hOthers, hDirty⟩ := except_bind_eq_ok.1 hRest
      cases hDirty
      split
      · exact (ih hOthers).cons_cons key
      · exact (ih hOthers).cons key

/-- What the dirty check of a regular session finds. -/
theorem listsDirty_of_diff {p : Persister} {scope : Scope σ}
    {dirty : List Dirty} {ctx : Context} (hRegular : scope.session.Regular)
    (h : scope.session.context.diff p.schema scope.heap = .ok (dirty, ctx)) :
    ListsDirty p scope dirty := by
  constructor
  · intro d
    rw [Context.mem_of_diff h, IsDirty, Context.get?]
    refine and_congr_left fun _ => ⟨?_, Assoc.mem_of_lookup⟩
    exact Assoc.lookup_of_mem hRegular.nodup
  · obtain ⟨found, hFound, hSorted⟩ := except_bind_eq_ok.1 h
    cases hSorted
    have hPerm := Context.sortEntries_perm found
    have hNodup : ((Context.sortEntries found).map Dirty.key).Nodup :=
      (hPerm.map _).nodup_iff.2
        ((keys_dirtyEntries hFound).nodup hRegular.nodup)
    exact (Context.sortEntries_sorted found).and (List.pairwise_map.1 hNodup)

/-! ## What a flush carries out -/

/-- Inserts in the order of persisting, updates in the order of the dirty
entities, deletes in the order of removing. -/
def ordered (s : Session) (dirty : List Dirty) : List Action :=
  s.queue.ofKind .insert ++ dirty.map (fun d => ⟨.update, d.ref⟩) ++
    s.queue.ofKind .delete

theorem planned_eq_ordered {s : Session} (h : s.Regular) (dirty : List Dirty) :
    s.planned dirty = s.ordered dirty := by
  have hUpdates : s.queue.ofKind .update = [] := by
    refine List.filter_eq_nil_iff.2 fun a hMem => ?_
    obtain ⟨kind, ref⟩ := a
    cases kind with
    | update => exact absurd hMem (h.updates ref)
    | insert => simp
    | delete => simp
  rw [planned, ordered, Queue.drain]
  simp only [Queue.ofKind, Queue.enqueueAll, List.filter_append] at hUpdates ⊢
  rw [hUpdates]
  simp [List.filter_map, Function.comp_def]

/-! ## Requests keep a session regular -/

variable [Driver σ] {p : Persister}

omit [Driver σ] in
/-- Only the context and the queue count. -/
theorem Regular.of_eq {s after : Session} (h : s.Regular)
    (hContext : after.context = s.context) (hQueue : after.queue = s.queue) :
    after.Regular := by
  constructor
  · rw [hContext]
    exact h.nodup
  · rw [hQueue]
    exact h.updates

omit [Driver σ] in
/-- With nothing queued only the keys count. -/
theorem regular_of_nodup {s : Session}
    (hNodup : (Assoc.keys s.context.entities).Nodup)
    (hQueue : s.queue = {}) : s.Regular := by
  refine ⟨hNodup, ?_⟩
  rw [hQueue]
  exact fun ref hMem => by cases hMem

omit [Driver σ] in
/-- A session that knows nothing is regular. -/
theorem regular_of_empty {s : Session} (hContext : s.context = {})
    (hQueue : s.queue = {}) : s.Regular := by
  refine regular_of_nodup ?_ hQueue
  rw [hContext]
  exact List.nodup_nil

omit [Driver σ] in
/-- An insert or a delete may be queued. -/
theorem Regular.enqueue {s : Session} (h : s.Regular) {action : Action}
    (hKind : action.kind ≠ .update) :
    Regular { s with queue := s.queue.enqueue action } := by
  refine ⟨h.nodup, ?_⟩
  intro ref hMem
  exact h.updates ref (Queue.mem_of_mem_enqueue hMem hKind.symm)

/-- Carrying out actions never puts a key into the context twice. -/
theorem executeAll_nodup (p : Persister) (conn : ConnId)
    (actions : List Action) {work : Work σ}
    (h : (Assoc.keys work.context.entities).Nodup) :
    match (Action.executeAll p conn actions).run work with
    | (.ok _, after) => (Assoc.keys after.context.entities).Nodup
    | (.error _, _) => True := by
  refine Action.executeAll_induct
    (I := fun _ work => (Assoc.keys work.context.entities).Nodup)
    (J := fun _ => True) ?_ (fun _ _ _ _ _ _ _ => trivial) h
  intro action rest work after hNodup hExecuted
  cases hExecuted with
  | skipped _ hFollow => exact Action.nodup_follow hNodup hFollow
  | done _ _ _ _ hFollow => exact Action.nodup_follow hNodup hFollow

theorem Regular.flush {scope after : Scope σ} {r : Except Error Unit}
    (h : scope.session.Regular) (hFlushed : Flushed p scope r after) :
    after.session.Regular := by
  cases hFlushed with
  | closed _ => exact h
  | unreadable _ _ => exact h
  | idle _ _ _ => exact h
  | unconnected _ _ _ _ _ => exact regular_of_nodup h.nodup rfl
  | rolledBack _ _ _ _ _ _ => exact regular_of_nodup h.nodup rfl
  | discarded _ _ _ _ _ _ => exact regular_of_nodup h.nodup rfl
  | @committed dirty ctx conn pool work _ hDiff _ _ hRun =>
      refine regular_of_nodup ?_ rfl
      have hStart : (Assoc.keys (opened conn scope.session.inTransaction
          ⟨scope.env, ctx⟩).context.entities).Nodup := by
        rw [context_opened, Context.entities_of_diff hDiff]
        exact h.nodup
      cases hRun with
      | committed _ hExecuted _ _ =>
          have hAfter := executeAll_nodup p conn
            (scope.session.planned dirty) hStart
          rw [hExecuted] at hAfter
          exact hAfter

/-- Loads register entities under keys that are not taken. -/
theorem keeps_nodup (L : Loader) : L.Keeps (fun _ _ => True)
    fun work : Work σ => (Assoc.keys work.context.entities).Nodup where
  query := fun _ _ hI => ⟨hI, fun _ _ _ _ => trivial⟩
  register := fun _ _ _ _ _ hI => Assoc.nodup_keys_insert hI _ _
  assign := fun _ _ _ _ hI => hI
  inspect := fun _ hI => hI

theorem Regular.withLoader {α : Type} {shared : Bool} {scope : Scope σ}
    {load : Loader → Step (Work σ) α} (h : scope.session.Regular)
    (hLoad : Loader.Leading load) :
    ((Session.withLoader p shared load).run scope).2.session.Regular := by
  have hStart : (Assoc.keys (loadStart shared scope).entities).Nodup := by
    cases shared with
    | true => exact h.nodup
    | false => exact List.nodup_nil
  have hLoaded := loaded p shared load scope fun _ _ _ =>
    hLoad (keeps_nodup _) hStart
  generalize (Session.withLoader p shared load).run scope = result at hLoaded ⊢
  obtain ⟨r, after⟩ := result
  cases hLoaded with
  | unconnected _ _ => exact h
  | failed _ _ => exact h.of_eq rfl rfl
  | done _ hI _ _ =>
      cases shared with
      | true => exact ⟨hI, h.updates⟩
      | false => exact h.of_eq rfl rfl

/-- Every request leaves a session regular. -/
theorem Regular.perform {scope : Scope σ} (op : Operation)
    (h : scope.session.Regular) : (op.perform p scope).session.Regular := by
  refine perform_keeps (I := fun scope => scope.session.Regular) h ?_ ?_
    (fun _ => h.flush (flushed p scope))
    (fun shared load hLoad s hS => hS.withLoader hLoad)
    (fun s _ _ hS => hS.of_eq rfl rfl)
    (fun _ _ _ => regular_of_nodup List.nodup_nil rfl)
    (fun _ s hS => ?_) (fun _ s hS => ?_)
  · exact fun ref _ => persist_keeps (I := fun s => s.session.Regular) h
      (h.enqueue fun h => by cases h)
  · exact fun ref _ => remove_keeps (I := fun s => s.session.Regular) h
      (h.enqueue fun h => by cases h)
  · have hKept := keeping_releaseConnection s
    exact hS.of_eq hKept.context hKept.queue
  · have hKept := (rolledBack s).keeping
    exact hS.of_eq hKept.context hKept.queue

/-- No run of a session, whatever is asked and whatever happens outside of it,
leaves it irregular. -/
theorem regular_of_reaches {Allowed : Scope σ → Operation → Prop}
    {Outside : Scope σ → Backend σ → Prop} {start scope : Scope σ}
    (h : Reaches p Allowed Outside start scope)
    (hStart : start.session.Regular) : scope.session.Regular :=
  h.invariant (I := fun scope => scope.session.Regular)
    (fun _ op hRegular _ => hRegular.perform op)
    (fun _ _ hRegular _ => hRegular) hStart

/-! ## The calls of a flush -/

/-- How the work of a flush is taken back: by one rollback, after which
auto-commit is switched on or, if the rollback fails, the connection closed. -/
inductive TakenBack (conn : ConnId) (failed : Env σ) : Error → Env σ → Prop
  | rolledBack {cause : Error}
      (h : (Driver.call conn .rollback failed.driver).1 = .ok ()) :
    TakenBack conn failed (.flush cause)
      ((failed.called conn .rollback).called conn (.setAutoCommit true))
  | discarded {source cause : Error}
      (h : (Driver.call conn .rollback failed.driver).1 = .error source) :
    TakenBack conn failed (.rollback source cause)
      ((failed.called conn .rollback).called conn .close)

/-- The moves of a flush of a session. -/
def flushMoves (p : Persister) (scope : Scope σ) (dirty : List Dirty) :
    List Move :=
  moves p.schema scope.heap scope.session.inTransaction
    (scope.session.ordered dirty)

omit [Driver σ] in
/-- An action of a flush that takes a call is one of its moves. -/
theorem write_mem_flushMoves {scope : Scope σ} {dirty : List Dirty}
    {action : Action} (hMem : action ∈ scope.session.ordered dirty)
    (hSends : action.sends p.schema scope.heap = true) :
    .write action ∈ flushMoves p scope dirty := by
  have hKept : action ∈ (scope.session.ordered dirty).filter
      (Action.sends p.schema scope.heap) := List.mem_filter.2 ⟨hMem, hSends⟩
  rw [flushMoves, moves]
  exact List.mem_append_left _
    (List.mem_append_right _ (List.mem_map_of_mem hKept))

/-- The work of a flush on its connection makes its moves. -/
theorem performed_moves {scope : Scope σ} {dirty : List Dirty} {ctx : Context}
    {conn : ConnId} {work : Work σ} {r : Except Error Unit}
    (hRegular : scope.session.Regular)
    (h : Performed p conn scope.session.inTransaction
      (scope.session.planned dirty) ⟨scope.env, ctx⟩ r work) :
    ∃ made, made <+: flushMoves p scope dirty ∧
      Moved p conn (scope.session.ordered dirty) scope.env made work.env ∧
      (r = .ok () → made = flushMoves p scope dirty) := by
  rw [planned_eq_ordered hRegular] at h
  obtain ⟨made, hPrefix, hMoved, hAll⟩ := performed_made h
  exact ⟨made, hPrefix, hMoved, hAll⟩

omit [Driver σ] in
/-- Nothing is planned if nothing waits and no entity is dirty. -/
theorem planned_of_nothing {scope : Scope σ} {dirty : List Dirty}
    {ctx : Context} (hRegular : scope.session.Regular)
    (hQueue : scope.session.queue = {}) (hNone : ∀ d, ¬ IsDirty p scope d)
    (hDiff : scope.session.context.diff p.schema scope.heap =
      .ok (dirty, ctx)) : scope.session.planned dirty = [] := by
  have hLists := listsDirty_of_diff hRegular hDiff
  refine planned_eq_nil_iff.2 ⟨hQueue, ?_⟩
  exact List.eq_nil_iff_forall_not_mem.2 fun d hMem =>
    hNone d ((hLists.mem d).1 hMem)

/-- A flush that finds nothing to do leaves everything as it is. -/
theorem flush_of_nothing {scope : Scope σ} (hRegular : scope.session.Regular)
    (hQueue : scope.session.queue = {}) (hNone : ∀ d, ¬ IsDirty p scope d) :
    ((flush p).run scope).2 = scope := by
  have hNil : ∀ {dirty ctx},
      scope.session.context.diff p.schema scope.heap = .ok (dirty, ctx) →
        scope.session.planned dirty = [] :=
    planned_of_nothing hRegular hQueue hNone
  have hFlushed := flushed p scope
  generalize (flush p).run scope = result at hFlushed ⊢
  obtain ⟨r, after⟩ := result
  cases hFlushed with
  | closed _ => rfl
  | unreadable _ _ => rfl
  | idle _ _ _ => rfl
  | unconnected _ hDiff hPending _ _ => exact absurd (hNil hDiff) hPending
  | committed _ hDiff hPending _ _ => exact absurd (hNil hDiff) hPending
  | rolledBack _ hDiff hPending _ _ _ => exact absurd (hNil hDiff) hPending
  | discarded _ hDiff hPending _ _ _ => exact absurd (hNil hDiff) hPending

/-- A flush that succeeds with something to do makes all its moves. -/
theorem moved_of_flushed {scope after : Scope σ}
    (hRegular : scope.session.Regular) (h : Flushed p scope (.ok ()) after)
    (hSome : scope.session.queue ≠ {} ∨ ∃ d, IsDirty p scope d) :
    ∃ dirty conn pool, ListsDirty p scope dirty ∧ scope.Obtains conn pool ∧
      Moved p conn (scope.session.ordered dirty) scope.env
        (flushMoves p scope dirty) after.env := by
  cases h with
  | idle _ hDiff hQueue =>
      rcases hSome with hQueued | ⟨d, hDirty⟩
      · exact absurd hQueue hQueued
      · cases ((listsDirty_of_diff hRegular hDiff).mem d).2 hDirty
  | committed _ hDiff _ hConn hRun =>
      obtain ⟨made, _, hMoved, hAll⟩ := performed_moves hRegular hRun
      rw [hAll rfl] at hMoved
      exact ⟨_, _, _, listsDirty_of_diff hRegular hDiff, hConn, hMoved⟩

/-- A flush that fails without a connection makes no call; any other one makes
its moves up to some point and takes them back. -/
theorem takenBack_of_flushed {scope after : Scope σ} {e : Error}
    (hRegular : scope.session.Regular) (h : Flushed p scope (.error e) after) :
    (after.env = scope.env ∧ (scope.session.isOpen = false ∨
      (∃ e', scope.session.context.diff p.schema scope.heap = .error e') ∨
        ∀ conn pool, ¬ scope.Obtains conn pool)) ∨
    ∃ dirty conn pool made failed, ListsDirty p scope dirty ∧
      scope.Obtains conn pool ∧ made <+: flushMoves p scope dirty ∧
        Moved p conn (scope.session.ordered dirty) scope.env made failed ∧
          TakenBack conn failed e after.env := by
  cases h with
  | closed hClosed => exact Or.inl ⟨rfl, Or.inl hClosed⟩
  | unreadable _ hDiff => exact Or.inl ⟨rfl, Or.inr (Or.inl ⟨_, hDiff⟩)⟩
  | unconnected _ _ _ hNone hLease =>
      refine Or.inl ⟨rfl, Or.inr (Or.inr fun conn pool hConn => ?_)⟩
      cases hConn with
      | held hHeld => cases hNone.symm.trans hHeld
      | leased _ hLeased => cases hLease.symm.trans hLeased
  | rolledBack _ hDiff _ hConn hRun hRollback =>
      obtain ⟨made, hPrefix, hMoved, _⟩ := performed_moves hRegular hRun
      exact Or.inr ⟨_, _, _, made, _, listsDirty_of_diff hRegular hDiff, hConn,
        hPrefix, hMoved, .rolledBack hRollback⟩
  | discarded _ hDiff _ hConn hRun hRollback =>
      obtain ⟨made, hPrefix, hMoved, _⟩ := performed_moves hRegular hRun
      exact Or.inr ⟨_, _, _, made, _, listsDirty_of_diff hRegular hDiff, hConn,
        hPrefix, hMoved, .discarded hRollback⟩

/-- In every state of a session a flush with nothing to do makes no call and
leases no connection; one that succeeds makes the calls of its moves, and no
others, in their order; and one that fails on its connection makes those up to
some point and takes them back. -/
theorem flush_calls {start scope : Scope σ}
    (hContext : start.session.context = {}) (hQueue : start.session.queue = {})
    (hReaches : Reaches p (fun _ _ => True) (fun _ _ => True) start scope) :
    (scope.session.queue = {} → (∀ d, ¬ IsDirty p scope d) →
      ((flush p).run scope).2 = scope) ∧
    (((flush p).run scope).1 = .ok () →
      (scope.session.queue ≠ {} ∨ ∃ d, IsDirty p scope d) →
      ∃ dirty conn pool, ListsDirty p scope dirty ∧ scope.Obtains conn pool ∧
        Moved p conn (scope.session.ordered dirty) scope.env
          (flushMoves p scope dirty) ((flush p).run scope).2.env) ∧
    ∀ e, ((flush p).run scope).1 = .error e →
      (((flush p).run scope).2.env = scope.env ∧
        (scope.session.isOpen = false ∨
          (∃ e', scope.session.context.diff p.schema scope.heap = .error e') ∨
            ∀ conn pool, ¬ scope.Obtains conn pool)) ∨
      ∃ dirty conn pool made failed, ListsDirty p scope dirty ∧
        scope.Obtains conn pool ∧ made <+: flushMoves p scope dirty ∧
          Moved p conn (scope.session.ordered dirty) scope.env made failed ∧
            TakenBack conn failed e ((flush p).run scope).2.env := by
  have hStart : start.session.Regular := by
    refine regular_of_nodup ?_ hQueue
    rw [hContext]
    exact List.nodup_nil
  have hRegular := regular_of_reaches hReaches hStart
  have hFlushed := flushed p scope
  refine ⟨flush_of_nothing hRegular, ?_, ?_⟩
  · intro hOk hSome
    rw [hOk] at hFlushed
    exact moved_of_flushed hRegular hFlushed hSome
  · intro e hError
    rw [hError] at hFlushed
    exact takenBack_of_flushed hRegular hFlushed

end Session

namespace Notes

/-- A session in a transaction on a store with three notes, beside a new note
that is nowhere yet. -/
def opened : Scope Store :=
  Operation.begin.perform persister
    (scope [[.int 1, .text "a"], [.int 2, .text "b"], [.int 3, .text "c"]]
      [note 4 "d"] { id := 0 })

/-- All three notes have been looked up. -/
def looked : Scope Store :=
  (Operation.find "Note" (.int 3)).perform persister
    ((Operation.find "Note" (.int 1)).perform persister
      ((Operation.find "Note" (.int 2)).perform persister opened))

/-- The titles of the first two notes have been changed. -/
def edited : Backend Store :=
  { looked.backend with
    env := (looked.env.update 1 fun e => e.set "title" (.scalar (.text "B")))
      |>.update 2 fun e => e.set "title" (.scalar (.text "A")) }

/-- The new note is to be inserted, and the third one to be deleted. -/
def mixed : Scope Store :=
  (Operation.persist 0).perform persister
    ((Operation.remove 3).perform persister { looked with backend := edited })

end Notes

/-- Of two changed notes, one new and one deleted one, the new one is inserted
first, the changed ones are updated in the order of their numbers, and the
deleted one goes last. -/
theorem Session.flush_calls_of_notes :
    ((((flush Notes.persister).run Notes.mixed).2.env.trace.drop
        Notes.mixed.env.trace.length).map fun made => made.2.statement?) =
      [none, some (.insert "notes" ["id", "title"]),
        some (.updateBy "notes" ["title"] "id"),
        some (.updateBy "notes" ["title"] "id"),
        some (.deleteBy "notes" "id"), none, none] ∧
    ∃ dirty conn pool, ListsDirty Notes.persister Notes.mixed dirty ∧
      Notes.mixed.Obtains conn pool ∧
        Moved Notes.persister conn (Notes.mixed.session.ordered dirty)
          Notes.mixed.env (flushMoves Notes.persister Notes.mixed dirty)
          ((flush Notes.persister).run Notes.mixed).2.env := by
  have hReaches : Reaches Notes.persister (fun _ _ => True) (fun _ _ => True)
      (Notes.scope [[.int 1, .text "a"], [.int 2, .text "b"],
        [.int 3, .text "c"]] [Notes.note 4 "d"] { id := 0 }) Notes.mixed :=
    (((((((Reaches.start.operation .begin trivial).operation
      (.find "Note" (.int 2)) trivial).operation
      (.find "Note" (.int 1)) trivial).operation
      (.find "Note" (.int 3)) trivial).outside Notes.edited trivial).operation
      (.remove 3) trivial).operation (.persist 0) trivial)
  have hOk : ((flush Notes.persister).run Notes.mixed).1 = .ok () := by
    have hDone : ((flush Notes.persister).run Notes.mixed).1.isOk = true := by
      decide +kernel
    cases hRun : ((flush Notes.persister).run Notes.mixed).1 with
    | ok _ => rfl
    | error e =>
        rw [hRun] at hDone
        cases hDone
  have hQueued : Notes.mixed.session.queue ≠ {} := by decide +kernel
  exact ⟨by decide +kernel,
    (flush_calls rfl rfl hReaches).2.1 hOk (Or.inl hQueued)⟩

end UnitOfWork

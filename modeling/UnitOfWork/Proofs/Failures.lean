import UnitOfWork.Proofs.Calls
import UnitOfWork.Proofs.IdentityMap
import UnitOfWork.Proofs.Stores

/-!
# Flushes that fail

By the time a flush fails, snapshots have been brought up to date, and any
number of actions have been carried out, each of which has done something to
the context. None of that is left: the context is put back as a whole,
whichever exit the flush takes. The instances cannot be put back, since the
application holds them, and an action does one thing to them: an insert that
was accepted gives its entity the generated identifier (`Action.Inserts`). So
an entity that was dirty is dirty still, unless it was itself inserted.

## Main results

* `Action.keyed_execute`, `Action.keyed_executeAll`: what actions do to the
  instances, wherever they fail;
* `Heap.Keyed.diff`: the dirty check reports again what has not changed;
* `Session.flush_failure_restores`: what a failed flush leaves.
-/

namespace UnitOfWork

variable {σ : Type} [Driver σ]

/-! ## What actions do to the instances -/

/-- Among actions that are carried out from some work on, the INSERT of an
instance is reached and accepted: the driver tells of one row. -/
inductive Action.Inserts (p : Persister) (conn : ConnId) (ref : Ref) :
    List Action → Work σ → Prop
  | now {rest : List Action} {work : Work σ} {c : Call} {answer : c.Answer}
      (hPlan : Action.call? p.schema work.env.heap ⟨.insert, ref⟩ =
        .ok (some c))
      (hCall : (Driver.call conn c work.env.driver).1 = .ok answer)
      (hCount : (c.receipt answer).1 = 1) :
    Inserts p conn ref (⟨.insert, ref⟩ :: rest) work
  | later {action : Action} {rest : List Action} {work next : Work σ}
      (hRun : (action.execute p conn).run work = (.ok (), next))
      (h : Inserts p conn ref rest next) :
    Inserts p conn ref (action :: rest) work

namespace Action

variable {p : Persister} {conn : ConnId} {before : Heap}
  {inserted : Ref → Prop}

/-- Only what is to be inserted is. -/
theorem Inserts.mem {ref : Ref} {actions : List Action} {work : Work σ}
    (h : Inserts p conn ref actions work) : ⟨.insert, ref⟩ ∈ actions := by
  induction h with
  | now _ _ _ => exact List.mem_cons_self ..
  | later _ _ ih => exact List.mem_cons_of_mem _ ih

/-- An action gives its entity an identifier if it is an insert that is
accepted, and else leaves the instances alone, whatever comes of it. -/
theorem keyed_execute {action : Action} {work : Work σ}
    (h : before.Keyed p.schema inserted work.env.heap)
    (hInserted : ∀ ref, action = ⟨.insert, ref⟩ →
      Inserts p conn ref [action] work → inserted ref) :
    before.Keyed p.schema inserted
      ((action.execute p conn).run work).2.env.heap := by
  rw [execute_run]
  cases hPlan : action.call? p.schema work.env.heap with
  | error e => exact h
  | ok c? =>
      cases c? with
      | none =>
          show before.Keyed p.schema inserted
            ((Work.onContext (action.follow p)).run work).2.env.heap
          rw [Work.env_onContext]
          exact h
      | some c =>
          dsimp only
          cases hCall : (Driver.call conn c work.env.driver).1 with
          | error e => exact h
          | ok answer =>
              dsimp only
              rw [settle_run]
              cases hExpect : expectOne action.kind.name
                  (c.receipt answer).1 with
              | error e => exact h
              | ok _ =>
                  have hCount := expectOne_eq_ok_iff.1 hExpect
                  have hEntity : action.kind = .insert →
                      inserted action.entity := by
                    intro hKind
                    obtain ⟨kind, ref⟩ := action
                    cases hKind
                    exact hInserted ref rfl (.now hPlan hCall hCount)
                  have hCalled : before.Keyed p.schema inserted
                      (p.calling conn c work.env).heap := h
                  have hReceived := hCalled.received
                    (received p action (c.receipt answer).2 _) hEntity
                  dsimp only at hReceived ⊢
                  generalize (action.receiveKey p (c.receipt answer).2).run
                    (p.calling conn c work.env) = result at hReceived ⊢
                  obtain ⟨_ | _, env⟩ := result
                  · exact hReceived
                  · dsimp only
                    rw [Work.env_onContext]
                    exact hReceived

/-- Actions give identifiers to those of their entities whose inserts are
accepted, up to the end or the first failure. -/
theorem keyed_executeAll {actions : List Action} {work : Work σ}
    (h : before.Keyed p.schema inserted work.env.heap)
    (hInserted : ∀ ref, Inserts p conn ref actions work → inserted ref) :
    before.Keyed p.schema inserted
      ((executeAll p conn actions).run work).2.env.heap := by
  induction actions generalizing work with
  | nil => exact h
  | cons action rest ih =>
      have hFirst : before.Keyed p.schema inserted
          ((action.execute p conn).run work).2.env.heap := by
        refine keyed_execute h fun ref hAction hNow => ?_
        subst hAction
        cases hNow with
        | now hPlan hCall hCount => exact hInserted ref (.now hPlan hCall hCount)
        | later _ hNone => cases hNone
      simp only [executeAll, Step.bind_run]
      rcases hRun : (action.execute p conn).run work with ⟨e | _, next⟩
      · rw [hRun] at hFirst
        exact hFirst
      · rw [hRun] at hFirst
        exact ih hFirst fun ref hLater => hInserted ref (.later hRun hLater)

end Action

/-! ## The dirty check after a failure -/

namespace Context

variable {schema : Schema} {heap : Heap} {ctx : Context}

/-- The dirty check succeeds exactly when all entities can be looked at. -/
theorem dirtyEntries_isOk_iff (ctx : Context) {entries : List (Key × Ref)} :
    (∃ dirty, ctx.dirtyEntries schema heap entries = .ok dirty) ↔
      ∀ entry ∈ entries, ∃ values, heap.snapshot schema entry.2 = .ok values := by
  induction entries with
  | nil => simp [dirtyEntries]
  | cons entry rest ih =>
      obtain ⟨key, ref⟩ := entry
      simp only [List.forall_mem_cons, ← ih, dirtyEntries,
        except_bind_eq_ok]
      constructor
      · rintro ⟨dirty, values, hValues, others, hOthers, _⟩
        exact ⟨⟨values, hValues⟩, others, hOthers⟩
      · rintro ⟨⟨values, hValues⟩, others, hOthers⟩
        exact ⟨_, values, hValues, others, hOthers, rfl⟩

theorem diff_isOk_iff :
    (∃ dirty next, ctx.diff schema heap = .ok (dirty, next)) ↔
      ∀ entry ∈ ctx.entities, ∃ values,
        heap.snapshot schema entry.2 = .ok values := by
  rw [← ctx.dirtyEntries_isOk_iff]
  constructor
  · rintro ⟨dirty, next, hDiff⟩
    obtain ⟨found, hFound, _⟩ := except_bind_eq_ok.1 hDiff
    exact ⟨found, hFound⟩
  · rintro ⟨found, hFound⟩
    exact ⟨_, _, except_bind_eq_ok.2 ⟨found, hFound, rfl⟩⟩

end Context

namespace Heap.Keyed

variable {schema : Schema} {inserted : Ref → Prop} {before now : Heap}

omit [Driver σ] in
/-- An entity that has been given an identifier can be looked at if it could
be before. -/
theorem exists_snapshot (h : before.Keyed schema inserted now) {ref : Ref}
    {values : List Value} (hValues : before.snapshot schema ref = .ok values) :
    ∃ values', now.snapshot schema ref = .ok values' := by
  obtain ⟨d, hD, hReadable, _⟩ := Heap.snapshot_eq_ok_iff.1 hValues
  have hHold : (now.get ref).isReadable = true := by
    rcases h.get ref with hSame | ⟨_, _, _, _, _, hSet⟩
    · rw [hSame]
      exact hReadable
    · rw [hSet]
      exact hReadable
  rw [← h.type ref] at hD
  exact ⟨_, Heap.snapshot_eq_ok_iff.2 ⟨d, hD, hHold, rfl⟩⟩

/-- The dirty check of the same context reports again what it has reported,
except for entities that have been inserted since. -/
theorem diff (h : before.Keyed schema inserted now) {ctx next : Context}
    {dirty : List Dirty} (hDiff : ctx.diff schema before = .ok (dirty, next)) :
    ∃ again after, ctx.diff schema now = .ok (again, after) ∧
      ∀ d ∈ dirty, ¬ inserted d.ref → d ∈ again := by
  have hBefore := Context.diff_isOk_iff.1 ⟨dirty, next, hDiff⟩
  have hNow : ∀ entry ∈ ctx.entities, ∃ values,
      now.snapshot schema entry.2 = .ok values := by
    intro entry hEntry
    obtain ⟨values, hValues⟩ := hBefore entry hEntry
    exact h.exists_snapshot hValues
  obtain ⟨again, after, hAgain⟩ := Context.diff_isOk_iff.2 hNow
  refine ⟨again, after, hAgain, ?_⟩
  intro d hMem hNot
  obtain ⟨hEntry, hValues, hStale⟩ := (Context.mem_of_diff hDiff d).1 hMem
  have hGet : now.get d.ref = before.get d.ref :=
    (h.get d.ref).resolve_right fun hChanged => hNot hChanged.1
  rw [← Heap.snapshot_of_get_eq hGet] at hValues
  exact (Context.mem_of_diff hAgain d).2 ⟨hEntry, hValues, hStale⟩

end Heap.Keyed

/-! ## The flush -/

namespace Session

variable {p : Persister}

/-- The work of a flush on its connection gives identifiers to entities that
are inserted, and does nothing else to the instances. -/
theorem keyed_of_performed {conn : ConnId} {inTransaction : Bool}
    {actions : List Action} {work after : Work σ} {r : Except Error Unit}
    {inserted : Ref → Prop}
    (h : Performed p conn inTransaction actions work r after)
    (hInserted : ∀ ref, (inTransaction = true →
        (Driver.call conn (.setAutoCommit false) work.env.driver).1 = .ok ()) →
      Action.Inserts p conn ref actions (opened conn inTransaction work) →
        inserted ref) :
    work.env.heap.Keyed p.schema inserted after.env.heap := by
  have hStart : work.env.heap.Keyed p.schema inserted
      (opened conn inTransaction work).env.heap := by
    rw [heap_opened]
    exact .refl ..
  -- What holds when the actions are done with, whatever comes of them.
  have hActions : ∀ {r : Except Error Unit} {last : Work σ},
      (inTransaction = true →
        (Driver.call conn (.setAutoCommit false) work.env.driver).1 = .ok ()) →
      (Action.executeAll p conn actions).run (opened conn inTransaction work) =
        (r, last) →
      work.env.heap.Keyed p.schema inserted last.env.heap := by
    intro r last hOpened hRun
    have hDone : work.env.heap.Keyed p.schema inserted
        ((Action.executeAll p conn actions).run
          (opened conn inTransaction work)).2.env.heap :=
      Action.keyed_executeAll hStart fun ref => hInserted ref hOpened
    rw [hRun] at hDone
    exact hDone
  cases h with
  | unopened _ _ => exact hStart
  | failed hOpened hRun => exact hActions hOpened hRun
  | uncommitted hOpened hRun _ =>
      have hDone := hActions hOpened hRun
      exact hDone
  | committed hOpened hRun _ _ =>
      have hDone := hActions hOpened hRun
      exact hDone

/-- A flush of a session gets as far as the INSERT of an instance, and the
driver accepts it. -/
def Inserts (p : Persister) (scope : Scope σ) (ref : Ref) : Prop :=
  ∃ dirty ctx conn pool,
    scope.session.context.diff p.schema scope.heap = .ok (dirty, ctx) ∧
    scope.Obtains conn pool ∧
    (scope.session.inTransaction = true →
      (Driver.call conn (.setAutoCommit false) scope.env.driver).1 = .ok ()) ∧
    Action.Inserts p conn ref (scope.session.planned dirty)
      (opened conn scope.session.inTransaction ⟨scope.env, ctx⟩)

/-- What is inserted has been waiting for it. -/
theorem Inserts.waits {scope : Scope σ} {ref : Ref}
    (h : Inserts p scope ref) :
    ⟨.insert, ref⟩ ∈ scope.session.queue.pending := by
  obtain ⟨dirty, ctx, conn, pool, _, _, _, hInserts⟩ := h
  rcases mem_planned.1 hInserts.mem with hWaits | ⟨d, _, hNo⟩
  · exact hWaits
  · cases hNo

/-- The session after a flush that fails: only the queue and the connection
can have changed. -/
structure Restored (s after : Session) : Prop where
  context : after.context = s.context
  isOpen : after.isOpen = s.isOpen
  inTransaction : after.inTransaction = s.inTransaction

theorem restored_of_flushed {scope after : Scope σ} {e : Error}
    (h : Flushed p scope (.error e) after) :
    Restored scope.session after.session := by
  cases h <;> exact ⟨rfl, rfl, rfl⟩

/-- Whatever comes of a flush, it gives identifiers to entities that it
inserts, and does nothing else to the instances. -/
theorem keyed_of_flushed {scope after : Scope σ} {r : Except Error Unit}
    (h : Flushed p scope r after) :
    scope.heap.Keyed p.schema (Inserts p scope) after.heap := by
  cases h with
  | closed _ => exact .refl ..
  | unreadable _ _ => exact .refl ..
  | idle _ _ _ => exact .refl ..
  | unconnected _ _ _ _ _ => exact .refl ..
  | committed _ hDiff _ hConn hRun =>
      exact keyed_of_performed hRun fun ref hOpened hInserts =>
        ⟨_, _, _, _, hDiff, hConn, hOpened, hInserts⟩
  | rolledBack _ hDiff _ hConn hRun _ =>
      exact keyed_of_performed hRun fun ref hOpened hInserts =>
        ⟨_, _, _, _, hDiff, hConn, hOpened, hInserts⟩
  | discarded _ hDiff _ hConn hRun _ =>
      exact keyed_of_performed hRun fun ref hOpened hInserts =>
        ⟨_, _, _, _, hDiff, hConn, hOpened, hInserts⟩

/-- A flush that fails, in whichever way, leaves the context as it was, and
the session as open and as much in a transaction as it was. Instances are as
they were, but for the generated identifiers of those whose INSERT was
accepted; and the next dirty check reports again every entity that was dirty
and has not been inserted. -/
theorem flush_failure_restores {scope after : Scope σ} {e : Error}
    (h : (flush p).run scope = (.error e, after)) :
    Restored scope.session after.session ∧
    scope.heap.Keyed p.schema (Inserts p scope) after.heap ∧
    ∀ dirty ctx,
      scope.session.context.diff p.schema scope.heap = .ok (dirty, ctx) →
      ∃ again next,
        after.session.context.diff p.schema after.heap = .ok (again, next) ∧
        ∀ d ∈ dirty, ¬ Inserts p scope d.ref → d ∈ again := by
  have hFlushed := flushed p scope
  rw [h] at hFlushed
  have hRestored := restored_of_flushed hFlushed
  have hKeyed := keyed_of_flushed hFlushed
  refine ⟨hRestored, hKeyed, ?_⟩
  intro dirty ctx hDiff
  rw [hRestored.context]
  exact hKeyed.diff hDiff

end Session

namespace Memos

/-- A session that looks after the first memo, whose title is another by now,
and that is to insert two memos of one title. -/
def crowded : Scope Store :=
  scope [[.int 1, .text "a"]]
    [memo (.int 1) "b", memo .null "c", memo .null "c"]
    { id := 0
      context := ⟨[(⟨"Memo", .int 1⟩, 0)],
        [(⟨"Memo", .int 1⟩, [.int 1, .text "a"])]⟩
      queue := ⟨[⟨.insert, 1⟩, ⟨.insert, 2⟩]⟩
      inTransaction := true }

end Memos

/-- The flush fails at the second memo, when the first one has its number. The
change of the title is found again. -/
theorem Session.flush_failure_restores_of_memos :
    ∃ e after, (flush Memos.persister).run Memos.crowded = (.error e, after) ∧
      Restored Memos.crowded.session after.session ∧
      ((after.heap.get 1).scalar "id").asInt? = some 2 ∧
      ∃ again next, after.session.context.diff Memos.schema after.heap =
          .ok (again, next) ∧
        ⟨⟨"Memo", .int 1⟩, 0, [.int 1, .text "b"]⟩ ∈ again := by
  have hFails : ((flush Memos.persister).run Memos.crowded).1.isOk = false := by
    decide +kernel
  have hNumber : ((((flush Memos.persister).run Memos.crowded).2.heap.get
      1).scalar "id").asInt? = some 2 := by
    decide +kernel
  rcases hRun : (flush Memos.persister).run Memos.crowded with ⟨e | _, after⟩
  · rw [hRun] at hNumber
    obtain ⟨hRestored, _, hDirty⟩ := flush_failure_restores hRun
    obtain ⟨again, next, hAgain, hFound⟩ := hDirty _ _ rfl
    refine ⟨e, after, rfl, hRestored, hNumber, again, next, hAgain, ?_⟩
    refine hFound _ (List.mem_singleton_self _) fun hInserts => ?_
    exact absurd hInserts.waits (by decide)
  · rw [hRun] at hFails
    cases hFails

end UnitOfWork

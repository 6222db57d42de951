import UnitOfWork.Proofs.Duplicates
import UnitOfWork.Proofs.Gating
import UnitOfWork.Proofs.Stages

/-!
# A ledger of accepted requests

A request to persist or to remove an entity is accepted when it returns, and
carried out later, by the INSERT or the DELETE of some flush. A ledger keeps
track of it: each request that is accepted gets a number, which waits with its
action until the queue is emptied, and each INSERT and DELETE that is sent goes
to the account of the next number that waits. The ledger is right: what waits
in it is what waits in the queue, and each statement carries out the action of
its number. So no number is served twice, and none is after the queue has been
emptied without serving it.

## Main results

* `Session.changes_of_flushed`, `Session.changes_of_perform`: the INSERTs and
  DELETEs of a flush and of a request;
* `Ledger.Kept.enter`: the ledger stays right;
* `Booked.served_later`: what is served after the queue has been emptied;
* `Session.accepted_runs_once`: the same of runs.
-/

namespace UnitOfWork

variable {σ : Type}

/-! ## Statements that add or remove rows -/

/-- The INSERTs and DELETEs among the calls that were made from one environment
to another. -/
def Env.changes (before after : Env σ) : List Call :=
  ((after.trace.drop before.trace.length).map Prod.snd).filter
    Call.addsOrRemoves

/-- There are none of them among the calls that were made. -/
def Env.KeepsRows [Driver σ] (before after : Env σ) : Prop :=
  before.Sends (fun _ c _ => c.addsOrRemoves = false) after

namespace Env

variable {before env after : Env σ}

theorem changes_of_trace {made : List (ConnId × Call)}
    (h : after.trace = before.trace ++ made) :
    before.changes after = (made.map Prod.snd).filter Call.addsOrRemoves := by
  rw [changes, h, List.drop_left]

theorem changes_of_made [Driver σ] {conn : ConnId} {calls : List Call}
    (h : before.Made conn calls after) :
    before.changes after = calls.filter Call.addsOrRemoves := by
  have hCalls : (Call.on conn calls).map Prod.snd = calls := by
    simp [Call.on, Function.comp_def]
  rw [changes_of_trace h.trace, hCalls]

variable [Driver σ]

/-- Calls that follow do not count if there are none of them among these. -/
theorem KeepsRows.changes_eq {made : List (ConnId × Call)}
    (h : env.KeepsRows after) (hMade : env.trace = before.trace ++ made) :
    before.changes after = before.changes env := by
  obtain ⟨more, hMore, hQuiet⟩ := h.exists_made
  have hNone : (more.map Prod.snd).filter Call.addsOrRemoves = [] := by
    refine List.filter_eq_nil_iff.2 fun c hMem => ?_
    obtain ⟨call, hCall, rfl⟩ := List.mem_map.1 hMem
    obtain ⟨_, hOther⟩ := hQuiet call hCall
    exact Bool.eq_false_iff.1 hOther
  rw [hMade, List.append_assoc] at hMore
  rw [changes_of_trace hMore, changes_of_trace hMade, List.map_append,
    List.filter_append, hNone, List.append_nil]

theorem KeepsRows.changes (h : before.KeepsRows after) :
    before.changes after = [] := by
  have hSame : before.trace = before.trace ++ [] := (List.append_nil _).symm
  rw [h.changes_eq hSame, changes_of_trace hSame]
  rfl

end Env

/-! ## The INSERTs and DELETEs of a flush -/

theorem Heap.Keyed.mono {schema : Schema} {inserted others : Ref → Prop}
    {before now : Heap} (h : before.Keyed schema inserted now)
    (hSub : ∀ ref, inserted ref → others ref) :
    before.Keyed schema others now :=
  ⟨h.next, fun ref => (h.get ref).imp_right (And.imp_left (hSub ref))⟩

theorem Action.CarriedBy.mono {schema : Schema} {inserted others : Ref → Prop}
    {heap : Heap} {action : Action} {c : Call}
    (h : action.CarriedBy schema inserted heap c)
    (hSub : ∀ ref, inserted ref → others ref) :
    action.CarriedBy schema others heap c := by
  obtain ⟨hCall, now, hKeyed, hPlan⟩ := h
  exact ⟨hCall, now, hKeyed.mono hSub, hPlan⟩

/-- The moves that add or remove rows are made by the calls that do. -/
theorem Move.forall₂_changes {schema : Schema} {inserted : Ref → Prop}
    {heap : Heap} {made : List Move} {calls : List Call}
    (h : List.Forall₂ (Move.MadeBy schema inserted heap) made calls) :
    List.Forall₂ (Action.CarriedBy schema inserted heap)
      (made.filterMap Move.addsOrRemoves?)
      (calls.filter Call.addsOrRemoves) := by
  induction h with
  | nil => exact .nil
  | @cons move c made calls hMove _ ih =>
      cases move with
      | autoCommit on =>
          cases hMove
          exact ih
      | commit =>
          cases hMove
          exact ih
      | write action =>
          have hCarried : action.CarriedBy schema inserted heap c := hMove
          obtain ⟨⟨d, params, _, rfl⟩, _⟩ := hMove
          obtain ⟨kind, ref⟩ := action
          cases kind with
          | insert => exact .cons hCarried ih
          | update => exact ih
          | delete => exact .cons hCarried ih

/-- What waits to be inserted and deleted, in the order in which it will be. -/
def Queue.turns (q : Queue) : List Action :=
  q.ofKind .insert ++ q.ofKind .delete

namespace Session

variable [Driver σ] {p : Persister} {scope after : Scope σ}

/-- A call carries out an action of a flush. -/
def Carries (p : Persister) (scope : Scope σ) (action : Action) (c : Call) :
    Prop :=
  action.CarriedBy p.schema
    (fun ref => ⟨.insert, ref⟩ ∈ scope.session.queue.pending) scope.heap c

/-- The INSERTs and DELETEs of the moves that have been made. -/
theorem changes_of_moved {conn : ConnId} {dirty : List Dirty}
    {made : List Move} {env last : Env σ}
    (hMoved : Moved p conn (scope.session.ordered dirty) scope.env made env)
    (hQuiet : env.KeepsRows last) :
    List.Forall₂ (Carries p scope) (made.filterMap Move.addsOrRemoves?)
      (scope.env.changes last) := by
  obtain ⟨calls, hMade, hMoves⟩ := hMoved
  rw [hQuiet.changes_eq hMade.trace, Env.changes_of_made hMade]
  refine (Move.forall₂_changes hMoves).imp fun action c hCarried =>
    hCarried.mono fun ref hInsert => ?_
  rcases List.mem_append.1 hInsert with hEarly | hDelete
  · rcases List.mem_append.1 hEarly with hWaits | hUpdate
    · exact (List.mem_filter.1 hWaits).1
    · obtain ⟨d, _, hEq⟩ := List.mem_map.1 hUpdate
      cases hEq
  · cases Queue.kind_of_mem_ofKind hDelete

/-- How a flush is taken back adds and removes no rows. -/
theorem TakenBack.keepsRows {conn : ConnId} {failed last : Env σ} {e : Error}
    (h : TakenBack conn failed e last) : failed.KeepsRows last := by
  have hStart : failed.KeepsRows failed := .refl ..
  cases h with
  | rolledBack _ => exact (hStart.called conn .rollback rfl).called conn _ rfl
  | discarded _ => exact (hStart.called conn .rollback rfl).called conn _ rfl

/-- The INSERTs and DELETEs of a flush are those of what waits, in order, up to
some point; if the flush succeeds, up to the end. -/
theorem changes_of_flushed {r : Except Error Unit}
    (hRegular : scope.session.Regular) (h : Flushed p scope r after) :
    ∃ actions, actions <+: scope.session.queue.turns ∧
      List.Forall₂ (Carries p scope) actions
        (scope.env.changes after.env) ∧
      (r = .ok () → actions = scope.session.queue.turns) := by
  by_cases hAll : r = .ok () ∧ scope.session.queue ≠ {}
  · obtain ⟨rfl, hQueue⟩ := hAll
    obtain ⟨dirty, conn, pool, _, _, hMoved⟩ :=
      moved_of_flushed hRegular h (Or.inl hQueue)
    have hChanges := changes_of_moved hMoved (Env.Sends.refl ..)
    rw [filterMap_flushMoves] at hChanges
    exact ⟨_, List.prefix_refl _, hChanges, fun _ => rfl⟩
  · -- If it succeeds nothing waits.
    have hNone : r = .ok () → scope.session.queue.turns = [] := by
      intro hOk
      have hQueue : scope.session.queue = {} :=
        by_contra fun hWaits => hAll ⟨hOk, hWaits⟩
      rw [hQueue]
      rfl
    rcases moves_of_flushed hRegular h with
      hSame | ⟨dirty, conn, made, env, hPrefix, hMoved, hEnd⟩
    · have hQuiet : scope.env.KeepsRows after.env := by
        rw [hSame]
        exact Env.Sends.refl ..
      rw [hQuiet.changes]
      exact ⟨[], List.nil_prefix, .nil, fun hOk => (hNone hOk).symm⟩
    · have hQuiet : env.KeepsRows after.env := by
        rcases hEnd with ⟨_, rfl⟩ | ⟨e, _, hBack⟩
        · exact Env.Sends.refl ..
        · exact hBack.keepsRows
      have hTurns := hPrefix.filterMap Move.addsOrRemoves?
      rw [filterMap_flushMoves] at hTurns
      refine ⟨_, hTurns, changes_of_moved hMoved hQuiet, fun hOk => ?_⟩
      have hWaits := hNone hOk
      rw [Queue.turns] at hWaits ⊢
      rw [hWaits] at hTurns ⊢
      exact List.prefix_nil.1 hTurns

/-! ## The INSERTs and DELETEs of a request -/

omit [Driver σ] in
/-- All that is asked of calls is that they add and remove no rows. -/
theorem lenient_keepsRows :
    Lenient fun (_ : ConnId) (c : Call) (_ : σ) => c.addsOrRemoves = false :=
  fun _ _ _ hOther => hOther

/-- A request that does not flush adds and removes no rows. -/
theorem keepsRows_of_not_flushing {op : Operation}
    (hOp : ¬ Flushing scope op) :
    scope.env.KeepsRows (op.perform p scope).env := by
  by_cases hCommit : op = .commit
  · subst hCommit
    have hOutside : ¬ scope.session.inTransaction = true :=
      fun hTransaction => hOp ⟨rfl, fun _ => hTransaction⟩
    have hSame : Operation.commit.perform p scope = scope := by
      rw [Operation.perform, commit_run, if_neg hOutside]
    rw [hSame]
    exact Env.Sends.refl ..
  · exact perform_sends_of_flush lenient_keepsRows fun hFlushes =>
      absurd ⟨hFlushes, fun h => absurd h hCommit⟩ hOp

/-- What the flush of a request has emptied stays empty. -/
theorem queue_of_flushing {op : Operation} (hOp : Flushing scope op)
    (hEmpty : ((flush p).run scope).2.session.queue = {}) :
    (op.perform p scope).session.queue = {} := by
  refine perform_keeps_flushed (I := fun s => s.session.queue = {}) hOp hEmpty
    (fun shared load _ s hS => ?_) (fun _ _ _ hS => hS) (fun _ _ _ => rfl)
    (fun _ s hS => ?_)
  · rw [(steady_withLoader p shared load s).queue]
    exact hS
  · rw [(keeping_releaseConnection s).queue]
    exact hS

/-- The INSERTs and DELETEs of a request are those of what waits, in order, up
to some point; if it flushes and the flush succeeds, up to the end. Nothing
waits any more when there has been one. -/
theorem changes_of_perform (hRegular : scope.session.Regular)
    (op : Operation) :
    ∃ actions, actions <+: scope.session.queue.turns ∧
      List.Forall₂ (Carries p scope) actions
        (scope.env.changes (op.perform p scope).env) ∧
      (Flushing scope op → ((flush p).run scope).1 = .ok () →
        actions = scope.session.queue.turns) ∧
      (actions ≠ [] → (op.perform p scope).session.queue = {}) := by
  by_cases hOp : Flushing scope op
  · have hFlushed := flushed p scope
    obtain ⟨_, _, hMade, _⟩ := updates_of_flushed hRegular hFlushed
    have hSince : ((flush p).run scope).2.env.KeepsRows
        (op.perform p scope).env := sends_since_flush lenient_keepsRows hOp
    obtain ⟨actions, hPrefix, hCarried, hAll⟩ :=
      changes_of_flushed hRegular hFlushed
    rw [hSince.changes_eq hMade.trace]
    refine ⟨actions, hPrefix, hCarried, fun _ => hAll, fun hSome => ?_⟩
    rcases waits_of_flushed hFlushed with hEmpty | ⟨hSame, _⟩
    · exact queue_of_flushing hOp hEmpty
    · have hNone : scope.env.KeepsRows ((flush p).run scope).2.env := by
        rw [hSame]
        exact Env.Sends.refl ..
      rw [hNone.changes] at hCarried
      cases hCarried
      exact absurd rfl hSome
  · rw [(keepsRows_of_not_flushing hOp).changes]
    exact ⟨[], List.nil_prefix, .nil, fun hFlushing => absurd hFlushing hOp,
      fun hSome => absurd rfl hSome⟩

/-! ## Requests that empty the queue -/

/-- A rollback in a transaction, a clear, or a flush that gets beyond looking at
the entities; whatever comes of it. -/
def Empties (p : Persister) (scope : Scope σ) (op : Operation) : Prop :=
  (op = .rollback ∧ scope.session.inTransaction = true) ∨
  (op = .clear ∧ scope.session.isOpen = true) ∨
  (Flushing scope op ∧ scope.session.isOpen = true ∧
    ∃ dirty ctx, scope.session.context.diff p.schema scope.heap =
      .ok (dirty, ctx))

theorem queue_of_empties {op : Operation} (h : Empties p scope op) :
    (op.perform p scope).session.queue = {} := by
  rcases h with ⟨rfl, hTransaction⟩ | ⟨rfl, hOpen⟩ |
    ⟨hOp, hOpen, dirty, ctx, hDiff⟩
  · show (rollback.run scope).2.session.queue = {}
    rw [rollback_run, if_pos hTransaction]
    exact (rolledBack _).keeping.queue
  · show (clear.run scope).2.session.queue = {}
    rw [clear_run, if_pos hOpen]
  · refine queue_of_flushing hOp ?_
    rcases waits_of_flushed (flushed p scope) with
      hEmpty | ⟨_, hClosed | ⟨e, hUnreadable⟩⟩
    · exact hEmpty
    · cases hOpen.symm.trans hClosed
    · cases hDiff.symm.trans hUnreadable

end Session

/-! ## The ledger -/

/-- The action that a request queues, if it is accepted. -/
def Operation.accepted? [Driver σ] (p : Persister) (scope : Scope σ) :
    Operation → Option Action
  | .persist ref =>
    if ((Session.persist p ref).run scope).1.isOk then some ⟨.insert, ref⟩
    else none
  | .remove ref =>
    if ((Session.remove p ref).run scope).1.isOk then some ⟨.delete, ref⟩
    else none
  | _ => none

/-- What has become of the requests that were accepted. -/
structure Ledger where
  /-- How many they are; each has the number of those before it. -/
  accepted : Nat := 0
  /-- The numbers whose actions wait. -/
  waiting : List (Nat × Action) := []
  /-- The number that each INSERT and DELETE was sent for. -/
  served : List Nat := []

namespace Ledger

/-- What waits to be inserted and deleted, in the order in which it will be. -/
def turns (books : Ledger) : List (Nat × Action) :=
  (books.waiting.filter fun turn => turn.2.kind = .insert) ++
    books.waiting.filter fun turn => turn.2.kind = .delete

/-- Enters a request: it is given a number if it is accepted; and if it is
another one, its INSERTs and DELETEs go to the account of the next numbers, and
what waits is struck off if the queue is empty after it. -/
def enter [Driver σ] (p : Persister) (scope : Scope σ) (op : Operation)
    (books : Ledger) : Ledger :=
  let after := op.perform p scope
  match op.accepted? p scope with
  | some action =>
    { books with
      accepted := books.accepted + 1
      waiting := books.waiting ++ [(books.accepted, action)] }
  | none =>
    let sent := (scope.env.changes after.env).length
    { books with
      waiting := if after.session.queue = {} then [] else books.waiting
      served := books.served ++ (books.turns.take sent).map Prod.fst }

/-- The ledger is right: what waits in it is what waits in the queue, each
number has been issued, and none is in it twice. -/
structure Kept (books : Ledger) (s : Session) : Prop where
  pending : books.waiting.map Prod.snd = s.queue.pending
  issued : ∀ n ∈ books.served ++ books.waiting.map Prod.fst,
    n < books.accepted
  nodup : (books.served ++ books.waiting.map Prod.fst).Nodup

variable {books : Ledger} {s : Session}

theorem kept_of_empty (hQueue : s.queue = {}) : Kept {} s where
  pending := by
    rw [hQueue]
    rfl
  issued := fun _ hMem => by cases hMem
  nodup := List.nodup_nil

/-- The turns of the ledger are those of the queue. -/
theorem Kept.map_turns (h : books.Kept s) :
    books.turns.map Prod.snd = s.queue.turns := by
  rw [Queue.turns, Queue.ofKind, Queue.ofKind, ← h.pending, List.filter_map,
    List.filter_map, turns, List.map_append]
  rfl

/-- As long as no updates wait, each number that waits has its turn. -/
theorem Kept.turns_perm (h : books.Kept s) (hRegular : s.Regular) :
    books.turns.Perm books.waiting := by
  have hDeletes : (books.waiting.filter fun turn => turn.2.kind = .delete) =
      books.waiting.filter fun turn => !decide (turn.2.kind = .insert) := by
    refine List.filter_congr fun turn hMem => ?_
    have hPending : turn.2 ∈ s.queue.pending := by
      rw [← h.pending]
      exact List.mem_map_of_mem hMem
    obtain ⟨n, ⟨kind, ref⟩⟩ := turn
    cases kind with
    | insert => rfl
    | update => exact absurd hPending (hRegular.updates ref)
    | delete => rfl
  rw [turns, hDeletes]
  exact List.filter_append_perm ..

/-- Once nothing waits in the queue nothing waits in the ledger. -/
theorem Kept.waiting_eq_nil (h : books.Kept s) (hQueue : s.queue = {}) :
    books.waiting = [] := by
  have hPending := h.pending
  rw [hQueue] at hPending
  exact List.map_eq_nil_iff.1 hPending

variable [Driver σ] {p : Persister} {scope : Scope σ} {op : Operation}
  {action : Action}

open Session

/-- A request that is accepted queues its action, and does nothing else; any
other one leaves what waits in the queue, or nothing. -/
theorem accepted_cases (p : Persister) (scope : Scope σ) (op : Operation) :
    (∃ action, op.accepted? p scope = some action ∧
      op.perform p scope = queueing action scope ∧ ¬ Flushing scope op) ∨
    op.accepted? p scope = none ∧
      ((op.perform p scope).session.queue = scope.session.queue ∨
        (op.perform p scope).session.queue = {}) := by
  have hOther : (∀ ref, op ≠ .persist ref) → (∀ ref, op ≠ .remove ref) →
      (op.perform p scope).session.queue = scope.session.queue ∨
        (op.perform p scope).session.queue = {} := queue_perform
  cases op with
  | persist ref =>
      rcases (persist_queued p ref scope).isOk_cases with
        ⟨hOk, hAfter⟩ | ⟨hNot, hSame⟩
      · refine Or.inl ⟨_, if_pos hOk, hAfter, fun hFlushing => ?_⟩
        cases hFlushing.1
      · exact Or.inr ⟨if_neg hNot,
          Or.inl (congrArg (fun s => s.session.queue) hSame)⟩
  | remove ref =>
      rcases (remove_queued p ref scope).isOk_cases with
        ⟨hOk, hAfter⟩ | ⟨hNot, hSame⟩
      · refine Or.inl ⟨_, if_pos hOk, hAfter, fun hFlushing => ?_⟩
        cases hFlushing.1
      · exact Or.inr ⟨if_neg hNot,
          Or.inl (congrArg (fun s => s.session.queue) hSame)⟩
  | _ => exact Or.inr ⟨rfl, hOther (by simp) (by simp)⟩

/-- The INSERTs and DELETEs of a request that is entered carry out the actions
of the next numbers, and of all that wait if it flushes and the flush succeeds.
Nothing waits any more when there has been one. -/
theorem Kept.served_enter (h : books.Kept scope.session)
    (hRegular : scope.session.Regular) (op : Operation) :
    ∃ turns, turns <+: books.turns ∧
      List.Forall₂ (fun turn c => Carries p scope turn.2 c) turns
        (scope.env.changes (op.perform p scope).env) ∧
      (books.enter p scope op).served =
        books.served ++ turns.map Prod.fst ∧
      (Flushing scope op → ((flush p).run scope).1 = .ok () →
        turns = books.turns) ∧
      (turns ≠ [] → (op.perform p scope).session.queue = {}) := by
  obtain ⟨actions, hPrefix, hCarried, hAll, hEmpty⟩ :=
    changes_of_perform (p := p) hRegular op
  have hActions : actions =
      (books.turns.take actions.length).map Prod.snd := by
    rw [List.map_take, h.map_turns]
    exact List.prefix_iff_eq_take.1 hPrefix
  have hLength : actions.length =
      (scope.env.changes (op.perform p scope).env).length :=
    hCarried.length_eq
  refine ⟨books.turns.take actions.length, List.take_prefix .., ?_, ?_, ?_, ?_⟩
  · rw [hActions, List.forall₂_map_left_iff] at hCarried
    exact hCarried
  · rcases accepted_cases p scope op with
      ⟨action, hAccepted, _, hNot⟩ | ⟨hNone, _⟩
    · rw [(keepsRows_of_not_flushing hNot).changes] at hLength
      rw [enter, hAccepted, hLength]
      simp
    · rw [enter, hNone, hLength]
  · intro hOp hOk
    have hTurns := hAll hOp hOk
    rw [← h.map_turns] at hTurns
    refine List.take_of_length_le (Nat.le_of_eq ?_)
    rw [hTurns, List.length_map]
  · intro hSome
    refine hEmpty fun hNil => hSome ?_
    rw [hNil]
    rfl

/-- Only the number of a request that is accepted is new among those that
wait. -/
theorem of_mem_waiting_enter {turn : Nat × Action}
    (hMem : turn ∈ (books.enter p scope op).waiting) :
    turn ∈ books.waiting ∨ turn.1 = books.accepted := by
  rw [enter] at hMem
  cases hAccepted : op.accepted? p scope with
  | some action =>
      rw [hAccepted] at hMem
      rcases List.mem_append.1 hMem with hOld | hNew
      · exact Or.inl hOld
      · rw [List.mem_singleton.1 hNew]
        exact Or.inr rfl
  | none =>
      simp only [hAccepted] at hMem
      split at hMem
      · cases hMem
      · exact Or.inl hMem

theorem accepted_le_enter (p : Persister) (scope : Scope σ) (op : Operation)
    (books : Ledger) : books.accepted ≤ (books.enter p scope op).accepted := by
  rw [enter]
  cases op.accepted? p scope with
  | some action => exact Nat.le_succ _
  | none => exact Nat.le_refl _

/-- A request that is accepted gets a number that has not been issued. -/
theorem Kept.enter_accepted (h : books.Kept scope.session)
    (hAccepted : op.accepted? p scope = some action)
    (hAfter : op.perform p scope = queueing action scope) :
    (books.enter p scope op).Kept (op.perform p scope).session := by
  rw [Ledger.enter, hAccepted, hAfter]
  have hNumbers : books.served ++
      (books.waiting ++ [(books.accepted, action)]).map Prod.fst =
      (books.served ++ books.waiting.map Prod.fst) ++ [books.accepted] := by
    simp
  refine ⟨?_, ?_, ?_⟩
  · show (books.waiting ++ [(books.accepted, action)]).map Prod.snd =
      scope.session.queue.pending ++ [action]
    rw [List.map_append, h.pending]
    rfl
  · simp only [hNumbers]
    intro n hMem
    rcases List.mem_append.1 hMem with hOld | hNew
    · exact Nat.lt_succ_of_lt (h.issued n hOld)
    · rw [List.mem_singleton.1 hNew]
      exact Nat.lt_succ_self _
  · simp only [hNumbers]
    refine List.nodup_append.2 ⟨h.nodup, List.pairwise_singleton .., ?_⟩
    rintro n hOld m hNew rfl
    rw [List.mem_singleton.1 hNew] at hOld
    exact Nat.lt_irrefl _ (h.issued _ hOld)

/-- Any other request serves numbers that wait, if any; the rest is struck off
when the queue is empty after it. -/
theorem Kept.enter_other (h : books.Kept scope.session)
    (hRegular : scope.session.Regular)
    (hNone : op.accepted? p scope = none)
    (hQueue : (op.perform p scope).session.queue = scope.session.queue ∨
      (op.perform p scope).session.queue = {}) :
    (books.enter p scope op).Kept (op.perform p scope).session := by
  obtain ⟨turns, hTurns, _, hServed, _, hEmpty⟩ :=
    h.served_enter (p := p) hRegular op
  have hIssued : (books.enter p scope op).accepted = books.accepted := by
    rw [Ledger.enter, hNone]
  have hWaiting : (books.enter p scope op).waiting =
      if (op.perform p scope).session.queue = {} then []
      else books.waiting := by
    rw [Ledger.enter, hNone]
  by_cases hNow : (op.perform p scope).session.queue = {}
  · -- What has not been served is struck off.
    rw [if_pos hNow] at hWaiting
    have hNumbers : (books.served ++ books.turns.map Prod.fst).Perm
        (books.served ++ books.waiting.map Prod.fst) :=
      ((h.turns_perm hRegular).map Prod.fst).append_left _
    have hPart : (books.served ++ turns.map Prod.fst).Sublist
        (books.served ++ books.turns.map Prod.fst) :=
      (hTurns.map Prod.fst).sublist.append_left _
    refine ⟨?_, ?_, ?_⟩
    · rw [hWaiting, hNow]
      rfl
    · rw [hWaiting, hServed, hIssued, List.map_nil, List.append_nil]
      exact fun n hMem => h.issued n (hNumbers.mem_iff.1 (hPart.subset hMem))
    · rw [hWaiting, hServed, List.map_nil, List.append_nil]
      exact hPart.nodup (hNumbers.nodup_iff.2 h.nodup)
  · -- Nothing has been served.
    rw [if_neg hNow] at hWaiting
    have hNil : turns = [] := by_contra fun hSome => hNow (hEmpty hSome)
    rw [hNil, List.map_nil, List.append_nil] at hServed
    refine ⟨?_, ?_, ?_⟩
    · rw [hWaiting, hQueue.resolve_right hNow]
      exact h.pending
    · rw [hWaiting, hServed, hIssued]
      exact h.issued
    · rw [hWaiting, hServed]
      exact h.nodup

/-- Entering a request keeps the ledger right. -/
theorem Kept.enter (h : books.Kept scope.session)
    (hRegular : scope.session.Regular) (op : Operation) :
    (books.enter p scope op).Kept (op.perform p scope).session := by
  rcases accepted_cases p scope op with
    ⟨action, hAccepted, hAfter, _⟩ | ⟨hNone, hQueue⟩
  · exact h.enter_accepted hAccepted hAfter
  · exact h.enter_other hRegular hNone hQueue

end Ledger

/-! ## Runs -/

/-- The scopes that a run of a session leads to, whatever happens outside of it
in between, each with the ledger at that point. -/
inductive Booked [Driver σ] (p : Persister) (start : Scope σ)
    (opening : Ledger) : Scope σ → Ledger → Prop
  | start : Booked p start opening start opening
  | operation {scope : Scope σ} {books : Ledger}
      (h : Booked p start opening scope books) (op : Operation) :
    Booked p start opening (op.perform p scope) (books.enter p scope op)
  | outside {scope : Scope σ} {books : Ledger}
      (h : Booked p start opening scope books) (backend : Backend σ) :
    Booked p start opening { scope with backend := backend } books

namespace Booked

open Session

variable [Driver σ] {p : Persister} {start scope : Scope σ}
  {opening books : Ledger}

/-- The ledger stays right, and the session regular. -/
theorem kept (h : Booked p start opening scope books)
    (hStart : opening.Kept start.session)
    (hRegular : start.session.Regular) :
    books.Kept scope.session ∧ scope.session.Regular := by
  induction h with
  | start => exact ⟨hStart, hRegular⟩
  | operation _ op ih => exact ⟨ih.1.enter ih.2 op, ih.2.perform op⟩
  | outside _ backend ih => exact ih

/-- If nothing waits at first, only numbers that are issued later on are served
from then on. -/
theorem served_later (h : Booked p start opening scope books)
    (hStart : opening.Kept start.session)
    (hRegular : start.session.Regular) (hNone : opening.waiting = []) :
    (∃ more, books.served = opening.served ++ more ∧
      ∀ n ∈ more, opening.accepted ≤ n) ∧
    (∀ turn ∈ books.waiting, opening.accepted ≤ turn.1) ∧
    opening.accepted ≤ books.accepted := by
  induction h with
  | start =>
      refine ⟨⟨[], (List.append_nil _).symm, fun _ hMem => by cases hMem⟩, ?_,
        Nat.le_refl _⟩
      rw [hNone]
      exact fun _ hMem => by cases hMem
  | @operation scope books h op ih =>
      obtain ⟨⟨more, hServed, hMore⟩, hWaiting, hIssued⟩ := ih
      obtain ⟨hKept, hStill⟩ := h.kept hStart hRegular
      obtain ⟨turns, hTurns, _, hNext, _⟩ :=
        hKept.served_enter (p := p) hStill op
      refine ⟨⟨more ++ turns.map Prod.fst, ?_, ?_⟩, ?_,
        Nat.le_trans hIssued (Ledger.accepted_le_enter p scope op books)⟩
      · rw [hNext, hServed, List.append_assoc]
      · intro n hMem
        rcases List.mem_append.1 hMem with hOld | hNew
        · exact hMore n hOld
        · obtain ⟨turn, hTurn, rfl⟩ := List.mem_map.1 hNew
          have hWaits := (hKept.turns_perm hStill).mem_iff.1
            (hTurns.subset hTurn)
          exact hWaiting turn hWaits
      · intro turn hMem
        rcases Ledger.of_mem_waiting_enter hMem with hOld | hNew
        · exact hWaiting turn hOld
        · rw [hNew]
          exact hIssued
  | outside _ backend ih => exact ih

end Booked

namespace Session

variable [Driver σ] {p : Persister} {start scope : Scope σ} {books : Ledger}

/-- On every run, whatever fails: what waits in the ledger is what waits in the
queue, and no number is served twice, or is served and waits. The INSERTs and
DELETEs of the next request carry out the actions of the numbers that are next,
one for each; of all that wait if the request flushes and its flush succeeds.
If the request empties the queue, be it by a rollback, a clear or a flush, and
whatever comes of it, none of the numbers that have been issued by then is ever
served later on. -/
theorem accepted_runs_once (hContext : start.session.context = {})
    (hQueue : start.session.queue = {})
    (h : Booked p start {} scope books) (op : Operation) :
    let after := op.perform p scope
    let next := books.enter p scope op
    books.waiting.map Prod.snd = scope.session.queue.pending ∧
    books.turns.Perm books.waiting ∧
    (next.served ++ next.waiting.map Prod.fst).Nodup ∧
    (∃ turns, turns <+: books.turns ∧
      List.Forall₂ (fun turn c => Carries p scope turn.2 c) turns
        (scope.env.changes after.env) ∧
      next.served = books.served ++ turns.map Prod.fst ∧
      (Flushing scope op → ((flush p).run scope).1 = .ok () →
        turns = books.turns)) ∧
    (Empties p scope op → next.waiting = [] ∧
      ∀ later ledger, Booked p after next later ledger →
        ∀ n ∈ ledger.served, n < next.accepted → n ∈ next.served) := by
  intro after next
  obtain ⟨hKept, hRegular⟩ := h.kept (Ledger.kept_of_empty hQueue)
    (regular_of_empty hContext hQueue)
  have hNext : next.Kept after.session := hKept.enter hRegular op
  obtain ⟨turns, hTurns, hCarried, hServed, hAll, _⟩ :=
    hKept.served_enter (p := p) hRegular op
  refine ⟨hKept.pending, hKept.turns_perm hRegular, hNext.nodup,
    ⟨turns, hTurns, hCarried, hServed, hAll⟩, fun hEmpties => ?_⟩
  have hNone : next.waiting = [] :=
    hNext.waiting_eq_nil (queue_of_empties hEmpties)
  refine ⟨hNone, fun later ledger hLater n hMem hLt => ?_⟩
  obtain ⟨⟨more, hMore, hNew⟩, _⟩ :=
    hLater.served_later hNext (hRegular.perform op) hNone
  rw [hMore] at hMem
  refine (List.mem_append.1 hMem).resolve_right fun hIn => ?_
  exact Nat.lt_irrefl _ (Nat.lt_of_lt_of_le hLt (hNew n hIn))

end Session

/-! ## Two new notes -/

namespace Notes

/-- What requests lead to one after another, with the ledger. -/
def keep (ops : List Operation) (state : Scope Store × Ledger) :
    Scope Store × Ledger :=
  ops.foldl (fun s op =>
    (op.perform persister s.1, s.2.enter persister s.1 op)) state

theorem booked_keep {start : Scope Store} {opening : Ledger}
    (ops : List Operation) (state : Scope Store × Ledger)
    (h : Booked persister start opening state.1 state.2) :
    Booked persister start opening (keep ops state).1 (keep ops state).2 := by
  induction ops generalizing state with
  | nil => exact h
  | cons op rest ih => exact ih _ (h.operation op)

/-- A session on a store without notes, beside two new ones. -/
def desk : Scope Store := scope [] [note 1 "a", note 2 "b"] { id := 0 }

/-- The first note is to be inserted. -/
def drafted : Scope Store × Ledger := keep [.begin, .persist 0] (desk, {})

/-- That has been rolled back, and the second note is to be inserted. -/
def redrafted : Scope Store × Ledger :=
  keep [.rollback, .begin, .persist 1] drafted

end Notes

/-- The first note, number 0, is never inserted. The second one, number 1, is
by the commit, once. -/
theorem Session.accepted_runs_once_of_notes :
    let books := Notes.redrafted.2.enter Notes.persister Notes.redrafted.1
      .commit
    Notes.drafted.2.waiting = [(0, ⟨.insert, 0⟩)] ∧ 0 ∉ books.served ∧
    Notes.redrafted.2.waiting = [(1, ⟨.insert, 1⟩)] ∧ books.served = [1] ∧
    ∃ c, Notes.redrafted.1.env.changes (Operation.commit.perform
        Notes.persister Notes.redrafted.1).env = [c] ∧
      Carries Notes.persister Notes.redrafted.1 ⟨.insert, 1⟩ c := by
  intro books
  have hDrafted : Booked Notes.persister Notes.desk {} Notes.drafted.1
      Notes.drafted.2 := Notes.booked_keep _ _ .start
  have hRedrafted : Booked Notes.persister Notes.desk {} Notes.redrafted.1
      Notes.redrafted.2 := Notes.booked_keep _ _ hDrafted
  have hFirst : Notes.drafted.2.waiting = [(0, ⟨.insert, 0⟩)] := by
    decide +kernel
  have hSecond : Notes.redrafted.2.waiting = [(1, ⟨.insert, 1⟩)] := by
    decide +kernel
  have hTurns : Notes.redrafted.2.turns = [(1, ⟨.insert, 1⟩)] := by
    rw [Ledger.turns, hSecond]
    rfl
  -- The rollback empties the queue; what follows is a run from there.
  obtain ⟨_, _, _, _, hEmptied⟩ :=
    accepted_runs_once rfl rfl hDrafted .rollback
  have hLater : Booked Notes.persister
      (Operation.rollback.perform Notes.persister Notes.drafted.1)
      (Notes.drafted.2.enter Notes.persister Notes.drafted.1 .rollback)
      (Operation.commit.perform Notes.persister Notes.redrafted.1) books :=
    (Notes.booked_keep [.begin, .persist 1]
      (Notes.keep [.rollback] Notes.drafted) .start).operation .commit
  obtain ⟨_, _, _, ⟨turns, _, hCarried, hServed, hAll⟩, _⟩ :=
    accepted_runs_once rfl rfl hRedrafted .commit
  have hOk : ((flush Notes.persister).run Notes.redrafted.1).1 = .ok () :=
    except_eq_ok_of_isOk (by decide +kernel)
  have hNone : (Notes.drafted.2.enter Notes.persister Notes.drafted.1
      .rollback).served = [] := by decide +kernel
  have hBefore : Notes.redrafted.2.served = [] := by decide +kernel
  rw [hAll ⟨rfl, fun _ => by decide +kernel⟩ hOk, hTurns] at hCarried hServed
  rw [hBefore] at hServed
  refine ⟨hFirst, fun hMem => ?_, hSecond, hServed, ?_⟩
  · have hEarly := (hEmptied (Or.inl ⟨rfl, by decide +kernel⟩)).2 _ _ hLater
      0 hMem (by decide +kernel)
    rw [hNone] at hEarly
    cases hEarly
  · cases hCarried with
    | cons hHead hTail =>
        cases hTail
        exact ⟨_, rfl, hHead⟩

end UnitOfWork

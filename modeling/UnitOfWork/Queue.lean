import UnitOfWork.Collection

/-!
# Pending actions

Writes are not carried out at once but queued. A queue gives its actions back
in the order in which they can be carried out: inserts first, so that rows
exist before anything refers to them, then updates, then deletes; actions of
one kind keep the order in which they were queued.

## Main results

* `Queue.drain_perm`: no action is lost or repeated;
* `Queue.drain_sorted`: the kinds come in order;
* `Queue.filter_drain`: within one kind the order is kept.
-/

namespace UnitOfWork

/-- What an action does. -/
inductive ActionKind
  | insert | update | delete
deriving DecidableEq

/-- A write that waits to be carried out. -/
structure Action where
  kind : ActionKind
  entity : Ref
deriving DecidableEq

namespace ActionKind

/-- The name of a kind. -/
def name : ActionKind → String
  | insert => "insert"
  | update => "update"
  | delete => "delete"

/-- The place of a kind; lower places come first. -/
def priority : ActionKind → Nat
  | insert => 1
  | update => 2
  | delete => 3

end ActionKind

/-- Actions that wait, in the order in which they were queued. -/
structure Queue where
  pending : List Action := []
deriving DecidableEq

namespace Queue

/-- Adds an action. -/
def enqueue (q : Queue) (action : Action) : Queue := ⟨q.pending ++ [action]⟩

/-- Adds actions one after another. -/
def enqueueAll (q : Queue) (actions : List Action) : Queue :=
  ⟨q.pending ++ actions⟩

/-- The waiting actions of a kind. -/
def ofKind (q : Queue) (kind : ActionKind) : List Action :=
  q.pending.filter fun a => a.kind = kind

/-- The waiting actions in the order in which they are carried out. -/
def drain (q : Queue) : List Action :=
  q.ofKind .insert ++ q.ofKind .update ++ q.ofKind .delete

/-- The number of waiting actions. -/
def size (q : Queue) : Nat := q.pending.length

/-- Whether no action waits. -/
def isEmpty (q : Queue) : Bool := q.pending.isEmpty

/-- Draining neither loses nor repeats an action. -/
theorem drain_perm (q : Queue) : q.drain.Perm q.pending := by
  obtain ⟨pending⟩ := q
  induction pending with
  | nil => exact List.Perm.refl _
  | cons a rest ih =>
      obtain ⟨kind, entity⟩ := a
      cases kind
      · simpa [drain, ofKind] using ih
      · have h : (Queue.drain ⟨⟨.update, entity⟩ :: rest⟩).Perm
            (⟨.update, entity⟩ :: Queue.drain ⟨rest⟩) := by
          simp [drain, ofKind]
        exact h.trans (ih.cons _)
      · have h : (Queue.drain ⟨⟨.delete, entity⟩ :: rest⟩).Perm
            (⟨.delete, entity⟩ :: Queue.drain ⟨rest⟩) := by
          simp only [drain, ofKind, List.filter_cons, decide_true, if_true,
            reduceCtorEq, decide_false, Bool.false_eq_true, if_false]
          exact List.perm_middle
        exact h.trans (ih.cons _)

/-- The kinds come in the order of their places. -/
theorem drain_sorted (q : Queue) :
    q.drain.Pairwise fun a b => a.kind.priority ≤ b.kind.priority := by
  have hKind : ∀ kind, ∀ a ∈ q.ofKind kind, a.kind = kind := by
    intro kind a ha
    simpa using (List.mem_filter.1 ha).2
  have hSame : ∀ kind, (q.ofKind kind).Pairwise
      fun a b => a.kind.priority ≤ b.kind.priority := by
    intro kind
    have hTrivial : (q.ofKind kind).Pairwise fun _ _ => True :=
      List.pairwise_of_forall fun _ _ => trivial
    refine hTrivial.imp_of_mem fun {a b} ha hb _ => ?_
    exact Nat.le_of_eq (congrArg ActionKind.priority
      ((hKind kind a ha).trans (hKind kind b hb).symm))
  refine List.pairwise_append.2 ⟨List.pairwise_append.2
    ⟨hSame _, hSame _, fun a ha b hb => ?_⟩, hSame _, fun a ha b hb => ?_⟩
  · rw [hKind _ a ha, hKind _ b hb]
    decide
  · rw [hKind _ b hb]
    rcases List.mem_append.1 ha with ha | ha <;> rw [hKind _ a ha] <;> decide

/-- Within one kind the order of queueing is kept. -/
theorem filter_drain (q : Queue) (kind : ActionKind) :
    (q.drain.filter fun a => a.kind = kind) = q.ofKind kind := by
  have hOther : ∀ other, other ≠ kind →
      ((q.ofKind other).filter fun a => a.kind = kind) = [] := by
    intro other hNe
    refine List.filter_eq_nil_iff.2 fun a ha => ?_
    have hKind : a.kind = other := by
      simpa using (List.mem_filter.1 ha).2
    simpa [hKind] using hNe
  have hSelf : ((q.ofKind kind).filter fun a => a.kind = kind) =
      q.ofKind kind := by
    simp [ofKind, List.filter_filter]
  unfold drain
  rw [List.filter_append, List.filter_append]
  cases kind
  · rw [hSelf, hOther .update (by decide), hOther .delete (by decide)]
    simp
  · rw [hSelf, hOther .insert (by decide), hOther .delete (by decide)]
    simp
  · rw [hSelf, hOther .insert (by decide), hOther .update (by decide)]
    simp

end Queue

end UnitOfWork

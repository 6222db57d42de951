import Mathlib.Algebra.Ring.Nat
import UnitOfWork.Queue
import UnitOfWork.Proofs.BinaryHeap

/-!
# A queue of tickets

The queue of a session keeps its actions in the order in which they came, and
picks them out by kind when it is drained. Another way to keep them is on
tickets in a binary heap: a ticket has the priority of its action's kind and a
number, and the greatest ticket is the one with the lowest priority and, among
those, the lowest number. Numbers are counted on when the queue is drained or
cleared, and have 64 bits. As long as fewer actions are queued than there are
numbers, no two tickets are level, so the order in which they are taken is the
one in which a queue is drained: the stable sort by priority.

## Main results

* `Queue.drain_eq_mergeSort`: a drained queue is sorted, and stably;
* `Tickets.Holds.enqueue`, `Tickets.Holds.drained`: what the heap and the
  numbers keep;
* `Tickets.drains_in_order`: a queue of tickets after any use.
-/

namespace UnitOfWork

/-! ## Drained queues are sorted -/

namespace Queue

/-- A list that is sorted by priority is in the order of a drained queue. -/
theorem drain_of_sorted {actions : List Action} (h : actions.Pairwise
      fun a b => a.kind.priority ≤ b.kind.priority) :
    Queue.drain ⟨actions⟩ = actions := by
  induction actions with
  | nil => rfl
  | cons first rest ih =>
      obtain ⟨hFirst, hRest⟩ := List.pairwise_cons.1 h
      obtain ⟨kind, ref⟩ := first
      have hNone : ∀ other : ActionKind, other.priority < kind.priority →
          (rest.filter fun a => a.kind = other) = [] := by
        intro other hLess
        refine List.filter_eq_nil_iff.2 fun a hMem hKind => ?_
        have hPriority : kind.priority ≤ a.kind.priority := hFirst a hMem
        rw [of_decide_eq_true hKind] at hPriority
        omega
      have hDrained := ih hRest
      unfold drain ofKind at hDrained ⊢
      simp only [List.filter_cons]
      cases kind with
      | insert => exact congrArg (List.cons _) hDrained
      | update =>
          rw [hNone .insert (by decide)] at hDrained ⊢
          exact congrArg (List.cons _) hDrained
      | delete =>
          rw [hNone .insert (by decide), hNone .update (by decide)]
            at hDrained ⊢
          exact congrArg (List.cons _) hDrained

/-- There is one way to sort actions by priority and keep the order within each
kind. -/
theorem eq_drain {q : Queue} {actions : List Action}
    (hSorted : actions.Pairwise
      fun a b => a.kind.priority ≤ b.kind.priority)
    (hKept : ∀ kind, (actions.filter fun a => a.kind = kind) =
      q.ofKind kind) : actions = q.drain := by
  rw [← drain_of_sorted hSorted]
  unfold drain
  rw [← hKept, ← hKept, ← hKept]
  rfl

/-- A drained queue is the stable sort of the actions by priority. -/
theorem drain_eq_mergeSort (q : Queue) :
    q.drain = q.pending.mergeSort
      fun a b => a.kind.priority ≤ b.kind.priority := by
  have hTrans : ∀ a b c : Action,
      decide (a.kind.priority ≤ b.kind.priority) →
        decide (b.kind.priority ≤ c.kind.priority) →
          decide (a.kind.priority ≤ c.kind.priority) := by
    intro a b c hFirst hSecond
    exact decide_eq_true
      (Nat.le_trans (of_decide_eq_true hFirst) (of_decide_eq_true hSecond))
  have hTotal : ∀ a b : Action, decide (a.kind.priority ≤ b.kind.priority) ||
      decide (b.kind.priority ≤ a.kind.priority) := by
    intro a b
    simpa using Nat.le_total a.kind.priority b.kind.priority
  refine (eq_drain ?_ fun kind => ?_).symm
  · exact (List.pairwise_mergeSort hTrans hTotal q.pending).imp
      of_decide_eq_true
  · have hSame : (q.ofKind kind).Pairwise
        fun a b => decide (a.kind.priority ≤ b.kind.priority) := by
      refine List.pairwise_of_forall_mem_list fun a ha b hb => ?_
      have hA : a.kind = kind := by simpa using (List.mem_filter.1 ha).2
      have hB : b.kind = kind := by simpa using (List.mem_filter.1 hb).2
      rw [hA, hB]
      simp
    have hSublist := (List.sublist_mergeSort hTrans hTotal hSame
      List.filter_sublist).filter fun a => decide (a.kind = kind)
    have hLength := ((List.mergeSort_perm q.pending fun a b =>
      decide (a.kind.priority ≤ b.kind.priority)).filter
        fun a => decide (a.kind = kind)).length_eq
    have hSelf : ((q.ofKind kind).filter fun a => decide (a.kind = kind)) =
        q.ofKind kind := by simp [ofKind]
    rw [hSelf] at hSublist
    exact (hSublist.eq_of_length hLength.symm).symm

end Queue

/-! ## Tickets -/

/-- An action that waits, with the priority of its kind and the number that it
was given when it was queued. -/
structure Ticket where
  priority : Nat
  number : UInt64
  action : Action

namespace Ticket

/-- The greatest ticket is the next one: it has the lowest priority and, among
those, the lowest number. -/
instance : Ord Ticket where
  compare := compareLex (fun a b => compare b.priority a.priority)
    fun a b => compare b.number a.number

instance : Std.TransOrd Ticket :=
  have : Std.TransCmp fun a b : Ticket => compare b.priority a.priority :=
    @Std.TransCmp.opposite Ticket (compareOn Ticket.priority) _
  have : Std.TransCmp fun a b : Ticket => compare b.number a.number :=
    @Std.TransCmp.opposite Ticket (compareOn Ticket.number) _
  inferInstanceAs (Std.TransCmp (compareLex _ _))

/-- A ticket is taken before another one. -/
def Before (a b : Ticket) : Prop :=
  a.priority < b.priority ∨ a.priority = b.priority ∧ a.number < b.number

/-- Of two tickets with different numbers the greater one is taken first. -/
theorem before_of_atMost {a b : Ticket} (h : BinaryHeap.AtMost b a)
    (hNe : a.number ≠ b.number) : Before a b := by
  have hLex : ((compare a.priority b.priority).then
      (compare a.number b.number)).isLE = true := h
  rcases Ordering.isLE_then_iff_or.1 hLex with hLess | ⟨hSame, hNumber⟩
  · exact Or.inl (Nat.compare_eq_lt.1 hLess)
  · refine Or.inr ⟨Nat.compare_eq_eq.1 hSame, ?_⟩
    have hLe : a.number ≤ b.number := Std.isLE_compare.1 hNumber
    rw [UInt64.le_iff_toNat_le] at hLe
    rw [UInt64.lt_iff_toNat_lt]
    have hNat : a.number.toNat ≠ b.number.toNat :=
      fun hEq => hNe (UInt64.toNat_inj.1 hEq)
    omega

end Ticket

/-- A queue of tickets: a binary heap, and the number of the next ticket. -/
structure Tickets where
  size : Nat := 0
  heap : Vector Ticket size
  next : UInt64

namespace Tickets

/-- The queue with no ticket yet. -/
def empty : Tickets := ⟨0, #v[], 0⟩

/-- Gives a ticket to an action. -/
def enqueue (t : Tickets) (action : Action) : Tickets :=
  ⟨t.size + 1,
    BinaryHeap.push t.heap ⟨action.kind.priority, t.next, action⟩, t.next + 1⟩

/-- Takes the tickets of a heap until none is left; gives their actions. -/
def drainHeap (next : UInt64) :
    {n : Nat} → Vector Ticket n → List Action × Tickets
  | 0, heap => ([], ⟨0, heap, next⟩)
  | _ + 1, heap =>
    let taken := BinaryHeap.pop heap
    let (actions, left) := drainHeap next taken.2
    (taken.1.action :: actions, left)

/-- Takes all tickets; gives their actions, and what is left. -/
def drain (t : Tickets) : List Action × Tickets := drainHeap t.next t.heap

/-- Throws all tickets away. -/
def clear (t : Tickets) : Tickets := ⟨0, #v[], t.next⟩

/-! ## What the heap and the numbers keep -/

theorem drainHeap_eq (next : UInt64) {n : Nat} (heap : Vector Ticket n) :
    drainHeap next heap =
      ((BinaryHeap.drain heap).map Ticket.action, ⟨0, #v[], next⟩) := by
  induction n with
  | zero =>
      have hNone : heap = #v[] := Vector.eq_empty
      rw [hNone]
      rfl
  | succ n ih =>
      rw [drainHeap, ih]
      rfl

/-- What is drained is what the heap gives, and no ticket is left. -/
theorem drain_eq (t : Tickets) :
    t.drain = ((BinaryHeap.drain t.heap).map Ticket.action, t.clear) :=
  drainHeap_eq t.next t.heap

/-- A queue that has given out so many tickets still has these, in the order of
their numbers. -/
structure Holds (count : Nat) (tickets : List Ticket) (t : Tickets) :
    Prop where
  ordered : BinaryHeap.Ordered t.heap
  perm : t.heap.toList.Perm tickets
  next : t.next.toNat = count
  numbered : tickets.Pairwise fun a b => a.number < b.number
  issued : ∀ a ∈ tickets, a.number.toNat < count
  ranked : ∀ a ∈ tickets, a.priority = a.action.kind.priority

namespace Holds

variable {count : Nat} {tickets : List Ticket} {t : Tickets}

theorem cleared (h : Holds count tickets t) : Holds count [] t.clear where
  ordered := fun j _ hj _ _ => absurd hj (Nat.not_lt_zero j)
  perm := .refl _
  next := h.next
  numbered := .nil
  issued := fun _ hMem => by cases hMem
  ranked := fun _ hMem => by cases hMem

/-- A ticket with a new number comes last. -/
theorem enqueue (h : Holds count tickets t) (hCount : count + 1 < 2 ^ 64)
    (action : Action) :
    Holds (count + 1) (tickets ++ [⟨action.kind.priority, t.next, action⟩])
      (t.enqueue action) where
  ordered := BinaryHeap.ordered_push h.ordered _
  perm := (BinaryHeap.push_perm ..).trans (h.perm.append_right _)
  next := by
    show (t.next + 1).toNat = count + 1
    rw [UInt64.toNat_add, h.next]
    exact Nat.mod_eq_of_lt hCount
  numbered := by
    refine List.pairwise_append.2 ⟨h.numbered, List.pairwise_singleton .., ?_⟩
    intro a hMem b hNew
    rw [List.mem_singleton.1 hNew, UInt64.lt_iff_toNat_lt, h.next]
    exact h.issued a hMem
  issued := by
    intro a hMem
    rcases List.mem_append.1 hMem with hOld | hNew
    · exact Nat.lt_succ_of_lt (h.issued a hOld)
    · rw [List.mem_singleton.1 hNew, h.next]
      exact Nat.lt_succ_self count
  ranked := by
    intro a hMem
    rcases List.mem_append.1 hMem with hOld | hNew
    · exact h.ranked a hOld
    · rw [List.mem_singleton.1 hNew]

/-- No two tickets are level, so they are taken one strictly before the
other. -/
theorem drained_before (h : Holds count tickets t) :
    (BinaryHeap.drain t.heap).Pairwise Ticket.Before := by
  have hPerm := (BinaryHeap.drain_perm t.heap).trans h.perm
  have hNe : (BinaryHeap.drain t.heap).Pairwise
      fun a b => a.number ≠ b.number :=
    (hPerm.pairwise_iff fun hNe => hNe.symm).2
      (h.numbered.imp fun hLess => UInt64.ne_of_lt hLess)
  exact (BinaryHeap.drain_sorted h.ordered).imp₂
    (fun _ _ hAtMost hNe => Ticket.before_of_atMost hAtMost hNe) hNe

/-- Within a kind tickets are taken in the order of their numbers. -/
theorem filter_drained (h : Holds count tickets t) (kind : ActionKind) :
    ((BinaryHeap.drain t.heap).filter fun a => a.action.kind = kind) =
      tickets.filter fun a => a.action.kind = kind := by
  have hPerm := (BinaryHeap.drain_perm t.heap).trans h.perm
  have hNumbered : ((BinaryHeap.drain t.heap).filter
      fun a => a.action.kind = kind).Pairwise
        fun a b => a.number < b.number := by
    refine (h.drained_before.filter _).imp_of_mem fun {a b} hA hB hBefore => ?_
    obtain ⟨hMemA, hKindA⟩ := List.mem_filter.1 hA
    obtain ⟨hMemB, hKindB⟩ := List.mem_filter.1 hB
    have hSame : a.priority = b.priority := by
      rw [h.ranked a (hPerm.mem_iff.1 hMemA),
        h.ranked b (hPerm.mem_iff.1 hMemB), of_decide_eq_true hKindA,
        of_decide_eq_true hKindB]
    rcases hBefore with hLess | ⟨_, hNumber⟩
    · omega
    · exact hNumber
  exact (hPerm.filter _).eq_of_pairwise
    (fun a b _ _ hAB hBA => absurd hAB (UInt64.lt_asymm hBA)) hNumbered
    (h.numbered.filter _)

/-- A queue of tickets is drained as a queue of actions is. -/
theorem drained (h : Holds count tickets t) :
    t.drain.1 = Queue.drain ⟨tickets.map Ticket.action⟩ := by
  have hPerm := (BinaryHeap.drain_perm t.heap).trans h.perm
  rw [drain_eq]
  refine Queue.eq_drain ?_ fun kind => ?_
  · refine List.pairwise_map.2 (h.drained_before.imp_of_mem ?_)
    intro a b hA hB hBefore
    rw [← h.ranked a (hPerm.mem_iff.1 hA), ← h.ranked b (hPerm.mem_iff.1 hB)]
    rcases hBefore with hLess | ⟨hSame, _⟩ <;> omega
  · rw [Queue.ofKind, List.filter_map, List.filter_map]
    exact congrArg (List.map Ticket.action) (h.filter_drained kind)

end Holds

end Tickets

/-! ## Queues in use -/

/-- What can be done with a queue. -/
inductive QueueUse
  | enqueue (action : Action)
  | drain
  | clear

namespace QueueUse

/-- Whether an action is queued. -/
def isEnqueue : QueueUse → Bool
  | enqueue _ => true
  | _ => false

/-- What waits after a queue has been used. -/
def wait (waiting : List Action) : QueueUse → List Action
  | enqueue action => waiting ++ [action]
  | _ => []

/-- The actions that have been queued since the queue was drained or cleared
for the last time. -/
def waiting (uses : List QueueUse) : List Action := uses.foldl wait []

end QueueUse

/-- What a queue is drained to: each of the actions that wait, once, in the
order of their kinds and, within a kind, in the order in which they came. -/
structure Queue.Drains (waiting drained : List Action) : Prop where
  perm : drained.Perm waiting
  sorted : drained.Pairwise fun a b => a.kind.priority ≤ b.kind.priority
  kept : ∀ kind, (drained.filter fun a => a.kind = kind) =
    waiting.filter fun a => a.kind = kind
  stable : drained = waiting.mergeSort
    fun a b => a.kind.priority ≤ b.kind.priority

theorem Queue.drains (q : Queue) : Drains q.pending q.drain where
  perm := q.drain_perm
  sorted := q.drain_sorted
  kept := q.filter_drain
  stable := q.drain_eq_mergeSort

namespace Tickets

/-- Uses a queue of tickets. -/
def use (t : Tickets) : QueueUse → Tickets
  | .enqueue action => t.enqueue action
  | .drain => t.drain.2
  | .clear => t.clear

/-- A new queue of tickets after some use. -/
def after (uses : List QueueUse) : Tickets := uses.foldl use empty

variable {count : Nat} {tickets : List Ticket} {t : Tickets}

/-- Any use of a queue leaves the tickets of what waits. -/
theorem Holds.use (h : Holds count tickets t) (use : QueueUse)
    (hCount : count + [use].countP QueueUse.isEnqueue < 2 ^ 64) :
    ∃ left, Holds (count + [use].countP QueueUse.isEnqueue) left (t.use use) ∧
      left.map Ticket.action = use.wait (tickets.map Ticket.action) := by
  cases use with
  | enqueue action =>
      refine ⟨_, h.enqueue hCount action, ?_⟩
      rw [List.map_append]
      rfl
  | drain =>
      refine ⟨[], ?_, rfl⟩
      show Holds count [] t.drain.2
      rw [drain_eq]
      exact h.cleared
  | clear => exact ⟨[], h.cleared, rfl⟩

/-- And so do uses one after another, as long as numbers last. -/
theorem Holds.foldl (h : Holds count tickets t) (uses : List QueueUse)
    (hCount : count + uses.countP QueueUse.isEnqueue < 2 ^ 64) :
    ∃ left, Holds (count + uses.countP QueueUse.isEnqueue) left
        (uses.foldl Tickets.use t) ∧
      left.map Ticket.action =
        uses.foldl QueueUse.wait (tickets.map Ticket.action) := by
  induction uses generalizing count tickets t with
  | nil => exact ⟨tickets, h, rfl⟩
  | cons first rest ih =>
      have hSum : count + (first :: rest).countP QueueUse.isEnqueue =
          count + [first].countP QueueUse.isEnqueue +
            rest.countP QueueUse.isEnqueue := by
        rw [List.countP_cons, List.countP_singleton]
        omega
      rw [hSum] at hCount ⊢
      obtain ⟨mid, hMid, hFirst⟩ := h.use first (by omega)
      obtain ⟨left, hLeft, hRest⟩ := ih hMid hCount
      refine ⟨left, hLeft, ?_⟩
      rw [hRest, hFirst]
      rfl

/-- A queue holds the tickets of what waits, as long as numbers last. -/
theorem exists_holds (uses : List QueueUse)
    (hCount : uses.countP QueueUse.isEnqueue < 2 ^ 64) :
    ∃ tickets, Holds (uses.countP QueueUse.isEnqueue) tickets (after uses) ∧
      tickets.map Ticket.action = QueueUse.waiting uses := by
  have hEmpty : Holds 0 [] empty := {
    ordered := fun j _ hj _ _ => absurd hj (Nat.not_lt_zero j)
    perm := .refl _
    next := rfl
    numbered := .nil
    issued := fun _ hMem => by cases hMem
    ranked := fun _ hMem => by cases hMem }
  have hSum := Nat.zero_add (uses.countP QueueUse.isEnqueue)
  have hHolds := hEmpty.foldl uses
  rw [hSum] at hHolds
  exact hHolds hCount

/-- However a queue of tickets has been used, as long as fewer actions were
queued than there are numbers: it has as many tickets as actions wait, it is
drained in order, as the queue of a session is, and then nothing is left in
it. -/
theorem drains_in_order (uses : List QueueUse)
    (hCount : uses.countP QueueUse.isEnqueue < 2 ^ 64) :
    (after uses).size = (QueueUse.waiting uses).length ∧
      Queue.Drains (QueueUse.waiting uses) (after uses).drain.1 ∧
      (after uses).drain.1 = Queue.drain ⟨QueueUse.waiting uses⟩ ∧
      (after uses).drain.2.size = 0 := by
  obtain ⟨tickets, hHolds, hWaiting⟩ := exists_holds uses hCount
  have hDrained : (after uses).drain.1 =
      Queue.drain ⟨QueueUse.waiting uses⟩ := by
    rw [hHolds.drained, hWaiting]
  refine ⟨?_, ?_, hDrained, ?_⟩
  · have hSize := hHolds.perm.length_eq
    rw [Vector.length_toList] at hSize
    rw [← hWaiting, List.length_map]
    exact hSize
  · rw [hDrained]
    exact Queue.drains ⟨_⟩
  · rw [drain_eq]
    rfl

/-- Some actions of all kinds, after one that was cleared away and one that was
drained. -/
def mixed : List QueueUse :=
  [.enqueue ⟨.delete, 8⟩, .clear, .enqueue ⟨.insert, 9⟩, .drain,
    .enqueue ⟨.delete, 1⟩, .enqueue ⟨.update, 2⟩, .enqueue ⟨.insert, 3⟩,
    .enqueue ⟨.delete, 4⟩, .enqueue ⟨.insert, 5⟩]

theorem drains_in_order_of_mixed : (after mixed).size = 5 ∧
    (after mixed).drain.1 = [⟨.insert, 3⟩, ⟨.insert, 5⟩, ⟨.update, 2⟩,
      ⟨.delete, 1⟩, ⟨.delete, 4⟩] := by
  obtain ⟨hSize, _, hDrained, _⟩ := drains_in_order mixed (by decide)
  refine ⟨hSize, ?_⟩
  rw [hDrained]
  decide

end Tickets

end UnitOfWork

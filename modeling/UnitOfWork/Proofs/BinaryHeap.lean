/-!
# Binary heaps

A vector is a binary heap if each item is at most the one above it, where the
items below place `i` are at the places `2 * i + 1` and `2 * i + 2`. An item
is added at the end and moves up. When the greatest item is taken off the top,
the last one takes its place: it sinks to the bottom along the greater items,
and moves up from there. Both ways through the heap exchange two neighbours at
a time, so no item is lost or repeated, and in between only the place that the
item has reached can be out of order.

## Main results

* `BinaryHeap.ordered_push`, `BinaryHeap.push_perm`: an item is added;
* `BinaryHeap.ordered_pop`, `BinaryHeap.pop_perm`, `BinaryHeap.atMost_pop`: the
  greatest item is taken;
* `BinaryHeap.drain_perm`, `BinaryHeap.drain_sorted`: what is taken until
  nothing is left.
-/

namespace UnitOfWork.BinaryHeap

variable {α : Type} [Ord α] {n : Nat}

/-! ## The two ways through a heap -/

/-- Moves the item at a place up, as long as it is greater than the one above
it. -/
def siftUp (v : Vector α n) (i : Nat) (hi : i < n) : Vector α n :=
  if 0 < i ∧ compare v[(i - 1) / 2] v[i] = .lt then
    siftUp (v.swap i ((i - 1) / 2)) ((i - 1) / 2) (by omega)
  else v
termination_by i

/-- The place of the greater one of the items below a place. -/
def greaterBelow (v : Vector α n) (i : Nat) (hi : 2 * i + 1 < n) : Nat :=
  if hBoth : 2 * i + 2 < n then
    if compare v[2 * i + 1] v[2 * i + 2] = .gt then 2 * i + 1 else 2 * i + 2
  else 2 * i + 1

theorem greaterBelow_cases (v : Vector α n) (i : Nat) (hi : 2 * i + 1 < n) :
    greaterBelow v i hi = 2 * i + 1 ∨
      greaterBelow v i hi = 2 * i + 2 ∧ 2 * i + 2 < n := by
  unfold greaterBelow
  split
  · rename_i hBoth
    split
    · exact Or.inl rfl
    · exact Or.inr ⟨rfl, hBoth⟩
  · exact Or.inl rfl

theorem greaterBelow_lt (v : Vector α n) (i : Nat) (hi : 2 * i + 1 < n) :
    greaterBelow v i hi < n := by
  rcases greaterBelow_cases v i hi with h | ⟨h, hBoth⟩ <;> omega

/-- Lets the item at a place sink to the bottom, and moves it up from there. -/
def sink (v : Vector α n) (i : Nat) (hi : i < n) : Vector α n :=
  if hBelow : 2 * i + 1 < n then
    sink (v.swap i (greaterBelow v i hBelow) hi (greaterBelow_lt v i hBelow))
      (greaterBelow v i hBelow) (greaterBelow_lt v i hBelow)
  else siftUp v i hi
termination_by n - i
decreasing_by
  rcases greaterBelow_cases v i hBelow with h | ⟨h, _⟩ <;> omega

/-- Adds an item. -/
def push (v : Vector α n) (x : α) : Vector α (n + 1) :=
  siftUp (v.push x) n (by omega)

/-- Puts an item in place of the one at the top, and takes that. -/
def replaceTop (v : Vector α n) (x : α) : α × Vector α n :=
  if h : 0 < n then (v[0], sink (v.set 0 x) 0 h) else (x, v)

/-- Takes the item at the top. -/
def pop (v : Vector α (n + 1)) : α × Vector α n := replaceTop v.pop v.back

/-- Takes all items, one after another. -/
def drain : {n : Nat} → Vector α n → List α
  | 0, _ => []
  | _ + 1, v => (pop v).1 :: drain (pop v).2

/-! ## No item is lost or repeated -/

theorem siftUp_perm (v : Vector α n) (i : Nat) (hi : i < n) :
    (siftUp v i hi).toList.Perm v.toList := by
  induction v, i, hi using siftUp.induct with
  | case1 v i hi hLess ih =>
      rw [siftUp, if_pos hLess]
      exact ih.trans (Vector.swap_perm ..).toList
  | case2 v i hi hNot =>
      rw [siftUp, if_neg hNot]

theorem sink_perm (v : Vector α n) (i : Nat) (hi : i < n) :
    (sink v i hi).toList.Perm v.toList := by
  induction v, i, hi using sink.induct with
  | case1 v i hi hBelow ih =>
      rw [sink, dif_pos hBelow]
      exact ih.trans (Vector.swap_perm ..).toList
  | case2 v i hi hNot =>
      rw [sink, dif_neg hNot]
      exact siftUp_perm v i hi

/-- An added item is there beside the others. -/
theorem push_perm (v : Vector α n) (x : α) :
    (push v x).toList.Perm (v.toList ++ [x]) := by
  rw [← Vector.toList_push]
  exact siftUp_perm ..

/-- One item comes and another one goes. -/
theorem replaceTop_perm (v : Vector α n) (x : α) :
    ((replaceTop v x).1 :: (replaceTop v x).2.toList).Perm
      (v.toList ++ [x]) := by
  unfold replaceTop
  split
  · rename_i hSome
    refine ((sink_perm (v.set 0 x) 0 hSome).cons _).trans ?_
    rcases v with ⟨⟨items⟩, rfl⟩
    cases items with
    | nil => cases hSome
    | cons first rest =>
        simp only [Vector.getElem_mk, Vector.set_mk, Vector.toList_mk]
        exact (List.perm_append_singleton x rest).symm.cons first
  · exact (List.perm_append_singleton x v.toList).symm

/-- The item that is taken and those that are left are those that were there. -/
theorem pop_perm (v : Vector α (n + 1)) :
    ((pop v).1 :: (pop v).2.toList).Perm v.toList := by
  have hWhole : v.toList = v.pop.toList ++ [v.back] := by
    rw [← Vector.toList_push]
    exact congrArg Vector.toList (Vector.push_pop_back v).symm
  rw [hWhole]
  exact replaceTop_perm v.pop v.back

theorem drain_perm (v : Vector α n) : (drain v).Perm v.toList := by
  induction n with
  | zero =>
      have hNil : v.toList = [] := List.eq_nil_of_length_eq_zero (by simp)
      rw [hNil]
      rfl
  | succ n ih => exact ((ih (pop v).2).cons _).trans (pop_perm v)

/-! ## The order of a heap -/

/-- An item is at most another one. -/
def AtMost (a b : α) : Prop := (compare a b).isLE = true

/-- A place is directly below another one. -/
abbrev Below (j i : Nat) : Prop := j = 2 * i + 1 ∨ j = 2 * i + 2

/-- Each item is at most the one above it. -/
def Ordered (v : Vector α n) : Prop :=
  ∀ j i (hj : j < n) (hi : i < n), Below j i → AtMost v[j] v[i]

/-- Only the item at one place can be out of order. -/
structure OrderedAround (v : Vector α n) (k : Nat) : Prop where
  others : ∀ j i (hj : j < n) (hi : i < n), Below j i → j ≠ k → i ≠ k →
    AtMost v[j] v[i]
  past : ∀ j i (hj : j < n) (hi : i < n), Below j k → Below k i →
    AtMost v[j] v[i]

variable [Std.TransOrd α] {v : Vector α n} {i k p : Nat}

theorem AtMost.trans {a b c : α} (h : AtMost a b) (hNext : AtMost b c) :
    AtMost a c := Std.TransOrd.isLE_trans h hNext

theorem AtMost.of_not_lt {a b : α} (h : compare a b ≠ .lt) : AtMost b a := by
  refine Std.OrientedCmp.isLE_of_isGE ?_
  cases hCompare : compare a b with
  | lt => exact absurd hCompare h
  | eq => rfl
  | gt => rfl

omit [Std.TransOrd α] in
theorem AtMost.of_lt {a b : α} (h : compare a b = .lt) : AtMost a b := by
  rw [AtMost, h]
  rfl

theorem AtMost.of_gt {a b : α} (h : compare a b = .gt) : AtMost b a :=
  .of_lt (Std.OrientedCmp.lt_of_gt h)

theorem AtMost.of_not_gt {a b : α} (h : compare a b ≠ .gt) : AtMost a b :=
  .of_not_lt fun hLess => h (Std.OrientedCmp.gt_of_lt hLess)

/-- The item at the top is the greatest. -/
theorem Ordered.atMost_top (h : Ordered v) (j : Nat) (hj : j < n) :
    AtMost v[j] v[0] := by
  induction j using Nat.strongRecOn with
  | _ j ih =>
      by_cases hTop : j = 0
      · subst hTop
        exact Std.ReflCmp.isLE_rfl
      · have hAbove : AtMost v[j] v[(j - 1) / 2] :=
          h j ((j - 1) / 2) hj (by omega) (by omega)
        exact hAbove.trans (ih ((j - 1) / 2) (by omega) (by omega))

omit [Std.TransOrd α] in
/-- If the one place is in order with its neighbours, all are. -/
theorem OrderedAround.ordered (h : OrderedAround v k)
    (hUp : ∀ i (hk : k < n) (hi : i < n), Below k i → AtMost v[k] v[i])
    (hDown : ∀ j (hj : j < n) (hk : k < n), Below j k → AtMost v[j] v[k]) :
    Ordered v := by
  intro j i hj hi hBelow
  by_cases hLow : j = k
  · subst hLow
    exact hUp i hj hi hBelow
  · by_cases hHigh : i = k
    · subst hHigh
      exact hDown j hj hi hBelow
    · exact h.others j i hj hi hBelow hLow hHigh

/-- An item that is greater than the one above it changes places with it. -/
theorem OrderedAround.up (h : OrderedAround v k) (hk : k < n) (hp : p < n)
    (hAbove : Below k p) (hLess : AtMost v[p] v[k]) :
    OrderedAround (v.swap k p) p ∧
      ∀ j (hj : j < n), Below j p → AtMost (v.swap k p)[j] (v.swap k p)[p] := by
  have hSibling : ∀ j (hj : j < n), Below j p → j ≠ k → AtMost v[j] v[p] :=
    fun j hj hBelow hNe => h.others j p hj hp hBelow hNe (by omega)
  constructor
  · constructor
    · intro j i hj hi hBelow hLow hHigh
      rw [Vector.getElem_swap_of_ne (by omega) hLow]
      by_cases hMoved : i = k
      · subst hMoved
        rw [Vector.getElem_swap_left]
        exact h.past j p hj hp hBelow hAbove
      · rw [Vector.getElem_swap_of_ne hMoved hHigh]
        exact h.others j i hj hi hBelow (by omega)
          hMoved
    · intro j i hj hi hBelow hNext
      have hTop : AtMost v[p] v[i] := h.others p i hp hi hNext
        (by omega) (by omega)
      have hSame : (v.swap k p)[i] = v[i] :=
        Vector.getElem_swap_of_ne (by omega) (by omega)
      rw [hSame]
      by_cases hMoved : j = k
      · subst hMoved
        rw [Vector.getElem_swap_left]
        exact hTop
      · rw [Vector.getElem_swap_of_ne hMoved (by omega)]
        exact (hSibling j hj hBelow hMoved).trans hTop
  · intro j hj hBelow
    rw [Vector.getElem_swap_right]
    by_cases hMoved : j = k
    · subst hMoved
      rw [Vector.getElem_swap_left]
      exact hLess
    · rw [Vector.getElem_swap_of_ne hMoved (by omega)]
      exact (hSibling j hj hBelow hMoved).trans hLess

/-- An item that moves up ends where it is in order. -/
theorem ordered_siftUp (hk : k < n) (h : OrderedAround v k)
    (hDown : ∀ j (hj : j < n), Below j k → AtMost v[j] v[k]) :
    Ordered (siftUp v k hk) := by
  induction v, k, hk using siftUp.induct with
  | case1 v k hk hLess ih =>
      have hPlace : Below k ((k - 1) / 2) := by omega
      obtain ⟨hAround, hBelow⟩ :=
        h.up hk (Nat.lt_trans (by omega) hk) hPlace (.of_lt hLess.2)
      rw [siftUp, if_pos hLess]
      exact ih hAround hBelow
  | case2 v k hk hNot =>
      rw [siftUp, if_neg hNot]
      refine h.ordered (fun i _ hi hAbove => ?_) fun j hj _ => hDown j hj
      have hPlace : i = (k - 1) / 2 := by omega
      subst hPlace
      exact .of_not_lt fun hLess => hNot ⟨by omega, hLess⟩

/-- The items below a place are at most the greater one of them. -/
theorem atMost_greaterBelow (hk : 2 * k + 1 < n) {c : Nat} (hc : c < n)
    (hGreater : greaterBelow v k hk = c) (j : Nat) (hj : j < n)
    (hBelow : Below j k) : AtMost v[j] v[c] := by
  unfold greaterBelow at hGreater
  split at hGreater
  · split at hGreater
    · rename_i hGreat
      subst hGreater
      rcases hBelow with rfl | rfl
      · exact Std.ReflCmp.isLE_rfl
      · exact .of_gt hGreat
    · rename_i hNot
      subst hGreater
      rcases hBelow with rfl | rfl
      · exact .of_not_gt hNot
      · exact Std.ReflCmp.isLE_rfl
  · subst hGreater
    have hOnly : j = 2 * k + 1 := by omega
    subst hOnly
    exact Std.ReflCmp.isLE_rfl

omit [Std.TransOrd α] in
/-- An item changes places with the greatest one of those below it. -/
theorem OrderedAround.down (h : OrderedAround v k) (hk : k < n) {c : Nat}
    (hc : c < n) (hChild : Below c k)
    (hGreatest : ∀ j (hj : j < n), Below j k → AtMost v[j] v[c]) :
    OrderedAround (v.swap k c) c := by
  constructor
  · intro j i hj hi hBelow hLow hHigh
    by_cases hMoved : j = k
    · subst hMoved
      rw [Vector.getElem_swap_left, Vector.getElem_swap_of_ne (by omega) hHigh]
      exact h.past c i hc hi hChild hBelow
    · rw [Vector.getElem_swap_of_ne hMoved hLow]
      by_cases hAbove : i = k
      · subst hAbove
        rw [Vector.getElem_swap_left]
        exact hGreatest j hj hBelow
      · rw [Vector.getElem_swap_of_ne hAbove hHigh]
        exact h.others j i hj hi hBelow hMoved hAbove
  · intro j i hj hi hBelow hNext
    have hPlace : i = k := by omega
    subst hPlace
    rw [Vector.getElem_swap_left,
      Vector.getElem_swap_of_ne (by omega) (by omega)]
    exact h.others j c hj hc hBelow (by omega) (by omega)

/-- An item that sinks to the bottom and moves up ends where it is in order. -/
theorem ordered_sink (hk : k < n) (h : OrderedAround v k) :
    Ordered (sink v k hk) := by
  induction v, k, hk using sink.induct with
  | case1 v k hk hBelow ih =>
      rw [sink, dif_pos hBelow]
      refine ih (h.down hk (greaterBelow_lt v k hBelow) ?_
        (atMost_greaterBelow hBelow _ rfl))
      rcases greaterBelow_cases v k hBelow with hLeft | ⟨hRight, _⟩
      · exact Or.inl hLeft
      · exact Or.inr hRight
  | case2 v k hk hNot =>
      rw [sink, dif_neg hNot]
      exact ordered_siftUp hk h fun j hj hBelow => by omega

/-! ## Adding and taking items -/

/-- A heap stays one when an item is added. -/
theorem ordered_push (h : Ordered v) (x : α) : Ordered (push v x) := by
  refine ordered_siftUp _ ⟨fun j i hj hi hBelow hLow hHigh => ?_,
    fun j i hj hi hBelow => by omega⟩ fun j hj hBelow => by omega
  rw [Vector.getElem_push_lt (by omega), Vector.getElem_push_lt (by omega)]
  exact h j i (by omega) (by omega) hBelow

/-- A heap stays one when the item at its top is replaced. -/
theorem ordered_replaceTop (h : Ordered v) (x : α) :
    Ordered (replaceTop v x).2 := by
  unfold replaceTop
  split
  · refine ordered_sink _ ⟨fun j i hj hi hBelow hLow hHigh => ?_,
      fun j i hj hi hBelow hNext => by omega⟩
    rw [Vector.getElem_set_ne _ _ (Ne.symm hLow),
      Vector.getElem_set_ne _ _ (Ne.symm hHigh)]
    exact h j i hj hi hBelow
  · exact h

/-- A heap stays one when the item at its top is taken. -/
theorem ordered_pop {v : Vector α (n + 1)} (h : Ordered v) :
    Ordered (pop v).2 := by
  refine ordered_replaceTop (fun j i hj hi hBelow => ?_) _
  rw [Vector.getElem_pop, Vector.getElem_pop]
  exact h j i (by omega) (by omega) hBelow

omit [Std.TransOrd α] in
/-- What is taken has been at the top. -/
theorem fst_pop (v : Vector α (n + 1)) : (pop v).1 = v[0] := by
  unfold pop replaceTop
  split
  · exact Vector.getElem_pop _
  · have hOne : n = 0 := by omega
    subst hOne
    exact Vector.back_eq_getElem

/-- What is taken is the greatest item. -/
theorem atMost_pop {v : Vector α (n + 1)} (h : Ordered v) {x : α}
    (hMem : x ∈ v.toList) : AtMost x (pop v).1 := by
  obtain ⟨j, hj, rfl⟩ := List.mem_iff_getElem.1 hMem
  rw [fst_pop, Vector.getElem_toList]
  exact h.atMost_top j (by simpa using hj)

/-- Items that are taken one after another become smaller and smaller. -/
theorem drain_sorted (h : Ordered v) :
    (drain v).Pairwise fun a b => AtMost b a := by
  induction n with
  | zero => exact .nil
  | succ n ih =>
      refine .cons (fun x hMem => ?_) (ih (ordered_pop h))
      have hLeft : x ∈ (pop v).2.toList := (drain_perm _).mem_iff.1 hMem
      exact atMost_pop h ((pop_perm v).mem_iff.1 (List.mem_cons_of_mem _ hLeft))

end UnitOfWork.BinaryHeap

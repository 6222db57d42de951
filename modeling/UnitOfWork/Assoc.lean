/-!
# Association lists

Finite maps as lists of pairs in the order in which their keys were first
added. `List.lookup` reads them; `insert` and `erase` write them.

## Main results

* `lookup_insert_self`, `lookup_insert_ne`: an insert changes one key only;
* `lookup_erase_self`, `lookup_erase_ne`: so does an erasure;
* `nodup_keys_insert`, `nodup_keys_erase`: no key comes to stand twice.
-/

namespace UnitOfWork.Assoc

variable {κ : Type} {α : Type} [DecidableEq κ]

/-- Gives a key a value, in its place if the key is there and at the end
otherwise. -/
def insert (key : κ) (value : α) : List (κ × α) → List (κ × α)
  | [] => [(key, value)]
  | (k, v) :: rest =>
    if k = key then (key, value) :: rest else (k, v) :: insert key value rest

/-- Removes a key. -/
def erase (key : κ) (pairs : List (κ × α)) : List (κ × α) :=
  pairs.filter fun pair => !decide (pair.1 = key)

/-- The keys in order. -/
def keys (pairs : List (κ × α)) : List κ := pairs.map Prod.fst

/-- Lookup compares the keys from left to right. -/
theorem lookup_cons (key k : κ) (v : α) (rest : List (κ × α)) :
    List.lookup key ((k, v) :: rest) =
      if k = key then some v else List.lookup key rest := by
  by_cases h : k = key
  · subst h
    simp
  · have hNe : (key == k) = false := by simpa using Ne.symm h
    rw [List.lookup_cons, hNe, if_neg h]

@[simp] theorem lookup_insert_self (key : κ) (value : α)
    (pairs : List (κ × α)) :
    List.lookup key (insert key value pairs) = some value := by
  induction pairs with
  | nil => simp [insert]
  | cons pair rest ih =>
      obtain ⟨k, v⟩ := pair
      unfold insert
      split
      · simp
      · rename_i h
        rw [lookup_cons, if_neg h, ih]

/-- Other keys keep their values. -/
theorem lookup_insert_ne {key other : κ} (h : other ≠ key) (value : α)
    (pairs : List (κ × α)) :
    List.lookup other (insert key value pairs) = List.lookup other pairs := by
  induction pairs with
  | nil => simp [insert, lookup_cons, Ne.symm h]
  | cons pair rest ih =>
      obtain ⟨k, v⟩ := pair
      unfold insert
      split
      · rename_i hk
        subst hk
        simp [lookup_cons, Ne.symm h]
      · simp [lookup_cons, ih]

@[simp] theorem lookup_erase_self (key : κ) (pairs : List (κ × α)) :
    List.lookup key (erase key pairs) = none := by
  induction pairs with
  | nil => simp [erase]
  | cons pair rest ih =>
      obtain ⟨k, v⟩ := pair
      unfold erase at *
      by_cases h : k = key
      · simpa [h] using ih
      · simpa [h, lookup_cons] using ih

/-- Other keys keep their values. -/
theorem lookup_erase_ne {key other : κ} (h : other ≠ key)
    (pairs : List (κ × α)) :
    List.lookup other (erase key pairs) = List.lookup other pairs := by
  induction pairs with
  | nil => simp [erase]
  | cons pair rest ih =>
      obtain ⟨k, v⟩ := pair
      unfold erase at *
      by_cases hk : k = key
      · subst hk
        simpa [lookup_cons, Ne.symm h] using ih
      · simp [hk, lookup_cons, ih]

/-- A key is found exactly when it is among the keys. -/
theorem lookup_isSome_iff (key : κ) (pairs : List (κ × α)) :
    (List.lookup key pairs).isSome ↔ key ∈ keys pairs := by
  induction pairs with
  | nil => simp [keys]
  | cons pair rest ih =>
      obtain ⟨k, v⟩ := pair
      rw [lookup_cons]
      by_cases h : k = key
      · simp [h, keys]
      · simp only [h, if_false, keys, List.map_cons, List.mem_cons, Ne.symm h,
          false_or]
        exact ih

/-- The keys after an insert. -/
theorem mem_keys_insert {key other : κ} {value : α}
    {pairs : List (κ × α)} :
    other ∈ keys (insert key value pairs) ↔
      other = key ∨ other ∈ keys pairs := by
  rw [← lookup_isSome_iff, ← lookup_isSome_iff]
  by_cases h : other = key
  · subst h
    simp
  · rw [lookup_insert_ne h]
    simp [h]

/-- The keys after an erasure. -/
theorem mem_keys_erase {key other : κ} {pairs : List (κ × α)} :
    other ∈ keys (erase key pairs) ↔ other ≠ key ∧ other ∈ keys pairs := by
  rw [← lookup_isSome_iff, ← lookup_isSome_iff]
  by_cases h : other = key
  · subst h
    simp
  · rw [lookup_erase_ne h]
    simp [h]

/-- An insert does not repeat a key. -/
theorem nodup_keys_insert {pairs : List (κ × α)} (h : (keys pairs).Nodup)
    (key : κ) (value : α) : (keys (insert key value pairs)).Nodup := by
  induction pairs with
  | nil => simp [insert, keys]
  | cons pair rest ih =>
      obtain ⟨k, v⟩ := pair
      simp only [keys, List.map_cons, List.nodup_cons] at h
      unfold insert
      split
      · rename_i hk
        subst hk
        simpa [keys] using h
      · rename_i hk
        have hIh := ih h.2
        simp only [keys, List.map_cons, List.nodup_cons]
        refine ⟨fun hMem => ?_, hIh⟩
        rcases mem_keys_insert.1 hMem with hEq | hRest
        · exact hk hEq
        · exact h.1 hRest

/-- An erasure does not repeat a key. -/
theorem nodup_keys_erase {pairs : List (κ × α)} (h : (keys pairs).Nodup)
    (key : κ) : (keys (erase key pairs)).Nodup :=
  h.sublist (List.Sublist.map _ List.filter_sublist)

end UnitOfWork.Assoc

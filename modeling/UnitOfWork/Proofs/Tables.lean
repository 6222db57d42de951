import UnitOfWork.Proofs.Contexts
import UnitOfWork.Proofs.Mappings
import UnitOfWork.Store.Table

/-!
# What statements do to rows

The effect of each statement on a store that keeps values as they are, in the
terms in which rows are read: by the names of their columns. A table is
regular when its columns are told apart by their names and each row has a value
for each of them. An insert adds a row with the values it was given; an update
gives new values to the rows it finds, in the columns it names and no others;
a delete takes away the rows it finds. All of them leave tables regular, and
other tables alone.

## Main results

* `Table.get?_row`: in which place a column is read;
* `Tables.run_insert`, `Tables.run_updateBy`, `Tables.run_deleteBy`: what
  writes do to the table that they name;
* `Tables.mem_shown_of_query`: queries find rows that are there.
-/

namespace UnitOfWork

/-! ## Names of columns -/

namespace NamesDiffer

variable {names : List String} {i j : Nat} {a b name : String}

/-- Such names are different. -/
theorem nodup (h : NamesDiffer names) : names.Nodup := by
  refine List.Pairwise.imp ?_ h
  rintro name _ hDiffer rfl
  rw [Text.sameIgnoringCase_self] at hDiffer
  cases hDiffer

/-- Two names that are the same stand in the same place. -/
theorem index_eq (h : NamesDiffer names) (hA : names[i]? = some a)
    (hB : names[j]? = some b) (hSame : Text.sameIgnoringCase a b = true) :
    i = j := by
  obtain ⟨hI, rfl⟩ := List.getElem?_eq_some_iff.1 hA
  obtain ⟨hJ, rfl⟩ := List.getElem?_eq_some_iff.1 hB
  have hPairs := List.pairwise_iff_getElem.1 h
  rcases Nat.lt_trichotomy i j with hLt | hEq | hLt
  · rw [hPairs i j hI hJ hLt] at hSame
    cases hSame
  · exact hEq
  · rw [Text.sameIgnoringCase_comm, hPairs j i hJ hI hLt] at hSame
    cases hSame

/-- A name that is found has that name in its place. -/
theorem getElem?_of_findIdx?
    (h : names.findIdx? (Text.sameIgnoringCase · name) = some i) :
    ∃ a, names[i]? = some a ∧ Text.sameIgnoringCase a name = true := by
  obtain ⟨hLt, hSame, _⟩ := List.findIdx?_eq_some_iff_getElem.1 h
  exact ⟨names[i], List.getElem?_eq_getElem hLt, hSame⟩

/-- A name is found in the one place where it stands. -/
theorem findIdx?_eq (h : NamesDiffer names) (hA : names[i]? = some a)
    (hSame : Text.sameIgnoringCase a name = true) :
    names.findIdx? (Text.sameIgnoringCase · name) = some i := by
  have hMem : a ∈ names := List.mem_of_getElem? hA
  cases hFound : names.findIdx? (Text.sameIgnoringCase · name) with
  | none =>
      have hNone := List.findIdx?_eq_none_iff.1 hFound a hMem
      rw [hSame] at hNone
      cases hNone
  | some j =>
      obtain ⟨b, hB, hOther⟩ := getElem?_of_findIdx? hFound
      rw [Text.sameIgnoringCase_comm] at hOther
      rw [h.index_eq hA hB (Text.sameIgnoringCase_trans hSame hOther)]

end NamesDiffer

/-! ## Reading rows -/

namespace Row

/-- Where names differ, a column is found without regard to case. -/
theorem columnIndex?_eq {row : Row} (h : NamesDiffer row.columns)
    (name : String) :
    row.columnIndex? name =
      row.columns.findIdx? (Text.sameIgnoringCase · name) := by
  by_cases hMem : name ∈ row.columns
  · obtain ⟨i, hIndex, hName⟩ := columnIndex?_exact row hMem
    rw [hIndex, h.findIdx?_eq hName (Text.sameIgnoringCase_self name)]
  · exact columnIndex?_folded row hMem

end Row

/-! ## Tables -/

namespace Table

/-- A table whose columns are told apart by their names, each of whose rows has
a value for each of them, and which numbers its rows in the column `key` if it
does so at all. -/
structure Regular (key : String) (t : Table) : Prop where
  names : NamesDiffer t.columns
  full : ∀ row ∈ t.rows, row.length = t.columns.length
  numbered : ∀ n ∈ t.numbered, Text.sameIgnoringCase n.1 key = true

variable {t after : Table}

/-- The value of a row of a table in a column. -/
theorem get?_row (h : NamesDiffer t.columns) (values : List Value)
    (name : String) :
    Row.get? ⟨t.columns, values⟩ name =
      (t.position? name).bind fun i => values[i]? := by
  rw [Row.get?, Row.columnIndex?_eq h]
  rfl

theorem position_eq_ok {column : String} {i : Nat}
    (h : t.position column = .ok i) : t.position? column = some i := by
  unfold position at h
  split at h
  · rename_i j hJ
    rw [hJ, Except.ok.inj h]
  · cases h

theorem position?_lt {column : String} {i : Nat}
    (h : t.position? column = some i) : i < t.columns.length := by
  obtain ⟨a, hA, _⟩ := NamesDiffer.getElem?_of_findIdx? h
  exact (List.getElem?_eq_some_iff.1 hA).1

/-- Columns in the same place have the same name. -/
theorem same_of_position? {column other : String} {i : Nat}
    (h : t.position? column = some i) (hOther : t.position? other = some i) :
    Text.sameIgnoringCase column other = true := by
  obtain ⟨a, hA, hSame⟩ := NamesDiffer.getElem?_of_findIdx? h
  obtain ⟨b, hB, hSame'⟩ := NamesDiffer.getElem?_of_findIdx? hOther
  cases hA.symm.trans hB
  rw [Text.sameIgnoringCase_comm] at hSame
  exact Text.sameIgnoringCase_trans hSame hSame'

/-- The place of a column is that of any other spelling of its name. -/
theorem position?_congr {column other : String}
    (h : Text.sameIgnoringCase column other = true) :
    t.position? column = t.position? other := by
  unfold position?
  congr 1
  funext name
  rw [Text.sameIgnoringCase, Text.sameIgnoringCase]
  rw [Text.sameIgnoringCase, beq_iff_eq] at h
  rw [h]

/-! ### Giving values to columns -/

/-- The places of columns are those of columns. -/
theorem mem_positions {columns : List String} {positions : List Nat}
    (h : columns.mapM t.position = .ok positions) {i : Nat}
    (hMem : i ∈ positions) : ∃ c ∈ columns, t.position? c = some i := by
  induction columns generalizing positions with
  | nil =>
      cases h
      cases hMem
  | cons c rest ih =>
      rw [List.mapM_cons] at h
      obtain ⟨first, hFirst, hRest⟩ := except_bind_eq_ok.1 h
      obtain ⟨others, hOthers, hAll⟩ := except_bind_eq_ok.1 hRest
      cases hAll
      rcases List.mem_cons.1 hMem with rfl | hLater
      · exact ⟨c, List.mem_cons_self .., position_eq_ok hFirst⟩
      · obtain ⟨c', hC, hI⟩ := ih hOthers hLater
        exact ⟨c', List.mem_cons_of_mem _ hC, hI⟩

/-- Columns of different names have different places. -/
theorem position?_ne {column other : String} {i j : Nat}
    (h : Text.sameIgnoringCase column other = false)
    (hI : t.position? column = some i) (hJ : t.position? other = some j) :
    i ≠ j := by
  rintro rfl
  have hSame := same_of_position? hI hJ
  rw [h] at hSame
  cases hSame

section Fields

variable {columns : List String} {positions : List Nat} {values : List Value}

/-- No place is given two values. -/
theorem nodup_fields (hNames : NamesDiffer columns)
    (hPositions : columns.mapM t.position = .ok positions)
    (hLength : positions.length = values.length) :
    (Assoc.keys (positions.zip values)).Nodup := by
  rw [Assoc.keys, List.map_fst_zip (Nat.le_of_eq hLength)]
  clear hLength
  induction columns generalizing positions with
  | nil =>
      cases hPositions
      exact List.nodup_nil
  | cons c rest ih =>
      obtain ⟨hFirst, hRest⟩ := List.pairwise_cons.1 hNames
      rw [List.mapM_cons] at hPositions
      obtain ⟨i, hI, hMore⟩ := except_bind_eq_ok.1 hPositions
      obtain ⟨others, hOthers, hAll⟩ := except_bind_eq_ok.1 hMore
      cases hAll
      refine List.nodup_cons.2 ⟨?_, ih hRest hOthers⟩
      intro hMem
      obtain ⟨c', hC', hI'⟩ := mem_positions hOthers hMem
      exact position?_ne (hFirst c' hC') (position_eq_ok hI) hI' rfl

/-- Each named column is given its value. -/
theorem lookup_fields (hNames : NamesDiffer columns)
    (hPositions : columns.mapM t.position = .ok positions) {c : String}
    {v : Value} (hMem : (c, v) ∈ columns.zip values) :
    ∃ i, t.position? c = some i ∧
      (positions.zip values).lookup i = some v := by
  induction columns generalizing positions values with
  | nil => cases hMem
  | cons first rest ih =>
      obtain ⟨hFirst, hRest⟩ := List.pairwise_cons.1 hNames
      rw [List.mapM_cons] at hPositions
      obtain ⟨i, hI, hMore⟩ := except_bind_eq_ok.1 hPositions
      obtain ⟨others, hOthers, hAll⟩ := except_bind_eq_ok.1 hMore
      cases hAll
      cases values with
      | nil => cases hMem
      | cons w ws =>
          rw [List.zip_cons_cons]
          rcases List.mem_cons.1 hMem with hHead | hLater
          · cases hHead
            refine ⟨i, position_eq_ok hI, ?_⟩
            rw [Assoc.lookup_cons, if_pos rfl]
          · obtain ⟨j, hJ, hLookup⟩ := ih hRest hOthers hLater
            have hDiffer := hFirst c (List.of_mem_zip hLater).1
            have hNe : i ≠ j := position?_ne hDiffer (position_eq_ok hI) hJ
            refine ⟨j, hJ, ?_⟩
            rw [Assoc.lookup_cons, if_neg hNe]
            exact hLookup

/-- No other column is given any. -/
theorem lookup_fields_eq_none
    (hPositions : columns.mapM t.position = .ok positions) {c : String}
    {i : Nat} (hI : t.position? c = some i) (hNot : NotAmong columns c) :
    (positions.zip values).lookup i = none := by
  rw [← Option.not_isSome_iff_eq_none, Assoc.lookup_isSome_iff]
  intro hKey
  obtain ⟨pair, hPair, rfl⟩ := List.mem_map.1 hKey
  obtain ⟨c', hC', hI'⟩ := mem_positions hPositions (List.of_mem_zip hPair).1
  exact position?_ne (hNot c' hC') hI' hI rfl

end Fields

theorem length_setAll (fields : List (Nat × Value)) (row : List Value) :
    (fields.foldl (fun row field => row.set field.1 field.2) row).length =
      row.length := by
  induction fields generalizing row with
  | nil => rfl
  | cons field rest ih => rw [List.foldl_cons, ih, List.length_set]

/-- In a place that is given a value that value stands, and in any other one
what stood there before. -/
theorem getElem?_setAll {fields : List (Nat × Value)}
    (hNodup : (Assoc.keys fields).Nodup) {row : List Value} {i : Nat}
    (hLt : i < row.length) :
    (fields.foldl (fun row field => row.set field.1 field.2) row)[i]? =
      (fields.lookup i).or row[i]? := by
  induction fields generalizing row with
  | nil => rfl
  | cons field rest ih =>
      obtain ⟨j, v⟩ := field
      obtain ⟨hFirst, hRest⟩ := List.nodup_cons.1 hNodup
      rw [List.foldl_cons, ih hRest (by rw [List.length_set]; exact hLt),
        Assoc.lookup_cons]
      by_cases hEq : j = i
      · subst hEq
        have hNone : rest.lookup j = none := by
          rw [← Option.not_isSome_iff_eq_none, Assoc.lookup_isSome_iff]
          exact hFirst
        rw [hNone, if_pos rfl, List.getElem?_set_self hLt]
        rfl
      · rw [if_neg hEq, List.getElem?_set_ne hEq]

theorem get?_setAll (hNames : NamesDiffer t.columns)
    {fields : List (Nat × Value)} (hNodup : (Assoc.keys fields).Nodup)
    {row : List Value} (hFull : row.length = t.columns.length) {name : String}
    {i : Nat} (hI : t.position? name = some i) :
    Row.get? ⟨t.columns,
      fields.foldl (fun row field => row.set field.1 field.2) row⟩ name =
        (fields.lookup i).or row[i]? := by
  have hLt : i < row.length := by
    rw [hFull]
    exact position?_lt hI
  rw [get?_row hNames, hI, Option.bind_some, getElem?_setAll hNodup hLt]

/-- A new row has the values that it is given, and NULL elsewhere. -/
theorem getElem?_rowOf (t : Table) (fields : List (Nat × Value)) {i : Nat}
    (hLt : i < t.columns.length) :
    (t.rowOf fields)[i]? = some ((fields.lookup i).getD .null) := by
  rw [rowOf, List.getElem?_map, List.getElem?_range hLt]
  rfl

theorem length_rowOf (t : Table) (fields : List (Nat × Value)) :
    (t.rowOf fields).length = t.columns.length := by
  rw [rowOf, List.length_map, List.length_range]

/-! ### Writes -/

/-- A table that may take the place of another one: it only has other rows, and
they are as long. -/
structure Replaces (next t : Table) : Prop where
  name : next.name = t.name
  columns : next.columns = t.columns
  numbered : next.numbered = t.numbered
  full : (∀ row ∈ t.rows, row.length = t.columns.length) →
    ∀ row ∈ next.rows, row.length = t.columns.length

theorem Replaces.regular {key : String} {next : Table}
    (h : next.Replaces t) (hRegular : t.Regular key) : next.Regular key where
  names := h.columns ▸ hRegular.names
  full := h.columns ▸ h.full hRegular.full
  numbered := h.numbered ▸ hRegular.numbered

/-- Where an exact store numbers rows. -/
theorem numberPosition?_exact (t : Table) :
    t.numberPosition? .exact = t.numbered.bind fun n => t.position? n.1 := by
  unfold numberPosition?
  cases t.numbered <;> rfl

/-- A regular table numbers its rows in its key. -/
theorem Regular.position?_eq {key : String} (h : t.Regular key) {i : Nat}
    (hPosition : t.numberPosition? .exact = some i) :
    t.position? key = some i := by
  rw [numberPosition?_exact] at hPosition
  obtain ⟨n, hN, hI⟩ := Option.bind_eq_some_iff.1 hPosition
  rw [← position?_congr (h.numbered n hN), hI]

theorem number_exact {row numbered : List Value}
    (hLength : row.length = t.columns.length)
    (h : t.number .exact row = .ok numbered) :
    numbered.length = t.columns.length ∧
      ∀ i v, t.numberPosition? .exact ≠ some i ∨ v.isNull = false →
        row[i]? = some v → numbered[i]? = some v := by
  unfold number at h
  cases hPosition : t.numberPosition? .exact with
  | none =>
      simp only [hPosition] at h
      cases h
      exact ⟨hLength, fun _ _ _ hGet => hGet⟩
  | some i =>
      have hLt : i < t.columns.length := by
        rw [numberPosition?_exact] at hPosition
        obtain ⟨n, _, hN⟩ := Option.bind_eq_some_iff.1 hPosition
        exact position?_lt hN
      have hPad : i + 1 - row.length = 0 := by omega
      simp only [hPosition, hPad, List.replicate_zero, List.append_nil] at h
      split at h
      · rename_i hNull
        simp only [Dialect.exact, Bool.false_and, Bool.false_eq_true,
          if_false] at h
        cases h
        refine ⟨by rw [List.length_set, hLength], ?_⟩
        intro j v hJ hGet
        by_cases hEq : i = j
        · subst hEq
          rw [value, hGet] at hNull
          rcases hJ with hNe | hSome
          · exact absurd rfl hNe
          · rw [Option.getD_some, hSome] at hNull
            cases hNull
        · rw [List.getElem?_set_ne hEq]
          exact hGet
      · cases h
        refine ⟨by rw [List.length_set, hLength], ?_⟩
        intro j v _ hGet
        by_cases hEq : i = j
        · subst hEq
          rw [List.getElem?_set_self (by rw [hLength]; exact hLt), value, hGet]
          rfl
        · rw [List.getElem?_set_ne hEq]
          exact hGet

/-- An inserted row comes last, and has its values except where it has been
numbered. -/
theorem insert_exact {row inserted : List Value}
    (hLength : row.length = t.columns.length)
    (h : t.insert .exact row = .ok (inserted, after)) :
    after = { t with rows := t.rows ++ [inserted], counter := after.counter } ∧
      inserted.length = t.columns.length ∧
      ∀ i v, t.numberPosition? .exact ≠ some i ∨ v.isNull = false →
        row[i]? = some v → inserted[i]? = some v := by
  have hRows := rows_insert h
  unfold insert at h
  cases hNumber : t.number .exact row with
  | error fault =>
      rw [hNumber] at h
      cases h
  | ok numbered =>
      simp only [hNumber] at h
      split at h
      · cases h
      · cases h
        simp only at hRows
        exact ⟨by rw [hRows], number_exact hLength hNumber⟩

theorem replaces_insert {row inserted : List Value}
    (hLength : row.length = t.columns.length)
    (h : t.insert .exact row = .ok (inserted, after)) : after.Replaces t := by
  obtain ⟨hAfter, hInserted, _⟩ := insert_exact hLength h
  rw [hAfter]
  refine ⟨rfl, rfl, rfl, ?_⟩
  intro hFull row hMem
  rcases List.mem_append.1 hMem with hThere | hNew
  · exact hFull row hThere
  · rw [List.mem_singleton.1 hNew]
    exact hInserted

theorem finds_exact (t : Table) (i : Nat) (wanted : Value)
    (row : List Value) :
    t.finds .exact i wanted row =
      (!wanted.isNull && (value row i).equal wanted) := by
  unfold finds
  split <;> rfl

/-- An identifier finds the rows that have it. -/
theorem finds_id_iff (t : Table) (id : EntityId) {i : Nat} {row : List Value}
    (hLt : i < row.length) :
    t.finds .exact i id.toValue row = true ↔ row[i]? = some id.toValue := by
  have hEqual : ∀ v : Value, v.equal id.toValue = true ↔ v = id.toValue := by
    intro v
    cases id <;> cases v <;> simp [EntityId.toValue, Value.equal]
  rw [finds_exact, EntityId.isNull_toValue, value,
    List.getElem?_eq_getElem hLt]
  simp [hEqual]

/-- The row that an update makes of a row. -/
def revised (t : Table) (fields : List (Nat × Value)) (i : Nat)
    (wanted : Value) (row : List Value) : List Value :=
  if t.finds .exact i wanted row then
    fields.foldl (fun row field => row.set field.1 field.2) row
  else row

theorem length_revised (t : Table) (fields : List (Nat × Value)) (i : Nat)
    (wanted : Value) (row : List Value) :
    (t.revised fields i wanted row).length = row.length := by
  unfold revised
  split
  · exact length_setAll fields row
  · rfl

theorem arrange_exact (t : Table) (rows : List (List Value)) :
    t.arrange .exact rows = rows := by
  unfold arrange
  split <;> rfl

theorem settle_exact (t : Table) (fields : List (Nat × Value)) :
    t.settle? .exact fields = some fields := by
  unfold settle?
  induction fields with
  | nil => rfl
  | cons field rest ih =>
      obtain ⟨i, v⟩ := field
      rw [List.mapM_cons, ih]
      have hNumber : Dialect.exact.number? v = some v := rfl
      by_cases h : t.numberPosition? .exact = some i
      · simp [h, hNumber]
      · simp [h]

/-- An update gives its values to the rows that it finds. -/
theorem update_exact {fields : List (Nat × Value)} {i found : Nat}
    {wanted : Value}
    (h : t.update .exact fields i wanted = .ok (found, after)) :
    after = { t with rows := t.rows.map (t.revised fields i wanted) } := by
  unfold update at h
  simp only [settle_exact, arrange_exact] at h
  split at h
  · -- No row is found, so none is given a value.
    rename_i hNone
    cases h
    have hSame : t.rows.map (t.revised fields i wanted) = t.rows.map id := by
      refine List.map_congr_left fun row hMem => ?_
      have hNot := List.filter_eq_nil_iff.1
        (List.eq_nil_of_length_eq_zero hNone) row hMem
      rw [revised, if_neg hNot]
      rfl
    rw [hSame, List.map_id]
  · cases h
    rfl

theorem replaces_update {fields : List (Nat × Value)} {i found : Nat}
    {wanted : Value}
    (h : t.update .exact fields i wanted = .ok (found, after)) :
    after.Replaces t := by
  rw [update_exact h]
  refine ⟨rfl, rfl, rfl, ?_⟩
  intro hFull row hMem
  obtain ⟨old, hOld, rfl⟩ := List.mem_map.1 hMem
  rw [length_revised]
  exact hFull old hOld

end Table

/-! ## Stores of tables -/

namespace Tables

variable {tables after : Tables} {table : String}

/-- Exact names are compared as they are. -/
theorem find_exact (tables : Tables) (name : String) :
    tables.find .exact name =
      match List.find? (fun t => t.name == name) tables with
      | some t => .ok t
      | none => .error (.noTable name) := rfl

theorem find_exact_eq_ok_iff {name : String} {t : Table} :
    tables.find .exact name = .ok t ↔
      List.find? (fun t => t.name == name) tables = some t := by
  rw [find_exact]
  cases List.find? (fun t => t.name == name) tables <;> simp

theorem name_of_find {name : String} {t : Table}
    (h : tables.find .exact name = .ok t) : t.name = name := by
  have hName := List.find?_some (find_exact_eq_ok_iff.1 h)
  exact eq_of_beq hName

/-- A table that is put in the place of another one is found from then on, and
all other tables are found as before. -/
theorem find_replace {t next : Table} (h : tables.find .exact table = .ok t)
    (hName : next.name = t.name) (other : String) :
    (tables.replace next).find .exact other =
      if other = table then .ok next else tables.find .exact other := by
  have hTable : next.name = table := hName.trans (name_of_find h)
  have hNames : ((fun t : Table => t.name == other) ∘ fun t =>
      if t.name = next.name then next else t) = fun t => t.name == other := by
    funext t
    simp only [Function.comp_apply]
    split
    · rename_i hSame
      rw [hSame]
    · rfl
  by_cases hOther : other = table
  · subst hOther
    rw [if_pos rfl, find_exact_eq_ok_iff, replace, List.find?_map, hNames,
      find_exact_eq_ok_iff.1 h, Option.map_some, ← hName, if_pos rfl]
  · rw [if_neg hOther]
    have hFound : List.find? (fun t => t.name == other)
        (tables.replace next) = List.find? (fun t => t.name == other) tables := by
      rw [replace, List.find?_map, hNames]
      cases hFind : List.find? (fun t => t.name == other) tables with
      | none => rfl
      | some found =>
          have hName' := name_of_find (find_exact_eq_ok_iff.2 hFind)
          rw [Option.map_some, hTable, hName', if_neg hOther]
    rw [find_exact, find_exact, hFound]

/-! ### What queries show -/

/-- The rows of a table as a query for all of them finds them. -/
def shown (tables : Tables) (table : String) : List Row :=
  match tables.run .exact (.selectAll table) [] with
  | .ok (outcome, _) => outcome.result.rows
  | .error _ => []

/-- If there is a table of a name, it is regular. -/
def Regular (key table : String) (tables : Tables) : Prop :=
  ∀ t, tables.find .exact table = .ok t → t.Regular key

theorem regular_singleton {key : String} {t : Table} (h : t.Regular key)
    (table : String) : Regular key table [t] := by
  intro found hFound
  have hMem := List.mem_of_find?_eq_some (find_exact_eq_ok_iff.1 hFound)
  cases List.mem_singleton.1 hMem
  exact h

theorem rows_resultOf (t : Table) (rows : List (List Value)) :
    (resultOf t rows).result.rows =
      rows.map fun row => ⟨t.columns, row.take t.columns.length⟩ := by
  have hRows : ∀ (rest : List (List Value)) (rs : ResultSet),
      rs.columns = some t.columns → (rest.foldl ResultSet.addRow rs).rows =
        rs.rows ++ rest.map fun row => ⟨t.columns, row⟩ := by
    intro rest
    induction rest with
    | nil => exact fun rs _ => (List.append_nil _).symm
    | cons row rest ih =>
        intro rs hColumns
        rw [List.foldl_cons, ih _ (by rw [ResultSet.columns_addRow, hColumns]),
          ResultSet.rows_addRow hColumns]
        simp
  rw [resultOf, ResultSet.ofRows, hRows _ _ rfl, List.map_map]
  rfl

theorem shown_eq (tables : Tables) (table : String) :
    tables.shown table =
      match tables.find .exact table with
      | .ok t => t.rows.map fun row => ⟨t.columns, row.take t.columns.length⟩
      | .error _ => [] := by
  rw [shown, run]
  cases tables.find .exact table with
  | error fault => rfl
  | ok t => exact rows_resultOf t t.rows

/-- What is shown of a regular table are its rows as they are. -/
theorem shown_of_regular {key : String} {t : Table} (hRegular : t.Regular key)
    (h : tables.find .exact table = .ok t) :
    tables.shown table = t.rows.map fun row => ⟨t.columns, row⟩ := by
  rw [shown_eq, h]
  refine List.map_congr_left fun row hMem => ?_
  rw [List.take_of_length_le (Nat.le_of_eq (hRegular.full row hMem))]

/-- A query finds rows that are there. -/
theorem mem_shown_of_query {statement : Statement} {params : List Value}
    {outcome : Outcome} {row : Row}
    (hStatement : statement = .selectAll table ∨
      ∃ column, statement = .selectBy table column)
    (h : run .exact statement params tables = .ok (outcome, after))
    (hRow : row ∈ outcome.result.rows) : row ∈ tables.shown table := by
  rcases hStatement with rfl | ⟨column, rfl⟩
  · obtain ⟨t, hT, hRest⟩ := except_bind_eq_ok.1 h
    split at hRest
    · cases hRest
      rw [rows_resultOf] at hRow
      rw [shown_eq, hT]
      exact hRow
    · cases hRest
  · obtain ⟨t, hT, hRest⟩ := except_bind_eq_ok.1 h
    obtain ⟨i, _, hRest⟩ := except_bind_eq_ok.1 hRest
    obtain ⟨v, _, hRest⟩ := except_bind_eq_ok.1 hRest
    cases hRest
    rw [rows_resultOf] at hRow
    obtain ⟨values, hMem, rfl⟩ := List.mem_map.1 hRow
    rw [shown_eq, hT]
    exact List.mem_map_of_mem (List.mem_filter.1 hMem).1

/-! ### What writes do -/

/-- What a write to one table leaves alone: what is shown of all others, and
that tables are regular. -/
structure Written (table : String) (tables after : Tables) : Prop where
  others : ∀ other, other ≠ table → after.shown other = tables.shown other
  regular : ∀ key other, tables.Regular key other → after.Regular key other

theorem written_replace {t next : Table}
    (h : tables.find .exact table = .ok t) (hReplaces : next.Replaces t) :
    Written table tables (tables.replace next) := by
  have hFind := find_replace h hReplaces.name
  constructor
  · intro other hNe
    rw [shown_eq, hFind, if_neg hNe, shown_eq]
  · intro key other hRegular found hFound
    rw [hFind] at hFound
    split at hFound
    · rename_i hOther
      subst hOther
      cases hFound
      exact hReplaces.regular (hRegular t h)
    · exact hRegular found hFound

theorem shown_replace {t next : Table} {key : String}
    (h : tables.find .exact table = .ok t) (hReplaces : next.Replaces t)
    (hRegular : t.Regular key) : (tables.replace next).shown table =
      next.rows.map fun row => ⟨t.columns, row⟩ := by
  have hFound : (tables.replace next).find .exact table = .ok next := by
    rw [find_replace h hReplaces.name, if_pos rfl]
  rw [shown_of_regular (hReplaces.regular hRegular) hFound, hReplaces.columns]

theorem pairUp_eq_ok {positions : List Nat} {values : List Value}
    {fields : List (Nat × Value)} (h : pairUp positions values = .ok fields) :
    positions.length = values.length ∧ fields = positions.zip values := by
  unfold pairUp at h
  split at h
  · rename_i hLength
    exact ⟨hLength, (Except.ok.inj h).symm⟩
  · cases h

/-- An insert adds a row with the values that it gives; only where rows are
numbered a NULL is replaced, and the number is reported. -/
theorem run_insert {columns : List String} {params : List Value}
    {outcome : Outcome} {key : String} (hRegular : tables.Regular key table)
    (hColumns : NamesDiffer columns)
    (h : run .exact (.insert table columns) params tables =
      .ok (outcome, after)) :
    Written table tables after ∧
    ∃ row, after.shown table = tables.shown table ++ [row] ∧
      (∀ c v, (c, v) ∈ columns.zip params →
        v.isNull = false ∨ Text.sameIgnoringCase c key = false →
          row.get? c = some v) ∧
      ∀ k, outcome.key = some k → row.get? key = some k := by
  have hKeep : params.map Dialect.exact.keep = params := List.map_id' params
  simp only [run, hKeep] at h
  obtain ⟨t, hT, h⟩ := except_bind_eq_ok.1 h
  obtain ⟨positions, hPositions, h⟩ := except_bind_eq_ok.1 h
  obtain ⟨fields, hFields, h⟩ := except_bind_eq_ok.1 h
  obtain ⟨⟨inserted, next⟩, hInsert, h⟩ := except_bind_eq_ok.1 h
  cases h
  obtain ⟨hLength, rfl⟩ := pairUp_eq_ok hFields
  obtain ⟨hNext, hInserted, hValues⟩ :=
    Table.insert_exact (t.length_rowOf _) hInsert
  have hOld := hRegular t hT
  have hReplaces := Table.replaces_insert (t.length_rowOf _) hInsert
  refine ⟨written_replace hT hReplaces, ⟨t.columns, inserted⟩, ?_, ?_, ?_⟩
  · rw [shown_of_regular hOld hT, shown_replace hT hReplaces hOld, hNext]
    simp
  · intro c v hMem hNull
    obtain ⟨i, hI, hLookup⟩ := Table.lookup_fields hColumns hPositions hMem
    rw [Table.get?_row hOld.names, hI, Option.bind_some]
    refine hValues i v ?_ ?_
    · rcases hNull with hNull | hNe
      · exact Or.inr hNull
      · exact Or.inl fun hPosition =>
          Table.position?_ne hNe hI (hOld.position?_eq hPosition) rfl
    · rw [t.getElem?_rowOf _ (Table.position?_lt hI), hLookup]
      rfl
  · intro k hKey
    obtain ⟨i, hI, hValue⟩ := Option.map_eq_some_iff.1 hKey
    rw [hNext] at hI
    have hPosition : t.position? key = some i := hOld.position?_eq hI
    have hLt : i < inserted.length := by
      rw [hInserted]
      exact Table.position?_lt hPosition
    rw [Table.get?_row hOld.names, hPosition, Option.bind_some, ← hValue,
      Table.value, List.getElem?_eq_getElem hLt]
    rfl

/-- A row of a table is found by an identifier if it has it in its column. -/
theorem finds_row_iff {t : Table} {key : String} {i : Nat} (id : EntityId)
    (hRegular : t.Regular key) {row : List Value} (hRow : row ∈ t.rows)
    (hKey : t.position? key = some i) :
    t.finds .exact i id.toValue row = true ↔
      Row.get? ⟨t.columns, row⟩ key = some id.toValue := by
  have hLt : i < row.length := by
    rw [hRegular.full row hRow]
    exact Table.position?_lt hKey
  rw [Table.finds_id_iff t id hLt, Table.get?_row hRegular.names, hKey,
    Option.bind_some]

/-- An update gives its values to the rows with an identifier, in the columns
that it names; all else stays what it is. -/
theorem run_updateBy {columns : List String} {values : List Value}
    {id : EntityId} {outcome : Outcome} {key : String}
    (hRegular : tables.Regular key table) (hColumns : NamesDiffer columns)
    (h : run .exact (.updateBy table columns key) (values ++ [id.toValue])
      tables = .ok (outcome, after)) :
    Written table tables after ∧
    ∃ g : Row → Row, after.shown table = (tables.shown table).map g ∧
      ∀ row ∈ tables.shown table,
        (row.get? key ≠ some id.toValue → g row = row) ∧
        (row.get? key = some id.toValue →
          (∀ c v, (c, v) ∈ columns.zip values → (g row).get? c = some v) ∧
            ∀ c, NotAmong columns c → (g row).get? c = row.get? c) := by
  have hKeep : (values ++ [id.toValue]).map Dialect.exact.keep =
      values ++ [id.toValue] := List.map_id' _
  simp only [run, hKeep, List.dropLast_concat, List.getLast?_concat,
    Option.toList_some] at h
  obtain ⟨t, hT, h⟩ := except_bind_eq_ok.1 h
  obtain ⟨positions, hPositions, h⟩ := except_bind_eq_ok.1 h
  obtain ⟨i, hI, h⟩ := except_bind_eq_ok.1 h
  obtain ⟨fields, hFields, h⟩ := except_bind_eq_ok.1 h
  obtain ⟨v, hV, hRest⟩ := except_bind_eq_ok.1 h
  cases hV
  obtain ⟨⟨found, next⟩, hUpdate, hDone⟩ := except_bind_eq_ok.1 hRest
  cases hDone
  obtain ⟨hLength, rfl⟩ := pairUp_eq_ok hFields
  have hKey := Table.position_eq_ok hI
  have hNodup := Table.nodup_fields hColumns hPositions hLength
  have hNext := Table.update_exact hUpdate
  have hOld := hRegular t hT
  have hReplaces := Table.replaces_update hUpdate
  refine ⟨written_replace hT hReplaces, fun row => ⟨row.columns,
    t.revised (positions.zip values) i id.toValue row.values⟩, ?_, ?_⟩
  · rw [shown_of_regular hOld hT, shown_replace hT hReplaces hOld, hNext]
    simp
  · intro row hRow
    rw [shown_of_regular hOld hT] at hRow
    obtain ⟨row, hMem, rfl⟩ := List.mem_map.1 hRow
    have hFinds := finds_row_iff id hOld hMem hKey
    have hFull := hOld.full row hMem
    constructor
    · intro hNe
      simp only [Table.revised, if_neg (mt hFinds.1 hNe)]
    · intro hHas
      simp only [Table.revised, if_pos (hFinds.2 hHas)]
      constructor
      · intro c v hCv
        obtain ⟨j, hJ, hLookup⟩ := Table.lookup_fields hColumns hPositions hCv
        rw [Table.get?_setAll hOld.names hNodup hFull hJ, hLookup]
        rfl
      · intro c hNot
        rw [Table.get?_row hOld.names row]
        cases hJ : t.position? c with
        | none => simp only [Table.get?_row hOld.names, hJ, Option.bind_none]
        | some j =>
            rw [Table.get?_setAll hOld.names hNodup hFull hJ,
              Table.lookup_fields_eq_none hPositions hJ hNot, Option.none_or,
              Option.bind_some]

/-- A delete takes away just the rows with an identifier. -/
theorem run_deleteBy {id : EntityId} {outcome : Outcome} {key : String}
    (hRegular : tables.Regular key table)
    (h : run .exact (.deleteBy table key) [id.toValue] tables =
      .ok (outcome, after)) :
    Written table tables after ∧ ∀ row, row ∈ after.shown table ↔
      row ∈ tables.shown table ∧ row.get? key ≠ some id.toValue := by
  have hKeep : [id.toValue].map Dialect.exact.keep = [id.toValue] := rfl
  simp only [run, hKeep] at h
  obtain ⟨t, hT, h⟩ := except_bind_eq_ok.1 h
  obtain ⟨i, hI, h⟩ := except_bind_eq_ok.1 h
  obtain ⟨v, hV, hDone⟩ := except_bind_eq_ok.1 h
  cases hV
  cases hDone
  have hKey := Table.position_eq_ok hI
  have hOld := hRegular t hT
  have hReplaces : (t.delete .exact i id.toValue).2.Replaces t :=
    ⟨rfl, rfl, rfl, fun hFull row hMem =>
      hFull row (List.mem_filter.1 hMem).1⟩
  refine ⟨written_replace hT hReplaces, ?_⟩
  intro row
  rw [shown_of_regular hOld hT, shown_replace hT hReplaces hOld]
  simp only [Table.delete, List.mem_map, List.mem_filter]
  constructor
  · rintro ⟨values, ⟨hMem, hNot⟩, rfl⟩
    refine ⟨⟨values, hMem, rfl⟩, ?_⟩
    intro hHas
    rw [(finds_row_iff id hOld hMem hKey).2 hHas] at hNot
    cases hNot
  · rintro ⟨⟨values, hMem, rfl⟩, hNe⟩
    refine ⟨values, ⟨hMem, ?_⟩, rfl⟩
    rw [Bool.not_eq_true', ← Bool.not_eq_true]
    exact mt (finds_row_iff id hOld hMem hKey).1 hNe

end Tables

end UnitOfWork

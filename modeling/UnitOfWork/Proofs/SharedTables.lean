import Mathlib.Data.List.Induction
import UnitOfWork.Assoc
import UnitOfWork.Rows

/-!
# Rows that share a table of names

A row finds a column by searching its names. Another way is to write the
position of each name into a table first, and to search only for names that are
not in it. The rows of a result set share such a table: one is written when the
column names are set, and a row that is added remembers in which place it
stands. When the names are set again another table is written in another place,
so the rows that are there keep theirs. A row that is made by itself has a table
written for it alone.

A table that has been written never changes, and the one that a row remembers
is that of its own column names. So rows answer alike, however they came by
their tables, and as a row that searches.

## Main results

* `NameTable.lookup_ofNames`: a table has the last position of each name;
* `IndexedRow.Sound.answers_eq`: with the table of its names a row answers as
  one that searches;
* `IndexedSet.Sound.use`, `IndexedSet.sound_useAll`: each row has the table of
  its names, one use after another;
* `IndexedSet.rows_keep_columns`: what a result set has after any use.
-/

namespace UnitOfWork

/-! ## Tables of names -/

/-- Names with their positions. -/
abbrev NameTable := List (String × Nat)

namespace NameTable

/-- Writes names into a table, with the positions from `n` on. A name that is
there already is given its new position. -/
def write (table : NameTable) (n : Nat) : List String → NameTable
  | [] => table
  | name :: rest => write (Assoc.insert name n table) (n + 1) rest

/-- The table of some names. -/
def ofNames (names : List String) : NameTable := write [] 0 names

/-- A name that is written has its last position, and any other name the one
that it had before. -/
theorem lookup_write (names : List String) (name : String) :
    ∀ (table : NameTable) (n : Nat), List.lookup name (write table n names) =
      ((Row.lastIndex? name names).map (n + ·)).or (table.lookup name) := by
  induction names with
  | nil =>
      intro table n
      simp [write, Row.lastIndex?]
  | cons first rest ih =>
      intro table n
      rw [write, ih, Row.lastIndex?]
      cases Row.lastIndex? name rest with
      | some i =>
          simp only [Option.map_some, Option.some_or, Option.some.injEq]
          omega
      | none =>
          by_cases h : first = name
          · subst h
            simp
          · simp [h, Assoc.lookup_insert_ne (Ne.symm h)]

/-- A table has the last position of each name. -/
theorem lookup_ofNames (names : List String) (name : String) :
    (ofNames names).lookup name = Row.lastIndex? name names := by
  rw [ofNames, lookup_write]
  cases Row.lastIndex? name names <;> simp

end NameTable

/-- The tables that have been written, each known by its place. -/
abbrev Catalogue := List NameTable

/-! ## Rows with tables -/

/-- What a row tells of a name: its position, its value, and its value or that
there is none. -/
abbrev Answers := Option Nat × Option Value × Except Error Value

/-- The answers of a row that searches its names. -/
def Row.answers (row : Row) (name : String) : Answers :=
  (row.columnIndex? name, row.get? name, row.getRequired name)

/-- A row with the place of the table of its names. -/
structure IndexedRow where
  columns : List String
  values : List Value
  table : Nat

namespace IndexedRow

variable {catalogue later : Catalogue} {row : IndexedRow}

/-- A row by itself, with a table written for it. -/
def make (catalogue : Catalogue) (columns : List String)
    (values : List Value) : IndexedRow × Catalogue :=
  (⟨columns, values, catalogue.length⟩, catalogue ++ [.ofNames columns])

/-- The position of the column that a name refers to. -/
def columnIndex? (catalogue : Catalogue) (row : IndexedRow) (name : String) :
    Option Nat :=
  match (catalogue.getD row.table []).lookup name with
  | some i => some i
  | none => row.columns.findIdx? (Text.sameIgnoringCase · name)

/-- The value in the column that a name refers to. -/
def get? (catalogue : Catalogue) (row : IndexedRow) (name : String) :
    Option Value :=
  (row.columnIndex? catalogue name).bind fun i => row.values[i]?

/-- The value in the column that a name refers to, which has to be there. -/
def getRequired (catalogue : Catalogue) (row : IndexedRow) (name : String) :
    Except Error Value :=
  match row.get? catalogue name with
  | some v => .ok v
  | none => .error (.mapping (.columnMissing name row.columns))

/-- The answers of a row. -/
def answers (catalogue : Catalogue) (row : IndexedRow) (name : String) :
    Answers :=
  (row.columnIndex? catalogue name, row.get? catalogue name,
    row.getRequired catalogue name)

/-- The row without its table. -/
def plain (row : IndexedRow) : Row := ⟨row.columns, row.values⟩

/-- The table that a row remembers is that of its column names. -/
def Sound (catalogue : Catalogue) (row : IndexedRow) : Prop :=
  catalogue[row.table]? = some (.ofNames row.columns)

/-- Tables that are written later do not concern a row. -/
theorem Sound.mono (h : row.Sound catalogue) (hLater : catalogue <+: later) :
    row.Sound later := by
  obtain ⟨written, rfl⟩ := hLater
  obtain ⟨hLt, _⟩ := List.getElem?_eq_some_iff.1 h
  rw [Sound, List.getElem?_append_left hLt]
  exact h

theorem Sound.columnIndex?_eq (h : row.Sound catalogue) (name : String) :
    row.columnIndex? catalogue name = row.plain.columnIndex? name := by
  have hTable : catalogue.getD row.table [] = .ofNames row.columns := by
    rw [List.getD_eq_getElem?_getD, h, Option.getD_some]
  rw [columnIndex?, hTable, NameTable.lookup_ofNames]
  rfl

/-- A row with the table of its names answers as one that searches them. -/
theorem Sound.answers_eq (h : row.Sound catalogue) (name : String) :
    row.answers catalogue name = row.plain.answers name := by
  have hGet : row.get? catalogue name = row.plain.get? name := by
    rw [get?, h.columnIndex?_eq]
    rfl
  rw [answers, getRequired, hGet, h.columnIndex?_eq]
  rfl

theorem sound_make (catalogue : Catalogue) (columns : List String)
    (values : List Value) :
    (make catalogue columns values).1.Sound
      (make catalogue columns values).2 := by
  simp [make, Sound]

/-- So does a row by itself. -/
theorem answers_make (catalogue : Catalogue) (columns : List String)
    (values : List Value) (name : String) :
    (make catalogue columns values).1.answers
        (make catalogue columns values).2 name =
      Row.answers ⟨columns, values⟩ name :=
  (sound_make catalogue columns values).answers_eq name

end IndexedRow

/-! ## Uses of a result set -/

namespace ResultSet

/-- A use of a result set. -/
inductive Use
  | setColumns (columns : List String)
  | addRow (values : List Value)

namespace Use

/-- The column names that a use sets. -/
def columns? : Use → Option (List String)
  | setColumns columns => some columns
  | addRow _ => none

/-- Whether a use adds a row. -/
def addsRow : Use → Bool
  | setColumns _ => false
  | addRow _ => true

end Use

/-- The column names in force after some uses: those that were set last. -/
def inForce? (uses : List Use) : Option (List String) :=
  (uses.filterMap Use.columns?).getLast?

/-- The number of rows that are added once column names have been set. -/
def addedCount (uses : List Use) : Nat :=
  (uses.dropWhile fun use => use.columns?.isNone).countP Use.addsRow

/-- A result set after a use. -/
def use (rs : ResultSet) : Use → ResultSet
  | .setColumns columns => rs.setColumns columns
  | .addRow values => rs.addRow values

variable {rs : ResultSet}

/-- The names in force are those that were set last. -/
theorem columns_useAll (uses : List Use) (rs : ResultSet) :
    (uses.foldl use rs).columns = (inForce? uses).or rs.columns := by
  induction uses generalizing rs with
  | nil => simp [inForce?]
  | cons first rest ih =>
      rw [List.foldl_cons, ih]
      cases first with
      | addRow values => simp [use, inForce?, Use.columns?]
      | setColumns columns =>
          simp [use, setColumns, inForce?, Use.columns?, List.getLast?_cons]

/-- Under column names each row that is added counts. -/
theorem length_useAll_of_columns (uses : List Use)
    (h : rs.columns.isSome = true) :
    (uses.foldl use rs).rows.length =
      rs.rows.length + uses.countP Use.addsRow := by
  induction uses generalizing rs with
  | nil => simp
  | cons first rest ih =>
      rw [List.foldl_cons]
      cases first with
      | setColumns columns =>
          rw [ih (by simp [use, setColumns])]
          simp [use, setColumns, Use.addsRow]
      | addRow values =>
          obtain ⟨columns, hColumns⟩ := Option.isSome_iff_exists.1 h
          have hFirst : (Use.addRow values).addsRow = true := rfl
          rw [ih (by simpa [use] using h), use, rows_addRow hColumns,
            List.length_append, List.countP_cons_of_pos hFirst]
          simp only [List.length_singleton]
          omega

/-- Rows that are added before any names do not count. -/
theorem length_useAll (uses : List Use) (h : rs.columns = none) :
    (uses.foldl use rs).rows.length =
      rs.rows.length + addedCount uses := by
  induction uses generalizing rs with
  | nil => simp [addedCount]
  | cons first rest ih =>
      cases first with
      | addRow values =>
          rw [List.foldl_cons, use, addRow_of_columns_none h, ih h]
          simp [addedCount, Use.columns?]
      | setColumns columns =>
          rw [List.foldl_cons, length_useAll_of_columns rest
            (by simp [use, setColumns])]
          simp [use, setColumns, addedCount, Use.columns?, Use.addsRow]

/-- The count of rows is that of the rows that are there. -/
theorem affected_useAll (uses : List Use)
    (h : rs.affected = rs.rows.length) :
    (uses.foldl use rs).affected = (uses.foldl use rs).rows.length := by
  induction uses generalizing rs with
  | nil => exact h
  | cons first rest ih =>
      rw [List.foldl_cons]
      apply ih
      cases first with
      | setColumns columns => exact h
      | addRow values =>
          rw [use, addRow]
          split <;> simp [h]

end ResultSet

/-! ## Result sets with tables -/

/-- A result set with the place of the table of the names in force. -/
structure IndexedSet where
  rows : List IndexedRow := []
  affected : Nat := 0
  columns : Option (List String) := none
  table : Option Nat := none

namespace IndexedSet

open ResultSet (Use)

/-- Sets the column names of the rows to come, and writes their table. -/
def setColumns (catalogue : Catalogue) (set : IndexedSet)
    (columns : List String) : IndexedSet × Catalogue :=
  ({ set with columns := some columns, table := some catalogue.length },
    catalogue ++ [.ofNames columns])

/-- Adds a row under the column names in force, with their table. -/
def addRow (set : IndexedSet) (values : List Value) : IndexedSet :=
  match set.columns, set.table with
  | some columns, some table =>
    { set with
      rows := set.rows ++ [⟨columns, values, table⟩]
      affected := set.affected + 1 }
  | _, _ => set

/-- A result set and the tables after a use. -/
def use (state : IndexedSet × Catalogue) : Use → IndexedSet × Catalogue
  | .setColumns columns => state.1.setColumns state.2 columns
  | .addRow values => (state.1.addRow values, state.2)

/-- A new result set and the tables after some uses. -/
def useAll (catalogue : Catalogue) (uses : List Use) :
    IndexedSet × Catalogue :=
  uses.foldl use ({}, catalogue)

/-- The result set without tables. -/
def plain (set : IndexedSet) : ResultSet :=
  ⟨set.columns, set.rows.map IndexedRow.plain, set.affected⟩

/-- Each row has the table of its column names, and so has the result set when
names are in force. -/
structure Sound (catalogue : Catalogue) (set : IndexedSet) : Prop where
  rows : ∀ row ∈ set.rows, row.Sound catalogue
  table : ∀ columns, set.columns = some columns →
    ∃ place, set.table = some place ∧
      catalogue[place]? = some (.ofNames columns)

variable {set : IndexedSet} {catalogue : Catalogue}
  {state : IndexedSet × Catalogue}

theorem sound_new (catalogue : Catalogue) : Sound catalogue {} where
  rows := by simp
  table := by simp

namespace Sound

/-- Names that are set have their table, and the rows keep theirs. -/
theorem setColumns (h : set.Sound catalogue) (columns : List String) :
    (set.setColumns catalogue columns).1.Sound
      (set.setColumns catalogue columns).2 where
  rows := fun row hRow => (h.rows row hRow).mono (List.prefix_append ..)
  table := by
    intro names hNames
    cases hNames
    exact ⟨catalogue.length, rfl, by simp [IndexedSet.setColumns]⟩

/-- A row is added under the names in force, with their table. -/
theorem addRow_cases (h : set.Sound catalogue) (values : List Value) :
    (set.columns = none ∧ set.addRow values = set) ∨
    ∃ row : IndexedRow, set.columns = some row.columns ∧
      set.table = some row.table ∧ row.values = values ∧
      row.Sound catalogue ∧
      set.addRow values =
        { set with
          rows := set.rows ++ [row]
          affected := set.affected + 1 } := by
  cases hColumns : set.columns with
  | none =>
      left
      exact ⟨rfl, by simp [IndexedSet.addRow, hColumns]⟩
  | some columns =>
      obtain ⟨place, hPlace, hTable⟩ := h.table columns hColumns
      right
      refine ⟨⟨columns, values, place⟩, rfl, hPlace, rfl, hTable, ?_⟩
      simp [IndexedSet.addRow, hColumns, hPlace]

theorem addRow (h : set.Sound catalogue) (values : List Value) :
    (set.addRow values).Sound catalogue := by
  obtain ⟨_, hSame⟩ | ⟨row, _, _, _, hRow, hAdded⟩ :=
    h.addRow_cases values
  · rw [hSame]
    exact h
  · rw [hAdded]
    refine ⟨fun other hOther => ?_, h.table⟩
    rcases List.mem_append.1 hOther with hOld | hNew
    · exact h.rows other hOld
    · rw [List.mem_singleton.1 hNew]
      exact hRow

theorem use (h : state.1.Sound state.2) (use : Use) :
    (IndexedSet.use state use).1.Sound (IndexedSet.use state use).2 := by
  cases use with
  | setColumns columns => exact h.setColumns columns
  | addRow values => exact h.addRow values

/-- With or without tables a use does the same. -/
theorem plain_use (h : state.1.Sound state.2) (use : Use) :
    (IndexedSet.use state use).1.plain = state.1.plain.use use := by
  cases use with
  | setColumns columns => rfl
  | addRow values =>
      obtain ⟨hNone, hSame⟩ | ⟨row, hColumns, _, rfl, _, hAdded⟩ :=
        h.addRow_cases values
      · have hPlain : state.1.plain.columns = none := hNone
        rw [IndexedSet.use, hSame]
        exact (ResultSet.addRow_of_columns_none hPlain values).symm
      · rw [IndexedSet.use, hAdded]
        simp [plain, ResultSet.use, ResultSet.addRow, hColumns]
        rfl

end Sound

theorem useAll_append (catalogue : Catalogue) (before after : List Use) :
    useAll catalogue (before ++ after) =
      after.foldl use (useAll catalogue before) :=
  List.foldl_append

/-- What holds after a use holds after all of them. -/
theorem Sound.foldl (h : state.1.Sound state.2) (uses : List Use) :
    (uses.foldl IndexedSet.use state).1.Sound
        (uses.foldl IndexedSet.use state).2 ∧
      (uses.foldl IndexedSet.use state).1.plain =
        uses.foldl ResultSet.use state.1.plain := by
  induction uses generalizing state with
  | nil => exact ⟨h, rfl⟩
  | cons first rest ih =>
      rw [List.foldl_cons, List.foldl_cons, ← h.plain_use first]
      exact ih (h.use first)

/-- After any use each row has the table of its column names. -/
theorem sound_useAll (catalogue : Catalogue) (uses : List Use) :
    (useAll catalogue uses).1.Sound (useAll catalogue uses).2 :=
  (Sound.foldl (sound_new catalogue) uses).1

theorem plain_useAll (catalogue : Catalogue) (uses : List Use) :
    (useAll catalogue uses).1.plain = uses.foldl ResultSet.use {} :=
  (Sound.foldl (sound_new catalogue) uses).2

/-- The table is the same until other names are set. -/
theorem table_foldl {uses : List Use}
    (h : ∀ use ∈ uses, use.columns? = none)
    (state : IndexedSet × Catalogue) :
    (uses.foldl use state).1.table = state.1.table := by
  induction uses generalizing state with
  | nil => rfl
  | cons first rest ih =>
      have hRest : ∀ use ∈ rest, use.columns? = none :=
        fun use hUse => h use (List.mem_cons_of_mem _ hUse)
      rw [List.foldl_cons, ih hRest]
      cases first with
      | setColumns columns => cases h _ (List.mem_cons_self ..)
      | addRow values =>
          rw [use, addRow]
          split <;> simp

/-- The names in force are those that were set last. -/
theorem columns_useAll (catalogue : Catalogue) (uses : List Use) :
    (useAll catalogue uses).1.columns = ResultSet.inForce? uses := by
  have hLast := ResultSet.columns_useAll uses {}
  rw [← plain_useAll catalogue uses] at hLast
  simpa [plain] using hLast

theorem length_rows (catalogue : Catalogue) (uses : List Use) :
    (useAll catalogue uses).1.rows.length = ResultSet.addedCount uses := by
  have hNone : ({} : ResultSet).columns = none := rfl
  have hLength := ResultSet.length_useAll uses hNone
  rw [← plain_useAll catalogue uses] at hLength
  simpa [plain] using hLength

/-- A row is the `k`-th one that was added under column names: it has the values
that it was added with, and the names and the place of the table that were in
force then. -/
def Added (catalogue : Catalogue) (uses : List Use) (k : Nat)
    (row : IndexedRow) : Prop :=
  ∃ before after, uses = before ++ .addRow row.values :: after ∧
    ResultSet.inForce? before = some row.columns ∧
    (useAll catalogue before).1.table = some row.table ∧
    ResultSet.addedCount before = k

/-- It was added earlier, or by the last use. -/
theorem added_snoc {uses : List Use} {last : Use} {k : Nat}
    {row : IndexedRow} :
    Added catalogue (uses ++ [last]) k row ↔
      Added catalogue uses k row ∨
      last = .addRow row.values ∧
        ResultSet.inForce? uses = some row.columns ∧
        (useAll catalogue uses).1.table = some row.table ∧
        ResultSet.addedCount uses = k := by
  constructor
  · rintro ⟨before, after, hSplit, hThen⟩
    rcases List.eq_nil_or_concat after with rfl | ⟨rest, other, rfl⟩
    · obtain ⟨rfl, hLast⟩ := List.append_inj' hSplit rfl
      exact Or.inr ⟨by simpa using hLast, hThen⟩
    · rw [List.concat_eq_append, ← List.cons_append, ← List.append_assoc]
        at hSplit
      exact Or.inl ⟨before, rest, (List.append_inj' hSplit rfl).1, hThen⟩
  · rintro (⟨before, after, rfl, hThen⟩ | ⟨rfl, hThen⟩)
    · exact ⟨before, after ++ [last], by simp, hThen⟩
    · exact ⟨uses, [], rfl, hThen⟩

/-- An item of a list with one more at the end. -/
theorem getElem?_concat_iff {α : Type} {items : List α} {item other : α}
    {k : Nat} :
    (items ++ [item])[k]? = some other ↔
      items[k]? = some other ∨ items.length = k ∧ item = other := by
  rw [List.getElem?_append]
  split
  · have hNe : items.length ≠ k := by omega
    simp [hNe]
  · rw [List.getElem?_singleton]
    split <;> simp_all <;> omega

/-- The rows are those that were added under column names, in order. -/
theorem getElem?_rows_iff {uses : List Use} {k : Nat} {row : IndexedRow} :
    (useAll catalogue uses).1.rows[k]? = some row ↔
      Added catalogue uses k row := by
  -- What a use adds depends on the uses before it, so they are taken off from
  -- the end.
  induction uses using List.reverseRecOn with
  | nil => simp [useAll, Added]
  | append_singleton before last ih =>
      rw [added_snoc, ← ih, useAll_append, ← length_rows catalogue before,
        ← columns_useAll catalogue before]
      cases last with
      | setColumns columns => simp [use, setColumns]
      | addRow values =>
          obtain ⟨hNone, hSame⟩ | ⟨added, hColumns, hTable, rfl, _, hAdded⟩ :=
            (sound_useAll catalogue before).addRow_cases values
          · simp [use, hSame, hNone]
          · rw [List.foldl_cons, List.foldl_nil, use, hAdded, hColumns, hTable,
              getElem?_concat_iff]
            obtain ⟨columns, values, table⟩ := row
            obtain ⟨names, items, place⟩ := added
            simp only [IndexedRow.mk.injEq, Use.addRow.injEq, Option.some.injEq]
            tauto

/-- Whatever is done with a new result set, it has as many rows as have been
added since names were first set, and they are those, in the order in which they
were added. Each of them answers as a row that is made by itself of its values
and of the names in force when it was added. The table in force is the same
until names are set, so the rows in between share it. Without tables the result
set is the one that searches. -/
theorem rows_keep_columns (catalogue : Catalogue) (uses : List Use) :
    (useAll catalogue uses).1.rows.length = ResultSet.addedCount uses ∧
    (useAll catalogue uses).1.affected = ResultSet.addedCount uses ∧
    (∀ k row, (useAll catalogue uses).1.rows[k]? = some row ↔
      Added catalogue uses k row) ∧
    (∀ row ∈ (useAll catalogue uses).1.rows, ∀ elsewhere name,
      row.answers (useAll catalogue uses).2 name =
        (IndexedRow.make elsewhere row.columns row.values).1.answers
          (IndexedRow.make elsewhere row.columns row.values).2 name) ∧
    (∀ rest, (∀ use ∈ rest, use.columns? = none) →
      (useAll catalogue (uses ++ rest)).1.table =
        (useAll catalogue uses).1.table) ∧
    (useAll catalogue uses).1.plain = uses.foldl ResultSet.use {} := by
  have hPlain := plain_useAll catalogue uses
  have hLength := length_rows catalogue uses
  have hCount : (useAll catalogue uses).1.affected =
      (useAll catalogue uses).1.rows.length := by
    have hNew : ({} : ResultSet).affected = ({} : ResultSet).rows.length := rfl
    have hAffected := ResultSet.affected_useAll uses hNew
    rw [← hPlain] at hAffected
    simpa [plain] using hAffected
  refine ⟨hLength, hCount.trans hLength, fun k row => getElem?_rows_iff, ?_,
    ?_, hPlain⟩
  · intro row hRow elsewhere name
    have hOwn := (sound_useAll catalogue uses).rows row hRow
    rw [hOwn.answers_eq, IndexedRow.answers_make]
    rfl
  · intro rest hRest
    rw [useAll_append]
    exact table_foldl hRest _

/-- A row comes before any names, one under names that differ at most in case,
and one under another name that has a value too many. -/
def renamed : List Use :=
  [.addRow [.int 0], .setColumns ["id", "ID", "id"], .addRow [.int 1, .int 2],
    .setColumns ["name"], .addRow [.text "a", .int 3]]

/-- The first row that counts still answers by its own names, the last of which
it has no value for. -/
theorem rows_keep_columns_of_renamed :
    (useAll [] renamed).1.rows.length = 2 ∧
    (useAll [] renamed).1.affected = 2 ∧
    ∃ row : IndexedRow, (useAll [] renamed).1.rows[0]? = some row ∧
      row.answers (useAll [] renamed).2 "Id" =
        (some 0, some (.int 1), .ok (.int 1)) ∧
      row.answers (useAll [] renamed).2 "id" = (some 2, none,
        .error (.mapping (.columnMissing "id" ["id", "ID", "id"]))) := by
  obtain ⟨hLength, hAffected, hRows, hAnswers, _⟩ :=
    rows_keep_columns [] renamed
  have hFirst : (useAll [] renamed).1.rows[0]? =
      some ⟨["id", "ID", "id"], [.int 1, .int 2], 0⟩ :=
    (hRows 0 _).2 ⟨[.addRow [.int 0], .setColumns ["id", "ID", "id"]],
      [.setColumns ["name"], .addRow [.text "a", .int 3]], rfl, rfl, rfl, rfl⟩
  have hMem := List.mem_of_getElem? hFirst
  exact ⟨hLength, hAffected, _, hFirst, (hAnswers _ hMem [] "Id").trans rfl,
    (hAnswers _ hMem [] "id").trans rfl⟩

end IndexedSet

end UnitOfWork

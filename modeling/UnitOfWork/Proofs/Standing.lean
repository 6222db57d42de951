import UnitOfWork.Proofs.Building
import UnitOfWork.Proofs.Tabular

/-!
# Databases that stand still

While a load asks its questions, the tables keep their rows: a query for a
table gives all of them, and a query for a value in a column those that have
an equal one there, in the order of the table. NULL is equal to nothing. This
is what a `Standing` database promises, and all that is said of a load's
results rests on it.

A connection to tables that is in no transaction makes such a database, and a
store is one as well. Less is needed for a load to end: that there are only so
many rows, and that no query is answered with others. All stores are `Settled`
in this sense, whichever rows a value finds in them.

## Main results

* `Standing.rows_all`, `Standing.rows_by`: what a load is answered;
* `Tabular.standing`, `Store.standing`, `Store.serving`: databases that stand
  still;
* `Store.settled`: databases that have only so many rows.
-/

namespace UnitOfWork

/-! ## Rows with a value -/

namespace Row

variable {row : Row} {column : String}

/-- Whether a row has a value in a column that is equal to a wanted one. NULL
is equal to nothing. -/
def has (row : Row) (column : String) (wanted : Value) : Bool :=
  match row.get? column with
  | some v => !wanted.isNull && v.equal wanted
  | none => false

/-- A row has an identifier in a column if that is its value there. -/
theorem has_toValue_iff {id : EntityId} :
    row.has column id.toValue = true ↔ row.get? column = some id.toValue := by
  unfold has
  cases row.get? column with
  | none => simp
  | some v =>
      cases id <;> cases v <;>
        simp [EntityId.toValue, Value.equal, Value.isNull]

end Row

/-! ## Answers -/

/-- A database whose tables keep their rows while questions are asked on a
connection. -/
structure Standing (σ : Type) [Driver σ] (conn : ConnId) where
  /-- The rows of a table, in order. -/
  content : String → List Row
  /-- The states of the driver in which the tables have these rows. -/
  Holds : σ → Prop
  kept : ∀ {t : σ} {c : Call}, Holds t → c.Asks →
    Holds (Driver.call conn c t).2
  all : ∀ {t : σ} {table : String} {found : ResultSet}, Holds t →
    (Driver.call conn (.query (.selectAll table) []) t).1 = .ok found →
      found.rows = content table
  by_value : ∀ {t : σ} {table column : String} {v : Value}
    {found : ResultSet}, Holds t →
    (Driver.call conn (.query (.selectBy table column) [v]) t).1 = .ok found →
      found.rows = (content table).filter (·.has column v)
  bounded : ∀ {t : σ} (table : String), Holds t →
    (content table).length ≤ Driver.extent t
  /-- A driver may fail for any reason but that of a load itself. -/
  refusal : ∀ {t : σ} {c : Call}, Holds t → c.Asks →
    (Driver.call conn c t).1 ≠ .error .endlessLoad

namespace Standing

variable [Driver σ] {conn : ConnId} {before after : Env σ}
  (db : Standing σ conn)

/-- A database as long as its driver has a property that questions keep. -/
def within (P : σ → Prop) (hKept : ∀ t c, P t → c.Asks →
    P (Driver.call conn c t).2) : Standing σ conn where
  content := db.content
  Holds t := db.Holds t ∧ P t
  kept := fun h hAsks => ⟨db.kept h.1 hAsks, hKept _ _ h.2 hAsks⟩
  all := fun h => db.all h.1
  by_value := fun h => db.by_value h.1
  bounded := fun table h => db.bounded table h.1
  refusal := fun h => db.refusal h.1

/-- Questions leave the rows. -/
theorem holds_of_asked (hHolds : db.Holds before.driver)
    (h : before.Asked conn after) : db.Holds after.driver :=
  h.driver (fun _ _ hThere hAsks => db.kept hThere hAsks) hHolds

theorem rows_all (hHolds : db.Holds before.driver) {table : String}
    {rows : List Row}
    (h : before.Answered conn ⟨.selectAll table, []⟩ rows after) :
    rows = db.content table := by
  obtain ⟨env, found, hAsked, hCall, rfl, _⟩ := h
  exact db.all (db.holds_of_asked hHolds hAsked) hCall

theorem rows_by (hHolds : db.Holds before.driver) {table column : String}
    {v : Value} {rows : List Row}
    (h : before.Answered conn ⟨.selectBy table column, [v]⟩ rows after) :
    rows = (db.content table).filter (·.has column v) := by
  obtain ⟨env, found, hAsked, hCall, rfl, _⟩ := h
  exact db.by_value (db.holds_of_asked hHolds hAsked) hCall

/-- A row that is read is one of its table. -/
theorem mem_of_read (hHolds : db.Holds before.driver) {d : Descriptor}
    {row : Row} (h : before.Read conn d row after) :
    row ∈ db.content d.table := by
  obtain ⟨plan, rows, hPlan, hRows, hMem⟩ := h
  rcases hPlan with rfl | ⟨column, v, rfl⟩
  · rw [← db.rows_all hHolds hRows]
    exact hMem
  · rw [db.rows_by hHolds hRows] at hMem
    exact (List.mem_filter.1 hMem).1

end Standing

/-- A database that has only so many rows while questions are asked on a
connection: whichever rows of a table a query asks for, it is answered with
rows that the table has. -/
structure Settled (σ : Type) [Driver σ] (conn : ConnId) where
  /-- The rows of a table. -/
  content : String → List Row
  /-- The states of the driver in which the tables have these rows. -/
  Holds : σ → Prop
  kept : ∀ {t : σ} {c : Call}, Holds t → c.Asks →
    Holds (Driver.call conn c t).2
  shown : ∀ {t : σ} {table : String} {plan : Plan} {found : ResultSet},
    Holds t → plan.Reads table →
    (Driver.call conn plan.query t).1 = .ok found →
      ∀ row ∈ found.rows, row ∈ content table
  bounded : ∀ {t : σ} (table : String), Holds t →
    (content table).length ≤ Driver.extent t
  /-- A driver may fail for any reason but that of a load itself. -/
  refusal : ∀ {t : σ} {c : Call}, Holds t → c.Asks →
    (Driver.call conn c t).1 ≠ .error .endlessLoad

namespace Settled

variable [Driver σ] {conn : ConnId} {before after : Env σ}
  (db : Settled σ conn)

theorem holds_of_asked (hHolds : db.Holds before.driver)
    (h : before.Asked conn after) : db.Holds after.driver :=
  h.driver (fun _ _ hThere hAsks => db.kept hThere hAsks) hHolds

/-- A row that is read is one of its table. -/
theorem mem_of_read (hHolds : db.Holds before.driver) {d : Descriptor}
    {row : Row} (h : before.Read conn d row after) :
    row ∈ db.content d.table := by
  obtain ⟨plan, rows, hPlan, ⟨env, found, hAsked, hCall, rfl, _⟩, hMem⟩ := h
  exact db.shown (db.holds_of_asked hHolds hAsked) hPlan hCall row hMem

end Settled

/-- A database that stands still has only so many rows. -/
def Standing.settled [Driver σ] {conn : ConnId} (db : Standing σ conn) :
    Settled σ conn where
  content := db.content
  Holds := db.Holds
  kept := db.kept
  shown := by
    rintro t table plan found hHolds (rfl | ⟨column, v, rfl⟩) hCall row hMem
    · rw [← db.all hHolds hCall]
      exact hMem
    · rw [db.by_value hHolds hCall] at hMem
      exact (List.mem_filter.1 hMem).1
  bounded := db.bounded
  refusal := db.refusal

/-! ## Tables -/

namespace Tables

variable {tables after : Tables} {table column key : String}

/-- A query for a value finds the rows that have it, in order. -/
theorem rows_selectBy {v : Value} {outcome : Outcome}
    (hRegular : tables.Regular key table)
    (h : run .exact (.selectBy table column) [v] tables =
      .ok (outcome, after)) :
    outcome.result.rows = (tables.shown table).filter (·.has column v) := by
  obtain ⟨t, hT, hRest⟩ := except_bind_eq_ok.1 h
  obtain ⟨i, hI, hRest⟩ := except_bind_eq_ok.1 hRest
  obtain ⟨_, hV, hDone⟩ := except_bind_eq_ok.1 hRest
  cases hV
  cases hDone
  have hOld := hRegular t hT
  have hPosition := Table.position_eq_ok hI
  have hFinds : ∀ row ∈ t.rows, t.finds .exact i v row =
      Row.has ⟨t.columns, row⟩ column v := by
    intro row hMem
    have hLt : i < row.length := by
      rw [hOld.full row hMem]
      exact Table.position?_lt hPosition
    rw [Table.finds_exact, Table.value, Row.has,
      Table.get?_row hOld.names, hPosition, Option.bind_some,
      List.getElem?_eq_getElem hLt]
    rfl
  have hMatching : Table.matching .exact t i v = t.rows.filter fun row =>
      Row.has ⟨t.columns, row⟩ column v :=
    List.filter_congr hFinds
  rw [rows_resultOf, shown_of_regular hOld hT]
  show (Table.matching .exact t i v).map _ = _
  rw [hMatching, List.filter_map]
  refine List.map_congr_left fun row hMem => ?_
  have hFull := hOld.full row (List.mem_filter.1 hMem).1
  rw [List.take_of_length_le (Nat.le_of_eq hFull)]

/-- No table has more rows than all of them together. -/
theorem length_rows_le {tables : Tables} {t : Table} (hMem : t ∈ tables) :
    t.rows.length ≤ tables.rowCount := by
  have hAll : ∀ (rest : Tables) (count : Nat),
      count ≤ rest.foldl (fun count t => count + t.rows.length) count ∧
        ∀ t ∈ rest, t.rows.length ≤
          rest.foldl (fun count t => count + t.rows.length) count := by
    intro rest
    induction rest with
    | nil => exact fun count => ⟨Nat.le_refl _, fun _ hMem => by cases hMem⟩
    | cons first rest ih =>
        intro count
        obtain ⟨hCount, hRest⟩ := ih (count + first.rows.length)
        refine ⟨Nat.le_trans (Nat.le_add_right ..) hCount, fun t hMem => ?_⟩
        rcases List.mem_cons.1 hMem with rfl | hLater
        · exact Nat.le_trans (Nat.le_add_left ..) hCount
        · exact hRest t hLater
  exact (hAll tables 0).2 t hMem

theorem length_shown_le (tables : Tables) (table : String) :
    (tables.shown table).length ≤ tables.rowCount := by
  rw [shown_eq]
  cases hFind : tables.find .exact table with
  | error fault => exact Nat.zero_le _
  | ok t =>
      simp only [List.length_map]
      exact length_rows_le
        (List.mem_of_find?_eq_some (find_exact_eq_ok_iff.1 hFind))

/-- The rows of a table as queries give them. -/
def rowsOf (dialect : Dialect) (tables : Tables) (table : String) : List Row :=
  match tables.find dialect table with
  | .ok t => t.rows.map fun row => ⟨t.columns, row.take t.columns.length⟩
  | .error _ => []

theorem length_rowsOf_le (dialect : Dialect) (tables : Tables)
    (table : String) : (tables.rowsOf dialect table).length ≤
      tables.rowCount := by
  unfold rowsOf find
  cases hFind : List.find? (fun t => dialect.sameTable t.name table)
    tables with
  | none => exact Nat.zero_le _
  | some t =>
      simp only [List.length_map]
      exact length_rows_le (List.mem_of_find?_eq_some hFind)

/-- Whichever rows a value finds, they are rows of the table. -/
theorem mem_rowsOf {dialect : Dialect} {plan : Plan} {outcome : Outcome}
    (hPlan : plan.Reads table)
    (h : run dialect plan.statement plan.params tables = .ok (outcome, after))
    {row : Row} (hRow : row ∈ outcome.result.rows) :
    row ∈ tables.rowsOf dialect table := by
  rcases hPlan with rfl | ⟨column, v, rfl⟩
  · obtain ⟨t, hT, hRest⟩ := except_bind_eq_ok.1 h
    cases hRest
    rw [rows_resultOf] at hRow
    rw [rowsOf, hT]
    exact hRow
  · obtain ⟨t, hT, hRest⟩ := except_bind_eq_ok.1 h
    obtain ⟨i, _, hRest⟩ := except_bind_eq_ok.1 hRest
    obtain ⟨wanted, _, hRest⟩ := except_bind_eq_ok.1 hRest
    cases hRest
    rw [rows_resultOf] at hRow
    obtain ⟨values, hValues, rfl⟩ := List.mem_map.1 hRow
    rw [rowsOf, hT]
    exact List.mem_map_of_mem (List.mem_filter.1 hValues).1

end Tables

/-- A connection that is in no transaction sees the same tables as long as it
asks questions only. -/
def Tabular.standing [Driver σ] (T : Tabular σ) (conn : ConnId)
    (tables : Tables) (hRegular : ∀ table, ∃ key, tables.Regular key table)
    (hExtent : ∀ t, T.Valid t →
      (T.view conn t).content.rowCount ≤ Driver.extent t)
    (hRefusal : ∀ t c, T.Valid t → c.Asks →
      (Driver.call conn c t).1 ≠ .error .endlessLoad) : Standing σ conn where
  content := tables.shown
  Holds t := T.Valid t ∧ T.Clean conn t ∧ (T.view conn t).content = tables
  kept := by
    intro t c ⟨hValid, hClean, hContent⟩ hAsks
    have hIdle : c.Idle := by
      cases c with
      | query statement params => exact hAsks
      | _ => cases hAsks
    have hView := Tabular.view_idle hValid hClean hIdle
    refine ⟨T.valid_call conn c hValid, ?_, ?_⟩
    · rw [Transactions.Clean, hView]
      exact hClean
    · rw [hView]
      exact hContent
  all := by
    intro t table found ⟨hValid, _, hContent⟩ hCall
    have hTells := T.tells conn (.query _ _) found hValid hCall
    obtain ⟨outcome, after, hRun, rfl⟩ := hTells rfl
    rw [hContent] at hRun
    rw [Tables.shown, hRun]
  by_value := by
    intro t table column v found ⟨hValid, _, hContent⟩ hCall
    have hTells := T.tells conn (.query _ _) found hValid hCall
    obtain ⟨outcome, after, hRun, rfl⟩ := hTells rfl
    rw [hContent] at hRun
    obtain ⟨key, hTable⟩ := hRegular table
    exact Tables.rows_selectBy hTable hRun
  bounded := by
    intro t table ⟨hValid, _, hContent⟩
    refine Nat.le_trans (tables.length_shown_le table) ?_
    rw [← hContent]
    exact hExtent t hValid
  refusal := fun ⟨hValid, _, _⟩ hAsks => hRefusal _ _ hValid hAsks

/-! ## Stores -/

namespace Store

/-- No refusal of a store is that of a load. -/
theorem report_ne {statement : Statement} {f : Store → Outcome → α}
    (r : Except StoreFault Outcome × Store) :
    (report statement f r).1 ≠ .error .endlessLoad := by
  unfold report
  split <;> nofun

theorem query_ne {store : Store} (h : store.Plain .exact) (conn : ConnId)
    {c : Call} (hAsks : c.Asks) :
    ((Store.call conn c).run store).1 ≠ .error .endlessLoad := by
  cases c with
  | query statement params =>
      rcases h.call_cases (.query statement params) with
        ⟨message, hNext, _⟩ | hNext
      · rw [call_of_failure conn hNext]
        nofun
      · rw [call_of_none conn hNext]
        simp only [perform, Step.run]
        exact report_ne _
  | _ => cases hAsks

/-- A store whose tables are regular stands still for a connection that is in
no transaction. -/
def standing (conn : ConnId) (tables : Tables)
    (hRegular : ∀ table, ∃ key, tables.Regular key table) :
    Standing Store conn :=
  tabular.standing conn tables hRegular (fun _ _ => Nat.le_refl _)
    fun _ _ hValid hAsks => query_ne hValid conn hAsks

/-- A query is answered if no fault is planned and its statement runs. -/
theorem exists_answer {store : Store} {statement : Statement}
    {params : List Value} {outcome : Outcome} {after : Tables} (conn : ConnId)
    (hFaults : store.faults = []) (hRun : store.tables.run store.dialect
      statement params = .ok (outcome, after)) :
    ∃ found, ((Store.call conn (.query statement params)).run store).1 =
      .ok found := by
  have hNone : Fault.next (Call.query statement params).text store.faults =
      (none, []) := by
    rw [hFaults]
    rfl
  have hContent : (store.view conn).begin.content = store.tables := by
    unfold Transactional.begin
    split <;> rfl
  have hDone : ({ store with faults := [] }.execute conn statement params).1 =
      .ok outcome := by
    show ((store.view conn).execute (Tables.run store.dialect statement
      params)).1 = _
    rw [Transactional.execute]
    simp only [hContent, hRun]
  refine ⟨outcome.result, ?_⟩
  rw [call_of_none conn (by rw [hNone]), hNone]
  show (report statement (fun _ o => o.result)
    ({ store with faults := [] }.execute conn statement params)).1 = _
  rw [report, hDone]

/-- No call plans a fault. -/
theorem faults_call {store : Store} (conn : ConnId) (c : Call)
    (hFaults : store.faults = []) :
    ((Store.call conn c).run store).2.faults = [] := by
  have hNone : Fault.next c.text store.faults = (none, []) := by
    rw [hFaults]
    rfl
  have hSettings := settings_perform conn none c { store with faults := [] }
  rw [call_of_none conn (by rw [hNone]), hNone]
  exact congrArg (·.2.2) hSettings

/-- A store without faults stands still as well, and stays without faults. -/
def serving (conn : ConnId) (tables : Tables)
    (hRegular : ∀ table, ∃ key, tables.Regular key table) :
    Standing Store conn :=
  (standing conn tables hRegular).within (fun store => store.faults = [])
    fun _ c hFaults _ => faults_call conn c hFaults

/-- A query leaves the tables, and tells some rows of one. -/
theorem execute_query {statement : Statement} (params : List Value)
    (conn : ConnId) (store : Store) (hQuery : statement.isQuery = true) :
    (store.execute conn statement params).2.tables = store.tables ∧
      (store.execute conn statement params).2.dialect = store.dialect ∧
      ∀ outcome, (store.execute conn statement params).1 = .ok outcome →
        store.tables.run store.dialect statement params =
          .ok (outcome, store.tables) := by
  have hContent : (store.view conn).begin.content = store.tables := by
    unfold Transactional.begin
    split <;> rfl
  simp only [execute, Transactional.execute, hContent]
  cases hRun : store.tables.run store.dialect statement params with
  | error fault => exact ⟨hContent, rfl, fun _ hOk => by cases hOk⟩
  | ok found =>
      obtain ⟨outcome, after⟩ := found
      have hSame := Tables.run_query hQuery hRun
      subst hSame
      refine ⟨rfl, rfl, fun other hOther => ?_⟩
      cases hOther
      rfl

/-- A query is stopped by a fault or runs its statement. -/
theorem call_query_cases (conn : ConnId) (store : Store)
    (statement : Statement) (params : List Value) :
    ∃ faults, (∃ message,
        (Store.call conn (.query statement params)).run store =
          (.error (stopped message (.query statement params)),
            ((onLine conn Transactional.begin).run
              { store with faults := faults }).2)) ∨
      (Store.call conn (.query statement params)).run store =
        report statement (fun _ o => o.result)
          ({ store with faults := faults }.execute conn statement params) := by
  refine ⟨(Fault.next (Call.query statement params).text store.faults).2, ?_⟩
  rw [Store.call, Step.bind_run, Step.get_run]
  simp only
  rw [Step.bind_run, Step.modify_run]
  simp only
  cases (Fault.next (Call.query statement params).text store.faults).1 with
  | none => exact Or.inr rfl
  | some effect =>
      cases effect with
      | failure message => exact Or.inl ⟨message, rfl⟩
      | affected rows => exact Or.inr rfl
      | key v => exact Or.inr rfl
      | noKey => exact Or.inr rfl

/-- Every store has only so many rows, whatever finds them and whatever goes
wrong. -/
def settled (conn : ConnId) (dialect : Dialect) (tables : Tables) :
    Settled Store conn where
  content := tables.rowsOf dialect
  Holds store := store.dialect = dialect ∧ store.tables = tables
  kept := by
    rintro store c ⟨rfl, rfl⟩ hAsks
    cases c with
    | query statement params =>
        have hCases := call_query_cases conn store statement params
        obtain ⟨faults, ⟨message, hRun⟩ | hRun⟩ := hCases
        · have hBegun : (store.view conn).begin.content = store.tables := by
            unfold Transactional.begin
            split <;> rfl
          show ((Store.call conn _).run store).2.dialect = _ ∧
            ((Store.call conn _).run store).2.tables = _
          rw [hRun]
          exact ⟨rfl, hBegun⟩
        · obtain ⟨hTables, hDialect, _⟩ := execute_query params conn
            { store with faults := faults } hAsks
          show ((Store.call conn _).run store).2.dialect = _ ∧
            ((Store.call conn _).run store).2.tables = _
          rw [hRun, snd_report]
          exact ⟨hDialect, hTables⟩
    | _ => cases hAsks
  shown := by
    rintro store table plan found ⟨rfl, rfl⟩ hPlan hCall row hRow
    have hCases := call_query_cases conn store plan.statement plan.params
    obtain ⟨faults, ⟨message, hRun⟩ | hRun⟩ := hCases
    · have hFailed := hCall.symm.trans (congrArg Prod.fst hRun)
      cases hFailed
    · obtain ⟨_, _, hTells⟩ := execute_query plan.params conn
        { store with faults := faults } hPlan.isQuery
      have hReport := hCall.symm.trans (congrArg Prod.fst hRun)
      unfold report at hReport
      split at hReport
      · rename_i outcome hOutcome
        cases hReport
        exact Tables.mem_rowsOf hPlan (hTells outcome hOutcome) hRow
      · cases hReport
  bounded := by
    rintro store table ⟨_, rfl⟩
    exact store.tables.length_rowsOf_le dialect table
  refusal := by
    rintro store c _ hAsks
    cases c with
    | query statement params =>
        have hCases := call_query_cases conn store statement params
        show ((Store.call conn _).run store).1 ≠ _
        obtain ⟨faults, ⟨message, hRun⟩ | hRun⟩ := hCases
        · rw [hRun]
          nofun
        · rw [hRun]
          exact report_ne _
    | _ => cases hAsks

end Store

end UnitOfWork

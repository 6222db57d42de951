import UnitOfWork.Proofs.Mappings
import UnitOfWork.Proofs.Transactions
import UnitOfWork.Store

/-!
# A store is a driver with transactions

The calls on a store of tables do to the connection that they are made on what
`Transactional.Answers` asks for, as long as its plan of faults only makes
calls fail and leaves the switching of auto-commit alone.

## Main results

* `Fault.next_sound`: a fault that acts was planned for the call;
* `Store.transactions`: the store as a driver with transactions.
-/

namespace UnitOfWork

/-! ## Plans of faults -/

namespace Fault

/-- A fault that acts on a call is one of the plan, and concerns the call. -/
theorem next_sound {text : String} {faults : List Fault} {effect : FaultEffect}
    (h : (next text faults).1 = some effect) :
    ∃ f ∈ faults, f.concerns text = true ∧ f.effect = effect := by
  induction faults with
  | nil => cases h
  | cons f rest ih =>
      unfold next at h
      by_cases hConcerns : f.concerns text = true
      · rw [if_pos hConcerns] at h
        by_cases hSkip : f.skip = 0
        · rw [if_pos hSkip] at h
          exact ⟨f, List.mem_cons_self .., hConcerns, Option.some.inj h⟩
        · rw [if_neg hSkip] at h
          obtain ⟨g, hMem, hG⟩ := ih h
          exact ⟨g, List.mem_cons_of_mem _ hMem, hG⟩
      · rw [if_neg hConcerns] at h
        obtain ⟨g, hMem, hG⟩ := ih h
        exact ⟨g, List.mem_cons_of_mem _ hMem, hG⟩

/-- The faults that are left are those of the plan, with the same starts and
effects. -/
theorem next_kept {text : String} {faults : List Fault} {f : Fault}
    (h : f ∈ (next text faults).2) :
    ∃ g ∈ faults, f.start = g.start ∧ f.effect = g.effect := by
  induction faults with
  | nil => cases h
  | cons g rest ih =>
      have hRest : f ∈ (next text rest).2 → ∃ g' ∈ g :: rest,
          f.start = g'.start ∧ f.effect = g'.effect := by
        intro hMem
        obtain ⟨g', hMem', hSame⟩ := ih hMem
        exact ⟨g', List.mem_cons_of_mem _ hMem', hSame⟩
      unfold next at h
      by_cases hConcerns : g.concerns text = true
      · rw [if_pos hConcerns] at h
        by_cases hSkip : g.skip = 0
        · rw [if_pos hSkip] at h
          rcases List.mem_cons.1 h with rfl | hMem
          · exact ⟨g, List.mem_cons_self .., rfl, rfl⟩
          · exact ⟨f, List.mem_cons_of_mem _ hMem, rfl, rfl⟩
        · rw [if_neg hSkip] at h
          rcases List.mem_cons.1 h with rfl | hMem
          · exact ⟨g, List.mem_cons_self .., rfl, rfl⟩
          · exact hRest hMem
      · rw [if_neg hConcerns] at h
        rcases List.mem_cons.1 h with rfl | hMem
        · exact ⟨f, List.mem_cons_self .., rfl, rfl⟩
        · exact hRest hMem

/-- A fault that makes calls fail, but none that switches auto-commit. -/
structure Plain (f : Fault) : Prop where
  fails : ∃ message, f.effect = .failure message
  on : f.start.toList.isPrefixOf "AUTOCOMMIT ON".toList = false
  off : f.start.toList.isPrefixOf "AUTOCOMMIT OFF".toList = false

end Fault

namespace Store

variable (conn : ConnId)

/-! ## What connections see -/

/-- A store of a dialect without an engine of its own, whose faults are
plain. -/
structure Plain (dialect : Dialect) (store : Store) : Prop where
  dialect : store.dialect = dialect
  noEngine : store.hasEngine = false
  faults : ∀ f ∈ store.faults, f.Plain

@[simp] theorem view_update (store : Store) (t : Transactional Tables) :
    (store.update conn t).view conn = t := by
  simp [view, update, line, setLine]

@[simp] theorem view_remember (store : Store) (statement : Statement)
    (r : Except StoreFault Outcome) :
    (store.setLine conn ((store.line conn).remember statement r)).view conn =
      store.view conn := by
  have hSaved : ((store.line conn).remember statement r).saved =
      (store.line conn).saved := by
    unfold Line.remember
    split <;> (try split) <;> rfl
  have hAutoCommit : ((store.line conn).remember statement r).autoCommit =
      (store.line conn).autoCommit := by
    unfold Line.remember
    split <;> (try split) <;> rfl
  simp only [view, line_setLine, hSaved, hAutoCommit]
  rfl

/-- Running a statement is running it on what the connection sees. -/
theorem view_execute (store : Store) (statement : Statement)
    (params : List Value) :
    (store.execute conn statement params).1 =
        ((store.view conn).execute
          (Tables.run store.dialect statement params)).1 ∧
      (store.execute conn statement params).2.view conn =
        ((store.view conn).execute
          (Tables.run store.dialect statement params)).2 := by
  refine ⟨rfl, ?_⟩
  simp [execute]

/-! ## Calls -/

/-- A call that a fault stops fails. -/
theorem call_of_failure {store : Store} {c : Call} {message : String}
    (h : (Fault.next c.text store.faults).1 = some (.failure message)) :
    (Store.call conn c).run store =
      (.error (stopped message c), ((performStopped conn c).run
        { store with faults := (Fault.next c.text store.faults).2 }).2) := by
  rw [Store.call, Step.bind_run, Step.get_run]
  simp only
  rw [Step.bind_run, Step.modify_run]
  simp only [h]
  rw [Step.bind_run]
  cases c <;> rfl

/-- A call that no fault is planned for is carried out. -/
theorem call_of_none {store : Store} {c : Call}
    (h : (Fault.next c.text store.faults).1 = none) :
    (Store.call conn c).run store = (perform conn none c).run
      { store with faults := (Fault.next c.text store.faults).2 } := by
  rw [Store.call, Step.bind_run, Step.get_run]
  simp only
  rw [Step.bind_run, Step.modify_run]
  simp only [h]

/-- What a store is besides its tables and connections. -/
def settings (store : Store) : Dialect × Bool × List Fault :=
  (store.dialect, store.hasEngine, store.faults)

/-- A write leaves what running its statement leaves. -/
theorem snd_executeWrite (store : Store) (statement : Statement)
    (params : List Value) :
    (store.executeWrite conn statement params).2 =
      (store.execute conn statement params).2 := by
  simp only [executeWrite]
  cases (store.execute conn statement params).1 with
  | error fault => rfl
  | ok outcome =>
      cases statement.isQuery with
      | false => rfl
      | true =>
          simp only [Bool.not_true, Bool.false_eq_true, if_false]
          cases outcome.result.rows.isEmpty <;> rfl

theorem snd_report {α : Type} (statement : Statement)
    (f : Store → Outcome → α) (r : Except StoreFault Outcome × Store) :
    (report statement f r).2 = r.2 := by
  unfold report
  split <;> rfl

/-- Calls concern tables and connections only. -/
theorem settings_perform (effect : Option FaultEffect) (c : Call)
    (store : Store) :
    ((perform conn effect c).run store).2.settings = store.settings := by
  cases c with
  | query statement params =>
      simp only [perform, Step.run, snd_report]
      rfl
  | execute statement params =>
      simp only [perform, Step.run, snd_report, snd_executeWrite]
      rfl
  | insert statement params =>
      simp only [perform, Step.run, snd_report, snd_executeWrite]
      rfl
  | _ => rfl

theorem settings_performStopped (c : Call) (store : Store) :
    ((performStopped conn c).run store).2.settings = store.settings := by
  cases c <;> rfl

theorem Plain.of_settings {dialect : Dialect} {store after : Store}
    (h : store.Plain dialect) (hSettings : after.settings = store.settings) :
    after.Plain dialect := by
  obtain ⟨hDialect, hEngine, hFaults⟩ :
      after.dialect = store.dialect ∧ after.hasEngine = store.hasEngine ∧
        after.faults = store.faults := by
    simpa [settings] using hSettings
  exact ⟨hDialect.trans h.dialect, hEngine.trans h.noEngine, by
    rw [hFaults]
    exact h.faults⟩

/-- What is left of a plan is as plain as the plan. -/
theorem Plain.next {dialect : Dialect} {store : Store}
    (h : store.Plain dialect) (text : String) :
    Plain dialect { store with faults := (Fault.next text store.faults).2 } where
  dialect := h.dialect
  noEngine := h.noEngine
  faults := by
    intro f hMem
    obtain ⟨g, hG, hStart, hEffect⟩ := Fault.next_kept hMem
    obtain ⟨⟨message, hFails⟩, hOn, hOff⟩ := h.faults g hG
    exact ⟨⟨message, hEffect.trans hFails⟩, hStart ▸ hOn, hStart ▸ hOff⟩

/-- In a plain store a call is stopped by a fault or carried out. -/
theorem Plain.call_cases {dialect : Dialect} {store : Store}
    (h : store.Plain dialect) (c : Call) :
    (∃ message, (Fault.next c.text store.faults).1 =
        some (.failure message) ∧ ∀ on, c ≠ .setAutoCommit on) ∨
      (Fault.next c.text store.faults).1 = none := by
  cases hNext : (Fault.next c.text store.faults).1 with
  | none => exact Or.inr rfl
  | some effect =>
      obtain ⟨f, hMem, hConcerns, rfl⟩ := Fault.next_sound hNext
      obtain ⟨⟨message, hFails⟩, hOn, hOff⟩ := h.faults f hMem
      refine Or.inl ⟨message, by rw [hFails], ?_⟩
      rintro on rfl
      cases on with
      | true =>
          rw [Fault.concerns, Call.text, hOn, Bool.and_false] at hConcerns
          cases hConcerns
      | false =>
          rw [Fault.concerns, Call.text, hOff, Bool.and_false] at hConcerns
          cases hConcerns

theorem Plain.call {dialect : Dialect} {store : Store}
    (h : store.Plain dialect) (c : Call) :
    Plain dialect ((Store.call conn c).run store).2 := by
  rcases h.call_cases c with ⟨message, hNext, _⟩ | hNext
  · rw [call_of_failure conn hNext]
    exact (h.next c.text).of_settings (settings_performStopped ..)
  · rw [call_of_none conn hNext]
    exact (h.next c.text).of_settings (settings_perform ..)

/-! ## What calls do -/

@[simp] theorem view_onLine (store : Store)
    (f : Transactional Tables → Transactional Tables) :
    ((onLine conn f).run store).2.view conn = f (store.view conn) :=
  view_update ..

/-- A connection that is hung up has lost its transaction. -/
theorem view_hangUp (store : Store) :
    ((hangUp conn).run store).2.view conn =
      ⟨(store.view conn).committed, none, true⟩ := by
  have hLine : ((hangUp conn).run store).2.line conn = {} := by
    simp [hangUp, Step.bind_run, onLine, Step.modify_run, line]
  simp only [view, hLine]
  rfl

/-- A call that is stopped leaves what the connection sees, or opens its
transaction; if the connection was to be closed, it is closed. -/
theorem answers_performStopped {run : Statement → List Value → Tables →
    Except StoreFault (Outcome × Tables)} (store : Store) {c : Call}
    (e : Error) (hSwitch : ∀ on, c ≠ .setAutoCommit on) :
    Transactional.Answers run (store.view conn)
      (((performStopped conn c).run store).2.view conn) c (.error e) := by
  cases c with
  | connect => trivial
  | query statement params => exact Or.inr (Or.inl (view_onLine ..))
  | execute statement params => exact Or.inr (Or.inl (view_onLine ..))
  | insert statement params => exact Or.inr (Or.inl (view_onLine ..))
  | setAutoCommit on => exact absurd rfl (hSwitch on)
  | commit => exact Or.inl rfl
  | rollback => exact Or.inl rfl
  | close =>
      have hView : ((performStopped conn .close).run store).2.view conn =
          ⟨(store.view conn).committed, none, true⟩ := view_hangUp conn store
      rw [hView]
      exact ⟨rfl, rfl⟩

/-- A query leaves what the connection sees, but for a transaction that it
opens. -/
theorem view_query (store : Store) {statement : Statement}
    (hQuery : statement.isQuery = true) (params : List Value) :
    (store.execute conn statement params).2.view conn =
      (store.view conn).begin := by
  rw [(view_execute conn store statement params).2]
  simp only [Transactional.execute]
  cases hRun : Tables.run store.dialect statement params
    (store.view conn).begin.content with
  | error fault => rfl
  | ok result =>
      have hSame := Tables.run_query hQuery hRun
      simp only [hSame]

/-- What running a statement leaves: what it makes of the contents, or the
transaction that it opened. -/
theorem view_executeWrite (store : Store) {statement : Statement}
    (hQuery : statement.isQuery = false) (params : List Value) :
    match (store.executeWrite conn statement params).1 with
    | .ok outcome => (store.view conn).execute
        (Tables.run store.dialect statement params) = (.ok outcome,
          (store.executeWrite conn statement params).2.view conn)
    | .error _ => (store.executeWrite conn statement params).2.view conn =
        (store.view conn).begin := by
  obtain ⟨hResult, hView⟩ := view_execute conn store statement params
  have hWrite : (store.executeWrite conn statement params).1 =
      (store.execute conn statement params).1 := by
    simp only [executeWrite, hQuery, Bool.not_false, if_true]
    cases hRun : (store.execute conn statement params).1 <;> exact hRun
  rw [snd_executeWrite, hWrite, hView, hResult]
  simp only [Transactional.execute]
  cases Tables.run store.dialect statement params
    (store.view conn).begin.content <;> rfl

/-- A write that is carried out answers as it should. -/
theorem answers_report {α : Type} (store : Store) (statement : Statement)
    (params : List Value) (f : Store → Outcome → α) :
    let answer := report statement f
      (store.executeWrite conn statement params)
    match answer.1 with
    | .ok _ => statement.isQuery = false → ∃ outcome,
      (store.view conn).execute (Tables.run store.dialect statement params) =
        (.ok outcome, answer.2.view conn)
    | .error _ => (store.view conn).Retains (answer.2.view conn) := by
  intro answer
  have hAnswer : answer.2 = (store.executeWrite conn statement params).2 :=
    snd_report ..
  cases hQuery : statement.isQuery with
  | false =>
      have hWrite := view_executeWrite conn store hQuery params
      rw [hAnswer]
      simp only [answer, report]
      cases hRun : (store.executeWrite conn statement params).1 with
      | ok outcome =>
          rw [hRun] at hWrite
          exact fun _ => ⟨outcome, hWrite⟩
      | error fault =>
          rw [hRun] at hWrite
          exact Or.inr (Or.inl hWrite)
  | true =>
      have hView := view_query conn store hQuery params
      rw [hAnswer, snd_executeWrite, hView]
      cases answer.1 with
      | ok _ => exact fun h => by cases h
      | error _ => exact Or.inr (Or.inl rfl)

/-- A call that is carried out answers as it should. -/
theorem answers_perform (store : Store) (c : Call) :
    Transactional.Answers (Tables.run store.dialect) (store.view conn)
      (((perform conn none c).run store).2.view conn) c
      ((perform conn none c).run store).1 := by
  cases c with
  | connect => trivial
  | query statement params =>
      obtain ⟨hResult, hView⟩ := view_execute conn store statement params
      simp only [perform, Step.run, report]
      cases hRun : (store.execute conn statement params).1 with
      | ok _ => exact fun hQuery => Or.inr (view_query conn store hQuery params)
      | error fault =>
          rw [hRun] at hResult
          refine Or.inr (Or.inl ?_)
          rw [hView]
          simp only [Transactional.execute] at hResult ⊢
          split at hResult
          · cases hResult
          · rfl
  | execute statement params =>
      have hAnswer := answers_report conn store statement params
        fun _ o => reportAffected none o.affected
      simp only [perform, Step.run]
      generalize report statement (fun _ o => reportAffected none o.affected)
        (store.executeWrite conn statement params) = answer at hAnswer ⊢
      obtain ⟨_ | _, after⟩ := answer <;> exact hAnswer
  | insert statement params =>
      have hAnswer := answers_report conn store statement params
        fun store o => (reportAffected none o.affected,
          reportKey none (store.reportedKey conn o))
      simp only [perform, Step.run]
      generalize report statement (fun store o => (reportAffected none
        o.affected, reportKey none (store.reportedKey conn o)))
        (store.executeWrite conn statement params) = answer at hAnswer ⊢
      obtain ⟨_ | _, after⟩ := answer <;> exact hAnswer
  | setAutoCommit on => exact view_onLine ..
  | commit => exact view_onLine ..
  | rollback => exact view_onLine ..
  | close =>
      have hView : ((perform conn none .close).run store).2.view conn =
          ⟨(store.view conn).committed, none, true⟩ := view_hangUp conn store
      rw [hView]
      exact ⟨rfl, rfl⟩

/-- A store of a dialect as a driver with transactions over its tables. -/
def transactions (dialect : Dialect) : Transactions Store Tables where
  Valid store := store.Plain dialect
  view conn store := store.view conn
  run := Tables.run dialect
  valid_call conn c h := h.call conn c
  answers := by
    intro store conn c h
    show Transactional.Answers _ _ (((Store.call conn c).run store).2.view conn)
      c ((Store.call conn c).run store).1
    rcases h.call_cases c with ⟨message, hNext, hSwitch⟩ | hNext
    · rw [call_of_failure conn hNext]
      exact answers_performStopped conn { store with
        faults := (Fault.next c.text store.faults).2 } _ hSwitch
    · have hAnswers := answers_perform conn { store with
        faults := (Fault.next c.text store.faults).2 } c
      rw [call_of_none conn hNext]
      rw [← h.dialect]
      exact hAnswers

end Store

/-! ## A store of notes -/

namespace Notes

/-- Notes with a number and a title. -/
def schema : Schema :=
  [("Note", [.table "notes", .identifier "id" ⟨.int64, false⟩ false,
    .column "title" ⟨.text, false⟩])]

def persister : Persister := ⟨schema, false⟩

def number : Column := ⟨"id", "id", .identifier ⟨.int64, false⟩ false⟩

def title : Column := ⟨"title", "title", .scalar ⟨.text, false⟩⟩

theorem descriptor_schema {type : String} {d : Descriptor}
    (h : schema.descriptor type = .ok d) :
    type = "Note" ∧
      d = ⟨"Note", "notes", [.column number, .column title], number⟩ := by
  by_cases hNote : type = "Note"
  · subst hNote
    cases h
    exact ⟨rfl, rfl⟩
  · rw [Schema.descriptor, Schema.mapping, schema, Assoc.lookup_cons,
      if_neg (Ne.symm hNote)] at h
    cases h

theorem identifierAlone_schema : Schema.IdentifierAlone schema := by
  intro type d hD m hMem hField
  obtain ⟨_, rfl⟩ := descriptor_schema hD
  rcases List.mem_cons.1 hMem with rfl | hLast
  · rfl
  · cases List.mem_singleton.1 hLast
    exact absurd hField (by decide)

def note (id : Int) (title : String) : Instance :=
  ⟨"Note", [("id", .scalar (.int id)), ("title", .scalar (.text title))], .free⟩

/-- A store whose notes have distinct numbers. -/
def store (rows : List (List Value)) : Store where
  dialect := .exact
  tables := [{ name := "notes", columns := ["id", "title"], rows := rows
               unique := ["id"] }]

/-- A session on the one connection to a store of notes, and the notes that
exist as instances. -/
def scope (rows : List (List Value)) (notes : List Instance)
    (session : Session) : Scope Store where
  backend := ⟨{ driver := store rows, heap := ⟨notes⟩ },
    { size := 1, idle := [], leased := [0] }⟩
  session := { session with connection := some 0 }

theorem plain_store (rows : List (List Value)) :
    (store rows).Plain .exact where
  dialect := rfl
  noEngine := rfl
  faults := fun _ hMem => by cases hMem

theorem obtains_scope {rows : List (List Value)} {notes : List Instance}
    {session : Session} {conn : ConnId} {pool : Pool}
    (h : (scope rows notes session).Obtains conn pool) : conn = 0 := by
  cases h with
  | held hHeld => exact (Option.some.inj hHeld).symm
  | leased hNone _ => cases hNone

end Notes

/-! ## A store of memos -/

namespace Memos

/-- Memos with a title, numbered by the store. -/
def schema : Schema :=
  [("Memo", [.table "memos", .identifier "id" ⟨.int64, false⟩ true,
    .column "title" ⟨.text, false⟩])]

def persister : Persister := ⟨schema, false⟩

/-- A memo that may have a number yet. -/
def memo (id : Value) (title : String) : Instance :=
  ⟨"Memo", [("id", .scalar id), ("title", .scalar (.text title))], .free⟩

/-- A store whose memos have distinct titles, and each the number after the
largest. -/
def store (rows : List (List Value)) : Store where
  dialect := .exact
  tables := [{ name := "memos", columns := ["id", "title"], rows := rows
               numbered := some ("id", .afterLargest), unique := ["title"] }]

/-- A session on the one connection to a store of memos, and the memos that
exist as instances. -/
def scope (rows : List (List Value)) (memos : List Instance)
    (session : Session) : Scope Store where
  backend := ⟨{ driver := store rows, heap := ⟨memos⟩ },
    { size := 1, idle := [], leased := [0] }⟩
  session := { session with connection := some 0 }

end Memos

/-! ## A store of nodes -/

namespace Nodes

def number : Column := ⟨"id", "id", .identifier ⟨.int64, false⟩ false⟩

def title : Column := ⟨"title", "title", .scalar ⟨.text, false⟩⟩

def parent : Column := ⟨"parent", "parent_id", .join .manyToOne "Node"⟩

def children (fetch : Fetch) : CollectionField :=
  ⟨"children", "Node", "parent", fetch, false⟩

/-- Nodes with a number and a title; each knows its parent, and its children as
the nodes that it is the parent of. -/
def schema (fetch : Fetch) : Schema :=
  [("Node", [.table "nodes", .identifier "id" ⟨.int64, false⟩ false,
    .column "title" ⟨.text, false⟩, .toOne .manyToOne "parent" "Node",
    .toMany "children" "Node" "parent" fetch false])]

def persister (fetch : Fetch) : Persister := ⟨schema fetch, false⟩

def store (rows : List (List Value)) : Store where
  dialect := .exact
  tables := [{ name := "nodes", columns := ["id", "title", "parent_id"]
               rows := rows }]

end Nodes

/-! ## A store of branches -/

namespace Branches

/-- Branches with a name, numbered by the store; each knows the one that it
grows on. -/
def schema : Schema :=
  [("Branch", [.table "branches", .identifier "id" ⟨.int64, true⟩ true,
    .column "name" ⟨.text, false⟩, .toOne .manyToOne "stem" "Branch"])]

def persister : Persister := ⟨schema, false⟩

def number : Column := ⟨"id", "id", .identifier ⟨.int64, true⟩ true⟩

def name : Column := ⟨"name", "name", .scalar ⟨.text, false⟩⟩

def stem : Column := ⟨"stem", "stem_id", .join .manyToOne "Branch"⟩

theorem descriptor_schema {type : String} {d : Descriptor}
    (h : schema.descriptor type = .ok d) :
    type = "Branch" ∧ d = ⟨"Branch", "branches",
      [.column number, .column name, .column stem], number⟩ := by
  by_cases hBranch : type = "Branch"
  · subst hBranch
    cases h
    exact ⟨rfl, rfl⟩
  · rw [Schema.descriptor, Schema.mapping, schema, Assoc.lookup_cons,
      if_neg (Ne.symm hBranch)] at h
    cases h

theorem identifierAlone_schema : Schema.IdentifierAlone schema := by
  intro type d hD m hMem hField
  obtain ⟨_, rfl⟩ := descriptor_schema hD
  simp only [List.mem_cons, List.not_mem_nil, or_false] at hMem
  rcases hMem with rfl | rfl | rfl
  · rfl
  · exact absurd hField (by decide)
  · exact absurd hField (by decide)

def branch (id : Value) (name : String) (stem : Option Ref) : Instance :=
  ⟨"Branch", [("id", .scalar id), ("name", .scalar (.text name)),
    ("stem", .toOne stem)], .free⟩

/-- A store that numbers its branches. -/
def store (rows : List (List Value)) : Store where
  dialect := .exact
  tables := [{ name := "branches", columns := ["id", "name", "stem_id"]
               rows := rows, numbered := some ("id", .afterLargest) }]

end Branches

/-! ## A store of samples -/

namespace Samples

/-- Samples with a number and a reading. -/
def schema : Schema :=
  [("Sample", [.table "samples", .identifier "id" ⟨.int64, false⟩ false,
    .column "reading" ⟨.float64, false⟩])]

def persister : Persister := ⟨schema, false⟩

def number : Column := ⟨"id", "id", .identifier ⟨.int64, false⟩ false⟩

def reading : Column := ⟨"reading", "reading", .scalar ⟨.float64, false⟩⟩

theorem descriptor_schema {type : String} {d : Descriptor}
    (h : schema.descriptor type = .ok d) :
    type = "Sample" ∧ d =
      ⟨"Sample", "samples", [.column number, .column reading], number⟩ := by
  by_cases hSample : type = "Sample"
  · subst hSample
    cases h
    exact ⟨rfl, rfl⟩
  · rw [Schema.descriptor, Schema.mapping, schema, Assoc.lookup_cons,
      if_neg (Ne.symm hSample)] at h
    cases h

theorem identifierAlone_schema : Schema.IdentifierAlone schema := by
  intro type d hD m hMem hField
  obtain ⟨_, rfl⟩ := descriptor_schema hD
  rcases List.mem_cons.1 hMem with rfl | hLast
  · rfl
  · cases List.mem_singleton.1 hLast
    exact absurd hField (by decide)

/-- A store of samples. -/
def store (rows : List (List Value)) : Store where
  dialect := .exact
  tables := [{ name := "samples", columns := ["id", "reading"], rows := rows }]

/-- A new session on the one connection to a store of samples. -/
def scope (rows : List (List Value)) : Scope Store where
  backend := ⟨{ driver := store rows, heap := {} },
    { size := 1, idle := [], leased := [0] }⟩
  session := { id := 0, connection := some 0 }

end Samples

end UnitOfWork

import UnitOfWork.Proofs.NewRows
import UnitOfWork.Proofs.Quiescence

/-!
# Entities survive the database

An entity that a session has inserted and committed is found by another session
on the same rows: the row records the entity, and what is found by the
identifier of a row is what the row records. What is found has the same own
fields, the identifier included that was generated, and its to-one fields refer
to entities with the same identifiers, or to none.

## Main results

* `Session.New.find_finds`: what a new session finds;
* `Session.entities_survive`: what another session finds of an entity.
-/

namespace UnitOfWork

variable {σ : Type} [Driver σ]

/-- A generated key is in no to-one field. -/
theorem Tables.Keyed.toOne {schema : Schema} {type : String} {d : Descriptor}
    {key? : Option Value} {x keyed : Instance} (h : Keyed d key? x keyed)
    (hAlone : schema.IdentifierAlone) (hD : schema.descriptor type = .ok d)
    {kind : ToOne} {field target column : String}
    (hMem : .toOne kind field target column ∈ d.relations) :
    keyed.toOne field = x.toOne field := by
  rcases h with ⟨_, rfl⟩ | ⟨_, k, _, hWith⟩
  · rfl
  · rcases Descriptor.withId_cases hWith with ⟨_, held, _, _, rfl⟩ | ⟨_, rfl⟩
    · exact hAlone.toOne_set hD hMem x _
    · rfl

namespace Session

/-- A session that is open, looks after nothing and has nothing to do. -/
structure New (s : Session) : Prop where
  isOpen : s.isOpen = true
  context : s.context = {}
  queue : s.queue = {}

namespace New

variable {p : Persister} {scope : Scope σ} {conn : ConnId} {pool : Pool}

/-- A flush of a new session does nothing. -/
theorem flush_run (h : scope.session.New) :
    (flush p).run scope = (.ok (), scope) := by
  have hRegular : scope.session.Regular := regular_of_empty h.context h.queue
  refine (flush_eq_self_iff hRegular h.isOpen h.queue ?_).2 ?_
  · intro key ref hGet
    rw [h.context] at hGet
    cases hGet
  · intro d hDirty
    have hGet := hDirty.1
    rw [h.context] at hGet
    cases hGet

/-- A new session loads what it is to find. -/
theorem find_of_load (h : scope.session.New) (hConn : scope.Obtains conn pool)
    {type : String} {id : EntityId} {found : Option Ref} {work : Work σ}
    (hLoad : ((⟨p, conn, some scope.session.id⟩ : Loader).loadById type id).run
      ⟨scope.env, {}⟩ = (.ok found, work)) :
    ∃ final, (find p type id).run scope = (.ok found, final) ∧
      final.heap = work.env.heap := by
  have hNone : scope.session.context.get? ⟨type, id⟩ = none := by
    rw [h.context]
    rfl
  have hStart : (holding conn pool scope).session.context = {} := h.context
  have hFind : (find p type id).run scope =
      (withLoader p true fun L => L.loadById type id).run scope := by
    rw [find_run, h.flush_run]
    simp only [hNone]
  rw [hFind, withLoader_run p true _ hConn]
  simp only [Step.run] at hLoad ⊢
  simp only [loadIn, hStart, if_true, Step.run]
  rw [show (holding conn pool scope).env = scope.env from rfl, hLoad]
  exact ⟨_, rfl, rfl⟩

variable {heap : Heap} {d : Descriptor} {x : Instance} {row : Row}
  {db : Standing σ conn}

/-- What a new session finds by the identifier of an entity whose row is
there. -/
theorem find_finds (h : scope.session.New) (hConn : scope.Obtains conn pool)
    (hHolds : db.Holds scope.env.driver) (hFields : p.schema.FieldsDiffer)
    (hClosed : p.schema.Closed) (hStocks : p.schema.Stocks db.content)
    (hAnswers : db.Answers p.schema)
    (hD : p.schema.descriptor d.typeName = .ok d)
    (hRow : row ∈ db.content d.table) (hRecords : heap.Records p.schema d x row)
    (hRelated : Loader.RelatedInStock p.schema db.content heap d x)
    {id : EntityId} (hId : d.entityId x = .ok (some id)) :
    ∃ y final, (find p d.typeName id).run scope = (.ok (some y), final) ∧
      heap.Resembles p.schema d x final.heap (final.heap.get y) := by
  have hStart : db.Holds (⟨scope.env, {}⟩ : Work σ).env.driver := hHolds
  obtain ⟨y, work, hLoad, hResembles⟩ := Loader.loadById_finds
    (L := ⟨p, conn, some scope.session.id⟩) hFields hClosed hStocks hAnswers hD
    hRow hRecords hRelated hId rfl hStart
  obtain ⟨final, hFind, hHeap⟩ := h.find_of_load hConn hLoad
  refine ⟨y, final, hFind, ?_⟩
  rw [hHeap]
  exact hResembles

end New

variable {T : Tabular σ} {p : Persister} {x : Ref} {d : Descriptor}
  {earlier later : List Action} {conn : ConnId} {pool : Pool}

/-- A commit that succeeds has flushed. -/
theorem exists_flush_of_done {scope after : Scope σ}
    (h : (flush p).run scope = (.ok (), after) ∨
      (commit p).run scope = (.ok (), after)) :
    ∃ flushed, (flush p).run scope = (.ok (), flushed) ∧
      after.backend = flushed.backend := by
  rcases h with hFlush | hCommit
  · exact ⟨after, hFlush, rfl⟩
  · rw [commit_run] at hCommit
    rcases hRun : (flush p).run scope with ⟨r, flushed⟩
    rw [hRun] at hCommit
    split at hCommit
    · cases hCommit
      exact ⟨flushed, rfl, rfl⟩
    · cases hCommit

end Session

/-! ## A branch that survives -/

namespace Branches

theorem apart_schema : Schema.Apart schema := by
  constructor
  · intro type d hD m hM m' hM' hField
    obtain ⟨_, rfl⟩ := descriptor_schema hD
    simp only [List.mem_cons, List.not_mem_nil, or_false] at hM hM'
    rcases hM with rfl | rfl | rfl <;> rcases hM' with rfl | rfl | rfl <;>
      first | rfl | exact absurd hField (by decide)
  · intro type type' d d' hD hD' _
    rw [(descriptor_schema hD).1, (descriptor_schema hD').1]

theorem closed_schema : Schema.Closed schema where
  targets := by
    intro type d relation hD hMem
    obtain ⟨_, rfl⟩ := descriptor_schema hD
    cases List.mem_singleton.1 hMem
    exact ⟨_, rfl⟩
  mapped := by
    intro type d c d' hD hMem _
    obtain ⟨_, rfl⟩ := descriptor_schema hD
    cases List.mem_singleton.1 hMem

/-- The descriptor of branches. -/
def descriptor : Descriptor where
  typeName := "Branch"
  table := "branches"
  members := [.column number, .column name, .column stem]
  identifier := number

theorem mem_scalarColumns {c : Column} (h : c ∈ descriptor.scalarColumns) :
    c = number ∨ c = name := by
  revert c
  decide

/-- The table of branches when its numbers have been used up to one. -/
def table (rows : List (List Value)) (counter : Int) : Table where
  name := "branches"
  columns := ["id", "name", "stem_id"]
  rows := rows
  numbered := some ("id", .afterLargest)
  counter := counter

theorem regular_table {rows : List (List Value)} {counter : Int}
    (hFull : ∀ row ∈ rows, row.length = 3) (name : String) :
    Tables.Regular "id" name [table rows counter] := by
  refine Tables.regular_singleton ⟨?_, hFull, ?_⟩ name
  · show List.Pairwise _ ["id", "name", "stem_id"]
    decide
  · intro n hN
    cases hN
    decide

/-- A branch that is in the store, a new one on it, and a session on one of the
two connections to the store. -/
def budding : Scope Store where
  backend :=
    ⟨{ driver := store [[.int 1, .text "a", .null]]
       heap := ⟨[branch (.int 1) "a" none, branch .null "b" (some 0)]⟩ },
      { size := 2, idle := [1], leased := [0] }⟩
  session := { id := 0, connection := some 0 }

/-- The new branch is to be inserted. -/
def budded : Scope Store :=
  (Operation.persist 1).perform persister
    (Operation.begin.perform persister budding)

theorem reaches_budded : Session.Reaches persister (fun _ _ => True)
    (fun _ _ => True) budding budded :=
  (Session.Reaches.start.operation .begin trivial).operation (.persist 1)
    trivial

/-- The new branch has been inserted. -/
def settled : Scope Store := ((Session.commit persister).run budded).2

/-- The rows of both branches. -/
def rows : List (List Value) :=
  [[.int 1, .text "a", .null], [.int 2, .text "b", .int 1]]

/-- A new session on the other connection. -/
def visitor : Scope Store where
  backend := settled.backend
  session := { id := 1 }

/-- What the new session sees. -/
def standing : Standing Store 1 :=
  Store.serving 1 [table rows 3]
    fun name => ⟨"id", regular_table (by decide) name⟩

theorem answers_standing : standing.Answers schema := by
  rintro type d c v t hD hC ⟨⟨hValid, _, hContent⟩, hFaults⟩
  obtain ⟨_, rfl⟩ := descriptor_schema hD
  have hTables : t.tables = [table rows 3] := hContent
  have hColumns : c = number ∨ c = name ∨ c = stem := by
    simpa [Descriptor.columns, Member.column?] using hC
  obtain ⟨outcome, after, hRun⟩ : ∃ outcome after,
      t.tables.run t.dialect (.selectBy "branches" c.name) [v] =
        .ok (outcome, after) := by
    rw [hTables, hValid.dialect]
    rcases hColumns with rfl | rfl | rfl <;> exact ⟨_, _, rfl⟩
  exact Store.exists_answer 1 hFaults hRun

theorem content_standing : standing.content "branches" =
    rows.map fun row => ⟨["id", "name", "stem_id"], row⟩ := rfl

/-- A row with a number and a name records the branch with them, if the number
of what it is on is in the row. -/
theorem records_branch {heap : Heap} {n : Int} {title : String} {v : Value}
    {held : Option Ref} (hNames : heap.Names schema "Branch" v held) :
    heap.Records schema descriptor (branch (.int n) title held)
      ⟨["id", "name", "stem_id"], [.int n, .text title, v]⟩ where
  own := by
    intro c hC
    rcases mem_scalarColumns hC with rfl | rfl
    · exact ⟨_, _, rfl, rfl, rfl⟩
    · exact ⟨_, _, rfl, rfl, rfl⟩
  identified := ⟨.int n, rfl⟩
  joins := by
    intro kind field target column hMem
    cases List.mem_singleton.1 hMem
    exact ⟨v, rfl, hNames⟩

theorem stocks_standing : Schema.Stocks schema standing.content where
  recorded := by
    intro type d hD row hRow
    obtain ⟨_, rfl⟩ := descriptor_schema hD
    rw [content_standing] at hRow
    obtain ⟨values, hValues, rfl⟩ := List.mem_map.1 hRow
    rcases List.mem_pair.1 hValues with rfl | rfl
    · have hNames : settled.heap.Names schema "Branch" .null none := rfl
      exact ⟨settled.heap, _, records_branch hNames⟩
    · have hNames : settled.heap.Names schema "Branch" (.int 1) (some 0) :=
        ⟨_, .int 1, rfl, rfl, rfl⟩
      exact ⟨settled.heap, _, records_branch hNames⟩
  distinct := by
    intro type d hD
    obtain ⟨_, rfl⟩ := descriptor_schema hD
    have hNumbers : (standing.content "branches").map (·.get? "id") =
        [some (.int 1), some (.int 2)] := rfl
    show ((standing.content "branches").map (·.get? "id")).Nodup
    rw [hNumbers]
    simp

/-- The new branch refers to the one that is in the store. -/
theorem pointsTo_budded {field target column : String} {r : Ref}
    (h : budded.heap.PointsTo schema 1 field target column r) :
    target = "Branch" ∧ r = 0 := by
  obtain ⟨d, kind, hD, hMem, hTo⟩ := h
  obtain ⟨_, rfl⟩ := descriptor_schema hD
  cases List.mem_singleton.1 hMem
  cases hTo
  exact ⟨rfl, rfl⟩

theorem places_budded : Session.Places persister budded settled.heap 1 [] where
  settled := by
    intro field target column r hPoints
    obtain ⟨_, rfl⟩ := pointsTo_budded hPoints
    decide
  known := by
    intro field target column r hPoints
    obtain ⟨rfl, rfl⟩ := pointsTo_budded hPoints
    exact ⟨_, .int 1, rfl, rfl⟩
  alone := by
    rintro key r _ (⟨e, hDirty, _⟩ | hDelete)
    · cases hDirty.1
    · cases List.mem_singleton.1 hDelete

theorem accepts_budded : descriptor.Accepts (budded.heap.get 1) where
  holds := by
    intro c hC type hType
    rcases mem_scalarColumns hC with rfl | rfl <;> cases hType <;> rfl
  equal := by
    intro c hC
    rcases mem_scalarColumns hC with rfl | rfl <;> rfl

theorem quiet_budded : Store.tabular.Quiet budded.env.driver where
  valid := ⟨rfl, rfl, fun _ hMem => by cases hMem⟩
  clean := fun _ => ⟨rfl, rfl⟩

theorem suit_budded (conn : ConnId) :
    (Store.tabular.committed conn budded.env.driver).Suit schema := by
  intro type d hD
  obtain ⟨_, rfl⟩ := descriptor_schema hD
  exact regular_table (by decide) "branches"

theorem holds_visitor : standing.Holds visitor.env.driver := by
  have hPlain : visitor.env.driver.Plain .exact :=
    ⟨rfl, rfl, fun _ hMem => by cases hMem⟩
  exact ⟨⟨hPlain, ⟨rfl, rfl⟩, rfl⟩, rfl⟩

end Branches

end UnitOfWork

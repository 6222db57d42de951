import UnitOfWork.Proofs.CommitOutcome
import UnitOfWork.Proofs.GeneratedKeys
import UnitOfWork.Proofs.Mirrors
import UnitOfWork.Proofs.Stock

/-!
# The rows of inserted entities

The row that an insert adds records its entity: it has the values of the
entity's own fields, the key that was generated, and the identifiers of the
entities that the to-one fields refer to. What else a flush does leaves the row
alone, as long as no entity that is updated or deleted has the same key. So
when the flush is committed the row is in the tables, and it records the entity
as it is then.

## Main results

* `Action.spares_rows`: an action leaves the rows alone that it misses;
* `Action.row_of_executed`: the row of an inserted entity;
* `Session.recorded_of_flushed`: it is there when a flush has succeeded.
-/

namespace UnitOfWork

variable {σ : Type} {schema : Schema} {heap last : Heap}

/-- What stands for a reference in a heap still names it when the related
entity has kept its identifier. -/
theorem Heap.names_of_standsFor {target : String} {v : Value}
    {held : Option Ref} (h : heap.StandsFor schema target v held)
    (hTargets : ∀ r, held = some r → last.get r = heap.get r ∧
      ∃ d id, schema.descriptor target = .ok d ∧
        d.entityId (last.get r) = .ok (some id)) :
    last.Names schema target v held := by
  cases held with
  | none => exact h
  | some r =>
      obtain ⟨_, d, hD, rfl⟩ := h
      obtain ⟨hSame, d', id, hD', hId⟩ := hTargets r rfl
      cases hD.symm.trans hD'
      refine ⟨d, id, hD, hId, ?_⟩
      rw [← hSame]
      exact (EntityId.toValue_of_ofValue hId).symm

/-- Writing to the table of one type keeps the rows that it is to keep there,
and the rows of other types. -/
theorem Tables.Written.mem_shown {tables after : Tables} {ownType : String}
    {own : Descriptor} (h : Written own.table tables after)
    (hApart : schema.Apart) (hOwn : schema.descriptor ownType = .ok own)
    {Kept : String → Descriptor → Row → Prop}
    (hRows : ∀ row ∈ tables.shown own.table, Kept ownType own row →
      row ∈ after.shown own.table)
    {type : String} {d : Descriptor} {row : Row}
    (hD : schema.descriptor type = .ok d) (hRow : row ∈ tables.shown d.table)
    (hKept : Kept type d row) : row ∈ after.shown d.table := by
  by_cases hTable : d.table = own.table
  · have hType := hApart.tables _ _ _ _ hD hOwn hTable
    subst hType
    cases hD.symm.trans hOwn
    exact hRows row hRow hKept
  · rw [h.others _ hTable]
    exact hRow

namespace Action

variable {tables after : Tables} {outcome : Outcome} {action : Action}
  {c : Call} {write : Statement × List Value}

/-- An action misses a row of a type: it inserts, or the row has another
identifier than its entity. -/
def Misses (schema : Schema) (heap : Heap) (action : Action) (type : String)
    (d : Descriptor) (row : Row) : Prop :=
  action.kind ≠ .insert → ∀ id, heap.Bears schema action.entity ⟨type, id⟩ →
    row.get? d.identifier.name ≠ some id.toValue

/-- What an action writes to its table leaves the rows that it misses. -/
theorem written_of_call? {own : Descriptor}
    (hOwn : schema.descriptor (heap.get action.entity).type = .ok own)
    (hPlan : action.call? schema heap = .ok (some c))
    (hBears : action.kind ≠ .insert →
      ∃ key, heap.Bears schema action.entity key)
    (hRegular : tables.Regular own.identifier.name own.table)
    (hWrite : c.write? = some write)
    (hRun : Tables.run .exact write.1 write.2 tables = .ok (outcome, after)) :
    Tables.Written own.table tables after ∧
      ∀ row ∈ tables.shown own.table,
        action.Misses schema heap (heap.get action.entity).type own row →
          row ∈ after.shown own.table := by
  obtain ⟨own', hOwn', _, hKind⟩ := call?_eq_ok hPlan
  cases hOwn.symm.trans hOwn'
  obtain ⟨kind, ref⟩ := action
  cases kind with
  | insert =>
      obtain ⟨plan, hInsertion, hCall⟩ := hKind
      obtain ⟨values, hValues, hDone⟩ := except_bind_eq_ok.1 hInsertion
      cases hDone
      cases hCall
      cases hWrite
      obtain ⟨hWritten, new, hShown, _⟩ := Tables.run_insert hRegular
        (Schema.namesDiffer_filter (Schema.descriptor_typeName hOwn) _) hRun
      refine ⟨hWritten, fun row hRow _ => ?_⟩
      rw [hShown]
      exact List.mem_append_left _ hRow
  | update =>
      obtain ⟨plan?, hUpdating, hCall⟩ := hKind
      obtain ⟨v, hV, hRest⟩ := except_bind_eq_ok.1 hUpdating
      obtain ⟨values, hValues, hDone⟩ := except_bind_eq_ok.1 hRest
      obtain ⟨key, hKey⟩ := hBears (by simp)
      have hValue := hKey.requireId_eq hOwn hV
      split at hDone
      · cases hDone
        cases hCall
      · cases hDone
        cases hCall
        cases hWrite
        rw [hValue] at hRun
        obtain ⟨hWritten, g, hShown, hG⟩ := Tables.run_updateBy hRegular
          (Schema.namesDiffer_filter (Schema.descriptor_typeName hOwn) _) hRun
        refine ⟨hWritten, fun row hRow hMisses => ?_⟩
        have hOther := hMisses (by simp) key.id (hKey.1 ▸ hKey)
        rw [hShown]
        exact List.mem_map.2 ⟨row, hRow, (hG row hRow).1 hOther⟩
  | delete =>
      obtain ⟨plan, hDeletion, hCall⟩ := hKind
      obtain ⟨v, hV, hDone⟩ := except_bind_eq_ok.1 hDeletion
      cases hDone
      cases hCall
      cases hWrite
      obtain ⟨key, hKey⟩ := hBears (by simp)
      have hValue := hKey.requireId_eq hOwn hV
      rw [hValue] at hRun
      obtain ⟨hWritten, hLeft⟩ := Tables.run_deleteBy hRegular hRun
      refine ⟨hWritten, fun row hRow hMisses => ?_⟩
      have hOther := hMisses (by simp) key.id (hKey.1 ▸ hKey)
      exact (hLeft row).2 ⟨hRow, hOther⟩

/-- An action leaves the tables regular, and the rows that it misses. -/
theorem spares_rows (hApart : schema.Apart)
    (hPlan : action.call? schema heap = .ok (some c))
    (hBears : action.kind ≠ .insert →
      ∃ key, heap.Bears schema action.entity key)
    (hSuit : tables.Suit schema) (hWrite : c.write? = some write)
    (hRun : Tables.run .exact write.1 write.2 tables = .ok (outcome, after)) :
    after.Suit schema ∧ ∀ {type d row}, schema.descriptor type = .ok d →
      row ∈ tables.shown d.table → action.Misses schema heap type d row →
      row ∈ after.shown d.table := by
  obtain ⟨own, hOwn, _, _⟩ := call?_eq_ok hPlan
  obtain ⟨hWritten, hRows⟩ :=
    written_of_call? hOwn hPlan hBears (hSuit _ own hOwn) hWrite hRun
  exact ⟨hWritten.suit hSuit, hWritten.mem_shown hApart hOwn hRows⟩

end Action

/-! ## Actions that are carried out -/

variable [Driver σ] {T : Tabular σ} {p : Persister} {conn : ConnId}

/-- The tables that a connection sees suit the schema. -/
structure Env.Suits (T : Tabular σ) (schema : Schema) (conn : ConnId)
    (env : Env σ) : Prop where
  valid : T.Valid env.driver
  suit : (T.view conn env.driver).content.Suit schema

/-- The rows of a table as a connection sees them. -/
def Env.rows (T : Tabular σ) (conn : ConnId) (env : Env σ) (table : String) :
    List Row :=
  (T.view conn env.driver).content.shown table

namespace Action

variable {action : Action} {actions : List Action} {work after : Work σ}
  {type : String} {d : Descriptor} {row : Row} {x : Ref}

/-- An action that succeeds leaves the rows alone that it misses by what its
entity is then. -/
theorem mem_rows_of_executed (hApart : p.schema.Apart)
    (h : Executed p conn action work (.ok ()) after)
    (hSuits : work.env.Suits T p.schema conn) :
    after.env.Suits T p.schema conn ∧ ∀ {type d row},
      p.schema.descriptor type = .ok d →
      row ∈ work.env.rows T conn d.table →
      action.Misses p.schema after.env.heap type d row →
      row ∈ after.env.rows T conn d.table := by
  have hBears := exists_bears_of_executed h
  cases h with
  | skipped _ _ => exact ⟨hSuits, fun _ hRow _ => hRow⟩
  | @done c answer env ctx hPlan hCall _ hKey _ =>
      obtain ⟨hEnv, hSpares⟩ := hKey.env_eq
      have hDriver : env.driver =
          (Driver.call conn c work.env.driver).2 := by
        rw [hEnv]
        rfl
      obtain ⟨write, hWrite, hQuery⟩ := write_of_call? hPlan
      obtain ⟨⟨outcome, hRun⟩, _⟩ :=
        Tabular.content_of_write hSuits.valid hWrite hQuery hCall
      rw [← hDriver] at hRun
      have hSame : action.kind ≠ .insert → env.heap = work.env.heap :=
        hSpares.same
      obtain ⟨hSuit, hRows⟩ := spares_rows hApart hPlan
        (fun hKind => hSame hKind ▸ hBears) hSuits.suit hWrite hRun
      refine ⟨⟨?_, hSuit⟩, fun hD hRow hMisses => hRows hD hRow ?_⟩
      · show T.Valid env.driver
        rw [hDriver]
        exact T.valid_call conn c hSuits.valid
      · intro hKind
        rw [← hSame hKind]
        exact hMisses hKind

/-- Nothing is inserted that was updated or deleted before. -/
def InsertsFirst (actions : List Action) : Prop :=
  actions.Pairwise fun a b => a.kind ≠ .insert → b ≠ ⟨.insert, a.entity⟩

/-- So do actions one after another. -/
theorem mem_rows_of_executeAll (hApart : p.schema.Apart)
    (hOrder : InsertsFirst actions)
    (hRun : (executeAll p conn actions).run work = (.ok (), after))
    (hSuits : work.env.Suits T p.schema conn)
    (hD : p.schema.descriptor type = .ok d)
    (hRow : row ∈ work.env.rows T conn d.table)
    (hMisses : ∀ a ∈ actions, a.Misses p.schema after.env.heap type d row) :
    row ∈ after.env.rows T conn d.table := by
  induction actions generalizing work with
  | nil =>
      cases hRun
      exact hRow
  | cons action rest ih =>
      obtain ⟨hFirst, hLater⟩ := List.pairwise_cons.1 hOrder
      obtain ⟨mid, hExecuted, hRest⟩ := executeAll_cons_cases hRun
      obtain ⟨hMid, hRows⟩ := mem_rows_of_executed hApart hExecuted hSuits
      refine ih hLater hRest hMid (hRows hD hRow ?_)
        fun a hA => hMisses a (List.mem_cons_of_mem _ hA)
      intro hKind id hBears
      have hGet : after.env.heap.get action.entity =
          mid.env.heap.get action.entity :=
        get_of_executeAll (fun a hA => hFirst a hA hKind) hRest
      exact hMisses action (List.mem_cons_self ..) hKind id
        ((Heap.bears_congr hGet).2 hBears)

/-- What is left by actions that succeed are tables that suit the schema. -/
theorem suits_of_executeAll (hApart : p.schema.Apart)
    (hRun : (executeAll p conn actions).run work = (.ok (), after))
    (hSuits : work.env.Suits T p.schema conn) :
    after.env.Suits T p.schema conn := by
  induction actions generalizing work with
  | nil =>
      cases hRun
      exact hSuits
  | cons action rest ih =>
      obtain ⟨mid, hExecuted, hRest⟩ := executeAll_cons_cases hRun
      exact ih hRest (mem_rows_of_executed hApart hExecuted hSuits).1

/-- The row of an entity that has been inserted. -/
theorem row_of_executed (hAlone : p.schema.IdentifierAlone)
    (h : Executed p conn ⟨.insert, x⟩ work (.ok ()) after)
    (hSuits : work.env.Suits T p.schema conn) (hLt : x < work.env.heap.next)
    (hD : p.schema.descriptor (work.env.heap.get x).type = .ok d)
    (hAccepts : d.Accepts (work.env.heap.get x)) :
    (∃ key?, Tables.Keyed d key? (work.env.heap.get x)
      (after.env.heap.get x)) ∧
    ∃ row ∈ after.env.rows T conn d.table,
      (∀ id, d.entityId (after.env.heap.get x) = .ok (some id) →
        Loader.Reads d row (after.env.heap.get x)) ∧
      ∀ kind field target column,
        .toOne kind field target column ∈ d.relations → ∃ v,
          work.env.heap.StandsFor p.schema target v
            ((work.env.heap.get x).toOne field) ∧
          row.get? column = some v := by
  cases h with
  | skipped hPlan _ =>
      obtain ⟨_, _, _, plan, _, hCall⟩ := call?_eq_ok hPlan
      cases hCall
  | @done c answer env ctx hPlan hCall _ hKey _ =>
      obtain ⟨hEnv, _⟩ := hKey.env_eq
      have hDriver : env.driver =
          (Driver.call conn c work.env.driver).2 := by
        rw [hEnv]
        rfl
      obtain ⟨d', hD', hKeyed⟩ := hKey.keyed rfl hLt
      cases hD.symm.trans hD'
      obtain ⟨own, hOwn, _, plan, hInsertion, hC⟩ := call?_eq_ok hPlan
      cases hD.symm.trans hOwn
      obtain ⟨values, hValues, hDone⟩ := except_bind_eq_ok.1 hInsertion
      cases hDone
      cases hC
      obtain ⟨⟨outcome, hRun⟩, _⟩ :=
        Tabular.content_of_write hSuits.valid rfl rfl hCall
      have hTells : answer.2 = outcome.key :=
        T.tells conn _ answer hSuits.valid hCall rfl outcome _ hRun
      rw [← hDriver] at hRun
      obtain ⟨_, row, hShown, hReads, hJoins⟩ := Tables.row_of_insert hAlone
        (Schema.descriptor_typeName hD) hAccepts hValues
        (hSuits.suit _ d hD) hRun
      refine ⟨⟨_, hKeyed⟩, row, ?_, ?_, ?_⟩
      · show row ∈ (T.view conn env.driver).content.shown d.table
        rw [hShown]
        exact List.mem_append_right _ (List.mem_singleton_self row)
      · intro id hId
        exact hReads _ id (hTells ▸ hKeyed) hId
      · intro kind field target column hMem
        obtain ⟨v, hV, hGet⟩ := hJoins kind field target column hMem
        exact ⟨v, Heap.standsFor_of_relatedId hV, hGet⟩

/-- From its insert on the row of an entity is there, and in the end it records
the entity. -/
theorem recorded_of_insert {rest : List Action} (hApart : p.schema.Apart)
    (hOnce : ⟨.insert, x⟩ ∉ rest) (hOrder : InsertsFirst rest)
    (hRun : (executeAll p conn (⟨.insert, x⟩ :: rest)).run work =
      (.ok (), after))
    (hSuits : work.env.Suits T p.schema conn) (hLt : x < work.env.heap.next)
    (hD : p.schema.descriptor (work.env.heap.get x).type = .ok d)
    (hAccepts : d.Accepts (work.env.heap.get x))
    (hTargets : ∀ field target column r,
      work.env.heap.PointsTo p.schema x field target column r →
        ⟨.insert, r⟩ ∉ ⟨.insert, x⟩ :: rest ∧
        ∃ d id, p.schema.descriptor target = .ok d ∧
          d.entityId (after.env.heap.get r) = .ok (some id))
    (hOthers : ∀ a ∈ rest, a.kind ≠ .insert → ∀ key,
      after.env.heap.Bears p.schema x key →
        ¬ after.env.heap.Bears p.schema a.entity key) :
    (∃ key?, Tables.Keyed d key? (work.env.heap.get x)
      (after.env.heap.get x)) ∧
    ∃ row ∈ after.env.rows T conn d.table,
      after.env.heap.Records p.schema d (after.env.heap.get x) row := by
  have hKeyed := keyed_of_executeAll hRun
  obtain ⟨mid, hInsert, hRest⟩ := executeAll_cons_cases hRun
  have hMid := (mem_rows_of_executed hApart hInsert hSuits).1
  have hGet : after.env.heap.get x = mid.env.heap.get x :=
    get_of_executeAll (fun _ hA hSame => hOnce (hSame ▸ hA)) hRest
  obtain ⟨hKey, row, hRow, hReads, hJoins⟩ :=
    row_of_executed hApart.identifierAlone hInsert hSuits hLt hD hAccepts
  rw [← hGet] at hKey hReads
  have hType : (after.env.heap.get x).type = (work.env.heap.get x).type :=
    hKeyed.type x
  obtain ⟨key, hBears⟩ := exists_bears_of_executed hInsert
  replace hBears : after.env.heap.Bears p.schema x key :=
    (Heap.bears_congr hGet).2 hBears
  obtain ⟨hOwn, hId⟩ := hBears.key_eq (hType ▸ hD)
  have hTypeName := Schema.descriptor_typeName hD
  have hRecords : after.env.heap.Records p.schema d
      (after.env.heap.get x) row := by
    refine ⟨hReads key.id hId, ⟨key.id, hId⟩, ?_⟩
    intro kind field target column hMem
    obtain ⟨v, hStands, hGetV⟩ := hJoins kind field target column hMem
    rw [hKeyed.toOne hApart.identifierAlone hD hMem]
    refine ⟨v, hGetV, Heap.names_of_standsFor hStands fun r hTo => ?_⟩
    obtain ⟨hNot, hKnown⟩ :=
      hTargets field target column r ⟨d, kind, hD, hMem, hTo⟩
    exact ⟨hKeyed.get_of_not hNot, hKnown⟩
  have hRowId := hRecords.get?_identifier hApart.fieldsDiffer hTypeName hId
  refine ⟨hKey, row, ?_, hRecords⟩
  refine mem_rows_of_executeAll hApart hOrder hRest hMid hTypeName hRow ?_
  intro a hA hKind id hOther hSame
  have hIdEq : key.id = id := EntityId.toValue_injective
    (Option.some.inj (hRowId.symm.trans hSame))
  refine hOthers a hA hKind key hBears ?_
  rw [hOwn, hIdEq]
  exact hOther

end Action

/-! ## Flushes that succeed -/

namespace Session

variable {scope after : Scope σ} {x : Ref} {d : Descriptor}
  {earlier later : List Action}

/-- What a flush has done on its connection when it is committed. -/
theorem rows_of_performed (hApart : p.schema.Apart) {inTransaction : Bool}
    {actions : List Action} {work done : Work σ}
    (h : Performed p conn inTransaction actions work (.ok ()) done)
    (hSuits : work.env.Suits T p.schema conn) :
    ∃ begun last, (Action.executeAll p conn actions).run begun =
        (.ok (), last) ∧
      begun.env.Suits T p.schema conn ∧ begun.env.heap = work.env.heap ∧
      done.env.heap = last.env.heap ∧
      ∀ table, done.env.rows T conn table = last.env.rows T conn table := by
  cases h with
  | @committed _ last hOpened hRun hCommit hClose =>
      have hBegun :
          (opened conn inTransaction work).env.Suits T p.schema conn := by
        cases inTransaction with
        | false => exact hSuits
        | true =>
            have hSame :=
              (Tabular.view_switched hSuits.valid (hOpened rfl)).1
            refine ⟨T.valid_call conn _ hSuits.valid, ?_⟩
            show (T.view conn (Driver.call conn (.setAutoCommit false)
              work.env.driver).2).content.Suit p.schema
            rw [hSame]
            exact hSuits.suit
      have hLast := Action.suits_of_executeAll hApart hRun hBegun
      refine ⟨_, last, hRun, hBegun, heap_opened .., rfl, fun table => ?_⟩
      have hValid := T.valid_call conn .commit hLast.valid
      have hSwitched := (Tabular.view_switched hValid hClose).1
      have hCommitted := Tabular.content_commit hLast.valid hCommit
      show (T.view conn (Driver.call conn (.setAutoCommit true)
        (Driver.call conn .commit last.env.driver).2).2).content.shown table =
          (T.view conn last.env.driver).content.shown table
      rw [hSwitched, hCommitted]

/-- What the insert of an entity by a flush relies on: what the to-one fields of
the entity refer to is not inserted by then or later and has an identifier in
the end, and nothing that the flush updates or deletes has the key that the
entity has in the end. -/
structure Places (p : Persister) (scope : Scope σ) (last : Heap) (x : Ref)
    (later : List Action) : Prop where
  settled : ∀ field target column r,
    scope.heap.PointsTo p.schema x field target column r →
      ⟨.insert, r⟩ ∉ ⟨.insert, x⟩ :: later
  known : ∀ field target column r,
    scope.heap.PointsTo p.schema x field target column r →
      ∃ d id, p.schema.descriptor target = .ok d ∧
        d.entityId (last.get r) = .ok (some id)
  alone : ∀ key r, last.Bears p.schema x key →
    (∃ e, IsDirty p scope e ∧ e.ref = r) ∨
      ⟨.delete, r⟩ ∈ scope.session.queue.pending →
    ¬ last.Bears p.schema r key

omit [Driver σ] in
/-- What follows the inserts of a flush concerns dirty entities and entities
that are to be deleted. -/
theorem entity_of_mem_later {dirty : List Dirty}
    (hLists : ListsDirty p scope dirty) {action : Action}
    (hMem : action ∈ scope.session.later dirty) :
    (∃ e, IsDirty p scope e ∧ e.ref = action.entity) ∨
      ⟨.delete, action.entity⟩ ∈ scope.session.queue.pending := by
  rcases List.mem_append.1 hMem with hUpdate | hDelete
  · obtain ⟨e, hE, rfl⟩ := List.mem_map.1 hUpdate
    exact Or.inl ⟨e, (hLists.mem e).1 hE, rfl⟩
  · have hKind := Queue.kind_of_mem_ofKind hDelete
    obtain ⟨kind, ref⟩ := action
    cases hKind
    exact Or.inr (List.mem_filter.1 hDelete).1

omit [Driver σ] in
theorem kind_of_mem_inserts {s : Session} {action a : Action}
    (hInserts : s.queue.ofKind .insert = earlier ++ action :: later)
    (hMem : a ∈ later) : a.kind = .insert := by
  have hAll : a ∈ s.queue.ofKind .insert := by
    rw [hInserts]
    exact List.mem_append_right _ (List.mem_cons_of_mem _ hMem)
  exact Queue.kind_of_mem_ofKind hAll

omit [Driver σ] in
/-- A flush inserts before it updates and deletes. -/
theorem insertsFirst_rest {s : Session} {action : Action} (dirty : List Dirty)
    (hInserts : s.queue.ofKind .insert = earlier ++ action :: later) :
    Action.InsertsFirst (later ++ s.later dirty) := by
  refine List.pairwise_append.2 ⟨?_, ?_, ?_⟩
  · refine List.Pairwise.imp_of_mem (fun hA _ _ hNot => ?_)
      (List.pairwise_of_forall fun _ _ => trivial)
    exact absurd (kind_of_mem_inserts hInserts hA) hNot
  · refine List.Pairwise.imp_of_mem ?_
      (List.pairwise_of_forall fun _ _ => trivial)
    rintro a b _ hB _ _ rfl
    exact kind_of_mem_later hB rfl
  · intro a hA b _ hNot
    exact absurd (kind_of_mem_inserts hInserts hA) hNot

namespace Places

variable {last mid : Heap} {dirty : List Dirty}

omit [Driver σ] in
/-- When the turn of the entity comes, what it refers to is not inserted any
more. -/
theorem targets (h : Places p scope last x later)
    (hGet : mid.get x = scope.heap.get x) (field target column : String)
    (r : Ref) (hPoints : mid.PointsTo p.schema x field target column r) :
    ⟨.insert, r⟩ ∉ ⟨.insert, x⟩ :: (later ++ scope.session.later dirty) ∧
      ∃ d id, p.schema.descriptor target = .ok d ∧
        d.entityId (last.get r) = .ok (some id) := by
  rw [Heap.PointsTo, hGet] at hPoints
  refine ⟨fun hIn => ?_, h.known field target column r hPoints⟩
  rw [← List.cons_append] at hIn
  rcases List.mem_append.1 hIn with hNow | hLater
  · exact h.settled field target column r hPoints hNow
  · exact kind_of_mem_later hLater rfl

omit [Driver σ] in
/-- Nothing that is updated or deleted after it has its key. -/
theorem others {action : Action} (h : Places p scope last x later)
    (hInserts : scope.session.queue.ofKind .insert =
      earlier ++ action :: later) (hLists : ListsDirty p scope dirty) :
    ∀ a ∈ later ++ scope.session.later dirty, a.kind ≠ .insert → ∀ key,
      last.Bears p.schema x key → ¬ last.Bears p.schema a.entity key := by
  intro a hA hKind key hBears
  rcases List.mem_append.1 hA with hInsert | hLater
  · exact absurd (kind_of_mem_inserts hInserts hInsert) hKind
  · exact h.alone key a.entity hBears (entity_of_mem_later hLists hLater)

end Places

/-- When a flush has succeeded, the row of an entity that it has inserted is
there and records the entity, which has changed by its generated key at most. -/
theorem recorded_of_flushed (hApart : p.schema.Apart)
    (hRegular : scope.session.Regular)
    (hInserts : scope.session.queue.ofKind .insert =
      earlier ++ ⟨.insert, x⟩ :: later)
    (hOnce : ⟨.insert, x⟩ ∉ earlier ++ later) (hLt : x < scope.heap.next)
    (hD : p.schema.descriptor (scope.heap.get x).type = .ok d)
    (hAccepts : d.Accepts (scope.heap.get x))
    (hQuiet : T.Quiet scope.env.driver)
    (hSuit : ∀ conn, (T.committed conn scope.env.driver).Suit p.schema)
    (hFlushed : Flushed p scope (.ok ()) after)
    (hPlaces : Places p scope after.heap x later) (other : ConnId) :
    (∃ key?, Tables.Keyed d key? (scope.heap.get x) (after.heap.get x)) ∧
    ∃ row ∈ (T.committed other after.env.driver).shown d.table,
      after.heap.Records p.schema d (after.heap.get x) row := by
  have hAfter := quiet_of_flushed hQuiet hFlushed
  cases hFlushed with
  | idle _ _ hQueue =>
      rw [hQueue] at hInserts
      have hNone := congrArg List.length hInserts
      simp [Queue.ofKind] at hNone
  | @committed dirty ctx conn pool work _ hDiff _ _ hRun =>
      have hOrdered : scope.session.ordered dirty =
          earlier ++ ⟨.insert, x⟩ :: (later ++ scope.session.later dirty) := by
        rw [ordered_eq_append, hInserts, List.append_assoc, List.cons_append]
      rw [planned_eq_ordered hRegular, hOrdered] at hRun
      have hStart : scope.env.Suits T p.schema conn := by
        refine ⟨hQuiet.valid, ?_⟩
        rw [← Tabular.committed_of_clean (hQuiet.clean conn)]
        exact hSuit conn
      obtain ⟨begun, last, hExecuted, hBegun, hHeap, hDone, hRows⟩ :=
        rows_of_performed hApart hRun hStart
      obtain ⟨mid, hEarlier, hTurn⟩ := Action.executeAll_append_ok hExecuted
      rw [List.mem_append, not_or] at hOnce
      obtain ⟨hBefore, hAfterwards⟩ := hOnce
      have hGet : mid.env.heap.get x = scope.heap.get x := by
        rw [Action.get_of_executeAll (fun a hA hSame => ?_) hEarlier, hHeap]
        · rfl
        · exact hBefore (hSame ▸ hA)
      have hAlone : ⟨.insert, x⟩ ∉ later ++ scope.session.later dirty := by
        intro hMem
        rcases List.mem_append.1 hMem with hInsert | hLater
        · exact hAfterwards hInsert
        · exact kind_of_mem_later hLater rfl
      have hNext : mid.env.heap.next = scope.heap.next :=
        (Action.keyed_of_executeAll hEarlier).next.trans
          (congrArg Heap.next hHeap)
      obtain ⟨hKey, row, hRow, hRecords⟩ := Action.recorded_of_insert hApart
        hAlone (insertsFirst_rest dirty hInserts) hTurn
        (Action.suits_of_executeAll hApart hEarlier hBegun) (hNext ▸ hLt)
        (hGet ▸ hD) (hGet ▸ hAccepts) (hDone ▸ hPlaces.targets hGet)
        (hDone ▸ hPlaces.others hInserts (listsDirty_of_diff hRegular hDiff))
      rw [hGet, ← hDone] at hKey
      rw [← hDone] at hRecords
      refine ⟨hKey, row, ?_, hRecords⟩
      rw [hAfter.committed_eq other conn,
        Tabular.committed_of_clean (hAfter.clean conn)]
      show row ∈ work.env.rows T conn d.table
      rw [hRows]
      exact hRow

end Session

end UnitOfWork

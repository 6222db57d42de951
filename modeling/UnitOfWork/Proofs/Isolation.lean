import UnitOfWork.Proofs.Graphs
import UnitOfWork.Proofs.Residents
import UnitOfWork.Proofs.Stages

/-!
# Loads apart from a session

A load apart from a session looks its entities up in a map of its own, which is
gone when the load has ended. A session loads so when it is asked for all
entities of a type, and a persister that is used without a session always does.

Such a load leaves alone what any session looks after, whether it succeeds or
fails. If it succeeds, all that its result leads to, through references and
through collections that have been read, however far and in circles, has been
made by the load itself. So none of it is resident in a session, and nothing of
it belongs to another load. Among themselves its entities are shared: there is
one for each key, which stands for each row and each reference with that key.

## Main results

* `Loader.resident_of_reachable`: what a load apart gives leads to entities of
  its own map only;
* `Find.gives`: what a load apart gives;
* `Session.next_le_of_reaches`: instances do not vanish;
* `Session.loads_apart`: all of this of sessions and of bare persisters.
-/

namespace UnitOfWork

variable {σ α : Type}

/-! ## What entities lead to -/

/-- The entities that the content of a field refers to; a collection that has
not been read refers to none. -/
def Slot.refs : Slot → List Ref
  | .toOne target => target.toList
  | .toMany (.resolved members) => members
  | _ => []

/-- An instance refers to an entity in one of its fields. -/
def Instance.RefersTo (e : Instance) (target : Ref) : Prop :=
  ∃ field slot, e.fields.lookup field = some slot ∧ target ∈ slot.refs

/-- The entities that some lead to, themselves among them. -/
inductive Heap.Reachable (heap : Heap) (refs : List Ref) : Ref → Prop
  | start {ref : Ref} (hMem : ref ∈ refs) : Reachable heap refs ref
  | step {ref target : Ref} (h : Reachable heap refs ref)
      (hTo : (heap.get ref).RefersTo target) : Reachable heap refs target

/-- What holds of some entities and of all that those refer to of which it
holds, holds of all that they lead to. -/
theorem Heap.Reachable.closed {heap : Heap} {refs : List Ref} {ref : Ref}
    {P : Ref → Prop} (h : heap.Reachable refs ref) (hStart : ∀ r ∈ refs, P r)
    (hStep : ∀ r target, P r → (heap.get r).RefersTo target → P target) :
    P ref := by
  induction h with
  | start hMem => exact hStart _ hMem
  | step _ hTo ih => exact hStep _ _ ih hTo

/-- An entity is looked after, under whatever key. -/
def Context.Resident (ctx : Context) (ref : Ref) : Prop :=
  ∃ key, ctx.get? key = some ref

namespace Instance

variable {e : Instance} {target : Ref}

theorem refersTo_of_set {field : String} {slot : Slot}
    (h : (e.set field slot).RefersTo target) :
    target ∈ slot.refs ∨ e.RefersTo target := by
  obtain ⟨other, found, hLookup, hMem⟩ := h
  by_cases hField : other = field
  · subst hField
    rw [set, Assoc.lookup_insert_self] at hLookup
    cases hLookup
    exact Or.inl hMem
  · rw [set, Assoc.lookup_insert_ne hField] at hLookup
    exact Or.inr ⟨other, found, hLookup, hMem⟩

theorem refersTo_of_fill {relations : List Relation} {slots : List Slot}
    (h : (e.fill relations slots).RefersTo target) :
    (∃ slot ∈ slots, target ∈ slot.refs) ∨ e.RefersTo target := by
  induction relations generalizing e slots with
  | nil => exact Or.inr h
  | cons r rest ih =>
      cases slots with
      | nil => exact Or.inr h
      | cons slot slots =>
          rcases ih h with ⟨later, hIn, hMem⟩ | hSet
          · exact Or.inl ⟨later, List.mem_cons_of_mem _ hIn, hMem⟩
          · exact (refersTo_of_set hSet).imp_left fun hMem =>
              ⟨slot, List.mem_cons_self .., hMem⟩

/-- A new instance refers to nothing. -/
theorem not_refersTo_blank (type : String) (members : List Member) :
    ¬ (blank type members).RefersTo target := by
  -- What is added to the fields of an instance are fields of a new one.
  suffices h : ∀ fields : List (String × Slot),
      ¬ RefersTo ⟨type, fields, .free⟩ target →
      ¬ RefersTo ⟨type, members.foldl
        (fun fields m => Assoc.insert m.field m.blank fields) fields, .free⟩
        target from h [] fun ⟨_, _, hLookup, _⟩ => by cases hLookup
  induction members with
  | nil => exact fun _ hNot => hNot
  | cons m rest ih =>
      intro fields hNot
      refine ih _ fun hTo => ?_
      have hBlank : target ∉ m.blank.refs := by
        cases m with
        | column c =>
            cases hType : c.type? <;> simp [Member.blank, hType, Slot.refs]
        | collection c => simp [Member.blank, Slot.refs]
      exact (refersTo_of_set (e := ⟨type, fields, .free⟩) hTo).elim hBlank hNot

end Instance

/-! ## What a load apart leads to -/

namespace Loader

variable {row : Row} {e : Instance} {target : Ref}

theorem not_refersTo_of_readColumns {columns : List Column} {start : Instance}
    (hNot : ¬ start.RefersTo target)
    (h : columns.foldlM (readColumn row) start = .ok e) :
    ¬ e.RefersTo target := by
  induction columns generalizing start with
  | nil =>
      cases h
      exact hNot
  | cons c rest ih =>
      rw [List.foldlM_cons] at h
      obtain ⟨next, hNext, hRest⟩ := except_bind_eq_ok.1 h
      refine ih ?_ hRest
      rcases readColumn_cases hNext with ⟨_, _, held, _, _, _, rfl⟩ | ⟨_, rfl⟩
      · exact fun hTo =>
          (Instance.refersTo_of_set hTo).elim (List.not_mem_nil) hNot
      · exact hNot

/-- What is read from a row alone refers to nothing. -/
theorem not_refersTo_of_readRow {d : Descriptor} (h : readRow d row = .ok e) :
    ¬ e.RefersTo target :=
  not_refersTo_of_readColumns (Instance.not_refersTo_blank _ _) h

theorem resident_of_mapped {d : Descriptor} {work : Work σ} {ref : Ref}
    (h : Mapped d row ref work) : work.context.Resident ref := by
  obtain ⟨_, _, _, _, hGet⟩ := h
  exact ⟨_, hGet⟩

/-- The entities of rows are looked after. -/
theorem resident_of_rows {d : Descriptor} {rows : List Row} {refs : List Ref}
    {work : Work σ} {ref : Ref}
    (h : List.Forall₂ (fun row ref => Mapped d row ref work) rows refs)
    (hMem : ref ∈ refs) : work.context.Resident ref := by
  obtain ⟨row, _, hMapped⟩ := Action.exists_of_forall₂_mem h hMem
  exact resident_of_mapped hMapped

variable [Driver σ] {L : Loader} {before after : Work σ}

theorem resident_of_related {type : String} {v : Value} {ref : Ref}
    (h : L.Related type v before after (some ref)) :
    after.context.Resident ref := by
  cases h with
  | resident _ hGet => exact ⟨_, hGet⟩
  | found _ _ _ hRef => exact resident_of_mapped hRef

theorem resident_of_content {id : EntityId} {relation : Relation} {slot : Slot}
    (h : L.Content row id before after relation slot)
    (hMem : target ∈ slot.refs) : after.context.Resident target := by
  cases h with
  | toOne _ hRelated =>
      rw [Slot.refs, Option.mem_toList] at hMem
      cases hMem
      exact resident_of_related hRelated
  | eager _ _ _ _ hMembers => exact resident_of_rows hMembers hMem
  | unread _ _ _ => cases hMem

/-- What was built refers to what is looked after. -/
theorem resident_of_built {d : Descriptor} {id : EntityId}
    (h : L.Built before after d row id e) (hTo : e.RefersTo target) :
    after.context.Resident target := by
  obtain ⟨start, slots, hRead, _, hSlots, rfl⟩ := h
  rcases Instance.refersTo_of_fill hTo with ⟨slot, hIn, hMem⟩ | hStart
  · obtain ⟨relation, _, hContent⟩ := Action.exists_of_forall₂_mem hSlots hIn
    exact resident_of_content hContent hMem
  · exact absurd hStart (not_refersTo_of_readRow hRead)

/-- What was built has the key of its row. -/
theorem bears_of_built (hAlone : L.persister.schema.IdentifierAlone)
    {d : Descriptor} {id : EntityId} {ref : Ref} (hKnows : L.Knows d)
    (h : L.Built before after d row id (after.env.heap.get ref)) :
    after.env.heap.Bears L.persister.schema ref ⟨d.typeName, id⟩ := by
  obtain ⟨start, slots, hRead, hId, _, hFill⟩ := h
  refine ⟨?_, d, hKnows, ?_⟩
  · rw [hFill, Instance.type_fill, type_of_readRow hRead]
  · have hKept : (start.fill d.relations slots).fields.lookup
        d.identifier.field = start.fields.lookup d.identifier.field :=
      Instance.lookup_fill_ne start fun r hR =>
        (hAlone.relation hKnows hR).symm
    rw [hFill, Descriptor.entityId, Descriptor.idValue, Instance.scalar, hKept]
    exact requireId_eq_ok hId

/-- Nothing was in the map of a load apart before, so all that is in it has been
built. -/
theorem built_of_resident {env : Env σ} {ref : Ref}
    (h : L.Extends NoRow NoRef ⟨env, {}⟩ after)
    (hResident : after.context.Resident ref) :
    (env.heap.next ≤ ref ∧ ref < after.env.heap.next) ∧ ∃ d row id,
      L.Knows d ∧ env.Read L.connection d row after.env ∧
        L.Built ⟨env, {}⟩ after d row id (after.env.heap.get ref) ∧
        after.context.get? ⟨d.typeName, id⟩ = some ref := by
  obtain ⟨⟨type, id⟩, hGet⟩ := hResident
  rcases h.added _ ref hGet with
    hOld | ⟨hLe, hLt, d, row, hKnows, rfl, hRow, hBuilt⟩
  · cases hOld
  · exact ⟨⟨hLe, hLt⟩, d, row, id, hKnows, hRow.resolve_left not_false,
      hBuilt, hGet⟩

/-- What the entities of a load apart lead to are entities of its own map. -/
theorem resident_of_reachable {env : Env σ} {refs : List Ref} {ref : Ref}
    (h : L.Extends NoRow NoRef ⟨env, {}⟩ after)
    (hRefs : ∀ r ∈ refs, after.context.Resident r)
    (hReach : after.env.heap.Reachable refs ref) :
    after.context.Resident ref := by
  refine hReach.closed hRefs fun r target hResident hTo => ?_
  obtain ⟨_, _, _, _, _, _, hBuilt, _⟩ := built_of_resident h hResident
  exact resident_of_built hBuilt hTo

end Loader

/-! ## Calls that load apart -/

/-- The ways to look entities up that a persister has. -/
inductive Find
  | byId (type : String) (id : EntityId)
  /-- The entity of the one row with a value in a field. -/
  | one (type field : String) (v : Value)
  | all (type : String)
  | allBy (type field : String) (v : Value)

/-- Works on a new context, which is gone afterwards. -/
def Work.apart (m : Step (Work σ) α) : Step (Env σ) α := fun env =>
  let r := m.run ⟨env, {}⟩
  (r.1, r.2.env)

/-- Where a load apart comes from: a session, or a persister that is given a
connection. -/
inductive Route
  | session
  | bare (conn : ConnId)

/-- The session that collections are later read through. -/
def Route.reader (session : Session) : Route → Option Nat
  | .session => some session.id
  | .bare _ => none

/-- The connection that is used. -/
def Route.connection (session : Session) : Route → Option ConnId
  | .session => session.connection
  | .bare conn => some conn

namespace Find

variable [Driver σ] {L : Loader}

/-- Looks entities up with a loader. -/
def load (find : Find) (L : Loader) : Step (Work σ) (List Ref) :=
  match find with
  | byId type id => do
    let found ← L.loadById type id
    pure found.toList
  | one type field v => do
    let found ← L.loadOne type field v
    pure found.toList
  | all type => L.loadAll type
  | allBy type field v => L.loadAllBy type field v

/-- Looks entities up apart from the session that is there. -/
def via (find : Find) (p : Persister) : Route → Step (Scope σ) (List Ref)
  | .session => Session.withLoader p false find.load
  | .bare conn => Session.onEnv (Work.apart (find.load ⟨p, conn, none⟩))

/-- What is found are the entities of the rows that are asked for. -/
def Found (L : Loader) (before : Work σ) (refs : List Ref) (after : Work σ) :
    Find → Prop
  | byId type id => ∃ found, refs = found.toList ∧
      L.Related type id.toValue before after found
  | all type => ∃ d rows, L.descriptor type = .ok d ∧
      before.env.Answered L.connection ⟨.selectAll d.table, []⟩ rows
        after.env ∧
      List.Forall₂ (fun row ref => Loader.Mapped d row ref after) rows refs
  | one type field v | allBy type field v => ∃ d c rows,
      L.descriptor type = .ok d ∧ d.columnFor field = .ok c ∧
      before.env.Answered L.connection ⟨.selectBy d.table c.name, [v]⟩ rows
        after.env ∧
      List.Forall₂ (fun row ref => Loader.Mapped d row ref after) rows refs

theorem load_yields (find : Find) (L : Loader) (work : Work σ) :
    L.Yields Loader.NoRef work (find.load L) fun refs after =>
      L.Extends Loader.NoRow Loader.NoRef work after ∧
        find.Found L work refs after := by
  cases find with
  | byId type id =>
      exact (Loader.loadById_yields L type id work).bind
        fun found _ ⟨hGrown, hRelated⟩ =>
          Loader.yields_pure ⟨hGrown, found, rfl, hRelated⟩
  | one type field v =>
      exact (Loader.loadOne_yields L type field v work).bind
        fun _ _ hFound => Loader.yields_pure hFound
  | all type => exact Loader.loadAll_yields L type work
  | allBy type field v => exact Loader.loadAllBy_yields L type field v work

/-- What is found is looked after. -/
theorem Found.resident {find : Find} {before after : Work σ} {refs : List Ref}
    (h : find.Found L before refs after) {ref : Ref} (hMem : ref ∈ refs) :
    after.context.Resident ref := by
  cases find with
  | byId type id =>
      obtain ⟨found, rfl, hRelated⟩ := h
      rw [Option.mem_toList] at hMem
      cases hMem
      exact Loader.resident_of_related hRelated
  | all type =>
      obtain ⟨_, _, _, _, hRefs⟩ := h
      exact Loader.resident_of_rows hRefs hMem
  | one type field v | allBy type field v =>
      obtain ⟨_, _, _, _, _, _, hRefs⟩ := h
      exact Loader.resident_of_rows hRefs hMem

/-- So is all that it leads to. -/
theorem Found.reachable {find : Find} {env : Env σ} {after : Work σ}
    {refs : List Ref} (hFound : find.Found L ⟨env, {}⟩ refs after)
    (h : L.Extends Loader.NoRow Loader.NoRef ⟨env, {}⟩ after) {ref : Ref}
    (hReach : after.env.heap.Reachable refs ref) :
    after.context.Resident ref :=
  Loader.resident_of_reachable h (fun _ hMem => hFound.resident hMem) hReach

/-! ## What such a call gives -/

/-- In a database that stands still, the entities that are found are those of
the rows that are asked for, in their order. -/
def Shows (db : Standing σ L.connection) (own : Context) (refs : List Ref) :
    Find → Prop
  | byId type id => ∃ found, refs = found.toList ∧
      Loader.Joined db {} own type id.toValue found
  | all type => ∃ d, L.descriptor type = .ok d ∧
      List.Forall₂ (own.EntityOf d) (db.content d.table) refs
  | one type field v | allBy type field v => ∃ d c,
      L.descriptor type = .ok d ∧ d.columnFor field = .ok c ∧
      List.Forall₂ (own.EntityOf d)
        ((db.content d.table).filter (·.has c.name v)) refs

/-- Rows and references with one key share one entity. -/
structure Shares (find : Find) (L : Loader) (own : Context) (before : Env σ)
    (refs : List Ref) (after : Env σ) : Prop where
  one : ∀ ref other key, after.heap.Reachable refs ref →
    after.heap.Reachable refs other →
    after.heap.Bears L.persister.schema ref key →
    after.heap.Bears L.persister.schema other key → ref = other
  rows : ∀ db : Standing σ L.connection, db.Holds before.driver →
    find.Shows db own refs
  /-- An instance shows a row, and what it refers to is in the same map. -/
  references : ∀ db : Standing σ L.connection, db.Holds before.driver →
    ∀ ref, after.heap.Reachable refs ref → ∃ key d row,
      own.get? key = some ref ∧ L.descriptor key.type = .ok d ∧
        row ∈ db.content d.table ∧
        Loader.Depicts db {} own d row key.id (after.heap.get ref)

/-- What a load apart gives that has a map of its `own`. -/
structure Gives (find : Find) (L : Loader) (own : Context) (before : Env σ)
    (refs : List Ref) (after : Env σ) : Prop where
  /-- The result is the entities of the rows that the driver answered with. -/
  found : find.Found L ⟨before, {}⟩ refs ⟨after, own⟩
  /-- All that there is to be reached was made by the load. -/
  made : ∀ ref, after.heap.Reachable refs ref →
    before.heap.next ≤ ref ∧ ref < after.heap.next
  /-- It was built from a row that the load read, its references from the same
  map that has it under the key of the row. -/
  built : ∀ ref, after.heap.Reachable refs ref → ∃ d row id, L.Knows d ∧
    before.Read L.connection d row after ∧
    L.Built ⟨before, {}⟩ ⟨after, own⟩ d row id (after.heap.get ref) ∧
    own.get? ⟨d.typeName, id⟩ = some ref
  shares : L.persister.schema.FieldsDiffer →
    find.Shares L own before refs after

section

variable {find : Find} {env : Env σ} {after : Work σ} {refs : List Ref}

theorem shows_of_found (hFields : L.persister.schema.FieldsDiffer)
    {db : Standing σ L.connection} (hHolds : db.Holds env.driver)
    (h : L.Extends Loader.NoRow Loader.NoRef ⟨env, {}⟩ after)
    (hFound : find.Found L ⟨env, {}⟩ refs after) :
    find.Shows db after.context refs := by
  have hAlone := hFields.identifierAlone
  cases find with
  | byId type id =>
      obtain ⟨found, hRefs, hRelated⟩ := hFound
      exact ⟨found, hRefs,
        Loader.joined_of_related hAlone hHolds h hRelated⟩
  | all type =>
      obtain ⟨d, rows, hD, hRows, hRefs⟩ := hFound
      refine ⟨d, hD, ?_⟩
      rw [← db.rows_all hHolds hRows]
      exact Loader.entitiesOf_of_mapped hAlone (Loader.knows_of_descriptor hD)
        hRefs
  | one type field v | allBy type field v =>
      obtain ⟨d, c, rows, hD, hC, hRows, hRefs⟩ := hFound
      refine ⟨d, c, hD, hC, ?_⟩
      rw [← db.rows_by hHolds hRows]
      exact Loader.entitiesOf_of_mapped hAlone (Loader.knows_of_descriptor hD)
        hRefs

theorem shares_of_extends (hFields : L.persister.schema.FieldsDiffer)
    (h : L.Extends Loader.NoRow Loader.NoRef ⟨env, {}⟩ after)
    (hFound : find.Found L ⟨env, {}⟩ refs after) :
    find.Shares L after.context env refs after.env := by
  have hKeyed : ∀ {ref}, after.env.heap.Reachable refs ref → ∃ key,
      after.context.get? key = some ref ∧
        after.env.heap.Bears L.persister.schema ref key := by
    intro ref hReach
    obtain ⟨_, d, _, id, hKnows, _, hBuilt, hGet⟩ :=
      Loader.built_of_resident h (hFound.reachable h hReach)
    exact ⟨⟨d.typeName, id⟩, hGet,
      Loader.bears_of_built hFields.identifierAlone hKnows hBuilt⟩
  constructor
  case one =>
    intro ref other key hRef hOther hBears hBearsOther
    obtain ⟨own, hGet, hOwn⟩ := hKeyed hRef
    obtain ⟨own', hGet', hOwn'⟩ := hKeyed hOther
    cases hOwn.unique hBears
    cases hOwn'.unique hBearsOther
    exact Option.some.inj (hGet.symm.trans hGet')
  case rows => exact fun db hHolds => shows_of_found hFields hHolds h hFound
  case references =>
    intro db hHolds ref hReach
    obtain ⟨key, hGet, _⟩ := hKeyed hReach
    rcases (Loader.graph_of_extends hFields hHolds h).added key ref hGet with
      hOld | ⟨_, d, row, hD, hRow, hDepicts⟩
    · cases hOld
    · exact ⟨key, d, row, hGet, hD, hRow, hDepicts⟩

/-- What a load apart gives that succeeds. -/
theorem gives (h : L.Extends Loader.NoRow Loader.NoRef ⟨env, {}⟩ after)
    (hFound : find.Found L ⟨env, {}⟩ refs after) :
    find.Gives L after.context env refs after.env := by
  have hBuilt := fun ref (hReach : after.env.heap.Reachable refs ref) =>
    Loader.built_of_resident h (hFound.reachable h hReach)
  exact ⟨hFound, fun ref hReach => (hBuilt ref hReach).1,
    fun ref hReach => (hBuilt ref hReach).2,
    fun hFields => shares_of_extends hFields h hFound⟩

end

end Find

namespace Session

/-! ## Instances do not vanish -/

section

variable [Driver σ] {p : Persister}

theorem keeps_next (L : Loader) (n : Nat) : L.Keeps (fun _ _ => True)
    fun work : Work σ => n ≤ work.env.heap.next where
  query := fun _ _ hI => ⟨hI, fun _ _ _ _ => trivial⟩
  register := by
    intro work d row e id _ _ _ _ _ hI
    have hNext : ((Loader.register d id e).run work).2.env.heap.next =
        work.env.heap.next + 1 := Heap.next_alloc ..
    rw [hNext]
    exact Nat.le_succ_of_le hI
  assign := by
    intro work d id ref relation slot _ _ _ hI
    have hNext : ((Loader.assign ref relation.field slot).run
        work).2.env.heap.next = work.env.heap.next := Heap.next_modify ..
    rw [hNext]
    exact hI
  inspect := fun _ hI => hI

theorem next_le_of_load {load : Loader → Step (Work σ) α}
    (hLoad : Loader.Leading load) (shared : Bool) (scope : Scope σ) :
    scope.heap.next ≤
      ((withLoader p shared load).run scope).2.heap.next := by
  have hLoaded := loaded p shared load scope fun _ _ _ =>
    hLoad (keeps_next _ scope.heap.next) (Nat.le_refl _)
  generalize (withLoader p shared load).run scope = result at hLoaded ⊢
  obtain ⟨r, after⟩ := result
  cases hLoaded with
  | unconnected _ _ => exact Nat.le_refl _
  | failed _ hI => exact hI
  | done _ hI _ _ => exact hI

theorem next_le_perform (op : Operation) (scope : Scope σ) :
    scope.heap.next ≤ (op.perform p scope).heap.next := by
  let I : Scope σ → Prop := fun s => scope.heap.next ≤ s.heap.next
  have hStart : I scope := Nat.le_refl _
  refine perform_keeps (I := I) hStart (fun _ _ => persist_keeps hStart hStart)
    (fun _ _ => remove_keeps hStart hStart) (fun _ => ?_) ?_
    (fun _ _ _ hS => hS) (fun _ _ hS => hS) ?_ ?_
  · exact Nat.le_of_eq (keyed_of_flushed (flushed p scope)).next.symm
  · exact fun shared _ hLoad s hS =>
      Nat.le_trans hS (next_le_of_load hLoad shared s)
  · exact fun _ s hS =>
      Nat.le_trans hS (Nat.le_of_eq (congrArg Heap.next
        (keeping_releaseConnection s).heap.symm))
  · exact fun _ s hS =>
      Nat.le_trans hS (Nat.le_of_eq (congrArg Heap.next
        (rolledBack s).keeping.heap.symm))

/-- On every run the instances that were there still are, as long as none
vanishes otherwise. -/
theorem next_le_of_reaches {Allowed : Scope σ → Operation → Prop}
    {start scope : Scope σ}
    (hRun : Reaches p Allowed
      (fun scope backend => scope.heap.next ≤ backend.env.heap.next)
      start scope) : start.heap.next ≤ scope.heap.next :=
  hRun.invariant (I := fun s => start.heap.next ≤ s.heap.next)
    (fun s op hS _ => Nat.le_trans hS (next_le_perform op s))
    (fun _ _ hS hMore => Nat.le_trans hS hMore) (Nat.le_refl _)

end

/-! ## Calls in the presence of a session -/

/-- A load on a context of its own is a load apart. -/
theorem loadIn_false (m : Step (Work σ) α) :
    loadIn false m = onEnv (Work.apart m) := by
  funext scope
  simp only [loadIn, onEnv, Step.zoom, Work.apart, Step.run,
    Bool.false_eq_true, if_false]
  split
  · rename_i e work hRun
    rw [hRun]
  · rename_i a work hRun
    rw [hRun]
    rfl

variable [Driver σ] {p : Persister} {find : Find} {route : Route}

/-- How a call ends that looks entities up apart from a session. -/
structure Isolated (p : Persister) (find : Find) (route : Route)
    (scope : Scope σ) (r : Except Error (List Ref)) (after : Scope σ) :
    Prop where
  /-- The session looks after the same entities with the same snapshots. -/
  context : after.session.context = scope.session.context
  /-- All instances stay what they are. -/
  next : scope.heap.next ≤ after.heap.next
  kept : ∀ ref < scope.heap.next, after.heap.get ref = scope.heap.get ref
  gives : ∀ refs, r = .ok refs → ∃ conn own,
    route.connection after.session = some conn ∧
      find.Gives ⟨p, conn, route.reader scope.session⟩ own scope.env refs
        after.env
  /-- Nothing that the result leads to is looked after by the session. -/
  foreign : Grounded scope → ∀ refs, r = .ok refs →
    ∀ ref, after.heap.Reachable refs ref →
      ¬ scope.session.context.Resident ref

theorem Isolated.of_error (p : Persister) (find : Find) (route : Route)
    (scope : Scope σ) (e : Error) :
    Isolated p find route scope (.error e) scope where
  context := rfl
  next := Nat.le_refl _
  kept := fun _ _ => rfl
  gives := nofun
  foreign := nofun

/-- A load apart on the connection of a route. -/
theorem isolated_of_apart {scope start : Scope σ} {conn : ConnId}
    (hEnv : start.env = scope.env)
    (hContext : start.session.context = scope.session.context)
    (hConn : route.connection start.session = some conn) :
    let load := find.load ⟨p, conn, route.reader scope.session⟩
    Isolated p find route scope ((onEnv (Work.apart load)).run start).1
      ((onEnv (Work.apart load)).run start).2 := by
  intro load
  obtain ⟨hSpares, hFound⟩ :=
    find.load_yields ⟨p, conn, route.reader scope.session⟩ ⟨start.env, {}⟩
  have hRun : (onEnv (Work.apart load)).run start =
      ((load.run ⟨start.env, {}⟩).1,
        start.withEnv (load.run ⟨start.env, {}⟩).2.env) := rfl
  rw [hRun]
  have hGives : ∀ refs, (load.run ⟨start.env, {}⟩).1 = .ok refs →
      find.Gives ⟨p, conn, route.reader scope.session⟩
        (load.run ⟨start.env, {}⟩).2.context scope.env refs
        (load.run ⟨start.env, {}⟩).2.env := by
    intro refs hOk
    obtain ⟨hGrown, hRefs⟩ := hFound refs hOk
    exact hEnv ▸ Find.gives hGrown hRefs
  constructor
  case context => exact hContext
  case next => exact hEnv ▸ hSpares.next
  case kept =>
    intro ref hLt
    have hKept := hSpares.kept ref (hEnv ▸ hLt) not_false
    exact hKept.trans (congrArg (·.heap.get ref) hEnv)
  case gives => exact fun refs hOk => ⟨conn, _, hConn, hGives refs hOk⟩
  case foreign =>
    rintro hGrounded refs hOk ref hReach ⟨key, hGet⟩
    have hNew := ((hGives refs hOk).made ref hReach).1
    exact Nat.not_lt_of_le hNew (hGrounded.entities key ref hGet)

theorem isolated_of_via (p : Persister) (find : Find) (route : Route)
    (scope : Scope σ) :
    Isolated p find route scope ((find.via p route).run scope).1
      ((find.via p route).run scope).2 := by
  cases route with
  | bare conn => exact isolated_of_apart rfl rfl rfl
  | session =>
      rw [Find.via]
      rcases ensureConnection_cases scope with
        ⟨conn, pool, hConn, _⟩ | ⟨e, _, _, hRun⟩
      · rw [withLoader_run p false find.load hConn, loadIn_false]
        exact isolated_of_apart rfl rfl rfl
      · rw [withLoader, Step.bind_run, hRun]
        exact .of_error ..

/-- Instances that a call has made are not those of an earlier one. -/
theorem Isolated.distinct {find' : Find} {route' : Route}
    {scope scope' after after' : Scope σ} {refs refs' : List Ref}
    (h : Isolated p find route scope (.ok refs) after)
    (h' : Isolated p find' route' scope' (.ok refs') after')
    (hLater : after.heap.next ≤ scope'.heap.next) {ref : Ref}
    (hReach : after.heap.Reachable refs ref) :
    ¬ after'.heap.Reachable refs' ref := by
  intro hAgain
  obtain ⟨_, _, _, hGives⟩ := h.gives refs rfl
  obtain ⟨_, _, _, hGives'⟩ := h'.gives refs' rfl
  have hOld : ref < after.heap.next := (hGives.made ref hReach).2
  have hNew : scope'.heap.next ≤ ref := (hGives'.made ref hAgain).1
  exact Nat.not_lt_of_le (Nat.le_trans hLater hNew) hOld

/-- All that a session or a bare persister loads apart leaves alone what a
session looks after, fail or not; what it gives leads only to instances that it
has made, one for each key, of which none belongs to a session or to another
call. A session flushes before it does so. -/
theorem loads_apart (p : Persister) :
    (∀ (find : Find) (route : Route) (scope : Scope σ),
      match (find.via p route).run scope with
      | (r, after) => Isolated p find route scope r after) ∧
    (∀ (type : String) (scope : Scope σ),
      match (flush p).run scope, (findAll p type).run scope with
      | (.error e, flushed), (r, after) => r = .error e ∧ after = flushed
      | (.ok _, flushed), (r, after) =>
        Isolated p (.all type) .session flushed r after ∧
          (Grounded scope → Grounded flushed)) ∧
    ∀ (find find' : Find) (route route' : Route)
      (scope scope' after after' : Scope σ) (refs refs' : List Ref),
      (find.via p route).run scope = (.ok refs, after) →
      (find'.via p route').run scope' = (.ok refs', after') →
      after.heap.next ≤ scope'.heap.next →
      ∀ ref, after.heap.Reachable refs ref →
        ¬ after'.heap.Reachable refs' ref := by
  refine ⟨isolated_of_via p, ?_, ?_⟩
  · intro type scope
    have hFlushed := flushed p scope
    rw [findAll_run]
    rcases hFlush : (flush p).run scope with ⟨e | _, flushed⟩
    · exact ⟨rfl, rfl⟩
    · rw [hFlush] at hFlushed
      refine ⟨?_, fun hGrounded => hGrounded.flush hFlushed⟩
      cases p.schema.descriptor type with
      | error e => exact .of_error ..
      | ok d => exact isolated_of_via p (.all type) .session flushed
  · intro find find' route route' scope scope' after after' refs refs' hRun
      hRun' hLater ref hReach
    have h := isolated_of_via p find route scope
    have h' := isolated_of_via p find' route' scope'
    rw [hRun] at h
    rw [hRun'] at h'
    exact h.distinct h' hLater hReach

end Session

/-! ## The circle of nodes beside a session -/

namespace Nodes

/-- A session that looks after the first node of the circle. -/
def ring : Scope Store where
  backend :=
    { env :=
        { driver := store circle
          heap := ⟨[⟨"Node", [("id", .scalar (.int 1)),
            ("title", .scalar (.text "a")), ("parent", .toOne none),
            ("children", .toMany (.resolved []))], .free⟩]⟩ }
      pool := { size := 1, idle := [], leased := [0] } }
  session := edited

theorem grounded_ring : Session.Grounded ring := by
  refine .of_entities (fun key ref hGet => ?_) rfl
  have hMem : (key, ref) ∈ edited.context.entities := Assoc.mem_of_lookup hGet
  cases List.mem_singleton.1 hMem
  decide

/-- What is there when the session has found all nodes. -/
def drawn : Scope Store :=
  (((Find.all "Node").via (persister .eager) .session).run ring).2

/-- And then has been cleared. -/
def cleared : Scope Store := Operation.clear.perform (persister .eager) drawn

theorem drawn_run : ((Find.all "Node").via (persister .eager)
    .session).run ring = (.ok [1, 2, 3], drawn) := rfl

/-- The first two nodes refer to each other. -/
theorem drawn_circle : (drawn.heap.get 1).toOne "parent" = some 2 ∧
    (drawn.heap.get 2).toOne "parent" = some 1 := ⟨rfl, rfl⟩

theorem cleared_run : ((Find.byId "Node" (.int 3)).via (persister .eager)
    (.bare 0)).run cleared = (.ok [4], (((Find.byId "Node" (.int 3)).via
      (persister .eager) (.bare 0)).run cleared).2) := rfl

end Nodes

/-- A session finds all nodes of the circle, which lead to each other and not
to the node that the session looks after. When it has been cleared, the last of
them is looked up again without the session, and is another instance. -/
theorem Session.loads_apart_of_nodes :
    Grounded Nodes.ring ∧ Schema.FieldsDiffer (Nodes.schema .eager) ∧
      Nodes.still.Holds Nodes.ring.env.driver ∧
      (findAll (Nodes.persister .eager) "Node").run Nodes.ring =
        (.ok [1, 2, 3], Nodes.drawn) ∧
      Nodes.drawn.session.context = Nodes.ring.session.context ∧
      ((Nodes.drawn.heap.get 1).toOne "parent" = some 2 ∧
        (Nodes.drawn.heap.get 2).toOne "parent" = some 1) ∧
      (∃ own, (Find.all "Node").Shows
        (L := ⟨Nodes.persister .eager, 0, some 0⟩) Nodes.still own
          [1, 2, 3]) ∧
      ∃ last, ((Find.byId "Node" (.int 3)).via (Nodes.persister .eager)
          (.bare 0)).run Nodes.cleared = (.ok [4], last) ∧
        ∀ ref, Nodes.drawn.heap.Reachable [1, 2, 3] ref →
          ¬ Nodes.ring.session.context.Resident ref ∧
            ¬ last.heap.Reachable [4] ref := by
  obtain ⟨_, hAll, hDistinct⟩ := loads_apart (σ := Store)
    (Nodes.persister .eager)
  have hFlush : (flush (Nodes.persister .eager)).run Nodes.ring =
      (.ok (), Nodes.ring) := rfl
  have hFound : (findAll (Nodes.persister .eager) "Node").run Nodes.ring =
      (.ok [1, 2, 3], Nodes.drawn) := by
    rw [findAll_run, hFlush]
    exact Nodes.drawn_run
  have hClean : ∀ {scope after : Scope Store} {refs : List Ref},
      (flush (Nodes.persister .eager)).run scope = (.ok (), scope) →
      (findAll (Nodes.persister .eager) "Node").run scope = (.ok refs, after) →
      Isolated (Nodes.persister .eager) (.all "Node") .session scope (.ok refs)
        after := by
    intro scope after refs hIdle hRun
    have hEnd := hAll "Node" scope
    rw [hIdle, hRun] at hEnd
    exact hEnd.1
  have hFrame := hClean hFlush hFound
  obtain ⟨conn, own, hConn, hGives⟩ := hFrame.gives _ rfl
  have hZero : conn = 0 := Option.some.inj hConn.symm
  subst hZero
  have hShares := hGives.shares Nodes.fieldsDiffer_schema
  have hLater : Nodes.drawn.heap.next ≤ Nodes.cleared.heap.next :=
    next_le_perform (p := Nodes.persister .eager) .clear Nodes.drawn
  refine ⟨Nodes.grounded_ring, Nodes.fieldsDiffer_schema, Nodes.holds_blank,
    hFound, hFrame.context, Nodes.drawn_circle,
    ⟨own, hShares.rows Nodes.still Nodes.holds_blank⟩, _, Nodes.cleared_run,
    fun ref hReach => ⟨?_, ?_⟩⟩
  · exact hFrame.foreign Nodes.grounded_ring _ rfl ref hReach
  · exact hDistinct _ _ _ _ _ _ _ _ _ _ Nodes.drawn_run Nodes.cleared_run
      hLater ref hReach

end UnitOfWork

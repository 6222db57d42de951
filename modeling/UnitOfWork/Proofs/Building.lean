import UnitOfWork.Proofs.Calls
import UnitOfWork.Proofs.Loads
import UnitOfWork.Proofs.Readings

/-!
# What a load builds

A load that succeeds builds an entity for each row whose key was not taken: it
reads the row, and then gives each relation its content, a related entity or a
collection. Meanwhile it asks the driver for rows and does nothing else there;
the instances that existed before stay as they were; and a key is only added
for a row that was read. All of this is said of the steps of a load one after
another (`Loader.Extends`), so it is said of loads of any depth.

While the relations of an entity are followed, the entity is the one instance
of those that existed before that changes.

## Main results

* `Loader.Extends.trans`: one step of a load and the next are a step;
* `Loader.mapRow_builds`: what mapping a row builds;
* `Loader.findById_yields`, `Loader.findAllBy_yields`, `Loader.findAll_yields`:
  what the parts of a load give.
-/

namespace UnitOfWork

variable {σ α β : Type}

/-- A key that is free in the larger context is free in the smaller one. -/
theorem Context.Within.free {ctx after : Context} (h : ctx.Within after)
    {key : Key} (hFree : after.get? key = none) : ctx.get? key = none := by
  cases hGet : ctx.get? key with
  | none => rfl
  | some ref => exact absurd (h key ref hGet) (by simp [hFree])

/-- What is the same at both ends was the same in between. -/
theorem Context.Within.between {ctx mid after : Context} (h : ctx.Within mid)
    (hNext : mid.Within after) {key : Key}
    (hSame : after.get? key = ctx.get? key) : mid.get? key = ctx.get? key := by
  cases hGet : ctx.get? key with
  | none => exact hNext.free (hSame.trans hGet)
  | some ref => exact h key ref hGet

/-! ## Asking the driver -/

/-- A call that asks for rows and does nothing else. -/
def Call.Asks : Call → Prop
  | .query statement _ => statement.isQuery = true
  | _ => False

/-- The call that asks what a plan says. -/
abbrev Plan.query (plan : Plan) : Call := .query plan.statement plan.params

/-- A plan that asks for rows of a table: for all of them, or for those with a
value in a column. -/
def Plan.Reads (plan : Plan) (table : String) : Prop :=
  plan = ⟨.selectAll table, []⟩ ∨
    ∃ column v, plan = ⟨.selectBy table column, [v]⟩

theorem Plan.Reads.isQuery {plan : Plan} {table : String}
    (h : plan.Reads table) : plan.statement.isQuery = true := by
  rcases h with rfl | ⟨column, v, rfl⟩ <;> rfl

namespace Env

variable [Driver σ] {conn : ConnId} {before env after : Env σ}

/-- All calls made meanwhile ask for rows. -/
def Asked (conn : ConnId) (before after : Env σ) : Prop :=
  ∃ calls, before.Made conn calls after ∧ ∀ c ∈ calls, c.Asks

theorem asked_of_eq (conn : ConnId) (hTrace : after.trace = before.trace)
    (hDriver : after.driver = before.driver) : before.Asked conn after :=
  ⟨[], ⟨by simp [hTrace, Call.on], hDriver⟩, fun _ hMem => by cases hMem⟩

theorem Asked.refl (conn : ConnId) (env : Env σ) : env.Asked conn env :=
  asked_of_eq conn rfl rfl

theorem Asked.trans (h : before.Asked conn env) (hNext : env.Asked conn after) :
    before.Asked conn after := by
  obtain ⟨calls, hMade, hAll⟩ := h
  obtain ⟨more, hMore, hRest⟩ := hNext
  refine ⟨calls ++ more, hMade.trans hMore, fun c hMem => ?_⟩
  rcases List.mem_append.1 hMem with hFirst | hLast
  · exact hAll c hFirst
  · exact hRest c hLast

/-- What holds of the driver and is kept by questions, holds after them. -/
theorem Asked.driver {S : σ → Prop} (h : before.Asked conn after)
    (hKept : ∀ t c, S t → c.Asks → S (Driver.call conn c t).2)
    (hStart : S before.driver) : S after.driver := by
  obtain ⟨calls, hMade, hAll⟩ := h
  rw [hMade.driver, Driver.after]
  generalize before.driver = t at hStart
  clear hMade
  induction calls generalizing t with
  | nil => exact hStart
  | cons c rest ih =>
      exact ih (fun c' hMem => hAll c' (List.mem_cons_of_mem _ hMem)) _
        (hKept t c hStart (hAll c (List.mem_cons_self ..)))

/-- Among the calls made meanwhile, all of which ask for rows, one asks what
the plan says and is given these rows. -/
def Answered (conn : ConnId) (plan : Plan) (rows : List Row)
    (before after : Env σ) : Prop :=
  ∃ env found, before.Asked conn env ∧
    (Driver.call conn plan.query env.driver).1 = .ok found ∧
    found.rows = rows ∧ (env.called conn plan.query).Asked conn after

theorem Answered.mono {plan : Plan} {rows : List Row} {start last : Env σ}
    (h : before.Answered conn plan rows after)
    (hBefore : start.Asked conn before) (hAfter : after.Asked conn last) :
    start.Answered conn plan rows last := by
  obtain ⟨env, found, hFirst, hCall, hRows, hLast⟩ := h
  exact ⟨env, found, hBefore.trans hFirst, hCall, hRows, hLast.trans hAfter⟩

/-- Meanwhile a row was given in answer to a query for a descriptor's table. -/
def Read (conn : ConnId) (d : Descriptor) (row : Row) (before after : Env σ) :
    Prop :=
  ∃ plan rows, plan.Reads d.table ∧
    before.Answered conn plan rows after ∧ row ∈ rows

theorem Read.mono {d : Descriptor} {row : Row} {start last : Env σ}
    (h : before.Read conn d row after) (hBefore : start.Asked conn before)
    (hAfter : after.Asked conn last) : start.Read conn d row last := by
  obtain ⟨plan, rows, hPlan, hRows, hMem⟩ := h
  exact ⟨plan, rows, hPlan, hRows.mono hBefore hAfter, hMem⟩

end Env

/-! ## Instances that are being built -/

/-- An instance with the fields of some relations given their contents, one
after another. -/
def Instance.fill (e : Instance) : List Relation → List Slot → Instance
  | relation :: relations, slot :: slots =>
    (e.set relation.field slot).fill relations slots
  | _, _ => e

namespace Loader

variable [Driver σ]

/-- What a step of a load does and leaves alone, even if it fails: it asks the
driver for rows, makes instances, and changes none that was there but those
that it owns. -/
structure Spares (L : Loader) (Owned : Ref → Prop) (before after : Work σ) :
    Prop where
  asked : before.env.Asked L.connection after.env
  next : before.env.heap.next ≤ after.env.heap.next
  kept : ∀ ref < before.env.heap.next, ¬ Owned ref →
    after.env.heap.get ref = before.env.heap.get ref

/-- What a load leads on from and to: it asks the driver for rows and lets the
context grow. -/
structure Onward (L : Loader) (before after : Work σ) : Prop where
  asked : before.env.Asked L.connection after.env
  context : before.context.Within after.context

/-- What a value gives as the identifier of an entity of a type. -/
inductive Related (L : Loader) (type : String) (v : Value)
    (before after : Work σ) : Option Ref → Prop
  | null (hNull : v.isNull = true) : Related L type v before after none
  /-- There is no such entity. -/
  | missing {id : EntityId} {d : Descriptor} (hV : v = id.toValue)
      (hFree : before.context.get? ⟨type, id⟩ = none)
      (hD : L.descriptor type = .ok d)
      (hNone : before.env.Answered L.connection
        ⟨.selectBy d.table d.identifier.name, [v]⟩ [] after.env) :
    Related L type v before after none
  /-- The entity is registered. -/
  | resident {id : EntityId} {ref : Ref} (hV : v = id.toValue)
      (hGet : after.context.get? ⟨type, id⟩ = some ref) :
    Related L type v before after (some ref)
  /-- The entity is that of the one row that is found. -/
  | found {id : EntityId} {d : Descriptor} {row : Row} {ref : Ref}
      (hV : v = id.toValue) (hD : L.descriptor type = .ok d)
      (hFound : before.env.Answered L.connection
        ⟨.selectBy d.table d.identifier.name, [v]⟩ [row] after.env)
      (hRef : Mapped d row ref after) :
    Related L type v before after (some ref)

/-- The content that a relation of an entity gets that was read from a row and
has an identifier. -/
inductive Content (L : Loader) (row : Row) (id : EntityId)
    (before after : Work σ) : Relation → Slot → Prop
  | toOne {kind : ToOne} {field target joinColumn : String} {v : Value}
      {related : Option Ref} (hV : row.getRequired joinColumn = .ok v)
      (hRelated : L.Related target v before after related) :
    Content L row id before after (.toOne kind field target joinColumn)
      (.toOne related)
  /-- The members are those of the rows that are found. -/
  | eager {c : CollectionField} {d : Descriptor} {column : String}
      {rows : List Row} {members : List Ref} (hFetch : c.fetch = .eager)
      (hD : L.descriptor c.target = .ok d)
      (hColumn : d.mappedByColumn c.mappedBy = .ok column)
      (hRows : before.env.Answered L.connection
        ⟨.selectBy d.table column, [id.toValue]⟩ rows after.env)
      (hMembers : List.Forall₂ (fun r m => Mapped d r m after) rows members) :
    Content L row id before after (.toMany c) (.toMany (.resolved members))
  /-- The members are left to be read. -/
  | unread {c : CollectionField} {d : Descriptor} {column : String}
      (hFetch : c.fetch = .lazy) (hD : L.descriptor c.target = .ok d)
      (hColumn : d.mappedByColumn c.mappedBy = .ok column) :
    Content L row id before after (.toMany c)
      (.toMany (.unresolved ⟨L.session, c.target, column, id.toValue⟩))

/-- An instance was built from a row: read from it, and then each relation
given its content. -/
def Built (L : Loader) (before after : Work σ) (d : Descriptor) (row : Row)
    (id : EntityId) (built : Instance) : Prop :=
  ∃ e slots, readRow d row = .ok e ∧ requireId d e = .ok id ∧
    List.Forall₂ (L.Content row id before after) d.relations slots ∧
    built = e.fill d.relations slots

/-- What a step of a load does that succeeds. It is `Given` rows. -/
structure Extends (L : Loader) (Given : Descriptor → Row → Prop)
    (Owned : Ref → Prop) (before after : Work σ) : Prop
    extends Spares L Owned before after, Onward L before after where
  /-- A snapshot changes together with its entity only. -/
  snapshots : ∀ key, after.context.get? key = before.context.get? key →
    after.context.snapshot? key = before.context.snapshot? key
  /-- An entity that is new in the context was built from a row that was given
  or read. -/
  added : ∀ key ref, after.context.get? key = some ref →
    before.context.get? key = some ref ∨
      before.env.heap.next ≤ ref ∧ ref < after.env.heap.next ∧
      ∃ d row, L.Knows d ∧ d.typeName = key.type ∧
        (Given d row ∨
          before.env.Read L.connection d row after.env) ∧
        L.Built before after d row key.id (after.env.heap.get ref)

/-- No rows are given. -/
abbrev NoRow : Descriptor → Row → Prop := fun _ _ => False

/-- No instances are owned. -/
abbrev NoRef : Ref → Prop := fun _ => False

variable {L : Loader} {before after start last : Work σ}

namespace Spares

variable {Owned : Ref → Prop}

theorem refl (L : Loader) (Owned : Ref → Prop) (work : Work σ) :
    L.Spares Owned work work :=
  ⟨.refl .., Nat.le_refl _, fun _ _ _ => rfl⟩

theorem trans (h : L.Spares Owned before after)
    (hNext : L.Spares Owned after last) : L.Spares Owned before last where
  asked := h.asked.trans hNext.asked
  next := Nat.le_trans h.next hNext.next
  kept := fun ref hLt hNot =>
    (hNext.kept ref (Nat.lt_of_lt_of_le hLt h.next) hNot).trans
      (h.kept ref hLt hNot)

/-- What is not owned stays, whatever else is. -/
theorem owning (h : L.Spares NoRef before after) (Owned : Ref → Prop) :
    L.Spares Owned before after :=
  { h with kept := fun ref hLt _ => h.kept ref hLt not_false }

/-- A step that concerns the driver and the records only. -/
theorem of_asked (hAsked : before.env.Asked L.connection after.env)
    (hHeap : after.env.heap = before.env.heap) :
    L.Spares Owned before after :=
  ⟨hAsked, Nat.le_of_eq (congrArg Heap.next hHeap.symm),
    fun _ _ _ => by rw [hHeap]⟩

end Spares

/-! ## Steps of a load -/

/-- A step of a load leaves alone what it does not own; and what it gives,
unless it fails, is as `Q` says. -/
def Yields (L : Loader) (Owned : Ref → Prop) (work : Work σ)
    (m : Step (Work σ) α) (Q : α → Work σ → Prop) : Prop :=
  L.Spares Owned work (m.run work).2 ∧
    ∀ a, (m.run work).1 = .ok a → Q a (m.run work).2

section

variable {Owned : Ref → Prop} {work : Work σ}

theorem yields_pure {Q : α → Work σ → Prop} {a : α} (hQ : Q a work) :
    L.Yields Owned work (pure a) Q := by
  refine ⟨.refl .., fun b hRun => ?_⟩
  cases hRun
  exact hQ

theorem yields_fail {Q : α → Work σ → Prop} {e : Error} :
    L.Yields Owned work (Step.fail e) Q :=
  ⟨.refl .., fun _ hRun => by cases hRun⟩

theorem Yields.bind {m : Step (Work σ) α} {f : α → Step (Work σ) β}
    {Q : α → Work σ → Prop} {R : β → Work σ → Prop}
    (h : L.Yields Owned work m Q)
    (hNext : ∀ a after, Q a after → L.Yields Owned after (f a) R) :
    L.Yields Owned work (m >>= f) R := by
  obtain ⟨hSpares, hQ⟩ := h
  unfold Yields
  rw [Step.bind_run]
  rcases hRun : m.run work with ⟨e | a, after⟩
  · rw [hRun] at hSpares
    exact ⟨hSpares, fun _ hError => by cases hError⟩
  · rw [hRun] at hSpares hQ
    obtain ⟨hRest, hR⟩ := hNext a after (hQ a rfl)
    exact ⟨hSpares.trans hRest, hR⟩

theorem Yields.imp {m : Step (Work σ) α} {Q R : α → Work σ → Prop}
    (h : L.Yields Owned work m Q) (hImp : ∀ a after, Q a after → R a after) :
    L.Yields Owned work m R :=
  ⟨h.1, fun a hRun => hImp a _ (h.2 a hRun)⟩

theorem Yields.owning {m : Step (Work σ) α} {Q : α → Work σ → Prop}
    (h : L.Yields NoRef work m Q) (Owned : Ref → Prop) :
    L.Yields Owned work m Q :=
  ⟨h.1.owning Owned, h.2⟩

theorem yields_lift_bind {r : Except Error α} {f : α → Step (Work σ) β}
    {R : β → Work σ → Prop}
    (h : ∀ a, r = .ok a → L.Yields Owned work (f a) R) :
    L.Yields Owned work (liftM r >>= f) R := by
  unfold Yields
  rw [Step.bind_run, Step.lift_run]
  cases r with
  | error e => exact ⟨.refl .., fun _ hError => by cases hError⟩
  | ok a => exact h a rfl

theorem yields_get_bind {f : Work σ → Step (Work σ) β}
    {R : β → Work σ → Prop} (h : L.Yields Owned work (f work) R) :
    L.Yields Owned work (Step.get >>= f) R := h

end

/-! ## Leading on -/

theorem Onward.refl (L : Loader) (work : Work σ) : L.Onward work work :=
  ⟨.refl .., .refl _⟩

theorem Mapped.mono {d : Descriptor} {row : Row} {ref : Ref}
    (h : Mapped d row ref after) (hNext : L.Onward after last) :
    Mapped d row ref last := by
  obtain ⟨e, id, hRead, hId, hGet⟩ := h
  exact ⟨e, id, hRead, hId, hNext.context _ _ hGet⟩

theorem Related.mono {type : String} {v : Value} {related : Option Ref}
    (h : L.Related type v before after related)
    (hStart : L.Onward start before) (hNext : L.Onward after last) :
    L.Related type v start last related := by
  cases h with
  | null hNull => exact .null hNull
  | missing hV hFree hD hNone =>
      exact .missing hV (hStart.context.free hFree) hD
        (hNone.mono hStart.asked hNext.asked)
  | resident hV hGet => exact .resident hV (hNext.context _ _ hGet)
  | found hV hD hFound hRef =>
      exact .found hV hD (hFound.mono hStart.asked hNext.asked)
        (hRef.mono hNext)

theorem Content.mono {row : Row} {id : EntityId} {relation : Relation}
    {slot : Slot} (h : L.Content row id before after relation slot)
    (hStart : L.Onward start before) (hNext : L.Onward after last) :
    L.Content row id start last relation slot := by
  cases h with
  | toOne hV hRelated => exact .toOne hV (hRelated.mono hStart hNext)
  | eager hFetch hD hColumn hRows hMembers =>
      exact .eager hFetch hD hColumn (hRows.mono hStart.asked hNext.asked)
        (hMembers.imp fun _ _ hRef => hRef.mono hNext)
  | unread hFetch hD hColumn => exact .unread hFetch hD hColumn

theorem Built.mono {d : Descriptor} {row : Row} {id : EntityId}
    {built : Instance} (h : L.Built before after d row id built)
    (hStart : L.Onward start before) (hNext : L.Onward after last) :
    L.Built start last d row id built := by
  obtain ⟨e, slots, hRead, hId, hSlots, hBuilt⟩ := h
  exact ⟨e, slots, hRead, hId,
    hSlots.imp fun _ _ hContent => hContent.mono hStart hNext, hBuilt⟩

namespace Extends

variable {Given More : Descriptor → Row → Prop} {Owned : Ref → Prop}

theorem refl (L : Loader) (Given : Descriptor → Row → Prop)
    (Owned : Ref → Prop) (work : Work σ) :
    L.Extends Given Owned work work where
  toSpares := .refl ..
  context := .refl _
  snapshots := fun _ _ => rfl
  added := fun _ _ hGet => Or.inl hGet

/-- One step and the next are a step. The rows that the next one is given may
have been read by the first. -/
theorem trans {Next : Descriptor → Row → Prop}
    (h : L.Extends Given Owned before after)
    (hNext : L.Extends Next Owned after last)
    (hOwned : ∀ ref, Owned ref → ref < before.env.heap.next)
    (hGiven : ∀ d row, Given d row → More d row)
    (hNextGiven : ∀ d row, Next d row →
      More d row ∨ before.env.Read L.connection d row after.env) :
    L.Extends More Owned before last where
  toSpares := h.toSpares.trans hNext.toSpares
  context := h.context.trans hNext.context
  snapshots := by
    intro key hSame
    have hBetween := h.context.between hNext.context hSame
    rw [hNext.snapshots key (hSame.trans hBetween.symm),
      h.snapshots key hBetween]
  added := by
    intro key ref hGet
    rcases hNext.added key ref hGet with
      hThere | ⟨hLe, hLt, d, row, hKnows, hType, hRow, hBuilt⟩
    · rcases h.added key ref hThere with
        hOld | ⟨hLe, hLt, d, row, hKnows, hType, hRow, hBuilt⟩
      · exact Or.inl hOld
      · have hNot : ¬ Owned ref := fun hOwn =>
          Nat.not_lt_of_le hLe (hOwned ref hOwn)
        have hSame := hNext.kept ref hLt hNot
        refine Or.inr ⟨hLe, Nat.lt_of_lt_of_le hLt hNext.next, d, row, hKnows,
          hType, ?_, ?_⟩
        · exact hRow.imp (hGiven d row) fun hRead =>
            hRead.mono (.refl ..) hNext.asked
        · rw [hSame]
          exact hBuilt.mono (.refl L before) hNext.toOnward
    · refine Or.inr ⟨Nat.le_trans h.next hLe, hLt, d, row, hKnows, hType, ?_,
        hBuilt.mono h.toOnward (.refl L last)⟩
      rcases hRow with hOf | hRead
      · exact (hNextGiven d row hOf).imp id fun hRead =>
          hRead.mono (.refl ..) hNext.asked
      · exact Or.inr (hRead.mono h.asked (.refl ..))

/-- A step that concerns the driver and the records only. -/
theorem of_asked (hAsked : before.env.Asked L.connection after.env)
    (hHeap : after.env.heap = before.env.heap)
    (hContext : after.context = before.context) :
    L.Extends Given Owned before after where
  toSpares := .of_asked hAsked hHeap
  context := by
    rw [hContext]
    exact .refl _
  snapshots := fun _ _ => by rw [hContext]
  added := fun _ _ hGet => Or.inl (hContext ▸ hGet)

end Extends

/-! ## The parts of a load -/

/-- A mapper that builds what mapping a row should build. -/
def Builds (L : Loader) (mapper : RowMapper σ) : Prop :=
  ∀ {d row work}, L.Knows d → L.Yields NoRef work (mapper d row) fun ref after =>
    L.Extends (fun d' row' => d' = d ∧ row' = row) NoRef work after ∧
      Mapped d row ref after

/-- The rows of a query are those of an answer. -/
theorem query_yields (L : Loader) {plan : Plan}
    (hQuery : plan.statement.isQuery = true) (work : Work σ) :
    L.Yields NoRef work (L.query plan) fun found after =>
      L.Extends NoRow NoRef work after ∧
        work.env.Answered L.connection plan found.rows after.env := by
  have hRun : (L.query plan).run work =
      ((Driver.call L.connection plan.query work.env.driver).1,
        ⟨L.persister.calling L.connection plan.query work.env,
          work.context⟩) := by
    rw [query, Work.onEnv, Step.zoom_run, Persister.query_run]
  have hMade : work.env.Made L.connection [plan.query]
      (L.persister.calling L.connection plan.query work.env) :=
    (Env.Made.refl L.connection work.env).snoc rfl rfl
  have hAsked : work.env.Asked L.connection
      (L.persister.calling L.connection plan.query work.env) := by
    refine ⟨_, hMade, fun c hMem => ?_⟩
    rw [List.mem_singleton.1 hMem]
    exact hQuery
  unfold Yields
  rw [hRun]
  exact ⟨.of_asked hAsked rfl, fun found hCall =>
    ⟨.of_asked hAsked rfl rfl, work.env, found, .refl .., hCall, rfl,
      Env.asked_of_eq _ rfl rfl⟩⟩

variable {mapper : RowMapper σ} {d : Descriptor} {work : Work σ}

theorem mapRows_yields (hMapper : L.Builds mapper) (hKnows : L.Knows d)
    (rows : List Row) :
    L.Yields NoRef work (mapRows mapper d rows) fun refs after =>
      L.Extends (fun d' row => d' = d ∧ row ∈ rows) NoRef work after ∧
        List.Forall₂ (fun row ref => Mapped d row ref after) rows refs := by
  induction rows generalizing work with
  | nil => exact yields_pure ⟨.refl .., .nil⟩
  | cons row rest ih =>
      refine (hMapper hKnows).bind fun ref after ⟨hFirst, hRef⟩ => ?_
      refine ih.bind fun refs last ⟨hRest, hRefs⟩ => ?_
      refine yields_pure ⟨?_, .cons (hRef.mono hRest.toOnward) hRefs⟩
      refine hFirst.trans hRest (fun _ hOwn => hOwn.elim) ?_ ?_
      · rintro _ _ ⟨rfl, rfl⟩
        exact ⟨rfl, List.mem_cons_self ..⟩
      · rintro _ _ ⟨rfl, hMem⟩
        exact Or.inl ⟨rfl, List.mem_cons_of_mem _ hMem⟩

/-- Rows that were read need not be given. -/
theorem extends_of_answered {plan : Plan} {rows : List Row}
    {Given : Descriptor → Row → Prop} (hPlan : plan.Reads d.table)
    (hQuery : L.Extends NoRow NoRef before after)
    (hAnswered : before.env.Answered L.connection plan rows after.env)
    (hGiven : ∀ d' row, Given d' row → d' = d ∧ row ∈ rows)
    (h : L.Extends Given NoRef after last) :
    L.Extends NoRow NoRef before last := by
  refine hQuery.trans h (fun _ hOwn => hOwn.elim) (fun _ _ hNo => hNo) ?_
  intro d' row hOf
  obtain ⟨rfl, hMem⟩ := hGiven d' row hOf
  exact Or.inr ⟨plan, rows, hPlan, hAnswered, hMem⟩

/-- The entities of all rows that a query finds. -/
theorem query_mapRows_yields (hMapper : L.Builds mapper) (hKnows : L.Knows d)
    {plan : Plan} (hPlan : plan.Reads d.table) :
    L.Yields NoRef work (do
        let found ← L.query plan
        mapRows mapper d found.rows) fun refs after =>
      L.Extends NoRow NoRef work after ∧ ∃ rows,
        work.env.Answered L.connection plan rows after.env ∧
          List.Forall₂ (fun row ref => Mapped d row ref after) rows refs := by
  refine (query_yields L hPlan.isQuery work).bind
    fun found after ⟨hQuery, hAnswered⟩ => ?_
  refine (mapRows_yields hMapper hKnows found.rows).imp
    fun refs last ⟨hRows, hRefs⟩ => ?_
  exact ⟨extends_of_answered hPlan hQuery hAnswered (fun _ _ h => h) hRows,
    found.rows, hAnswered.mono (.refl ..) hRows.asked, hRefs⟩

theorem findAllBy_yields (hMapper : L.Builds mapper) (hKnows : L.Knows d)
    (column : String) (v : Value) :
    L.Yields NoRef work (L.findAllBy mapper d column v) fun refs after =>
      L.Extends NoRow NoRef work after ∧ ∃ rows,
        work.env.Answered L.connection ⟨.selectBy d.table column, [v]⟩ rows
            after.env ∧
          List.Forall₂ (fun row ref => Mapped d row ref after) rows refs :=
  query_mapRows_yields hMapper hKnows (Or.inr ⟨column, v, rfl⟩)

theorem findAll_yields (hMapper : L.Builds mapper) (hKnows : L.Knows d) :
    L.Yields NoRef work (L.findAll mapper d) fun refs after =>
      L.Extends NoRow NoRef work after ∧ ∃ rows,
        work.env.Answered L.connection ⟨.selectAll d.table, []⟩ rows
            after.env ∧
          List.Forall₂ (fun row ref => Mapped d row ref after) rows refs :=
  query_mapRows_yields hMapper hKnows (Or.inl rfl)

/-- There is an entity if there is a row, and there is at most one row. -/
theorem findOne_yields (hMapper : L.Builds mapper) (hKnows : L.Knows d)
    (column : String) (v : Value) :
    L.Yields NoRef work (L.findOne mapper d column v) fun found after =>
      L.Extends NoRow NoRef work after ∧ ∃ rows,
        work.env.Answered L.connection ⟨.selectBy d.table column, [v]⟩ rows
            after.env ∧
          List.Forall₂ (fun row ref => Mapped d row ref after) rows
            found.toList := by
  have hPlan : Plan.Reads ⟨.selectBy d.table column, [v]⟩ d.table :=
    Or.inr ⟨column, v, rfl⟩
  refine (query_yields L hPlan.isQuery work).bind
    fun found after ⟨hQuery, hAnswered⟩ => ?_
  obtain ⟨names, rows, affected⟩ := found
  match rows, hAnswered with
  | [], hAnswered => exact yields_pure ⟨hQuery, [], hAnswered, .nil⟩
  | [row], hAnswered =>
      refine (hMapper hKnows).bind fun ref last ⟨hRow, hRef⟩ => ?_
      refine yields_pure ⟨?_, [row],
        hAnswered.mono (.refl ..) hRow.asked, .cons hRef .nil⟩
      refine extends_of_answered hPlan hQuery hAnswered ?_ hRow
      rintro d' row' ⟨rfl, rfl⟩
      exact ⟨rfl, List.mem_singleton_self _⟩
  | _ :: _ :: _, _ => exact yields_fail

theorem findById_yields (hMapper : L.Builds mapper) (type : String)
    (v : Value) :
    L.Yields NoRef work (L.findById mapper type v) fun found after =>
      L.Extends NoRow NoRef work after ∧
        L.Related type v work after found := by
  refine yields_lift_bind fun id? hId => ?_
  cases id? with
  | none =>
      refine yields_pure ⟨.refl .., .null ?_⟩
      cases v <;> first | rfl | cases hId
  | some id =>
      have hV := (EntityId.toValue_of_ofValue hId).symm
      refine yields_get_bind ?_
      split
      · rename_i ref hGet
        exact yields_pure ⟨.refl .., .resident hV hGet⟩
      · rename_i hFree
        refine yields_lift_bind fun d hD => ?_
        refine (findOne_yields hMapper (knows_of_descriptor hD)
          d.identifier.name v).imp fun found after ⟨hAll, rows, hRows, hRef⟩ => ?_
        refine ⟨hAll, ?_⟩
        cases found with
        | none =>
            cases hRef
            exact .missing hV hFree hD hRows
        | some ref =>
            cases hRef with
            | cons hRef hNil =>
                cases hNil
                exact .found hV hD hRows hRef

/-! ## Relations -/

/-- The collection of an owner with an identifier that was read from a row. -/
theorem collection_yields (hMapper : L.Builds mapper) (c : CollectionField)
    (row : Row) (id : EntityId) :
    L.Yields NoRef work (L.collection mapper c id.toValue) fun members after =>
      L.Extends NoRow NoRef work after ∧
        L.Content row id work after (.toMany c) (.toMany members) := by
  refine yields_lift_bind fun d hD => ?_
  refine yields_lift_bind fun column hColumn => ?_
  cases hFetch : c.fetch with
  | eager =>
      refine (findAllBy_yields hMapper (knows_of_descriptor hD) column _).bind
        fun members after ⟨hAll, rows, hRows, hMembers⟩ => ?_
      exact yields_pure ⟨hAll, .eager hFetch hD hColumn hRows hMembers⟩
  | «lazy» =>
      exact yields_pure ⟨.refl .., .unread hFetch hD hColumn⟩

/-- What a step does that gives fields of an instance their contents: it is
this instance alone that changes. -/
structure Fills (L : Loader) (row : Row) (id : EntityId) (ref : Ref)
    (relations : List Relation) (before after : Work σ)
    (slots : List Slot) : Prop where
  grown : L.Extends NoRow (fun r => r = ref) before after
  contents : List.Forall₂ (L.Content row id before after) relations slots
  filled : after.env.heap.get ref =
    (before.env.heap.get ref).fill relations slots

/-- The content of a relation is assigned to a registered instance. -/
theorem assign_yields {row : Row} {id : EntityId} {ref : Ref}
    {relation : Relation} {slot : Slot} (hLt : ref < work.env.heap.next)
    (hGrown : L.Extends NoRow NoRef work after)
    (hContent : L.Content row id work after relation slot) :
    L.Yields (fun r => r = ref) after (assign ref relation.field slot)
      fun _ last => ∃ slot, L.Fills row id ref [relation] work last [slot] := by
  have hThere : ref < after.env.heap.next := Nat.lt_of_lt_of_le hLt hGrown.next
  have hOthers : ∀ other, other ≠ ref →
      ((assign ref relation.field slot).run after).2.env.heap.get other =
        after.env.heap.get other :=
    fun other hNe => Heap.get_modify_ne _ hNe _
  have hNext : ((assign ref relation.field slot).run after).2.env.heap.next =
      after.env.heap.next := Heap.next_modify ..
  have hSpares : L.Spares (fun r => r = ref) after
      ((assign ref relation.field slot).run after).2 :=
    ⟨Env.asked_of_eq _ rfl rfl, Nat.le_of_eq hNext.symm,
      fun other _ hNe => hOthers other hNe⟩
  have hOnward : L.Onward after
      ((assign ref relation.field slot).run after).2 :=
    ⟨hSpares.asked, .refl _⟩
  refine ⟨hSpares, fun _ _ => ⟨slot, ?_, ?_, ?_⟩⟩
  · refine ⟨(hGrown.toSpares.owning _).trans hSpares, hGrown.context,
      hGrown.snapshots, fun key other hGet => ?_⟩
    rcases hGrown.added key other hGet with
      hOld | ⟨hLe, hNew, d, row, hKnows, hType, hRow, hBuilt⟩
    · exact Or.inl hOld
    · have hNe : other ≠ ref := Nat.ne_of_gt (Nat.lt_of_lt_of_le hLt hLe)
      rw [hNext, hOthers other hNe]
      exact Or.inr ⟨hLe, hNew, d, row, hKnows, hType,
        hRow.imp (fun hNo => hNo) fun h => h.mono (.refl ..) hSpares.asked,
        hBuilt.mono (.refl L work) hOnward⟩
  · exact .cons (hContent.mono (.refl L work) hOnward) .nil
  · rw [← hGrown.kept ref hLt not_false]
    exact Heap.get_modify_self hThere _

theorem follow_yields (hMapper : L.Builds mapper) (row : Row) (id : EntityId)
    {ref : Ref} (hLt : ref < work.env.heap.next) (relation : Relation) :
    L.Yields (fun r => r = ref) work (L.follow mapper row id ref relation)
      fun _ after => ∃ slot, L.Fills row id ref [relation] work after [slot] := by
  cases relation with
  | toOne kind field target joinColumn =>
      refine yields_lift_bind fun v hV => ?_
      by_cases hNull : v.isNull = true
      · simp only [hNull, if_true]
        exact assign_yields hLt (.refl ..) (.toOne hV (.null hNull))
      · simp only [hNull, Bool.false_eq_true, if_false]
        exact ((findById_yields hMapper target v).owning _).bind
          fun related after ⟨hGrown, hRelated⟩ =>
            assign_yields hLt hGrown (.toOne hV hRelated)
  | toMany c =>
      refine ((collection_yields hMapper c row id).owning _).bind
        fun members after ⟨hGrown, hContent⟩ => ?_
      by_cases hInspected : c.inspected = true
      · simp only [hInspected, if_true]
        have hLook : L.Extends NoRow NoRef after
            ((inspect members).run after).2 :=
          .of_asked (Env.asked_of_eq _ rfl rfl) rfl rfl
        have hBoth := hGrown.trans hLook (fun _ hOwn => hOwn.elim)
          (fun _ _ hNo => hNo) fun _ _ hNo => hNo.elim
        have hRest := assign_yields hLt hBoth
          (hContent.mono (.refl L work) hLook.toOnward)
        exact ⟨(hLook.toSpares.owning _).trans hRest.1, hRest.2⟩
      · simp only [hInspected, Bool.false_eq_true, if_false]
        exact assign_yields hLt hGrown hContent

theorem followAll_yields (hMapper : L.Builds mapper) (row : Row)
    (id : EntityId) {ref : Ref} (hLt : ref < work.env.heap.next)
    (relations : List Relation) :
    L.Yields (fun r => r = ref) work
      (L.followAll mapper row id ref relations) fun _ after =>
        ∃ slots, L.Fills row id ref relations work after slots := by
  induction relations generalizing work with
  | nil => exact yields_pure ⟨[], .refl .., .nil, rfl⟩
  | cons relation rest ih =>
      refine (follow_yields hMapper row id hLt relation).bind
        fun _ after ⟨slot, hFirst⟩ => ?_
      have hThere := Nat.lt_of_lt_of_le hLt hFirst.grown.next
      refine (ih hThere).imp fun _ last ⟨slots, hRest⟩ => ?_
      refine ⟨slot :: slots, ?_, ?_, ?_⟩
      · exact hFirst.grown.trans hRest.grown (fun _ hOwn => hOwn ▸ hLt)
          (fun _ _ hNo => hNo) fun _ _ hNo => hNo.elim
      · cases hFirst.contents with
        | cons hContent _ =>
            exact .cons
              (hContent.mono (.refl L work) hRest.grown.toOnward)
              (hRest.contents.imp fun _ _ h =>
                h.mono hFirst.grown.toOnward (.refl L last))
      · rw [hRest.filled, hFirst.filled]
        rfl

/-! ## Rows -/

/-- A new instance is registered and changes from then on. -/
theorem spares_register {e : Instance} {id : EntityId}
    (h : L.Spares (fun r => r = work.env.heap.next)
      ((register d id e).run work).2 after) :
    work.env.heap.next < after.env.heap.next ∧ L.Spares NoRef work after := by
  have hNext : ((register d id e).run work).2.env.heap.next =
      work.env.heap.next + 1 := Heap.next_alloc ..
  have hLess : work.env.heap.next < after.env.heap.next :=
    Nat.lt_of_lt_of_le (hNext ▸ Nat.lt_succ_self _) h.next
  have hAsked : work.env.Asked L.connection
      ((register d id e).run work).2.env := Env.asked_of_eq _ rfl rfl
  refine ⟨hLess, hAsked.trans h.asked, Nat.le_of_lt hLess, fun ref hLt _ => ?_⟩
  have hThere : ref < ((register d id e).run work).2.env.heap.next :=
    hNext ▸ Nat.lt_succ_of_lt hLt
  rw [h.kept ref hThere (Nat.ne_of_lt hLt)]
  exact Heap.get_alloc_of_lt hLt e

/-- The instance that is registered for a row is built from it. -/
theorem built_of_fills {row : Row} {e : Instance} {id : EntityId}
    (hRead : readRow d row = .ok e) (hId : requireId d e = .ok id)
    (hFree : work.context.get? ⟨d.typeName, id⟩ = none) {slots : List Slot}
    (h : L.Fills row id work.env.heap.next d.relations
      ((register d id e).run work).2 after slots) :
    L.Built work after d row id (after.env.heap.get work.env.heap.next) := by
  have hOnward : L.Onward work ((register d id e).run work).2 :=
    ⟨Env.asked_of_eq _ rfl rfl, Context.within_register hFree _ _⟩
  refine ⟨e, slots, hRead, hId, ?_, ?_⟩
  · exact h.contents.imp fun _ _ hContent =>
      hContent.mono hOnward (.refl L after)
  · rw [h.filled]
    exact congrArg (·.fill d.relations slots) (Heap.get_alloc ..)

/-- A new entity is built of a row whose key is free. -/
theorem extends_register {row : Row} {e : Instance} {id : EntityId}
    (hKnows : L.Knows d) (hRead : readRow d row = .ok e)
    (hId : requireId d e = .ok id)
    (hFree : work.context.get? ⟨d.typeName, id⟩ = none) {slots : List Slot}
    (h : L.Fills row id work.env.heap.next d.relations
      ((register d id e).run work).2 after slots) :
    L.Extends (fun d' row' => d' = d ∧ row' = row) NoRef work after := by
  have hGrown := h.grown
  obtain ⟨hLess, hSpares⟩ := spares_register hGrown.toSpares
  have hOnward : L.Onward work ((register d id e).run work).2 :=
    ⟨Env.asked_of_eq _ rfl rfl, Context.within_register hFree _ _⟩
  refine ⟨hSpares, hOnward.context.trans hGrown.context, ?_, ?_⟩
  · intro key hSame
    have hBetween := hOnward.context.between hGrown.context hSame
    have hNe : key ≠ ⟨d.typeName, id⟩ := by
      rintro rfl
      rw [hFree] at hBetween
      cases (Context.get?_register_self ..).symm.trans hBetween
    rw [hGrown.snapshots key (hSame.trans hBetween.symm)]
    exact Assoc.lookup_insert_ne hNe _ _
  · intro key ref hGet
    rcases hGrown.added key ref hGet with
      hThere | ⟨hLe, hLt, d', row', hKnows', hType, hRow, hBuilt⟩
    · by_cases hKey : key = ⟨d.typeName, id⟩
      · subst hKey
        have hRef : ref = work.env.heap.next :=
          Option.some.inj (hThere.symm.trans
            (Context.get?_register_self work.context _ _ _))
        subst hRef
        exact Or.inr ⟨Nat.le_refl _, hLess, d, row, hKnows, rfl,
          Or.inl ⟨rfl, rfl⟩, built_of_fills hRead hId hFree h⟩
      · exact Or.inl ((Context.get?_register_ne hKey _ _ _).symm.trans hThere)
    · have hNext : ((register d id e).run work).2.env.heap.next =
          work.env.heap.next + 1 := Heap.next_alloc ..
      have hOld : work.env.heap.next ≤ ref :=
        Nat.le_of_succ_le (Nat.le_trans (Nat.le_of_eq hNext.symm) hLe)
      refine Or.inr ⟨hOld, hLt, d', row', hKnows', hType, ?_,
        hBuilt.mono hOnward (.refl L after)⟩
      exact hRow.imp (fun hNo => hNo.elim) fun h =>
        h.mono hOnward.asked (.refl ..)

/-- Mapping a row gives the entity that is registered under its key, or else
registers a new instance and follows its relations. -/
theorem mapWith_fills (hMapper : L.Builds mapper) (d : Descriptor) (row : Row) :
    L.Yields NoRef work (L.mapWith mapper d row) fun ref after =>
      ∃ e id, readRow d row = .ok e ∧ requireId d e = .ok id ∧
        (work.context.get? ⟨d.typeName, id⟩ = some ref ∧ after = work ∨
          work.context.get? ⟨d.typeName, id⟩ = none ∧
          ref = work.env.heap.next ∧ ∃ slots,
            L.Fills row id work.env.heap.next d.relations
              ((register d id e).run work).2 after slots) := by
  refine yields_lift_bind fun e hRead => ?_
  refine yields_lift_bind fun id hId => ?_
  refine yields_get_bind ?_
  split
  · rename_i ref hGet
    exact yields_pure ⟨e, id, hRead, hId, Or.inl ⟨hGet, rfl⟩⟩
  · rename_i hFree
    have hLt : work.env.heap.next <
        ((register d id e).run work).2.env.heap.next := by
      rw [show ((register d id e).run work).2.env.heap.next =
        work.env.heap.next + 1 from Heap.next_alloc ..]
      exact Nat.lt_succ_self _
    have hRest := (followAll_yields hMapper row id hLt d.relations).bind
      (f := fun _ => pure work.env.heap.next)
      (R := fun ref after => ref = work.env.heap.next ∧ ∃ slots,
        L.Fills row id work.env.heap.next d.relations
          ((register d id e).run work).2 after slots)
      fun _ _ hSlots => yields_pure ⟨rfl, hSlots⟩
    refine ⟨(spares_register hRest.1).2, fun ref hRun => ?_⟩
    exact ⟨e, id, hRead, hId, Or.inr ⟨hFree, hRest.2 ref hRun⟩⟩

theorem mapWith_builds (hMapper : L.Builds mapper) :
    L.Builds (L.mapWith mapper) := by
  intro d row work hKnows
  refine (mapWith_fills hMapper d row).imp ?_
  rintro ref after ⟨e, id, hRead, hId,
    ⟨hGet, rfl⟩ | ⟨hFree, rfl, slots, hFills⟩⟩
  · exact ⟨.refl .., e, id, hRead, hId, hGet⟩
  · exact ⟨extends_register hKnows hRead hId hFree hFills, e, id, hRead, hId,
      hFills.grown.context _ _ (Context.get?_register_self ..)⟩

/-- Mapping a row builds the entities that the row leads to, at every depth. -/
theorem mapRow_builds (L : Loader) (depth : Nat) :
    L.Builds (L.mapRow depth : RowMapper σ) := by
  induction depth with
  | zero => exact fun _ => yields_fail
  | succ depth ih => exact mapWith_builds ih

/-- An entity that was not registered before is built from the row. -/
theorem mapRow_built {L : Loader} {depth : Nat} {d : Descriptor} {row : Row}
    {ref : Ref} {work after : Work σ}
    (hRun : ((L.mapRow depth : RowMapper σ) d row).run work = (.ok ref, after))
    (hNew : ∀ key, work.context.get? key ≠ some ref) :
    ∃ id, L.Built work after d row id (after.env.heap.get ref) := by
  cases depth with
  | zero => cases hRun
  | succ depth =>
      have hWith : ((L.mapWith (L.mapRow depth) d row).run work).1 = .ok ref ∧
          ((L.mapWith (L.mapRow depth) d row).run work).2 = after := by
        rw [← mapRow_succ, hRun]
        exact ⟨rfl, rfl⟩
      obtain ⟨hRef, rfl⟩ := hWith
      obtain ⟨e, id, hRead, hId, ⟨hOld, _⟩ | ⟨hFree, rfl, slots, hFills⟩⟩ :=
        (mapWith_fills (mapRow_builds L depth) d row).2 ref hRef
      · exact absurd hOld (hNew _)
      · exact ⟨id, built_of_fills hRead hId hFree hFills⟩

/-! ## Whole loads -/

theorem run_yields {load : RowMapper σ → Step (Work σ) α}
    {Q : α → Work σ → Prop}
    (hLoad : ∀ mapper, L.Builds mapper → L.Yields NoRef work (load mapper) Q) :
    L.Yields NoRef work (L.run load) Q :=
  hLoad _ (mapRow_builds L (L.depth work))

theorem loadById_yields (L : Loader) (type : String) (id : EntityId)
    (work : Work σ) :
    L.Yields NoRef work (L.loadById type id) fun found after =>
      L.Extends NoRow NoRef work after ∧
        L.Related type id.toValue work after found :=
  run_yields fun _ hMapper => findById_yields hMapper type id.toValue

theorem loadOne_yields (L : Loader) (type field : String) (v : Value)
    (work : Work σ) :
    L.Yields NoRef work (L.loadOne type field v) fun found after =>
      L.Extends NoRow NoRef work after ∧ ∃ d c rows,
        L.descriptor type = .ok d ∧ d.columnFor field = .ok c ∧
          work.env.Answered L.connection ⟨.selectBy d.table c.name, [v]⟩ rows
            after.env ∧
          List.Forall₂ (fun row ref => Mapped d row ref after) rows
            found.toList := by
  refine yields_lift_bind fun d hD => yields_lift_bind fun c hC => ?_
  refine (run_yields fun _ hMapper => findOne_yields hMapper
    (knows_of_descriptor hD) c.name v).imp ?_
  rintro found after ⟨hAll, rows, hRows, hFound⟩
  exact ⟨hAll, d, c, rows, hD, hC, hRows, hFound⟩

theorem loadAll_yields (L : Loader) (type : String) (work : Work σ) :
    L.Yields NoRef work (L.loadAll type) fun refs after =>
      L.Extends NoRow NoRef work after ∧ ∃ d rows,
        L.descriptor type = .ok d ∧
          work.env.Answered L.connection ⟨.selectAll d.table, []⟩ rows
            after.env ∧
          List.Forall₂ (fun row ref => Mapped d row ref after) rows refs := by
  refine yields_lift_bind fun d hD => ?_
  refine (run_yields fun _ hMapper => findAll_yields hMapper
    (knows_of_descriptor hD)).imp ?_
  rintro refs after ⟨hAll, rows, hRows, hRefs⟩
  exact ⟨hAll, d, rows, hD, hRows, hRefs⟩

theorem loadAllBy_yields (L : Loader) (type field : String) (v : Value)
    (work : Work σ) :
    L.Yields NoRef work (L.loadAllBy type field v) fun refs after =>
      L.Extends NoRow NoRef work after ∧ ∃ d c rows,
        L.descriptor type = .ok d ∧ d.columnFor field = .ok c ∧
          work.env.Answered L.connection ⟨.selectBy d.table c.name, [v]⟩ rows
            after.env ∧
          List.Forall₂ (fun row ref => Mapped d row ref after) rows refs := by
  refine yields_lift_bind fun d hD => yields_lift_bind fun c hC => ?_
  refine (run_yields fun _ hMapper => findAllBy_yields hMapper
    (knows_of_descriptor hD) c.name v).imp ?_
  rintro refs after ⟨hAll, rows, hRows, hRefs⟩
  exact ⟨hAll, d, c, rows, hD, hC, hRows, hRefs⟩

theorem loadMembers_yields (L : Loader) (source : Source) (work : Work σ) :
    L.Yields NoRef work (L.loadMembers source) fun refs after =>
      L.Extends NoRow NoRef work after ∧ ∃ d rows,
        L.descriptor source.target = .ok d ∧
          work.env.Answered L.connection
            ⟨.selectBy d.table source.column, [source.owner]⟩ rows
            after.env ∧
          List.Forall₂ (fun row ref => Mapped d row ref after) rows refs := by
  refine yields_lift_bind fun d hD => ?_
  refine (run_yields fun _ hMapper => findAllBy_yields hMapper
    (knows_of_descriptor hD) source.column source.owner).imp ?_
  rintro refs after ⟨hAll, rows, hRows, hRefs⟩
  exact ⟨hAll, d, rows, hD, hRows, hRefs⟩

end Loader

end UnitOfWork

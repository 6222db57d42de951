import UnitOfWork.Proofs.Contexts
import UnitOfWork.Proofs.Flush
import UnitOfWork.Proofs.Mappings

/-!
# What a load keeps

A load is built of four things: it queries, registers a new entity under a key
that is not taken, gives a registered entity the content of a relation, and
lets an owner look at a collection. What these four keep (`Loader.Keeps`)
every load keeps, however deep it goes and wherever it fails; and it never
takes a key from the entity that is registered under it.

## Main results

* `Loader.mapRow_leads`: what mapping a row keeps, and what it gives;
* `Loader.loadById_leads`, `Loader.loadAll_leads`, `Loader.loadMembers_leads`:
  the same of whole loads;
* `Session.loaded`: what a load of a session leaves.
-/

namespace UnitOfWork

variable {σ α β : Type}

/-! ## Steps that keep something -/

/-- From work in a certain state a step keeps `I`, lets the context grow only,
and gives what `Q` says unless it fails. -/
def Work.Leads (I : Work σ → Prop) (work : Work σ) (m : Step (Work σ) α)
    (Q : α → Work σ → Prop) : Prop :=
  match m.run work with
  | (.ok a, after) =>
    I after ∧ work.context.Within after.context ∧ Q a after
  | (.error _, after) => I after

namespace Work

variable {I : Work σ → Prop} {work : Work σ}

/-- A step of a known outcome. -/
theorem leads_of_run {m : Step (Work σ) α} {Q : α → Work σ → Prop} {a : α}
    {after : Work σ} (hRun : m.run work = (.ok a, after)) (hI : I after)
    (hContext : work.context.Within after.context) (hQ : Q a after) :
    Leads I work m Q := by
  rw [Leads, hRun]
  exact ⟨hI, hContext, hQ⟩

theorem leads_of_error {m : Step (Work σ) α} {Q : α → Work σ → Prop}
    {e : Error} {after : Work σ} (hRun : m.run work = (.error e, after))
    (hI : I after) : Leads I work m Q := by
  rw [Leads, hRun]
  exact hI

theorem leads_pure (hI : I work) {Q : α → Work σ → Prop} {a : α}
    (hQ : Q a work) : Leads I work (pure a) Q :=
  leads_of_run rfl hI (.refl _) hQ

/-- A step that follows another starts where the first one led. -/
theorem Leads.bind {m : Step (Work σ) α} {f : α → Step (Work σ) β}
    {Q : α → Work σ → Prop} {R : β → Work σ → Prop}
    (h : Leads I work m Q)
    (hNext : ∀ a after, I after → work.context.Within after.context →
      Q a after → Leads I after (f a) R) :
    Leads I work (m >>= f) R := by
  unfold Leads at h ⊢
  rw [Step.bind_run]
  rcases hRun : m.run work with ⟨e | a, after⟩
  · rw [hRun] at h
    exact h
  · rw [hRun] at h
    obtain ⟨hI, hContext, hQ⟩ := h
    have hLeads := hNext a after hI hContext hQ
    unfold Leads at hLeads
    rcases hLast : (f a).run after with ⟨e | b, last⟩
    · simp only [hLast] at hLeads ⊢
      exact hLeads
    · simp only [hLast] at hLeads ⊢
      exact ⟨hLeads.1, hContext.trans hLeads.2.1, hLeads.2.2⟩

theorem Leads.imp {m : Step (Work σ) α} {Q R : α → Work σ → Prop}
    (h : Leads I work m Q)
    (hImp : ∀ a after, I after → work.context.Within after.context →
      Q a after → R a after) : Leads I work m R := by
  unfold Leads at h ⊢
  rcases hRun : m.run work with ⟨e | a, after⟩
  · rw [hRun] at h
    exact h
  · rw [hRun] at h
    exact ⟨h.1, h.2.1, hImp a after h.1 h.2.1 h.2.2⟩

/-- What a step gives need not be said. -/
theorem Leads.forget {m : Step (Work σ) α} {Q : α → Work σ → Prop}
    (h : Leads I work m Q) : Leads I work m fun _ _ => True :=
  h.imp fun _ _ _ _ _ => trivial

/-- A computation leaves the work as it is. -/
theorem leads_lift_bind (hI : I work) {r : Except Error α}
    {f : α → Step (Work σ) β} {R : β → Work σ → Prop}
    (h : ∀ a, r = .ok a → Leads I work (f a) R) :
    Leads I work (liftM r >>= f) R := by
  unfold Leads
  rw [Step.bind_run, Step.lift_run]
  cases r with
  | error e => exact hI
  | ok a => exact h a rfl

/-- What is looked at is the work as it is. -/
theorem leads_get_bind {f : Work σ → Step (Work σ) β}
    {R : β → Work σ → Prop} (h : Leads I work (f work) R) :
    Leads I work (Step.get >>= f) R := by
  unfold Leads at h ⊢
  rw [Step.bind_run, Step.get_run]
  exact h

end Work

/-! ## The four things that a load does -/

/-- The queries of a load for entities of a table. -/
def Plan.Selects (plan : Plan) (table : String) : Prop :=
  plan.statement = .selectAll table ∨
    ∃ column, plan.statement = .selectBy table column

theorem Plan.Selects.isQuery {plan : Plan} {table : String}
    (h : plan.Selects table) : plan.statement.isQuery = true := by
  rcases h with hAll | ⟨column, hBy⟩
  · rw [hAll]
    rfl
  · rw [hBy]
    rfl

namespace Loader

/-- A descriptor that a load can come across. -/
def Knows (L : Loader) (d : Descriptor) : Prop :=
  L.persister.schema.descriptor d.typeName = .ok d

/-- What is known of the rows of a table that queries find: `Sound` holds of
each with the plan of its query. -/
def Found (Sound : Plan → Row → Prop) (d : Descriptor) (row : Row) : Prop :=
  ∃ plan, plan.Selects d.table ∧ Sound plan row

/-- What the four things keep that a load does; `Sound` is what is known of the
rows that queries find. -/
structure Keeps [Driver σ] (L : Loader) (Sound : Plan → Row → Prop)
    (I : Work σ → Prop) : Prop where
  query : ∀ {work : Work σ} {d : Descriptor} {plan : Plan}, L.Knows d →
    plan.Selects d.table → I work →
    I ⟨L.persister.calling L.connection (.query plan.statement plan.params)
      work.env, work.context⟩ ∧
    ∀ found : ResultSet, (Driver.call L.connection
      (.query plan.statement plan.params) work.env.driver).1 = .ok found →
        ∀ row ∈ found.rows, Sound plan row
  register : ∀ {work : Work σ} {d : Descriptor} {row : Row} {e : Instance}
    {id : EntityId}, L.Knows d → Found Sound d row → readRow d row = .ok e →
    requireId d e = .ok id → work.context.get? ⟨d.typeName, id⟩ = none →
    I work → I ((register d id e).run work).2
  assign : ∀ {work : Work σ} {d : Descriptor} {id : EntityId} {ref : Ref}
    {relation : Relation} (slot : Slot), L.Knows d →
    work.context.get? ⟨d.typeName, id⟩ = some ref → relation ∈ d.relations →
    I work → I ((assign ref relation.field slot).run work).2
  inspect : ∀ {work : Work σ} (members : Collection Source), I work →
    I ((inspect members).run work).2

/-- What mapping a row gives: the entity registered under the row's key. -/
def Mapped (d : Descriptor) (row : Row) (ref : Ref) (work : Work σ) : Prop :=
  ∃ e id, readRow d row = .ok e ∧ requireId d e = .ok id ∧
    work.context.get? ⟨d.typeName, id⟩ = some ref

theorem knows_of_descriptor {L : Loader} {type : String} {d : Descriptor}
    (h : L.descriptor type = .ok d) : L.Knows d :=
  Schema.descriptor_typeName h

section

variable [Driver σ] {L : Loader} {Sound : Plan → Row → Prop}
  {I : Work σ → Prop}

/-- A mapper that does what mapping a row should do. -/
def MapsWell (L : Loader) (Sound : Plan → Row → Prop)
    (I : Work σ → Prop) (mapper : RowMapper σ) : Prop :=
  ∀ {d row work}, L.Knows d → Found Sound d row → I work →
    Work.Leads I work (mapper d row) (Mapped d row)

/-- The driver gives a row for a query. -/
def Answers (L : Loader) (env : Env σ) (plan : Plan) (row : Row) : Prop :=
  ∃ found : ResultSet, (Driver.call L.connection
    (.query plan.statement plan.params) env.driver).1 = .ok found ∧
      row ∈ found.rows

theorem query_leads (h : L.Keeps Sound I) {d : Descriptor} {plan : Plan}
    (hKnows : L.Knows d) (hPlan : plan.Selects d.table) {work : Work σ}
    (hI : I work) :
    Work.Leads I work (L.query plan) fun found _ =>
      ∀ row ∈ found.rows, Sound plan row ∧ L.Answers work.env plan row := by
  obtain ⟨hQuery, hRows⟩ := h.query hKnows hPlan hI
  have hRun : (L.query plan).run work =
      ((Driver.call L.connection (.query plan.statement plan.params)
        work.env.driver).1,
        ⟨L.persister.calling L.connection (.query plan.statement plan.params)
          work.env, work.context⟩) := by
    rw [query, Work.onEnv, Step.zoom_run, Persister.query_run]
  cases hFound : (Driver.call L.connection
    (.query plan.statement plan.params) work.env.driver).1 with
  | error e =>
      rw [hFound] at hRun
      exact Work.leads_of_error hRun hQuery
  | ok found =>
      rw [hFound] at hRun
      exact Work.leads_of_run hRun hQuery (.refl _) fun row hRow =>
        ⟨hRows found hFound row hRow, found, hFound, hRow⟩

omit [Driver σ] in
theorem mapRows_leads {mapper : RowMapper σ} (hMapper : MapsWell L Sound I mapper)
    {d : Descriptor} (hKnows : L.Knows d) {rows : List Row} {work : Work σ}
    (hRows : ∀ row ∈ rows, Found Sound d row) (hI : I work) :
    Work.Leads I work (mapRows mapper d rows) fun _ _ => True := by
  induction rows generalizing work with
  | nil => exact Work.leads_pure hI trivial
  | cons row rest ih =>
      refine (hMapper hKnows (hRows row (List.mem_cons_self ..)) hI).bind
        fun ref after hAfter _ _ => ?_
      refine (ih (fun r hr => hRows r (List.mem_cons_of_mem _ hr)) hAfter).bind
        fun refs last hLast _ _ => ?_
      exact Work.leads_pure hLast trivial

/-- One row is mapped if one is found; it is among those that the driver
gives. -/
theorem findOne_leads (h : L.Keeps Sound I) {mapper : RowMapper σ}
    (hMapper : MapsWell L Sound I mapper) {d : Descriptor}
    (hKnows : L.Knows d) (column : String) (v : Value) {work : Work σ}
    (hI : I work) :
    Work.Leads I work (L.findOne mapper d column v) fun found after =>
      ∀ ref ∈ found, ∃ row,
        L.Answers work.env ⟨.selectBy d.table column, [v]⟩ row ∧
          Mapped d row ref after := by
  have hPlan : Plan.Selects ⟨.selectBy d.table column, [v]⟩ d.table :=
    Or.inr ⟨column, rfl⟩
  refine (query_leads h hKnows hPlan hI).bind
    fun found after hAfter _ hRows => ?_
  obtain ⟨names, rows⟩ := found
  match rows, hRows with
  | [], _ => exact Work.leads_pure hAfter fun ref hMem => by cases hMem
  | [row], hRows =>
      obtain ⟨hSound, hAnswers⟩ := hRows row (List.mem_singleton_self row)
      refine (hMapper hKnows ⟨_, hPlan, hSound⟩ hAfter).bind
        fun ref last hLast _ hRef => ?_
      refine Work.leads_pure hLast fun other hMem => ?_
      cases hMem
      exact ⟨row, hAnswers, hRef⟩
  | _ :: _ :: _, _ => exact Work.leads_of_error rfl hAfter

theorem findAllBy_leads (h : L.Keeps Sound I) {mapper : RowMapper σ}
    (hMapper : MapsWell L Sound I mapper) {d : Descriptor}
    (hKnows : L.Knows d) (column : String) (v : Value) {work : Work σ}
    (hI : I work) :
    Work.Leads I work (L.findAllBy mapper d column v) fun _ _ => True := by
  have hPlan : Plan.Selects ⟨.selectBy d.table column, [v]⟩ d.table :=
    Or.inr ⟨column, rfl⟩
  refine (query_leads h hKnows hPlan hI).bind
    fun found after hAfter _ hRows => ?_
  exact mapRows_leads hMapper hKnows
    (fun row hRow => ⟨_, hPlan, (hRows row hRow).1⟩) hAfter

theorem findAll_leads (h : L.Keeps Sound I) {mapper : RowMapper σ}
    (hMapper : MapsWell L Sound I mapper) {d : Descriptor}
    (hKnows : L.Knows d) {work : Work σ} (hI : I work) :
    Work.Leads I work (L.findAll mapper d) fun _ _ => True := by
  have hPlan : Plan.Selects ⟨.selectAll d.table, []⟩ d.table := Or.inl rfl
  refine (query_leads h hKnows hPlan hI).bind
    fun found after hAfter _ hRows => ?_
  exact mapRows_leads hMapper hKnows
    (fun row hRow => ⟨_, hPlan, (hRows row hRow).1⟩) hAfter

/-- An entity that is found by its identifier was registered, or its row is
mapped. -/
theorem findById_leads (h : L.Keeps Sound I) {mapper : RowMapper σ}
    (hMapper : MapsWell L Sound I mapper) (type : String) (v : Value)
    {work : Work σ} (hI : I work) :
    Work.Leads I work (L.findById mapper type v) fun _ _ => True := by
  refine Work.leads_lift_bind hI fun id? _ => ?_
  cases id? with
  | none => exact Work.leads_pure hI trivial
  | some id =>
      refine Work.leads_get_bind ?_
      split
      · exact Work.leads_pure hI trivial
      · refine Work.leads_lift_bind hI fun d hD => ?_
        exact (findOne_leads h hMapper (knows_of_descriptor hD) _ _ hI).forget

theorem collection_leads (h : L.Keeps Sound I) {mapper : RowMapper σ}
    (hMapper : MapsWell L Sound I mapper) (c : CollectionField) (owner : Value)
    {work : Work σ} (hI : I work) :
    Work.Leads I work (L.collection mapper c owner) fun _ _ => True := by
  refine Work.leads_lift_bind hI fun d hD => ?_
  refine Work.leads_lift_bind hI fun column _ => ?_
  cases c.fetch with
  | eager =>
      refine (findAllBy_leads h hMapper (knows_of_descriptor hD) _ _ hI).bind
        fun members final hFinal _ _ => ?_
      exact Work.leads_pure hFinal trivial
  | «lazy» => exact Work.leads_pure hI trivial

/-- Following a relation of a registered entity. -/
theorem follow_leads (h : L.Keeps Sound I) {mapper : RowMapper σ}
    (hMapper : MapsWell L Sound I mapper) {d : Descriptor}
    (hKnows : L.Knows d) (row : Row) {id : EntityId} {ref : Ref}
    {relation : Relation} (hRelation : relation ∈ d.relations)
    {work : Work σ} (hGet : work.context.get? ⟨d.typeName, id⟩ = some ref)
    (hI : I work) :
    Work.Leads I work (L.follow mapper row id ref relation)
      fun _ _ => True := by
  -- Assigning is the last thing that is done, to an entity still registered.
  have hAssign : ∀ {after : Work σ} (slot : Slot), I after →
      work.context.Within after.context →
      Work.Leads I after (assign ref relation.field slot)
        fun _ _ => True := by
    intro after slot hAfter hContext
    exact Work.leads_of_run rfl
      (h.assign slot hKnows (hContext _ _ hGet) hRelation hAfter) (.refl _)
      trivial
  cases relation with
  | toOne kind field target joinColumn =>
      refine Work.leads_lift_bind hI fun v _ => ?_
      by_cases hNull : v.isNull = true
      · simp only [hNull, if_true]
        exact (Work.leads_pure hI (Q := fun _ _ => True) trivial).bind
          fun related last hLast hGrown _ =>
            hAssign (.toOne related) hLast hGrown
      · simp only [hNull, Bool.false_eq_true, if_false]
        exact (findById_leads h hMapper target v hI).bind
          fun related last hLast hGrown _ =>
            hAssign (.toOne related) hLast hGrown
  | toMany c =>
      refine (collection_leads h hMapper c id.toValue hI).bind
        fun members after hAfter hContext _ => ?_
      by_cases hInspected : c.inspected = true
      · simp only [hInspected, if_true]
        refine (Work.leads_of_run (m := inspect members)
          (Q := fun _ _ => True) rfl (h.inspect members hAfter)
          (.refl _) trivial).bind fun _ last hLast hGrown _ => ?_
        exact hAssign (.toMany members) hLast (hContext.trans hGrown)
      · simp only [hInspected, Bool.false_eq_true, if_false]
        exact hAssign (.toMany members) hAfter hContext

theorem followAll_leads (h : L.Keeps Sound I) {mapper : RowMapper σ}
    (hMapper : MapsWell L Sound I mapper) {d : Descriptor}
    (hKnows : L.Knows d) (row : Row) {id : EntityId} {ref : Ref}
    {relations : List Relation} (hRelations : ∀ r ∈ relations, r ∈ d.relations)
    {work : Work σ} (hGet : work.context.get? ⟨d.typeName, id⟩ = some ref)
    (hI : I work) :
    Work.Leads I work (L.followAll mapper row id ref relations)
      fun _ _ => True := by
  induction relations generalizing work with
  | nil => exact Work.leads_pure hI trivial
  | cons relation rest ih =>
      refine (follow_leads h hMapper hKnows row
        (hRelations relation (List.mem_cons_self ..)) hGet hI).bind
        fun _ after hAfter hContext _ => ?_
      exact ih (fun r hr => hRelations r (List.mem_cons_of_mem _ hr))
        (hContext _ _ hGet) hAfter

theorem mapWith_leads (h : L.Keeps Sound I) {mapper : RowMapper σ}
    (hMapper : MapsWell L Sound I mapper) :
    MapsWell L Sound I (L.mapWith mapper) := by
  intro d row work hKnows hSound hI
  refine Work.leads_lift_bind hI fun e hRead => ?_
  refine Work.leads_lift_bind hI fun id hId => ?_
  refine Work.leads_get_bind ?_
  split
  · rename_i ref hGet
    exact Work.leads_pure hI ⟨e, id, hRead, hId, hGet⟩
  · rename_i hFree
    have hRun : (register d id e).run work =
        (.ok work.env.heap.next, ((register d id e).run work).2) := rfl
    refine (Work.leads_of_run
      (Q := fun ref after => after.context.get? ⟨d.typeName, id⟩ = some ref)
      hRun (h.register hKnows hSound hRead hId hFree hI)
      (Context.within_register hFree _ _)
      (Context.get?_register_self ..)).bind
      fun ref registered hRegistered _ hGet => ?_
    refine (followAll_leads h hMapper hKnows row (fun r hr => hr) hGet
      hRegistered).bind fun _ last hLast hContext _ => ?_
    exact Work.leads_pure hLast ⟨e, id, hRead, hId, hContext _ _ hGet⟩

/-- What the four things keep, mapping a row keeps at every depth. -/
theorem mapRow_leads (h : L.Keeps Sound I) (depth : Nat) :
    MapsWell L Sound I (L.mapRow depth) := by
  induction depth with
  | zero =>
      intro d row work _ _ hI
      exact Work.leads_of_error rfl hI
  | succ depth ih => exact mapWith_leads h ih

/-! ## Whole loads -/

theorem run_leads (h : L.Keeps Sound I) {load : RowMapper σ → Step (Work σ) α}
    {work : Work σ} {Q : α → Work σ → Prop}
    (hLoad : ∀ mapper, MapsWell L Sound I mapper →
      Work.Leads I work (load mapper) Q) :
    Work.Leads I work (L.run load) Q :=
  hLoad _ (mapRow_leads h (L.depth work))

/-- A load by identifier gives the registered entity, or that of a row that
the driver gives for the identifier. -/
theorem loadById_leads (h : L.Keeps Sound I) (type : String) (id : EntityId)
    {work : Work σ} (hI : I work) :
    Work.Leads I work (L.loadById type id) fun found after =>
      ∀ ref ∈ found, after.context.get? ⟨type, id⟩ = some ref ∨
        ∃ d row, L.descriptor type = .ok d ∧
          L.Answers work.env
              ⟨.selectBy d.table d.identifier.name, [id.toValue]⟩ row ∧
            Mapped d row ref after := by
  refine run_leads h fun mapper hMapper => ?_
  refine Work.leads_lift_bind hI fun id? hId => ?_
  rw [EntityId.ofValue_toValue] at hId
  cases hId
  refine Work.leads_get_bind ?_
  split
  · rename_i ref hGet
    refine Work.leads_pure hI fun other hMem => ?_
    cases hMem
    exact Or.inl hGet
  · refine Work.leads_lift_bind hI fun d hD => ?_
    refine (findOne_leads h hMapper (knows_of_descriptor hD) _ _ hI).imp
      fun found final _ _ hFound ref hMem => ?_
    obtain ⟨row, hAnswers, hRef⟩ := hFound ref hMem
    exact Or.inr ⟨d, row, hD, hAnswers, hRef⟩

theorem loadAll_leads (h : L.Keeps Sound I) (type : String) {work : Work σ}
    (hI : I work) :
    Work.Leads I work (L.loadAll type) fun _ _ => True := by
  refine Work.leads_lift_bind hI fun d hD => ?_
  exact run_leads h fun mapper hMapper =>
    findAll_leads h hMapper (knows_of_descriptor hD) hI

theorem loadMembers_leads (h : L.Keeps Sound I) (source : Source)
    {work : Work σ} (hI : I work) :
    Work.Leads I work (L.loadMembers source) fun _ _ => True := by
  refine Work.leads_lift_bind hI fun d hD => ?_
  exact run_leads h fun mapper hMapper =>
    findAllBy_leads h hMapper (knows_of_descriptor hD) _ _ hI

end

/-- A load that keeps whatever the four things keep. -/
def Leading [Driver σ] (load : Loader → Step (Work σ) α) : Prop :=
  ∀ {L : Loader} {Sound : Plan → Row → Prop} {I : Work σ → Prop}
    {work : Work σ}, L.Keeps Sound I → I work →
      Work.Leads I work (load L) fun _ _ => True

theorem leading_loadById [Driver σ] (type : String) (id : EntityId) :
    Leading (σ := σ) fun L => L.loadById type id :=
  fun h hI => (loadById_leads h type id hI).forget

theorem leading_loadAll [Driver σ] (type : String) :
    Leading (σ := σ) fun L => L.loadAll type :=
  fun h hI => loadAll_leads h type hI

theorem leading_loadMembers [Driver σ] (source : Source) :
    Leading (σ := σ) fun L => L.loadMembers source :=
  fun h hI => loadMembers_leads h source hI

end Loader

/-! ## Loads of a session -/

namespace Session

/-- The context that a load starts with. -/
def loadStart (shared : Bool) (scope : Scope σ) : Context :=
  if shared then scope.session.context else {}

/-- How a load of a session ends that keeps `I`: what comes of it and what it
leaves. -/
inductive Loaded (I : Work σ → Prop) (Q : α → Work σ → Prop) (shared : Bool)
    (scope : Scope σ) : Except Error α → Scope σ → Prop
  /-- No connection can be leased. -/
  | unconnected {e : Error} (hNone : scope.session.connection = none)
      (hLease : scope.backend.pool.lease = .error e) :
    Loaded I Q shared scope (.error e) scope
  /-- The load fails and leaves the context as it was. -/
  | failed {conn : ConnId} {pool : Pool} {work : Work σ} {e : Error}
      (hConn : scope.Obtains conn pool) (hI : I work) :
    Loaded I Q shared scope (.error e)
      { backend := ⟨work.env, pool⟩
        session := { scope.session with connection := some conn } }
  | done {conn : ConnId} {pool : Pool} {work : Work σ} {a : α}
      (hConn : scope.Obtains conn pool) (hI : I work)
      (hContext : (loadStart shared scope).Within work.context)
      (hQ : Q a work) :
    Loaded I Q shared scope (.ok a)
      { backend := ⟨work.env, pool⟩
        session := { scope.session with
          connection := some conn
          context := if shared then work.context
            else scope.session.context } }

/-- A session that can have a connection loads on it. -/
theorem withLoader_run (p : Persister) (shared : Bool)
    (load : Loader → Step (Work σ) α) {scope : Scope σ} {conn : ConnId}
    {pool : Pool} (h : scope.Obtains conn pool) :
    (withLoader p shared load).run scope =
      (loadIn shared (load ⟨p, conn, some scope.session.id⟩)).run
        (holding conn pool scope) := by
  rw [withLoader, Step.bind_run, ensureConnection_run h]
  rfl

/-- A load of a session ends in one of these ways if the load keeps `I`. -/
theorem loaded (p : Persister) (shared : Bool)
    (load : Loader → Step (Work σ) α) (scope : Scope σ) {I : Work σ → Prop}
    {Q : α → Work σ → Prop}
    (hLoad : ∀ conn pool, scope.Obtains conn pool →
      Work.Leads I ⟨scope.env, loadStart shared scope⟩
        (load ⟨p, conn, some scope.session.id⟩) Q) :
    Loaded I Q shared scope ((withLoader p shared load).run scope).1
      ((withLoader p shared load).run scope).2 := by
  rcases ensureConnection_cases scope with
    ⟨conn, pool, hConn, _⟩ | ⟨e, hNone, hLease, hRun⟩
  · rw [withLoader_run p shared load hConn]
    have hLeads := hLoad conn pool hConn
    rw [Work.Leads] at hLeads
    simp only [loadIn, Step.run, holding, Scope.env, loadStart] at hLeads ⊢
    rcases hWork : load ⟨p, conn, some scope.session.id⟩
      ⟨scope.backend.env, if shared = true then scope.session.context else {}⟩
      with ⟨e | a, work⟩
    · simp only [hWork] at hLeads ⊢
      exact .failed hConn hLeads
    · simp only [hWork] at hLeads ⊢
      exact .done hConn hLeads.1 hLeads.2.1 hLeads.2.2
  · rw [withLoader, Step.bind_run, hRun]
    exact .unconnected hNone hLease

end Session

end UnitOfWork

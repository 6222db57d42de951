import UnitOfWork.Proofs.Standing

/-!
# How deep a load goes

What a load can fail for is what it relies on (`Loader.Serves`): that its
queries are answered, that rows can be read, that relations lead somewhere. It
relies on its depth as well, but the depth does not run out.

A step down into a relation registers a key that was free, of a type of the
schema and with the identifier of a row of its table. While the tables have
only so many rows there are only so many such keys, at most as many as types
times rows, and each step down leaves one less of them free. So a load that is
given that depth never comes to the end of it, however the rows refer to each
other: whatever it fails for, it is not for want of depth.

## Main results

* `Loader.room_register`: a step down takes a free key;
* `Loader.mapRow_sparing`: a depth beyond the free keys is enough;
* `Loader.run_spared`: a load does not fail in a way that nothing does that it
  relies on;
* `Loader.run_ample`: the depth of a load is enough.
-/

namespace UnitOfWork

/-! ## Failures -/

/-- A result that is not a certain failure. -/
def Spared {α : Type} (bad : Error) (r : Except Error α) : Prop :=
  r ≠ .error bad

/-- A result that is not missing for want of depth. -/
def Ample {α : Type} (r : Except Error α) : Prop := r ≠ .error .endlessLoad

namespace Spared

variable {α β τ : Type} {bad : Error}

theorem ok (a : α) : Spared bad (.ok a) := nofun

theorem bind {r : Except Error α} {f : α → Except Error β} (h : Spared bad r)
    (hNext : ∀ a, r = .ok a → Spared bad (f a)) : Spared bad (r >>= f) := by
  cases r with
  | error e => exact fun hSame => h (by cases hSame; rfl)
  | ok a => exact hNext a rfl

theorem step_bind {m : Step τ α} {f : α → Step τ β} {t : τ}
    (h : Spared bad (m.run t).1)
    (hNext : ∀ a, (m.run t).1 = .ok a →
      Spared bad ((f a).run (m.run t).2).1) :
    Spared bad ((m >>= f).run t).1 := by
  rw [Step.bind_run]
  rcases hRun : m.run t with ⟨e | a, after⟩
  · rw [hRun] at h
    exact fun hSame => h (by cases hSame; rfl)
  · rw [hRun] at hNext
    exact hNext a rfl

theorem lift_bind {r : Except Error α} {f : α → Step τ β} {t : τ}
    (h : Spared bad r) (hNext : ∀ a, r = .ok a → Spared bad ((f a).run t).1) :
    Spared bad ((liftM r >>= f).run t).1 := by
  refine step_bind ?_ ?_
  · rw [Step.lift_run]
    exact h
  · rw [Step.lift_run]
    exact hNext

/-- A result that is no failure at all is there. -/
theorem exists_ok {r : Except Error α} (h : ∀ bad, Spared bad r) :
    ∃ a, r = .ok a := by
  cases r with
  | ok a => exact ⟨a, rfl⟩
  | error e => exact absurd rfl (h e)

end Spared

/-! ## Readings -/

theorem ample_ofValue (v : Value) : Ample (EntityId.ofValue v) := by
  cases v <;> nofun

theorem ample_getRequired (row : Row) (name : String) :
    Ample (row.getRequired name) := by
  unfold Row.getRequired
  split <;> nofun

theorem ScalarType.ample_read (type : ScalarType) (v : Value) :
    Ample (type.read v) := by
  unfold read
  split
  · nofun
  · unfold refusal
    split <;> nofun

theorem FieldType.ample_read (type : FieldType) (v : Value) :
    Ample (type.read v) := by
  unfold read
  split
  · nofun
  · exact type.scalar.ample_read v

theorem Schema.ample_descriptor (schema : Schema) (type : String) :
    Ample (schema.descriptor type) := by
  unfold descriptor Mapping.build
  simp only
  split
  · nofun
  · split
    · nofun
    · split <;> nofun
    · nofun

namespace Descriptor

theorem ample_columnFor (d : Descriptor) (field : String) :
    Ample (d.columnFor field) := by
  unfold columnFor
  split
  · nofun
  · split <;> nofun

theorem ample_mappedByColumn (d : Descriptor) (field : String) :
    Ample (d.mappedByColumn field) := by
  unfold mappedByColumn
  split <;> nofun

end Descriptor

namespace Loader

theorem ample_readRow (d : Descriptor) (row : Row) : Ample (readRow d row) := by
  have hAll : ∀ (columns : List Column) (e : Instance),
      Ample (columns.foldlM (readColumn row) e) := by
    intro columns
    induction columns with
    | nil => exact fun e => Spared.ok e
    | cons c rest ih =>
        intro e
        rw [List.foldlM_cons]
        refine Spared.bind ?_ fun e _ => ih e
        refine Spared.bind (ample_getRequired row c.name) fun v _ => ?_
        cases c.type? with
        | none => exact .ok e
        | some type =>
            exact .bind (type.ample_read v) fun held _ => .ok _
  exact hAll d.scalarColumns d.blank

theorem ample_requireId (d : Descriptor) (e : Instance) :
    Ample (requireId d e) := by
  refine Spared.bind (ample_ofValue _) fun id? _ => ?_
  cases id? <;> nofun

/-! ## Free keys -/

/-- The key of a row. -/
def keyOf? (d : Descriptor) (row : Row) : Option Key :=
  match readRow d row >>= requireId d with
  | .ok id => some ⟨d.typeName, id⟩
  | .error _ => none

theorem keyOf?_eq_some {d : Descriptor} {row : Row} {e : Instance}
    {id : EntityId} (hRead : readRow d row = .ok e)
    (hId : requireId d e = .ok id) :
    keyOf? d row = some ⟨d.typeName, id⟩ := by
  rw [keyOf?, hRead, except_ok_bind, hId]

section

variable [Driver σ] {L : Loader} (db : Settled σ L.connection)

/-- The keys of the rows of a type's table. -/
def keysOf (type : String) : List Key :=
  match L.descriptor type with
  | .ok d => (db.content d.table).filterMap (keyOf? d)
  | .error _ => []

/-- The keys that a load can come across. -/
def keys : List Key :=
  L.persister.schema.flatMap fun entry => keysOf db entry.1

/-- The number of keys that are free. -/
def room (ctx : Context) : Nat :=
  (keys db).countP fun key => (ctx.get? key).isNone

variable {db}

/-- A type with a descriptor is in the schema. -/
theorem mem_schema_of_knows {d : Descriptor} (hKnows : L.Knows d) :
    ∃ mapping, (d.typeName, mapping) ∈ L.persister.schema := by
  cases hLookup : L.persister.schema.lookup d.typeName with
  | some mapping => exact ⟨mapping, Assoc.mem_of_lookup hLookup⟩
  | none =>
      rw [Knows, Schema.descriptor, Schema.mapping, hLookup] at hKnows
      cases hKnows

theorem mem_keys {d : Descriptor} {row : Row} {key : Key}
    (hKnows : L.Knows d) (hRow : row ∈ db.content d.table)
    (hKey : keyOf? d row = some key) : key ∈ keys db := by
  obtain ⟨mapping, hMem⟩ := mem_schema_of_knows hKnows
  have hD : L.descriptor d.typeName = .ok d := hKnows
  refine List.mem_flatMap.2 ⟨_, hMem, ?_⟩
  rw [keysOf, hD]
  exact List.mem_filterMap.2 ⟨row, hRow, hKey⟩

/-- There are no more keys than types times rows. -/
theorem length_keys_le {t : σ} (hHolds : db.Holds t) :
    (keys db).length ≤ L.persister.schema.length * Driver.extent t := by
  have hOf : ∀ type, (keysOf db type).length ≤ Driver.extent t := by
    intro type
    unfold keysOf
    split
    · rename_i d _
      exact Nat.le_trans (List.length_filterMap_le ..)
        (db.bounded d.table hHolds)
    · exact Nat.zero_le _
  unfold keys
  induction L.persister.schema with
  | nil => exact Nat.zero_le _
  | cons entry rest ih =>
      have hFirst := hOf entry.1
      rw [List.flatMap_cons, List.length_append, List.length_cons,
        Nat.succ_mul, Nat.add_comm]
      exact Nat.add_le_add ih hFirst

theorem room_le {ctx : Context} {t : σ} (hHolds : db.Holds t) :
    room db ctx ≤ L.persister.schema.length * Driver.extent t :=
  Nat.le_trans List.countP_le_length (length_keys_le hHolds)

/-- As a context grows, keys are taken. -/
theorem room_mono {ctx after : Context} (h : ctx.Within after) :
    room db after ≤ room db ctx := by
  refine List.countP_mono_left fun key _ hFree => ?_
  rw [Option.isNone_iff_eq_none] at hFree ⊢
  exact h.free hFree

/-- What is taken from a list is counted once less. -/
theorem countP_lt_of_mem {α : Type} {l : List α} {p q : α → Bool} {a : α}
    (hImp : ∀ x, q x = true → p x = true) (hMem : a ∈ l) (hP : p a = true)
    (hQ : q a = false) : l.countP q < l.countP p := by
  induction l with
  | nil => cases hMem
  | cons first rest ih =>
      have hRest : rest.countP q ≤ rest.countP p :=
        List.countP_mono_left fun x _ => hImp x
      rcases List.mem_cons.1 hMem with rfl | hLater
      · rw [List.countP_cons_of_pos hP,
          List.countP_cons_of_neg (by rw [hQ]; exact Bool.false_ne_true)]
        exact Nat.lt_succ_of_le hRest
      · have hLess := ih hLater
        have hFirst := hImp first
        rw [List.countP_cons, List.countP_cons]
        by_cases h : q first = true
        · rw [if_pos h, if_pos (hFirst h)]
          omega
        · rw [if_neg h]
          omega

/-- A step down takes a free key. -/
theorem room_register {ctx : Context} {d : Descriptor} {row : Row}
    {e : Instance} {id : EntityId} {ref : Ref} {snapshot : List Value}
    (hKnows : L.Knows d) (hRow : row ∈ db.content d.table)
    (hRead : readRow d row = .ok e) (hId : requireId d e = .ok id)
    (hFree : ctx.get? ⟨d.typeName, id⟩ = none) :
    room db (ctx.register ⟨d.typeName, id⟩ ref snapshot) < room db ctx := by
  refine countP_lt_of_mem (a := ⟨d.typeName, id⟩) ?_
    (mem_keys hKnows hRow (keyOf?_eq_some hRead hId)) ?_ ?_
  · intro key hNone
    rw [Option.isNone_iff_eq_none] at hNone ⊢
    exact (Context.within_register hFree ref snapshot).free hNone
  · rw [hFree]
    rfl
  · rw [Context.get?_register_self]
    rfl

end

/-! ## What a load relies on -/

section

variable [Driver σ] {L : Loader} {db : Settled σ L.connection} {n : Nat}
  {work after : Work σ}

/-- The tables have their rows, and fewer keys are free than so many. -/
structure Fits (db : Settled σ L.connection) (n : Nat) (work : Work σ) :
    Prop where
  holds : db.Holds work.env.driver
  room : Loader.room db work.context < n

theorem Fits.onward (h : Fits db n work) (hOnward : L.Onward work after) :
    Fits db n after :=
  ⟨db.holds_of_asked h.holds hOnward.asked,
    Nat.lt_of_le_of_lt (room_mono hOnward.context) h.room⟩

/-- What a load relies on that does not fail in a certain way: its queries by
columns are answered, no identifier is that of several rows, rows are read, and
relations lead somewhere. -/
structure Serves (db : Settled σ L.connection) (bad : Error) : Prop where
  answers : ∀ {d c v t}, L.Knows d → c ∈ d.columns → db.Holds t →
    Spared bad (Driver.call L.connection
      (Plan.query ⟨.selectBy d.table c.name, [v]⟩) t).1
  single : ∀ {d t} {id : EntityId} {found : ResultSet}, L.Knows d →
    db.Holds t → (Driver.call L.connection
      (Plan.query ⟨.selectBy d.table d.identifier.name, [id.toValue]⟩) t).1 =
        .ok found → 1 < found.rows.length →
      bad ≠ .nonUnique d.table found.rows.length
  reads : ∀ {d row}, L.Knows d → row ∈ db.content d.table →
    Spared bad (readRow d row)
  identifies : ∀ {d row e}, L.Knows d → row ∈ db.content d.table →
    readRow d row = .ok e → Spared bad (requireId d e)
  joins : ∀ {d row kind field target column}, L.Knows d →
    row ∈ db.content d.table →
    .toOne kind field target column ∈ d.relations →
      Spared bad (row.getRequired column) ∧
      ∀ v, row.getRequired column = .ok v →
        Spared bad (EntityId.ofValue v) ∧ Spared bad (L.descriptor target)
  members : ∀ {d c}, L.Knows d → .toMany c ∈ d.relations →
    Spared bad (L.descriptor c.target) ∧
    ∀ d', L.descriptor c.target = .ok d' →
      Spared bad (d'.mappedByColumn c.mappedBy)

/-- Nothing but depth is wanting for want of depth. -/
theorem serves_endless (db : Settled σ L.connection) :
    L.Serves db .endlessLoad where
  answers := fun _ _ hHolds => db.refusal hHolds rfl
  single := fun _ _ _ _ => nofun
  reads := fun _ _ => ample_readRow _ _
  identifies := fun _ _ _ => ample_requireId _ _
  joins := fun _ _ _ => ⟨ample_getRequired _ _,
    fun _ _ => ⟨ample_ofValue _, Schema.ample_descriptor _ _⟩⟩
  members := fun _ _ => ⟨Schema.ample_descriptor _ _,
    fun d' _ => d'.ample_mappedByColumn _⟩

/-! ## Loads with enough depth -/

/-- A mapper that goes deep enough while fewer keys are free than so many. -/
def Deep (db : Settled σ L.connection) (n : Nat) (mapper : RowMapper σ) :
    Prop :=
  ∀ {d row work}, L.Knows d → row ∈ db.content d.table → Fits db n work →
    Ample ((mapper d row).run work).1

/-- A mapper that does not fail in a certain way while fewer keys are free than
so many. -/
def Sparing (db : Settled σ L.connection) (bad : Error) (n : Nat)
    (mapper : RowMapper σ) : Prop :=
  ∀ {d row work}, L.Knows d → row ∈ db.content d.table → Fits db n work →
    Spared bad ((mapper d row).run work).1

variable {bad : Error}

/-- After a step of a load that builds something, there is as much depth. -/
theorem Yields.step_spared {Owned : Ref → Prop} {Q : α → Work σ → Prop}
    {m : Step (Work σ) α} {f : α → Step (Work σ) β}
    (h : L.Yields Owned work m Q) (hFits : Fits db n work)
    (hM : Spared bad (m.run work).1)
    (hOnward : ∀ a after, Q a after → L.Onward work after)
    (hNext : ∀ a after, (m.run work).1 = .ok a → Q a after →
      Fits db n after → Spared bad ((f a).run after).1) :
    Spared bad ((m >>= f).run work).1 := by
  refine .step_bind hM fun a hA => ?_
  have hQ := h.2 a hA
  exact hNext a _ hA hQ (hFits.onward (hOnward a _ hQ))

theorem fst_query_run (plan : Plan) (work : Work σ) :
    ((L.query plan).run work).1 =
      (Driver.call L.connection plan.query work.env.driver).1 := by
  rw [query, Work.onEnv, Step.zoom_run, Persister.query_run]

variable {mapper : RowMapper σ} {d : Descriptor}

theorem mapRows_spared (hMapper : L.Builds mapper)
    (hSparing : Sparing db bad n mapper) (hKnows : L.Knows d)
    {rows : List Row} (hRows : ∀ row ∈ rows, row ∈ db.content d.table)
    (hFits : Fits db n work) :
    Spared bad ((mapRows mapper d rows).run work).1 := by
  induction rows generalizing work with
  | nil => exact .ok _
  | cons row rest ih =>
      refine (hMapper hKnows).step_spared hFits
        (hSparing hKnows (hRows row (List.mem_cons_self ..)) hFits)
        (fun _ _ h => h.1.toOnward) fun ref after _ _ hAfter => ?_
      refine .step_bind ?_ fun _ _ => .ok _
      exact ih (fun row hMem => hRows row (List.mem_cons_of_mem _ hMem)) hAfter

/-- The entities of the rows that a query finds. -/
theorem query_mapRows_spared (hMapper : L.Builds mapper)
    (hSparing : Sparing db bad n mapper) (hKnows : L.Knows d) {plan : Plan}
    (hPlan : plan.Reads d.table)
    (hAnswers : Spared bad
      (Driver.call L.connection plan.query work.env.driver).1)
    (hFits : Fits db n work) :
    Spared bad ((do
      let found ← L.query plan
      mapRows mapper d found.rows : Step (Work σ) (List Ref)).run work).1 := by
  have hQuery : Spared bad ((L.query plan).run work).1 := by
    rw [fst_query_run]
    exact hAnswers
  refine (query_yields L hPlan.isQuery work).step_spared hFits hQuery
    (fun _ _ h => h.1.toOnward) fun found after _ ⟨_, hAnswered⟩ hAfter => ?_
  refine mapRows_spared hMapper hSparing hKnows (fun row hMem => ?_) hAfter
  exact db.mem_of_read hFits.holds ⟨plan, _, hPlan, hAnswered, hMem⟩

/-- The entity of the one row that a query finds. -/
theorem findOne_spared (hSparing : Sparing db bad n mapper)
    (hKnows : L.Knows d) (column : String) (v : Value)
    (hAnswers : Spared bad (Driver.call L.connection
      (Plan.query ⟨.selectBy d.table column, [v]⟩) work.env.driver).1)
    (hSingle : ∀ found : ResultSet, (Driver.call L.connection
      (Plan.query ⟨.selectBy d.table column, [v]⟩) work.env.driver).1 =
        .ok found → 1 < found.rows.length →
      bad ≠ .nonUnique d.table found.rows.length)
    (hFits : Fits db n work) :
    Spared bad ((L.findOne mapper d column v).run work).1 := by
  have hPlan : Plan.Reads ⟨.selectBy d.table column, [v]⟩ d.table :=
    Or.inr ⟨column, v, rfl⟩
  rw [← fst_query_run] at hAnswers
  refine (query_yields L hPlan.isQuery work).step_spared hFits hAnswers
    (fun _ _ h => h.1.toOnward)
    fun found after hFound ⟨_, hAnswered⟩ hAfter => ?_
  rw [fst_query_run] at hFound
  have hOne := hSingle found hFound
  obtain ⟨names, rows, affected⟩ := found
  match rows, hAnswered, hOne with
  | [], _, _ => exact .ok _
  | [row], hAnswered, _ =>
      refine .step_bind (hSparing hKnows ?_ hAfter) fun _ _ => .ok _
      exact db.mem_of_read hFits.holds
        ⟨_, _, hPlan, hAnswered, List.mem_singleton_self _⟩
  | first :: second :: rest, _, hOne =>
      intro hSame
      refine hOne ?_ (Except.error.inj hSame).symm
      simp

variable (hServes : L.Serves db bad)

include hServes

theorem findById_spared (hSparing : Sparing db bad n mapper) (type : String)
    (v : Value) (hId : Spared bad (EntityId.ofValue v))
    (hType : Spared bad (L.descriptor type)) (hFits : Fits db n work) :
    Spared bad ((L.findById mapper type v).run work).1 := by
  refine .lift_bind hId fun id? hSome => ?_
  cases id? with
  | none => exact .ok _
  | some id =>
      refine .step_bind (.ok _) fun ctx hGet => ?_
      cases hGet
      cases work.context.get? ⟨type, id⟩ with
      | some ref =>
          simp only [Step.get_run]
          exact .ok _
      | none =>
          simp only [Step.get_run]
          refine .lift_bind hType fun d hD => ?_
          have hKnows := knows_of_descriptor hD
          rw [← EntityId.toValue_of_ofValue hSome]
          exact findOne_spared hSparing hKnows _ _
            (hServes.answers hKnows (Schema.identifier_mem_columns hD)
              hFits.holds)
            (fun _ => hServes.single hKnows hFits.holds) hFits

theorem collection_spared (hMapper : L.Builds mapper)
    (hSparing : Sparing db bad n mapper) (c : CollectionField) (v : Value)
    (hTarget : Spared bad (L.descriptor c.target))
    (hMappedBy : ∀ d, L.descriptor c.target = .ok d →
      Spared bad (d.mappedByColumn c.mappedBy)) (hFits : Fits db n work) :
    Spared bad ((L.collection mapper c v).run work).1 := by
  refine .lift_bind hTarget fun d hD => ?_
  refine .lift_bind (hMappedBy d hD) fun column hColumn => ?_
  cases c.fetch with
  | eager =>
      have hKnows := knows_of_descriptor hD
      obtain ⟨joined, hMem, rfl⟩ := Descriptor.column_of_mappedByColumn hColumn
      refine .step_bind ?_ fun _ _ => .ok _
      exact query_mapRows_spared hMapper hSparing hKnows
        (Or.inr ⟨joined.name, v, rfl⟩)
        (hServes.answers hKnows hMem hFits.holds) hFits
  | «lazy» => exact .ok _

theorem follow_spared (hMapper : L.Builds mapper)
    (hSparing : Sparing db bad n mapper) (hKnows : L.Knows d) {row : Row}
    (hRow : row ∈ db.content d.table) (id : EntityId) (ref : Ref)
    {relation : Relation} (hMem : relation ∈ d.relations)
    (hFits : Fits db n work) :
    Spared bad ((L.follow mapper row id ref relation).run work).1 := by
  cases relation with
  | toOne kind field target joinColumn =>
      obtain ⟨hRequired, hJoin⟩ := hServes.joins hKnows hRow hMem
      refine .lift_bind hRequired fun v hV => ?_
      obtain ⟨hId, hTarget⟩ := hJoin v hV
      by_cases hNull : v.isNull = true
      · simp only [hNull, if_true]
        exact .ok _
      · simp only [hNull, Bool.false_eq_true, if_false]
        exact .step_bind
          (findById_spared hServes hSparing target v hId hTarget hFits)
          fun _ _ => .ok _
  | toMany c =>
      obtain ⟨hTarget, hMappedBy⟩ := hServes.members hKnows hMem
      refine .step_bind (collection_spared hServes hMapper hSparing c _ hTarget
        hMappedBy hFits) fun members _ => ?_
      by_cases hInspected : c.inspected = true
      · simp only [hInspected, if_true]
        exact .ok _
      · simp only [hInspected, Bool.false_eq_true, if_false]
        exact .ok _

theorem followAll_spared (hMapper : L.Builds mapper)
    (hSparing : Sparing db bad n mapper) (hKnows : L.Knows d) {row : Row}
    (hRow : row ∈ db.content d.table) (id : EntityId) {ref : Ref}
    (hLt : ref < work.env.heap.next) {relations : List Relation}
    (hRelations : ∀ r ∈ relations, r ∈ d.relations)
    (hFits : Fits db n work) :
    Spared bad ((L.followAll mapper row id ref relations).run work).1 := by
  induction relations generalizing work with
  | nil => exact .ok _
  | cons relation rest ih =>
      have hFirst := follow_spared hServes hMapper hSparing hKnows hRow id ref
        (hRelations _ (List.mem_cons_self ..)) hFits
      refine (follow_yields hMapper row id hLt relation).step_spared hFits
        hFirst (fun _ _ ⟨_, h⟩ => h.grown.toOnward)
        fun _ after _ ⟨_, hFilled⟩ hAfter => ?_
      exact ih (Nat.lt_of_lt_of_le hLt hFilled.grown.next)
        (fun r hR => hRelations r (List.mem_cons_of_mem _ hR)) hAfter

/-- A step down takes a key, so what is below needs one step less. -/
theorem mapWith_sparing (hMapper : L.Builds mapper)
    (hSparing : Sparing db bad n mapper) :
    Sparing db bad (n + 1) (L.mapWith mapper) := by
  intro d row work hKnows hRow hFits
  refine .lift_bind (hServes.reads hKnows hRow) fun e hRead => ?_
  refine .lift_bind (hServes.identifies hKnows hRow hRead) fun id hId => ?_
  refine .step_bind (.ok _) fun ctx hGet => ?_
  cases hGet
  cases hFree : work.context.get? ⟨d.typeName, id⟩ with
  | some ref =>
      simp only [Step.get_run]
      exact .ok _
  | none =>
      simp only [Step.get_run]
      refine .step_bind (.ok _) fun ref hRef => ?_
      cases hRef
      refine .step_bind (followAll_spared hServes hMapper hSparing hKnows hRow
        id ?_ (fun _ hR => hR) ⟨?_, ?_⟩) fun _ _ => .ok _
      · show work.env.heap.next < (work.env.heap.alloc e).next
        rw [Heap.next_alloc]
        exact Nat.lt_succ_self _
      · exact hFits.holds
      · exact Nat.lt_of_lt_of_le
          (room_register hKnows hRow hRead hId hFree)
          (Nat.le_of_lt_succ hFits.room)

/-- A depth beyond the number of free keys is enough. -/
theorem mapRow_sparing (n : Nat) : Sparing db bad n (L.mapRow n) := by
  induction n with
  | zero => exact fun _ _ hFits => absurd hFits.room (Nat.not_lt_zero _)
  | succ n ih => exact mapWith_sparing hServes (mapRow_builds L n) ih

omit hServes

/-! ### Failures for want of depth -/

theorem mapRow_deep (db : Settled σ L.connection) (n : Nat) :
    Deep db n (L.mapRow n) :=
  mapRow_sparing (serves_endless db) n

theorem query_mapRows_ample (hMapper : L.Builds mapper)
    (hDeep : Deep db n mapper) (hKnows : L.Knows d) {plan : Plan}
    (hPlan : plan.Reads d.table) (hFits : Fits db n work) :
    Ample ((do
      let found ← L.query plan
      mapRows mapper d found.rows : Step (Work σ) (List Ref)).run work).1 :=
  query_mapRows_spared hMapper hDeep hKnows hPlan
    (db.refusal hFits.holds hPlan.isQuery) hFits

theorem findOne_ample (hDeep : Deep db n mapper) (hKnows : L.Knows d)
    (column : String) (v : Value) (hFits : Fits db n work) :
    Ample ((L.findOne mapper d column v).run work).1 :=
  findOne_spared hDeep hKnows column v (db.refusal hFits.holds rfl)
    (fun _ _ _ => nofun) hFits

theorem findById_ample (hDeep : Deep db n mapper) (type : String) (v : Value)
    (hFits : Fits db n work) :
    Ample ((L.findById mapper type v).run work).1 :=
  findById_spared (serves_endless db) hDeep type v (ample_ofValue v)
    (Schema.ample_descriptor _ _) hFits

theorem collection_ample (hMapper : L.Builds mapper)
    (hDeep : Deep db n mapper) (c : CollectionField) (v : Value)
    (hFits : Fits db n work) :
    Ample ((L.collection mapper c v).run work).1 :=
  collection_spared (serves_endless db) hMapper hDeep c v
    (Schema.ample_descriptor _ _) (fun d _ => d.ample_mappedByColumn _) hFits

/-! ## Whole loads -/

/-- The depth of a load is enough. -/
theorem run_spared (hServes : L.Serves db bad)
    {load : RowMapper σ → Step (Work σ) α}
    (hHolds : db.Holds work.env.driver)
    (hLoad : ∀ n mapper, L.Builds mapper → Sparing db bad n mapper →
      Fits db n work → Spared bad ((load mapper).run work).1) :
    Spared bad ((L.run load).run work).1 :=
  hLoad _ _ (mapRow_builds L _) (mapRow_sparing hServes (L.depth work))
    ⟨hHolds, Nat.lt_succ_of_le (room_le hHolds)⟩

theorem run_ample {load : RowMapper σ → Step (Work σ) α}
    (hHolds : db.Holds work.env.driver)
    (hLoad : ∀ n mapper, L.Builds mapper → Deep db n mapper →
      Fits db n work → Ample ((load mapper).run work).1) :
    Ample ((L.run load).run work).1 :=
  run_spared (serves_endless db) hHolds hLoad

variable {db : Standing σ L.connection}
  (hHolds : db.settled.Holds work.env.driver)

include hHolds

theorem loadById_ample (type : String) (id : EntityId) :
    Ample ((L.loadById type id).run work).1 :=
  run_ample hHolds fun _ _ _ hDeep hFits =>
    findById_ample hDeep type _ hFits

theorem loadOne_ample (type field : String) (v : Value) :
    Ample ((L.loadOne type field v).run work).1 :=
  Spared.lift_bind (Schema.ample_descriptor _ _) fun d hD =>
    .lift_bind (d.ample_columnFor field) fun _ _ =>
      run_ample hHolds fun _ _ _ hDeep hFits =>
        findOne_ample hDeep (knows_of_descriptor hD) _ v hFits

theorem loadAll_ample (type : String) :
    Ample ((L.loadAll type).run work).1 :=
  Spared.lift_bind (Schema.ample_descriptor _ _) fun _ hD =>
    run_ample hHolds fun _ _ hMapper hDeep hFits =>
      query_mapRows_ample hMapper hDeep (knows_of_descriptor hD)
        (Or.inl rfl) hFits

theorem loadAllBy_ample (type field : String) (v : Value) :
    Ample ((L.loadAllBy type field v).run work).1 :=
  Spared.lift_bind (Schema.ample_descriptor _ _) fun d hD =>
    .lift_bind (d.ample_columnFor field) fun c _ =>
      run_ample hHolds fun _ _ hMapper hDeep hFits =>
        query_mapRows_ample hMapper hDeep (knows_of_descriptor hD)
          (Or.inr ⟨c.name, v, rfl⟩) hFits

theorem loadMembers_ample (source : Source) :
    Ample ((L.loadMembers source).run work).1 :=
  Spared.lift_bind (Schema.ample_descriptor _ _) fun _ hD =>
    run_ample hHolds fun _ _ hMapper hDeep hFits =>
      query_mapRows_ample hMapper hDeep (knows_of_descriptor hD)
        (Or.inr ⟨source.column, source.owner, rfl⟩) hFits

end

end Loader

end UnitOfWork

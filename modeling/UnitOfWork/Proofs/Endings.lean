import UnitOfWork.Proofs.Graphs

/-!
# Loads come to an end

A load follows relations for as long as they lead somewhere, and what they lead
to may refer back. It ends all the same: over tables with only so many rows, a
depth is enough from some depth on, and what comes of the load no longer
depends on it. While it runs it registers no key twice, and it does not ask for
a row by an identifier whose entity is registered.

What is known in the middle of a load shows when its connection is lost: the
same load on a connection that takes only some calls more (`Severed`) makes the
same calls up to that point and leaves what was registered until then.

## Main results

* `Loader.mapRow_tracks`: a row is mapped on such a connection as it is on the
  connection itself, up to where it is lost, at the same or a greater depth;
* `Loader.Issues`: the queries that a load comes to on its own;
* `Loader.keeps_registers`: what a load registers, each key once;
* `Loader.loads_end`: all of this of every load.
-/

namespace UnitOfWork

variable {σ α β : Type}

/-! ## Connections that are lost -/

/-- The state of a driver of which only so many more calls are taken. -/
structure Severed (σ : Type) where
  state : σ
  left : Nat

namespace Severed

/-- How all other calls fail. -/
def lost : Error := .connection "connection lost"

instance [Driver σ] : Driver (Severed σ) where
  call conn c := fun t =>
    match t.left with
    | 0 => (.error lost, t)
    | left + 1 =>
      ((Driver.call conn c t.state).1, ⟨(Driver.call conn c t.state).2, left⟩)
  autoCommit conn t := Driver.autoCommit conn t.state
  extent t := Driver.extent t.state

end Severed

/-- The work on a driver of which only so many more calls are taken. -/
def Work.severed (left : Nat) (work : Work σ) : Work (Severed σ) where
  env :=
    { driver := ⟨work.env.driver, left⟩
      trace := work.env.trace
      echo := work.env.echo
      heap := work.env.heap
      inspections := work.env.inspections }
  context := work.context

@[simp] theorem Work.context_severed (left : Nat) (work : Work σ) :
    (work.severed left).context = work.context := rfl

theorem Work.severed_inj {left other : Nat} {work after : Work σ}
    (h : work.severed left = after.severed other) :
    work = after ∧ left = other := by
  obtain ⟨⟨driver, trace, echo, heap, inspections⟩, context⟩ := work
  obtain ⟨⟨driver', trace', echo', heap', inspections'⟩, context'⟩ := after
  simp only [severed, Work.mk.injEq, Env.mk.injEq, Severed.mk.injEq] at h ⊢
  tauto

/-- A step makes some calls, and another one goes the same way on a connection
that is lost after so many calls: it ends alike if they suffice, and breaks off
with the call that is not taken any more if not. Then `Broken` holds of the
calls before, of this one, and of the context that is left. -/
structure Work.Follows
    (Broken : List (ConnId × Call) → ConnId × Call → Context → Prop)
    (work : Work σ) (m : Step (Work σ) α) (m' : Step (Work (Severed σ)) α)
    (made : List (ConnId × Call)) : Prop where
  trace : (m.run work).2.env.trace = work.env.trace ++ made
  whole : ∀ left, made.length ≤ left → m'.run (work.severed left) =
    ((m.run work).1, (m.run work).2.severed (left - made.length))
  broken : ∀ first call rest, made = first ++ call :: rest →
    ∃ cut, m'.run (work.severed first.length) = (.error Severed.lost, cut) ∧
      cut.env.trace = work.env.trace ++ (first ++ [call]) ∧
        Broken (work.env.trace ++ first) call cut.context

/-- If a step is not given up for want of depth, it is followed. -/
def Work.Tracks
    (Broken : List (ConnId × Call) → ConnId × Call → Context → Prop)
    (work : Work σ) (m : Step (Work σ) α) (m' : Step (Work (Severed σ)) α) :
    Prop :=
  Ample (m.run work).1 → ∃ made, work.Follows Broken m m' made

namespace Work

variable {Broken : List (ConnId × Call) → ConnId × Call → Context → Prop}
  {work : Work σ}

/-- What is known of the call may be known in other words. -/
theorem Tracks.imp
    {Other : List (ConnId × Call) → ConnId × Call → Context → Prop}
    {m : Step (Work σ) α} {m' : Step (Work (Severed σ)) α}
    (h : work.Tracks Broken m m')
    (hImp : ∀ before call ctx, Broken before call ctx →
      Other before call ctx) : work.Tracks Other m m' := by
  intro hAmple
  obtain ⟨made, hTrace, hWhole, hBroken⟩ := h hAmple
  refine ⟨made, hTrace, hWhole, ?_⟩
  intro first call rest hMade
  obtain ⟨cut, hCut, hEnd, hLost⟩ := hBroken first call rest hMade
  exact ⟨cut, hCut, hEnd, hImp _ _ _ hLost⟩

/-- A step without calls does not depend on the connection. -/
theorem tracks_of_run {m : Step (Work σ) α} {m' : Step (Work (Severed σ)) α}
    (hTrace : (m.run work).2.env.trace = work.env.trace)
    (hRun : ∀ left, m'.run (work.severed left) =
      ((m.run work).1, (m.run work).2.severed left)) :
    work.Tracks Broken m m' := by
  refine fun _ => ⟨[], ?_, fun left _ => hRun left, ?_⟩
  · rw [hTrace, List.append_nil]
  · intro first call rest hNil
    simp at hNil

theorem tracks_pure (a : α) : work.Tracks Broken (pure a) (pure a) :=
  tracks_of_run rfl fun _ => rfl

theorem tracks_fail (e : Error) :
    work.Tracks Broken (Step.fail e : Step (Work σ) α) (Step.fail e) :=
  tracks_of_run rfl fun _ => rfl

/-- A place in two lists one after another is in the first one or beyond it. -/
theorem place_append {made more first rest : List α} {place : α}
    (h : made ++ more = first ++ place :: rest) :
    (∃ early, made = first ++ place :: early) ∨
      ∃ later, first = made ++ later ∧ more = later ++ place :: rest := by
  rcases List.append_eq_append_iff.1 h with
    ⟨later, hFirst, hMore⟩ | ⟨beyond, hMade, hPlace⟩
  · exact Or.inr ⟨later, hFirst, hMore⟩
  · rcases List.cons_eq_append_iff.1 hPlace with
      ⟨rfl, hMore⟩ | ⟨early, rfl, _⟩
    · exact Or.inr ⟨[], by simpa using hMade.symm, hMore⟩
    · exact Or.inl ⟨early, hMade⟩

/-- A step that fails has no step after it. -/
theorem Follows.bind_error {m : Step (Work σ) α}
    {m' : Step (Work (Severed σ)) α} {f : α → Step (Work σ) β}
    {f' : α → Step (Work (Severed σ)) β} {made : List (ConnId × Call)}
    {e : Error} {after : Work σ} (h : work.Follows Broken m m' made)
    (hRun : m.run work = (.error e, after)) :
    work.Follows Broken (m >>= f) (m' >>= f') made := by
  obtain ⟨hTrace, hWhole, hBroken⟩ := h
  rw [hRun] at hTrace hWhole
  have hBoth : (m >>= f).run work = (.error e, after) := by
    rw [Step.bind_run, hRun]
  refine ⟨?_, ?_, ?_⟩
  · rw [hBoth]
    exact hTrace
  · intro left hLeft
    rw [Step.bind_run, hWhole left hLeft, hBoth]
  · intro first call rest hMade
    obtain ⟨cut, hCut, hRest⟩ := hBroken first call rest hMade
    refine ⟨cut, ?_, hRest⟩
    rw [Step.bind_run, hCut]

/-- The calls of a step that succeeds come before those of the step after
it. -/
theorem Follows.bind {m : Step (Work σ) α} {m' : Step (Work (Severed σ)) α}
    {f : α → Step (Work σ) β} {f' : α → Step (Work (Severed σ)) β}
    {made more : List (ConnId × Call)} {a : α} {after : Work σ}
    (h : work.Follows Broken m m' made) (hRun : m.run work = (.ok a, after))
    (hNext : after.Follows Broken (f a) (f' a) more) :
    work.Follows Broken (m >>= f) (m' >>= f') (made ++ more) := by
  obtain ⟨hTrace, hWhole, hBroken⟩ := h
  obtain ⟨hMore, hAll, hLater⟩ := hNext
  rw [hRun] at hTrace hWhole
  have hBoth : (m >>= f).run work = (f a).run after := by
    rw [Step.bind_run, hRun]
  refine ⟨?_, ?_, ?_⟩
  · rw [hBoth, hMore, hTrace, List.append_assoc]
  · intro left hLeft
    rw [List.length_append] at hLeft
    rw [Step.bind_run, hWhole left (by omega), hBoth]
    simp only
    rw [hAll _ (by omega), List.length_append, Nat.sub_sub]
  · intro first call rest hMade
    rcases place_append hMade with ⟨early, hFirst⟩ | ⟨later, rfl, hSecond⟩
    · -- The connection is lost in the first step.
      obtain ⟨cut, hCut, hRest⟩ := hBroken first call early hFirst
      refine ⟨cut, ?_, hRest⟩
      rw [Step.bind_run, hCut]
    · -- It is lost in the second one.
      obtain ⟨cut, hCut, hEnd, hLost⟩ := hLater later call rest hSecond
      refine ⟨cut, ?_, ?_, ?_⟩
      · rw [Step.bind_run, hWhole _ (by simp)]
        simp only
        rw [List.length_append, Nat.add_sub_cancel_left]
        exact hCut
      · rw [hEnd, hTrace]
        simp
      · rw [hTrace, List.append_assoc] at hLost
        exact hLost

/-- Of two steps one after another, the second is followed from where the
first one leads. -/
theorem Tracks.bind {m : Step (Work σ) α} {m' : Step (Work (Severed σ)) α}
    {f : α → Step (Work σ) β} {f' : α → Step (Work (Severed σ)) β}
    (h : work.Tracks Broken m m')
    (hNext : ∀ a, (m.run work).1 = .ok a →
      (m.run work).2.Tracks Broken (f a) (f' a)) :
    work.Tracks Broken (m >>= f) (m' >>= f') := by
  intro hAmple
  rw [Step.bind_run] at hAmple
  rw [Tracks] at h
  cases hRun : m.run work with
  | mk r after =>
    rw [hRun] at h hNext hAmple
    cases r with
    | error e =>
        obtain ⟨made, hMade⟩ := h fun hSame => by
          cases hSame
          exact hAmple rfl
        exact ⟨made, hMade.bind_error hRun⟩
    | ok a =>
        obtain ⟨made, hMade⟩ := h (Spared.ok a)
        obtain ⟨more, hMore⟩ := hNext a rfl hAmple
        exact ⟨made ++ more, hMade.bind hRun hMore⟩

/-- A computation leaves the work as it is. -/
theorem tracks_lift_bind {r : Except Error α} {f : α → Step (Work σ) β}
    {f' : α → Step (Work (Severed σ)) β}
    (h : ∀ a, r = .ok a → work.Tracks Broken (f a) (f' a)) :
    work.Tracks Broken (liftM r >>= f) (liftM r >>= f') := by
  refine Tracks.bind (tracks_of_run ?_ ?_) ?_
  · rw [Step.lift_run]
  · intro left
    rw [Step.lift_run, Step.lift_run]
  · rw [Step.lift_run]
    exact h

/-- What is looked at is the work as it is, but for the connection. -/
theorem tracks_get_bind {f : Work σ → Step (Work σ) β}
    {f' : Work (Severed σ) → Step (Work (Severed σ)) β}
    (hSame : ∀ left, f' (work.severed left) = f' (work.severed 0))
    (h : work.Tracks Broken (f work) (f' (work.severed 0))) :
    work.Tracks Broken (Step.get >>= f) (Step.get >>= f') := by
  intro hAmple
  rw [Step.bind_run, Step.get_run] at hAmple
  obtain ⟨made, hTrace, hWhole, hBroken⟩ := h hAmple
  have hRun : ∀ left, (Step.get >>= f').run (work.severed left) =
      (f' (work.severed 0)).run (work.severed left) := by
    intro left
    rw [Step.bind_run, Step.get_run]
    simp only
    rw [hSame]
  refine ⟨made, hTrace, ?_, ?_⟩
  · intro left hLeft
    rw [hRun, hWhole left hLeft]
    rfl
  · intro first call rest hMade
    rw [hRun]
    exact hBroken first call rest hMade

end Work

/-! ## Loads whose connection is lost -/

namespace Loader

variable [Driver σ] {L : Loader} {work : Work σ}

/-- The queries that a load comes to on its own: for the row of a to-one
relation, by an identifier under which no entity is registered, and for the
members of an eager collection, by the join column that refers back, which is
not their identifier. -/
inductive Issues (L : Loader) : ConnId × Call → Context → Prop
  | entity {d : Descriptor} {id : EntityId} {ctx : Context}
      (hKnows : L.Knows d) (hFree : ctx.get? ⟨d.typeName, id⟩ = none) :
    Issues L (L.connection, Plan.query
      ⟨.selectBy d.table d.identifier.name, [id.toValue]⟩) ctx
  | members {d : Descriptor} {field column : String} {ctx : Context}
      (owner : Value) (hKnows : L.Knows d)
      (hColumn : d.mappedByColumn field = .ok column)
      (hOther : column ≠ d.identifier.name) :
    Issues L (L.connection, Plan.query
      ⟨.selectBy d.table column, [owner]⟩) ctx

theorem query_run {τ : Type} [Driver τ] (L : Loader) (plan : Plan)
    (work : Work τ) : (L.query plan).run work =
      ((Driver.call L.connection plan.query work.env.driver).1,
        ⟨L.persister.calling L.connection plan.query work.env,
          work.context⟩) := by
  rw [query, Work.onEnv, Step.zoom_run, Persister.query_run]

/-- A query is made, or not taken any more. -/
theorem query_tracks
    {Broken : List (ConnId × Call) → ConnId × Call → Context → Prop}
    {plan : Plan}
    (h : Broken work.env.trace (L.connection, plan.query) work.context) :
    work.Tracks Broken (L.query plan) (L.query plan) := by
  refine fun _ => ⟨[(L.connection, plan.query)], ?_, ?_, ?_⟩
  · rw [query_run]
    rfl
  · intro left hLeft
    cases left with
    | zero => cases hLeft
    | succ left =>
        rw [query_run, query_run]
        rfl
  · intro first call rest hMade
    cases first with
    | nil =>
        obtain ⟨rfl, _⟩ := List.cons.inj hMade
        refine ⟨⟨L.persister.calling L.connection plan.query
          (work.severed 0).env, work.context⟩, ?_, rfl, ?_⟩
        · rw [query_run]
          rfl
        · rw [List.append_nil]
          exact h
    | cons other first => simp at hMade

/-- Two mappers map rows alike, up to where the connection is lost. -/
def MapsAlike (L : Loader) (mapper : RowMapper σ)
    (mapper' : RowMapper (Severed σ)) : Prop :=
  ∀ {d : Descriptor} {row : Row} {work : Work σ}, L.Knows d →
    work.Tracks (fun _ => L.Issues) (mapper d row) (mapper' d row)

variable {mapper : RowMapper σ} {mapper' : RowMapper (Severed σ)}
  {d : Descriptor}

omit [Driver σ] in
theorem mapRows_tracks (hMapper : MapsAlike L mapper mapper')
    (hKnows : L.Knows d) (rows : List Row) :
    work.Tracks (fun _ => L.Issues) (mapRows mapper d rows)
      (mapRows mapper' d rows) := by
  induction rows generalizing work with
  | nil => exact Work.tracks_pure []
  | cons row rest ih =>
      refine (hMapper hKnows).bind fun ref _ => ?_
      exact ih.bind fun others _ => Work.tracks_pure _

/-- What is made of the rows that are found for one entity. -/
theorem findOne_tracks (hMapper : MapsAlike L mapper mapper')
    (hKnows : L.Knows d) {column : String} {v : Value}
    (hQuery : L.Issues (L.connection, Plan.query
      ⟨.selectBy d.table column, [v]⟩) work.context) :
    work.Tracks (fun _ => L.Issues) (L.findOne mapper d column v)
      (L.findOne mapper' d column v) := by
  refine (query_tracks hQuery).bind fun found _ => ?_
  match found.rows with
  | [] => exact Work.tracks_pure none
  | [row] =>
      exact (hMapper hKnows).bind fun ref _ => Work.tracks_pure (some ref)
  | _ :: _ :: _ => exact Work.tracks_fail _

/-- An entity is asked for if it is not registered. -/
theorem findById_tracks (hMapper : MapsAlike L mapper mapper')
    (type : String) (v : Value) :
    work.Tracks (fun _ => L.Issues) (L.findById mapper type v)
      (L.findById mapper' type v) := by
  refine Work.tracks_lift_bind fun id? hId => ?_
  cases id? with
  | none => exact Work.tracks_pure none
  | some id =>
      refine Work.tracks_get_bind (fun _ => rfl) ?_
      simp only [Work.context_severed]
      cases hGet : work.context.get? ⟨type, id⟩ with
      | some ref => exact Work.tracks_pure (some ref)
      | none =>
          refine Work.tracks_lift_bind fun d hD => ?_
          have hKnows : L.Knows d := knows_of_descriptor hD
          refine findOne_tracks hMapper hKnows ?_
          rw [← EntityId.toValue_of_ofValue hId]
          refine .entity hKnows ?_
          rw [Schema.typeName_of_descriptor hD]
          exact hGet

/-- The members of an eager collection are asked for. -/
theorem collection_tracks (hMapper : MapsAlike L mapper mapper')
    (c : CollectionField) (owner : Value) :
    work.Tracks (fun _ => L.Issues) (L.collection mapper c owner)
      (L.collection mapper' c owner) := by
  refine Work.tracks_lift_bind fun d hD => ?_
  refine Work.tracks_lift_bind fun column hColumn => ?_
  have hKnows : L.Knows d := knows_of_descriptor hD
  cases c.fetch with
  | «lazy» => exact Work.tracks_pure _
  | eager =>
      refine Work.Tracks.bind ?_ fun members _ => Work.tracks_pure _
      have hOther := Schema.mappedByColumn_ne hD hColumn
      refine (query_tracks (.members owner hKnows hColumn hOther)).bind
        fun found _ => ?_
      exact mapRows_tracks hMapper hKnows found.rows

theorem follow_tracks (hMapper : MapsAlike L mapper mapper') (row : Row)
    (id : EntityId) (ref : Ref) (relation : Relation) :
    work.Tracks (fun _ => L.Issues) (L.follow mapper row id ref relation)
      (L.follow mapper' row id ref relation) := by
  have hAssign : ∀ {after : Work σ} (slot : Slot),
      after.Tracks (fun _ => L.Issues) (assign ref relation.field slot)
        (assign ref relation.field slot) :=
    fun slot => Work.tracks_of_run rfl fun _ => rfl
  cases relation with
  | toOne kind field target joinColumn =>
      refine Work.tracks_lift_bind fun v _ => ?_
      by_cases hNull : v.isNull = true
      · simp only [hNull, if_true]
        exact (Work.tracks_pure none).bind fun related _ => hAssign _
      · simp only [hNull, Bool.false_eq_true, if_false]
        exact (findById_tracks hMapper target v).bind
          fun related _ => hAssign _
  | toMany c =>
      refine (collection_tracks hMapper c id.toValue).bind fun members _ => ?_
      by_cases hInspected : c.inspected = true
      · simp only [hInspected, if_true]
        refine Work.Tracks.bind (Work.tracks_of_run rfl fun _ => rfl)
          fun _ _ => hAssign _
      · simp only [hInspected, Bool.false_eq_true, if_false]
        exact hAssign _

theorem followAll_tracks (hMapper : MapsAlike L mapper mapper') (row : Row)
    (id : EntityId) (ref : Ref) (relations : List Relation) :
    work.Tracks (fun _ => L.Issues) (L.followAll mapper row id ref relations)
      (L.followAll mapper' row id ref relations) := by
  induction relations generalizing work with
  | nil => exact Work.tracks_pure ()
  | cons relation rest ih =>
      exact (follow_tracks hMapper row id ref relation).bind fun _ _ => ih

theorem mapWith_tracks (hMapper : MapsAlike L mapper mapper') :
    MapsAlike L (L.mapWith mapper) (L.mapWith mapper') := by
  intro d row work _
  refine Work.tracks_lift_bind fun e _ => ?_
  refine Work.tracks_lift_bind fun id _ => ?_
  refine Work.tracks_get_bind (fun _ => rfl) ?_
  simp only [Work.context_severed]
  cases work.context.get? ⟨d.typeName, id⟩ with
  | some ref => exact Work.tracks_pure ref
  | none =>
      refine Work.Tracks.bind (Work.tracks_of_run rfl fun _ => rfl)
        fun ref _ => ?_
      exact (followAll_tracks hMapper row id ref d.relations).bind
        fun _ _ => Work.tracks_pure ref

/-- A row is mapped alike at any depth that is at least as great. -/
theorem mapRow_tracks {n : Nat} : ∀ {depth : Nat}, n ≤ depth →
    MapsAlike L (L.mapRow n : RowMapper σ) (L.mapRow depth) := by
  induction n with
  | zero =>
      intro depth _ d row work _ hAmple
      exact absurd rfl hAmple
  | succ n ih =>
      intro depth hLe
      cases depth with
      | zero => cases hLe
      | succ depth => exact mapWith_tracks (ih (Nat.le_of_succ_le_succ hLe))

end Loader

/-! ## What a load registers -/

theorem Assoc.insert_of_not_mem {κ : Type} [DecidableEq κ] {key : κ}
    {pairs : List (κ × α)} (h : key ∉ keys pairs) (value : α) :
    insert key value pairs = pairs ++ [(key, value)] := by
  induction pairs with
  | nil => rfl
  | cons pair rest ih =>
      obtain ⟨k, v⟩ := pair
      simp only [keys, List.map_cons, List.mem_cons, not_or] at h
      rw [insert, if_neg (Ne.symm h.1), ih h.2, List.cons_append]

/-- What has been registered meanwhile: new instances, one after another, each
under a key of its own that was free. -/
structure Work.Registers (before : Work σ) (added : List (Key × Ref))
    (after : Work σ) : Prop where
  entities : after.context.entities = before.context.entities ++ added
  once : (Assoc.keys added).Nodup
  free : ∀ key ∈ Assoc.keys added, before.context.get? key = none
  instances : added.map Prod.snd =
    List.range' before.env.heap.next added.length
  next : after.env.heap.next = before.env.heap.next + added.length

namespace Work.Registers

variable {before work after : Work σ} {added : List (Key × Ref)}

theorem refl (work : Work σ) : work.Registers [] work :=
  ⟨(List.append_nil _).symm, List.nodup_nil, nofun, rfl, rfl⟩

/-- One more entity under a key that is free. -/
theorem register (h : before.Registers added work) {d : Descriptor}
    {id : EntityId} {e : Instance}
    (hFree : work.context.get? ⟨d.typeName, id⟩ = none) :
    before.Registers (added ++ [(⟨d.typeName, id⟩, work.env.heap.next)])
      ((Loader.register d id e).run work).2 := by
  have hNot : (⟨d.typeName, id⟩ : Key) ∉ Assoc.keys work.context.entities := by
    intro hMem
    have hSome := (Assoc.lookup_isSome_iff _ _).2 hMem
    rw [Context.get?] at hFree
    rw [hFree] at hSome
    cases hSome
  have hKeys : Assoc.keys work.context.entities =
      Assoc.keys before.context.entities ++ Assoc.keys added := by
    rw [h.entities, Assoc.keys, List.map_append]
    rfl
  rw [hKeys, List.mem_append, not_or] at hNot
  refine ⟨?_, ?_, ?_, ?_, ?_⟩
  · show Assoc.insert _ _ work.context.entities = _
    rw [Assoc.insert_of_not_mem, h.entities, List.append_assoc]
    rw [hKeys, List.mem_append, not_or]
    exact hNot
  · rw [Assoc.keys, List.map_append, List.nodup_append]
    refine ⟨h.once, by simp, ?_⟩
    intro key hOld other hNew
    rw [List.mem_singleton.1 hNew]
    rintro rfl
    exact hNot.2 hOld
  · intro key hMem
    rw [Assoc.keys, List.map_append, List.mem_append] at hMem
    rcases hMem with hOld | hNew
    · exact h.free key hOld
    · rw [List.mem_singleton.1 hNew, Context.get?,
        ← Option.not_isSome_iff_eq_none, Assoc.lookup_isSome_iff]
      exact hNot.1
  · rw [List.map_append, h.instances, h.next, List.length_append,
      List.length_singleton, List.range'_concat, Nat.one_mul]
    rfl
  · show (work.env.heap.alloc e).next = _
    rw [Heap.next_alloc, h.next, List.length_append]
    rfl

end Work.Registers

/-- However a load goes, it registers no key twice. -/
theorem Loader.keeps_registers [Driver σ] (L : Loader) (before : Work σ) :
    L.Keeps (fun _ _ => True)
      fun work => ∃ added, before.Registers added work where
  query := fun _ _ ⟨added, h⟩ =>
    ⟨⟨added, h.entities, h.once, h.free, h.instances, h.next⟩,
      fun _ _ _ _ => trivial⟩
  register := fun _ _ _ _ hFree ⟨_, h⟩ => ⟨_, h.register hFree⟩
  assign := by
    rintro work d id ref relation slot _ _ _ ⟨added, h⟩
    refine ⟨added, h.entities, h.once, h.free, h.instances, ?_⟩
    show (work.env.heap.modify ref _).next = _
    rw [Heap.next_modify]
    exact h.next
  inspect := fun _ ⟨added, h⟩ =>
    ⟨added, h.entities, h.once, h.free, h.instances, h.next⟩

/-! ## Every kind of load -/

namespace Loader

/-- What a load is asked for. -/
inductive Task
  /-- The entity of a type with an identifier. -/
  | byId (type : String) (v : Value)
  /-- The entity of the one row with a value in a column. -/
  | one (d : Descriptor) (column : String) (v : Value)
  /-- The entities of all rows. -/
  | all (d : Descriptor)
  /-- The entities of the rows with a value in a column. -/
  | allBy (d : Descriptor) (column : String) (v : Value)
  /-- The collection of the entities that refer to an owner. -/
  | collection (c : CollectionField) (owner : Value)

namespace Task

/-- What the load gives. -/
abbrev Result : Task → Type
  | byId .. | one .. => Option Ref
  | all _ | allBy .. => List Ref
  | collection .. => Collection Source

/-- The load, by the row mapper that it is to use. -/
def load [Driver σ] (L : Loader) (mapper : RowMapper σ) :
    (task : Task) → Step (Work σ) task.Result
  | byId type v => L.findById mapper type v
  | one d column v => L.findOne mapper d column v
  | all d => L.findAll mapper d
  | allBy d column v => L.findAllBy mapper d column v
  | collection c owner => L.collection mapper c owner

/-- The descriptor that a load is given is that of its type. -/
def Known (L : Loader) : Task → Prop
  | one d .. | all d | allBy d .. => L.Knows d
  | _ => True

/-- The query that a load is asked to begin with. -/
def plan? : Task → Option Plan
  | one d column v | allBy d column v =>
    some ⟨.selectBy d.table column, [v]⟩
  | all d => some ⟨.selectAll d.table, []⟩
  | _ => none

/-- The queries of a load: the one that it is asked to begin with, and those
that it comes to on its own. -/
def Asks (L : Loader) (task : Task) (work : Work σ)
    (before : List (ConnId × Call)) (call : ConnId × Call) (ctx : Context) :
    Prop :=
  L.Issues call ctx ∨
    before = work.env.trace ∧ ctx = work.context ∧
      ∃ plan, task.plan? = some plan ∧ call = (L.connection, plan.query)

variable [Driver σ] {L : Loader} {task : Task} {work : Work σ} {n : Nat}

/-- With enough depth a load does not fail for want of it. -/
theorem load_ample {db : Settled σ L.connection} (hKnown : task.Known L)
    (hFits : Fits db n work) :
    Ample ((task.load L (L.mapRow n)).run work).1 := by
  have hMapper : L.Builds (L.mapRow n : RowMapper σ) := mapRow_builds L n
  have hDeep : Deep db n (L.mapRow n) := mapRow_deep db n
  cases task with
  | byId type v => exact findById_ample hDeep type v hFits
  | one d column v => exact findOne_ample hDeep hKnown column v hFits
  | all d => exact query_mapRows_ample hMapper hDeep hKnown (Or.inl rfl) hFits
  | allBy d column v =>
      exact query_mapRows_ample hMapper hDeep hKnown
        (Or.inr ⟨column, v, rfl⟩) hFits
  | collection c owner => exact collection_ample hMapper hDeep c owner hFits

/-- A load of whatever kind, and however it ends, keeps what the four things
keep that a load does. -/
theorem load_keeps {Sound : Plan → Row → Prop} {I : Work σ → Prop}
    (h : L.Keeps Sound I) (hKnown : task.Known L) (hI : I work) :
    I ((task.load L (L.mapRow n)).run work).2 := by
  have hMapper : MapsWell L Sound I (L.mapRow n) := mapRow_leads h n
  have hLeads : Work.Leads I work (task.load L (L.mapRow n))
      fun _ _ => True := by
    cases task with
    | byId type v => exact findById_leads h hMapper type v hI
    | one d column v =>
        exact (findOne_leads h hMapper hKnown column v hI).forget
    | all d => exact findAll_leads h hMapper hKnown hI
    | allBy d column v => exact findAllBy_leads h hMapper hKnown column v hI
    | collection c owner => exact collection_leads h hMapper c owner hI
  unfold Work.Leads at hLeads
  generalize (task.load L (L.mapRow n)).run work = result at hLeads ⊢
  obtain ⟨_ | _, after⟩ := result
  · exact hLeads
  · exact hLeads.1

/-- A load whose connection is lost goes as far as it comes. -/
theorem load_tracks {depth : Nat} (hKnown : task.Known L) (hLe : n ≤ depth) :
    work.Tracks (task.Asks L work) (task.load L (L.mapRow n))
      (task.load L (L.mapRow depth)) := by
  have hMapper : MapsAlike L (L.mapRow n : RowMapper σ) (L.mapRow depth) :=
    mapRow_tracks hLe
  have hIssues : ∀ {α : Type} {after : Work σ} {m : Step (Work σ) α} {m'},
      after.Tracks (fun _ => L.Issues) m m' →
        after.Tracks (task.Asks L work) m m' :=
    fun h => h.imp fun _ _ _ => Or.inl
  have hOwn : ∀ {plan : Plan}, task.plan? = some plan →
      work.Tracks (task.Asks L work) (L.query plan) (L.query plan) :=
    fun hPlan => query_tracks (Or.inr ⟨rfl, rfl, _, hPlan, rfl⟩)
  cases task with
  | byId type v => exact hIssues (findById_tracks hMapper type v)
  | one d column v =>
      refine (hOwn rfl).bind fun found _ => hIssues ?_
      match found.rows with
      | [] => exact Work.tracks_pure none
      | [row] =>
          exact (hMapper hKnown).bind fun ref _ => Work.tracks_pure (some ref)
      | _ :: _ :: _ => exact Work.tracks_fail _
  | all d =>
      exact (hOwn rfl).bind fun found _ =>
        hIssues (mapRows_tracks hMapper hKnown found.rows)
  | allBy d column v =>
      exact (hOwn rfl).bind fun found _ =>
        hIssues (mapRows_tracks hMapper hKnown found.rows)
  | collection c owner => exact hIssues (collection_tracks hMapper c owner)

end Task

/-- Every load over tables with only so many rows comes to an end, however the
rows refer to each other: from some depth on it ends in the same way, and not
for want of depth. It registers no key twice and none that is taken, and when
it asks for a row by an identifier on its own, no entity is registered under
it. -/
theorem loads_end [Driver σ] {L : Loader} {db : Settled σ L.connection}
    {work : Work σ} (hHolds : db.Holds work.env.driver) {task : Task}
    (hKnown : task.Known L) :
    ∃ r after made added,
      (L.run fun mapper => task.load L mapper).run work = (r, after) ∧
      r ≠ .error .endlessLoad ∧ work.Registers added after ∧
      ∀ depth, L.depth work ≤ depth →
        (task.load L (L.mapRow depth)).run work = (r, after) ∧
        work.Follows (task.Asks L work) (task.load L (L.mapRow depth))
          (task.load L (L.mapRow depth)) made := by
  have hRoom : room db work.context < L.depth work :=
    Nat.lt_succ_of_le (room_le hHolds)
  have hAmple : ∀ depth, L.depth work ≤ depth →
      Ample ((task.load L (L.mapRow depth)).run work).1 :=
    fun depth hLe =>
      Task.load_ample hKnown ⟨hHolds, Nat.lt_of_lt_of_le hRoom hLe⟩
  obtain ⟨added, hAdded⟩ := Task.load_keeps (n := L.depth work)
    (L.keeps_registers work) hKnown ⟨[], .refl work⟩
  have hTracks : ∀ {n depth : Nat}, n ≤ depth →
      work.Tracks (task.Asks L work) (task.load L (L.mapRow n))
        (task.load L (L.mapRow depth)) :=
    fun hLe => Task.load_tracks hKnown hLe
  obtain ⟨made, hMade⟩ := hTracks (Nat.le_refl _) (hAmple _ (Nat.le_refl _))
  refine ⟨_, _, made, added, rfl, hAmple _ (Nat.le_refl _), hAdded, ?_⟩
  intro depth hLe
  -- Both loads end as the deeper one does on a connection that lasts.
  obtain ⟨first, hFirst⟩ := hTracks hLe (hAmple _ (Nat.le_refl _))
  obtain ⟨second, hSecond⟩ := hTracks (Nat.le_refl depth) (hAmple depth hLe)
  have hWhole := (hSecond.whole (first.length + second.length)
    (Nat.le_add_left ..)).symm.trans
      (hFirst.whole (first.length + second.length) (Nat.le_add_right ..))
  obtain ⟨hResult, hLeft⟩ := Prod.mk.inj hWhole
  have hAfter := (Work.severed_inj hLeft).1
  have hRun : (task.load L (L.mapRow depth)).run work =
      (task.load L (L.mapRow (L.depth work))).run work :=
    Prod.ext hResult hAfter
  have hCalls : second = made := by
    have hTrace := hSecond.trace
    rw [hRun, hMade.trace] at hTrace
    exact (List.append_cancel_left hTrace).symm
  exact ⟨hRun, hCalls ▸ hSecond⟩

end Loader

namespace Nodes

/-- What is known of the rows of the circle. -/
def fixed : Settled Store 0 := Store.settled 0 .exact (store circle).tables

/-- The descriptor of nodes that have their children at once. -/
def described : Descriptor :=
  ⟨"Node", "nodes", [.column number, .column title, .column parent,
    .collection (children .eager)], number⟩

/-- The node with the first title is looked for. -/
def search : Loader.Task := .one described "title" (.text "a")

end Nodes

/-- The node has a parent, which has it as its parent. Each of the two is
registered once, by one query for the node, one for its parent, and one each
for their children. -/
theorem Loader.loads_end_of_nodes :
    Nodes.fixed.Holds Nodes.blank.env.driver ∧
      Nodes.search.Known Nodes.loader ∧
      ∃ after made, Nodes.blank.Registers
          [(⟨"Node", .int 1⟩, 0), (⟨"Node", .int 2⟩, 1)] after ∧
        made.length = 4 ∧
        ∀ depth, 4 ≤ depth →
          (Nodes.search.load Nodes.loader (Nodes.loader.mapRow depth)).run
            Nodes.blank = (.ok (some 0), after) ∧
          Nodes.blank.Follows (Nodes.search.Asks Nodes.loader Nodes.blank)
            (Nodes.search.load Nodes.loader (Nodes.loader.mapRow depth))
            (Nodes.search.load Nodes.loader (Nodes.loader.mapRow depth))
            made := by
  have hHolds : Nodes.fixed.Holds Nodes.blank.env.driver := ⟨rfl, rfl⟩
  have hKnown : Nodes.search.Known Nodes.loader := rfl
  obtain ⟨r, after, made, added, _, _, hAdded, hEnds⟩ :=
    loads_end (L := Nodes.loader) hHolds hKnown
  obtain ⟨hRun, hFollows⟩ := hEnds 4 (Nat.le_refl 4)
  obtain ⟨rfl, rfl⟩ := Prod.mk.inj hRun
  have hEntities : added = [(⟨"Node", .int 1⟩, 0), (⟨"Node", .int 2⟩, 1)] :=
    hAdded.entities.symm
  have hLength : made.length = 4 := congrArg List.length hFollows.trace.symm
  exact ⟨hHolds, hKnown, _, made, hEntities ▸ hAdded, hLength, hEnds⟩

end UnitOfWork

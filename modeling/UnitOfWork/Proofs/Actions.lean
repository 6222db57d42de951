import UnitOfWork.Work

/-!
# What an action does

An action is carried out in three stages: it is planned on the instances as
they are, at most one call is made, and what the call gave back is settled in
the instances and the context. `Action.execute_run` takes every action apart
this way, so whatever is said of actions below speaks of a plan, one call and
a settlement, and not of three kinds of writing.

## Main results

* `Action.execute_run`: the three stages of an action;
* `Action.executed`: the outcomes of an action;
* `Action.executeAll_induct`: what each of a list of actions keeps, all of them
  keep.
-/

namespace UnitOfWork

/-! ## Calls -/

/-- The environment after a call: what the driver made of it, the record of
the call, and the echo of its statement. -/
def Persister.calling {σ : Type} [Driver σ] (p : Persister) (conn : ConnId)
    (c : Call) (env : Env σ) : Env σ :=
  { env with
    driver := (Driver.call conn c env.driver).2
    trace := env.trace ++ [(conn, c)]
    echo := env.echo ++
      if p.showSql then (c.statement?.map Statement.render).toList else [] }

namespace Persister

variable {σ : Type} [Driver σ] (p : Persister) (conn : ConnId)

@[simp] theorem heap_calling (c : Call) (env : Env σ) :
    (p.calling conn c env).heap = env.heap := rfl

@[simp] theorem trace_calling (c : Call) (env : Env σ) :
    (p.calling conn c env).trace = env.trace ++ [(conn, c)] := rfl

@[simp] theorem driver_calling (c : Call) (env : Env σ) :
    (p.calling conn c env).driver = (Driver.call conn c env.driver).2 := rfl

/-- A statement that is echoed and sent makes its call. -/
theorem echo_call_run {c : Call} {statement : Statement}
    (h : c.statement? = some statement) (env : Env σ) :
    (p.echo statement >>= fun _ => Env.call conn c).run env =
      ((Driver.call conn c env.driver).1, p.calling conn c env) := by
  rw [Step.bind_run, echo, Step.modify_run]
  cases hShow : p.showSql <;> simp [calling, h, hShow, Env.call, Step.run,
    Env.echoed]

theorem query_run (plan : Plan) (env : Env σ) :
    (p.query conn plan).run env =
      ((Driver.call conn (.query plan.statement plan.params) env.driver).1,
        p.calling conn (.query plan.statement plan.params) env) :=
  p.echo_call_run conn rfl env

theorem send_run (plan : Plan) (env : Env σ) :
    (p.send conn plan).run env =
      ((Driver.call conn (.execute plan.statement plan.params) env.driver).1,
        p.calling conn (.execute plan.statement plan.params) env) :=
  p.echo_call_run conn rfl env

theorem sendInsert_run (plan : Plan) (env : Env σ) :
    (p.sendInsert conn plan).run env =
      ((Driver.call conn (.insert plan.statement plan.params) env.driver).1,
        p.calling conn (.insert plan.statement plan.params) env) :=
  p.echo_call_run conn rfl env

end Persister

/-- The calls of a connection as they are recorded. -/
def Call.on (conn : ConnId) (calls : List Call) : List (ConnId × Call) :=
  calls.map fun c => (conn, c)

/-- What a write gave back: the number of rows touched, and the key of an
inserted row. -/
def Call.receipt : (c : Call) → c.Answer → Nat × Option Value
  | .execute .., affected => (affected, none)
  | .insert .., receipt => receipt
  | _, _ => (0, none)

/-- The call of an action of a kind on the table of a descriptor. -/
def ActionKind.call (d : Descriptor) (params : List Value) :
    ActionKind → Call
  | insert =>
    .insert (.insert d.table (d.insertedColumns.map Column.name)) params
  | update =>
    .execute (.updateBy d.table (d.updatedColumns.map Column.name)
      d.identifier.name) params
  | delete => .execute (.deleteBy d.table d.identifier.name) params

namespace Action

/-! ## The stages -/

/-- The call that carries out an action on the instances of a heap; there is
none for the update of an entity that has no column but its identifier. -/
def call? (schema : Schema) (heap : Heap) (action : Action) :
    Except Error (Option Call) := do
  let (d, e) ← heap.writable schema action.entity
  match action.kind with
  | .insert =>
    let plan ← heap.insertion schema d e
    .ok (some (.insert plan.statement plan.params))
  | .update =>
    let plan? ← heap.updating schema d e
    .ok (plan?.map fun plan => .execute plan.statement plan.params)
  | .delete =>
    let plan ← Heap.deletion d e
    .ok (some (.execute plan.statement plan.params))

variable {σ : Type}

/-- Gives an inserted entity the key of its row, if its mapping asks for
one. -/
def receiveKey (p : Persister) (action : Action) (key : Option Value) :
    Step (Env σ) Unit :=
  match action.kind with
  | .insert => do
    let heap := (← Step.get).heap
    let d ← p.schema.descriptor (heap.get action.entity).type
    if d.identifier.isGenerated then
      match key with
      | some key => Persister.assignKey d action.entity key
      | none => Step.fail (.mapping (.noGeneratedKey d.typeName))
  | _ => pure ()

/-- The context after an action that has been carried out. -/
def follow (p : Persister) (action : Action) (heap : Heap) (ctx : Context) :
    Except Error Context :=
  match action.kind with
  | .insert => Prod.snd <$> ctx.cache p.schema heap action.entity
  | .update => ctx.refresh p.schema heap action.entity
  | .delete => ctx.remove p.schema heap action.entity

/-- What happens to the instances and the context after the call of an action:
the count of rows has to be one, an inserted entity gets its key, and the
context follows. -/
def settle (p : Persister) (action : Action) (receipt : Nat × Option Value) :
    Step (Work σ) Unit := do
  expectOne action.kind.name receipt.1
  Work.onEnv (action.receiveKey p receipt.2)
  Work.onContext (action.follow p)

end Action

/-! ## Taking an action apart -/

theorem except_ok_bind {α β : Type} (a : α) (f : α → Except Error β) :
    ((.ok a : Except Error α) >>= f) = f a := rfl

@[simp] theorem Step.lift_run {τ α : Type} (r : Except Error α) (t : τ) :
    (liftM r : Step τ α).run t = (r, t) := rfl

theorem except_bind_eq_ok {ε α β : Type} {x : Except ε α}
    {f : α → Except ε β} {b : β} :
    (x >>= f) = .ok b ↔ ∃ a, x = .ok a ∧ f a = .ok b := by
  cases x with
  | error e => simp [bind, Except.bind]
  | ok a => simp [bind, Except.bind]

theorem except_eq_ok_of_isOk {ε : Type} {x : Except ε Unit}
    (h : x.isOk = true) : x = .ok () := by
  cases x with
  | error e => cases h
  | ok _ => rfl

/-- A run that succeeds is told by what it leaves. -/
theorem run_eq_of_isOk {ε τ : Type} {result : Except ε Unit × τ}
    (h : result.1.isOk = true) : result = (.ok (), result.2) :=
  Prod.ext (except_eq_ok_of_isOk h) rfl

/-- A block that starts on the environment goes on with what that left. -/
theorem Work.onEnv_bind_run {σ α β : Type} (m : Step (Env σ) α)
    (f : α → Step (Work σ) β) (work : Work σ) :
    (onEnv m >>= f).run work =
      match m.run work.env with
      | (.ok a, env) => (f a).run { work with env := env }
      | (.error e, env) => (.error e, { work with env := env }) := by
  rw [Step.bind_run, onEnv, Step.zoom_run]
  rcases m.run work.env with ⟨_ | _, _⟩ <;> rfl

theorem Work.onContext_run {σ : Type}
    (f : Heap → Context → Except Error Context) (work : Work σ) :
    (onContext f).run work =
      match f work.env.heap work.context with
      | .ok context => (.ok (), { work with context := context })
      | .error e => (.error e, work) := rfl

/-- What can be written: an instance of a type with a descriptor that is not
borrowed for change. -/
theorem Heap.writable_eq_ok_iff {schema : Schema} {heap : Heap} {ref : Ref}
    {d : Descriptor} {e : Instance} :
    heap.writable schema ref = .ok (d, e) ↔
      schema.descriptor (heap.get ref).type = .ok d ∧
        (heap.get ref).isReadable = true ∧ e = heap.get ref := by
  unfold writable
  cases hD : schema.descriptor (heap.get ref).type with
  | error e' => simp [bind, Except.bind]
  | ok d' =>
      cases (heap.get ref).isReadable <;>
        simp [bind, Except.bind, eq_comm]

namespace Action

variable {σ : Type}

/-- What an action calls is planned for its entity, which can be looked at. -/
theorem call?_eq_ok {schema : Schema} {heap : Heap} {action : Action}
    {c? : Option Call} (h : action.call? schema heap = .ok c?) :
    ∃ d, schema.descriptor (heap.get action.entity).type = .ok d ∧
      (heap.get action.entity).isReadable = true ∧
      match action.kind with
      | .insert => ∃ plan,
        heap.insertion schema d (heap.get action.entity) = .ok plan ∧
          c? = some (.insert plan.statement plan.params)
      | .update => ∃ plan?,
        heap.updating schema d (heap.get action.entity) = .ok plan? ∧
          c? = plan?.map fun plan => .execute plan.statement plan.params
      | .delete => ∃ plan,
        Heap.deletion d (heap.get action.entity) = .ok plan ∧
          c? = some (.execute plan.statement plan.params) := by
  obtain ⟨kind, ref⟩ := action
  obtain ⟨⟨d, e⟩, hWritable, hPlan⟩ := except_bind_eq_ok.1 h
  obtain ⟨hD, hReadable, rfl⟩ := Heap.writable_eq_ok_iff.1 hWritable
  refine ⟨d, hD, hReadable, ?_⟩
  cases kind with
  | insert =>
      obtain ⟨plan, hInsertion, hCall⟩ := except_bind_eq_ok.1 hPlan
      exact ⟨plan, hInsertion, (Except.ok.inj hCall).symm⟩
  | update =>
      obtain ⟨plan?, hUpdating, hCall⟩ := except_bind_eq_ok.1 hPlan
      exact ⟨plan?, hUpdating, (Except.ok.inj hCall).symm⟩
  | delete =>
      obtain ⟨plan, hDeletion, hCall⟩ := except_bind_eq_ok.1 hPlan
      exact ⟨plan, hDeletion, (Except.ok.inj hCall).symm⟩

/-- What an action calls is an INSERT, an UPDATE or a DELETE of its type. -/
theorem call_of_call? {schema : Schema} {heap : Heap} {action : Action}
    {c : Call} (h : action.call? schema heap = .ok (some c)) :
    ∃ d params, schema.descriptor (heap.get action.entity).type = .ok d ∧
      c = action.kind.call d params := by
  obtain ⟨d, hD, _, hCall⟩ := call?_eq_ok h
  obtain ⟨kind, ref⟩ := action
  cases kind with
  | insert =>
      obtain ⟨plan, hPlan, hC⟩ := hCall
      obtain ⟨values, _, hInsert⟩ := except_bind_eq_ok.1 hPlan
      cases hInsert
      cases hC
      exact ⟨d, values, hD, rfl⟩
  | update =>
      obtain ⟨plan?, hPlan, hC⟩ := hCall
      obtain ⟨id, _, hRest⟩ := except_bind_eq_ok.1 hPlan
      obtain ⟨values, _, hUpdate⟩ := except_bind_eq_ok.1 hRest
      split at hUpdate
      · cases hUpdate
        cases hC
      · cases hUpdate
        cases hC
        exact ⟨d, values ++ [id], hD, rfl⟩
  | delete =>
      obtain ⟨plan, hPlan, hC⟩ := hCall
      obtain ⟨id, _, hDelete⟩ := except_bind_eq_ok.1 hPlan
      cases hDelete
      cases hC
      exact ⟨d, [id], hD, rfl⟩

theorem settle_run (p : Persister) (action : Action)
    (receipt : Nat × Option Value) (work : Work σ) :
    (action.settle p receipt).run work =
      match expectOne action.kind.name receipt.1 with
      | .error e => (.error e, work)
      | .ok _ =>
        match (action.receiveKey p receipt.2).run work.env with
        | (.error e, env) => (.error e, { work with env := env })
        | (.ok _, env) =>
          (Work.onContext (action.follow p)).run { work with env := env } := by
  rw [settle, Step.bind_run, Step.lift_run]
  cases expectOne action.kind.name receipt.1 with
  | error e => rfl
  | ok _ =>
      simp only [Work.onEnv_bind_run]
      rcases (action.receiveKey p receipt.2).run work.env with ⟨_ | _, _⟩ <;>
        rfl

/-- Only an insert receives a key, and it does so as a writer of its type. -/
theorem receiveKey_insert_run {p : Persister} {ref : Ref} {d : Descriptor}
    {env : Env σ} (h : p.schema.descriptor (env.heap.get ref).type = .ok d)
    (key : Option Value) :
    (receiveKey p ⟨.insert, ref⟩ key).run env =
      (if d.identifier.isGenerated then
        match key with
        | some key => Persister.assignKey d ref key
        | none => Step.fail (.mapping (.noGeneratedKey d.typeName))
      else pure ()).run env := by
  simp only [receiveKey, Step.bind_run, Step.get_run, Step.lift_run, h]

end Action

/-- Inserts, updates or deletes an entity. -/
def Persister.write {σ : Type} [Driver σ] (p : Persister) (conn : ConnId)
    (action : Action) : Step (Env σ) Unit :=
  match action.kind with
  | .insert => p.insert conn action.entity
  | .update => p.update conn action.entity
  | .delete => p.delete conn action.entity

variable {σ : Type} [Driver σ] (p : Persister) (conn : ConnId)

/-- A write is planned, called and, if it touched one row, receives a key. -/
theorem Persister.write_run (action : Action) (env : Env σ) :
    (p.write conn action).run env =
      match action.call? p.schema env.heap with
      | .error e => (.error e, env)
      | .ok none => (.ok (), env)
      | .ok (some c) =>
        match (Driver.call conn c env.driver).1 with
        | .error e => (.error e, p.calling conn c env)
        | .ok answer =>
          match expectOne action.kind.name (c.receipt answer).1 with
          | .error e => (.error e, p.calling conn c env)
          | .ok _ => (action.receiveKey p (c.receipt answer).2).run
              (p.calling conn c env) := by
  obtain ⟨kind, ref⟩ := action
  cases kind with
  | insert =>
      simp only [write, Action.call?, insert, Step.bind_run, Step.get_run,
        Step.lift_run]
      cases hWritable : env.heap.writable p.schema ref with
      | error e => rfl
      | ok found =>
          obtain ⟨d, e⟩ := found
          have hD := (Heap.writable_eq_ok_iff.1 hWritable).1
          simp only [except_ok_bind]
          cases env.heap.insertion p.schema d e with
          | error e => rfl
          | ok plan =>
              have hCalled : p.schema.descriptor ((p.calling conn
                (.insert plan.statement plan.params) env).heap.get ref).type =
                  .ok d := hD
              simp only [sendInsert_run, except_ok_bind]
              cases (Driver.call conn (.insert plan.statement plan.params)
                env.driver).1 with
              | error e => rfl
              | ok answer =>
                  simp only [Call.receipt, ActionKind.name]
                  rw [Action.receiveKey_insert_run hCalled]
                  cases expectOne "insert" answer.1 <;> rfl
  | update =>
      simp only [write, Action.call?, update, Step.bind_run, Step.get_run,
        Step.lift_run]
      cases env.heap.writable p.schema ref with
      | error e => rfl
      | ok found =>
          obtain ⟨d, e⟩ := found
          simp only [except_ok_bind]
          cases env.heap.updating p.schema d e with
          | error e => rfl
          | ok plan? =>
              cases plan? with
              | none => rfl
              | some plan =>
                  simp only [except_ok_bind, Option.map_some, Step.bind_run,
                    send_run]
                  cases (Driver.call conn (.execute plan.statement plan.params)
                    env.driver).1 with
                  | error e => rfl
                  | ok affected =>
                      simp only [Call.receipt, ActionKind.name, Step.lift_run]
                      cases expectOne "update" affected <;> rfl
  | delete =>
      simp only [write, Action.call?, delete, Step.bind_run, Step.get_run,
        Step.lift_run]
      cases env.heap.writable p.schema ref with
      | error e => rfl
      | ok found =>
          obtain ⟨d, e⟩ := found
          simp only [except_ok_bind]
          cases Heap.deletion d e with
          | error e => rfl
          | ok plan =>
              simp only [send_run, except_ok_bind]
              cases (Driver.call conn (.execute plan.statement plan.params)
                env.driver).1 with
              | error e => rfl
              | ok affected =>
                  simp only [Call.receipt, ActionKind.name]
                  cases expectOne "delete" affected <;> rfl

namespace Action

/-- To carry out an action is to write, and then the context follows. -/
theorem execute_eq (action : Action) :
    (action.execute p conn : Step (Work σ) Unit) =
      Work.onEnv (p.write conn action) >>= fun _ =>
        Work.onContext (action.follow p) := by
  obtain ⟨kind, ref⟩ := action
  cases kind <;> rfl

/-- An action is planned, called and settled. -/
theorem execute_run (action : Action) (work : Work σ) :
    (action.execute p conn).run work =
      match action.call? p.schema work.env.heap with
      | .error e => (.error e, work)
      | .ok none => (Work.onContext (action.follow p)).run work
      | .ok (some c) =>
        match (Driver.call conn c work.env.driver).1 with
        | .error e => (.error e, { work with env := p.calling conn c work.env })
        | .ok answer =>
          (action.settle p (c.receipt answer)).run
            { work with env := p.calling conn c work.env } := by
  rw [execute_eq, Work.onEnv_bind_run, p.write_run]
  cases action.call? p.schema work.env.heap with
  | error e => rfl
  | ok c? =>
      cases c? with
      | none => rfl
      | some c =>
          dsimp only
          cases (Driver.call conn c work.env.driver).1 with
          | error e => rfl
          | ok answer =>
              dsimp only
              rw [settle_run]
              cases expectOne action.kind.name (c.receipt answer).1 with
              | error e => rfl
              | ok _ =>
                  dsimp only
                  rcases (action.receiveKey p (c.receipt answer).2).run
                    (p.calling conn c work.env) with ⟨_ | _, _⟩ <;> rfl

end Action

/-! ## What settling leaves alone -/

/-- Heaps that have the same instances but for the content of one, which
keeps its type. -/
structure Heap.AgreesBut (ref : Ref) (before after : Heap) : Prop where
  next : after.next = before.next
  get : ∀ other, other ≠ ref → after.get other = before.get other
  type : (after.get ref).type = (before.get ref).type

theorem Heap.AgreesBut.refl (ref : Ref) (heap : Heap) :
    heap.AgreesBut ref heap := ⟨rfl, fun _ _ => rfl, rfl⟩

/-- There is nothing to change where there is no instance. -/
theorem Heap.modify_of_le {ref : Ref} {heap : Heap} (h : heap.next ≤ ref)
    (f : Instance → Instance) : heap.modify ref f = heap := by
  obtain ⟨instances⟩ := heap
  rw [Heap.modify]
  exact congrArg Heap.mk (List.modify_eq_self h)

/-- A change that keeps the type of an instance. -/
theorem Heap.AgreesBut.modify {ref : Ref} {heap : Heap}
    {f : Instance → Instance}
    (hType : (f (heap.get ref)).type = (heap.get ref).type) :
    heap.AgreesBut ref (heap.modify ref f) := by
  refine ⟨heap.next_modify ref f, fun other hNe =>
    heap.get_modify_ne hNe f, ?_⟩
  by_cases hLt : ref < heap.next
  · rw [heap.get_modify_self hLt f, hType]
  · rw [heap.modify_of_le (Nat.le_of_not_lt hLt)]

/-- A key is put into the field of the identifier as its type reads it. -/
theorem Descriptor.withId_cases {d : Descriptor} {e keyed : Instance}
    {v : Value} (h : d.withId e v = .ok keyed) :
    (∃ type held, d.identifier.type? = some type ∧ type.read v = .ok held ∧
      keyed = e.set d.identifier.field (.scalar held)) ∨
    d.identifier.type? = none ∧ keyed = e := by
  unfold withId at h
  split at h
  · rename_i type hType
    cases hRead : type.read v with
    | error err => simp [hRead, Except.map] at h
    | ok held =>
        refine Or.inl ⟨type, held, hType, hRead, ?_⟩
        simpa [hRead, Except.map, eq_comm] using h
  · rename_i hNone
    cases h
    exact Or.inr ⟨hNone, rfl⟩

theorem Descriptor.type_of_withId {d : Descriptor} {e keyed : Instance}
    {v : Value} (h : d.withId e v = .ok keyed) : keyed.type = e.type := by
  rcases withId_cases h with ⟨_, _, _, _, rfl⟩ | ⟨_, rfl⟩
  · rfl
  · rfl

/-- The key is assigned as the descriptor reads it, or nothing is changed. -/
theorem Persister.assignKey_cases {σ : Type} (d : Descriptor) (ref : Ref)
    (key : Value) (env : Env σ) :
    (∃ e, (Persister.assignKey d ref key).run env = (.error e, env)) ∨
      ∃ keyed, d.withId (env.heap.get ref) key = .ok keyed ∧
        (Persister.assignKey d ref key).run env =
          (.ok (), env.update ref fun _ => keyed) := by
  simp only [Persister.assignKey, Step.bind_run, Step.get_run]
  cases (env.heap.get ref).isWritable with
  | false => exact Or.inl ⟨_, rfl⟩
  | true =>
      simp only [if_true, Step.bind_run, Step.lift_run]
      cases d.withId (env.heap.get ref) key with
      | error e => exact Or.inl ⟨e, rfl⟩
      | ok keyed => exact Or.inr ⟨keyed, rfl, rfl⟩

namespace Action

variable {σ : Type}

/-- How the key of an action is received. -/
inductive Received (p : Persister) (action : Action) (key : Option Value)
    (env : Env σ) : Except Error Unit → Env σ → Prop
  | refused (e : Error) : Received p action key env (.error e) env
  /-- Only an insert can have a key, and not every one has. -/
  | none (hNone : action.kind = .insert → ∃ d,
      p.schema.descriptor (env.heap.get action.entity).type = .ok d ∧
        d.identifier.isGenerated = false) :
    Received p action key env (.ok ()) env
  | assigned {d : Descriptor} {v : Value} {keyed : Instance}
      (hKind : action.kind = .insert)
      (hDescriptor :
        p.schema.descriptor (env.heap.get action.entity).type = .ok d)
      (hGenerated : d.identifier.isGenerated = true) (hKey : key = some v)
      (hKeyed : d.withId (env.heap.get action.entity) v = .ok keyed) :
    Received p action key env (.ok ())
      (env.update action.entity fun _ => keyed)

/-- A key is refused, or not asked for, or assigned. -/
theorem received (p : Persister) (action : Action) (key : Option Value)
    (env : Env σ) :
    Received p action key env ((action.receiveKey p key).run env).1
      ((action.receiveKey p key).run env).2 := by
  obtain ⟨kind, ref⟩ := action
  cases kind with
  | update => exact .none fun h => by cases h
  | delete => exact .none fun h => by cases h
  | insert =>
      cases hD : p.schema.descriptor (env.heap.get ref).type with
      | error e =>
          have hRun : (receiveKey p ⟨.insert, ref⟩ key).run env =
              (.error e, env) := by
            simp [receiveKey, Step.bind_run, hD]
          rw [hRun]
          exact .refused e
      | ok d =>
          rw [receiveKey_insert_run hD]
          cases hGenerated : d.identifier.isGenerated with
          | false => exact .none fun _ => ⟨d, hD, hGenerated⟩
          | true =>
              cases key with
              | none => exact .refused _
              | some v =>
                  simp only [if_true]
                  rcases Persister.assignKey_cases d ref v env with
                    ⟨e, hRun⟩ | ⟨keyed, hKeyed, hRun⟩
                  · rw [hRun]
                    exact .refused e
                  · rw [hRun]
                    exact .assigned rfl hD hGenerated rfl hKeyed

/-- The instances that an action leaves: an insert may give its entity a key,
and nothing else is changed. -/
structure Spares (action : Action) (before after : Heap) : Prop where
  agrees : before.AgreesBut action.entity after
  same : action.kind ≠ .insert → after = before

theorem Spares.refl (action : Action) (heap : Heap) :
    action.Spares heap heap := ⟨.refl _ _, fun _ => rfl⟩

/-- Receiving a key changes no instance but the one that is inserted, and
nothing besides instances. -/
theorem Received.env_eq {p : Persister} {action : Action}
    {key : Option Value} {env after : Env σ} {r : Except Error Unit}
    (h : Received p action key env r after) :
    after = { env with heap := after.heap } ∧
      action.Spares env.heap after.heap := by
  cases h with
  | refused e => exact ⟨rfl, .refl _ _⟩
  | none hNone => exact ⟨rfl, .refl _ _⟩
  | assigned hKind hDescriptor hGenerated hKey hKeyed =>
      exact ⟨rfl, .modify (Descriptor.type_of_withId hKeyed),
        fun hNot => absurd hKind hNot⟩

theorem expectOne_eq_ok_iff {operation : String} {affected : Nat} :
    expectOne operation affected = .ok () ↔ affected = 1 := by
  unfold expectOne
  split <;> simp_all

/-- An answer that is not accepted leaves the context alone. -/
theorem settle_error {p : Persister} {action : Action}
    {receipt : Nat × Option Value} {work after : Work σ} {e : Error}
    (h : (action.settle p receipt).run work = (.error e, after)) :
    after.context = work.context ∧
      after.env = { work.env with heap := after.env.heap } ∧
      action.Spares work.env.heap after.env.heap := by
  rw [settle_run] at h
  cases hCount : expectOne action.kind.name receipt.1 with
  | error e' =>
      rw [hCount] at h
      cases h
      exact ⟨rfl, rfl, .refl _ _⟩
  | ok _ =>
      simp only [hCount] at h
      have hKey := received p action receipt.2 work.env
      rcases hRun : (action.receiveKey p receipt.2).run work.env with
        ⟨_ | _, env⟩
      · simp only [hRun] at hKey h
        cases h
        exact ⟨rfl, hKey.env_eq⟩
      · simp only [hRun, Work.onContext_run] at hKey h
        split at h
        · cases h
        · cases h
          exact ⟨rfl, hKey.env_eq⟩

/-- An answer is accepted if it tells of one row, the key is received and the
context can follow. -/
theorem settle_ok {p : Persister} {action : Action}
    {receipt : Nat × Option Value} {work after : Work σ}
    (h : (action.settle p receipt).run work = (.ok (), after)) :
    receipt.1 = 1 ∧
      Received p action receipt.2 work.env (.ok ()) after.env ∧
      action.follow p after.env.heap work.context = .ok after.context := by
  rw [settle_run] at h
  cases hCount : expectOne action.kind.name receipt.1 with
  | error e' =>
      rw [hCount] at h
      cases h
  | ok _ =>
      simp only [hCount] at h
      have hKey := received p action receipt.2 work.env
      rcases hRun : (action.receiveKey p receipt.2).run work.env with
        ⟨_ | _, env⟩
      · simp only [hRun] at h
        cases h
      · simp only [hRun, Work.onContext_run] at hKey h
        split at h
        · rename_i hFollow
          cases h
          exact ⟨expectOne_eq_ok_iff.1 hCount, hKey, hFollow⟩
        · cases h

/-! ## The outcomes of an action -/

variable [Driver σ]

/-- How an action is carried out: what comes of it and what it leaves. -/
inductive Executed (p : Persister) (conn : ConnId) (action : Action)
    (work : Work σ) : Except Error Unit → Work σ → Prop
  /-- It fails before anything is called. -/
  | stopped (e : Error) : Executed p conn action work (.error e) work
  /-- There is nothing to call. -/
  | skipped {ctx : Context}
      (hPlan : action.call? p.schema work.env.heap = .ok none)
      (hFollow : action.follow p work.env.heap work.context = .ok ctx) :
    Executed p conn action work (.ok ()) { work with context := ctx }
  /-- The driver refuses the call. -/
  | refused {c : Call} {e : Error}
      (hPlan : action.call? p.schema work.env.heap = .ok (some c))
      (hCall : (Driver.call conn c work.env.driver).1 = .error e) :
    Executed p conn action work (.error e)
      { work with env := p.calling conn c work.env }
  /-- The call is carried out and its answer is not accepted. -/
  | unsettled {c : Call} {answer : c.Answer} {env : Env σ} (e : Error)
      (hPlan : action.call? p.schema work.env.heap = .ok (some c))
      (hCall : (Driver.call conn c work.env.driver).1 = .ok answer)
      (hEnv : env = { p.calling conn c work.env with heap := env.heap })
      (hHeap : action.Spares work.env.heap env.heap) :
    Executed p conn action work (.error e) { work with env := env }
  /-- The call is carried out and its answer accepted. -/
  | done {c : Call} {answer : c.Answer} {env : Env σ} {ctx : Context}
      (hPlan : action.call? p.schema work.env.heap = .ok (some c))
      (hCall : (Driver.call conn c work.env.driver).1 = .ok answer)
      (hCount : (c.receipt answer).1 = 1)
      (hKey : Received p action (c.receipt answer).2 (p.calling conn c work.env)
        (.ok ()) env)
      (hFollow : action.follow p env.heap work.context = .ok ctx) :
    Executed p conn action work (.ok ()) ⟨env, ctx⟩

/-- Every action is carried out in one of these ways. -/
theorem executed (p : Persister) (conn : ConnId) (action : Action)
    (work : Work σ) :
    Executed p conn action work ((action.execute p conn).run work).1
      ((action.execute p conn).run work).2 := by
  rw [execute_run]
  cases hPlan : action.call? p.schema work.env.heap with
  | error e => exact .stopped e
  | ok c? =>
      cases c? with
      | none =>
          rw [Work.onContext_run]
          cases hFollow : action.follow p work.env.heap work.context with
          | error e => exact .stopped e
          | ok ctx => exact .skipped hPlan hFollow
      | some c =>
          dsimp only
          cases hCall : (Driver.call conn c work.env.driver).1 with
          | error e => exact .refused hPlan hCall
          | ok answer =>
              dsimp only
              rcases hSettle : (action.settle p (c.receipt answer)).run
                { work with env := p.calling conn c work.env } with
                ⟨e | _, after⟩
              · obtain ⟨hContext, hEnv, hHeap⟩ := settle_error hSettle
                obtain ⟨env, ctx⟩ := after
                cases hContext
                exact .unsettled e hPlan hCall hEnv hHeap
              · obtain ⟨hCount, hKey, hFollow⟩ := settle_ok hSettle
                exact .done hPlan hCall hCount hKey hFollow

/-! ## Actions one after another -/

/-- What each action keeps of what is still to be done is kept to the end, or
to the first failure. -/
theorem executeAll_induct {p : Persister} {conn : ConnId}
    {I : List Action → Work σ → Prop} {J : Work σ → Prop}
    (hDone : ∀ action rest work after, I (action :: rest) work →
      Executed p conn action work (.ok ()) after → I rest after)
    (hFail : ∀ action rest work after e, I (action :: rest) work →
      Executed p conn action work (.error e) after → J after)
    {actions : List Action} {work : Work σ} (hI : I actions work) :
    match (executeAll p conn actions).run work with
    | (.ok _, after) => I [] after
    | (.error _, after) => J after := by
  induction actions generalizing work with
  | nil => exact hI
  | cons action rest ih =>
      have hAction := executed p conn action work
      simp only [executeAll, Step.bind_run]
      rcases hRun : (action.execute p conn).run work with ⟨e | _, after⟩
      · rw [hRun] at hAction
        exact hFail action rest work after e hI hAction
      · rw [hRun] at hAction
        exact ih (hDone action rest work after hI hAction)

/-- If all actions are carried out, so is the first one, and the others are
carried out from there. -/
theorem executeAll_cons_cases {p : Persister} {conn : ConnId} {action : Action}
    {rest : List Action} {work last : Work σ}
    (hRun : (executeAll p conn (action :: rest)).run work = (.ok (), last)) :
    ∃ mid, Executed p conn action work (.ok ()) mid ∧
      (executeAll p conn rest).run mid = (.ok (), last) := by
  have hAction := executed p conn action work
  simp only [executeAll, Step.bind_run] at hRun
  rcases hMid : (action.execute p conn).run work with ⟨e | _, mid⟩
  · rw [hMid] at hRun
    cases hRun
  · rw [hMid] at hRun hAction
    exact ⟨mid, hAction, hRun⟩

/-- The context follows an action that is carried out. -/
theorem Executed.follow {p : Persister} {conn : ConnId} {action : Action}
    {work after : Work σ} (h : Executed p conn action work (.ok ()) after) :
    action.follow p after.env.heap work.context = .ok after.context := by
  cases h with
  | skipped _ hFollow => exact hFollow
  | done _ _ _ _ hFollow => exact hFollow

/-- If all actions are carried out, the context has followed the first one, and
the others are carried out from there. -/
theorem executeAll_cons_ok {p : Persister} {conn : ConnId} {action : Action}
    {rest : List Action} {work last : Work σ}
    (hRun : (executeAll p conn (action :: rest)).run work = (.ok (), last)) :
    ∃ mid, action.follow p mid.env.heap work.context = .ok mid.context ∧
      (executeAll p conn rest).run mid = (.ok (), last) := by
  obtain ⟨mid, hAction, hRest⟩ := executeAll_cons_cases hRun
  exact ⟨mid, hAction.follow, hRest⟩

end Action

end UnitOfWork

import UnitOfWork.Proofs.Isolation

/-!
# The echo of a step

A persister that has its echo on echoes the text of each statement that it
sends; nothing else is ever echoed, and nothing ever looks at the echo or asks
whether it is on but the persister itself. So for a step there is, whatever is
in the echo before and whether the echo is on or off, one outcome, one state
apart from the echo, and one list of calls; and what the step adds to the echo
are the texts of the statements among these calls, or nothing if the echo is
off. That is what `Echoes` says, and blocks of steps keep it.

## Main results

* `Echoes.bind`, `Echoes.get_bind`, `Echoes.zoom` and the like: blocks;
* `Persister.echoes_query`, `Persister.echoes_write`: what is sent is echoed;
* `Loader.echoes_mapRow`: loads echo their queries.
-/

namespace UnitOfWork

/-! ## What is echoed -/

/-- The texts of the statements among some calls. -/
def Call.texts (made : List (ConnId × Call)) : List String :=
  made.filterMap fun call => call.2.statement?.map Statement.render

/-- What is echoed of some calls, with the echo on or off. -/
def Call.echo (on : Bool) (made : List (ConnId × Call)) : List String :=
  if on then texts made else []

theorem Call.echo_append (on : Bool) (made more : List (ConnId × Call)) :
    echo on (made ++ more) = echo on made ++ echo on more := by
  cases on with
  | false => rfl
  | true => exact List.filterMap_append

@[simp] theorem Call.echo_nil (on : Bool) : echo on [] = [] := by
  cases on <;> rfl

/-- States in which calls are recorded. -/
class Recorded (τ : Type) where
  /-- The calls made so far. -/
  calls : τ → List (ConnId × Call)

/-- States with an echo, some of which know whether it is on. -/
class Echoed (Φ τ : Type) where
  /-- The state with this echo, where the echo is on for those that say so. -/
  sound : Φ → List String → τ → τ

section

variable {Φ σ : Type}

instance : Recorded (Env σ) := ⟨Env.trace⟩

instance : Echoed Φ (Env σ) := ⟨fun _ echo env => { env with echo := echo }⟩

instance : Recorded (Work σ) := ⟨fun work => work.env.trace⟩

instance : Echoed Φ (Work σ) :=
  ⟨fun _ echo work => { work with env := { work.env with echo := echo } }⟩

end

/-- Whatever has been echoed before and for whomever the echo is on, a step has
one outcome, leaves one state and makes the same calls, and what is echoed of
them is what it adds to the echo. -/
def Echoes {Φ τ α : Type} [Recorded τ] [Echoed Φ τ] (on : Φ → Bool)
    (m : Φ → Step τ α) : Prop :=
  ∀ t, ∃ r after made, Recorded.calls after = Recorded.calls t ++ made ∧
    ∀ φ echo, (m φ).run (Echoed.sound φ echo t) =
      (r, Echoed.sound φ (echo ++ Call.echo (on φ) made) after)

namespace Echoes

variable {Φ τ υ α β : Type} [Recorded τ] [Echoed Φ τ] [Recorded υ] [Echoed Φ υ]
  {on : Φ → Bool} {m : Φ → Step τ α}

/-! ## Blocks -/

/-- A step that makes no call. -/
theorem of_silent (h : ∀ t : τ, ∃ r after,
      Recorded.calls after = Recorded.calls t ∧ ∀ φ echo,
        (m φ).run (Echoed.sound φ echo t) = (r, Echoed.sound φ echo after)) :
    Echoes on m := by
  intro t
  obtain ⟨r, after, hCalls, hRun⟩ := h t
  refine ⟨r, after, [], by rw [hCalls, List.append_nil], fun φ echo => ?_⟩
  rw [hRun, Call.echo_nil, List.append_nil]

/-- Steps that do the same on each state. -/
theorem of_eq (h : ∀ t : τ, ∃ n : Φ → Step τ α, Echoes on n ∧ ∀ φ echo,
      (m φ).run (Echoed.sound φ echo t) =
        (n φ).run (Echoed.sound φ echo t)) : Echoes on m := by
  intro t
  obtain ⟨n, hN, hSame⟩ := h t
  obtain ⟨r, after, made, hCalls, hRun⟩ := hN t
  exact ⟨r, after, made, hCalls, fun φ echo =>
    (hSame φ echo).trans (hRun φ echo)⟩

theorem lift (r : Except Error α) : Echoes on fun _ => (liftM r : Step τ α) :=
  of_silent fun t => ⟨r, t, rfl, fun _ _ => rfl⟩

theorem pure (a : α) : Echoes on fun _ => (Pure.pure a : Step τ α) :=
  of_silent fun t => ⟨.ok a, t, rfl, fun _ _ => rfl⟩

theorem fail (e : Error) : Echoes on fun _ => (Step.fail e : Step τ α) :=
  of_silent fun t => ⟨.error e, t, rfl, fun _ _ => rfl⟩

/-- One step after another. -/
theorem bind {f : Φ → α → Step τ β} (h : Echoes on m)
    (hNext : ∀ a, Echoes on fun φ => f φ a) :
    Echoes on fun φ => m φ >>= f φ := by
  intro t
  obtain ⟨r, mid, made, hCalls, hRun⟩ := h t
  cases r with
  | error e =>
      refine ⟨.error e, mid, made, hCalls, fun φ echo => ?_⟩
      rw [Step.bind_run, hRun]
  | ok a =>
      obtain ⟨r, after, more, hMore, hRest⟩ := hNext a mid
      refine ⟨r, after, made ++ more, ?_, fun φ echo => ?_⟩
      · rw [hMore, hCalls, List.append_assoc]
      · rw [Step.bind_run, hRun]
        simp only
        rw [hRest, Call.echo_append, List.append_assoc]

/-- What is read off the state does not depend on the echo. -/
theorem get_bind {f : Φ → τ → Step τ β}
    (hSame : ∀ φ echo t, f φ (Echoed.sound φ echo t) = f φ t)
    (h : ∀ t, Echoes on fun φ => f φ t) :
    Echoes on fun φ => Step.get >>= f φ :=
  of_eq fun t => ⟨fun φ => f φ t, h t, fun φ echo => by
    simp only [Step.bind_run, Step.get_run, hSame]⟩

/-- A change of the state that keeps off the echo. -/
theorem modify {f : τ → τ}
    (hSame : ∀ (φ : Φ) echo t,
      f (Echoed.sound φ echo t) = Echoed.sound φ echo (f t))
    (hCalls : ∀ t, Recorded.calls (f t) = Recorded.calls t) :
    Echoes on fun _ => Step.modify f :=
  of_silent fun t => ⟨.ok (), f t, hCalls t, fun φ echo => by
    rw [Step.modify_run, hSame]⟩

theorem ite {c : Prop} [Decidable c] {n : Φ → Step τ α} (h : Echoes on m)
    (hElse : Echoes on n) : Echoes on fun φ => if c then m φ else n φ := by
  by_cases hC : c
  · simpa only [if_pos hC] using h
  · simpa only [if_neg hC] using hElse

/-- The outcome of a step as a value. -/
theorem attempt (h : Echoes on m) : Echoes on fun φ => (m φ).attempt := by
  intro t
  obtain ⟨r, after, made, hCalls, hRun⟩ := h t
  refine ⟨.ok r, after, made, hCalls, fun φ echo => ?_⟩
  rw [Step.attempt_run, hRun]

/-- A step on a part of the state that has the calls and the echo. -/
theorem zoom {view : τ → υ} {put : υ → τ → τ} {n : Φ → Step υ α}
    (h : Echoes on n)
    (hView : ∀ (φ : Φ) echo t,
      view (Echoed.sound φ echo t) = Echoed.sound φ echo (view t))
    (hPut : ∀ (φ : Φ) echo old u t, put (Echoed.sound φ echo u)
      (Echoed.sound φ old t) = Echoed.sound φ echo (put u t))
    (hCalls : ∀ t, Recorded.calls (view t) = Recorded.calls t)
    (hKept : ∀ u t, Recorded.calls (put u t) = Recorded.calls u) :
    Echoes on fun φ => Step.zoom view put (n φ) := by
  intro t
  obtain ⟨r, after, made, hMade, hRun⟩ := h (view t)
  refine ⟨r, put after t, made, ?_, fun φ echo => ?_⟩
  · rw [hKept, hMade, hCalls]
  · rw [Step.zoom_run, hView, hRun, hPut]

end Echoes

/-! ## Calls and writes -/

section

variable {Φ σ α : Type} {on : Φ → Bool} [Driver σ]

/-- A call that sends no statement is not echoed. -/
theorem Env.echoes_call (conn : ConnId) {c : Call}
    (h : c.statement? = none) :
    Echoes on fun _ => (Env.call conn c : Step (Env σ) c.Answer) := by
  intro env
  refine ⟨(Driver.call conn c env.driver).1, env.called conn c, [(conn, c)],
    rfl, fun φ echo => ?_⟩
  have hNone : Call.echo (on φ) [(conn, c)] = [] := by
    cases on φ <;> simp [Call.echo, Call.texts, h]
  rw [hNone, List.append_nil]
  rfl

/-- A call that no persister makes is not, whatever it sends. -/
theorem Env.echoes_call_apart (conn : ConnId) (c : Call) :
    Echoes (fun _ : Φ => false) fun _ =>
      (Env.call conn c : Step (Env σ) c.Answer) := by
  intro env
  refine ⟨(Driver.call conn c env.driver).1, env.called conn c, [(conn, c)],
    rfl, fun φ echo => ?_⟩
  rw [Call.echo, if_neg Bool.false_ne_true, List.append_nil]
  rfl

namespace Persister

variable (schema : Schema) (conn : ConnId)

/-- What a persister sends is echoed first, whatever the driver makes of it. -/
theorem echoes_call {c : Call} {statement : Statement}
    (h : c.statement? = some statement) :
    Echoes on fun φ => (echo ⟨schema, on φ⟩ statement >>= fun _ =>
      Env.call conn c : Step (Env σ) c.Answer) := by
  intro env
  refine ⟨(Driver.call conn c env.driver).1, env.called conn c, [(conn, c)],
    rfl, fun φ echo => ?_⟩
  have hText : Call.echo (on φ) [(conn, c)] =
      if on φ then (c.statement?.map Statement.render).toList else [] := by
    cases on φ <;> simp [Call.echo, Call.texts, h]
  rw [echo_call_run _ conn h, hText]
  rfl

theorem echoes_query (plan : Plan) :
    Echoes on fun φ =>
      (query ⟨schema, on φ⟩ conn plan : Step (Env σ) ResultSet) :=
  echoes_call schema conn rfl

omit [Driver σ] in
theorem echoes_assignKey (d : Descriptor) (ref : Ref) (key : Value) :
    Echoes on fun _ => (assignKey d ref key : Step (Env σ) Unit) := by
  unfold assignKey
  refine .get_bind (fun _ _ _ => rfl) fun env => .ite ?_ (.fail _)
  exact .bind (.lift _) fun _ => .modify (fun _ _ _ => rfl) fun _ => rfl

theorem echoes_insert (ref : Ref) :
    Echoes on fun φ =>
      (insert ⟨schema, on φ⟩ conn ref : Step (Env σ) Unit) := by
  refine .get_bind (fun _ _ _ => rfl) fun env => ?_
  refine .bind (.lift (env.heap.writable schema ref)) fun (d, e) => ?_
  refine .bind (.lift (env.heap.insertion schema d e)) fun plan => ?_
  refine .bind (echoes_call schema conn rfl) fun (affected, key) => ?_
  refine .bind (.lift _) fun _ => .ite ?_ (.pure ())
  cases key with
  | some key => exact echoes_assignKey d ref key
  | none => exact .fail _

theorem echoes_update (ref : Ref) :
    Echoes on fun φ =>
      (update ⟨schema, on φ⟩ conn ref : Step (Env σ) Unit) := by
  refine .get_bind (fun _ _ _ => rfl) fun env => ?_
  refine .bind (.lift (env.heap.writable schema ref)) fun (d, e) => ?_
  refine .bind (.lift (env.heap.updating schema d e)) fun plan? => ?_
  cases plan? with
  | none => exact .pure ()
  | some plan => exact .bind (echoes_call schema conn rfl) fun _ => .lift _

theorem echoes_delete (ref : Ref) :
    Echoes on fun φ =>
      (delete ⟨schema, on φ⟩ conn ref : Step (Env σ) Unit) := by
  refine .get_bind (fun _ _ _ => rfl) fun env => ?_
  refine .bind (.lift (env.heap.writable schema ref)) fun (d, e) => ?_
  refine .bind (.lift (Heap.deletion d e)) fun plan => ?_
  exact .bind (echoes_call schema conn rfl) fun _ => .lift _

/-- A write echoes the statement that it sends, and nothing if it sends
none. -/
theorem echoes_write (action : Action) :
    Echoes on fun φ =>
      (write ⟨schema, on φ⟩ conn action : Step (Env σ) Unit) := by
  obtain ⟨kind, ref⟩ := action
  cases kind with
  | insert => exact echoes_insert schema conn ref
  | update => exact echoes_update schema conn ref
  | delete => exact echoes_delete schema conn ref

end Persister

/-! ## Work -/

namespace Work

omit [Driver σ] in
theorem echoes_onEnv {m : Φ → Step (Env σ) α} (h : Echoes on m) :
    Echoes on fun φ => Work.onEnv (m φ) :=
  h.zoom (fun _ _ _ => rfl) (fun _ _ _ _ _ => rfl) (fun _ => rfl)
    fun _ _ => rfl

omit [Driver σ] in
theorem echoes_onContext (f : Heap → Context → Except Error Context) :
    Echoes on fun _ => (onContext f : Step (Work σ) Unit) := by
  refine .of_silent fun work => ⟨((onContext f).run work).1,
    ((onContext f).run work).2,
    congrArg Env.trace (env_onContext f work), fun φ echo => ?_⟩
  have hSame : f (Echoed.sound φ echo work : Work σ).env.heap
      (Echoed.sound φ echo work : Work σ).context =
        f work.env.heap work.context := rfl
  rw [onContext_run, onContext_run, hSame]
  cases f work.env.heap work.context <;> rfl

end Work

namespace Action

variable (schema : Schema) (conn : ConnId)

theorem echoes_execute (action : Action) :
    Echoes on fun φ =>
      (action.execute ⟨schema, on φ⟩ conn : Step (Work σ) Unit) := by
  simp only [execute_eq]
  exact .bind (Work.echoes_onEnv (Persister.echoes_write schema conn action))
    fun _ => Work.echoes_onContext (action.follow ⟨schema, false⟩)

theorem echoes_executeAll (actions : List Action) :
    Echoes on fun φ =>
      (executeAll ⟨schema, on φ⟩ conn actions : Step (Work σ) Unit) := by
  induction actions with
  | nil => exact .pure ()
  | cons action rest ih =>
      exact .bind (echoes_execute schema conn action) fun _ => ih

end Action

/-! ## Loads -/

namespace Loader

variable (schema : Schema) (conn : ConnId) (session : Option Nat)
  {mapper : Φ → RowMapper σ}

theorem echoes_query (plan : Plan) :
    Echoes on fun φ =>
      (query ⟨⟨schema, on φ⟩, conn, session⟩ plan : Step (Work σ) ResultSet) :=
  Work.echoes_onEnv (Persister.echoes_query schema conn plan)

omit [Driver σ] in
theorem echoes_mapRows (hMapper : ∀ d row, Echoes on fun φ => mapper φ d row)
    (d : Descriptor) (rows : List Row) :
    Echoes on fun φ => mapRows (mapper φ) d rows := by
  induction rows with
  | nil => exact .pure []
  | cons row rest ih =>
      exact .bind (hMapper d row) fun _ => .bind ih fun _ => .pure _

theorem echoes_findOne (hMapper : ∀ d row, Echoes on fun φ => mapper φ d row)
    (d : Descriptor) (column : String) (v : Value) :
    Echoes on fun φ =>
      findOne ⟨⟨schema, on φ⟩, conn, session⟩ (mapper φ) d column v := by
  refine .bind (echoes_query schema conn session _) fun found => ?_
  rcases found.rows with _ | ⟨row, _ | ⟨second, rest⟩⟩
  · exact .pure none
  · exact .bind (hMapper d row) fun _ => .pure _
  · exact .fail _

theorem echoes_findAllBy
    (hMapper : ∀ d row, Echoes on fun φ => mapper φ d row)
    (d : Descriptor) (column : String) (v : Value) :
    Echoes on fun φ =>
      findAllBy ⟨⟨schema, on φ⟩, conn, session⟩ (mapper φ) d column v :=
  .bind (echoes_query schema conn session _) fun found =>
    echoes_mapRows hMapper d found.rows

theorem echoes_findAll (hMapper : ∀ d row, Echoes on fun φ => mapper φ d row)
    (d : Descriptor) : Echoes on fun φ =>
      findAll ⟨⟨schema, on φ⟩, conn, session⟩ (mapper φ) d :=
  .bind (echoes_query schema conn session _) fun found =>
    echoes_mapRows hMapper d found.rows

theorem echoes_findById (hMapper : ∀ d row, Echoes on fun φ => mapper φ d row)
    (type : String) (v : Value) : Echoes on fun φ =>
      findById ⟨⟨schema, on φ⟩, conn, session⟩ (mapper φ) type v := by
  refine .bind (.lift _) fun id? => ?_
  cases id? with
  | none => exact .pure none
  | some id =>
      refine .get_bind (fun _ _ _ => rfl) fun work => ?_
      cases work.context.get? ⟨type, id⟩ with
      | some ref => exact .pure _
      | none => exact .bind (.lift (schema.descriptor type)) fun d =>
          echoes_findOne schema conn session hMapper d _ v

theorem echoes_collection
    (hMapper : ∀ d row, Echoes on fun φ => mapper φ d row)
    (c : CollectionField) (owner : Value) : Echoes on fun φ =>
      collection ⟨⟨schema, on φ⟩, conn, session⟩ (mapper φ) c owner := by
  refine .bind (.lift (schema.descriptor c.target)) fun d =>
    .bind (.lift _) fun column => ?_
  cases c.fetch with
  | eager =>
      refine .bind ?_ fun _ => .pure _
      exact echoes_findAllBy schema conn session hMapper d column owner
  | lazy =>
      dsimp only
      exact .pure _

/-- Following a relation echoes what the mapper echoes, and the query. -/
theorem echoes_follow (hMapper : ∀ d row, Echoes on fun φ => mapper φ d row)
    (row : Row) (id : EntityId) (ref : Ref) (relation : Relation) :
    Echoes on fun φ => follow ⟨⟨schema, on φ⟩, conn, session⟩ (mapper φ) row id
      ref relation := by
  have hAssign : ∀ field slot,
      Echoes on fun _ => (assign ref field slot : Step (Work σ) Unit) :=
    fun _ _ => .modify (fun _ _ _ => rfl) fun _ => rfl
  cases relation with
  | toOne kind field target joinColumn =>
      refine .bind (.lift _) fun v => ?_
      dsimp only
      refine .ite (.bind (.pure none) fun _ => hAssign _ _) (.bind ?_ fun _ =>
        hAssign _ _)
      exact echoes_findById schema conn session hMapper target v
  | toMany c =>
      refine .bind (echoes_collection schema conn session hMapper c _)
        fun members => ?_
      dsimp only
      refine .ite (.bind ?_ fun _ => hAssign _ _) (hAssign _ _)
      exact .modify (fun _ _ _ => rfl) fun _ => rfl

theorem echoes_followAll
    (hMapper : ∀ d row, Echoes on fun φ => mapper φ d row)
    (row : Row) (id : EntityId) (ref : Ref) (relations : List Relation) :
    Echoes on fun φ => followAll ⟨⟨schema, on φ⟩, conn, session⟩ (mapper φ) row
      id ref relations := by
  induction relations with
  | nil => exact .pure ()
  | cons relation rest ih =>
      refine .bind ?_ fun _ => ih
      exact echoes_follow schema conn session hMapper row id ref relation

/-- Making an entity of a row does, if making the related ones does. -/
theorem echoes_mapWith (hMapper : ∀ d row, Echoes on fun φ => mapper φ d row)
    (d : Descriptor) (row : Row) : Echoes on fun φ =>
      mapWith ⟨⟨schema, on φ⟩, conn, session⟩ (mapper φ) d row := by
  refine .bind (.lift _) fun e => .bind (.lift _) fun id =>
    .get_bind (fun _ _ _ => rfl) fun work => ?_
  cases work.context.get? ⟨d.typeName, id⟩ with
  | some ref => exact .pure ref
  | none =>
      have hRegister : Echoes on fun _ =>
          (register d id e : Step (Work σ) Ref) :=
        .of_silent fun work => ⟨.ok work.env.heap.next,
          ((register d id e).run work).2, rfl, fun _ _ => rfl⟩
      refine .bind hRegister fun ref => .bind ?_ fun _ => .pure ref
      exact echoes_followAll schema conn session hMapper row id ref d.relations

/-- So entities are made of rows at every depth. -/
theorem echoes_mapRow (depth : Nat) (d : Descriptor) (row : Row) :
    Echoes on fun φ => (mapRow ⟨⟨schema, on φ⟩, conn, session⟩ depth d row :
      Step (Work σ) Ref) := by
  induction depth generalizing d row with
  | zero => exact .fail _
  | succ depth ih => exact echoes_mapWith schema conn session ih d row

/-- How deep a load goes does not depend on the echo. -/
theorem echoes_run {load : Φ → RowMapper σ → Step (Work σ) α}
    (h : ∀ mapper : Φ → RowMapper σ,
      (∀ d row, Echoes on fun φ => mapper φ d row) →
        Echoes on fun φ => load φ (mapper φ)) :
    Echoes on fun φ => run ⟨⟨schema, on φ⟩, conn, session⟩ (load φ) :=
  .of_eq fun work => ⟨_, h _ (echoes_mapRow schema conn session
    (depth ⟨⟨schema, false⟩, conn, session⟩ work)), fun _ _ => rfl⟩

theorem echoes_loadById (type : String) (id : EntityId) :
    Echoes on fun φ => (loadById ⟨⟨schema, on φ⟩, conn, session⟩ type id :
      Step (Work σ) (Option Ref)) :=
  echoes_run schema conn session fun _ hMapper =>
    echoes_findById schema conn session hMapper type _

theorem echoes_loadOne (type field : String) (v : Value) :
    Echoes on fun φ => (loadOne ⟨⟨schema, on φ⟩, conn, session⟩ type field v :
      Step (Work σ) (Option Ref)) :=
  .bind (.lift (schema.descriptor type)) fun d => .bind (.lift _) fun column =>
    echoes_run schema conn session fun _ hMapper =>
      echoes_findOne schema conn session hMapper d column.name v

theorem echoes_loadAll (type : String) :
    Echoes on fun φ => (loadAll ⟨⟨schema, on φ⟩, conn, session⟩ type :
      Step (Work σ) (List Ref)) :=
  .bind (.lift (schema.descriptor type)) fun d =>
    echoes_run schema conn session fun _ hMapper =>
      echoes_findAll schema conn session hMapper d

theorem echoes_loadAllBy (type field : String) (v : Value) :
    Echoes on fun φ => (loadAllBy ⟨⟨schema, on φ⟩, conn, session⟩ type field v :
      Step (Work σ) (List Ref)) :=
  .bind (.lift (schema.descriptor type)) fun d => .bind (.lift _) fun column =>
    echoes_run schema conn session fun _ hMapper =>
      echoes_findAllBy schema conn session hMapper d column.name v

theorem echoes_loadMembers (source : Source) :
    Echoes on fun φ => (loadMembers ⟨⟨schema, on φ⟩, conn, session⟩ source :
      Step (Work σ) (List Ref)) :=
  .bind (.lift (schema.descriptor source.target)) fun d =>
    echoes_run schema conn session fun _ hMapper =>
      echoes_findAllBy schema conn session hMapper d source.column source.owner

end Loader

end

end UnitOfWork

import UnitOfWork.Proofs.Flush

/-!
# Failures for want of an identifier

A write can fail because a related entity has no identifier yet. Everything
else that a flush does fails for other reasons: looking at entities, reading
keys, receiving a generated key, keeping the context, leasing a connection.
So a flush that fails for this one failed when it planned an action, or the
driver has reported such a failure of its own (`Session.unblamed_of_flushed`).

## Main results

* `Error.blamesReference`: the failures that are meant;
* `Action.unblamed_execute`: an action fails for it when it is planned;
* `Session.unblamed_of_flushed`: a flush, when one of its actions is.
-/

namespace UnitOfWork

variable {σ : Type} {schema : Schema} {heap : Heap} {ref : Ref}

/-- Whether an operation failed because a related entity has no identifier. -/
def Error.blamesReference : Error → Bool
  | .state (.relatedWithoutId ..) => true
  | .flush cause | .rollback _ cause => cause.blamesReference
  | _ => false

/-- A result that is not missing for want of the identifier of a related
entity. -/
def Unblamed {α : Type} (r : Except Error α) : Prop :=
  ∀ e, r = .error e → e.blamesReference = false

namespace Unblamed

variable {α β τ : Type}

theorem ok (a : α) : Unblamed (.ok a) := nofun

theorem error {e : Error} (h : e.blamesReference = false) :
    Unblamed (α := α) (.error e) := by
  intro e' hSame
  cases hSame
  exact h

theorem bind {x : Except Error α} {f : α → Except Error β} (h : Unblamed x)
    (hNext : ∀ a, x = .ok a → Unblamed (f a)) : Unblamed (x >>= f) := by
  cases x with
  | error e => exact error (h e rfl)
  | ok a => exact hNext a rfl

theorem map {x : Except Error α} (h : Unblamed x) (f : α → β) :
    Unblamed (f <$> x) := by
  cases x with
  | error e => exact error (h e rfl)
  | ok a => exact ok (f a)

theorem mapM {f : α → Except Error β} {items : List α}
    (h : ∀ a ∈ items, Unblamed (f a)) : Unblamed (items.mapM f) := by
  induction items with
  | nil => exact ok []
  | cons a rest ih =>
      rw [List.mapM_cons]
      refine bind (h a (List.mem_cons_self ..)) fun b _ => ?_
      have hRest := ih fun other hMem => h other (List.mem_cons_of_mem a hMem)
      exact bind hRest fun bs _ => ok (b :: bs)

end Unblamed

namespace Unblamed

variable {α β τ : Type}

theorem step_bind {m : Step τ α} {f : α → Step τ β} {t : τ}
    (h : Unblamed (m.run t).1)
    (hNext : ∀ a after, m.run t = (.ok a, after) →
      Unblamed ((f a).run after).1) :
    Unblamed ((m >>= f).run t).1 := by
  rw [Step.bind_run]
  rcases hRun : m.run t with ⟨e | a, after⟩
  · rw [hRun] at h
    exact error (h e rfl)
  · exact hNext a after hRun

theorem lift_bind {r : Except Error α} {f : α → Step τ β} {t : τ}
    (h : Unblamed r) (hNext : ∀ a, r = .ok a → Unblamed ((f a).run t).1) :
    Unblamed ((liftM r >>= f).run t).1 := by
  refine step_bind ?_ fun a after hRun => ?_
  · rw [Step.lift_run]
    exact h
  · rw [Step.lift_run] at hRun
    obtain ⟨rfl, rfl⟩ := Prod.mk.inj hRun
    exact hNext a rfl

end Unblamed

/-! ## Keys and snapshots -/

theorem FieldType.unblamed_read (type : FieldType) (v : Value) :
    Unblamed (type.read v) := by
  unfold FieldType.read ScalarType.read
  split
  · exact .ok Value.null
  · split
    · exact .ok _
    · unfold ScalarType.refusal
      split <;> exact .error rfl

namespace Heap

theorem unblamed_descriptor (schema : Schema) (type : String) :
    Unblamed (schema.descriptor type) := by
  unfold Schema.descriptor Mapping.build
  simp only
  split
  · exact .error rfl
  · split
    · exact .error rfl
    · split
      · exact .error rfl
      · exact .ok _
    · exact .error rfl

theorem unblamed_ofValue (v : Value) : Unblamed (EntityId.ofValue v) := by
  cases v <;> first | exact .ok _ | exact .error rfl

theorem unblamed_describe (schema : Schema) (heap : Heap) (ref : Ref) :
    Unblamed (heap.describe schema ref) := by
  refine .bind (unblamed_descriptor schema _) fun d _ => ?_
  split
  · exact .ok d
  · exact .error rfl

theorem unblamed_entityKey (schema : Schema) (heap : Heap) (ref : Ref) :
    Unblamed (heap.entityKey schema ref) := by
  refine .bind (unblamed_describe schema heap ref) fun d _ => ?_
  exact .bind (unblamed_ofValue _) fun id _ => .ok _

theorem unblamed_snapshot (schema : Schema) (heap : Heap) (ref : Ref) :
    Unblamed (heap.snapshot schema ref) :=
  .bind (unblamed_describe schema heap ref) fun _ _ => .ok _

theorem unblamed_writable (schema : Schema) (heap : Heap) (ref : Ref) :
    Unblamed (heap.writable schema ref) := by
  refine .bind (unblamed_descriptor schema _) fun d _ => ?_
  split
  · exact .ok _
  · exact .error rfl

theorem unblamed_requireId (operation : String) (d : Descriptor)
    (e : Instance) : Unblamed (requireId operation d e) := by
  unfold requireId
  split
  · exact .error rfl
  · exact .ok _

end Heap

namespace Context

variable (schema : Schema) (heap : Heap) (ctx : Context) (ref : Ref)

theorem unblamed_requireKey : Unblamed (requireKey schema heap ref) := by
  refine .bind (heap.unblamed_entityKey schema ref) fun key _ => ?_
  cases key with
  | none => exact .error rfl
  | some key => exact .ok key

theorem unblamed_cache : Unblamed (ctx.cache schema heap ref) := by
  refine .bind (unblamed_requireKey schema heap ref) fun key _ => ?_
  split
  · exact .ok _
  · exact .bind (heap.unblamed_snapshot schema ref) fun values _ => .ok _

theorem unblamed_refresh : Unblamed (ctx.refresh schema heap ref) := by
  refine .bind (unblamed_requireKey schema heap ref) fun key _ => ?_
  exact .bind (heap.unblamed_snapshot schema ref) fun values _ => .ok _

theorem unblamed_remove : Unblamed (ctx.remove schema heap ref) := by
  refine .bind (heap.unblamed_entityKey schema ref) fun key _ => ?_
  cases key with
  | none => exact .ok ctx
  | some key => exact .ok _

theorem unblamed_diff : Unblamed (ctx.diff schema heap) := by
  have hAll : ∀ entries, Unblamed (ctx.dirtyEntries schema heap entries) := by
    intro entries
    induction entries with
    | nil => exact .ok []
    | cons entry rest ih =>
        refine .bind (heap.unblamed_snapshot schema entry.2) fun values _ => ?_
        exact .bind ih fun others _ => .ok _
  exact .bind (hAll ctx.entities) fun dirty _ => .ok _

end Context

/-! ## Actions -/

namespace Action

theorem unblamed_follow (p : Persister) (action : Action) (heap : Heap)
    (ctx : Context) : Unblamed (action.follow p heap ctx) := by
  unfold follow
  cases action.kind with
  | insert => exact (ctx.unblamed_cache p.schema heap action.entity).map _
  | update => exact ctx.unblamed_refresh p.schema heap action.entity
  | delete => exact ctx.unblamed_remove p.schema heap action.entity

theorem unblamed_expectOne (operation : String) (affected : Nat) :
    Unblamed (expectOne operation affected) := by
  unfold expectOne
  split
  · exact .ok ()
  · exact .error rfl

theorem unblamed_withId (d : Descriptor) (e : Instance) (v : Value) :
    Unblamed (d.withId e v) := by
  unfold Descriptor.withId
  cases d.identifier.type? with
  | none => exact .ok e
  | some type => exact (type.unblamed_read v).map _

theorem unblamed_assignKey (d : Descriptor) (ref : Ref) (key : Value)
    (env : Env σ) : Unblamed ((Persister.assignKey d ref key).run env).1 := by
  rw [Persister.assignKey, Step.bind_run, Step.get_run]
  simp only
  split
  · exact .lift_bind (unblamed_withId d _ key) fun keyed _ => .ok ()
  · exact .error rfl

theorem unblamed_receiveKey (p : Persister) (action : Action)
    (key : Option Value) (env : Env σ) :
    Unblamed ((action.receiveKey p key).run env).1 := by
  unfold receiveKey
  cases action.kind with
  | insert =>
      rw [Step.bind_run, Step.get_run]
      simp only
      refine .lift_bind (Heap.unblamed_descriptor p.schema _) fun d _ => ?_
      split
      · cases key with
        | none => exact .error rfl
        | some key => exact unblamed_assignKey d action.entity key env
      · exact .ok ()
  | update => exact .ok ()
  | delete => exact .ok ()

theorem unblamed_settle (p : Persister) (action : Action)
    (receipt : Nat × Option Value) (work : Work σ) :
    Unblamed ((action.settle p receipt).run work).1 := by
  refine .lift_bind (unblamed_expectOne _ _) fun _ _ => ?_
  rw [Work.onEnv_bind_run]
  have hKey := unblamed_receiveKey p action receipt.2 work.env
  rcases hRun : (action.receiveKey p receipt.2).run work.env with ⟨e | _, env⟩
  · rw [hRun] at hKey
    exact .error (hKey e rfl)
  · simp only
    rw [Work.onContext_run]
    have hFollow := unblamed_follow p action env.heap work.context
    cases hNext : action.follow p env.heap work.context with
    | error e => exact .error (hFollow e hNext)
    | ok ctx => exact .ok ()

variable [Driver σ] {p : Persister} {conn : ConnId}

/-- A driver that does not report such failures fails an action for it only
when the action is planned. -/
theorem unblamed_execute {action : Action} {work : Work σ}
    (hDriver : ∀ c (t : σ), Unblamed (Driver.call conn c t).1)
    (hPlan : Unblamed (action.call? p.schema work.env.heap)) :
    Unblamed ((action.execute p conn).run work).1 := by
  rw [execute_run]
  cases hCall : action.call? p.schema work.env.heap with
  | error e => exact .error (hPlan e hCall)
  | ok c? =>
      cases c? with
      | none =>
          simp only
          rw [Work.onContext_run]
          have hFollow := unblamed_follow p action work.env.heap work.context
          cases hNext : action.follow p work.env.heap work.context with
          | error e => exact .error (hFollow e hNext)
          | ok ctx => exact .ok ()
      | some c =>
          simp only
          cases hAnswer : (Driver.call conn c work.env.driver).1 with
          | error e => exact .error (hDriver c work.env.driver e hAnswer)
          | ok answer => exact unblamed_settle p action _ _

/-- Among actions that are carried out one after another each one is planned on
what those before it leave. -/
theorem unblamed_executeAll {actions : List Action} {work : Work σ}
    (hDriver : ∀ c (t : σ), Unblamed (Driver.call conn c t).1)
    (hPlans : ∀ done action rest mid, actions = done ++ action :: rest →
      (executeAll p conn done).run work = (.ok (), mid) →
        Unblamed (action.call? p.schema mid.env.heap)) :
    Unblamed ((executeAll p conn actions).run work).1 := by
  induction actions generalizing work with
  | nil => exact .ok ()
  | cons action rest ih =>
      rw [executeAll]
      have hPlan := hPlans [] action rest work rfl rfl
      refine .step_bind (unblamed_execute hDriver hPlan) fun _ mid hRun => ?_
      refine ih fun done later others last hSplit hDone => ?_
      refine hPlans (action :: done) later others last ?_ ?_
      · rw [hSplit, List.cons_append]
      · rw [executeAll, Step.bind_run, hRun]
        exact hDone

end Action

/-! ## Flushes -/

namespace Session

variable [Driver σ] {p : Persister} {scope after : Scope σ}

theorem unblamed_lease (pool : Pool) : Unblamed pool.lease := by
  unfold Pool.lease
  split
  · exact .error rfl
  · split
    · exact .error rfl
    · exact .ok _

/-- A flush fails for want of the identifier of a related entity only when one
of its actions is planned, if the driver does not report such failures. -/
theorem unblamed_of_flushed {r : Except Error Unit}
    (h : Flushed p scope r after)
    (hDriver : ∀ conn c (t : σ), Unblamed (Driver.call conn c t).1)
    (hPlans : ∀ dirty ctx conn done action rest mid,
      scope.session.context.diff p.schema scope.heap = .ok (dirty, ctx) →
      scope.session.planned dirty = done ++ action :: rest →
      (Action.executeAll p conn done).run
          (opened conn scope.session.inTransaction ⟨scope.env, ctx⟩) =
        (.ok (), mid) →
      Unblamed (action.call? p.schema mid.env.heap)) : Unblamed r := by
  have hWork : ∀ {dirty ctx conn work cause},
      scope.session.context.diff p.schema scope.heap = .ok (dirty, ctx) →
      Performed p conn scope.session.inTransaction
        (scope.session.planned dirty) ⟨scope.env, ctx⟩ (.error cause) work →
      cause.blamesReference = false := by
    intro dirty ctx conn work cause hDiff hRun
    generalize hResult : (.error cause : Except Error Unit) = result at hRun
    cases hRun with
    | unopened _ hCall =>
        cases hResult
        exact hDriver _ _ _ _ hCall
    | failed _ hRun =>
        cases hResult
        have hAll := Action.unblamed_executeAll (hDriver conn)
          fun done action rest mid hSplit hDone =>
            hPlans dirty ctx conn done action rest mid hDiff hSplit hDone
        rw [hRun] at hAll
        exact hAll cause rfl
    | uncommitted _ _ hCommit =>
        cases hResult
        exact hDriver _ _ _ _ hCommit
    | committed _ _ _ hClose =>
        subst hResult
        exact hDriver _ _ _ _ hClose
  cases h with
  | closed _ => exact .error rfl
  | unreadable _ hDiff => exact .error (Context.unblamed_diff _ _ _ _ hDiff)
  | idle _ _ _ => exact .ok ()
  | unconnected _ _ _ _ hLease => exact .error (unblamed_lease _ _ hLease)
  | committed _ _ _ _ _ => exact .ok ()
  | rolledBack _ hDiff _ _ hRun _ =>
      have hCause := hWork hDiff hRun
      exact .error hCause
  | discarded _ hDiff _ _ hRun _ =>
      have hCause := hWork hDiff hRun
      exact .error hCause

end Session

end UnitOfWork

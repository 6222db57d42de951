import UnitOfWork.Context
import UnitOfWork.Persister
import UnitOfWork.Queue

/-!
# Work on a context

The environment together with the context that entities are looked after in:
what entities are loaded into, and what the pending actions of a session are
carried out on. When an action has been carried out, the context follows: an
inserted entity is looked after from then on, an updated one has a new
snapshot, and a deleted one is forgotten.

## Main results

* `Work.context_onEnv`: work on the environment leaves the context alone.
-/

namespace UnitOfWork

/-- An environment and a context. -/
structure Work (σ : Type) where
  env : Env σ
  context : Context

namespace Work

variable {σ α : Type}

/-- Works on the environment alone. -/
def onEnv (m : Step (Env σ) α) : Step (Work σ) α :=
  Step.zoom Work.env (fun env work => { work with env := env }) m

/-- Replaces the context, unless that is refused. -/
def onContext (f : Heap → Context → Except Error Context) :
    Step (Work σ) Unit := fun work =>
  match f work.env.heap work.context with
  | .ok context => (.ok (), { work with context := context })
  | .error e => (.error e, work)

/-- Work on the environment leaves the context alone. -/
@[simp] theorem context_onEnv (m : Step (Env σ) α) (work : Work σ) :
    ((onEnv m).run work).2.context = work.context := rfl

/-- Work on the context leaves the environment alone. -/
@[simp] theorem env_onContext (f : Heap → Context → Except Error Context)
    (work : Work σ) : ((onContext f).run work).2.env = work.env := by
  simp only [onContext, Step.run]
  split <;> rfl

end Work

namespace Action

variable {σ : Type} [Driver σ]

/-- Carries out an action on a connection. -/
def execute (p : Persister) (conn : ConnId) (action : Action) :
    Step (Work σ) Unit :=
  match action.kind with
  | .insert => do
    Work.onEnv (p.insert conn action.entity)
    Work.onContext fun heap ctx =>
      Prod.snd <$> ctx.cache p.schema heap action.entity
  | .update => do
    Work.onEnv (p.update conn action.entity)
    Work.onContext fun heap ctx => ctx.refresh p.schema heap action.entity
  | .delete => do
    Work.onEnv (p.delete conn action.entity)
    Work.onContext fun heap ctx => ctx.remove p.schema heap action.entity

/-- Carries out actions one after another, up to the first failure. -/
def executeAll (p : Persister) (conn : ConnId) :
    List Action → Step (Work σ) Unit
  | [] => pure ()
  | action :: rest => do
    action.execute p conn
    executeAll p conn rest

end Action

end UnitOfWork

import UnitOfWork.Error

/-!
# Steps

A step is a computation that may fail and leaves a state either way: what was
done before a failure stays done, as with calls to a database. `Step.zoom`
runs a step on a part of a larger state, and `Step.attempt` turns a failure
into a value, so that what has to happen after a failure can be written down
next.

## Main results

* `Step.bind_run`: a step that follows another sees the state that the first
  left, and is skipped if the first failed;
* `LawfulMonad (Step τ)`: blocks of steps can be regrouped freely.
-/

namespace UnitOfWork

/-- A computation on a state of type `τ` that may fail. -/
def Step (τ : Type) (α : Type) : Type := τ → Except Error α × τ

namespace Step

variable {τ υ α β : Type}

/-- Runs a step. -/
@[inline] def run (m : Step τ α) (t : τ) : Except Error α × τ := m t

instance : Monad (Step τ) where
  pure a := fun t => (.ok a, t)
  bind m f := fun t =>
    match m t with
    | (.ok a, t) => f a t
    | (.error e, t) => (.error e, t)

/-- The step that fails. -/
def fail (e : Error) : Step τ α := fun t => (.error e, t)

/-- The state. -/
def get : Step τ τ := fun t => (.ok t, t)

/-- Changes the state. -/
def modify (f : τ → τ) : Step τ Unit := fun t => (.ok (), f t)

/-- The step that only has an outcome. -/
def ofExcept (r : Except Error α) : Step τ α := fun t => (r, t)

instance : MonadLift (Except Error) (Step τ) := ⟨ofExcept⟩

/-- Runs a step and takes its outcome as a value. -/
def attempt (m : Step τ α) : Step τ (Except Error α) := fun t =>
  let r := m t
  (.ok r.1, r.2)

/-- Runs a step on a part of the state. -/
def zoom (view : τ → υ) (put : υ → τ → τ) (m : Step υ α) : Step τ α := fun t =>
  let r := m (view t)
  (r.1, put r.2 t)

/-! ## Laws -/

@[simp] theorem pure_run (a : α) (t : τ) :
    (pure a : Step τ α).run t = (.ok a, t) := rfl

/-- A step that follows another sees the state that the first left. -/
theorem bind_run (m : Step τ α) (f : α → Step τ β) (t : τ) :
    (m >>= f).run t =
      match m.run t with
      | (.ok a, t) => (f a).run t
      | (.error e, t) => (.error e, t) := rfl

@[simp] theorem fail_run (e : Error) (t : τ) :
    (fail e : Step τ α).run t = (.error e, t) := rfl

@[simp] theorem get_run (t : τ) : (get : Step τ τ).run t = (.ok t, t) := rfl

@[simp] theorem modify_run (f : τ → τ) (t : τ) :
    (modify f).run t = (.ok (), f t) := rfl

@[simp] theorem ofExcept_run (r : Except Error α) (t : τ) :
    (ofExcept r : Step τ α).run t = (r, t) := rfl

@[simp] theorem attempt_run (m : Step τ α) (t : τ) :
    m.attempt.run t = (.ok (m.run t).1, (m.run t).2) := rfl

@[simp] theorem zoom_run (view : τ → υ) (put : υ → τ → τ) (m : Step υ α)
    (t : τ) :
    (zoom view put m).run t = ((m.run (view t)).1, put (m.run (view t)).2 t) :=
  rfl

instance : LawfulMonad (Step τ) := LawfulMonad.mk' (Step τ)
  (by
    intro α m
    funext t
    show (match m t with
      | (.ok a, t) => (.ok a, t)
      | (.error e, t) => (.error e, t)) = m t
    rcases m t with ⟨_ | _, _⟩ <;> rfl)
  (by
    intro α β a f
    rfl)
  (by
    intro α β γ m f g
    funext t
    show (match (match m t with
        | (.ok a, t) => f a t
        | (.error e, t) => (.error e, t)) with
      | (.ok b, t) => g b t
      | (.error e, t) => (.error e, t)) =
      match m t with
      | (.ok a, t) =>
        (match f a t with
        | (.ok b, t) => g b t
        | (.error e, t) => (.error e, t))
      | (.error e, t) => (.error e, t)
    rcases m t with ⟨_ | _, _⟩ <;> rfl)

end Step

end UnitOfWork

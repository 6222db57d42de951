import UnitOfWork.Driver
import UnitOfWork.Heap

/-!
# Environments

What operations on entities work on: the driver's state, the instances, and
the records that are kept of the work. Every call on the driver goes through
`Env.call` and is recorded there, whether it succeeds or not.

## Main results

* `Env.trace_call`: a call is recorded exactly once, after all calls before;
* `Env.heap_call`, `Env.echo_call`: a call concerns the driver alone.
-/

namespace UnitOfWork

/-- What an owner found that looked at a collection as it was given it: the
number of its members or why they could not be loaded, and whether they had
been loaded. -/
structure Inspection where
  size : Except Error Nat
  loaded : Bool

/-- An environment over a driver with states of type `σ`. -/
structure Env (σ : Type) where
  driver : σ
  /-- The calls made so far, each with its connection, in order. -/
  trace : List (ConnId × Call) := []
  /-- The statements echoed so far, in order. -/
  echo : List String := []
  heap : Heap := {}
  /-- The inspections of collections made so far, in order. -/
  inspections : List Inspection := []

namespace Env

variable {σ : Type}

/-- Makes a call on a connection and records it. -/
def call [Driver σ] (conn : ConnId) (c : Call) : Step (Env σ) c.Answer :=
  fun env =>
    let r := Driver.call conn c env.driver
    (r.1, { env with driver := r.2, trace := env.trace ++ [(conn, c)] })

/-- Records the text of a statement. -/
def echoed (statement : Statement) (env : Env σ) : Env σ :=
  { env with echo := env.echo ++ [statement.render] }

/-- Changes an instance. -/
def update (ref : Ref) (f : Instance → Instance) (env : Env σ) : Env σ :=
  { env with heap := env.heap.modify ref f }

/-- Adds an instance. -/
def alloc (e : Instance) (env : Env σ) : Env σ :=
  { env with heap := env.heap.alloc e }

/-- Records an inspection. -/
def inspected (i : Inspection) (env : Env σ) : Env σ :=
  { env with inspections := env.inspections ++ [i] }

variable [Driver σ]

/-- A call is recorded once, after all calls before. -/
@[simp] theorem trace_call (conn : ConnId) (c : Call) (env : Env σ) :
    ((call conn c).run env).2.trace = env.trace ++ [(conn, c)] := rfl

@[simp] theorem heap_call (conn : ConnId) (c : Call) (env : Env σ) :
    ((call conn c).run env).2.heap = env.heap := rfl

@[simp] theorem echo_call (conn : ConnId) (c : Call) (env : Env σ) :
    ((call conn c).run env).2.echo = env.echo := rfl

/-- A call does to the driver what the driver says. -/
@[simp] theorem driver_call (conn : ConnId) (c : Call) (env : Env σ) :
    ((call conn c).run env).2.driver = (Driver.call conn c env.driver).2 := rfl

end Env

end UnitOfWork

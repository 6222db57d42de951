import UnitOfWork.Driver

/-!
# Planned faults

A plan of faults makes calls on a store go wrong, so that everything that
depends on the store can be tried out under failures. A fault waits for calls
whose text starts in a certain way, lets some of them pass, and then acts a
number of times: it makes the call fail without effect, or changes what a
write reports.

## Main results

* `Fault.next_length`: taking a fault from a plan keeps the plan's length.
-/

namespace UnitOfWork

/-- The text by which faults know a call. -/
def Call.text : Call → String
  | connect => "CONNECT"
  | query statement _ => statement.render
  | execute statement _ => statement.render
  | insert statement _ => statement.render
  | setAutoCommit true => "AUTOCOMMIT ON"
  | setAutoCommit false => "AUTOCOMMIT OFF"
  | commit => "COMMIT"
  | rollback => "ROLLBACK"
  | close => "CLOSE"

/-- What a fault does to a call. -/
inductive FaultEffect
  /-- The call fails with a message and has no effect. -/
  | failure (message : String)
  /-- A write reports another number of rows. -/
  | affected (rows : Nat)
  /-- An insert reports another key. -/
  | key (v : Value)
  /-- An insert reports no key. -/
  | noKey

/-- A planned fault. -/
structure Fault where
  /-- How the texts of the calls concerned start. -/
  start : String
  /-- How many of the calls pass first. -/
  skip : Nat
  /-- How many times the fault acts. -/
  times : Nat
  effect : FaultEffect

namespace Fault

/-- Whether a fault is still waiting for a call. -/
def concerns (f : Fault) (text : String) : Bool :=
  f.times != 0 && f.start.toList.isPrefixOf text.toList

/-- The effect of a plan on a call, and the plan afterwards. The first fault
that is concerned acts, but one that still lets calls pass does that instead,
and the next one is asked. -/
def next (text : String) : List Fault → Option FaultEffect × List Fault
  | [] => (none, [])
  | f :: rest =>
    if f.concerns text then
      if f.skip = 0 then
        (some f.effect, { f with times := f.times - 1 } :: rest)
      else
        let later := next text rest
        (later.1, { f with skip := f.skip - 1 } :: later.2)
    else
      let later := next text rest
      (later.1, f :: later.2)

/-- Faults are neither added nor lost. -/
theorem next_length (text : String) (faults : List Fault) :
    (next text faults).2.length = faults.length := by
  induction faults with
  | nil => rfl
  | cons f rest ih =>
      unfold next
      split
      · split
        · rfl
        · simpa using ih
      · simpa using ih

end Fault

end UnitOfWork

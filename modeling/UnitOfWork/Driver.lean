import UnitOfWork.Step
import UnitOfWork.Rows
import UnitOfWork.Statement

/-!
# Drivers

A driver makes calls on the connections to a database. What is written above
it says nothing about the kind of database: any state with a `Driver` instance
will do, and any call may fail, so statements about sessions hold for every
behaviour that a driver can show.

Statements run with auto-commit on take effect at once. With auto-commit off
they join a transaction that lasts until it is committed or rolled back, or
auto-commit is switched on, which commits.
-/

namespace UnitOfWork

/-- The number of a connection. -/
abbrev ConnId := Nat

/-- A call on a connection. -/
inductive Call
  /-- Opens the connection. -/
  | connect
  /-- Runs a statement that returns rows. -/
  | query (statement : Statement) (params : List Value)
  /-- Runs a statement that changes rows. -/
  | execute (statement : Statement) (params : List Value)
  /-- Runs an insert that may generate a key. -/
  | insert (statement : Statement) (params : List Value)
  | setAutoCommit (on : Bool)
  | commit
  | rollback
  /-- Closes the connection for good. -/
  | close

namespace Call

/-- What a call gives back when it succeeds. -/
abbrev Answer : Call → Type
  | query .. => ResultSet
  /- The number of rows touched. -/
  | execute .. => Nat
  /- The number of rows touched, and the generated key. -/
  | insert .. => Nat × Option Value
  | _ => Unit

/-- The statement that a call runs. -/
def statement? : Call → Option Statement
  | query statement _ | execute statement _ | insert statement _ =>
    some statement
  | _ => none

end Call

/-- A database with its connections. -/
class Driver (σ : Type) where
  /-- Makes a call on a connection. -/
  call : ConnId → (c : Call) → Step σ c.Answer
  /-- Whether a connection has auto-commit on. -/
  autoCommit : ConnId → σ → Bool
  /-- A number that no table has more rows than. -/
  extent : σ → Nat

end UnitOfWork

import UnitOfWork.Assoc
import UnitOfWork.Store.Fault
import UnitOfWork.Store.Table
import UnitOfWork.Store.Transactional

/-!
# Stores

A store of tables as a driver. All connections share the tables, without
isolation; each has an auto-commit state of its own. A connection that is
closed inside a transaction takes the transaction back. Calls go wrong as the
store's plan of faults says.

## Main results

* `Store.tables_commit`: a commit leaves the tables;
* `Store.line_setLine`: a connection has the state that it was left in.
-/

namespace UnitOfWork

/-- The state of one connection to a store. -/
structure Line where
  saved : Option Tables := none
  autoCommit : Bool := true
  /-- The key of the last row inserted. -/
  lastKey : Int := 0
  /-- The number of rows that the last write touched. -/
  lastAffected : Nat := 0

/-- What a connection remembers of a statement: how many rows the last write
touched, none if it was refused over its values, and the last key. -/
def Line.remember (statement : Statement) (line : Line) :
    Except StoreFault Outcome → Line
  | .ok outcome =>
    if statement.isQuery then line
    else
      { line with
        lastAffected := outcome.affected
        lastKey := (outcome.key.bind Value.asInt?).getD line.lastKey }
  | .error (.repeatedValue ..) | .error (.noNumber _)
  | .error (.numbersUsedUp _) => { line with lastAffected := 0 }
  | .error _ => line

/-- A store of tables with its connections. -/
structure Store where
  dialect : Dialect
  tables : Tables := []
  lines : List (ConnId × Line) := []
  faults : List Fault := []
  /-- Whether refusals come from a database engine of its own. -/
  hasEngine : Bool := false

namespace Store

/-- The state of a connection. -/
def line (store : Store) (conn : ConnId) : Line :=
  (store.lines.lookup conn).getD {}

/-- Leaves a connection in a state. -/
def setLine (store : Store) (conn : ConnId) (line : Line) : Store :=
  { store with lines := Assoc.insert conn line store.lines }

/-- The tables as one connection works on them. -/
def view (store : Store) (conn : ConnId) : Transactional Tables :=
  let line := store.line conn
  ⟨store.tables, line.saved, line.autoCommit⟩

/-- Takes over the work of one connection. -/
def update (store : Store) (conn : ConnId) (t : Transactional Tables) :
    Store :=
  let line :=
    { store.line conn with saved := t.saved, autoCommit := t.autoCommit }
  { store.setLine conn line with tables := t.content }

/-- The error of a refusal. -/
def errorOf (store : Store) (fault : StoreFault) : Error :=
  if store.hasEngine then .engine fault.text else .connection fault.text

/-! ## Statements -/

/-- Runs a statement on a connection. -/
def execute (store : Store) (conn : ConnId) (statement : Statement)
    (params : List Value) : Except StoreFault Outcome × Store :=
  let r := (store.view conn).execute
    (Tables.run store.dialect statement params)
  let store := store.update conn r.2
  (r.1, store.setLine conn ((store.line conn).remember statement r.1))

/-- Runs a statement that should write. A query is refused if it finds rows;
otherwise it reports what the last write touched. -/
def executeWrite (store : Store) (conn : ConnId) (statement : Statement)
    (params : List Value) : Except StoreFault Outcome × Store :=
  let r := store.execute conn statement params
  match r.1 with
  | .ok outcome =>
    if !statement.isQuery then r
    else if outcome.result.rows.isEmpty then
      (.ok { affected := (r.2.line conn).lastAffected }, r.2)
    else (.error .rowsFound, r.2)
  | .error _ => r

/-- The answer to a statement, whose refusal says which statement it was. -/
def report (statement : Statement) (f : Store → Outcome → α)
    (r : Except StoreFault Outcome × Store) : Except Error α × Store :=
  match r.1 with
  | .ok outcome => (.ok (f r.2 outcome), r.2)
  | .error fault =>
    (.error (.statement statement.render (r.2.errorOf fault)), r.2)

/-- The key that an insert reports. -/
def reportedKey (store : Store) (conn : ConnId) (outcome : Outcome) :
    Option Value :=
  if store.hasEngine then
    if outcome.affected = 0 then none
    else some (.int (store.line conn).lastKey)
  else outcome.key

/-- The number of touched rows that a write reports under a fault. -/
def reportAffected (effect : Option FaultEffect) (affected : Nat) : Nat :=
  match effect with
  | some (.affected n) => n
  | _ => affected

/-- The key that an insert reports under a fault. -/
def reportKey (effect : Option FaultEffect) (key : Option Value) :
    Option Value :=
  match effect with
  | some (.key v) => some v
  | some .noKey => none
  | _ => key

/-! ## Calls -/

/-- Changes the state of a connection. -/
def onLine (conn : ConnId)
    (f : Transactional Tables → Transactional Tables) : Step Store Unit :=
  Step.modify fun store => store.update conn (f (store.view conn))

/-- Forgets a connection, which takes its open transaction back. -/
def hangUp (conn : ConnId) : Step Store Unit := do
  onLine conn Transactional.rollback
  Step.modify fun store =>
    { store with lines := Assoc.erase conn store.lines }

/-- Makes a call under the effect of a fault that lets it happen. -/
def perform (conn : ConnId) (effect : Option FaultEffect) :
    (c : Call) → Step Store c.Answer
  | .connect => Step.modify fun store => store.setLine conn {}
  | .query statement params => fun store =>
    report statement (fun _ o => o.result)
      (store.execute conn statement params)
  | .execute statement params => fun store =>
    report statement (fun _ o => reportAffected effect o.affected)
      (store.executeWrite conn statement params)
  | .insert statement params => fun store =>
    report statement
      (fun store o => (reportAffected effect o.affected,
        reportKey effect (store.reportedKey conn o)))
      (store.executeWrite conn statement params)
  | .setAutoCommit on => onLine conn (Transactional.setAutoCommit on)
  | .commit => onLine conn Transactional.commit
  | .rollback => onLine conn Transactional.rollback
  | .close => hangUp conn

/-- How a call fails that a fault stops. -/
def stopped (message : String) (c : Call) : Error :=
  match c.statement? with
  | some statement => .statement statement.render (.connection message)
  | none => .connection message

/-- What a call does even if a fault stops it: a statement opens its
transaction, and a connection that is to be closed is closed. -/
def performStopped (conn : ConnId) : Call → Step Store Unit
  | .query .. | .execute .. | .insert .. => onLine conn Transactional.begin
  | .close => hangUp conn
  | _ => pure ()

/-- Makes a call on a connection. A call stopped by a fault has no other effect
than `performStopped`. -/
def call (conn : ConnId) (c : Call) : Step Store c.Answer := do
  let store ← Step.get
  let planned := Fault.next c.text store.faults
  Step.modify fun store => { store with faults := planned.2 }
  match planned.1 with
  | some (.failure message) => do
    performStopped conn c
    Step.fail (stopped message c)
  | effect => perform conn effect c

instance : Driver Store where
  call := call
  autoCommit conn store := (store.line conn).autoCommit
  extent store := store.tables.rowCount

/-! ## Work behind the back of all connections -/

/-- Runs a statement outside of all connections. -/
def intervene (statement : Statement) (params : List Value)
    (store : Store) : Except Error Outcome × Store :=
  match store.tables.run store.dialect statement params with
  | .error fault => (.error (.connection fault.text), store)
  | .ok (outcome, tables) => (.ok outcome, { store with tables := tables })

/-! ## Laws -/

/-- A connection has the state that it was left in. -/
@[simp] theorem line_setLine (store : Store) (conn : ConnId) (line : Line) :
    (store.setLine conn line).line conn = line := by
  simp [Store.line, setLine]

/-- A commit leaves the tables. -/
theorem tables_commit (conn : ConnId) (store : Store) :
    ((perform conn none .commit).run store).2.tables = store.tables := rfl

end Store

end UnitOfWork

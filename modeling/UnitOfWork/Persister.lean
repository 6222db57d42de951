import UnitOfWork.Environment
import UnitOfWork.Plan

/-!
# Writing entities

A persister knows the schema, and whether the text of each statement is
echoed. A statement is echoed just before it is sent, so the echo shows also
what the database refuses, and nothing that was never sent. Each write has to
touch exactly one row.

## Main results

* `Persister.echo_query`: with the echo on, what is sent is echoed;
* `Persister.echo_query_of_quiet`: with the echo off, nothing is.
-/

namespace UnitOfWork

/-- The schema, and whether statements are echoed. -/
structure Persister where
  schema : Schema
  showSql : Bool

/-- Refuses a write that touched another number of rows than one. -/
def expectOne (operation : String) (affected : Nat) : Except Error Unit :=
  if affected = 1 then .ok ()
  else .error (.rowCount operation 1 affected)

namespace Persister

variable {σ : Type}

/-- Echoes a statement if the echo is on. -/
def echo (p : Persister) (statement : Statement) : Step (Env σ) Unit :=
  Step.modify fun env => if p.showSql then env.echoed statement else env

/-- Gives an entity the key that the database generated for it. -/
def assignKey (d : Descriptor) (ref : Ref) (key : Value) :
    Step (Env σ) Unit := do
  let e := (← Step.get).heap.get ref
  if e.isWritable then
    let keyed ← d.withId e key
    Step.modify (Env.update ref fun _ => keyed)
  else Step.fail (.state (.entityBorrowed d.typeName))

variable [Driver σ]

/-- Runs a query. -/
def query (p : Persister) (conn : ConnId) (plan : Plan) :
    Step (Env σ) ResultSet := do
  p.echo plan.statement
  Env.call conn (.query plan.statement plan.params)

/-- Runs a write; gives the number of rows touched. -/
def send (p : Persister) (conn : ConnId) (plan : Plan) :
    Step (Env σ) Nat := do
  p.echo plan.statement
  Env.call conn (.execute plan.statement plan.params)

/-- Runs an insert; gives the number of rows touched and the generated key. -/
def sendInsert (p : Persister) (conn : ConnId) (plan : Plan) :
    Step (Env σ) (Nat × Option Value) := do
  p.echo plan.statement
  Env.call conn (.insert plan.statement plan.params)

/-- Inserts an entity, which gets the generated identifier if its mapping asks
for one. -/
def insert (p : Persister) (conn : ConnId) (ref : Ref) :
    Step (Env σ) Unit := do
  let heap := (← Step.get).heap
  let (d, e) ← heap.writable p.schema ref
  let plan ← heap.insertion p.schema d e
  let (affected, key) ← p.sendInsert conn plan
  expectOne "insert" affected
  if d.identifier.isGenerated then
    match key with
    | some key => assignKey d ref key
    | none => Step.fail (.mapping (.noGeneratedKey d.typeName))

/-- Updates the row of an entity; nothing is sent for an entity that has no
column but its identifier. -/
def update (p : Persister) (conn : ConnId) (ref : Ref) :
    Step (Env σ) Unit := do
  let heap := (← Step.get).heap
  let (d, e) ← heap.writable p.schema ref
  match ← heap.updating p.schema d e with
  | none => pure ()
  | some plan => do
    let affected ← p.send conn plan
    expectOne "update" affected

/-- Deletes the row of an entity. -/
def delete (p : Persister) (conn : ConnId) (ref : Ref) :
    Step (Env σ) Unit := do
  let heap := (← Step.get).heap
  let (d, e) ← heap.writable p.schema ref
  let plan ← Heap.deletion d e
  let affected ← p.send conn plan
  expectOne "delete" affected

/-! ## The echo -/

/-- With the echo on, a statement that is sent is echoed once. -/
theorem echo_query {p : Persister} (h : p.showSql = true) (conn : ConnId)
    (plan : Plan) (env : Env σ) :
    ((p.query conn plan).run env).2.echo =
      env.echo ++ [plan.statement.render] := by
  simp only [query, Step.bind_run, echo, h, Step.modify_run, if_true]
  rfl

/-- With the echo off, nothing is echoed. -/
theorem echo_query_of_quiet {p : Persister} (h : p.showSql = false)
    (conn : ConnId) (plan : Plan) (env : Env σ) :
    ((p.query conn plan).run env).2.echo = env.echo := by
  simp only [query, Step.bind_run, echo, h, Step.modify_run]
  rfl

end Persister

end UnitOfWork

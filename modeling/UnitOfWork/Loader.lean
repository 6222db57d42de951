import UnitOfWork.Work

/-!
# Loading entities

A loader runs queries on a connection and makes entities of the rows. The
entities of one load are registered in the context under their keys before
their relations are followed, so a relation that leads back to an entity, also
through several others, finds that entity instead of loading it again. For the
same reason a load ends: each step down into a relation registers a key that
was not there before, and there are no more keys than rows.

Following a relation means mapping rows again. `Loader.mapRow` ties this knot;
all other functions are given the row mapper they are to use.

## Main results

* `Loader.mapRow_zero`, `Loader.mapRow_succ`: the row mapper at each depth;
* `Loader.depth`: the depth that no load goes beyond.
-/

namespace UnitOfWork

/-- What a load needs to know: the schema, the connection to use, and the
session that collections are later read through, if there is one. -/
structure Loader where
  persister : Persister
  connection : ConnId
  session : Option Nat

/-- Makes an entity of a row of the descriptor's table. -/
abbrev RowMapper (σ : Type) := Descriptor → Row → Step (Work σ) Ref

namespace Loader

variable {σ : Type}

/-! ## Reading a row -/

/-- The descriptor of a type. -/
def descriptor (L : Loader) (type : String) : Except Error Descriptor :=
  L.persister.schema.descriptor type

/-- Reads a column of a row into its field. -/
def readColumn (row : Row) (e : Instance) (c : Column) :
    Except Error Instance := do
  let v ← row.getRequired c.name
  match c.type? with
  | some type => do
    let held ← type.read v
    .ok (e.set c.field (.scalar held))
  | none => .ok e

/-- A new instance with the values of a row in its own columns. -/
def readRow (d : Descriptor) (row : Row) : Except Error Instance :=
  d.scalarColumns.foldlM (readColumn row) d.blank

/-- The identifier of an instance that was read from a row. -/
def requireId (d : Descriptor) (e : Instance) : Except Error EntityId := do
  match ← d.entityId e with
  | some id => .ok id
  | none => .error (.mapping (.nullIdentifier d.table))

/-- Adds an instance and registers it under its key. -/
def register (d : Descriptor) (id : EntityId) (e : Instance) :
    Step (Work σ) Ref := fun work =>
  let ref := work.env.heap.next
  (.ok ref,
    { env := work.env.alloc e
      context := work.context.register ⟨d.typeName, id⟩ ref (d.snapshot e) })

/-- Gives a field of an entity its content. -/
def assign (ref : Ref) (field : String) (slot : Slot) : Step (Work σ) Unit :=
  Step.modify fun work =>
    { work with env := work.env.update ref fun e => e.set field slot }

/-! ## Queries -/

section

variable [Driver σ] (L : Loader) (mapper : RowMapper σ)

/-- Runs a query. -/
def query (plan : Plan) : Step (Work σ) ResultSet :=
  Work.onEnv (L.persister.query L.connection plan)

/-- Makes entities of rows, one after another. -/
def mapRows (d : Descriptor) : List Row → Step (Work σ) (List Ref)
  | [] => pure []
  | row :: rest => do
    let ref ← mapper d row
    let others ← mapRows d rest
    pure (ref :: others)

/-- The entity of the one row with a value in a column, if there is a row. -/
def findOne (d : Descriptor) (column : String) (v : Value) :
    Step (Work σ) (Option Ref) := do
  let found ← L.query ⟨.selectBy d.table column, [v]⟩
  match found.rows with
  | [] => pure none
  | [row] => do
    let ref ← mapper d row
    pure (some ref)
  | rows => Step.fail (.nonUnique d.table rows.length)

/-- The entities of the rows with a value in a column. -/
def findAllBy (d : Descriptor) (column : String) (v : Value) :
    Step (Work σ) (List Ref) := do
  let found ← L.query ⟨.selectBy d.table column, [v]⟩
  mapRows mapper d found.rows

/-- The entities of all rows. -/
def findAll (d : Descriptor) : Step (Work σ) (List Ref) := do
  let found ← L.query ⟨.selectAll d.table, []⟩
  mapRows mapper d found.rows

/-- The entity of a type with an identifier: the registered one if there is
one, and else that of its row. -/
def findById (type : String) (v : Value) : Step (Work σ) (Option Ref) := do
  match ← EntityId.ofValue v with
  | none => pure none
  | some id =>
    match (← Step.get).context.get? ⟨type, id⟩ with
    | some ref => pure (some ref)
    | none => do
      let d ← L.descriptor type
      L.findOne mapper d d.identifier.name v

/-! ## Relations -/

/-- The collection of the entities that refer to an owner. -/
def collection (c : CollectionField) (owner : Value) :
    Step (Work σ) (Collection Source) := do
  let d ← L.descriptor c.target
  let column ← d.mappedByColumn c.mappedBy
  match c.fetch with
  | .eager => do
    let members ← L.findAllBy mapper d column owner
    pure (.resolved members)
  | .lazy => pure (.unresolved ⟨L.session, c.target, column, owner⟩)

/-- Why a collection cannot be read while its owner is being loaded: its
session is at work, or there is none. -/
def refusal (source : Source) : Error :=
  match source.session with
  | some _ => .state .sessionBusy
  | none => .lazyInitialization source.target

/-- Lets an owner look at a collection that it is about to be given. -/
def inspect (members : Collection Source) : Step (Work σ) Unit :=
  Step.modify fun work =>
    { work with
      env := work.env.inspected ⟨members.inspect refusal, members.isLoaded⟩ }

/-- Follows a relation of an entity that was read from a row. -/
def follow (row : Row) (id : EntityId) (ref : Ref) :
    Relation → Step (Work σ) Unit
  | .toOne _ field target joinColumn => do
    let v ← row.getRequired joinColumn
    let related ←
      if v.isNull then pure none else L.findById mapper target v
    assign ref field (.toOne related)
  | .toMany c => do
    let members ← L.collection mapper c id.toValue
    if c.inspected then inspect members
    assign ref c.field (.toMany members)

/-- Follows relations one after another. -/
def followAll (row : Row) (id : EntityId) (ref : Ref) :
    List Relation → Step (Work σ) Unit
  | [] => pure ()
  | relation :: rest => do
    L.follow mapper row id ref relation
    followAll row id ref rest

/-- Makes an entity of a row, following its relations with the given mapper:
the entity registered under the row's key if there is one, and else a new
one. -/
def mapWith (d : Descriptor) (row : Row) : Step (Work σ) Ref := do
  let e ← readRow d row
  let id ← requireId d e
  match (← Step.get).context.get? ⟨d.typeName, id⟩ with
  | some ref => pure ref
  | none => do
    let ref ← register d id e
    L.followAll mapper row id ref d.relations
    pure ref

end

/-! ## The knot -/

section

variable [Driver σ] (L : Loader)

/-- Makes an entity of a row, following relations at most so deep. -/
def mapRow : Nat → RowMapper σ
  | 0 => fun _ _ => Step.fail .endlessLoad
  | depth + 1 => L.mapWith (mapRow depth)

/-- The depth that no load goes beyond: on the way down each step has
registered a key of a type of the schema with the identifier of a row. -/
def depth (work : Work σ) : Nat :=
  L.persister.schema.length * Driver.extent work.env.driver + 1

/-- Runs a load with a row mapper that goes deep enough. -/
def run {α : Type} (load : RowMapper σ → Step (Work σ) α) :
    Step (Work σ) α := fun work => load (L.mapRow (L.depth work)) work

/-- Loads the entity of a type with an identifier. -/
def loadById (type : String) (id : EntityId) :
    Step (Work σ) (Option Ref) :=
  L.run fun mapper => L.findById mapper type id.toValue

/-- Loads the entity of the one row with a value in a field. -/
def loadOne (type field : String) (v : Value) :
    Step (Work σ) (Option Ref) := do
  let d ← L.descriptor type
  let column ← d.columnFor field
  L.run fun mapper => L.findOne mapper d column.name v

/-- Loads the entities of all rows of a type. -/
def loadAll (type : String) : Step (Work σ) (List Ref) := do
  let d ← L.descriptor type
  L.run fun mapper => L.findAll mapper d

/-- Loads the entities of the rows with a value in a field. -/
def loadAllBy (type field : String) (v : Value) :
    Step (Work σ) (List Ref) := do
  let d ← L.descriptor type
  let column ← d.columnFor field
  L.run fun mapper => L.findAllBy mapper d column.name v

/-- Loads the members of a collection. -/
def loadMembers (source : Source) : Step (Work σ) (List Ref) := do
  let d ← L.descriptor source.target
  L.run fun mapper => L.findAllBy mapper d source.column source.owner

/-- At no depth nothing is mapped. -/
@[simp] theorem mapRow_zero (d : Descriptor) (row : Row) :
    (L.mapRow 0 : RowMapper σ) d row = Step.fail .endlessLoad := rfl

/-- One step down leaves one less to go. -/
theorem mapRow_succ (n : Nat) (d : Descriptor) (row : Row) :
    (L.mapRow (n + 1) : RowMapper σ) d row = L.mapWith (L.mapRow n) d row :=
  rfl

end

end Loader

end UnitOfWork

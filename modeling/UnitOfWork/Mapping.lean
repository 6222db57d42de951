import UnitOfWork.Mapping.Descriptor

/-!
# Mappings

A mapping says how the entities of a type are stored. It is a list of
declarations, in order: the table, the fields with their columns, the
relations; `named` renames the column of the field declared last before it. A
column is called like its field, a join column like its field with `_id`
added, and the table like the type, unless they are named otherwise.

`Mapping.build` checks the declarations and gives the descriptor. It refuses,
in this order, a `named` that has no column to rename, a mapping without an
identifier or with several, and two columns whose names differ at most in the
case of letters.

A schema is the list of the types that belong together, with their mappings.
-/

namespace UnitOfWork

/-! ## Declarations -/

/-- One declaration of a mapping. -/
inductive Declaration
  | table (name : String)
  /-- The field that identifies an entity. -/
  | identifier (field : String) (type : FieldType) (generated : Bool)
  /-- A field with a column. -/
  | column (field : String) (type : FieldType)
  /-- A field that refers to one entity. -/
  | toOne (kind : ToOne) (field target : String)
  /-- A field with the entities that refer to this one. -/
  | toMany (field target mappedBy : String) (fetch : Fetch)
    (inspected : Bool)
  /-- The name of the column declared last. -/
  | named (column : String)
deriving DecidableEq

/-- A mapping: its declarations in order. -/
abbrev Mapping := List Declaration

namespace Declaration

/-- The member that a declaration adds, under its default name. -/
def member? : Declaration → Option Member
  | table _ => none
  | identifier field type generated =>
    some (.column ⟨field, field, .identifier type generated⟩)
  | column field type => some (.column ⟨field, field, .scalar type⟩)
  | toOne kind field target =>
    some (.column ⟨field, field ++ "_id", .join kind target⟩)
  | toMany field target mappedBy fetch inspected =>
    some (.collection ⟨field, target, mappedBy, fetch, inspected⟩)
  | named _ => none

end Declaration

/-! ## Collecting the members -/

/-- What a mapping has declared so far: the members newest first, and the
first `named` that had nothing to rename. -/
structure Draft where
  table : Option String := none
  members : List Member := []
  fault : Option SchemaFault := none

namespace Draft

/-- Notes a fault unless there was one before. -/
def blame (draft : Draft) (fault : SchemaFault) : Draft :=
  { draft with fault := draft.fault.or (some fault) }

/-- Renames the column declared last. -/
def rename (type : String) (draft : Draft) (name : String) : Draft :=
  match draft.members with
  | .column c :: rest =>
    { draft with members := .column { c with name := name } :: rest }
  | .collection c :: _ =>
    draft.blame (.renamedCollection type name c.field)
  | [] => draft.blame (.renameBeforeField type name)

/-- Adds one declaration. -/
def declare (type : String) (draft : Draft) : Declaration → Draft
  | .table name => { draft with table := some name }
  | .named name => draft.rename type name
  | declaration =>
    match declaration.member? with
    | some member => { draft with members := member :: draft.members }
    | none => draft

end Draft

namespace Mapping

/-- What a mapping declares. -/
def draft (type : String) (mapping : Mapping) : Draft :=
  mapping.foldl (Draft.declare type) {}

/-- The members of a mapping in the order of their declaration. -/
def members (mapping : Mapping) : List Member :=
  (mapping.draft "").members.reverse

/-- The first column whose name some column before it has as well. -/
def repeatedColumn? (before : List Column) : List Column → Option Column
  | [] => none
  | c :: rest =>
    if before.any fun b => Text.sameIgnoringCase b.name c.name then some c
    else repeatedColumn? (before ++ [c]) rest

/-- The descriptor of an entity type with the given mapping. -/
def build (type : String) (mapping : Mapping) : Except Error Descriptor :=
  let draft := mapping.draft type
  let members := draft.members.reverse
  let columns := members.filterMap Member.column?
  match draft.fault with
  | some fault => .error (.schema fault)
  | none =>
    match columns.filter Column.isIdentifier with
    | [] => .error (.schema (.noIdentifier type))
    | [identifier] =>
      match repeatedColumn? [] columns with
      | some c => .error (.schema (.repeatedColumn type c.name))
      | none => .ok ⟨type, draft.table.getD type, members, identifier⟩
    | many => .error (.schema (.severalIdentifiers type many.length))

end Mapping

/-! ## Schemas -/

/-- The entity types that belong together, each with its mapping. -/
abbrev Schema := List (String × Mapping)

namespace Schema

/-- The mapping of a type; a type without one has declared nothing. -/
def mapping (schema : Schema) (type : String) : Mapping :=
  (schema.lookup type).getD []

/-- The descriptor of a type. -/
def descriptor (schema : Schema) (type : String) : Except Error Descriptor :=
  (schema.mapping type).build type

end Schema

end UnitOfWork

import UnitOfWork.FieldType
import UnitOfWork.Text.Case

/-!
# Descriptors

What is known about an entity type once its mapping has been checked: its
table and its members in the order of their declaration. A member is a column
with the field it stores, or a collection of entities that refer back to this
one and has no column. A to-one field is a column (its join column) and a
relation at once, so the name of its join column is written down only once.
-/

namespace UnitOfWork

/-! ## Members -/

/-- The kinds of relation to a single entity. -/
inductive ToOne
  | manyToOne | oneToOne
deriving DecidableEq

/-- When a collection is read. -/
inductive Fetch
  /-- Together with its owner. -/
  | eager
  /-- When it is first looked at. -/
  | lazy
deriving DecidableEq

/-- What a column stores. -/
inductive Content
  /-- The value of a field that identifies the entity; a generated one is
  assigned by the database. -/
  | identifier (type : FieldType) (generated : Bool)
  /-- The value of any other field. -/
  | scalar (type : FieldType)
  /-- The identifier of a related entity. -/
  | join (kind : ToOne) (target : String)
deriving DecidableEq

/-- A column with the field it stores. -/
structure Column where
  field : String
  name : String
  content : Content
deriving DecidableEq

/-- A field with the entities of a type whose to-one field `mappedBy` refers
to the owner. -/
structure CollectionField where
  field : String
  target : String
  mappedBy : String
  fetch : Fetch
  /-- Whether the owner looks at the collection as soon as it is given it. -/
  inspected : Bool
deriving DecidableEq

/-- A member of a mapping. -/
inductive Member
  | column (column : Column)
  | collection (collection : CollectionField)
deriving DecidableEq

/-- A relation to other entities, as seen from its owner. -/
inductive Relation
  | toOne (kind : ToOne) (field target joinColumn : String)
  | toMany (collection : CollectionField)
deriving DecidableEq

namespace Column

/-- Whether the column identifies the entity. -/
def isIdentifier (c : Column) : Bool :=
  match c.content with
  | .identifier .. => true
  | _ => false

/-- Whether the database assigns the column's value. -/
def isGenerated (c : Column) : Bool :=
  match c.content with
  | .identifier _ generated => generated
  | _ => false

/-- Whether the column holds the identifier of a related entity. -/
def isJoin (c : Column) : Bool :=
  match c.content with
  | .join .. => true
  | _ => false

/-- The type of the column's field, unless it is a join column. -/
def type? (c : Column) : Option FieldType :=
  match c.content with
  | .identifier type _ => some type
  | .scalar type => some type
  | .join .. => none

/-- The relation that a join column belongs to. -/
def relation? (c : Column) : Option Relation :=
  match c.content with
  | .join kind target => some (.toOne kind c.field target c.name)
  | _ => none

end Column

namespace Member

/-- The column of a member. -/
def column? : Member → Option Column
  | column c => some c
  | collection _ => none

/-- The relation of a member. -/
def relation? : Member → Option Relation
  | column c => c.relation?
  | collection c => some (.toMany c)

/-- The field of a member. -/
def field : Member → String
  | column c => c.field
  | collection c => c.field

end Member

namespace Relation

/-- The field that holds the related entities. -/
def field : Relation → String
  | toOne _ field _ _ => field
  | toMany c => c.field

/-- The type of the related entities. -/
def target : Relation → String
  | toOne _ _ target _ => target
  | toMany c => c.target

/-- The column with the identifier of the related entity. -/
def joinColumn? : Relation → Option String
  | toOne _ _ _ joinColumn => some joinColumn
  | toMany _ => none

/-- The field of the related entities that refers back. -/
def mappedBy? : Relation → Option String
  | toOne .. => none
  | toMany c => some c.mappedBy

/-- When the related entities are read. -/
def fetch : Relation → Fetch
  | toOne .. => .eager
  | toMany c => c.fetch

end Relation

/-! ## Descriptors -/

/-- A checked mapping. -/
structure Descriptor where
  typeName : String
  table : String
  members : List Member
  /-- The one column that identifies the entity. -/
  identifier : Column
deriving DecidableEq

namespace Descriptor

/-- The columns in the order of their declaration. -/
def columns (d : Descriptor) : List Column := d.members.filterMap Member.column?

/-- The relations in the order of their declaration. -/
def relations (d : Descriptor) : List Relation :=
  d.members.filterMap Member.relation?

/-- The columns that hold a value of the entity itself. -/
def scalarColumns (d : Descriptor) : List Column :=
  d.columns.filter fun c => !c.isJoin

/-- The columns that an insert writes. -/
def insertedColumns (d : Descriptor) : List Column :=
  d.columns.filter fun c => !c.isGenerated

/-- The columns that an update writes. -/
def updatedColumns (d : Descriptor) : List Column :=
  d.columns.filter fun c => !c.isIdentifier

/-- The relation of a field. -/
def relation? (d : Descriptor) (field : String) : Option Relation :=
  d.relations.find? fun r => r.field = field

/-- The column of a field; a column may also be named directly. -/
def columnFor (d : Descriptor) (field : String) : Except Error Column :=
  match d.columns.find? fun c => c.field = field with
  | some c => .ok c
  | none =>
    match d.columns.find? fun c => c.name = field with
    | some c => .ok c
    | none => .error (.mapping (.unknownField d.typeName field))

/-- The column that a collection of entities of this type is read by: the join
column of the to-one field that refers back to the collection's owner. -/
def mappedByColumn (d : Descriptor) (field : String) : Except Error String :=
  match (d.relation? field).bind Relation.joinColumn? with
  | some column => .ok column
  | none => .error (.schema (.mappedByUnknown field d.typeName))

end Descriptor

end UnitOfWork

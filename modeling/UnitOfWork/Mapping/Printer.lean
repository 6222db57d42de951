import UnitOfWork.Mapping.Descriptor

/-!
# Descriptors as text

The printed form of a descriptor: a record with its name, and its fields in
braces, each with its own name; texts are quoted and an optional text is shown
as `Some` of it or as `None`.
-/

namespace UnitOfWork

namespace Text

/-- A record: its name and its fields, each with a name and a text. -/
def record (name : String) (fields : List (String × String)) : String :=
  let parts := fields.map fun field => field.1 ++ ": " ++ field.2
  name ++ " \x7b " ++ String.intercalate ", " parts ++ " \x7d"

/-- An optional text. -/
def optional : Option String → String
  | some s => "Some(" ++ quote s ++ ")"
  | none => "None"

/-- A list of printed things between brackets. -/
def bracketed (items : List String) : String :=
  "[" ++ String.intercalate ", " items ++ "]"

end Text

/-- The name of a kind of relation. -/
def ToOne.name : ToOne → String
  | manyToOne => "ManyToOne"
  | oneToOne => "OneToOne"

/-- The name of a fetch strategy. -/
def Fetch.name : Fetch → String
  | eager => "Eager"
  | lazy => "Lazy"

/-- The name of a relation's kind. -/
def Relation.kindName : Relation → String
  | toOne kind .. => kind.name
  | toMany _ => "OneToMany"

/-- The printed form of a column. -/
def Column.print (c : Column) : String :=
  Text.record "ColumnDescriptor"
    [("field", Text.quote c.field), ("column", Text.quote c.name),
     ("is_identifier", toString c.isIdentifier),
     ("is_generated", toString c.isGenerated),
     ("join_column", toString c.isJoin)]

/-- The printed form of a relation. -/
def Relation.print (r : Relation) : String :=
  Text.record "RelationDescriptor"
    [("field", Text.quote r.field), ("kind", r.kindName),
     ("target", Text.quote r.target),
     ("join_column", Text.optional r.joinColumn?),
     ("mapped_by", Text.optional r.mappedBy?), ("fetch", r.fetch.name)]

/-- The printed form of a descriptor. -/
def Descriptor.print (d : Descriptor) : String :=
  Text.record "EntityDescriptor"
    [("type_name", Text.quote d.typeName), ("table", Text.quote d.table),
     ("columns", Text.bracketed (d.columns.map Column.print)),
     ("relations", Text.bracketed (d.relations.map Relation.print))]

end UnitOfWork

import UnitOfWork.Text.Quoted

/-!
# Errors

Every way an operation can fail, by cause, and the text of each in
`Error.message`. Three causes wrap others: a statement that the driver
refused, a flush that was rolled back, and a rollback that failed in turn.

## Main results

* `Error.rootCause_withStatement`: naming the statement keeps the root cause.
-/

namespace UnitOfWork

/-! ## Causes -/

/-- A call that the state of a session, an entity or a collection forbids. -/
inductive StateFault
  | sessionClosed
  | sessionBusy
  | transactionClosed
  | databaseClosed
  | alreadyPersistent (key : String)
  | notPersistent (type : String)
  /-- The entity is borrowed, so it cannot be read or changed now. -/
  | entityBorrowed (type : String)
  /-- The entity is borrowed for change, so it cannot be looked at now. -/
  | mutablyBorrowed (type : String)
  | relatedBorrowed (type field : String)
  | relatedWithoutId (type field : String)
  | idUnset (operation type : String)
  | cacheWithoutId (type : String)
  | collectionBorrowed
  | other (text : String)
deriving DecidableEq

/-- A mapping that cannot be used. -/
inductive SchemaFault
  | renamedCollection (type column field : String)
  | renameBeforeField (type column : String)
  | noIdentifier (type : String)
  | severalIdentifiers (type : String) (count : Nat)
  | repeatedColumn (type column : String)
  | mappedByUnknown (field target : String)
  | other (text : String)
deriving DecidableEq

/-- A row or a field that does not fit the mapping. -/
inductive MappingFault
  | columnMissing (column : String) (columns : List String)
  | nullIdentifier (table : String)
  | noGeneratedKey (type : String)
  | unknownField (type field : String)
  | other (text : String)
deriving DecidableEq

/-- Settings that cannot be used. -/
inductive SettingsFault
  | urlMissing
  | poolSizeZero
  | noConnections
  | unreadable
  | invalid
  | other (text : String)
deriving DecidableEq

/-- Why an operation failed. -/
inductive Error
  /-- The database engine itself reported a failure. -/
  | engine (text : String)
  /-- A statement failed. -/
  | statement (sql : String) (source : Error)
  | schema (fault : SchemaFault)
  | state (fault : StateFault)
  /-- A write touched another number of rows than it should have. -/
  | rowCount (operation : String) (expected actual : Nat)
  | nonUnique (table : String) (rows : Nat)
  /-- A value cannot become one of the field's type. -/
  | conversion (source target : String)
  | mapping (fault : MappingFault)
  | settings (fault : SettingsFault)
  | connection (text : String)
  | poolExhausted (size : Nat)
  | poolClosed
  /-- A collection was first read after its session had gone. -/
  | lazyInitialization (entity : String)
  /-- A flush failed and was rolled back. -/
  | flush (cause : Error)
  /-- A flush failed, and so did its rollback. -/
  | rollback (source cause : Error)
  /-- A load went on beyond the rows that the driver said there were. -/
  | endlessLoad
deriving DecidableEq

/-! ## Texts -/

/-- The text of a forbidden call. -/
def StateFault.text : StateFault → String
  | sessionClosed => "Session is closed"
  | sessionBusy => "Session is busy"
  | transactionClosed => "Transaction is not open"
  | databaseClosed => "SessionFactory is closed"
  | alreadyPersistent key => "Entity " ++ key ++ " is already persistent"
  | notPersistent type =>
    type ++ " entity is not persistent in this session"
  | entityBorrowed type => type ++ " entity is already borrowed"
  | mutablyBorrowed type => type ++ " entity is mutably borrowed"
  | relatedBorrowed type field =>
    "related " ++ type ++ " of field " ++ field ++ " is mutably borrowed"
  | relatedWithoutId type field =>
    "ID field of " ++ type ++ " referenced by " ++ field ++ " is null"
  | idUnset operation type =>
    "ID field is null: cannot " ++ operation ++ " " ++ type ++ " entity"
  | cacheWithoutId type =>
    type ++ " entity without an identifier cannot be cached"
  | collectionBorrowed => "collection is already borrowed"
  | other text => text

/-- The text of an unusable mapping. -/
def SchemaFault.text : SchemaFault → String
  | renamedCollection type column field =>
    type ++ ": named(" ++ column ++ ") cannot rename one-to-many field " ++
      field ++ ": it has no column"
  | renameBeforeField type column =>
    type ++ ": named(" ++ column ++ ") must follow a field declaration"
  | noIdentifier type => "Entity " ++ type ++ " has no identifier field"
  | severalIdentifiers type count =>
    "Entity " ++ type ++ " declares " ++ toString count ++
      " identifier fields, expected exactly one"
  | repeatedColumn type column =>
    "Entity " ++ type ++ " maps column " ++ column ++ " more than once"
  | mappedByUnknown field target =>
    "mappedBy field " ++ field ++ " is not a to-one relation of " ++ target
  | other text => text

/-- The text of a misfit between row and mapping. -/
def MappingFault.text : MappingFault → String
  | columnMissing column columns =>
    "column [" ++ column ++ "] not found in result set " ++
      Text.quoteList columns
  | nullIdentifier table => "row of " ++ table ++ " has a NULL identifier"
  | noGeneratedKey type => "no generated key returned for " ++ type
  | unknownField type field => type ++ " has no mapped field " ++ field
  | other text => text

/-- The text of unusable settings. -/
def SettingsFault.text : SettingsFault → String
  | urlMissing => "Property url must be set"
  | poolSizeZero => "Property pool_size must be greater than zero"
  | noConnections => "a connection pool needs at least one connection"
  | unreadable => "cannot read"
  | invalid => "invalid configuration"
  | other text => text

namespace Error

/-- The text of an error. -/
def message : Error → String
  | engine text => text
  | statement sql source =>
    "SQL execution error: " ++ source.message ++ " (statement: " ++ sql ++ ")"
  | schema fault => "Schema error: " ++ fault.text
  | state fault => "Illegal state: " ++ fault.text
  | rowCount operation expected actual =>
    operation ++ ": expected " ++ toString expected ++
      " affected row(s), got " ++ toString actual
  | nonUnique table rows =>
    "Result must contain exactly one row, " ++ toString rows ++
      " rows matched in table " ++ table
  | conversion source target =>
    "Cannot convert value of type " ++ source ++ " to field type " ++ target
  | mapping fault => "Mapping error: " ++ fault.text
  | settings fault => "Configuration error: " ++ fault.text
  | connection text => "Connection error: " ++ text
  | poolExhausted size =>
    "No connection available: all " ++ toString size ++
      " pooled connections are leased"
  | poolClosed => "Connection pool has been closed"
  | lazyInitialization entity =>
    "Could not lazily initialize collection of " ++ entity ++
      ": session is closed"
  | flush cause =>
    "Exception occurred during flush, changes were rolled back: " ++
      cause.message
  | rollback source cause =>
    "Rollback failed (" ++ source.message ++ ") after flush error: " ++
      cause.message
  | endlessLoad => "Load found more rows than the database holds"

/-! ## Wrapping -/

/-- Names the statement that failed, unless the error does so already. -/
def withStatement (sql : String) : Error → Error
  | statement sql source => statement sql source
  | other => statement sql other

/-- The error below every failed flush and failed statement around it. -/
def rootCause : Error → Error
  | flush cause => cause.rootCause
  | statement _ source => source.rootCause
  | other => other

/-- Naming the statement keeps the root cause. -/
theorem rootCause_withStatement (sql : String) (e : Error) :
    (e.withStatement sql).rootCause = e.rootCause := by
  cases e <;> rfl

/-- A root cause is its own root cause. -/
theorem rootCause_idem (e : Error) : e.rootCause.rootCause = e.rootCause := by
  induction e with
  | flush cause ih => exact ih
  | statement sql source ih => exact ih
  | _ => rfl

/-- The statement that an error names, looking through failed flushes. -/
def statementText? : Error → Option String
  | statement sql _ => some sql
  | flush cause => cause.statementText?
  | _ => none

/-- Whether a failure of the database engine is part of an error. -/
def involvesEngine : Error → Bool
  | engine _ => true
  | statement _ source => source.involvesEngine
  | flush cause => cause.involvesEngine
  | rollback source cause => source.involvesEngine || cause.involvesEngine
  | _ => false

end Error

end UnitOfWork

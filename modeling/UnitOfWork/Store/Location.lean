import UnitOfWork.Error
import UnitOfWork.Store.Address

/-!
# Locations of databases

Where the database of an address is: in memory, in a file, or in a temporary
file of its own. An address may start with the name of a scheme, which is not
part of the path. A path that starts with `file:` is an address with options;
they may ask for a database in memory, for a file that exists already, and for
a file system by its name.

A database in a new file keeps a write-ahead log, unless its path speaks of
memory or its file system cannot share memory; then it keeps the usual
rollback journal.

## Main results

* `Location.stripStart?_eq_some_iff`: what is left of a text after a given
  beginning.
-/

namespace UnitOfWork.Location

/-! ## Addresses and paths -/

/-- The schemes that an address may start with; the first that fits counts. -/
def schemes : List String := ["jdbc:sqlite:", "sqlite://", "sqlite:"]

/-- What is left of a text after the given beginning. -/
def stripStart? : List Char → List Char → Option (List Char)
  | [], s => some s
  | c :: start, d :: s => if c = d then stripStart? start s else none
  | _ :: _, [] => none

/-- What is left of a text is what the beginning has to be followed by. -/
theorem stripStart?_eq_some_iff (start s rest : List Char) :
    stripStart? start s = some rest ↔ s = start ++ rest := by
  induction start generalizing s with
  | nil => simp [stripStart?]
  | cons c start ih =>
      cases s with
      | nil => simp [stripStart?]
      | cons d s =>
          by_cases h : c = d
          · rw [stripStart?, if_pos h, ih, h]
            simp
          · rw [stripStart?, if_neg h]
            have hNe : d ≠ c := fun hEq => h hEq.symm
            simp [hNe]

/-- The path of an address. -/
def path (url : String) : String :=
  let rest? := schemes.findSome? fun scheme =>
    stripStart? scheme.toList url.toList
  match rest? with
  | some rest => String.ofList rest
  | none => url

/-- Whether a text occurs in another. -/
def occurs (needle : List Char) : List Char → Bool
  | [] => needle.isEmpty
  | c :: rest => needle.isPrefixOf (c :: rest) || occurs needle rest

/-- Whether a path speaks of memory. -/
def speaksOfMemory (path : String) : Bool :=
  occurs ":memory:".toList path.toList ||
    occurs "mode=memory".toList path.toList

/-! ## What options ask for -/

/-- How a database is opened. -/
inductive Access
  | readOnly | readWrite
  /-- For reading and writing, in a new file if there is none. -/
  | create
  | memory
deriving DecidableEq

namespace Access

/-- The access that a `mode` names. -/
def ofMode? (mode : List UInt8) : Option Access :=
  List.lookup mode
    [(FileAddress.bytes "ro", readOnly), (FileAddress.bytes "rw", readWrite),
      (FileAddress.bytes "rwc", create), (FileAddress.bytes "memory", memory)]

/-- How much an access asks for. -/
def demand : Access → Nat
  | memory => 0
  | readOnly => 1
  | readWrite => 2
  | create => 3

/-- How much may be asked for after an access has been chosen. -/
def allowance : Access → Nat
  | memory => 3
  | access => access.demand

/-- The access that options choose, each after the ones before it. No option
can ask for more than the ones before it allow. -/
def choose? : Access → List (List UInt8 × List UInt8) → Option Access
  | access, [] => some access
  | access, (name, value) :: rest =>
    if name = FileAddress.bytes "mode" then
      match ofMode? value with
      | some next =>
        if next.demand ≤ access.allowance then choose? next rest else none
      | none => none
    else if name = FileAddress.bytes "cache" then
      if value = FileAddress.bytes "shared" ∨
          value = FileAddress.bytes "private" then choose? access rest
      else none
    else choose? access rest

end Access

/-- A file system that a database can be kept in. -/
inductive FileSystem
  /-- Files whose users can share memory. -/
  | sharing
  /-- Files whose users cannot. -/
  | separate
  /-- Files that are in memory only. -/
  | volatile
deriving DecidableEq

/-- The file system of a name. -/
def FileSystem.ofName? (name : List UInt8) : Option FileSystem :=
  List.lookup name
    [(FileAddress.bytes "unix", sharing),
      (FileAddress.bytes "unix-excl", sharing),
      (FileAddress.bytes "unix-none", separate),
      (FileAddress.bytes "unix-dotfile", separate),
      (FileAddress.bytes "memdb", volatile)]

/-! ## Places -/

/-- A file that a database is kept in. -/
structure File where
  path : List UInt8
  /-- Whether it has to exist already. -/
  existing : Bool := false
  /-- Whether a write-ahead log can be kept beside it. -/
  loggable : Bool := true
  /-- A file that its permissions are taken from. -/
  pattern? : Option (List UInt8) := none

/-- Where a database is. -/
inductive Place
  | memory
  /-- A temporary file of its own. -/
  | temporary
  | file (file : File)

/-- The place of a file, whose path may be the one that stands for memory. -/
def File.place (file : File) : Place :=
  if file.path = FileAddress.bytes ":memory:" then .memory
  else if file.path.isEmpty then .temporary
  else .file file

/-- The place that an address leads to, unless it asks for what cannot be. -/
def placeOf? (a : FileAddress) : Option Place := do
  let access ← Access.choose? .create a.options
  let system ← FileSystem.ofName?
    ((a.lastOption? "vfs").getD (FileAddress.bytes "unix"))
  let place := File.place
    { path := a.path
      existing := access != .create
      loggable := system == .sharing && !a.switchedOn "nolock" &&
        !a.switchedOn "immutable"
      pattern? := a.option? "modeof" }
  match place with
  | .file file =>
    if access = .memory || system = .volatile then some .memory
    else some (.file file)
  | .temporary => some (if access = .memory then .memory else .temporary)
  | .memory => some .memory

/-- The place that a path leads to. -/
def place? (path : String) : Option Place :=
  match stripStart? "file:".toList path.toList with
  | none => some (File.place { path := FileAddress.bytes path })
  | some rest =>
    (FileAddress.ofBytes? (FileAddress.bytes (String.ofList rest))).bind
      placeOf?

/-! ## Directories -/

/-- The names between the slashes of a path. -/
def names (path : List UInt8) : List (List UInt8) :=
  (path.splitOn FileAddress.slash).filter (!·.isEmpty)

/-- Follows a path from a directory, each given by the names on the way. -/
def follow (start path : List (List UInt8)) : List (List UInt8) :=
  path.foldl
    (fun place name =>
      if name = FileAddress.bytes "." then place
      else if name = FileAddress.bytes ".." then place.dropLast
      else place ++ [name]) start

/-- The directories that are known: an empty one, the one that relative paths
start from, and those that these are in. -/
structure Directories where
  empty : List (List UInt8)
  working : List (List UInt8)

namespace Directories

/-- The directories of two absolute paths. -/
def ofPaths (empty working : String) : Directories :=
  ⟨names (FileAddress.bytes empty), names (FileAddress.bytes working)⟩

/-- Where a path leads. -/
def resolve (dirs : Directories) (path : List UInt8) : List (List UInt8) :=
  follow (if path.head? = some FileAddress.slash then [] else dirs.working)
    (names path)

/-- Whether there is a directory. -/
def contains (dirs : Directories) (place : List (List UInt8)) : Bool :=
  place.isPrefixOf dirs.empty || place.isPrefixOf dirs.working

/-- The longest name that a file can have. -/
def maxName : Nat := 255

/-- The longest path that a database file can have. -/
def maxPath : Nat := 504

/-- Whether a new file can be made. -/
def canCreate (dirs : Directories) (file : File) : Bool :=
  let place := dirs.resolve file.path
  !dirs.contains place && dirs.contains place.dropLast &&
    (names file.path).all (·.length ≤ maxName) &&
    (place.map fun name => name.length + 1).foldl (· + ·) 0 ≤ maxPath &&
    (file.pattern?.map fun pattern =>
      !pattern.isEmpty && dirs.contains (dirs.resolve pattern)).getD true

/-- Whether a journal can be made beside a file; its name is eight bytes
longer. -/
def canJournal (dirs : Directories) (file : File) : Bool :=
  ((dirs.resolve file.path).getLast?.getD []).length + 8 ≤ maxName

end Directories

/-- The journal that a connection to the database at a path keeps. -/
def journal (dirs : Directories) (path : String) : Except Error String :=
  let refused : Error := .connection ("cannot open database " ++ path)
  if path.toList.contains '\x00' then .error refused
  else match place? path with
  | none => .error refused
  | some .memory => .ok "memory"
  | some .temporary => .ok "delete"
  | some (.file file) =>
    if file.existing || !dirs.canCreate file then .error refused
    else if speaksOfMemory path || !file.loggable then .ok "delete"
    else if dirs.canJournal file then .ok "wal"
    else .error (.engine "unable to open database file")

end UnitOfWork.Location

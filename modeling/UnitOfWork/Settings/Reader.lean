import UnitOfWork.Settings
import UnitOfWork.Json.Reader

/-!
# Settings from JSON text

Settings are written as an object or as an array. In an object each setting
has a name, `pool_size` also a second one; a setting must not be given twice,
under either name, and members of other names are passed over without being
understood. In an array the settings come in the order address, user,
password, pool size, echo, and the last ones may be missing. The address is
required. Only the user and the password may be `null`.
-/

namespace UnitOfWork.Settings

open Json (Written)

/-! ## Single settings -/

/-- A text setting. -/
def textOf? : Written → Option String
  | .string pieces => Json.stringOf? pieces
  | _ => none

/-- A text setting that may be null. -/
def nullableTextOf? : Written → Option (Option String)
  | .null => some none
  | written => (textOf? written).map some

/-- The greatest number of connections that can be asked for. -/
def maxCount : Nat := 18446744073709551615

/-- A count: a non-negative integer literal within 64 bits. -/
def countOf? : Written → Option Nat
  | .number ⟨false, digits, none, none⟩ =>
    let n := Json.digitsNat digits
    if n ≤ maxCount then some n else none
  | _ => none

/-- A truth value. -/
def flagOf? : Written → Option Bool
  | .bool b => some b
  | _ => none

/-! ## Objects and arrays -/

/-- The settings found so far in an object. -/
structure Draft where
  url : Option String := none
  username : Option (Option String) := none
  password : Option (Option String) := none
  poolSize : Option Nat := none
  showSql : Option Bool := none

/-- Fills in a setting that was not given before. -/
def Draft.fill {α : Type} (held : Option α) (given : Option α)
    (draft : α → Draft) : Option Draft :=
  match held with
  | some _ => none
  | none => given.map draft

/-- One member of an object. -/
def Draft.member? (draft : Draft) (member : List Json.Piece × Written) :
    Option Draft :=
  match Json.stringOf? member.1 with
  | none => none
  | some name =>
    if name = "url" then
      fill draft.url (textOf? member.2) fun v => { draft with url := v }
    else if name = "username" then
      fill draft.username (nullableTextOf? member.2)
        fun v => { draft with username := v }
    else if name = "password" then
      fill draft.password (nullableTextOf? member.2)
        fun v => { draft with password := v }
    else if name = "pool_size" ∨ name = "connection_pool_size" then
      fill draft.poolSize (countOf? member.2)
        fun v => { draft with poolSize := v }
    else if name = "show_sql" then
      fill draft.showSql (flagOf? member.2)
        fun v => { draft with showSql := v }
    else some draft

/-- The settings of a draft, with defaults for what was not given. -/
def Draft.settings? (draft : Draft) : Option Settings :=
  draft.url.map fun url =>
    ⟨url, draft.username.getD none, draft.password.getD none,
      draft.poolSize.getD defaultPoolSize, draft.showSql.getD false⟩

/-- One setting of an array; a missing one takes its default. -/
def itemOr? {α : Type} (of? : Written → Option α) (default : α) :
    Option Written → Option α
  | some written => of? written
  | none => some default

/-- The settings listed in an array. -/
def ofItems? (items : List Written) : Option Settings :=
  if items.length ≤ 5 then do
    let url ← items[0]?.bind textOf?
    let username ← itemOr? nullableTextOf? none items[1]?
    let password ← itemOr? nullableTextOf? none items[2]?
    let poolSize ← itemOr? countOf? defaultPoolSize items[3]?
    let showSql ← itemOr? flagOf? false items[4]?
    some ⟨url, username, password, poolSize, showSql⟩
  else none

/-- The settings that a JSON structure stands for. -/
def ofWritten? : Written → Option Settings
  | .object members =>
    (members.foldlM Draft.member? {}).bind Draft.settings?
  | .array items => ofItems? items
  | _ => none

/-- The valid settings that a JSON text stands for. -/
def read (s : String) : Except Error Settings :=
  match (Written.ofText? s).bind ofWritten? with
  | none => .error (.settings .invalid)
  | some settings => settings.validate.map fun _ => settings

/-- The valid settings in a file with the given text, if there is one. -/
def readStored : Option String → Except Error Settings
  | none => .error (.settings .unreadable)
  | some s => read s

/-- Settings that were read are valid. -/
theorem validate_of_read {s : String} {settings : Settings}
    (h : read s = .ok settings) : settings.validate = .ok () := by
  unfold read at h
  split at h
  · cases h
  · rename_i found _
    cases hv : found.validate with
    | error e => rw [hv] at h; cases h
    | ok u =>
        rw [hv] at h
        cases h
        exact hv

end UnitOfWork.Settings

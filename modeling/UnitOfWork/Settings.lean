import UnitOfWork.Error
import UnitOfWork.Text.Blank

/-!
# Settings

Where the database is, how many connections are kept to it, and whether
statements are echoed. `Settings.ofUrl` gives the defaults, the `with…`
functions change one setting each, and `Settings.validate` refuses a blank
address and an empty pool, in this order.
-/

namespace UnitOfWork

/-- The settings of a database. -/
structure Settings where
  url : String
  username : Option String
  password : Option String
  poolSize : Nat
  showSql : Bool
deriving DecidableEq

namespace Settings

/-- The number of connections unless told otherwise. -/
def defaultPoolSize : Nat := 10

/-- The default settings for an address. -/
def ofUrl (url : String) : Settings :=
  ⟨url, none, none, defaultPoolSize, false⟩

/-- The settings with a user and password. -/
def withCredentials (s : Settings) (username password : String) : Settings :=
  { s with username := some username, password := some password }

/-- The settings with a number of connections. -/
def withPoolSize (s : Settings) (n : Nat) : Settings :=
  { s with poolSize := n }

/-- The settings with the echo of statements on or off. -/
def withShowSql (s : Settings) (on : Bool) : Settings :=
  { s with showSql := on }

/-- Refuses settings without an address or without connections. -/
def validate (s : Settings) : Except Error Unit :=
  if Text.isBlankText s.url then .error (.settings .urlMissing)
  else if s.poolSize = 0 then .error (.settings .poolSizeZero)
  else .ok ()

/-- Settings are valid when both requirements are met. -/
theorem validate_eq_ok_iff (s : Settings) :
    s.validate = .ok () ↔
      Text.isBlankText s.url = false ∧ s.poolSize ≠ 0 := by
  unfold validate
  split
  · simp_all
  · split <;> simp_all

end Settings

end UnitOfWork

import UnitOfWork.Number.Shortest

/-!
# JSON values

Values of the JSON data model, their equality and their compact text. Numbers
come in two kinds that never equal each other: integers, and doubles. The
members of an object are kept in ascending order of their names, each name
once, so two objects are equal exactly when their lists of members are.
-/

namespace UnitOfWork

/-- A JSON value. -/
inductive Json
  | null
  | bool (b : Bool)
  | integer (n : Int)
  | real (d : Double)
  | text (s : String)
  | array (items : List Json)
  | object (members : List (String × Json))

namespace Json

/-! ## Members -/

/-- Adds a member in order of names; one of the same name is replaced. -/
def insertMember (name : String) (value : Json) :
    List (String × Json) → List (String × Json)
  | [] => [(name, value)]
  | (other, v) :: rest =>
    if name = other then (name, value) :: rest
    else if name < other then (name, value) :: (other, v) :: rest
    else (other, v) :: insertMember name value rest

/-! ## Equality -/

mutual

/-- Equality of values: doubles are compared as numbers, all else by parts. -/
def equal : Json → Json → Bool
  | null, null => true
  | bool a, bool b => a == b
  | integer a, integer b => a == b
  | real a, real b => a.equal b
  | text a, text b => a == b
  | array a, array b => equalItems a b
  | object a, object b => equalMembers a b
  | _, _ => false

/-- Equality of lists of values. -/
def equalItems : List Json → List Json → Bool
  | [], [] => true
  | a :: as, b :: bs => equal a b && equalItems as bs
  | _, _ => false

/-- Equality of lists of members. -/
def equalMembers : List (String × Json) → List (String × Json) → Bool
  | [], [] => true
  | (m, a) :: as, (n, b) :: bs => m == n && equal a b && equalMembers as bs
  | _, _ => false

end

/-! ## Compact text -/

/-- Doubles in a JSON text: positional from `0.00001` up to 16 digits before
the point, with an exponent otherwise. -/
def numberStyle : DecimalStyle := ⟨-4, 16⟩

/-- A lower-case hexadecimal digit. -/
private def hexDigit (n : Nat) : Char := Nat.digitChar (n % 16)

/-- One character inside a JSON string. -/
def escapeChar (c : Char) : List Char :=
  match c with
  | '"' => ['\\', '"']
  | '\\' => ['\\', '\\']
  | '\x08' => ['\\', 'b']
  | '\t' => ['\\', 't']
  | '\n' => ['\\', 'n']
  | '\x0c' => ['\\', 'f']
  | '\r' => ['\\', 'r']
  | c =>
    if c.toNat < 32 then
      ['\\', 'u', '0', '0', hexDigit (c.toNat / 16), hexDigit c.toNat]
    else [c]

/-- A JSON string. -/
def renderText (s : String) : List Char :=
  '"' :: s.toList.flatMap escapeChar ++ ['"']

mutual

/-- The text of a value, without any white space. -/
def renderChars : Json → List Char
  | null => ['n', 'u', 'l', 'l']
  | bool true => ['t', 'r', 'u', 'e']
  | bool false => ['f', 'a', 'l', 's', 'e']
  | integer n => (toString n).toList
  | real d => d.render numberStyle
  | text s => renderText s
  | array items => '[' :: renderItems true items ++ [']']
  | object members => '\x7b' :: renderMembers true members ++ ['\x7d']

/-- The texts of the items of an array, with commas between them. -/
def renderItems (first : Bool) : List Json → List Char
  | [] => []
  | item :: rest =>
    (if first then [] else [',']) ++ renderChars item ++ renderItems false rest

/-- The texts of the members of an object, with commas between them. -/
def renderMembers (first : Bool) : List (String × Json) → List Char
  | [] => []
  | (name, value) :: rest =>
    (if first then [] else [',']) ++ renderText name ++
      ':' :: renderChars value ++ renderMembers false rest

end

/-- The text of a value, without any white space. -/
def render (json : Json) : String := String.ofList json.renderChars

end Json

end UnitOfWork

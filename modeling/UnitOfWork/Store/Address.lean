import UnitOfWork.Json.Token

/-!
# Addresses of database files

A database file may be named by an address
`file:[//authority]path[?name=value&…][#fragment]`. The authority, which names
a machine, is empty or `localhost`. In the path, the names and the values,
`%` and two hexadecimal digits stand for a byte; an escaped zero byte ends the
part that it is in, and what is left of that part is passed over. An option
without a name is passed over with its value, one without `=` has the empty
value, and the fragment is never looked at.

Paths are bytes, as file systems know them.

## Main results

* `FileAddress.readPart_rest_lt`: reading a part makes progress, so the
  options are read to their end.
-/

namespace UnitOfWork

/-- An address taken apart: the path of the file, and the options in order. -/
structure FileAddress where
  path : List UInt8
  options : List (List UInt8 × List UInt8) := []
deriving DecidableEq

namespace FileAddress

/-! ## Bytes -/

/-- The UTF-8 bytes of a text. -/
def bytes (s : String) : List UInt8 := s.toUTF8.toList

def slash : UInt8 := '/'.toUInt8
def percent : UInt8 := '%'.toUInt8
def queryMark : UInt8 := '?'.toUInt8
def equalsSign : UInt8 := '='.toUInt8
def ampersand : UInt8 := '&'.toUInt8
def fragmentMark : UInt8 := '#'.toUInt8

/-- The byte that the two hexadecimal digits at the front stand for. -/
def escaped? : List UInt8 → Option UInt8
  | a :: b :: _ => do
    let high ← Json.hexValue? (Char.ofNat a.toNat)
    let low ← Json.hexValue? (Char.ofNat b.toNat)
    some (UInt8.ofNat (high * 16 + low))
  | _ => none

/-! ## Parts -/

/-- The next byte that ends a part, and what follows it. -/
def passOver (ends : UInt8 → Bool) : List UInt8 → Option (UInt8 × List UInt8)
  | [] => none
  | c :: rest => if ends c then some (c, rest) else passOver ends rest

/-- Reads a part up to a byte that ends it: the part with its escapes
replaced, and the ending byte with what follows it. -/
def readPart (ends : UInt8 → Bool) :
    List UInt8 → List UInt8 × Option (UInt8 × List UInt8)
  | [] => ([], none)
  | c :: rest =>
    if ends c then ([], some (c, rest))
    else
      match if c = percent then escaped? rest else none with
      | none =>
        let tail := readPart ends rest
        (c :: tail.1, tail.2)
      | some octet =>
        if octet = 0 then ([], passOver ends (rest.drop 2))
        else
          let tail := readPart ends (rest.drop 2)
          (octet :: tail.1, tail.2)
termination_by s => s.length

theorem passOver_rest_lt {ends : UInt8 → Bool} {s rest : List UInt8} {c : UInt8}
    (h : passOver ends s = some (c, rest)) : rest.length < s.length := by
  induction s with
  | nil => cases h
  | cons d s ih =>
      unfold passOver at h
      split at h
      · cases h
        exact Nat.lt_succ_self _
      · exact Nat.lt_succ_of_lt (ih h)

/-- What follows a part is shorter than the text that it was read from. -/
theorem readPart_rest_lt {ends : UInt8 → Bool} {s rest : List UInt8} {c : UInt8}
    (h : (readPart ends s).2 = some (c, rest)) : rest.length < s.length := by
  fun_induction readPart ends s with
  | case1 => cases h
  | case2 d s hEnds =>
      cases h
      exact Nat.lt_succ_self _
  | case3 d s hEnds hEscape tail ih => exact Nat.lt_succ_of_lt (ih h)
  | case4 d s hEnds hEscape =>
      have hDrop : (s.drop 2).length ≤ s.length := by simp
      have hLt := passOver_rest_lt h
      rw [List.length_cons]
      omega
  | case5 d s hEnds octet hEscape hZero tail ih =>
      have hDrop : (s.drop 2).length ≤ s.length := by simp
      have hLt := ih h
      rw [List.length_cons]
      omega

/-! ## Options -/

/-- Whether a byte ends the name of an option. -/
def endsName (c : UInt8) : Bool := c == equalsSign || c == ampersand

/-- Whether a byte ends the value of an option. -/
def endsValue (c : UInt8) : Bool := c == ampersand

/-- The options of an address, from left to right. -/
def readOptions (s : List UInt8) : List (List UInt8 × List UInt8) :=
  match hName : (readPart endsName s).2 with
  | none =>
    let name := (readPart endsName s).1
    if name.isEmpty then [] else [(name, [])]
  | some (c, rest) =>
    have := readPart_rest_lt hName
    let name := (readPart endsName s).1
    if c = ampersand then
      if name.isEmpty then readOptions rest else (name, []) :: readOptions rest
    else if name.isEmpty then
      match hNext : passOver endsValue rest with
      | none => []
      | some (_, next) =>
        have := passOver_rest_lt hNext
        readOptions next
    else
      let value := (readPart endsValue rest).1
      match hNext : (readPart endsValue rest).2 with
      | none => [(name, value)]
      | some (_, next) =>
        have := readPart_rest_lt hNext
        (name, value) :: readOptions next
termination_by s.length

/-! ## Addresses -/

/-- What follows the authority, if there is one. -/
def afterAuthority? (s : List UInt8) : Option (List UInt8) :=
  if s.take 2 = [slash, slash] then
    let authority := (s.drop 2).takeWhile (· != slash)
    if authority.isEmpty || authority == bytes "localhost" then
      some ((s.drop 2).dropWhile (· != slash))
    else none
  else some s

/-- Takes an address apart that stands after `file:`. -/
def ofBytes? (s : List UInt8) : Option FileAddress :=
  (afterAuthority? s).map fun s =>
    let s := s.takeWhile (· != fragmentMark)
    let part := readPart (· == queryMark) s
    ⟨part.1, (part.2.map fun rest => readOptions rest.2).getD []⟩

/-- The value of the first option of a name. -/
def option? (a : FileAddress) (name : String) : Option (List UInt8) :=
  a.options.lookup (bytes name)

/-- The value of the last option of a name. -/
def lastOption? (a : FileAddress) (name : String) : Option (List UInt8) :=
  a.options.reverse.lookup (bytes name)

/-- Whether a value switches something on: a number whose last eight bits are
not all zero, or one of three words in any letter case. -/
def isOn (value : List UInt8) : Bool :=
  let chars := value.map fun c => (Char.ofNat c.toNat).toLower
  match chars.takeWhile Char.isDigit with
  | [] => [['o', 'n'], ['y', 'e', 's'], ['t', 'r', 'u', 'e']].contains chars
  | digits =>
    let n := digits.foldl (fun n c => n * 10 + (c.toNat - 48)) 0
    n ≤ 2147483647 && n % 256 != 0

/-- Whether the first option of a name is there and switched on. -/
def switchedOn (a : FileAddress) (name : String) : Bool :=
  ((a.option? name).map isOn).getD false

end FileAddress

end UnitOfWork

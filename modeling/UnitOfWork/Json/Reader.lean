import UnitOfWork.Json.Number

/-!
# Reading JSON text

A text is read in two steps. One pass over its tokens gives its structure as
it was written; the pass keeps the arrays and objects that are still open,
innermost first, and says what may come next, so a token that does not fit
makes the text unreadable. The structure then stands for a value unless a
number is out of range, a string holds half of a surrogate pair, or arrays and
objects are nested more than 127 levels deep.
-/

namespace UnitOfWork.Json

/-! ## Structure as written -/

/-- The structure of a JSON text, with numbers and strings as written. -/
inductive Written
  | null
  | bool (b : Bool)
  | number (n : NumberText)
  | string (pieces : List Piece)
  | array (items : List Written)
  | object (members : List (List Piece × Written))

/-- An array or object that is still open, with what it holds so far, newest
first; an object also has the name that waits for its value. -/
inductive Frame
  | array (items : List Written)
  | object (members : List (List Piece × Written)) (name : List Piece)

/-- What may come next, with the open frames around it. -/
inductive ReaderState
  /-- A value. -/
  | value (stack : List Frame)
  /-- The first item of an array, or its end. -/
  | firstItem (stack : List Frame)
  /-- A name; also the end of the object if it is empty. -/
  | nameDue (first : Bool) (members : List (List Piece × Written))
    (stack : List Frame)
  /-- The colon after a name. -/
  | colon (name : List Piece) (members : List (List Piece × Written))
    (stack : List Frame)
  /-- A comma, or the end of the innermost frame. -/
  | after (stack : List Frame)
  /-- Nothing: the text is complete. -/
  | done (written : Written)

namespace ReaderState

/-- A complete value takes its place in the innermost frame. -/
def complete (written : Written) : List Frame → ReaderState
  | [] => done written
  | .array items :: rest => after (.array (written :: items) :: rest)
  | .object members name :: rest =>
    after (.object ((name, written) :: members) name :: rest)

/-- A token where a value is due. -/
def startValue (stack : List Frame) : Token → Option ReaderState
  | .null => some (complete .null stack)
  | .bool b => some (complete (.bool b) stack)
  | .number n => some (complete (.number n) stack)
  | .string pieces => some (complete (.string pieces) stack)
  | .openArray => some (firstItem (.array [] :: stack))
  | .openObject => some (nameDue true [] stack)
  | _ => none

/-- One token. -/
def step : ReaderState → Token → Option ReaderState
  | value stack, token => startValue stack token
  | firstItem (.array items :: rest), .closeArray =>
    some (complete (.array items.reverse) rest)
  | firstItem stack, token => startValue stack token
  | nameDue _ members stack, .string name => some (colon name members stack)
  | nameDue true members stack, .closeObject =>
    some (complete (.object members.reverse) stack)
  | colon name members stack, .colon =>
    some (value (.object members name :: stack))
  | after (.array items :: rest), .comma =>
    some (value (.array items :: rest))
  | after (.array items :: rest), .closeArray =>
    some (complete (.array items.reverse) rest)
  | after (.object members _ :: rest), .comma =>
    some (nameDue false members rest)
  | after (.object members _ :: rest), .closeObject =>
    some (complete (.object members.reverse) rest)
  | _, _ => none

end ReaderState

/-- The structure of a list of tokens. -/
def Written.ofTokens? (tokens : List Token) : Option Written :=
  match tokens.foldlM ReaderState.step (.value []) with
  | some (.done written) => some written
  | _ => none

/-- The structure of a text. -/
def Written.ofText? (s : String) : Option Written :=
  (tokens? s).bind Written.ofTokens?

/-! ## The value that a structure stands for -/

/-- How deep arrays and objects may be nested. -/
def maxDepth : Nat := 127

mutual

/-- The value that a structure of at most `depth` levels stands for. -/
def Written.value? (depth : Nat) : Written → Option Json
  | .null => some .null
  | .bool b => some (.bool b)
  | .number n => n.value?
  | .string pieces => (stringOf? pieces).map .text
  | .array items =>
    if depth = 0 then none
    else (Written.items? (depth - 1) items).map .array
  | .object members =>
    if depth = 0 then none
    else (Written.members? (depth - 1) members).map .object

/-- The values of the items of an array. -/
def Written.items? (depth : Nat) : List Written → Option (List Json)
  | [] => some []
  | item :: rest =>
    match item.value? depth, Written.items? depth rest with
    | some item, some rest => some (item :: rest)
    | _, _ => none

/-- The members of an object; of two with one name the later one stays. -/
def Written.members? (depth : Nat) :
    List (List Piece × Written) → Option (List (String × Json))
  | [] => some []
  | (name, value) :: rest =>
    match stringOf? name, value.value? depth, Written.members? depth rest with
    | some name, some value, some rest =>
      some (if rest.any (·.1 == name) then rest
        else insertMember name value rest)
    | _, _, _ => none

end

/-- The value that a text stands for. -/
def read? (s : String) : Option Json :=
  (Written.ofText? s).bind (Written.value? maxDepth)

end UnitOfWork.Json

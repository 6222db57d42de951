import UnitOfWork.Json.Value

/-!
# Tokens of JSON text

A text is cut into tokens before its structure is looked at. Tokens keep what
was written (the digits of a number, the escapes of a string), because a
reader may pass over a value that it would have to refuse if it had to know
it: a number out of range, or half of a surrogate pair.
-/

namespace UnitOfWork.Json

/-! ## Tokens -/

/-- A number as written: its digits before the point, after the point, and of
the exponent with the exponent's sign. -/
structure NumberText where
  negative : Bool
  whole : List Char
  fraction : Option (List Char)
  exponent : Option (Bool × List Char)
deriving DecidableEq

/-- One unit of a string as written. -/
inductive Piece
  /-- A character, itself or by a one-letter escape. -/
  | char (c : Char)
  /-- A 16-bit unit by its number. -/
  | unit (n : Nat)
deriving DecidableEq

/-- A token. -/
inductive Token
  | openArray | closeArray | openObject | closeObject | comma | colon
  | null
  | bool (b : Bool)
  | number (n : NumberText)
  | string (pieces : List Piece)
deriving DecidableEq

/-! ## Cutting text into tokens -/

/-- The four characters that may stand between tokens. -/
def isSeparator (c : Char) : Bool :=
  c == ' ' || c == '\t' || c == '\n' || c == '\r'

/-- The value of a hexadecimal digit in either case. -/
def hexValue? (c : Char) : Option Nat :=
  if c.isDigit then some (c.toNat - 48)
  else if 'a' ≤ c ∧ c ≤ 'f' then some (c.toNat - 87)
  else if 'A' ≤ c ∧ c ≤ 'F' then some (c.toNat - 55)
  else none

/-- The character that a one-letter escape stands for. -/
def shortEscape? : Char → Option Char
  | '"' => some '"'
  | '\\' => some '\\'
  | '/' => some '/'
  | 'b' => some '\x08'
  | 'f' => some '\x0c'
  | 'n' => some '\n'
  | 'r' => some '\r'
  | 't' => some '\t'
  | _ => none

/-- The pieces of a string up to its closing quote, and the rest. Controls
must be escaped. -/
def readPieces? : List Char → Option (List Piece × List Char)
  | [] => none
  | '"' :: rest => some ([], rest)
  | '\\' :: 'u' :: a :: b :: c :: d :: rest =>
    match hexValue? a, hexValue? b, hexValue? c, hexValue? d with
    | some a, some b, some c, some d =>
      (readPieces? rest).map fun (pieces, rest) =>
        (.unit (((a * 16 + b) * 16 + c) * 16 + d) :: pieces, rest)
    | _, _, _, _ => none
  | '\\' :: c :: rest =>
    match shortEscape? c with
    | some c =>
      (readPieces? rest).map fun (pieces, rest) => (.char c :: pieces, rest)
    | none => none
  | c :: rest =>
    if c.toNat < 32 ∨ c = '\\' then none
    else (readPieces? rest).map fun (pieces, rest) => (.char c :: pieces, rest)

/-- The digits before the point: one zero, or digits that begin with another;
a zero must not be followed by a digit. -/
def readWhole? (s : List Char) : Option (List Char × List Char) :=
  match s with
  | '0' :: c :: rest => if c.isDigit then none else some (['0'], c :: rest)
  | '0' :: [] => some (['0'], [])
  | c :: _ => if c.isDigit then some (s.span Char.isDigit) else none
  | [] => none

/-- Digits, at least one. -/
def readDigits? (s : List Char) : Option (List Char × List Char) :=
  match s.span Char.isDigit with
  | ([], _) => none
  | found => some found

/-- The part after the point, if there is a point. -/
def readFraction? : List Char → Option (Option (List Char) × List Char)
  | '.' :: rest =>
    (readDigits? rest).map fun (digits, rest) => (some digits, rest)
  | s => some (none, s)

/-- The exponent, if there is one: the sign and the digits. -/
def readExponent? (s : List Char) :
    Option (Option (Bool × List Char) × List Char) :=
  let digits (negative : Bool) (rest : List Char) :=
    (readDigits? rest).map fun (digits, rest) =>
      (some (negative, digits), rest)
  match s with
  | c :: rest =>
    if c = 'e' ∨ c = 'E' then
      match rest with
      | '+' :: rest => digits false rest
      | '-' :: rest => digits true rest
      | rest => digits false rest
    else some (none, s)
  | [] => some (none, s)

/-- A number without its sign. -/
def readNumber? (negative : Bool) (s : List Char) :
    Option (NumberText × List Char) :=
  (readWhole? s).bind fun (whole, s) =>
  (readFraction? s).bind fun (fraction, s) =>
  (readExponent? s).map fun (exponent, s) =>
    (⟨negative, whole, fraction, exponent⟩, s)

/-- The token that a text begins with, and the rest. -/
def readToken? : List Char → Option (Token × List Char)
  | '[' :: rest => some (.openArray, rest)
  | ']' :: rest => some (.closeArray, rest)
  | '\x7b' :: rest => some (.openObject, rest)
  | '\x7d' :: rest => some (.closeObject, rest)
  | ',' :: rest => some (.comma, rest)
  | ':' :: rest => some (.colon, rest)
  | 'n' :: 'u' :: 'l' :: 'l' :: rest => some (.null, rest)
  | 't' :: 'r' :: 'u' :: 'e' :: rest => some (.bool true, rest)
  | 'f' :: 'a' :: 'l' :: 's' :: 'e' :: rest => some (.bool false, rest)
  | '"' :: rest =>
    (readPieces? rest).map fun (pieces, rest) => (.string pieces, rest)
  | '-' :: rest =>
    (readNumber? true rest).map fun (n, rest) => (.number n, rest)
  | s => (readNumber? false s).map fun (n, rest) => (.number n, rest)

/-- The tokens of a text of fewer than `fuel` characters. -/
def readTokens? : Nat → List Char → Option (List Token)
  | 0, _ => none
  | fuel + 1, s =>
    match s.dropWhile isSeparator with
    | [] => some []
    | s =>
      match readToken? s with
      | some (token, rest) => (readTokens? fuel rest).map (token :: ·)
      | none => none

/-- The tokens of a text; every token takes at least one character. -/
def tokens? (s : String) : Option (List Token) :=
  readTokens? (s.toList.length + 1) s.toList

/-! ## What tokens stand for -/

/-- The text of a string's pieces. Two units that form a surrogate pair are
one character; a unit that lacks its partner makes the string unreadable. -/
def piecesText? : List Piece → Option (List Char)
  | [] => some []
  | .char c :: rest => (piecesText? rest).map (c :: ·)
  | .unit n :: rest =>
    if 0xD800 ≤ n ∧ n ≤ 0xDBFF then
      match rest with
      | .unit m :: rest =>
        if 0xDC00 ≤ m ∧ m ≤ 0xDFFF then
          (piecesText? rest).map
            (Char.ofNat (0x10000 + (n - 0xD800) * 0x400 + (m - 0xDC00)) :: ·)
        else none
      | _ => none
    else if 0xDC00 ≤ n ∧ n ≤ 0xDFFF then none
    else (piecesText? rest).map (Char.ofNat n :: ·)

/-- The string that a string token stands for. -/
def stringOf? (pieces : List Piece) : Option String :=
  (piecesText? pieces).map String.ofList

end UnitOfWork.Json

import UnitOfWork.Json.Number

/-!
# Numerals in text

A text that reads as a decimal number where a number is wanted: a sign, digits
with or without a point among them or at either end, an exponent, and white
space on both sides. A numeral without point and exponent stands for its
integer if that fits 64 bits; any other stands for the nearest double.
-/

namespace UnitOfWork.Numeral

/-! ## Reading -/

/-- White space around a numeral. -/
def isBlank (c : Char) : Bool :=
  c == ' ' || ('\t' ≤ c && c ≤ '\x0d')

/-- The sign at the front, whether it is a minus, and the rest. -/
def readSign : List Char → Bool × List Char
  | '-' :: rest => (true, rest)
  | '+' :: rest => (false, rest)
  | rest => (false, rest)

/-- The digits after a point at the front, if there is one, and the rest. -/
def readFraction : List Char → Option (List Char) × List Char
  | '.' :: rest =>
    (some (rest.takeWhile Char.isDigit), rest.dropWhile Char.isDigit)
  | rest => (none, rest)

/-- The exponent that a text consists of. -/
def readExponent? : List Char → Option (Option (Bool × List Char))
  | [] => some none
  | c :: rest =>
    let (negative, digits) := readSign rest
    if (c == 'e' || c == 'E') && !digits.isEmpty && digits.all Char.isDigit then
      some (some (negative, digits))
    else none

/-- The numeral that a text is. -/
def read? (s : String) : Option Json.NumberText := do
  let s := (s.toList.dropWhile isBlank).reverse.dropWhile isBlank |>.reverse
  let (negative, s) := readSign s
  let whole := s.takeWhile Char.isDigit
  let (fraction, s) := readFraction (s.dropWhile Char.isDigit)
  let exponent ← readExponent? s
  if whole.isEmpty && (fraction.getD []).isEmpty then none
  else some ⟨negative, whole, fraction, exponent⟩

/-! ## Values -/

/-- The exponent of a numeral as written; none is told apart beyond 10000. -/
def exponent (n : Json.NumberText) : Int :=
  match n.exponent with
  | none => 0
  | some (negative, digits) =>
    let e := min (Json.digitsNat digits) 10000
    if negative then -e else e

/-- The double nearest to a numeral. -/
def toDouble (n : Json.NumberText) : Double :=
  let fraction := n.fraction.getD []
  let e := exponent n - fraction.length
  let digits := Json.digitsNat (n.whole ++ fraction)
  if 0 ≤ e then Double.ofRatio n.negative (digits * Nat.pow 10 e.toNat) 1
  else Double.ofRatio n.negative digits (Nat.pow 10 (-e).toNat)

/-- The integer that a numeral stands for, if it is one of 64 bits. -/
def integer? (n : Json.NumberText) : Option Int :=
  let exact : Int :=
    if n.negative then -(Json.digitsNat n.whole : Int)
    else Json.digitsNat n.whole
  if n.fraction.isNone && n.exponent.isNone && Double.inInt64 exact then
    some exact
  else (toDouble n).integer?

end UnitOfWork.Numeral

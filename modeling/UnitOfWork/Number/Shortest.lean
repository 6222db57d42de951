import UnitOfWork.Number.Double

/-!
# Shortest decimal text of a double

The decimal with the fewest digits that reads back as the given number, and
its text. The reals that round to `m · 2 ^ e` form an interval whose ends lie
half-way to the neighbours and belong to it when `m` is even. On the grid of
decimals with `n` digits only the two grid points next to the number can be
the nearest ones inside the interval, so for `n = 1, 2, …` these two are
tested in exact arithmetic and the first grid with a hit is taken.
-/

namespace UnitOfWork

/-- A positive decimal `0.d₁d₂… · 10 ^ point`, with `d₁` not zero. -/
structure Decimal where
  digits : List Char
  point : Int
deriving DecidableEq

namespace Shortest

/-- A positive number with the interval that rounds to it: numerators over
the common denominator `den`. -/
structure Target where
  low : Nat
  value : Nat
  high : Nat
  den : Nat
  closed : Bool

/-- The interval of the reals nearest to a finite number that is not zero. -/
def target (d : Double) : Target :=
  let m := d.significand
  let below := if m = Double.hiddenBit ∧ -1074 < d.exponent then 1 else 2
  let scale := Double.scaleRatio 1 4 (-d.exponent)
  ⟨(4 * m - below) * scale.1, 4 * m * scale.1, (4 * m + 2) * scale.1, scale.2,
    m % 2 == 0⟩

/-- The place of the decimal point: the least `k` with `value < 10 ^ k`. -/
def pointPlace (t : Target) : Int :=
  if t.den ≤ t.value then (Nat.toDigits 10 (t.value / t.den)).length
  else match (List.range 400).find? fun j => t.den ≤ t.value * Nat.pow 10 j with
    | some j => 1 - (j : Int)
    | none => 0

/-- The point of the grid `10 ^ unit · ℕ` that is nearest to the number among
those in its interval. -/
def gridPoint? (t : Target) (unit : Int) : Option Nat :=
  let grid := if 0 ≤ unit then t.den * Nat.pow 10 unit.toNat else t.den
  let scale := if 0 ≤ unit then 1 else Nat.pow 10 (-unit).toNat
  let low := t.low * scale
  let high := t.high * scale
  let value := t.value * scale
  let floor := value / grid
  let inside (c : Nat) : Bool :=
    if t.closed then low ≤ c * grid && c * grid ≤ high
    else low < c * grid && c * grid < high
  let below := value - floor * grid
  let above := (floor + 1) * grid - value
  match inside floor, inside (floor + 1) with
  | true, true =>
    if below < above ∨ (below = above ∧ floor % 2 = 0) then some floor
    else some (floor + 1)
  | true, false => some floor
  | false, true => some (floor + 1)
  | false, false => none

/-- The text of a number without the zeros it ends in. -/
def significantDigits (n : Nat) : List Char :=
  ((Nat.toDigits 10 n).reverse.dropWhile (· == '0')).reverse

/-- The first grid with a hit, of `n` digits and more. -/
def search (t : Target) (place : Int) : Nat → Nat → Decimal
  | 0, _ => ⟨['0'], 0⟩
  | fuel + 1, n =>
    match gridPoint? t (place - n) with
    | some c =>
      ⟨significantDigits c, place - n + (Nat.toDigits 10 c).length⟩
    | none => search t place fuel (n + 1)

end Shortest

/-- The decimal of fewest digits that reads back as a finite number that is
not zero; 17 digits always suffice. -/
def Double.shortest (d : Double) : Decimal :=
  let t := Shortest.target d
  Shortest.search t (Shortest.pointPlace t) 17 1

/-- How decimals are written: a point place in `least ≤ · ≤ greatest` is
written positionally, any other with an exponent. -/
structure DecimalStyle where
  least : Int
  greatest : Int

namespace Decimal

/-- Digits with the point behind the first `n`. -/
private def splitAt (digits : List Char) (n : Nat) : List Char :=
  digits.take n ++ '.' :: digits.drop n

/-- The text of an exponent, with a sign and no padding. -/
private def exponentText (n : Int) : List Char :=
  (if 0 ≤ n then ['e', '+'] else ['e']) ++ (toString n).toList

/-- The text of a positive decimal. An integral one ends in `.0`, unless it
has an exponent. -/
def render (style : DecimalStyle) (x : Decimal) : List Char :=
  let n := (x.digits.length : Int)
  if x.point < style.least ∨ style.greatest < x.point then
    let mantissa :=
      if x.digits.length = 1 then x.digits else splitAt x.digits 1
    mantissa ++ exponentText (x.point - 1)
  else if n ≤ x.point then
    x.digits ++ List.replicate (x.point - n).toNat '0' ++ ['.', '0']
  else if 0 < x.point then
    splitAt x.digits x.point.toNat
  else
    ['0', '.'] ++ List.replicate (-x.point).toNat '0' ++ x.digits

end Decimal

/-- The text of a finite number in the given style. -/
def Double.render (style : DecimalStyle) (d : Double) : List Char :=
  let magnitude := if d.isZero then ['0', '.', '0'] else d.shortest.render style
  if d.isNegative then '-' :: magnitude else magnitude

end UnitOfWork

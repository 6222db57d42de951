import UnitOfWork.Json.Token

/-!
# Numbers of JSON text

An integer literal within 64 bits, signed or unsigned, is an integer, except
that `-0` is the double `-0.0`. Every other number is a double, found in two
roundings: the leading digits that fit 64 bits are taken as an integer and
rounded to a double, which is then multiplied or divided by the double nearest
to a power of ten; powers beyond `10 ^ 308` are divided off in steps. A number
that leaves the range of doubles is refused.
-/

namespace UnitOfWork.Json

/-! ## Significant digits -/

/-- The greatest significand. -/
def maxSignificand : Nat := 18446744073709551615

/-- Appends digits to a significand as long as it stays in range; the second
part counts the digits used. -/
def absorb (significand : Nat) : List Char → Nat × Nat
  | [] => (significand, 0)
  | c :: rest =>
    let next := significand * 10 + (c.toNat - 48)
    if maxSignificand < next then (significand, 0)
    else
      let tail := absorb next rest
      (tail.1, tail.2 + 1)

/-- The value of digits as a natural number. -/
def digitsNat (digits : List Char) : Nat :=
  digits.foldl (fun n c => n * 10 + (c.toNat - 48)) 0

/-! ## Scaling by powers of ten -/

/-- The double nearest to a power of ten. -/
def powerOfTen (n : Nat) : Double := Double.ofRatio false (Nat.pow 10 n) 1

/-- Scales a number by a power of ten. A negative exponent beyond the table of
powers is worked off in steps of 308, at most `fuel` of them. -/
def scaleByTen? : Nat → Double → Int → Option Double
  | fuel, d, exponent =>
    if exponent.natAbs ≤ 308 then
      if 0 ≤ exponent then
        let product := d.mulMagnitude (powerOfTen exponent.toNat)
        if product.isInfinite then none else some product
      else some (d.divMagnitude (powerOfTen (-exponent).toNat))
    else if d.isZero then some d
    else if 0 ≤ exponent then none
    else match fuel with
      | 0 => some (Double.zero false)
      | fuel + 1 =>
        scaleByTen? fuel (d.divMagnitude (powerOfTen 308)) (exponent + 308)

/-- Three steps of 308 take every significand below the least double. -/
def scaleSteps : Nat := 4

/-! ## The number that a text stands for -/

/-- The greatest exponent that is read as written. -/
def maxExponent : Nat := 2147483647

/-- A double from its significand, the exponent that goes with it and the
exponent as written. -/
def readReal? (significand : Nat) (exponent : Int)
    (written : Option (Bool × List Char)) : Option Double :=
  match written with
  | none => scaleByTen? scaleSteps (Double.ofInt significand) exponent
  | some (negative, digits) =>
    if maxExponent < digitsNat digits then
      if significand ≠ 0 ∧ negative = false then none
      else some (Double.zero false)
    else
      let total :=
        if negative then max (exponent - digitsNat digits) (-2147483648)
        else min (exponent + digitsNat digits) maxExponent
      scaleByTen? scaleSteps (Double.ofInt significand) total

/-- The number that a number token stands for, unless it is out of range. -/
def NumberText.value? (n : NumberText) : Option Json :=
  let whole := absorb 0 n.whole
  let dropped := n.whole.length - whole.2
  match n.fraction, n.exponent with
  | none, none =>
    if dropped = 0 then
      if n.negative then
        if whole.1 = 0 ∨ 9223372036854775808 < whole.1 then
          some (.real ((Double.ofInt whole.1).withSign true))
        else some (.integer (-whole.1))
      else some (.integer whole.1)
    else (readReal? whole.1 dropped none).map fun d =>
      .real (d.withSign n.negative)
  | fraction, exponent =>
    let tail := absorb whole.1 (fraction.getD [])
    (readReal? tail.1 ((dropped : Int) - tail.2) exponent).map fun d =>
      .real (d.withSign n.negative)

end UnitOfWork.Json

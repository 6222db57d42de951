/-!
# Double-precision numbers

A number of the binary64 format is kept by its bit pattern, so that it can be
told apart from every other (`-0.0` from `0.0`, one NaN from another) and
reasoned about; its value is `± significand · 2 ^ exponent`. Arithmetic is
exact on the ratio of two natural numbers and rounded once, to nearest with
ties to even.

## Main results

* `Double.equal_self_iff`: a number equals itself unless it is a NaN;
* `Double.equal_comm`, `Double.equal_trans`: otherwise equality of numbers
  behaves as expected, with `0.0` equal to `-0.0`.
-/

namespace UnitOfWork

/-- A binary64 number, by its bit pattern. -/
structure Double where
  bits : UInt64
deriving DecidableEq, Inhabited

namespace Double

/-! ## Fields of the format -/

/-- The bit above the fraction, `2 ^ 52`: the leading bit of a significand,
which the pattern leaves out. -/
def hiddenBit : Nat := 4503599627370496

/-- The sign bit of the pattern, `2 ^ 63`. -/
def signBit : Nat := 9223372036854775808

/-- The 52 bits of the fraction. -/
def fraction (d : Double) : Nat := d.bits.toNat % hiddenBit

/-- The 11 bits of the biased exponent. -/
def biased (d : Double) : Nat := d.bits.toNat / hiddenBit % 2048

/-- The sign bit. -/
def isNegative (d : Double) : Bool := d.bits.toNat / signBit == 1

/-- Whether the pattern stands for no number at all. -/
def isNaN (d : Double) : Bool := d.biased == 2047 && d.fraction != 0

/-- Whether the pattern stands for an infinity. -/
def isInfinite (d : Double) : Bool := d.biased == 2047 && d.fraction == 0

/-- Whether the number is one of the two zeros. -/
def isZero (d : Double) : Bool := d.biased == 0 && d.fraction == 0

/-- The natural number that the magnitude is a scaled copy of. -/
def significand (d : Double) : Nat :=
  if d.biased = 0 then d.fraction else hiddenBit + d.fraction

/-- The power of two that scales the significand. -/
def exponent (d : Double) : Int :=
  if d.biased = 0 then -1074 else (d.biased : Int) - 1075

/-! ## Equality of numbers -/

/-- Equality of numbers: a NaN equals nothing, and the two zeros are equal. -/
def equal (a b : Double) : Bool :=
  !a.isNaN && !b.isNaN && (a == b || (a.isZero && b.isZero))

/-- A number equals itself unless it is a NaN. -/
theorem equal_self_iff (d : Double) : d.equal d = true ↔ d.isNaN = false := by
  simp [equal]

/-- Equality of numbers is symmetric. -/
theorem equal_comm (a b : Double) : a.equal b = b.equal a := by
  simp only [equal, Bool.and_comm a.isZero, BEq.comm (a := a)]
  cases a.isNaN <;> cases b.isNaN <;> simp

/-- Equality of numbers is transitive. -/
theorem equal_trans {a b c : Double} (hab : a.equal b = true)
    (hbc : b.equal c = true) : a.equal c = true := by
  simp only [equal, Bool.and_eq_true, Bool.or_eq_true, beq_iff_eq] at *
  obtain ⟨⟨ha, _⟩, hab⟩ := hab
  obtain ⟨⟨_, hc⟩, hbc⟩ := hbc
  refine ⟨⟨ha, hc⟩, ?_⟩
  rcases hab with rfl | ⟨hza, hzb⟩
  · exact hbc
  · rcases hbc with rfl | ⟨_, hzc⟩
    · exact Or.inr ⟨hza, hzb⟩
    · exact Or.inr ⟨hza, hzc⟩

/-! ## Rounding -/

/-- A binary format: `precision` significant bits, units in the last place
from `2 ^ least` up, and no number as large as `2 ^ bound`. -/
structure Format where
  precision : Nat
  least : Int
  bound : Int

/-- The format of double precision. -/
def double : Format := ⟨53, -1074, 1024⟩

/-- The format of single precision. -/
def single : Format := ⟨24, -149, 128⟩

/-- The quotient rounded to the nearest natural number, ties to even. -/
def roundQuotient (num den : Nat) : Nat :=
  let q := num / den
  let r := num % den
  if 2 * r < den then q else if den < 2 * r then q + 1 else q + q % 2

/-- The ratio of `num · 2 ^ (-e)` to `den`, with a natural numerator. -/
def scaleRatio (num den : Nat) (e : Int) : Nat × Nat :=
  if 0 ≤ e then (num, den * Nat.pow 2 e.toNat)
  else (num * Nat.pow 2 (-e).toNat, den)

/-- The exponent of the greatest power of two not above `num / den`. -/
def floorLog2 (num den : Nat) : Int :=
  let guess := (Nat.log2 num : Int) - Nat.log2 den
  let scaled := scaleRatio num den guess
  if scaled.2 ≤ scaled.1 then guess else guess - 1

/-- The number of a format nearest to `num / den`, as a significand and an
exponent; `none` when it is as large as the format's bound. -/
def Format.round (f : Format) (num den : Nat) : Option (Nat × Int) :=
  let e := max f.least (floorLog2 num den - ((f.precision : Int) - 1))
  let scaled := scaleRatio num den e
  let m := roundQuotient scaled.1 scaled.2
  if f.bound < e + f.precision ∨
      (e + f.precision = f.bound ∧ m = Nat.pow 2 f.precision) then none
  else some (m, e)

/-! ## Numbers from ratios and integers -/

/-- The pattern of `± m · 2 ^ e`, for an `m` of at most 53 bits whose leading
bit is the 53rd unless `e` is the least exponent. -/
def ofParts (negative : Bool) (m : Nat) (e : Int) : Double :=
  ⟨UInt64.ofNat ((if negative then signBit else 0) +
    (e + 1074).toNat * hiddenBit + m)⟩

/-- The infinity of a sign. -/
def infinity (negative : Bool) : Double := ofParts negative hiddenBit 972

/-- The zero of a sign. -/
def zero (negative : Bool) : Double := ofParts negative 0 (-1074)

/-- The number nearest to `± num / den`; infinite when that is out of range. -/
def ofRatio (negative : Bool) (num den : Nat) : Double :=
  if num = 0 then zero negative
  else match double.round num den with
    | some (m, e) => ofParts negative m e
    | none => infinity negative

/-- The number nearest to an integer. -/
def ofInt (n : Int) : Double := ofRatio (n < 0) n.natAbs 1

/-- The magnitude of a finite number as a ratio. -/
def ratio (d : Double) : Nat × Nat :=
  if 0 ≤ d.exponent then (d.significand * Nat.pow 2 d.exponent.toNat, 1)
  else (d.significand, Nat.pow 2 (-d.exponent).toNat)

/-- The single-precision number nearest to `± num / den`, widened again. -/
def singleOfRatio (negative : Bool) (num den : Nat) : Double :=
  if num = 0 then zero negative
  else match single.round num den with
    | some (m, e) =>
      let widened := scaleRatio m 1 (-e)
      ofRatio negative widened.1 widened.2
    | none => infinity negative

/-- The number rounded to single precision and widened again. -/
def toSingle (d : Double) : Double :=
  if d.biased = 2047 then d
  else singleOfRatio d.isNegative d.ratio.1 d.ratio.2

/-- The single-precision number nearest to an integer, rounded once. -/
def singleOfInt (n : Int) : Double := singleOfRatio (n < 0) n.natAbs 1

/-- Whether a number is exactly an integer. -/
def equalsInt (d : Double) (n : Int) : Bool :=
  d.biased != 2047 && d.ratio.1 == n.natAbs * d.ratio.2 &&
    (n == 0 || d.isNegative == decide (n < 0))

/-- Whether an integer fits 64 bits, signed. -/
def inInt64 (n : Int) : Bool :=
  -9223372036854775808 ≤ n && n ≤ 9223372036854775807

/-- The integer that a number is, if it lies strictly inside the range of 64
bits. -/
def integer? (d : Double) : Option Int :=
  let n : Int := (d.ratio.1 / d.ratio.2 : Nat)
  let n := if d.isNegative then -n else n
  if d.equalsInt n && -9223372036854775808 < n && n < 9223372036854775807 then
    some n
  else none

/-- The product of the magnitudes of two finite numbers. -/
def mulMagnitude (a b : Double) : Double :=
  ofRatio false (a.ratio.1 * b.ratio.1) (a.ratio.2 * b.ratio.2)

/-- The quotient of the magnitudes of two finite numbers. -/
def divMagnitude (a b : Double) : Double :=
  ofRatio false (a.ratio.1 * b.ratio.2) (a.ratio.2 * b.ratio.1)

/-- The number with the given sign. -/
def withSign (negative : Bool) (d : Double) : Double :=
  ⟨UInt64.ofNat ((if negative then signBit else 0) + d.bits.toNat % signBit)⟩

end Double

end UnitOfWork

import Mathlib.Algebra.Order.Field.Power
import Mathlib.Data.Rat.Cast.Order
import Mathlib.Tactic.FieldSimp
import Mathlib.Tactic.Positivity
import UnitOfWork.Number.Double

/-!
# Rounding a number of the format

Rounding is exact on the numbers that a format has: a ratio that is
`m · 2 ^ e`, for an `m` of no more bits than the format's precision and an `e`
in its range, is rounded to a significand and an exponent of the same value.
So a double whose value single precision has is what it is rounded to.

## Main results

* `Format.round_exact`: a number of the format is rounded to itself;
* `Double.toSingle_of_isSingle`: so is a double that single precision has.
-/

namespace UnitOfWork.Double

/-! ## Ratios and powers of two -/

variable {num den m : Nat} {e k : ℤ}

theorem scaleRatio_pos (h : 0 < den) (e : ℤ) :
    0 < (scaleRatio num den e).2 := by
  unfold scaleRatio
  by_cases hE : 0 ≤ e
  · rw [if_pos hE]
    exact Nat.mul_pos h (Nat.pow_pos (by decide))
  · rw [if_neg hE]
    exact h

/-- The scaled ratio is the ratio times the power of two. -/
theorem scaleRatio_eq (num den : Nat) (e : ℤ) :
    ((scaleRatio num den e).1 : ℚ) / (scaleRatio num den e).2 =
      num / den * 2 ^ (-e) := by
  unfold scaleRatio
  by_cases hE : 0 ≤ e
  · lift e to ℕ using hE
    rw [if_pos (Int.natCast_nonneg e), zpow_neg, zpow_natCast,
      Int.toNat_natCast, Nat.pow_eq]
    push_cast
    rw [div_mul_eq_div_div, div_eq_mul_inv _ (2 ^ e : ℚ)]
  · obtain ⟨n, rfl⟩ : ∃ n : ℕ, e = -n := ⟨(-e).toNat, by omega⟩
    rw [if_neg hE, neg_neg, zpow_natCast, Int.toNat_natCast, Nat.pow_eq]
    push_cast
    rw [div_mul_eq_mul_div]

/-- A quotient without a remainder is not rounded. -/
theorem roundQuotient_exact (hDen : 0 < den) (h : (num : ℚ) / den = m) :
    roundQuotient num den = m := by
  have hPos : (den : ℚ) ≠ 0 := by positivity
  have hNum : num = m * den := by exact_mod_cast (div_eq_iff hPos).1 h
  subst hNum
  simp [roundQuotient, Nat.mul_div_cancel m hDen, hDen]

/-- A power of two not above a number and the next one. -/
theorem log2_bounds {n : Nat} (h : 0 < n) :
    (2 : ℚ) ^ (n.log2 : ℤ) ≤ n ∧ (n : ℚ) < 2 ^ ((n.log2 : ℤ) + 1) := by
  have hLow : 2 ^ n.log2 ≤ n := Nat.log2_self_le (Nat.ne_of_gt h)
  have hHigh : n < 2 ^ (n.log2 + 1) := Nat.lt_log2_self
  have hCast : (n.log2 : ℤ) + 1 = ((n.log2 + 1 : ℕ) : ℤ) := by omega
  rw [hCast, zpow_natCast, zpow_natCast]
  exact ⟨by exact_mod_cast hLow, by exact_mod_cast hHigh⟩

/-- Powers of two on either side of one number. -/
theorem lt_of_powers {x : ℚ} {i j : ℤ} (hLow : 2 ^ i ≤ x) (hHigh : x < 2 ^ j) :
    i < j :=
  (zpow_lt_zpow_iff_right₀ (by norm_num)).1 (hLow.trans_lt hHigh)

/-- The exponent of the greatest power of two not above a ratio. -/
theorem floorLog2_eq (hNum : 0 < num) (hDen : 0 < den)
    (hLow : 2 ^ k ≤ (num : ℚ) / den) (hHigh : (num : ℚ) / den < 2 ^ (k + 1)) :
    floorLog2 num den = k := by
  obtain ⟨hNumLow, hNumHigh⟩ := log2_bounds hNum
  obtain ⟨hDenLow, hDenHigh⟩ := log2_bounds hDen
  have hPos : (0 : ℚ) < den := by positivity
  -- the guess is the exponent or one more
  have hAbove : k < (num.log2 : ℤ) - den.log2 + 1 := by
    apply lt_of_powers hLow
    rw [div_lt_iff₀ hPos]
    calc
      (num : ℚ) < 2 ^ ((num.log2 : ℤ) + 1) := hNumHigh
      _ = 2 ^ ((num.log2 : ℤ) - den.log2 + 1) * 2 ^ (den.log2 : ℤ) := by
        rw [← zpow_add₀ (by norm_num)]
        congr 1
        omega
      _ ≤ 2 ^ ((num.log2 : ℤ) - den.log2 + 1) * den := by gcongr
  have hBelow : (num.log2 : ℤ) - den.log2 - 1 < k + 1 := by
    apply lt_of_powers _ hHigh
    rw [le_div_iff₀ hPos]
    calc
      2 ^ ((num.log2 : ℤ) - den.log2 - 1) * (den : ℚ)
          ≤ 2 ^ ((num.log2 : ℤ) - den.log2 - 1) * 2 ^ ((den.log2 : ℤ) + 1) := by
        gcongr
      _ = 2 ^ (num.log2 : ℤ) := by
        rw [← zpow_add₀ (by norm_num)]
        congr 1
        omega
      _ ≤ num := hNumLow
  unfold floorLog2
  generalize (num.log2 : ℤ) - den.log2 = guess at hAbove hBelow
  have hScaled := scaleRatio_eq num den guess
  have hScaledPos : (0 : ℚ) < (scaleRatio num den guess).2 := by
    exact_mod_cast scaleRatio_pos hDen guess
  have hTest : (scaleRatio num den guess).2 ≤ (scaleRatio num den guess).1 ↔
      (2 : ℚ) ^ guess ≤ num / den := by
    have hCast : ((scaleRatio num den guess).2 : ℚ) ≤
        (scaleRatio num den guess).1 ↔
          (scaleRatio num den guess).2 ≤ (scaleRatio num den guess).1 :=
      Nat.cast_le
    rw [← hCast, ← one_le_div₀ hScaledPos, hScaled, zpow_neg,
      ← div_eq_mul_inv, one_le_div₀ (by positivity)]
  by_cases hGuess : (2 : ℚ) ^ guess ≤ num / den
  · have hMost := lt_of_powers hGuess hHigh
    simp only [hTest.2 hGuess, if_true]
    omega
  · have hLess := lt_of_powers hLow (not_le.1 hGuess)
    simp only [mt hTest.1 hGuess, if_false]
    omega

/-! ## Numbers of a format -/

/-- The exponent that a format has for the number `m · 2 ^ e`. -/
def Format.unit (f : Format) (m : Nat) (e : ℤ) : ℤ :=
  max f.least (m.log2 + e - ((f.precision : ℤ) - 1))

/-- A format has the number `m · 2 ^ e`. -/
structure Format.Fits (f : Format) (m : Nat) (e : ℤ) : Prop where
  pos : 0 < m
  lt : m < 2 ^ f.precision
  least : f.least ≤ e
  bound : e + f.precision ≤ f.bound

variable {f : Format}

theorem Format.Fits.log2_lt (h : f.Fits m e) : m.log2 < f.precision :=
  (Nat.log2_lt (Nat.ne_of_gt h.pos)).2 h.lt

theorem Format.Fits.unit_le (h : f.Fits m e) : f.unit m e ≤ e := by
  have hLog := h.log2_lt
  have hLeast := h.least
  unfold unit
  omega

/-- The significand that goes with the exponent of the format. -/
theorem Format.Fits.shifted_lt (h : f.Fits m e) :
    m * 2 ^ (e - f.unit m e).toNat < 2 ^ f.precision := by
  have hLog := h.log2_lt
  have hShift : (e - f.unit m e).toNat ≤ f.precision - 1 - m.log2 := by
    unfold unit
    omega
  calc
    m * 2 ^ (e - f.unit m e).toNat
        ≤ m * 2 ^ (f.precision - 1 - m.log2) :=
      Nat.mul_le_mul_left m (Nat.pow_le_pow_right (by decide) hShift)
    _ < 2 ^ (m.log2 + 1) * 2 ^ (f.precision - 1 - m.log2) :=
      Nat.mul_lt_mul_of_pos_right Nat.lt_log2_self (Nat.pow_pos (by decide))
    _ = 2 ^ f.precision := by
      rw [← Nat.pow_add]
      congr 1
      omega

/-- A number of a format is rounded to itself, with the format's exponent. -/
theorem Format.round_exact (h : f.Fits m e) (hNum : 0 < num) (hDen : 0 < den)
    (hValue : (num : ℚ) / den = m * 2 ^ e) :
    f.round num den = some (m * 2 ^ (e - f.unit m e).toNat, f.unit m e) := by
  obtain ⟨hLow, hHigh⟩ := log2_bounds h.pos
  have hFloor : floorLog2 num den = m.log2 + e := by
    apply floorLog2_eq hNum hDen
    · rw [hValue, zpow_add₀ (by norm_num)]
      gcongr
    · rw [hValue, add_right_comm, zpow_add₀ (by norm_num)]
      gcongr
  have hUnit := h.unit_le
  have hScaled : ((scaleRatio num den (f.unit m e)).1 : ℚ) /
      (scaleRatio num den (f.unit m e)).2 =
        (m * 2 ^ (e - f.unit m e).toNat : ℕ) := by
    have hShift : ((e - f.unit m e).toNat : ℤ) = e + -f.unit m e := by omega
    rw [scaleRatio_eq, hValue, mul_assoc, ← zpow_add₀ (by norm_num), ← hShift,
      zpow_natCast]
    push_cast
    rfl
  have hRounded := roundQuotient_exact (scaleRatio_pos hDen _) hScaled
  have hLess := h.shifted_lt
  have hBound := h.bound
  have hUnitEq : max f.least (floorLog2 num den - ((f.precision : ℤ) - 1)) =
      f.unit m e := by rw [hFloor, unit]
  simp only [round, hUnitEq, hRounded]
  apply if_neg
  rintro (hOver | ⟨_, hFull⟩)
  · omega
  · rw [hFull] at hLess
    exact absurd hLess (lt_irrefl _)

/-- The exponent of the format is the number's own if its significand is full,
or the exponent the least. -/
theorem Format.Fits.unit_eq (h : f.Fits m e)
    (hFull : e = f.least ∨ 2 ^ (f.precision - 1) ≤ m) : f.unit m e = e := by
  have hLog := h.log2_lt
  have hLeast := h.least
  rcases hFull with hLowest | hFull
  · unfold unit
    omega
  · have hMost : f.precision - 1 ≤ m.log2 :=
      (Nat.le_log2 (Nat.ne_of_gt h.pos)).2 hFull
    unfold unit
    omega

/-! ## Doubles -/

/-- The magnitude of a finite number. -/
def magnitude (d : Double) : ℚ := d.significand * 2 ^ d.exponent

/-- The numbers that single precision has: infinities, and those of at most 24
bits in its range. -/
def IsSingle (d : Double) : Prop :=
  d.isInfinite = true ∨
    d.biased ≠ 2047 ∧ ∃ (m : ℕ) (e : ℤ), m < 2 ^ 24 ∧ -149 ≤ e ∧ e ≤ 104 ∧
      d.magnitude = m * 2 ^ e

variable {d : Double}

theorem ratio_pos (d : Double) : 0 < d.ratio.2 := by
  unfold ratio
  by_cases hE : 0 ≤ d.exponent
  · rw [if_pos hE]
    exact Nat.one_pos
  · rw [if_neg hE]
    exact Nat.pow_pos (by decide)

theorem ratio_eq (d : Double) :
    (d.ratio.1 : ℚ) / d.ratio.2 = d.magnitude := by
  unfold ratio magnitude
  by_cases hE : 0 ≤ d.exponent
  · rw [if_pos hE, Nat.pow_eq]
    push_cast
    rw [div_one, ← zpow_natCast, Int.toNat_of_nonneg hE]
  · rw [if_neg hE, Nat.pow_eq]
    push_cast
    rw [← zpow_natCast, Int.toNat_of_nonneg (by omega), zpow_neg, div_inv_eq_mul]

/-- The pattern consists of its three fields. -/
theorem ofParts_fields (d : Double) :
    ofParts d.isNegative d.significand d.exponent = d := by
  have hWidth : d.bits.toNat < 18446744073709551616 := d.bits.toNat_lt
  have hFraction : d.fraction = d.bits.toNat % 4503599627370496 := rfl
  have hBiased : d.biased = d.bits.toNat / 4503599627370496 % 2048 := rfl
  have hSign : (if d.isNegative then signBit else 0) =
      d.bits.toNat / 9223372036854775808 * 9223372036854775808 := by
    simp only [isNegative, signBit, beq_iff_eq]
    split_ifs <;> omega
  have hSum : (if d.isNegative then signBit else 0) +
      (d.exponent + 1074).toNat * hiddenBit + d.significand =
        d.bits.toNat := by
    rw [hSign, exponent, significand, hiddenBit]
    by_cases hZero : d.biased = 0
    · rw [if_pos hZero, if_pos hZero]
      omega
    · rw [if_neg hZero, if_neg hZero]
      omega
  rw [ofParts, hSum, UInt64.ofNat_toNat]

/-- Double precision has every finite number but the zeros. -/
theorem fits_double (h : d.biased ≠ 2047) (hSome : 0 < d.significand) :
    double.Fits d.significand d.exponent := by
  have hFraction : d.fraction < hiddenBit := Nat.mod_lt _ (by decide)
  have hBiased : d.biased < 2048 := Nat.mod_lt _ (by decide)
  refine ⟨hSome, ?_, ?_, ?_⟩
  · show d.significand < 9007199254740992
    unfold significand
    unfold hiddenBit at hFraction ⊢
    split_ifs <;> omega
  all_goals
    simp only [double, exponent]
    split_ifs <;> omega

/-- Its significand is full unless its exponent is the least. -/
theorem significand_full (d : Double) :
    d.exponent = double.least ∨
      2 ^ (double.precision - 1) ≤ d.significand := by
  by_cases hZero : d.biased = 0
  · exact Or.inl (if_pos hZero)
  · right
    rw [significand, if_neg hZero]
    exact Nat.le_add_right hiddenBit d.fraction

/-- Only the zeros have no significand. -/
theorem zero_of_significand (h : d.significand = 0) :
    zero d.isNegative = d := by
  have hBiased : d.biased = 0 := by
    by_contra hSome
    rw [significand, if_neg hSome] at h
    exact absurd h (by simp [hiddenBit])
  have hParts := ofParts_fields d
  rwa [h, exponent, if_pos hBiased] at hParts

/-- A ratio with the magnitude of a double is rounded to the double. -/
theorem ofRatio_magnitude (h : d.biased ≠ 2047) (hDen : 0 < den)
    (hValue : (num : ℚ) / den = d.magnitude) :
    ofRatio d.isNegative num den = d := by
  have hDenPos : (den : ℚ) ≠ 0 := by positivity
  have hPower : (2 : ℚ) ^ d.exponent ≠ 0 := by positivity
  have hIff : num = 0 ↔ d.significand = 0 := by
    have hZero : (num : ℚ) / den = 0 ↔ d.magnitude = 0 := by rw [hValue]
    simpa [magnitude, hDenPos, hPower] using hZero
  unfold ofRatio
  by_cases hZero : num = 0
  · rw [if_pos hZero]
    exact zero_of_significand (hIff.1 hZero)
  · have hFits := fits_double h (Nat.pos_of_ne_zero (mt hIff.2 hZero))
    have hRound := Format.round_exact hFits (Nat.pos_of_ne_zero hZero) hDen
      hValue
    rw [hFits.unit_eq d.significand_full, sub_self] at hRound
    rw [if_neg hZero, hRound]
    simpa using ofParts_fields d

/-- A number that single precision has is what it is rounded to. -/
theorem toSingle_of_isSingle (h : d.IsSingle) : d.toSingle = d := by
  unfold toSingle
  by_cases hTop : d.biased = 2047
  · rw [if_pos hTop]
  rw [if_neg hTop, singleOfRatio]
  by_cases hZero : d.ratio.1 = 0
  · have hSelf := ofRatio_magnitude hTop d.ratio_pos d.ratio_eq
    rw [ofRatio, if_pos hZero] at hSelf
    rw [if_pos hZero, hSelf]
  · obtain hInfinite | ⟨_, m, e, hBits, hLeast, hMost, hMagnitude⟩ := h
    · simp [isInfinite, hTop] at hInfinite
    have hRatio : (d.ratio.1 : ℚ) / d.ratio.2 = m * 2 ^ e :=
      d.ratio_eq.trans hMagnitude
    have hSome : m ≠ 0 := by
      rintro rfl
      have hDen := d.ratio_pos
      simp [hZero, Nat.ne_of_gt hDen] at hRatio
    have hFits : single.Fits m e :=
      ⟨Nat.pos_of_ne_zero hSome, hBits, hLeast, by
        simp only [single]
        omega⟩
    have hUnit := hFits.unit_le
    rw [if_neg hZero, Format.round_exact hFits (Nat.pos_of_ne_zero hZero)
      d.ratio_pos hRatio]
    apply ofRatio_magnitude hTop (scaleRatio_pos Nat.one_pos _)
    have hShift : ((e - single.unit m e).toNat : ℤ) + single.unit m e = e := by
      omega
    rw [scaleRatio_eq, neg_neg, hMagnitude]
    push_cast
    rw [div_one, mul_assoc, ← zpow_natCast, ← zpow_add₀ (by norm_num), hShift]

end UnitOfWork.Double

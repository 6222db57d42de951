/-!
# White space

The characters that count as white space, and the two trims built on them.
The set is Unicode's `White_Space` property: the ASCII controls from tab to
carriage return, the space, next line, and the spaces of other blocks.
-/

namespace UnitOfWork.Text

/-- White space in the sense of Unicode's `White_Space` property. -/
def isBlank (c : Char) : Bool :=
  let n := c.toNat
  (0x09 ≤ n && n ≤ 0x0D) || n == 0x20 || n == 0x85 || n == 0xA0 ||
    n == 0x1680 || (0x2000 ≤ n && n ≤ 0x200A) || n == 0x2028 ||
    n == 0x2029 || n == 0x202F || n == 0x205F || n == 0x3000

/-- The text without the white space it begins with. -/
def skipBlanks : List Char → List Char
  | [] => []
  | c :: rest => if isBlank c then skipBlanks rest else c :: rest

/-- Whether a text holds nothing but white space. -/
def isBlankText (s : String) : Bool := s.toList.all isBlank

/-- What follows the leading white space does not begin with any. -/
theorem skipBlanks_head {s rest : List Char} {c : Char}
    (h : skipBlanks s = c :: rest) : isBlank c = false := by
  induction s with
  | nil => simp [skipBlanks] at h
  | cons d s ih =>
      unfold skipBlanks at h
      split at h
      · exact ih h
      · rename_i hBlank
        cases h
        simpa using hBlank

/-- A text that begins with no white space is left alone. -/
theorem skipBlanks_cons_of_not_blank {c : Char} {rest : List Char}
    (h : isBlank c = false) : skipBlanks (c :: rest) = c :: rest := by
  simp [skipBlanks, h]

/-- Skipping never makes a text longer. -/
theorem skipBlanks_length_le (s : List Char) :
    (skipBlanks s).length ≤ s.length := by
  induction s with
  | nil => simp [skipBlanks]
  | cons c s ih =>
      unfold skipBlanks
      split
      · exact Nat.le_succ_of_le ih
      · exact Nat.le_refl _

/-- Decimal digits are not white space. -/
theorem isBlank_of_isDigit {c : Char} (h : c.isDigit) : isBlank c = false := by
  have hRange : 48 ≤ c.toNat ∧ c.toNat ≤ 57 := by
    simp only [Char.isDigit, ge_iff_le, UInt32.le_iff_toNat_le,
      Bool.and_eq_true, decide_eq_true_eq] at h
    exact h
  unfold isBlank
  generalize c.toNat = n at hRange
  simp
  omega

end UnitOfWork.Text

/-!
# Letter case

Comparison of names without regard to the case of the ASCII letters; all other
characters are compared as they are.
-/

namespace UnitOfWork.Text

/-- A text with its ASCII letters in lower case. -/
def foldCase (s : String) : List Char := s.toList.map Char.toLower

/-- Whether two texts differ at most in the case of ASCII letters. -/
def sameIgnoringCase (s t : String) : Bool := foldCase s == foldCase t

@[simp] theorem sameIgnoringCase_self (s : String) :
    sameIgnoringCase s s = true := by
  simp [sameIgnoringCase]

/-- Sameness but for case is symmetric. -/
theorem sameIgnoringCase_comm (s t : String) :
    sameIgnoringCase s t = sameIgnoringCase t s := by
  simp only [sameIgnoringCase, BEq.comm]

/-- Sameness but for case is transitive. -/
theorem sameIgnoringCase_trans {s t u : String}
    (hst : sameIgnoringCase s t = true) (htu : sameIgnoringCase t u = true) :
    sameIgnoringCase s u = true := by
  simp only [sameIgnoringCase, beq_iff_eq] at *
  rw [hst, htu]

end UnitOfWork.Text

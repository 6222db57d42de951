import Mathlib.Data.String.Basic
import UnitOfWork.Identifier

/-!
# The order of texts is that of their bytes

Texts are compared character by character. Their UTF-8 bytes, compared byte by
byte, come in the same order: the bytes of a smaller character are smaller at
the first place where they differ, and there is such a place before either
ends. So keys are in the order of their type names' bytes, then whole numbers
before texts, then by value or by bytes.

## Main results

* `Text.bytes_lt_iff`: the order of texts is that of their bytes;
* `Key.before_iff`: the order of keys, spelled out.
-/

namespace UnitOfWork

namespace Text

/-- The UTF-8 bytes of a text. -/
def bytes (s : String) : List UInt8 := s.toUTF8.data.toList

/-- The bytes of a text are those of its characters, one after the other. -/
theorem bytes_eq (s : String) :
    bytes s = s.toList.flatMap String.utf8EncodeChar := by
  show s.toByteArray.data.toList = _
  rw [← String.utf8Encode_toList, List.utf8Encode, List.data_toByteArray]

/-- The bytes of the smaller of two characters are smaller, whatever follows
them. -/
theorem encodeChar_lt {a b : Char} (h : a < b) (as bs : List UInt8) :
    String.utf8EncodeChar a ++ as < String.utf8EncodeChar b ++ bs := by
  have hVal : a.val.toNat < b.val.toNat := UInt32.lt_iff_toNat_lt.1 h
  have hRange : b.val.toNat < 1114112 := by
    rcases b.valid with hLow | ⟨_, hHigh⟩
    · exact Nat.lt_trans hLow (by decide)
    · exact hHigh
  generalize hA : a.val.toNat = m at *
  generalize hB : b.val.toNat = n at *
  have hSecond : ∀ k, k / 4096 = k / 64 / 64 := fun k => by omega
  have hThird : ∀ k, k / 262144 = k / 64 / 64 / 64 := fun k => by omega
  unfold String.utf8EncodeChar
  -- The numbers of bytes are compared with each other; in each case it is left
  -- to compare the digits to the base 64.
  simp only [hA, hB, hSecond, hThird]
  split_ifs <;>
    simp only [List.cons_append, List.nil_append, List.cons_lt_cons_iff,
      UInt8.lt_iff_toNat_lt, ← UInt8.toNat_inj, UInt8.toNat_ofNat',
      Nat.reducePow] <;>
    omega

/-- The bytes of smaller characters are smaller. -/
theorem flatMap_encodeChar_lt {as bs : List Char} (h : as < bs) :
    as.flatMap String.utf8EncodeChar < bs.flatMap String.utf8EncodeChar := by
  induction as generalizing bs with
  | nil =>
      cases bs with
      | nil => exact absurd h (List.lt_irrefl _)
      | cons b bs =>
          rw [List.flatMap_nil, List.flatMap_cons]
          cases hBytes : String.utf8EncodeChar b with
          | nil => exact absurd hBytes String.utf8EncodeChar_ne_nil
          | cons byte bytes => exact List.nil_lt_cons ..
  | cons a as ih =>
      cases bs with
      | nil => exact absurd h (List.not_lt_nil _)
      | cons b bs =>
          rw [List.flatMap_cons, List.flatMap_cons]
          rcases List.cons_lt_cons_iff.1 h with hFirst | ⟨rfl, hRest⟩
          · exact encodeChar_lt hFirst _ _
          · exact List.append_left_lt (ih hRest)

/-- Texts are in the order of their bytes. -/
theorem bytes_lt_iff {s t : String} : bytes s < bytes t ↔ s < t := by
  rw [bytes_eq, bytes_eq]
  refine ⟨fun h => ?_, flatMap_encodeChar_lt⟩
  rcases lt_trichotomy s t with hLess | rfl | hMore
  · exact hLess
  · exact absurd h (List.lt_irrefl _)
  · exact absurd h (List.lt_asymm (flatMap_encodeChar_lt hMore))

end Text

/-- One identifier comes before another: whole numbers before texts, then by
value or by bytes. -/
def EntityId.Before : EntityId → EntityId → Prop
  | int m, int n => m < n
  | int _, text _ => True
  | text _, int _ => False
  | text s, text t => Text.bytes s < Text.bytes t

theorem EntityId.before_iff {a b : EntityId} :
    a.Before b ↔ a.atMost b = true ∧ a ≠ b := by
  cases a with
  | int m =>
      cases b with
      | int n => simp [Before, atMost, Int.lt_iff_le_and_ne]
      | text t => simp [Before, atMost]
  | text s =>
      cases b with
      | int n => simp [Before, atMost]
      | text t => simp [Before, atMost, Text.bytes_lt_iff, lt_iff_le_and_ne]

/-- One key comes before another: by the bytes of the type names, then by the
identifiers. -/
def Key.Before (a b : Key) : Prop :=
  Text.bytes a.type < Text.bytes b.type ∨ a.type = b.type ∧ a.id.Before b.id

/-- The order of keys, spelled out. -/
theorem Key.before_iff {a b : Key} :
    a.Before b ↔ a.atMost b = true ∧ a ≠ b := by
  obtain ⟨s, i⟩ := a
  obtain ⟨t, j⟩ := b
  rw [Before, Text.bytes_lt_iff, EntityId.before_iff]
  by_cases hType : s = t
  · simp [atMost, hType]
  · simp [atMost, hType, lt_iff_le_and_ne]

end UnitOfWork

import UnitOfWork.Value
import UnitOfWork.Error

/-!
# Identifiers and keys

An identifier names a row of a table: a whole number or a text. A key names an
entity: the name of its type with an identifier. Keys are ordered by type
name, then whole numbers before texts, then by value; texts by code points,
which is also the order of their UTF-8 bytes.

## Main results

* `EntityId.ofValue_toValue`: an identifier is recovered from its value;
* `Key.atMost_total`, `Key.atMost_trans`, `Key.atMost_antisymm`: the order of
  keys is total, so sorting by it leaves no choice.
-/

namespace UnitOfWork

/-! ## Identifiers -/

/-- An identifier of a row. -/
inductive EntityId
  | int (n : Int)
  | text (s : String)
deriving DecidableEq

namespace EntityId

/-- The identifier that a value is; NULL is none. -/
def ofValue : Value → Except Error (Option EntityId)
  | .null => .ok none
  | .int n => .ok (some (int n))
  | .text s => .ok (some (text s))
  | other => .error (.conversion other.typeName "identifier")

/-- The value that an identifier is. -/
def toValue : EntityId → Value
  | int n => .int n
  | text s => .text s

/-- The text of an identifier. -/
def render : EntityId → String
  | int n => toString n
  | text s => s

/-- An identifier is recovered from its value. -/
@[simp] theorem ofValue_toValue (id : EntityId) :
    ofValue id.toValue = .ok (some id) := by
  cases id <;> rfl

/-- A value that is an identifier is that identifier's value. -/
theorem toValue_of_ofValue {v : Value} {id : EntityId}
    (h : ofValue v = .ok (some id)) : id.toValue = v := by
  cases v <;> simp [ofValue] at h <;> subst h <;> rfl

/-- Only NULL is no identifier. -/
theorem eq_null_of_ofValue {v : Value} (h : ofValue v = .ok none) :
    v = .null := by
  cases v <;> simp [ofValue] at h
  rfl

/-- An identifier's value is not NULL. -/
@[simp] theorem isNull_toValue (id : EntityId) : id.toValue.isNull = false := by
  cases id <;> rfl

/-- Values of identifiers are equal exactly when the identifiers are. -/
theorem equal_toValue (a b : EntityId) :
    a.toValue.equal b.toValue = decide (a = b) := by
  rw [Bool.eq_iff_iff, decide_eq_true_eq]
  cases a <;> cases b <;> simp [toValue, Value.equal]

/-- The order of identifiers: numbers before texts, then by value. -/
def atMost : EntityId → EntityId → Bool
  | int m, int n => m ≤ n
  | int _, text _ => true
  | text _, int _ => false
  | text s, text t => s ≤ t

/-- Of two identifiers one is at most the other. -/
theorem atMost_total (a b : EntityId) : a.atMost b ∨ b.atMost a := by
  cases a <;> cases b <;> simp [atMost, Int.le_total, String.le_total]

/-- The order of identifiers is transitive. -/
theorem atMost_trans {a b c : EntityId} (hab : a.atMost b)
    (hbc : b.atMost c) : a.atMost c := by
  cases a <;> cases b <;> cases c <;> simp [atMost] at *
  · exact Int.le_trans hab hbc
  · exact String.le_trans hab hbc

/-- Two identifiers that are at most each other are the same. -/
theorem atMost_antisymm {a b : EntityId} (hab : a.atMost b)
    (hba : b.atMost a) : a = b := by
  cases a <;> cases b <;> simp [atMost] at *
  · exact Int.le_antisymm hab hba
  · exact String.le_antisymm hab hba

end EntityId

/-! ## Keys -/

/-- The key of an entity. -/
structure Key where
  type : String
  id : EntityId
deriving DecidableEq

namespace Key

/-- The text of a key. -/
def render (key : Key) : String := key.type ++ "#" ++ key.id.render

/-- The order of keys: by type name, then by identifier. -/
def atMost (a b : Key) : Bool :=
  if a.type = b.type then a.id.atMost b.id else a.type ≤ b.type

/-- Of two keys one is at most the other. -/
theorem atMost_total (a b : Key) : a.atMost b ∨ b.atMost a := by
  by_cases h : a.type = b.type
  · simpa [atMost, h] using a.id.atMost_total b.id
  · simpa [atMost, h, Ne.symm h] using String.le_total a.type b.type

/-- Two keys that are at most each other are the same. -/
theorem atMost_antisymm {a b : Key} (hab : a.atMost b) (hba : b.atMost a) :
    a = b := by
  obtain ⟨s, i⟩ := a
  obtain ⟨t, j⟩ := b
  by_cases h : s = t
  · subst h
    simp [atMost] at hab hba
    rw [EntityId.atMost_antisymm hab hba]
  · simp [atMost, h, Ne.symm h] at hab hba
    exact absurd (String.le_antisymm hab hba) h

/-- The order of keys is transitive. -/
theorem atMost_trans {a b c : Key} (hab : a.atMost b) (hbc : b.atMost c) :
    a.atMost c := by
  obtain ⟨s, i⟩ := a
  obtain ⟨t, j⟩ := b
  obtain ⟨u, k⟩ := c
  by_cases hst : s = t
  · subst hst
    by_cases hsu : s = u
    · subst hsu
      simp [atMost] at *
      exact EntityId.atMost_trans hab hbc
    · simpa [atMost, hsu] using hbc
  · by_cases htu : t = u
    · subst htu
      simpa [atMost, hst] using hab
    · simp [atMost, hst, htu] at hab hbc
      by_cases hsu : s = u
      · subst hsu
        exact absurd (String.le_antisymm hab hbc) hst
      · simpa [atMost, hsu] using String.le_trans hab hbc

end Key

end UnitOfWork

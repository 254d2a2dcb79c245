import Mathlib.Data.FinEnum
import Mathlib.Data.UInt
import Mathlib.Tactic.Common

/-!
Unsigned machine words as naturals: the largest values, and addition that saturates or fails
where the word would overflow.
-/

namespace Ladon.Lib.Word

def u16Max : ℕ := 2 ^ 16 - 1

def u32Max : ℕ := 2 ^ 32 - 1

def u64Max : ℕ := 2 ^ 64 - 1

def i32Max : ℤ := 2 ^ 31 - 1

/-- Addition that stays at the largest 64-bit word. -/
def saturatingAdd (a b : ℕ) : ℕ := min (a + b) u64Max

/-- Addition that fails beyond the largest 64-bit word. -/
def checkedAdd (a b : ℕ) : Option ℕ := if a + b ≤ u64Max then some (a + b) else none

lemma saturatingAdd_le (a b : ℕ) : saturatingAdd a b ≤ u64Max := Nat.min_le_right _ _

lemma saturatingAdd_eq {a b : ℕ} (h : a + b ≤ u64Max) : saturatingAdd a b = a + b :=
  Nat.min_eq_left h

lemma saturatingAdd_zero {a : ℕ} (h : a ≤ u64Max) : saturatingAdd a 0 = a := saturatingAdd_eq h

lemma saturatingAdd_assoc (a b c : ℕ) :
    saturatingAdd (saturatingAdd a b) c = saturatingAdd a (b + c) := by
  unfold saturatingAdd
  omega

lemma checkedAdd_eq_some {a b c : ℕ} : checkedAdd a b = some c ↔ c = a + b ∧ c ≤ u64Max := by
  unfold checkedAdd
  split <;> simp <;> omega

end Ladon.Lib.Word

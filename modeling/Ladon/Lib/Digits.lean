import Mathlib.Data.FinEnum
import Mathlib.Data.Nat.Digits.Defs
import Mathlib.Data.Nat.Digits.Lemmas
import Mathlib.Data.UInt

/-!
Numbers written in ASCII: hexadecimal digits of a byte, and decimal numbers.
-/

namespace Ladon.Lib.Digits

/-- The hexadecimal digit `n < 16`, with the letters from `a` on or from `A` on. -/
def hexDigit (upper : Bool) (n : ℕ) : UInt8 :=
  if n < 10 then 0x30 + UInt8.ofNat n
  else if upper then 0x41 + UInt8.ofNat (n - 10)
  else 0x61 + UInt8.ofNat (n - 10)

/-- The two hexadecimal digits of a byte. -/
def hexByte (upper : Bool) (b : UInt8) : List UInt8 :=
  [hexDigit upper (b.toNat / 16), hexDigit upper (b.toNat % 16)]

lemma hexDigit_lt (upper : Bool) {n : ℕ} (h : n < 16) : hexDigit upper n < 0x80 := by
  revert n
  cases upper <;> decide

lemma hexByte_lt (upper : Bool) (b : UInt8) : ∀ d ∈ hexByte upper b, d < 0x80 := by
  have hb := b.toNat_lt
  intro d hd
  rcases List.mem_pair.mp hd with rfl | rfl
  · exact hexDigit_lt upper (by omega)
  · exact hexDigit_lt upper (by omega)

/-- A number in decimal. -/
def decimal (n : ℕ) : List UInt8 :=
  if n = 0 then [0x30] else (Nat.digits 10 n).reverse.map fun d => 0x30 + UInt8.ofNat d

lemma decimal_range {n : ℕ} {b : UInt8} (h : b ∈ decimal n) : 0x30 ≤ b ∧ b ≤ 0x39 := by
  have hdigit : ∀ d < 10, 0x30 ≤ 0x30 + UInt8.ofNat d ∧ 0x30 + UInt8.ofNat d ≤ 0x39 := by decide
  unfold decimal at h
  split at h
  · rw [List.mem_singleton.mp h]
    decide
  · obtain ⟨d, hd, rfl⟩ := List.mem_map.mp h
    exact hdigit d (Nat.digits_lt_base (by norm_num) (List.mem_reverse.mp hd))

/-- A number below `10 ^ k` has at most `k` digits, and at least one. -/
lemma decimal_length_le {n k : ℕ} (hk : 0 < k) (h : n < 10 ^ k) : (decimal n).length ≤ k := by
  unfold decimal
  split
  · simpa using Nat.one_le_iff_ne_zero.mpr hk.ne'
  · simpa using (Nat.digits_length_le_iff (by norm_num) n).mpr h

end Ladon.Lib.Digits

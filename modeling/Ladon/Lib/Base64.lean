import Mathlib.Data.FinEnum
import Mathlib.Data.List.Basic
import Mathlib.Data.UInt
import Mathlib.Tactic.Common

/-!
Base64 as RFC 4648 has it, with the standard and the URL-safe alphabet, padded or not.
-/

namespace Ladon.Lib.Base64

/-- The digit `n < 64`. -/
def digit (urlSafe : Bool) (n : ℕ) : UInt8 :=
  if n < 26 then 0x41 + UInt8.ofNat n
  else if n < 52 then 0x61 + UInt8.ofNat (n - 26)
  else if n < 62 then 0x30 + UInt8.ofNat (n - 52)
  else if n = 62 then (if urlSafe then 0x2D else 0x2B)
  else (if urlSafe then 0x5F else 0x2F)

/-- The first `k` of the four digits of three bytes. -/
def digits (urlSafe : Bool) (k : ℕ) (a b c : UInt8) : List UInt8 :=
  let n := a.toNat * 65536 + b.toNat * 256 + c.toNat
  ([n / 262144, n / 4096 % 64, n / 64 % 64, n % 64].take k).map (digit urlSafe)

def padding (pad : Bool) (k : ℕ) : List UInt8 := if pad then List.replicate k 0x3D else []

def encode (urlSafe pad : Bool) : List UInt8 → List UInt8
  | [] => []
  | [a] => digits urlSafe 2 a 0 0 ++ padding pad 2
  | [a, b] => digits urlSafe 3 a b 0 ++ padding pad 1
  | a :: b :: c :: t => digits urlSafe 4 a b c ++ encode urlSafe pad t

/-- The number that a digit of the standard alphabet stands for. -/
def value (c : UInt8) : Option ℕ :=
  if 0x41 ≤ c ∧ c ≤ 0x5A then some (c.toNat - 0x41)
  else if 0x61 ≤ c ∧ c ≤ 0x7A then some (c.toNat - 0x61 + 26)
  else if 0x30 ≤ c ∧ c ≤ 0x39 then some (c.toNat - 0x30 + 52)
  else if c = 0x2B then some 62
  else if c = 0x2F then some 63
  else none

/-- Padded digits of the standard alphabet read back, no bit left over. -/
def decode : List UInt8 → Option (List UInt8)
  | [] => some []
  | [a, b, 0x3D, 0x3D] => do
    let n := (← value a) * 64 + (← value b)
    if n % 16 = 0 then some [UInt8.ofNat (n / 16)] else none
  | [a, b, c, 0x3D] => do
    let n := ((← value a) * 64 + (← value b)) * 64 + (← value c)
    if n % 4 = 0 then some [UInt8.ofNat (n / 1024), UInt8.ofNat (n / 4 % 256)] else none
  | a :: b :: c :: d :: t => do
    let n := (((← value a) * 64 + (← value b)) * 64 + (← value c)) * 64 + (← value d)
    let rest ← decode t
    some (UInt8.ofNat (n / 65536) :: UInt8.ofNat (n / 256 % 256) :: UInt8.ofNat (n % 256) :: rest)
  | _ => none

lemma encode_ne_nil (urlSafe pad : Bool) : ∀ {w : List UInt8}, w ≠ [] → encode urlSafe pad w ≠ []
  | [], h => absurd rfl h
  | [_], _ => by simp [encode, digits]
  | [_, _], _ => by simp [encode, digits]
  | _ :: _ :: _ :: _, _ => by simp [encode, digits]

end Ladon.Lib.Base64

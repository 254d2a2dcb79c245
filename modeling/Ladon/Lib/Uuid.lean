import Ladon.Lib.Digits
import Ladon.Lib.Utf8

/-!
Universally unique identifiers: sixteen bytes, the texts they are read from and the one they are
written as.

An identifier is read from thirty-two hexadecimal digits, from five groups of them with hyphens
between, and from the grouped form in braces or behind `urn:uuid:`; digits may be of either case.
It is written in groups, with small letters.
-/

namespace Ladon.Lib

open Ladon.Lib.Digits Ladon.Lib.Utf8

structure Uuid where
  bytes : Bytes
  length_eq : bytes.length = 16
  deriving DecidableEq

namespace Uuid

/-- The identifier all of whose bytes are the same. -/
def filled (b : UInt8) : Uuid := ⟨List.replicate 16 b, List.length_replicate⟩

/-- The value of a hexadecimal digit. -/
def hexValue (d : UInt8) : Option ℕ :=
  if 0x30 ≤ d ∧ d ≤ 0x39 then some (d.toNat - 0x30)
  else if 0x41 ≤ d ∧ d ≤ 0x46 then some (d.toNat - 0x41 + 10)
  else if 0x61 ≤ d ∧ d ≤ 0x66 then some (d.toNat - 0x61 + 10)
  else none

/-- The bytes that pairs of hexadecimal digits spell. -/
def hexBytes : Bytes → Option Bytes
  | [] => some []
  | [_] => none
  | a :: b :: t => do
    let hi ← hexValue a
    let lo ← hexValue b
    let rest ← hexBytes t
    return UInt8.ofNat (16 * hi + lo) :: rest

def ofBytes (b : Bytes) : Option Uuid := if h : b.length = 16 then some ⟨b, h⟩ else none

def parseSimple (s : Bytes) : Option Uuid := hexBytes s >>= ofBytes

/-- Groups of 8, 4, 4, 4 and 12 digits. -/
def parseHyphenated (s : Bytes) : Option Uuid :=
  if s.length = 36 ∧ [s[8]?, s[13]?, s[18]?, s[23]?] = List.replicate 4 (some 0x2D) then
    parseSimple (s.take 8 ++ (s.drop 9).take 4 ++ (s.drop 14).take 4 ++ (s.drop 19).take 4 ++
      s.drop 24)
  else none

def parse (s : Bytes) : Option Uuid :=
  if s.length = 32 then parseSimple s
  else if s.length = 36 then parseHyphenated s
  else if s.length = 38 ∧ s.head? = some 0x7B ∧ s.getLast? = some 0x7D then
    parseHyphenated ((s.drop 1).take 36)
  else if s.length = 45 ∧ ofString "urn:uuid:" <+: s then parseHyphenated (s.drop 9)
  else none

lemma length_of_parse {s : Bytes} {u : Uuid} (h : parse s = some u) : s.length ≤ 45 := by
  unfold parse at h
  split_ifs at h with h1 h2 h3 h4
  · omega
  · omega
  · omega
  · omega

/-- The grouped form. -/
def display (u : Uuid) : Bytes :=
  let hex := fun i n => ((u.bytes.drop i).take n).flatMap (hexByte false)
  hex 0 4 ++ [0x2D] ++ hex 4 2 ++ [0x2D] ++ hex 6 2 ++ [0x2D] ++ hex 8 2 ++ [0x2D] ++ hex 10 6

lemma length_flatMap_hexByte (upper : Bool) (w : Bytes) :
    (w.flatMap (hexByte upper)).length = 2 * w.length := by
  induction w with
  | nil => rfl
  | cons b t ih => simp only [List.flatMap_cons, List.length_append, ih, hexByte,
      List.length_cons, List.length_nil]; omega

@[simp] lemma length_display (u : Uuid) : (display u).length = 36 := by
  simp only [display, List.length_append, length_flatMap_hexByte, List.length_take,
    List.length_drop, u.length_eq, List.length_cons, List.length_nil]
  rfl

/-- A hyphen or a hexadecimal digit. -/
lemma mem_display {u : Uuid} {b : UInt8} (h : b ∈ display u) :
    b = 0x2D ∨ ∃ n < 16, b = hexDigit false n := by
  have hhex : ∀ w : Bytes, b ∈ w.flatMap (hexByte false) → ∃ n < 16, b = hexDigit false n := by
    intro w hw
    obtain ⟨a, -, ha⟩ := List.mem_flatMap.mp hw
    have hlt := a.toNat_lt
    rcases List.mem_pair.mp ha with rfl | rfl
    · exact ⟨a.toNat / 16, by omega, rfl⟩
    · exact ⟨a.toNat % 16, by omega, rfl⟩
  simp only [display, List.mem_append, List.mem_singleton] at h
  rcases h with (((((((h | h) | h) | h) | h) | h) | h) | h) | h
  all_goals first
    | exact .inl h
    | exact .inr (hhex _ h)

/-- What is written is ASCII, without a colon. -/
lemma display_ascii {u : Uuid} {b : UInt8} (h : b ∈ display u) : b < 0x80 ∧ b ≠ 0x3A := by
  have hdigit : ∀ n < 16, hexDigit false n < 0x80 ∧ hexDigit false n ≠ 0x3A := by decide
  rcases mem_display h with rfl | ⟨n, hn, rfl⟩
  · decide
  · exact hdigit n hn

/-! ### What is written is read back -/

lemma hexValue_hexDigit (upper : Bool) : ∀ n < 16, hexValue (hexDigit upper n) = some n := by
  cases upper <;> decide

lemma hexBytes_flatMap (upper : Bool) (w : Bytes) : hexBytes (w.flatMap (hexByte upper)) = some w := by
  induction w with
  | nil => rfl
  | cons b t ih =>
    have hb := b.toNat_lt
    have hhi := hexValue_hexDigit upper (b.toNat / 16) (by omega)
    have hlo := hexValue_hexDigit upper (b.toNat % 16) (by omega)
    have hsplit : 16 * (b.toNat / 16) + b.toNat % 16 = b.toNat := Nat.div_add_mod _ _
    simp only [List.flatMap_cons, hexByte, List.cons_append, List.nil_append, hexBytes, hhi, hlo, ih,
      Option.bind_eq_bind, Option.bind_some, hsplit, UInt8.ofNat_toNat, Option.pure_def]

/-- The groups are put together again. -/
lemma parseHyphenated_groups {a b c d e : Bytes} (ha : a.length = 8) (hb : b.length = 4)
    (hc : c.length = 4) (hd : d.length = 4) (he : e.length = 12) :
    parseHyphenated (a ++ [0x2D] ++ b ++ [0x2D] ++ c ++ [0x2D] ++ d ++ [0x2D] ++ e) =
      parseSimple (a ++ b ++ c ++ d ++ e) := by
  have hdrop : ∀ w : Bytes, ∀ n, w.length ≤ n → w.drop n = [] := fun _ _ => List.drop_of_length_le
  rw [parseHyphenated, if_pos]
  · simp [List.drop_append, hdrop, ha, hb, hc, hd]
  · simp [ha, hb, hc, hd, he]

/-- The groups of the bytes are the bytes. -/
lemma take_drop_groups (w : Bytes) (h : w.length = 16) :
    (w.drop 0).take 4 ++ (w.drop 4).take 2 ++ (w.drop 6).take 2 ++ (w.drop 8).take 2 ++
      (w.drop 10).take 6 = w := by
  have hlast : (w.drop 10).take 6 = w.drop 10 := List.take_of_length_le (by simp [h])
  rw [hlast, List.drop_zero]
  simp only [← List.take_add, List.take_append_drop]

lemma parse_display (u : Uuid) : parse (display u) = some u := by
  have hlen : ∀ i n, i + n ≤ 16 →
      (((u.bytes.drop i).take n).flatMap (hexByte false)).length = 2 * n := by
    intro i n hi
    rw [length_flatMap_hexByte, List.length_take, List.length_drop, u.length_eq]
    omega
  rw [parse, length_display, if_neg (by decide), if_pos rfl, display,
    parseHyphenated_groups (hlen 0 4 (by decide)) (hlen 4 2 (by decide)) (hlen 6 2 (by decide))
      (hlen 8 2 (by decide)) (hlen 10 6 (by decide)), parseSimple]
  simp only [← List.flatMap_append, take_drop_groups _ u.length_eq, hexBytes_flatMap]
  exact dif_pos u.length_eq

end Uuid

end Ladon.Lib

import Mathlib.Data.FinEnum
import Mathlib.Data.List.Basic
import Mathlib.Data.UInt
import Mathlib.Tactic.Common

/-!
UTF-8 as a one-pass scan of bytes.

`step` looks at the sequence that begins a word: a whole character, an ill-formed sequence
with the length of its maximal subpart, or a sequence that the end of the word cuts short.
`split` takes a word apart into such pieces and keeps a sequence cut short as a rest, so that
a word may arrive in parts: the pieces read so far never change when more bytes follow.
-/

namespace Ladon.Lib.Utf8

abbrev Bytes := List UInt8

/-- The bytes of a string. -/
def ofString (s : String) : Bytes := s.toByteArray.data.toList

/-- The string that bytes spell, where they are one. -/
def toString? (b : Bytes) : Option String := String.fromUTF8? ⟨⟨b⟩⟩

@[simp] lemma toString?_ofString (s : String) : toString? (ofString s) = some s := by
  have h : (⟨⟨s.toByteArray.data.toList⟩⟩ : ByteArray) = s.toByteArray := rfl
  rw [toString?, ofString, h, String.fromUTF8?, dif_pos s.isValidUTF8]
  rfl

lemma ofString_of_toString? {b : Bytes} {s : String} (h : toString? b = some s) :
    ofString s = b := by
  unfold toString? String.fromUTF8? at h
  split at h
  · cases h; rfl
  · cases h

/-- What begins a word: a character of `n` bytes, `n` bytes of an ill-formed sequence, or a
sequence cut short by the end. -/
inductive Step
  | char (n : ℕ)
  | bad (n : ℕ)
  | short
  deriving DecidableEq

/-- `k` more continuation bytes, after `i` bytes of the character. -/
def conts : ℕ → ℕ → Bytes → Step
  | 0, i, _ => .char i
  | _ + 1, _, [] => .short
  | k + 1, i, c :: t => if 0x80 ≤ c ∧ c ≤ 0xBF then conts k (i + 1) t else .bad i

/-- The second byte, in the range its lead byte leaves it, and `k` more. -/
def second (lo hi : UInt8) (k : ℕ) : Bytes → Step
  | [] => .short
  | c :: t => if lo ≤ c ∧ c ≤ hi then conts k 2 t else .bad 1

/-- The range of the second byte after a lead byte, and the number of bytes after it. -/
def lead (b : UInt8) : Option (UInt8 × UInt8 × ℕ) :=
  if 0xC2 ≤ b ∧ b ≤ 0xDF then some (0x80, 0xBF, 0)
  else if b = 0xE0 then some (0xA0, 0xBF, 1)
  else if 0xE1 ≤ b ∧ b ≤ 0xEC then some (0x80, 0xBF, 1)
  else if b = 0xED then some (0x80, 0x9F, 1)
  else if 0xEE ≤ b ∧ b ≤ 0xEF then some (0x80, 0xBF, 1)
  else if b = 0xF0 then some (0x90, 0xBF, 2)
  else if 0xF1 ≤ b ∧ b ≤ 0xF3 then some (0x80, 0xBF, 2)
  else if b = 0xF4 then some (0x80, 0x8F, 2)
  else none

def step : Bytes → Step
  | [] => .short
  | b :: t =>
    if b < 0x80 then .char 1
    else match lead b with
      | some (lo, hi, k) => second lo hi k t
      | none => .bad 1

lemma conts_char {k i n : ℕ} {t : Bytes} (h : conts k i t = .char n) :
    n = i + k ∧ k ≤ t.length ∧ ∀ z, conts k i (t.take k ++ z) = .char n := by
  induction k generalizing i t with
  | zero => cases h; simp [conts]
  | succ k ih =>
    rcases t with _ | ⟨c, t⟩
    · cases h
    · rw [conts] at h
      split at h
      · next hc =>
        obtain ⟨h1, h2, h3⟩ := ih h
        refine ⟨by omega, by simpa using h2, fun z => ?_⟩
        simp [conts, hc, h3]
      · cases h

lemma conts_bad {k i n : ℕ} {t : Bytes} (h : conts k i t = .bad n) :
    i ≤ n ∧ n < i + t.length ∧ ∀ z, conts k i (t ++ z) = .bad n := by
  induction k generalizing i t with
  | zero => cases h
  | succ k ih =>
    rcases t with _ | ⟨c, t⟩
    · cases h
    · rw [conts] at h
      split at h
      · next hc =>
        obtain ⟨h1, h2, h3⟩ := ih h
        refine ⟨by omega, by simp; omega, fun z => ?_⟩
        simp [conts, hc, h3]
      · next hc =>
        cases h
        exact ⟨Nat.le_refl _, by simp, fun z => by simp [conts, hc]⟩

lemma second_char {lo hi : UInt8} {k n : ℕ} {t : Bytes} (h : second lo hi k t = .char n) :
    n = 2 + k ∧ 1 + k ≤ t.length ∧ ∀ z, second lo hi k (t.take (1 + k) ++ z) = .char n := by
  rcases t with _ | ⟨c, t⟩
  · cases h
  · rw [second] at h
    split at h
    · next hc =>
      obtain ⟨h1, h2, h3⟩ := conts_char h
      refine ⟨h1, by simp; omega, fun z => ?_⟩
      rw [Nat.add_comm 1 k, List.take_succ_cons]
      simp [second, hc, h3]
    · cases h

lemma second_bad {lo hi : UInt8} {k n : ℕ} {t : Bytes} (h : second lo hi k t = .bad n) :
    1 ≤ n ∧ n ≤ t.length ∧ ∀ z, second lo hi k (t ++ z) = .bad n := by
  rcases t with _ | ⟨c, t⟩
  · cases h
  · rw [second] at h
    split at h
    · next hc =>
      obtain ⟨h1, h2, h3⟩ := conts_bad h
      exact ⟨by omega, by simp; omega, fun z => by simp [second, hc, h3]⟩
    · next hc =>
      cases h
      exact ⟨Nat.le_refl _, by simp, fun z => by simp [second, hc]⟩

/-- A character is determined by its own bytes. -/
lemma step_char {w : Bytes} {n : ℕ} (h : step w = .char n) :
    1 ≤ n ∧ n ≤ w.length ∧ ∀ z, step (w.take n ++ z) = .char n := by
  rcases w with _ | ⟨b, t⟩
  · cases h
  · rw [step] at h
    split at h
    · next hb => cases h; exact ⟨Nat.le_refl _, by simp, fun z => by simp [step, hb]⟩
    · next hb =>
      split at h
      · next lo hi k hl =>
        obtain ⟨h1, h2, h3⟩ := second_char h
        refine ⟨by omega, by simp; omega, fun z => ?_⟩
        rw [show n = (1 + k) + 1 by omega, List.take_succ_cons, List.cons_append, step,
          if_neg hb, hl]
        simpa [show n = (1 + k) + 1 by omega] using h3 z
      · cases h

/-- An ill-formed sequence stays ill-formed when more bytes follow. -/
lemma step_bad {w : Bytes} {n : ℕ} (h : step w = .bad n) :
    1 ≤ n ∧ n ≤ w.length ∧ ∀ z, step (w ++ z) = .bad n := by
  rcases w with _ | ⟨b, t⟩
  · cases h
  · rw [step] at h
    split at h
    · cases h
    · next hb =>
      split at h
      · next lo hi k hl =>
        obtain ⟨h1, h2, h3⟩ := second_bad h
        refine ⟨h1, by simp; omega, fun z => ?_⟩
        rw [List.cons_append, step, if_neg hb, hl]
        exact h3 z
      · next hl => cases h; exact ⟨Nat.le_refl _, by simp, fun z => by simp [step, hb, hl]⟩

lemma step_char_append {w : Bytes} {n : ℕ} (h : step w = .char n) (z : Bytes) :
    step (w ++ z) = .char n := by
  obtain ⟨-, h2, h3⟩ := step_char h
  have := h3 (w.drop n ++ z)
  rwa [← List.append_assoc, List.take_append_drop] at this

/-- A piece of a word: a character, or the bytes of an ill-formed sequence. -/
inductive Piece
  | char (bytes : Bytes)
  | bad (bytes : Bytes)
  deriving DecidableEq

def Piece.bytes : Piece → Bytes
  | .char b => b
  | .bad b => b

/-- The pieces of a word, and the sequence cut short that ends it. -/
def split (w : Bytes) : List Piece × Bytes :=
  match _h : step w with
  | .short => ([], w)
  | .char n => (.char (w.take n) :: (split (w.drop n)).1, (split (w.drop n)).2)
  | .bad n => (.bad (w.take n) :: (split (w.drop n)).1, (split (w.drop n)).2)
termination_by w.length
decreasing_by
  · have := step_char _h; simp only [List.length_drop]; omega
  · have := step_bad _h; simp only [List.length_drop]; omega

lemma split_short {w : Bytes} (h : step w = .short) : split w = ([], w) := by
  rw [split]; split <;> simp_all

lemma split_char {w : Bytes} {n : ℕ} (h : step w = .char n) :
    split w = (.char (w.take n) :: (split (w.drop n)).1, (split (w.drop n)).2) := by
  conv_lhs => rw [split]
  split <;> simp_all

lemma split_bad {w : Bytes} {n : ℕ} (h : step w = .bad n) :
    split w = (.bad (w.take n) :: (split (w.drop n)).1, (split (w.drop n)).2) := by
  conv_lhs => rw [split]
  split <;> simp_all

@[simp] lemma split_nil : split [] = ([], []) := split_short rfl

/-- **The pieces of a word do not depend on how it arrives.** What has been split off `u`
stays as it is, and the rest is split together with what follows. -/
theorem split_append (u v : Bytes) :
    split (u ++ v) =
      ((split u).1 ++ (split ((split u).2 ++ v)).1, (split ((split u).2 ++ v)).2) := by
  induction hl : u.length using Nat.strongRecOn generalizing u with
  | _ m ih =>
    cases hs : step u with
    | short => rw [split_short hs]; simp
    | char n =>
      obtain ⟨h1, h2, -⟩ := step_char hs
      have ih' := ih (u.drop n).length (by rw [List.length_drop]; omega) (u.drop n) rfl
      rw [split_char hs, split_char (step_char_append hs v), List.take_append_of_le_length h2,
        List.drop_append_of_le_length h2, ih']
      rfl
    | bad n =>
      obtain ⟨h1, h2, h3⟩ := step_bad hs
      have ih' := ih (u.drop n).length (by rw [List.length_drop]; omega) (u.drop n) rfl
      rw [split_bad hs, split_bad (h3 v), List.take_append_of_le_length h2,
        List.drop_append_of_le_length h2, ih']
      rfl

/-! ### Validation -/

/-- The answer of a validator: well formed, or the length of the well-formed beginning and
that of the ill-formed sequence after it, with no length where the end cuts it short. -/
inductive Validity
  | ok
  | error (validUpTo : ℕ) (errorLen : Option ℕ)
  deriving DecidableEq

/-- The answer after `n` bytes of well-formed text before the word. -/
def Validity.after (n : ℕ) : Validity → Validity
  | .ok => .ok
  | .error v e => .error (n + v) e

def fromUtf8 (w : Bytes) : Validity :=
  match _h : step w with
  | .short => if w = [] then .ok else .error 0 none
  | .char n => (fromUtf8 (w.drop n)).after n
  | .bad n => .error 0 (some n)
termination_by w.length
decreasing_by have := step_char _h; simp only [List.length_drop]; omega

/-- A word with every ill-formed sequence, and a sequence cut short at the end, replaced by the
replacement character. -/
def fromUtf8Lossy (w : Bytes) : Bytes :=
  ((split w).1.flatMap fun
    | .char b => b
    | .bad _ => [0xEF, 0xBF, 0xBD]) ++
  if (split w).2 = [] then [] else [0xEF, 0xBF, 0xBD]

/-- The characters of well-formed text, each as its bytes. -/
def chars (w : Bytes) : List Bytes := (split w).1.map Piece.bytes

lemma fromUtf8_char {w : Bytes} {n : ℕ} (h : step w = .char n) :
    fromUtf8 w = (fromUtf8 (w.drop n)).after n := by
  conv_lhs => rw [fromUtf8]
  split <;> simp_all

lemma fromUtf8_short {w : Bytes} (h : step w = .short) :
    fromUtf8 w = if w = [] then .ok else .error 0 none := by
  rw [fromUtf8]; split <;> simp_all

lemma fromUtf8_bad {w : Bytes} {n : ℕ} (h : step w = .bad n) :
    fromUtf8 w = .error 0 (some n) := by
  rw [fromUtf8]; split <;> simp_all

@[simp] lemma fromUtf8_nil : fromUtf8 [] = .ok := by rw [fromUtf8_short rfl]; rfl

/-- Well-formed text leaves no rest. -/
lemma split_snd_of_ok {w : Bytes} (h : fromUtf8 w = .ok) : (split w).2 = [] := by
  induction hl : w.length using Nat.strongRecOn generalizing w with
  | _ m ih =>
    cases hs : step w with
    | short =>
      rw [fromUtf8_short hs] at h
      rw [split_short hs]
      by_contra hne
      simp [show w ≠ [] from hne] at h
    | char n =>
      have h1 := step_char hs
      rw [fromUtf8_char hs] at h
      have hr : fromUtf8 (w.drop n) = .ok := by
        cases hv : fromUtf8 (w.drop n) <;> simp [hv, Validity.after] at h ⊢
      rw [split_char hs]
      exact ih (w.drop n).length (by rw [List.length_drop]; omega) hr rfl
    | bad n => simp [fromUtf8_bad hs] at h

/-- Where validation stops: well-formed text up to there, and the sequence it stops at. -/
lemma fromUtf8_error {w : Bytes} {v : ℕ} {e : Option ℕ} (h : fromUtf8 w = .error v e) :
    v ≤ w.length ∧ fromUtf8 (w.take v) = .ok ∧
      (e = none → step (w.drop v) = .short ∧ w.drop v ≠ []) ∧
      ∀ n, e = some n → step (w.drop v) = .bad n := by
  induction hl : w.length using Nat.strongRecOn generalizing w v with
  | _ m ih =>
    cases hs : step w with
    | short =>
      rw [fromUtf8_short hs] at h
      split at h
      · cases h
      · next hne => cases h; exact ⟨Nat.zero_le _, by simp, fun _ => ⟨hs, hne⟩, by simp⟩
    | char n =>
      obtain ⟨h1, h2, h3⟩ := step_char hs
      rw [fromUtf8_char hs] at h
      cases hv : fromUtf8 (w.drop n) with
      | ok => simp [hv, Validity.after] at h
      | error v' e' =>
        simp only [hv, Validity.after, Validity.error.injEq] at h
        obtain ⟨rfl, rfl⟩ := h
        obtain ⟨i1, i2, i3, i4⟩ := ih (w.drop n).length (by rw [List.length_drop]; omega) hv rfl
        rw [List.length_drop] at i1
        rw [List.drop_drop] at i3 i4
        refine ⟨by omega, ?_, i3, i4⟩
        have ht : w.take (n + v') = w.take n ++ (w.drop n).take v' := by
          rw [List.take_add]
        rw [ht, fromUtf8_char (h3 _), List.drop_left' (by simp; omega), i2]
        rfl
    | bad n =>
      rw [fromUtf8_bad hs] at h
      cases h
      refine ⟨Nat.zero_le _, by simp, by simp, fun k hk => ?_⟩
      cases hk
      exact hs

/-- The characters of text that follows well-formed text. -/
lemma chars_append {u : Bytes} (h : fromUtf8 u = .ok) (v : Bytes) :
    chars (u ++ v) = chars u ++ chars v := by
  simp [chars, split_append u v, split_snd_of_ok h]

lemma fromUtf8_append {u v : Bytes} (hu : fromUtf8 u = .ok) (hv : fromUtf8 v = .ok) :
    fromUtf8 (u ++ v) = .ok := by
  induction hl : u.length using Nat.strongRecOn generalizing u with
  | _ m ih =>
    cases hs : step u with
    | short =>
      rw [fromUtf8_short hs] at hu
      split at hu
      · next he => rwa [he, List.nil_append]
      · cases hu
    | char n =>
      obtain ⟨h1, h2, -⟩ := step_char hs
      rw [fromUtf8_char hs] at hu
      have hr : fromUtf8 (u.drop n) = .ok := by
        cases hv : fromUtf8 (u.drop n) <;> simp [hv, Validity.after] at hu ⊢
      rw [fromUtf8_char (step_char_append hs v), List.drop_append_of_le_length h2,
        ih (u.drop n).length (by rw [List.length_drop]; omega) hr rfl]
      rfl
    | bad n => simp [fromUtf8_bad hs] at hu

lemma fromUtf8_ascii {w : Bytes} (h : ∀ b ∈ w, b < 0x80) : fromUtf8 w = .ok := by
  induction w with
  | nil => exact fromUtf8_nil
  | cons b t ih =>
    have hb : step (b :: t) = .char 1 := by rw [step, if_pos (h b (by simp))]
    rw [fromUtf8_char hb, List.drop_succ_cons, List.drop_zero,
      ih fun c hc => h c (List.mem_cons_of_mem _ hc)]
    rfl

lemma fromUtf8_flatMap {β : Type*} {l : List β} {f : β → Bytes} (h : ∀ a ∈ l, fromUtf8 (f a) = .ok) :
    fromUtf8 (l.flatMap f) = .ok := by
  induction l with
  | nil => exact fromUtf8_nil
  | cons a t ih =>
    rw [List.flatMap_cons]
    exact fromUtf8_append (h a (by simp)) (ih fun c hc => h c (List.mem_cons_of_mem _ hc))

/-- Well-formed text has no ill-formed piece. -/
lemma split_of_ok {w : Bytes} (h : fromUtf8 w = .ok) :
    ∃ l : List Bytes, (split w).1 = l.map .char ∧ l.flatten = w := by
  induction hl : w.length using Nat.strongRecOn generalizing w with
  | _ m ih =>
    cases hs : step w with
    | short =>
      rw [fromUtf8_short hs] at h
      split at h
      · next he => exact ⟨[], by simp [he], by simp [he]⟩
      · cases h
    | char n =>
      have h1 := step_char hs
      rw [fromUtf8_char hs] at h
      have hr : fromUtf8 (w.drop n) = .ok := by
        cases hv : fromUtf8 (w.drop n) <;> simp [hv, Validity.after] at h ⊢
      obtain ⟨l, hl1, hl2⟩ := ih (w.drop n).length (by rw [List.length_drop]; omega) hr rfl
      exact ⟨w.take n :: l, by rw [split_char hs, hl1]; rfl, by
        rw [List.flatten_cons, hl2, List.take_append_drop]⟩
    | bad n => simp [fromUtf8_bad hs] at h

/-- A single character is well formed. -/
lemma fromUtf8_of_char {b : Bytes} (h : step b = .char b.length) : fromUtf8 b = .ok := by
  rw [fromUtf8_char h, List.drop_length, fromUtf8_nil]; rfl

/-- Every character that `split` finds is one. -/
lemma step_of_mem_split {w b : Bytes} (h : Piece.char b ∈ (split w).1) : step b = .char b.length := by
  induction hl : w.length using Nat.strongRecOn generalizing w with
  | _ m ih =>
    cases hs : step w with
    | short => simp [split_short hs] at h
    | char n =>
      obtain ⟨h1, h2, h3⟩ := step_char hs
      rw [split_char hs, List.mem_cons] at h
      rcases h with h | h
      · cases h
        have := h3 []
        rw [List.append_nil] at this
        rw [this, List.length_take, Nat.min_eq_left h2]
      · exact ih (w.drop n).length (by rw [List.length_drop]; omega) h rfl
    | bad n =>
      have h1 := step_bad hs
      rw [split_bad hs, List.mem_cons] at h
      rcases h with h | h
      · cases h
      · exact ih (w.drop n).length (by rw [List.length_drop]; omega) h rfl

end Ladon.Lib.Utf8

import Ladon.Lib.Utf8

/-!
Texts as characters: the bytes of a text, texts of ASCII characters, and a text cut in two at the
first or at the last place where a separator stands.
-/

namespace Ladon.Lib.Text

open Ladon.Lib.Utf8

/-- The bytes of a text are those of its characters. -/
lemma ofString_eq (s : String) : ofString s = s.toList.flatMap String.utf8EncodeChar := by
  rw [ofString, ← String.utf8Encode_toList, List.utf8Encode]
  simp

lemma mem_ofString {s : String} {c : Char} {b : UInt8} (hc : c ∈ s.toList)
    (hb : b ∈ String.utf8EncodeChar c) : b ∈ ofString s := by
  rw [ofString_eq]
  exact List.mem_flatMap.mpr ⟨c, hc, hb⟩

@[simp] lemma ofString_append (s t : String) : ofString (s ++ t) = ofString s ++ ofString t := by
  simp only [ofString_eq, String.toList_append, List.flatMap_append]

/-- A text that begins with the bytes of another begins with its characters. -/
lemma toList_prefix {s t : String} (h : ofString s <+: ofString t) : s.toList <+: t.toList := by
  obtain ⟨rest, hrest⟩ := h
  refine List.isPrefix_of_utf8Encode_append_eq_utf8Encode ⟨⟨rest⟩⟩ ?_
  rw [String.utf8Encode_toList, String.utf8Encode_toList]
  refine ByteArray.ext (Array.ext' ?_)
  simpa [ofString] using hrest

/-- The text of bytes that are ASCII characters. -/
def ascii (w : Bytes) : String := String.ofList (w.map fun b => Char.ofNat b.toNat)

lemma utf8EncodeChar_ascii {b : UInt8} (h : b < 0x80) :
    String.utf8EncodeChar (Char.ofNat b.toNat) = [b] := by
  have hall : ∀ n < 0x80, String.utf8EncodeChar (Char.ofNat n) = [UInt8.ofNat n] := by decide
  rw [hall b.toNat h, UInt8.ofNat_toNat]

/-- A byte of ASCII in a text is a character of it. -/
lemma toNat_of_mem_utf8EncodeChar {c : Char} {b : UInt8} (h : b ∈ String.utf8EncodeChar c)
    (hb : b < 0x80) : c.toNat = b.toNat := by
  have hlarge : ∀ n, 0x80 ≤ n → n < 0x100 → b ≠ UInt8.ofNat n := by
    rintro n hn hlt rfl
    rw [UInt8.lt_iff_toNat_lt, UInt8.toNat_ofNat', Nat.mod_eq_of_lt hlt] at hb
    exact absurd hn (Nat.not_le.mpr hb)
  unfold String.utf8EncodeChar at h
  dsimp only at h
  split_ifs at h with h1 h2 h3
  · rw [List.mem_singleton.mp h, UInt8.toNat_ofNat', Nat.mod_eq_of_lt (by omega)]
    rfl
  · simp only [List.mem_cons, List.not_mem_nil, or_false] at h
    rcases h with h | h <;> exact absurd h (hlarge _ (by omega) (by omega))
  · simp only [List.mem_cons, List.not_mem_nil, or_false] at h
    rcases h with h | h | h <;> exact absurd h (hlarge _ (by omega) (by omega))
  · simp only [List.mem_cons, List.not_mem_nil, or_false] at h
    rcases h with h | h | h | h <;> exact absurd h (hlarge _ (by omega) (by omega))

lemma ofString_ascii {w : Bytes} (h : ∀ b ∈ w, b < 0x80) : ofString (ascii w) = w := by
  rw [ofString_eq, ascii, String.toList_ofList]
  induction w with
  | nil => rfl
  | cons b w ih =>
    rw [List.map_cons, List.flatMap_cons, utf8EncodeChar_ascii (h b (by simp)),
      ih fun c hc => h c (List.mem_cons_of_mem _ hc)]
    rfl

/-! ### Cutting in two -/

section Lists

variable {α : Type*} [DecidableEq α]

/-- What stands before the first separator, and what after. -/
def splitOnce (sep : α) : List α → Option (List α × List α)
  | [] => none
  | a :: l => if a = sep then some ([], l) else (splitOnce sep l).map fun p => (a :: p.1, p.2)

/-- What stands before the last place where the separator is found, and what after. -/
def rsplitOnce (sep : List α) : List α → Option (List α × List α)
  | [] => if sep = [] then some ([], []) else none
  | a :: l =>
    match rsplitOnce sep l with
    | some p => some (a :: p.1, p.2)
    | none => if sep <+: a :: l then some ([], (a :: l).drop sep.length) else none

lemma splitOnce_append {sep : α} {before after : List α} (h : sep ∉ before) :
    splitOnce sep (before ++ sep :: after) = some (before, after) := by
  induction before with
  | nil => simp [splitOnce]
  | cons a before ih =>
    rw [List.mem_cons, not_or] at h
    simp [splitOnce, ih h.2, Ne.symm h.1]

lemma rsplitOnce_eq_none {sep l : List α} (h : ¬ sep <:+: l) : rsplitOnce sep l = none := by
  induction l with
  | nil =>
    refine if_neg fun h0 => h ?_
    rw [h0]
  | cons a l ih =>
    rw [List.infix_cons_iff, not_or] at h
    rw [rsplitOnce, ih h.2]
    exact if_neg h.1

/-- A separator that is not found again further on. -/
lemma rsplitOnce_append {sep before after : List α} (h0 : sep ≠ [])
    (h : ¬ sep <:+: sep.tail ++ after) :
    rsplitOnce sep (before ++ (sep ++ after)) = some (before, after) := by
  induction before with
  | nil =>
    obtain ⟨a, t, rfl⟩ := List.exists_cons_of_ne_nil h0
    rw [List.tail_cons] at h
    rw [List.nil_append, List.cons_append, rsplitOnce, rsplitOnce_eq_none h]
    simp
  | cons a before ih => rw [List.cons_append, rsplitOnce, ih]

/-- Twice the same, where the rest has none of it. -/
lemma not_infix_pair {a : α} {l : List α} (h : a ∉ l) : ¬ [a, a] <:+: [a] ++ l := by
  intro hin
  have hcount := hin.sublist.count_le a
  rw [List.count_append, List.count_eq_zero_of_not_mem h] at hcount
  simp at hcount

end Lists

end Ladon.Lib.Text

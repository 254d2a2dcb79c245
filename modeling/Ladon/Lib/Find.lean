import Mathlib.Data.FinEnum
import Mathlib.Data.List.Basic
import Mathlib.Data.List.Infix
import Mathlib.Data.UInt
import Mathlib.Tactic.Common

/-!
The first occurrence of a word in a longer one, and the replacement of every occurrence of
any of a list of words by a marker.

The replacement is the leftmost-longest one: the scan stands at a position, takes the
longest word that begins there, writes the marker and continues behind the word; where no
word begins it copies one letter.
-/

namespace Ladon.Lib.Find

variable {α : Type*} [DecidableEq α]

/-- The first position at which `needle` begins. -/
def find (needle : List α) : List α → Option ℕ
  | [] => if needle = [] then some 0 else none
  | a :: t => if needle <+: a :: t then some 0 else (find needle t).map (· + 1)

lemma find_eq_some {needle : List α} : ∀ {w : List α} {i : ℕ}, find needle w = some i →
    needle <+: w.drop i ∧ ∀ j < i, ¬ needle <+: w.drop j
  | [], i, h => by
    unfold find at h
    split at h
    · next he => cases h; subst he; simp
    · cases h
  | a :: t, i, h => by
    unfold find at h
    split at h
    · next hp => cases h; exact ⟨by simpa using hp, by simp⟩
    · next hp =>
      obtain ⟨k, hk, rfl⟩ := Option.map_eq_some_iff.mp h
      obtain ⟨h1, h2⟩ := find_eq_some hk
      refine ⟨by simpa using h1, fun j hj => ?_⟩
      rcases j with _ | j
      · simpa using hp
      · simpa using h2 j (by omega)

lemma find_eq_none {needle : List α} : ∀ {w : List α}, find needle w = none →
    ∀ j, ¬ needle <+: w.drop j
  | [], h, j => by
    unfold find at h
    split at h
    · cases h
    · next he => simpa using he
  | a :: t, h, j => by
    unfold find at h
    split at h
    · cases h
    · next hp =>
      have hk : find needle t = none := by simpa using h
      rcases j with _ | j
      · simpa using hp
      · simpa using find_eq_none hk j

lemma find_isSome_iff {needle w : List α} : (find needle w).isSome ↔ needle <:+: w := by
  constructor
  · intro h
    obtain ⟨i, hi⟩ := Option.isSome_iff_exists.mp h
    exact (find_eq_some hi).1.isInfix.trans (List.drop_suffix i w).isInfix
  · rintro ⟨s, t, rfl⟩
    by_contra h
    have hn : find needle (s ++ needle ++ t) = none := by simpa using h
    refine find_eq_none hn s.length ?_
    rw [List.append_assoc, List.drop_left]
    exact List.prefix_append _ _

/-! ### Leftmost-longest replacement -/

section Replace

variable (pats : List (List α)) (marker : List α)

/-- The length of the longest of the words that begin `w`. -/
def longest (w : List α) : Option ℕ := ((pats.filter (· <+: w)).map List.length).max?

/-- The replacement, with `k` letters of a match still to be passed over; the second
component counts the matches. -/
def replaceFrom : ℕ → List α → List α × ℕ
  | _, [] => ([], 0)
  | k + 1, _ :: t => replaceFrom k t
  | 0, a :: t =>
    match longest pats (a :: t) with
    | some n => (marker ++ (replaceFrom (n - 1) t).1, (replaceFrom (n - 1) t).2 + 1)
    | none => (a :: (replaceFrom 0 t).1, (replaceFrom 0 t).2)

/-- Every match replaced, and the number of matches. -/
def replace (w : List α) : List α × ℕ := replaceFrom pats marker 0 w

variable {pats marker}

lemma longest_eq_none_iff {w : List α} : longest pats w = none ↔ ∀ p ∈ pats, ¬ p <+: w := by
  simp [longest, List.max?_eq_none_iff]

lemma longest_eq_some {w p : List α} (hp : p ∈ pats) (hw : p <+: w)
    (hmax : ∀ q ∈ pats, q <+: w → q.length ≤ p.length) : longest pats w = some p.length := by
  unfold longest
  rw [List.max?_eq_some_iff]
  refine ⟨List.mem_map.mpr ⟨p, by simp [hp, hw], rfl⟩, ?_⟩
  intro n hn
  obtain ⟨q, hq, rfl⟩ := List.mem_map.mp hn
  simp only [List.mem_filter, decide_eq_true_eq] at hq
  exact hmax q hq.1 hq.2

@[simp] lemma replace_nil : replace pats marker ([] : List α) = ([], 0) := rfl

lemma replaceFrom_drop (k : ℕ) (w : List α) :
    replaceFrom pats marker k w = replace pats marker (w.drop k) := by
  induction k generalizing w with
  | zero => rfl
  | succ k ih =>
    rcases w with _ | ⟨a, t⟩
    · rfl
    · rw [replaceFrom, ih, List.drop_succ_cons]

/-- Where a word begins, the longest is replaced. -/
lemma replace_match {w p : List α} (hne : p ≠ []) (hl : longest pats w = some p.length) :
    replace pats marker w =
      (marker ++ (replace pats marker (w.drop p.length)).1,
        (replace pats marker (w.drop p.length)).2 + 1) := by
  rcases w with _ | ⟨a, t⟩
  · exfalso
    have hm := List.max?_mem (by simpa [longest] using hl)
    obtain ⟨q, hq, hqp⟩ := List.mem_map.mp hm
    have hq' : q = [] := by simpa using (List.mem_filter.mp hq).2
    exact hne (List.length_eq_zero_iff.mp (by rw [← hqp, hq']; rfl))
  · have hpos : 0 < p.length := List.length_pos_iff.mpr hne
    obtain ⟨m, hm⟩ : ∃ m, p.length = m + 1 := ⟨p.length - 1, by omega⟩
    rw [replace, replaceFrom, hl]
    simp only [replaceFrom_drop, hm, Nat.add_sub_cancel, List.drop_succ_cons]

/-- A stretch at none of whose positions a word begins is copied. -/
lemma replace_copy (u z : List α)
    (h : ∀ i < u.length, ∀ p ∈ pats, ¬ p <+: (u ++ z).drop i) :
    replace pats marker (u ++ z) = (u ++ (replace pats marker z).1, (replace pats marker z).2) := by
  induction u with
  | nil => simp
  | cons a t ih =>
    have h0 : longest pats (a :: (t ++ z)) = none :=
      longest_eq_none_iff.mpr fun p hp => by simpa using h 0 (by simp) p hp
    have ih' := ih fun i hi p hp => by simpa using h (i + 1) (by simpa using hi) p hp
    rw [List.cons_append, replace, replaceFrom, h0]
    show (a :: (replace pats marker (t ++ z)).1, (replace pats marker (t ++ z)).2) = _
    rw [ih']
    rfl

end Replace

end Ladon.Lib.Find

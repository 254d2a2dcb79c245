import Mathlib.Data.FinEnum
import Mathlib.Data.List.Basic
import Mathlib.Data.UInt
import Mathlib.Order.Defs.LinearOrder
import Mathlib.Tactic.Common

/-!
Finite maps as lists of entries in the strict order of their keys.
-/

namespace Ladon.Lib

structure SortedMap (κ : Type*) [LinearOrder κ] (β : Type*) where
  entries : List (κ × β)
  sorted : entries.Pairwise fun a b => a.1 < b.1

namespace SortedMap

variable {κ β : Type*} [LinearOrder κ]

instance [DecidableEq β] : DecidableEq (SortedMap κ β) := fun a b =>
  decidable_of_iff (a.entries = b.entries) ⟨fun h => by cases a; cases b; simpa using h,
    fun h => by rw [h]⟩

@[ext] lemma ext {m m' : SortedMap κ β} (h : m.entries = m'.entries) : m = m' := by
  cases m; cases m'; simpa using h

def empty : SortedMap κ β := ⟨[], List.Pairwise.nil⟩

/-- The entries with a new one, which takes the place of an old one with its key. -/
def insertEntry (k : κ) (v : β) : List (κ × β) → List (κ × β)
  | [] => [(k, v)]
  | e :: t =>
    if k < e.1 then (k, v) :: e :: t
    else if e.1 < k then e :: insertEntry k v t
    else (k, v) :: t

lemma mem_insertEntry {k : κ} {v : β} {l : List (κ × β)} {e : κ × β}
    (h : e ∈ insertEntry k v l) : e = (k, v) ∨ e ∈ l := by
  induction l with
  | nil => simpa [insertEntry] using h
  | cons a t ih =>
    unfold insertEntry at h
    split_ifs at h
    · simpa using h
    · rcases List.mem_cons.mp h with rfl | h
      · simp
      · rcases ih h with h | h
        · exact .inl h
        · exact .inr (List.mem_cons_of_mem _ h)
    · rcases List.mem_cons.mp h with h | h
      · exact .inl h
      · exact .inr (List.mem_cons_of_mem _ h)

lemma pairwise_insertEntry {k : κ} {v : β} {l : List (κ × β)}
    (h : l.Pairwise fun a b => a.1 < b.1) :
    (insertEntry k v l).Pairwise fun a b => a.1 < b.1 := by
  induction l with
  | nil => simp [insertEntry]
  | cons a t ih =>
    obtain ⟨ha, ht⟩ := List.pairwise_cons.mp h
    unfold insertEntry
    split_ifs with h1 h2
    · refine List.pairwise_cons.mpr ⟨fun b hb => ?_, h⟩
      rcases List.mem_cons.mp hb with rfl | hb
      · exact h1
      · exact lt_trans h1 (ha b hb)
    · refine List.pairwise_cons.mpr ⟨fun b hb => ?_, ih ht⟩
      rcases mem_insertEntry hb with rfl | hb
      · exact h2
      · exact ha b hb
    · have he : a.1 = k := le_antisymm (not_lt.mp h1) (not_lt.mp h2)
      exact List.pairwise_cons.mpr ⟨fun b hb => by rw [← he]; exact ha b hb, ht⟩

def insert (m : SortedMap κ β) (k : κ) (v : β) : SortedMap κ β :=
  ⟨insertEntry k v m.entries, pairwise_insertEntry m.sorted⟩

/-- A key beyond all others goes last. -/
lemma insertEntry_last {k : κ} {v : β} {l : List (κ × β)} (h : ∀ e ∈ l, e.1 < k) :
    insertEntry k v l = l ++ [(k, v)] := by
  induction l with
  | nil => rfl
  | cons a t ih =>
    have ha := h a (by simp)
    rw [insertEntry, if_neg (not_lt.mpr (le_of_lt ha)), if_pos ha,
      ih fun e he => h e (List.mem_cons_of_mem _ he)]
    rfl

end SortedMap

end Ladon.Lib

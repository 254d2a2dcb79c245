import Mathlib.Data.FinEnum
import Mathlib.Data.List.Nodup
import Mathlib.Data.UInt

/-!
Finite tables: entries with distinct keys, in no order that matters.

A table is described by what it holds at each key; every operation has one lemma that says so.
-/

namespace Ladon.Lib

structure Table (K V : Type) where
  entries : List (K × V)
  nodup : (entries.map Prod.fst).Nodup
  deriving DecidableEq

namespace Table

variable {K V : Type}

def empty : Table K V := ⟨[], List.nodup_nil⟩

def keys (t : Table K V) : List K := t.entries.map Prod.fst

def size (t : Table K V) : ℕ := t.entries.length

/-- The entries that pass a test. -/
def retain (t : Table K V) (p : K → V → Bool) : Table K V :=
  ⟨t.entries.filter fun e => p e.1 e.2, t.nodup.sublist (List.filter_sublist.map _)⟩

def any (t : Table K V) (p : K → V → Bool) : Bool := t.entries.any fun e => p e.1 e.2

variable [DecidableEq K]

/-- What the table holds at a key. -/
def get? (t : Table K V) (k : K) : Option V := (t.entries.find? fun e => e.1 = k).map Prod.snd

def contains (t : Table K V) (k : K) : Bool := (t.get? k).isSome

def erase (t : Table K V) (k : K) : Table K V := t.retain fun k' _ => k' ≠ k

def insert (t : Table K V) (k : K) (v : V) : Table K V where
  entries := (k, v) :: (t.erase k).entries
  nodup := by
    refine List.nodup_cons.mpr ⟨?_, (t.erase k).nodup⟩
    simp [erase, retain]

/-- The same value at each of several keys. -/
def insertAll (t : Table K V) (ks : List K) (v : V) : Table K V :=
  ks.foldl (fun t k => t.insert k v) t

/-- Where keys are distinct, the search for the key of an entry finds that entry. -/
lemma find?_key {l : List (K × V)} (hnd : (l.map Prod.fst).Nodup) {k : K} {v : V}
    (h : (k, v) ∈ l) : l.find? (fun e => e.1 = k) = some (k, v) := by
  induction l with
  | nil => cases h
  | cons e l ih =>
    obtain ⟨hnot, hnd⟩ := List.nodup_cons.mp hnd
    by_cases hk : e.1 = k
    · rcases List.mem_cons.mp h with rfl | h
      · simp
      · exact (hnot (hk ▸ List.mem_map.mpr ⟨(k, v), h, rfl⟩)).elim
    · rcases List.mem_cons.mp h with rfl | h
      · exact (hk rfl).elim
      · rw [List.find?_cons_of_neg (by simpa using hk)]
        exact ih hnd h

lemma get?_eq_some_iff {t : Table K V} {k : K} {v : V} :
    t.get? k = some v ↔ (k, v) ∈ t.entries := by
  rw [get?, Option.map_eq_some_iff]
  constructor
  · rintro ⟨⟨k', v'⟩, hfind, rfl⟩
    have hk : k' = k := by simpa using List.find?_some hfind
    exact hk ▸ List.mem_of_find?_eq_some hfind
  · intro h
    exact ⟨(k, v), find?_key t.nodup h, rfl⟩

lemma get?_retain (t : Table K V) (p : K → V → Bool) (k : K) :
    (t.retain p).get? k = (t.get? k).filter (p k) := by
  ext v
  rw [get?_eq_some_iff, Option.filter_eq_some_iff, get?_eq_some_iff]
  simp [retain]

@[simp] lemma get?_erase (t : Table K V) (k k' : K) :
    (t.erase k).get? k' = if k' = k then none else t.get? k' := by
  rw [erase, get?_retain]
  by_cases h : k' = k
  · simp [h]
  · cases t.get? k' <;> simp [h]

@[simp] lemma get?_insert (t : Table K V) (k : K) (v : V) (k' : K) :
    (t.insert k v).get? k' = if k' = k then some v else t.get? k' := by
  by_cases h : k' = k
  · subst h
    rw [if_pos rfl, get?_eq_some_iff]
    exact List.mem_cons_self
  · rw [if_neg h]
    ext w
    rw [get?_eq_some_iff, insert, List.mem_cons, ← get?_eq_some_iff, get?_erase, if_neg h]
    simp [h]

lemma get?_insertAll (t : Table K V) (ks : List K) (v : V) (k : K) :
    (t.insertAll ks v).get? k = if k ∈ ks then some v else t.get? k := by
  induction ks generalizing t with
  | nil => simp [insertAll]
  | cons k' l ih =>
    have hfold : t.insertAll (k' :: l) v = (t.insert k' v).insertAll l v := rfl
    rw [hfold, ih, get?_insert]
    by_cases h1 : k ∈ l
    · simp [h1]
    · simp [h1]

lemma any_eq_true {t : Table K V} {p : K → V → Bool} :
    t.any p = true ↔ ∃ k v, t.get? k = some v ∧ p k v := by
  simp only [any, List.any_eq_true, Prod.exists, get?_eq_some_iff]

lemma contains_eq_true {t : Table K V} {k : K} : t.contains k = true ↔ ∃ v, t.get? k = some v :=
  Option.isSome_iff_exists

lemma mem_keys {t : Table K V} {k : K} : k ∈ t.keys ↔ t.contains k = true := by
  simp only [keys, List.mem_map, contains_eq_true, get?_eq_some_iff, Prod.exists,
    exists_and_right, exists_eq_right]

/-- Tables with the same keys are of one size. -/
lemma size_eq_of_contains {V' : Type} {t : Table K V} {t' : Table K V'}
    (h : ∀ k, t.contains k = t'.contains k) : t.size = t'.size := by
  have hperm : t.keys.Perm t'.keys := by
    refine (List.perm_ext_iff_of_nodup t.nodup t'.nodup).mpr fun k => ?_
    change k ∈ t.keys ↔ k ∈ t'.keys
    rw [mem_keys, mem_keys, h]
  simpa [keys, size] using hperm.length_eq

/-- Distinct values that a table holds are no more than its entries. -/
lemma length_le_size {t : Table K V} {l : List V} (hnodup : l.Nodup)
    (h : ∀ v ∈ l, ∃ k, t.get? k = some v) : l.length ≤ t.size := by
  have hsub : l ⊆ t.entries.map Prod.snd := by
    intro v hv
    obtain ⟨k, hk⟩ := h v hv
    exact List.mem_map.mpr ⟨(k, v), get?_eq_some_iff.mp hk, rfl⟩
  have hle := (List.subperm_of_subset hnodup hsub).length_le
  rwa [List.length_map] at hle

end Table

end Ladon.Lib

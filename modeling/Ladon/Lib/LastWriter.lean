import Mathlib.Data.FinEnum
import Mathlib.Data.List.Induction
import Mathlib.Data.UInt
import Mathlib.Tactic.Common

/-!
Stores of values under keys, seen from the history of what was done to them: a key holds what was
written to it last, unless that was dropped since.
-/

namespace Ladon.Lib

variable {σ α κ ν : Type*}

/-- What a label writes to a key, and which values it drops from one. -/
structure Rules (α κ ν : Type*) where
  sets : α → κ → Option ν
  drops : α → κ → ν → Prop

namespace Rules

variable (R : Rules α κ ν)

/-- The value was written to the key, and nothing since wrote to the key or dropped the value. -/
def Written (history : List α) (k : κ) (v : ν) : Prop :=
  ∃ before a after, history = before ++ a :: after ∧ R.sets a k = some v ∧
    ∀ b ∈ after, R.sets b k = none ∧ ¬ R.drops b k v

variable {R} {history : List α} {k : κ} {v : ν}

lemma not_written_nil : ¬ R.Written [] k v := by
  rintro ⟨before, a, after, h, -⟩
  simp at h

/-- What is written after one more label. -/
lemma written_snoc {a : α} : R.Written (history ++ [a]) k v ↔
    R.sets a k = some v ∨ (R.sets a k = none ∧ R.Written history k v ∧ ¬ R.drops a k v) := by
  constructor
  · rintro ⟨before, b, after, h, hset, hafter⟩
    rcases List.eq_nil_or_concat after with rfl | ⟨rest, c, rfl⟩
    · obtain ⟨-, hb⟩ := List.append_inj' h rfl
      cases hb
      exact .inl hset
    · rw [List.concat_eq_append] at h hafter
      rw [← List.cons_append, ← List.append_assoc] at h
      obtain ⟨rfl, hc⟩ := List.append_inj' h rfl
      cases hc
      obtain ⟨hnone, hkept⟩ := hafter a (by simp)
      exact .inr ⟨hnone, ⟨before, b, rest, rfl, hset, fun d hd => hafter d (by simp [hd])⟩, hkept⟩
  · rintro (hset | ⟨hnone, ⟨before, b, after, rfl, hset, hafter⟩, hkept⟩)
    · exact ⟨history, a, [], rfl, hset, fun b hb => (nomatch hb)⟩
    · refine ⟨before, b, after ++ [a], by simp, hset, fun d hd => ?_⟩
      rcases List.mem_append.mp hd with hd | hd
      · exact hafter d hd
      · rw [List.mem_singleton.mp hd]
        exact ⟨hnone, hkept⟩

/-- A store whose every step follows the rules holds what was written last. -/
theorem get_foldl {get : σ → κ → Option ν} {step : σ → α → σ} {I : σ → Prop} {start : σ}
    (hI : I start) (hstart : ∀ k, get start k = none) (hkeep : ∀ s a, I s → I (step s a))
    (hstep : ∀ s a k v, I s → (get (step s a) k = some v ↔
      R.sets a k = some v ∨ (R.sets a k = none ∧ get s k = some v ∧ ¬ R.drops a k v)))
    (history : List α) :
    I (history.foldl step start) ∧
      ∀ k v, get (history.foldl step start) k = some v ↔ R.Written history k v := by
  induction history using List.reverseRecOn with
  | nil =>
    refine ⟨hI, fun k v => ?_⟩
    rw [List.foldl_nil, hstart]
    exact iff_of_false (fun h => (nomatch h)) not_written_nil
  | append_singleton history a ih =>
    rw [List.foldl_append, List.foldl_cons, List.foldl_nil]
    refine ⟨hkeep _ _ ih.1, fun k v => ?_⟩
    rw [hstep _ _ _ _ ih.1, written_snoc, ih.2]

end Rules

end Ladon.Lib

import Mathlib.Data.FinEnum
import Mathlib.Data.List.Basic
import Mathlib.Data.List.Induction
import Mathlib.Data.UInt
import Mathlib.Tactic.Common

/-!
Runs of a labelled transition system, with the labels of their steps in order.
-/

namespace Ladon.Lib

variable {σ α : Type*}

lemma forall_mem_snoc {p : α → Prop} {l : List α} {a : α} (h : ∀ x ∈ l, p x) (ha : p a) :
    ∀ x ∈ l ++ [a], p x := by
  intro x hx
  rcases List.mem_append.mp hx with hx | hx
  · exact h x hx
  · rw [List.mem_singleton.mp hx]
    exact ha

/-- A run from one state to another, and the labels of its steps. -/
inductive Run (step : σ → α → σ → Prop) : σ → List α → σ → Prop
  | nil (s : σ) : Run step s [] s
  | snoc {s t u : σ} {as : List α} {a : α} (run : Run step s as t) (last : step t a u) :
      Run step s (as ++ [a]) u

namespace Run

variable {step step' : σ → α → σ → Prop} {s t u : σ} {as bs : List α}

/-- What holds at the start and is kept by every step holds at the end. -/
theorem invariant {I : σ → Prop} (run : Run step s as t) (h0 : I s)
    (hstep : ∀ t a u, I t → step t a u → I u) : I t := by
  induction run with
  | nil => exact h0
  | snoc _ last ih => exact hstep _ _ _ ih last

/-- The same with the labels so far, for invariants that look back. -/
theorem history_invariant {I : List α → σ → Prop} (run : Run step s as t) (h0 : I [] s)
    (hstep : ∀ as t a u, I as t → step t a u → I (as ++ [a]) u) : I as t := by
  induction run with
  | nil => exact h0
  | snoc _ last ih => exact hstep _ _ _ _ ih last

lemma single {a : α} (h : step s a t) : Run step s [a] t := (Run.nil s).snoc h

lemma cons {a : α} (h : step s a t) (run : Run step t as u) : Run step s (a :: as) u := by
  induction run with
  | nil => exact single h
  | snoc _ last ih => exact ih.snoc last

lemma mono (h : ∀ s a t, step s a t → step' s a t) (run : Run step s as t) : Run step' s as t := by
  induction run with
  | nil => exact .nil _
  | snoc _ last ih => exact ih.snoc (h _ _ _ last)

lemma append (run : Run step s as t) (rest : Run step t bs u) : Run step s (as ++ bs) u := by
  induction rest with
  | nil =>
    rw [List.append_nil]
    exact run
  | snoc _ last ih =>
    rw [← List.append_assoc]
    exact ih.snoc last

/-- The last step of a run. -/
lemma snoc_inv {a : α} (run : Run step s (as ++ [a]) u) : ∃ t, Run step s as t ∧ step t a u := by
  generalize h : as ++ [a] = cs at run
  cases run with
  | nil => simp at h
  | snoc run last =>
    obtain ⟨rfl, ha⟩ := List.append_inj' h rfl
    cases ha
    exact ⟨_, run, last⟩

/-- A run can be cut at any place. -/
lemma split (run : Run step s (as ++ bs) u) : ∃ t, Run step s as t ∧ Run step t bs u := by
  induction bs using List.reverseRecOn generalizing u with
  | nil =>
    rw [List.append_nil] at run
    exact ⟨u, run, .nil u⟩
  | append_singleton bs b ih =>
    rw [← List.append_assoc] at run
    obtain ⟨v, run, last⟩ := snoc_inv run
    obtain ⟨t, h1, h2⟩ := ih run
    exact ⟨t, h1, h2.snoc last⟩

lemma nil_inv (run : Run step s [] t) : t = s := by
  generalize h : ([] : List α) = as at run
  cases run with
  | nil => rfl
  | snoc => simp at h

/-- The first step of a run. -/
lemma cons_inv {a : α} (run : Run step s (a :: as) u) : ∃ t, step s a t ∧ Run step t as u := by
  rw [← List.singleton_append] at run
  obtain ⟨t, hfirst, rest⟩ := split run
  rw [← List.nil_append [a]] at hfirst
  obtain ⟨s', hnil, hstep⟩ := snoc_inv hfirst
  exact ⟨t, nil_inv hnil ▸ hstep, rest⟩

/-- The run of steps that are given by a function. -/
lemma of_foldl {f : σ → α → σ} (s : σ) (as : List α) (h : ∀ a ∈ as, ∀ s, step s a (f s a)) :
    Run step s as (as.foldl f s) := by
  induction as generalizing s with
  | nil => exact .nil s
  | cons a as ih =>
    exact cons (h a List.mem_cons_self s) (ih _ fun b hb => h b (List.mem_cons_of_mem a hb))

end Run

end Ladon.Lib

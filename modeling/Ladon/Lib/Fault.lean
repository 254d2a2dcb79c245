import Ladon.Lib.Word
import Mathlib.Data.List.Basic
import Mathlib.Tactic.Common

/-!
Computations that may fault.

A part taken from outside a sequence and a sum beyond the machine's numbers stop a program where it
stands, whatever errors of its own it reports. A computation is free of faults when it is a plain
one, lifted; the rules show this along the steps, each with what the steps before it answered.
-/

namespace Ladon.Lib

open Ladon.Lib.Word

inductive Fault
  | outOfRange
  | overflow
  deriving DecidableEq

/-- Answers, fails with an error of its own, or faults. -/
abbrev Faulting (ε α : Type) := ExceptT ε (Except Fault) α

section Steps

variable {α : Type}

/-- The part `xs[start..stop]`. -/
def cut (xs : List α) (start stop : ℕ) : Except Fault (List α) :=
  if start ≤ stop ∧ stop ≤ xs.length then .ok ((xs.drop start).take (stop - start))
  else .error .outOfRange

/-- The sum of two machine numbers. -/
def plus (m n : ℕ) : Except Fault ℕ := if m + n ≤ u64Max then .ok (m + n) else .error .overflow

variable {xs : List α} {start stop m n : ℕ}

lemma cut_eq (h : start ≤ stop) (h' : stop ≤ xs.length) :
    cut xs start stop = .ok ((xs.drop start).take (stop - start)) := if_pos ⟨h, h'⟩

lemma plus_eq (h : m + n ≤ u64Max) : plus m n = .ok (m + n) := if_pos h

end Steps

/-- The computation does not fault, and does what the plain one does. -/
def Faultless {ε α : Type} (c : Faulting ε α) (x : Except ε α) : Prop := c = ExceptT.mk (.ok x)

namespace Faultless

variable {ε α β : Type}

lemma pure (a : α) : Faultless (Pure.pure a : Faulting ε α) (Pure.pure a) := rfl

lemma lift (x : Except ε α) : Faultless (liftM x : Faulting ε α) x := rfl

lemma bind {c : Faulting ε α} {x : Except ε α} {g : α → Faulting ε β} {f : α → Except ε β}
    (h : Faultless c x) (hstep : ∀ a, x = .ok a → Faultless (g a) (f a)) :
    Faultless (c >>= g) (x >>= f) := by
  rw [Faultless] at h
  subst h
  cases x with
  | error e => rfl
  | ok a => exact hstep a rfl

/-- A step that could have faulted, and did not. -/
lemma step {p : Except Fault α} {a : α} {g : α → Faulting ε β} {x : Except ε β} (h : p = .ok a)
    (hrest : Faultless (g a) x) : Faultless ((liftM p : Faulting ε α) >>= g) x := by
  subst h
  exact hrest

/-- A step that could have failed, and did not. -/
lemma answered {y : Except ε α} {a : α} {g : α → Faulting ε β} {x : Except ε β} (h : y = .ok a)
    (hrest : Faultless (g a) x) : Faultless ((liftM y : Faulting ε α) >>= g) x := by
  subst h
  exact hrest

end Faultless

/-- The computation does not fault, and what it yields meets a condition. -/
def Yields {α : Type} (c : Except Fault α) (post : α → Prop) : Prop := ∃ a, c = .ok a ∧ post a

namespace Yields

variable {α β : Type} {post : α → Prop} {post' : β → Prop}

lemma ok {a : α} (h : post a) : Yields (.ok a) post := ⟨a, rfl, h⟩

lemma mono {c : Except Fault α} {post' : α → Prop} (h : Yields c post)
    (hpost : ∀ a, post a → post' a) : Yields c post' := by
  obtain ⟨a, hc, ha⟩ := h
  exact ⟨a, hc, hpost a ha⟩

lemma bind {c : Except Fault α} {f : α → Except Fault β} (h : Yields c post)
    (hstep : ∀ a, post a → Yields (f a) post') : Yields (c >>= f) post' := by
  obtain ⟨a, rfl, ha⟩ := h
  exact hstep a ha

/-- A loop: what holds of the turns made is kept by one more. -/
theorem foldlM {γ : Type} {f : α → γ → Except Fault α} {I : List γ → α → Prop} {l : List γ}
    {a : α} (h0 : I [] a)
    (hturn : ∀ done c a, c ∈ l → I done a → Yields (f a c) (I (done ++ [c]))) :
    Yields (l.foldlM f a) (I l) := by
  suffices h : ∀ rest done a, l = done ++ rest → I done a → Yields (rest.foldlM f a) (I l) from
    h l [] a rfl h0
  intro rest
  induction rest with
  | nil =>
    intro done a hl ha
    rw [List.append_nil] at hl
    exact ok (hl ▸ ha)
  | cons c rest ih =>
    intro done a hl ha
    have hc : c ∈ l := by
      rw [hl]
      exact List.mem_append_right _ List.mem_cons_self
    rw [List.foldlM_cons]
    refine (hturn done c a hc ha).bind fun b hb => ih (done ++ [c]) b ?_ hb
    rw [hl, List.append_assoc]
    rfl

end Yields

/-- The computation does not fault; what it answers meets a condition, and what it leaves with
another. -/
def Meets {ε α : Type} (c : Faulting ε α) (answer : α → Prop) (left : ε → Prop) : Prop :=
  (∃ a, c = ExceptT.mk (.ok (.ok a)) ∧ answer a) ∨ ∃ e, c = ExceptT.mk (.ok (.error e)) ∧ left e

namespace Meets

variable {ε α β : Type} {answer : α → Prop} {left : ε → Prop}

lemma pure {a : α} (h : answer a) : Meets (Pure.pure a : Faulting ε α) answer left :=
  .inl ⟨a, rfl, h⟩

lemma bind {c : Faulting ε α} {f : α → Faulting ε β} {answer' : β → Prop}
    (h : Meets c answer left) (hstep : ∀ a, answer a → Meets (f a) answer' left) :
    Meets (c >>= f) answer' left := by
  rcases h with ⟨a, rfl, ha⟩ | ⟨e, rfl, he⟩
  · exact hstep a ha
  · exact .inr ⟨e, rfl, he⟩

lemma mono {c : Faulting ε α} {answer' : α → Prop} {left' : ε → Prop} (h : Meets c answer left)
    (ha : ∀ a, answer a → answer' a) (he : ∀ e, left e → left' e) : Meets c answer' left' := by
  rcases h with ⟨a, hc, h⟩ | ⟨e, hc, h⟩
  · exact .inl ⟨a, hc, ha a h⟩
  · exact .inr ⟨e, hc, he e h⟩

/-- A step that could have faulted, and did not. -/
lemma step {p : Except Fault β} {b : β} {f : β → Faulting ε α} (h : p = .ok b)
    (hrest : Meets (f b) answer left) :
    Meets ((liftM p : Faulting ε β) >>= f) answer left := by
  subst h
  exact hrest

/-- A loop: what holds of the turns made is kept by one more. -/
theorem foldlM {γ : Type} {f : α → γ → Faulting ε α} {I : List γ → α → Prop} {l : List γ} {a : α}
    (h0 : I [] a) (hturn : ∀ done c rest a, l = done ++ c :: rest → I done a →
      Meets (f a c) (I (done ++ [c])) left) :
    Meets (l.foldlM f a) (I l) left := by
  suffices h : ∀ rest done a, l = done ++ rest → I done a →
      Meets (rest.foldlM f a) (I l) left from h l [] a rfl h0
  intro rest
  induction rest with
  | nil =>
    intro done a hl ha
    rw [List.append_nil] at hl
    exact pure (hl ▸ ha)
  | cons c rest ih =>
    intro done a hl ha
    rw [List.foldlM_cons]
    refine (hturn done c rest a hl ha).bind fun b hb => ih (done ++ [c]) b ?_ hb
    rw [hl, List.append_assoc]
    rfl

end Meets

end Ladon.Lib

import Mathlib.Data.List.Basic
import Mathlib.Data.List.Infix
import Mathlib.Tactic.Common

/-!
First come, first kept.

Items arrive one after the other, and one is kept unless it conflicts with an item that was kept
before it. What is kept never conflicts, and what is not kept lost to something that came earlier.
-/

namespace Ladon.Lib.FirstCome

variable {α : Type*} (conflict : α → α → Prop) [DecidableRel conflict]

def receive (kept : List α) (a : α) : List α :=
  if ∃ k ∈ kept, conflict k a then kept else kept ++ [a]

/-- What is kept of items in their order of arrival. -/
def keep (items : List α) : List α := items.foldl (receive conflict) []

variable {conflict} {items : List α} {a : α}

lemma keep_append_singleton (items : List α) (a : α) :
    keep conflict (items ++ [a]) = receive conflict (keep conflict items) a := by
  rw [keep, List.foldl_append]
  rfl

lemma isPrefix_receive (kept : List α) (a : α) : kept <+: receive conflict kept a := by
  unfold receive
  split
  · exact List.prefix_rfl
  · exact List.prefix_append kept [a]

/-- What is kept stays kept. -/
lemma keep_isPrefix (items later : List α) : keep conflict items <+: keep conflict (items ++ later) := by
  induction later using List.reverseRecOn with
  | nil => rw [List.append_nil]
  | append_singleton later a ih =>
    rw [← List.append_assoc, keep_append_singleton]
    exact ih.trans (isPrefix_receive _ a)

lemma keep_sublist (items : List α) : (keep conflict items).Sublist items := by
  induction items using List.reverseRecOn with
  | nil => exact List.Sublist.refl []
  | append_singleton items a ih =>
    rw [keep_append_singleton, receive]
    split
    · exact ih.trans (List.sublist_append_left items [a])
    · exact ih.append (List.Sublist.refl [a])

lemma keep_pairwise (items : List α) :
    (keep conflict items).Pairwise fun a b => ¬ conflict a b := by
  induction items using List.reverseRecOn with
  | nil => exact List.Pairwise.nil
  | append_singleton items a ih =>
    rw [keep_append_singleton, receive]
    split
    · exact ih
    · next hfree =>
      refine List.pairwise_append.mpr ⟨ih, List.pairwise_singleton _ a, fun k hk b hb hkb => ?_⟩
      rw [List.mem_singleton.mp hb] at hkb
      exact hfree ⟨k, hk, hkb⟩

/-- When an item has arrived it conflicts with one that is kept, and be it itself. -/
lemma exists_conflict (hself : conflict a a) (items : List α) :
    ∃ k ∈ keep conflict (items ++ [a]), conflict k a := by
  rw [keep_append_singleton, receive]
  split
  · next h => exact h
  · exact ⟨a, List.mem_append_right _ (List.mem_singleton.mpr rfl), hself⟩

/-- An item conflicts with one that is kept of those up to it. -/
lemma exists_kept (hself : conflict a a) (ha : a ∈ items) (later : List α) :
    ∃ k ∈ keep conflict (items ++ later), k ∈ items ∧ conflict k a := by
  obtain ⟨u, v, rfl⟩ := List.append_of_mem ha
  obtain ⟨k, hk, hconflict⟩ := exists_conflict hself u
  have hsplit : u ++ a :: v ++ later = u ++ [a] ++ (v ++ later) := by simp
  rw [hsplit]
  refine ⟨k, (keep_isPrefix _ _).subset hk, ?_, hconflict⟩
  have hmem := (keep_sublist _).subset hk
  rw [List.mem_append, List.mem_singleton] at hmem
  rcases hmem with hmem | rfl
  · exact List.mem_append_left _ hmem
  · exact List.mem_append_right _ List.mem_cons_self

end Ladon.Lib.FirstCome

import Mathlib.Data.List.Basic
import Mathlib.Data.List.Infix
import Mathlib.Tactic.Common

/-!
One direction of a stream between two parties: what is written arrives in the order it was written
in, in pieces of any sizes, and the end is seen once the writer has gone and all of it has been read.
-/

namespace Ladon.Lib

/-- What was read of a stream, what is on the way, and whether the writer has gone. -/
structure Pipe (α : Type*) where
  received : List α := []
  pending : List α := []
  closed : Bool := false

namespace Pipe

variable {α : Type*} {p : Pipe α} {piece : List α} {n : ℕ}

def written (p : Pipe α) : List α := p.received ++ p.pending

def write (p : Pipe α) (w : List α) : Pipe α := { p with pending := p.pending ++ w }

def close (p : Pipe α) : Pipe α := { p with closed := true }

/-- So many are read. -/
def take (p : Pipe α) (n : ℕ) : Pipe α :=
  { p with received := p.received ++ p.pending.take n, pending := p.pending.drop n }

/-- A read may find the piece: some of what is on the way, or nothing at the end. -/
def Offers (p : Pipe α) (piece : List α) : Prop :=
  if piece = [] then p.pending = [] ∧ p.closed else piece <+: p.pending

instance [DecidableEq α] : Decidable (p.Offers piece) := by unfold Offers; infer_instance

@[simp] lemma received_write (w : List α) : (p.write w).received = p.received := rfl

@[simp] lemma received_close : p.close.received = p.received := rfl

@[simp] lemma closed_write (w : List α) : (p.write w).closed = p.closed := rfl

@[simp] lemma closed_take : (p.take n).closed = p.closed := rfl

@[simp] lemma closed_close : p.close.closed = true := rfl

@[simp] lemma written_write (w : List α) : (p.write w).written = p.written ++ w :=
  (List.append_assoc ..).symm

@[simp] lemma written_close : p.close.written = p.written := rfl

/-- Reading takes nothing away from what was written. -/
@[simp] lemma written_take : (p.take n).written = p.written := by
  rw [written, written, take, List.append_assoc, List.take_append_drop]

lemma received_prefix : p.received <+: p.written := List.prefix_append ..

lemma pending_of_received (h : p.received = p.written) : p.pending = [] := by
  rw [written] at h
  exact List.self_eq_append_right.mp h

/-- A piece that is offered is read as far as there is room for it. -/
lemma received_take (h : p.Offers piece) (hne : piece ≠ []) :
    (p.take (piece.take n).length).received = p.received ++ piece.take n := by
  rw [Offers, if_neg hne] at h
  obtain ⟨rest, hrest⟩ := h
  have hpiece : piece.take n <+: p.pending :=
    (List.take_prefix n piece).trans (hrest ▸ List.prefix_append ..)
  rw [take, List.prefix_iff_eq_take.mp hpiece |>.symm]

lemma pending_ne_nil (h : p.Offers piece) (hne : piece ≠ []) : p.pending ≠ [] := by
  rw [Offers, if_neg hne] at h
  intro hnil
  rw [hnil] at h
  exact hne (List.prefix_nil.mp h)

lemma ended (h : p.Offers []) : p.pending = [] ∧ p.closed := by
  rwa [Offers, if_pos rfl] at h

end Pipe

end Ladon.Lib

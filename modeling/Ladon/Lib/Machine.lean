import Ladon.Lib.Run

/-!
Machines of many threads: a step is an event that the state admits, a history keeps with every
event the state it found, a part of a machine has a history of its own, and a flag is held by one
thread at a time.
-/

namespace Ladon.Lib.Machine

variable {σ ε : Type}

/-- An event, and the state it happened in. -/
structure Occurrence (σ ε : Type) where
  before : σ
  event : ε

/-- The steps of a machine whose events may not be possible. -/
inductive Step (apply : σ → ε → Option σ) : σ → Occurrence σ ε → σ → Prop
  | mk {s s' : σ} {e : ε} (h : apply s e = some s') : Step apply s ⟨s, e⟩ s'

section Runs

variable {apply : σ → ε → Option σ} {s t : σ} {o : Occurrence σ ε}
  {before rest : List (Occurrence σ ε)}

lemma Step.inv (h : Step apply s o t) : o.before = s ∧ apply s o.event = some t := by
  cases h with
  | mk h => exact ⟨rfl, h⟩

/-- A run is cut at one of its events. -/
lemma cut (run : Run (Step apply) s (before ++ o :: rest) t) :
    ∃ u, Run (Step apply) s before o.before ∧ apply o.before o.event = some u ∧
      Run (Step apply) u rest t := by
  obtain ⟨v, hbefore, hrest⟩ := run.split
  obtain ⟨u, hstep, hlater⟩ := hrest.cons_inv
  obtain ⟨rfl, happly⟩ := hstep.inv
  exact ⟨u, hbefore, happly, hlater⟩

/-- Events that happen one after another, with the state behind them. -/
def play (apply : σ → ε → Option σ) (s : σ) : List ε → Option (List (Occurrence σ ε) × σ)
  | [] => some ([], s)
  | e :: events => do
    let s' ← apply s e
    let (history, last) ← play apply s' events
    return (⟨s, e⟩ :: history, last)

lemma play_cons {e : ε} {events : List ε} {history : List (Occurrence σ ε)}
    (h : play apply s (e :: events) = some (history, t)) :
    ∃ s' rest, history = ⟨s, e⟩ :: rest ∧ apply s e = some s' ∧ play apply s' events = some (rest, t) := by
  simp only [play, Option.bind_eq_bind, Option.bind_eq_some_iff] at h
  obtain ⟨s', he, ⟨rest, last⟩, hrest, h⟩ := h
  cases h
  exact ⟨s', rest, rfl, he, hrest⟩

lemma run_of_play {events : List ε} {history : List (Occurrence σ ε)}
    (h : play apply s events = some (history, t)) : Run (Step apply) s history t := by
  induction events generalizing s history with
  | nil =>
    cases h
    exact .nil _
  | cons e events ih =>
    obtain ⟨s', rest, rfl, he, hrest⟩ := play_cons h
    exact .cons (.mk he) (ih hrest)

end Runs

/-! ### Parts -/

section Parts

variable {τ δ : Type} {apply : σ → ε → Option σ} {apply' : τ → δ → Option τ} {s t : σ}
  {history : List (Occurrence σ ε)}

/-- What an occurrence is to a part of the machine, where the event has to do with the part. -/
def part (p : σ → τ) (f : σ → ε → Option δ) (o : Occurrence σ ε) : Option (Occurrence τ δ) :=
  (f o.before o.event).map fun e => ⟨p o.before, e⟩

variable {p : σ → τ} {f : σ → ε → Option δ}

lemma part_eq_some {o : Occurrence σ ε} {x : Occurrence τ δ} :
    part p f o = some x ↔ f o.before o.event = some x.event ∧ x.before = p o.before := by
  rw [part, Option.map_eq_some_iff]
  constructor
  · rintro ⟨e, he, rfl⟩
    exact ⟨he, rfl⟩
  · rintro ⟨he, hbefore⟩
    exact ⟨x.event, he, by rw [← hbefore]⟩

/-- A run of the machine is a run of the part, where the other events leave the part alone. -/
theorem run_part {I : σ → Prop} (run : Run (Step apply) s history t) (h0 : I s)
    (hI : ∀ u e v, I u → apply u e = some v → I v)
    (hother : ∀ u e v, I u → apply u e = some v → f u e = none → p v = p u)
    (hown : ∀ u e v e', I u → apply u e = some v → f u e = some e' →
      apply' (p u) e' = some (p v)) :
    I t ∧ Run (Step apply') (p s) (history.filterMap (part p f)) (p t) := by
  refine run.history_invariant
    (I := fun history t => I t ∧ Run (Step apply') (p s) (history.filterMap (part p f)) (p t))
    ⟨h0, .nil _⟩ ?_
  rintro history u ⟨_, e⟩ v ⟨hu, ih⟩ ⟨happly⟩
  refine ⟨hI u e v hu happly, ?_⟩
  rw [List.filterMap_append]
  cases hf : f u e with
  | none =>
    have hpart : part p f ⟨u, e⟩ = none := by simp [part, hf]
    rw [List.filterMap_cons_none hpart, List.filterMap_nil, List.append_nil,
      hother u e v hu happly hf]
    exact ih
  | some e' =>
    have hpart : part p f ⟨u, e⟩ = some ⟨p u, e'⟩ := by simp [part, hf]
    rw [List.filterMap_cons_some hpart, List.filterMap_nil]
    exact ih.snoc (.mk (hown u e v e' hu happly hf))

/-- Where the history of a part is cut, the history is cut. -/
lemma cut_filterMap {α β : Type} {g : α → Option β} {l : List α} {l₁ l₂ : List β} {b : β}
    (h : l.filterMap g = l₁ ++ b :: l₂) :
    ∃ before a after, l = before ++ a :: after ∧ before.filterMap g = l₁ ∧ g a = some b ∧
      after.filterMap g = l₂ := by
  obtain ⟨first, rest, rfl, hfirst, hrest⟩ := List.filterMap_eq_append_iff.mp h
  obtain ⟨none, a, after, rfl, hnone, ha, hafter⟩ := List.filterMap_eq_cons_iff.mp hrest
  refine ⟨first ++ none, a, after, (List.append_assoc ..).symm, ?_, ha, hafter⟩
  rw [List.filterMap_append, hfirst, List.filterMap_eq_nil_iff.mpr hnone, List.append_nil]

/-- An order of three steps, cut at the second. -/
lemma cut_order {α : Type} {l : List α} {a b c : α} (h : [a, b, c].Sublist l) :
    ∃ before after, l = before ++ b :: after ∧ a ∈ before ∧ c ∈ after := by
  obtain ⟨first, rest, rfl, ha, hrest⟩ := List.cons_sublist_iff.mp h
  obtain ⟨second, last, rfl, hb, hlast⟩ := List.cons_sublist_iff.mp hrest
  obtain ⟨left, right, rfl⟩ := List.append_of_mem hb
  refine ⟨first ++ left, right ++ last, by simp, List.mem_append_left _ ha, ?_⟩
  exact List.mem_append_right _ (List.singleton_sublist.mp hlast)

end Parts

/-! ### Flags -/

section Flags

variable {ι : Type*} {flag : Bool} {holds holds' : ι → Prop}

/-- A flag is set while somebody holds it, and only one does. -/
structure Exclusive (flag : Bool) (holds : ι → Prop) : Prop where
  set : ∀ i, holds i → flag = true
  unique : ∀ i j, holds i → holds j → i = j

namespace Exclusive

lemma keep (h : Exclusive flag holds) (hsub : ∀ i, holds' i → holds i) : Exclusive flag holds' :=
  ⟨fun i hi => h.set i (hsub i hi), fun i j hi hj => h.unique i j (hsub i hi) (hsub j hj)⟩

/-- Somebody takes a flag that is not set. -/
lemma acquire (h : Exclusive false holds) (i : ι) (hnew : ∀ j, holds' j → j = i ∨ holds j) :
    Exclusive true holds' := by
  have honly : ∀ j, holds' j → j = i := by
    intro j hj
    rcases hnew j hj with rfl | hj
    · rfl
    · cases h.set j hj
  exact ⟨fun _ _ => rfl, fun j k hj hk => (honly j hj).trans (honly k hk).symm⟩

/-- Whoever holds a flag lets it go. -/
lemma release (h : Exclusive flag holds) {i : ι} (hi : holds i)
    (hnew : ∀ j, holds' j → holds j ∧ j ≠ i) : Exclusive false holds' := by
  have hnone : ∀ j, ¬ holds' j := by
    intro j hj
    obtain ⟨hj, hne⟩ := hnew j hj
    exact hne (h.unique j i hj hi)
  exact ⟨fun j hj => absurd hj (hnone j), fun j _ hj => absurd hj (hnone j)⟩

end Exclusive

end Flags

end Ladon.Lib.Machine

import Ladon.ProtocolWire

/-!
What the check before a frame is read accepts.

The check walks through a document with its depth and, in every object, with the keys that came
before. What it comes to is said of the whole document here: how deep it is, and that no object
anywhere in it has a key twice.
-/

namespace Ladon.Protocol

open Ladon.Error Ladon.Lib Ladon.Lib.Utf8
open Ladon.Lib.Json (Document Doubles)

/-! ### Nesting -/

mutual

/-- How deep arrays and objects lie in one another. -/
def nesting : Document → ℕ
  | .arr items => nestingItems items + 1
  | .obj members => nestingMembers members + 1
  | _ => 0

def nestingItems : List Document → ℕ
  | [] => 0
  | item :: rest => max (nesting item) (nestingItems rest)

def nestingMembers : List (Bytes × Document) → ℕ
  | [] => 0
  | (_, value) :: rest => max (nesting value) (nestingMembers rest)

end

lemma nestingItems_le_iff {items : List Document} {n : ℕ} :
    nestingItems items ≤ n ↔ ∀ j ∈ items, nesting j ≤ n := by
  induction items with
  | nil => simp [nestingItems]
  | cons j items ih => simp [nestingItems, ih]

lemma nestingMembers_le_iff {members : List (Bytes × Document)} {n : ℕ} :
    nestingMembers members ≤ n ↔ ∀ m ∈ members, nesting m.2 ≤ n := by
  induction members with
  | nil => simp [nestingMembers]
  | cons m members ih =>
    obtain ⟨key, value⟩ := m
    simp [nestingMembers, ih]

/-- A document that is found in another, at any level. -/
inductive Part (part : Document) : Document → Prop
  | whole : Part part part
  | item {items : List Document} {j : Document} (hj : j ∈ items) (h : Part part j) :
      Part part (.arr items)
  | member {members : List (Bytes × Document)} {m : Bytes × Document} (hm : m ∈ members)
      (h : Part part m.2) : Part part (.obj members)

/-- No object in the document has a key twice. -/
def DistinctKeys (d : Document) : Prop :=
  ∀ members, Part (.obj members) d → (members.map Prod.fst).Nodup

lemma distinctKeys_arr {items : List Document} :
    DistinctKeys (.arr items) ↔ ∀ j ∈ items, DistinctKeys j := by
  constructor
  · intro h j hj members hpart
    exact h members (.item hj hpart)
  · intro h members hpart
    cases hpart with
    | item hj hpart => exact h _ hj members hpart

lemma distinctKeys_obj {members : List (Bytes × Document)} :
    DistinctKeys (.obj members) ↔
      (members.map Prod.fst).Nodup ∧ ∀ m ∈ members, DistinctKeys m.2 := by
  constructor
  · intro h
    exact ⟨h members .whole, fun m hm inner hpart => h inner (.member hm hpart)⟩
  · rintro ⟨hnodup, h⟩ inner hpart
    cases hpart with
    | whole => exact hnodup
    | member hm hpart => exact h _ hm inner hpart

/-! ### The check -/

/-- The members of an object pass when their keys are new and different and their values pass. -/
lemma checkMembers_eq_true {depth : ℕ} {keys : List Bytes} {members : List (Bytes × Document)} :
    checkMembers depth keys members = true ↔ (members.map Prod.fst).Nodup ∧
      (∀ key ∈ keys, key ∉ members.map Prod.fst) ∧ ∀ m ∈ members, checkValue depth m.2 = true := by
  constructor
  · intro h
    obtain ⟨hnodup, hnew⟩ := nodup_of_checkMembers h
    refine ⟨hnodup, hnew, ?_⟩
    clear hnodup hnew
    induction members generalizing keys with
    | nil => simp
    | cons m members ih =>
      obtain ⟨key, value⟩ := m
      simp only [checkMembers, Bool.and_eq_true] at h
      rw [List.forall_mem_cons]
      exact ⟨h.1.2, ih h.2⟩
  · rintro ⟨hnodup, hnew, hvalues⟩
    induction members generalizing keys with
    | nil => rfl
    | cons m members ih =>
      obtain ⟨key, value⟩ := m
      rw [List.map_cons, List.nodup_cons] at hnodup
      rw [List.forall_mem_cons] at hvalues
      have hfresh : key ∉ keys := fun hmem => hnew key hmem (by simp)
      have hrest : checkMembers depth (key :: keys) members = true := by
        refine ih hnodup.2 (fun k hk => ?_) hvalues.2
        rcases List.mem_cons.mp hk with rfl | hk
        · exact hnodup.1
        · exact fun hmem => hnew k hk (by simp [hmem])
      simp [checkMembers, hfresh, hvalues.1, hrest]

/-- What the check of a value accepts at a depth. The induction is on a bound of the nesting, which
every part of a document is below. -/
lemma checkValue_iff {n : ℕ} {d : Document} (hn : nesting d < n) {depth : ℕ}
    (hdepth : depth ≤ maxJsonDepth) :
    checkValue depth d = true ↔ depth + nesting d ≤ maxJsonDepth ∧ DistinctKeys d := by
  induction n generalizing d depth with
  | zero => omega
  | succ n ih =>
    cases d with
    | arr items =>
      rw [nesting] at hn
      have hitems := nestingItems_le_iff.mp (Nat.le_refl (nestingItems items))
      rw [checkValue, Bool.and_eq_true, decide_eq_true_eq, nesting, distinctKeys_arr]
      constructor
      · rintro ⟨hlt, h⟩
        have hall := fun j hj => (ih (Nat.lt_of_le_of_lt (hitems j hj) (by omega)) hlt).mp
          (checkItems_eq_true.mp h j hj)
        have hle : nestingItems items ≤ maxJsonDepth - (depth + 1) :=
          nestingItems_le_iff.mpr fun j hj => by have := (hall j hj).1; omega
        exact ⟨by omega, fun j hj => (hall j hj).2⟩
      · rintro ⟨hle, hkeys⟩
        refine ⟨by omega, checkItems_eq_true.mpr fun j hj => ?_⟩
        have hj' := hitems j hj
        exact (ih (by omega) (by omega)).mpr ⟨by omega, hkeys j hj⟩
    | obj members =>
      rw [nesting] at hn
      have hmembers := nestingMembers_le_iff.mp (Nat.le_refl (nestingMembers members))
      rw [checkValue, Bool.and_eq_true, decide_eq_true_eq, checkMembers_eq_true, nesting,
        distinctKeys_obj]
      constructor
      · rintro ⟨hlt, hnodup, -, h⟩
        have hall := fun m hm => (ih (Nat.lt_of_le_of_lt (hmembers m hm) (by omega)) hlt).mp (h m hm)
        have hle : nestingMembers members ≤ maxJsonDepth - (depth + 1) :=
          nestingMembers_le_iff.mpr fun m hm => by have := (hall m hm).1; omega
        exact ⟨by omega, hnodup, fun m hm => (hall m hm).2⟩
      · rintro ⟨hle, hnodup, hkeys⟩
        refine ⟨by omega, hnodup, by simp, fun m hm => ?_⟩
        have hm' := hmembers m hm
        exact (ih (by omega) (by omega)).mpr ⟨by omega, hkeys m hm⟩
    | null => exact iff_of_true rfl ⟨hdepth, fun _ h => by cases h⟩
    | bool b => exact iff_of_true rfl ⟨hdepth, fun _ h => by cases h⟩
    | num m => exact iff_of_true rfl ⟨hdepth, fun _ h => by cases h⟩
    | float text => exact iff_of_true rfl ⟨hdepth, fun _ h => by cases h⟩
    | str s => exact iff_of_true rfl ⟨hdepth, fun _ h => by cases h⟩

section Documents

variable [Doubles]

/-- **The check accepts exactly the documents without duplicates that are not too deep.** -/
theorem validateJsonDocument_ok_iff (input : Bytes) :
    validateJsonDocument input = .ok () ↔
      ∃ d, Json.parse input = some d ∧ nesting d ≤ maxJsonDepth ∧ DistinctKeys d := by
  have hcheck : ∀ d, checkValue 0 d = true ↔ nesting d ≤ maxJsonDepth ∧ DistinctKeys d := by
    intro d
    rw [checkValue_iff (Nat.lt_succ_self _) (Nat.zero_le _), Nat.zero_add]
  have hsome : (checkedDocument input).isSome = true ↔
      ∃ d, Json.parse input = some d ∧ checkValue 0 d = true := by
    rw [checkedDocument, Option.isSome_iff_exists]
    simp only [Option.filter_eq_some_iff]
  rw [validateJsonDocument]
  split
  · next h =>
    obtain ⟨d, hd, hd'⟩ := hsome.mp h
    exact iff_of_true rfl ⟨d, hd, (hcheck d).mp hd'⟩
  · next h =>
    refine iff_of_false (by simp) ?_
    rintro ⟨d, hd, hd'⟩
    exact h (hsome.mpr ⟨d, hd, (hcheck d).mpr hd'⟩)

end Documents

-- one key twice, spelled in two ways
example : letI := Json.noDoubles
    validateJsonDocument (ofString "[\x7b\"a\":1,\"\\u0061\":2\x7d]") = .error .invalidRequest := by
  decide +kernel

end Ladon.Protocol

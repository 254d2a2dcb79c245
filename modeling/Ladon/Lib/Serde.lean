import Ladon.Lib.JsonParse
import Mathlib.Data.List.Sort

/-!
Structs and enumerations read from documents, as derived readers do.

A struct is read from an object, each field by its name, or from an array, each in its turn.
An enumeration with its tag inside is read from an object with the tag among the fields, or from an
array with the tag in front. Where fields are flattened into their parent, what is read has been held
in memory first, and there tags are read more freely. Objects here have no key twice.
-/

namespace Ladon.Lib.Serde

open Ladon.Lib.Json Ladon.Lib.Utf8

/-- The member of an object under a name. -/
def lookup (name : String) (members : List (Bytes × Document)) : Option Document :=
  (members.find? fun m => m.1 = ofString name).map Prod.snd

/-- Where a field is read from: a document; an object that lacks it; an array that ends before
it. -/
inductive Slot
  | given (d : Document)
  | absent
  | cut

def slot (members : List (Bytes × Document)) (name : String) : Slot :=
  match lookup name members with
  | some d => .given d
  | none => .absent

/-- The fields of a struct; a strict one has no others. -/
def slots (strict : Bool) (names : List String) : Document → Option (List Slot)
  | .obj members =>
    if strict ∧ ¬ ∀ m ∈ members, m.1 ∈ names.map ofString then none
    else some (names.map (slot members))
  | .arr items =>
    if names.length < items.length then none
    else some (items.map .given ++ List.replicate (names.length - items.length) .cut)
  | _ => none

/-- The tag of an enumeration, and the document with the fields of the variant. -/
def tagged (name : String) : Document → Option (Document × Document)
  | .obj members =>
    (lookup name members).map fun tag => (tag, .obj (members.filter fun m => m.1 ≠ ofString name))
  | .arr (tag :: items) => some (tag, .arr items)
  | _ => none

mutual

/-- A document with the members of its objects in the order of their keys. -/
def ordered : Document → Document
  | .arr items => .arr (orderedItems items)
  | .obj members => .obj ((orderedMembers members).insertionSort fun a b => ¬ b.1 < a.1)
  | d => d

def orderedItems : List Document → List Document
  | [] => []
  | item :: rest => ordered item :: orderedItems rest

def orderedMembers : List (Bytes × Document) → List (Bytes × Document)
  | [] => []
  | (key, value) :: rest => (key, ordered value) :: orderedMembers rest

end

section Readers

variable {α : Type}

def required (read : Document → Option α) : Slot → Option α
  | .given d => read d
  | _ => none

def nullable (read : Document → Option α) : Document → Option (Option α)
  | .null => some none
  | d => (read d).map some

def optional (read : Document → Option α) : Slot → Option (Option α)
  | .given d => nullable read d
  | .absent => some none
  | .cut => none

def defaulted (read : Document → Option α) (a : α) : Slot → Option α
  | .given d => read d
  | _ => some a

def array (read : Document → Option α) : Document → Option (List α)
  | .arr items => items.mapM read
  | _ => none

def bytes : Document → Option Bytes
  | .str s => some s
  | _ => none

def string : Document → Option String
  | .str s => toString? s
  | _ => none

def boolean : Document → Option Bool
  | .bool b => some b
  | _ => none

/-- A number without a sign, the largest of its type at most. -/
def unsigned (max : ℕ) : Document → Option ℕ
  | .num n => if 0 ≤ n ∧ n ≤ max then some n.toNat else none
  | _ => none

/-- A number with a sign, the largest of its type at most. -/
def signed (max : ℤ) : Document → Option ℤ
  | .num n => if -max - 1 ≤ n ∧ n ≤ max then some n else none
  | _ => none

def uuid : Document → Option Uuid
  | .str s => Uuid.parse s
  | _ => none

/-- An enumeration without fields: a name, or an object that has the name for its only key. -/
def variant : Document → Option String
  | .str s => toString? s
  | .obj [(name, .null)] => toString? name
  | _ => none

/-- The same in a document that was held in memory, where an object without members passes for
nothing. -/
def heldVariant : Document → Option String
  | .obj [(name, .obj [])] => toString? name
  | d => variant d

/-- A tag inside a document that was held in memory: one of the names, or its place among them. -/
def heldTag (names : List String) : Document → Option String
  | .num n => if 0 ≤ n then names[n.toNat]? else none
  | d => string d

/-- Whether a variant without fields takes what is beside its tag: members are passed over, items
are not. -/
def fieldless : Document → Bool
  | .arr (_ :: _) => false
  | _ => true

end Readers

/-! ### What was written is read -/

lemma ofString_inj {s t : String} : ofString s = ofString t ↔ s = t := by
  refine ⟨fun h => ?_, congrArg _⟩
  have := congrArg toString? h
  rwa [toString?_ofString, toString?_ofString, Option.some.injEq] at this

@[simp] lemma lookup_nil (name : String) : lookup name [] = none := rfl

@[simp] lemma lookup_cons (name key : String) (d : Document) (rest : List (Bytes × Document)) :
    lookup name ((ofString key, d) :: rest) = if key = name then some d else lookup name rest := by
  by_cases h : key = name
  · subst h
    simp [lookup]
  · have hne : ¬ ofString key = ofString name := mt ofString_inj.mp h
    simp [lookup, h, hne]

@[simp] lemma string_ofString (s : String) : string (.str (ofString s)) = some s :=
  toString?_ofString s

@[simp] lemma heldVariant_ofString (s : String) : heldVariant (.str (ofString s)) = some s :=
  toString?_ofString s

@[simp] lemma heldTag_ofString (names : List String) (s : String) :
    heldTag names (.str (ofString s)) = some s := toString?_ofString s

@[simp] lemma uuid_display (u : Uuid) : uuid (.str u.display) = some u := Uuid.parse_display u

lemma unsigned_num {max n : ℕ} (h : n ≤ max) : unsigned max (.num n) = some n := by
  have hn : (0 : ℤ) ≤ n ∧ (n : ℤ) ≤ max := by omega
  rw [unsigned, if_pos hn, Int.toNat_natCast]

lemma array_map {α : Type} {read : Document → Option α} {write : α → Document} {l : List α}
    (h : ∀ a ∈ l, read (write a) = some a) : array read (.arr (l.map write)) = some l := by
  rw [array]
  induction l with
  | nil => rfl
  | cons a l ih =>
    rw [List.map_cons, List.mapM_cons, h a List.mem_cons_self,
      ih fun a ha => h a (List.mem_cons_of_mem _ ha)]
    rfl

/-! ### Order -/

lemma orderedItems_eq_map (items : List Document) : orderedItems items = items.map ordered := by
  induction items with
  | nil => rfl
  | cons item items ih => rw [orderedItems, ih, List.map_cons]

lemma orderedMembers_eq_map (members : List (Bytes × Document)) :
    orderedMembers members = members.map fun m => (m.1, ordered m.2) := by
  induction members with
  | nil => rfl
  | cons m members ih => rw [orderedMembers, ih, List.map_cons]

lemma graphic_ordered {d : Document} (h : Graphic d) : Graphic (ordered d) := by
  induction h with
  | null => exact .null
  | bool b => exact .bool b
  | num n => exact .num n
  | float h => exact .float h
  | str s => exact .str s
  | arr h ih =>
    rw [ordered, orderedItems_eq_map]
    exact .arr (by simpa using ih)
  | obj h ih =>
    rw [ordered, orderedMembers_eq_map]
    refine .obj fun m hm => ?_
    obtain ⟨e, he, rfl⟩ := List.mem_map.mp ((List.mem_insertionSort _).mp hm)
    exact ih e he

/-- Where no key comes twice, what is found under a name is what is there. -/
lemma lookup_eq_some_iff {members : List (Bytes × Document)} (h : (members.map Prod.fst).Nodup)
    {name : String} {d : Document} : lookup name members = some d ↔ (ofString name, d) ∈ members := by
  induction members with
  | nil => simp
  | cons m members ih =>
    obtain ⟨key, e⟩ := m
    rw [List.map_cons, List.nodup_cons] at h
    by_cases hkey : key = ofString name
    · subst hkey
      have hnot : (ofString name, d) ∉ members := fun hmem =>
        h.1 (List.mem_map.mpr ⟨_, hmem, rfl⟩)
      simp [lookup, hnot, eq_comm]
    · have hcons : lookup name ((key, e) :: members) = lookup name members := by
        simp [lookup, hkey]
      rw [hcons, ih h.2]
      simp [Ne.symm hkey]

lemma lookup_ordered {members : List (Bytes × Document)} (h : (members.map Prod.fst).Nodup)
    (name : String) :
    lookup name ((orderedMembers members).insertionSort fun a b => ¬ b.1 < a.1) =
      (lookup name members).map ordered := by
  have hperm := List.perm_insertionSort (fun a b : Bytes × Document => ¬ b.1 < a.1)
    (orderedMembers members)
  have hkeys : (orderedMembers members).map Prod.fst = members.map Prod.fst := by
    rw [orderedMembers_eq_map, List.map_map]
    rfl
  have hnodup := (hperm.map Prod.fst).nodup_iff.mpr (hkeys ▸ h)
  refine Option.ext fun d => ?_
  rw [lookup_eq_some_iff hnodup, hperm.mem_iff, orderedMembers_eq_map, Option.map_eq_some_iff]
  simp only [List.mem_map, Prod.mk.injEq, lookup_eq_some_iff h]
  constructor
  · rintro ⟨⟨key, e⟩, hm, rfl, rfl⟩
    exact ⟨e, hm, rfl⟩
  · rintro ⟨e, hm, rfl⟩
    exact ⟨_, hm, rfl, rfl⟩

end Ladon.Lib.Serde

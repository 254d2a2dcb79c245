import Ladon.Lib.Digits
import Ladon.Lib.Utf8

/-!
JSON documents and their compact text.

Strings are their UTF-8 bytes. A quote or a backslash, and the five control characters that
have a short form, are written with two bytes; any other byte below `0x20` is written with
six; every other byte is written as it is.
-/

namespace Ladon.Lib.Json

open Ladon.Lib.Digits Ladon.Lib.Utf8

/-- The letter of the short escape of a byte, where it has one. -/
def shortEscape (b : UInt8) : Option UInt8 :=
  if b = 0x22 then some 0x22
  else if b = 0x5C then some 0x5C
  else if b = 0x08 then some 0x62
  else if b = 0x09 then some 0x74
  else if b = 0x0A then some 0x6E
  else if b = 0x0C then some 0x66
  else if b = 0x0D then some 0x72
  else none

def escapeByte (b : UInt8) : Bytes :=
  match shortEscape b with
  | some c => [0x5C, c]
  | none => if b < 0x20 then [0x5C, 0x75, 0x30, 0x30] ++ hexByte false b else [b]

/-- A string without its quotes. -/
def escape (s : Bytes) : Bytes := s.flatMap escapeByte

/-- A string. -/
def quoted (s : Bytes) : Bytes := 0x22 :: (escape s ++ [0x22])

/-- The number of bytes a byte is written with. -/
def byteCost (b : UInt8) : ℕ :=
  match shortEscape b with
  | some _ => 2
  | none => if b < 0x20 then 6 else 1

/-- The number of bytes a string is written with, its quotes apart. -/
def cost (s : Bytes) : ℕ := (s.map byteCost).sum

lemma length_escapeByte (b : UInt8) : (escapeByte b).length = byteCost b := by
  unfold escapeByte byteCost
  split
  · rfl
  · split <;> simp [hexByte]

lemma length_escape (s : Bytes) : (escape s).length = cost s := by
  induction s with
  | nil => rfl
  | cons b t ih =>
    simp only [escape, cost, List.flatMap_cons, List.length_append, List.map_cons,
      List.sum_cons] at ih ⊢
    rw [length_escapeByte, ih]

lemma byteCost_pos (b : UInt8) : 1 ≤ byteCost b := by
  unfold byteCost
  split
  · omega
  · split <;> omega

@[simp] lemma cost_nil : cost [] = 0 := rfl
@[simp] lemma cost_cons (b : UInt8) (t : Bytes) : cost (b :: t) = byteCost b + cost t := rfl

lemma cost_append (s t : Bytes) : cost (s ++ t) = cost s + cost t := by simp [cost]

lemma length_le_cost (s : Bytes) : s.length ≤ cost s := by
  induction s with
  | nil => simp
  | cons b t ih => have := byteCost_pos b; simp only [List.length_cons, cost_cons]; omega

lemma escape_ne_nil {s : Bytes} (h : s ≠ []) : escape s ≠ [] := by
  have h1 := length_le_cost s
  have h2 : 0 < s.length := List.length_pos_iff.mpr h
  rw [← length_escape] at h1
  exact List.length_pos_iff.mp (by omega)

@[simp] lemma length_quoted (s : Bytes) : (quoted s).length = cost s + 2 := by
  simp [quoted, length_escape]

/-! ### Documents -/

/-- The members of an object are in the order they are written in. A number that is not an integer
is the text it is written with. -/
inductive Document
  | null
  | bool (b : Bool)
  | num (n : ℤ)
  | float (text : Bytes)
  | str (s : Bytes)
  | arr (items : List Document)
  | obj (members : List (Bytes × Document))

/-- A number, with its sign where it is negative. -/
def integer (n : ℤ) : Bytes := if n < 0 then 0x2D :: decimal n.natAbs else decimal n.natAbs

mutual

/-- The compact text of a document. -/
def render : Document → Bytes
  | .null => ofString "null"
  | .bool b => if b then ofString "true" else ofString "false"
  | .num n => integer n
  | .float text => text
  | .str s => quoted s
  | .arr items => 0x5B :: (renderItems items ++ [0x5D])
  | .obj members => 0x7B :: (renderMembers members ++ [0x7D])

/-- The items of an array, with commas between them. -/
def renderItems : List Document → Bytes
  | [] => []
  | [j] => render j
  | j :: k :: rest => render j ++ 0x2C :: renderItems (k :: rest)

/-- The members of an object, with commas between them. -/
def renderMembers : List (Bytes × Document) → Bytes
  | [] => []
  | [(key, j)] => quoted key ++ 0x3A :: render j
  | (key, j) :: m :: rest => quoted key ++ 0x3A :: (render j ++ 0x2C :: renderMembers (m :: rest))

end

lemma length_render_null : (render .null).length = 4 := by rw [render]; decide

lemma length_render_bool (b : Bool) : (render (.bool b)).length = if b then 4 else 5 := by
  cases b <;> rw [render] <;> decide

lemma length_render_str (s : Bytes) : (render (.str s)).length = cost s + 2 := by
  rw [render, length_quoted]

lemma length_render_nat (n : ℕ) : (render (.num n)).length = (decimal n).length := by
  rw [render, integer, if_neg (by omega), Int.natAbs_natCast]

lemma length_renderItems : ∀ items : List Document, (renderItems items).length =
    (items.map fun j => (render j).length).sum + (items.length - 1)
  | [] => rfl
  | [j] => by simp [renderItems]
  | j :: k :: rest => by
    have ih := length_renderItems (k :: rest)
    simp only [renderItems, List.length_append, List.length_cons, ih, List.map_cons, List.sum_cons]
    omega

/-- An array is its items, a comma between each two, and the brackets. -/
lemma length_render_arr (items : List Document) :
    (render (.arr items)).length =
      (items.map fun j => (render j).length).sum + (items.length - 1) + 2 := by
  simp only [render, List.length_cons, List.length_append, List.length_nil, length_renderItems]

lemma length_renderMembers : ∀ members : List (Bytes × Document), (renderMembers members).length =
    (members.map fun m => cost m.1 + 3 + (render m.2).length).sum + (members.length - 1)
  | [] => rfl
  | [(key, j)] => by
    simp only [renderMembers, List.length_append, List.length_cons, length_quoted, List.map_cons,
      List.map_nil, List.sum_cons, List.sum_nil, List.length_nil]
    omega
  | (key, j) :: m :: rest => by
    have ih := length_renderMembers (m :: rest)
    simp only [renderMembers, List.length_append, List.length_cons, length_quoted, ih,
      List.map_cons, List.sum_cons]
    omega

/-- An object is its keys and values, a colon in each member, a comma between each two, and the
braces. -/
lemma length_render_obj (members : List (Bytes × Document)) :
    (render (.obj members)).length =
      (members.map fun m => cost m.1 + 3 + (render m.2).length).sum + (members.length - 1) + 2 := by
  simp only [render, List.length_cons, List.length_append, List.length_nil, length_renderMembers]

end Ladon.Lib.Json

import Ladon.Lib.Fault
import Mathlib.Data.String.Basic

/-!
Texts cut at offsets in bytes.

A text is its characters; an offset counts the bytes that they take up in UTF-8. An offset between
two characters is a boundary, and only there a text can be cut: a part taken elsewhere, or one that
ends before it starts, is a fault.
-/

namespace Ladon.Lib.Slice

open String (utf8Len utf8Len_nil utf8Len_cons utf8Len_append utf8Len_eq_zero)

abbrev Text := List Char

/-- Of two cuts of one text, the one further left leaves less before it. -/
lemma prefix_of_utf8Len_le {u v w x : Text} (h : u ++ v = w ++ x) (hle : utf8Len u ≤ utf8Len w) :
    u <+: w := by
  rcases List.append_eq_append_iff.mp h with ⟨m, hm, -⟩ | ⟨m, hm, -⟩
  · exact ⟨m, hm.symm⟩
  · have hnil : m = [] := by
      rw [hm, utf8Len_append] at hle
      exact utf8Len_eq_zero.mp (by omega)
    rw [hm, hnil, List.append_nil]

/-! ### Boundaries -/

/-- What stands before an offset and what after, where it is a boundary. -/
def splitAt : Text → ℕ → Option (Text × Text)
  | text, 0 => some ([], text)
  | [], _ + 1 => none
  | c :: text, n + 1 =>
    if c.utf8Size ≤ n + 1 then
      (splitAt text (n + 1 - c.utf8Size)).map fun p => (c :: p.1, p.2)
    else none

lemma splitAt_append (u v : Text) : splitAt (u ++ v) (utf8Len u) = some (u, v) := by
  induction u with
  | nil => cases v <;> rfl
  | cons c u ih =>
    obtain ⟨n, hn⟩ : ∃ n, utf8Len u + c.utf8Size = n + 1 :=
      ⟨utf8Len u + c.utf8Size - 1, by have := c.utf8Size_pos; omega⟩
    have hle : c.utf8Size ≤ n + 1 := by omega
    have hrest : n + 1 - c.utf8Size = utf8Len u := by omega
    rw [List.cons_append, utf8Len_cons, hn, splitAt, if_pos hle, hrest, ih]
    rfl

lemma splitAt_eq_some {text u v : Text} {n : ℕ} :
    splitAt text n = some (u, v) ↔ text = u ++ v ∧ utf8Len u = n := by
  constructor
  · intro h
    induction text, n using splitAt.induct generalizing u v with
    | case1 text => cases text <;> cases h <;> exact ⟨rfl, rfl⟩
    | case2 n => cases h
    | case3 c text n hle ih =>
      rw [splitAt, if_pos hle] at h
      obtain ⟨⟨u', v'⟩, hrest, hp⟩ := Option.map_eq_some_iff.mp h
      cases hp
      obtain ⟨htext, hlen⟩ := ih hrest
      refine ⟨by rw [htext, List.cons_append], ?_⟩
      rw [utf8Len_cons, hlen]
      omega
    | case4 c text n hle =>
      rw [splitAt, if_neg hle] at h
      cases h
  · rintro ⟨rfl, rfl⟩
    exact splitAt_append u v

def IsCharBoundary (text : Text) (n : ℕ) : Prop := ∃ u v, text = u ++ v ∧ utf8Len u = n

lemma isSome_splitAt {text : Text} {n : ℕ} : (splitAt text n).isSome ↔ IsCharBoundary text n := by
  rw [Option.isSome_iff_exists]
  constructor
  · rintro ⟨⟨u, v⟩, h⟩
    exact ⟨u, v, splitAt_eq_some.mp h⟩
  · rintro ⟨u, v, h⟩
    exact ⟨(u, v), splitAt_eq_some.mpr h⟩

instance (text : Text) (n : ℕ) : Decidable (IsCharBoundary text n) :=
  decidable_of_iff _ isSome_splitAt

lemma isCharBoundary_zero (text : Text) : IsCharBoundary text 0 := ⟨[], text, rfl, rfl⟩

lemma IsCharBoundary.le {text : Text} {n : ℕ} (h : IsCharBoundary text n) : n ≤ utf8Len text := by
  obtain ⟨u, v, rfl, rfl⟩ := h
  rw [utf8Len_append]
  omega

/-! ### Slices -/

/-- The offsets `start..stop`. -/
structure Span where
  start : ℕ
  stop : ℕ
  deriving DecidableEq

/-- The span is not empty and lies between two boundaries of the text. -/
structure Span.Within (text : Text) (span : Span) : Prop where
  lt : span.start < span.stop
  start : IsCharBoundary text span.start
  stop : IsCharBoundary text span.stop

def Span.Overlaps (a b : Span) : Prop := a.start < b.stop ∧ b.start < a.stop

instance (a b : Span) : Decidable (a.Overlaps b) := inferInstanceAs (Decidable (_ ∧ _))

/-- The part `text[start..stop]`. -/
def slice (text : Text) (start stop : ℕ) : Except Fault Text :=
  match splitAt text stop with
  | none => .error .outOfRange
  | some (upto, _) =>
    match splitAt upto start with
    | none => .error .outOfRange
    | some (_, part) => .ok part

/-- The part `text[start..]`. -/
def sliceFrom (text : Text) (start : ℕ) : Except Fault Text := slice text start (utf8Len text)

/-- The part of a text that a span stands for. -/
def Span.of (text : Text) (span : Span) : Except Fault Text := slice text span.start span.stop

lemma slice_append (u v w : Text) :
    slice (u ++ (v ++ w)) (utf8Len u) (utf8Len u + utf8Len v) = .ok v := by
  rw [slice, ← utf8Len_append, ← List.append_assoc, splitAt_append]
  simp only [splitAt_append]

lemma sliceFrom_append (u v : Text) : sliceFrom (u ++ v) (utf8Len u) = .ok v := by
  have h := slice_append u v []
  rwa [List.append_nil, ← utf8Len_append] at h

lemma slice_eq_ok {text part : Text} {start stop : ℕ} : slice text start stop = .ok part ↔
    ∃ u w, text = u ++ (part ++ w) ∧ utf8Len u = start ∧ start + utf8Len part = stop := by
  constructor
  · intro h
    unfold slice at h
    split at h
    · cases h
    · next upto w hstop =>
      split at h
      · cases h
      · next u part' hstart =>
        cases h
        obtain ⟨htext, hlen⟩ := splitAt_eq_some.mp hstop
        obtain ⟨hupto, hu⟩ := splitAt_eq_some.mp hstart
        refine ⟨u, w, by rw [htext, hupto, List.append_assoc], hu, ?_⟩
        rw [← hlen, hupto, utf8Len_append, hu]
  · rintro ⟨u, w, rfl, rfl, rfl⟩
    exact slice_append u part w

/-- A part between two boundaries, the first of them not behind the second, is there. -/
lemma slice_of_boundaries {text : Text} {start stop : ℕ} (hle : start ≤ stop)
    (hstart : IsCharBoundary text start) (hstop : IsCharBoundary text stop) :
    ∃ u part w, text = u ++ (part ++ w) ∧ utf8Len u = start ∧ utf8Len (u ++ part) = stop ∧
      slice text start stop = .ok part := by
  obtain ⟨u, v, htext, hu⟩ := hstart
  obtain ⟨x, w, htext', hx⟩ := hstop
  obtain ⟨part, rfl⟩ := prefix_of_utf8Len_le (htext.symm.trans htext') (by rw [hu, hx]; exact hle)
  rw [List.append_assoc] at htext'
  refine ⟨u, part, w, htext', hu, hx, slice_eq_ok.mpr ⟨u, w, htext', hu, ?_⟩⟩
  rw [← hx, utf8Len_append, hu]

/-! ### Searching -/

/-- The offset of the first occurrence of a character. -/
def find (c : Char) : Text → Option ℕ
  | [] => none
  | d :: text => if d = c then some 0 else (find c text).map (· + d.utf8Size)

/-- The offset of the last occurrence of a character. -/
def rfind (c : Char) : Text → Option ℕ
  | [] => none
  | d :: text =>
    match rfind c text with
    | some n => some (n + d.utf8Size)
    | none => if d = c then some 0 else none

lemma find_eq_some {c : Char} {text : Text} {n : ℕ} (h : find c text = some n) :
    ∃ u v, text = u ++ c :: v ∧ utf8Len u = n := by
  induction text generalizing n with
  | nil => cases h
  | cons d text ih =>
    unfold find at h
    split_ifs at h with hd
    · cases h
      exact ⟨[], text, by rw [hd]; rfl, rfl⟩
    · obtain ⟨m, hm, rfl⟩ := Option.map_eq_some_iff.mp h
      obtain ⟨u, v, rfl, rfl⟩ := ih hm
      exact ⟨d :: u, v, rfl, utf8Len_cons d u⟩

lemma rfind_eq_some {c : Char} {text : Text} {n : ℕ} (h : rfind c text = some n) :
    ∃ u v, text = u ++ c :: v ∧ utf8Len u = n := by
  induction text generalizing n with
  | nil => cases h
  | cons d text ih =>
    unfold rfind at h
    split at h
    · next m hm =>
      cases h
      obtain ⟨u, v, rfl, rfl⟩ := ih hm
      exact ⟨d :: u, v, rfl, utf8Len_cons d u⟩
    · split_ifs at h with hd
      cases h
      exact ⟨[], text, by rw [hd]; rfl, rfl⟩

/-! ### Lines -/

/-- The lines of a text, each with the character that ends it. -/
def splitInclusive (c : Char) : Text → List Text
  | [] => []
  | d :: text =>
    if d = c then [d] :: splitInclusive c text
    else
      match splitInclusive c text with
      | [] => [[d]]
      | line :: lines => (d :: line) :: lines

lemma flatten_splitInclusive (c : Char) (text : Text) : (splitInclusive c text).flatten = text := by
  induction text with
  | nil => rfl
  | cons d text ih =>
    unfold splitInclusive
    split_ifs with hd
    · rw [List.flatten_cons, ih]
      rfl
    · split
      · next h =>
        rw [h] at ih
        rw [← ih]
        rfl
      · next line lines h =>
        rw [h] at ih
        rw [← ih]
        rfl

def stripSuffix (c : Char) (text : Text) : Option Text :=
  if text.getLast? = some c then some text.dropLast else none

/-- The lines of a text without what ends them, a line feed and a carriage return before it. -/
def lines (text : Text) : List Text :=
  (splitInclusive '\n' text).map fun line =>
    match stripSuffix '\n' line with
    | none => line
    | some line => (stripSuffix '\r' line).getD line

end Ladon.Lib.Slice

import Ladon.Lib.Cbor

/-!
CBOR data items and their deterministic encoding.

An item is a tree of integers, strings, tags, arrays, maps and simple values. Its deterministic
encoding has the shortest heads, definite lengths only, and the keys of every map in the order of
their encodings, the shorter first. Encodings are free of prefixes, so a word is the encoding of
one item at most.
-/

namespace Ladon.Lib.Cbor

open Ladon.Lib.Utf8 Ladon.Lib.Word

/-! ### Sizes -/

lemma readBe_lt {k n : ℕ} {w rest : Bytes} (h : readBe k w = some (n, rest)) : n < 256 ^ k := by
  unfold readBe at h
  split at h
  · next hle =>
    cases h
    have := ofBe_lt (w.take k)
    rwa [List.length_take, Nat.min_eq_left hle] at this
  · cases h

lemma argument_le {info n : ℕ} {w rest : Bytes} (h : argument info w = some (n, rest)) :
    n ≤ u64Max := by
  unfold argument at h
  simp only [u64Max]
  split_ifs at h
  · cases h; omega
  · have := readBe_lt h; omega
  · have := readBe_lt h; omega
  · have := readBe_lt h; omega
  · have := readBe_lt h; omega

lemma readHead_le {w rest : Bytes} {major n : ℕ} (h : readHead w = some (major, n, rest)) :
    n ≤ u64Max := by
  rcases w with _ | ⟨b, t⟩
  · cases h
  · rw [readHead, Option.map_eq_some_iff] at h
    obtain ⟨⟨m, r⟩, ha, he⟩ := h
    cases he
    exact argument_le ha

lemma plain_le {w rest : Bytes} {major n : ℕ} (h : plain major w = some (n, rest)) :
    n ≤ u64Max := by
  obtain ⟨u, hu, hz⟩ := plain_eq_some h
  exact readHead_le (hz rest)

lemma string_le {w b rest : Bytes} {major : ℕ} (h : string major w = some (b, rest)) :
    b.length ≤ u64Max := by
  unfold string at h
  split at h
  · next m n r hr =>
    have hle := readHead_le hr
    split at h
    · cases h
      rw [List.length_take]
      omega
    · cases h
  · cases h

lemma str_le {w rest : Bytes} {s : String} (h : str w = some (s, rest)) :
    (ofString s).length ≤ u64Max := by
  unfold str at h
  split at h
  · next b r hr =>
    obtain ⟨t, ht, he⟩ := Option.map_eq_some_iff.mp h
    cases he
    rw [ofString_of_toString? ht]
    exact string_le hr
  · cases h

/-! ### Items -/

/-- A data item; `negative n` is the number `-1 - n`. -/
inductive Item
  | unsigned (n : ℕ)
  | negative (n : ℕ)
  | bytes (b : Bytes)
  | text (s : String)
  | tag (n : ℕ) (item : Item)
  | array (items : List Item)
  | map (entries : List (Item × Item))
  | simple (n : ℕ)
  | bool (b : Bool)
  | null
  | undefined

namespace Item

mutual

def encode : Item → Bytes
  | .unsigned n => head 0 n
  | .negative n => head 1 n
  | .bytes b => head 2 b.length ++ b
  | .text s => head 3 (ofString s).length ++ ofString s
  | .tag n item => head 6 n ++ encode item
  | .array items => head 4 items.length ++ encodeItems items
  | .map entries => head 5 entries.length ++ encodeEntries entries
  | .simple n => if n < 20 then [initial 7 n] else [initial 7 24, UInt8.ofNat n]
  | .bool b => [initial 7 (if b then 21 else 20)]
  | .null => [initial 7 22]
  | .undefined => [initial 7 23]

def encodeItems : List Item → Bytes
  | [] => []
  | item :: rest => encode item ++ encodeItems rest

def encodeEntries : List (Item × Item) → Bytes
  | [] => []
  | (key, value) :: rest => encode key ++ (encode value ++ encodeEntries rest)

end

mutual

/-- The levels of an item; one that holds no other has one. -/
def levels : Item → ℕ
  | .tag _ item => levels item + 1
  | .array items => levelsItems items + 1
  | .map entries => levelsEntries entries + 1
  | _ => 1

def levelsItems : List Item → ℕ
  | [] => 0
  | item :: rest => max (levels item) (levelsItems rest)

def levelsEntries : List (Item × Item) → ℕ
  | [] => 0
  | (key, value) :: rest => max (max (levels key) (levels value)) (levelsEntries rest)

end

/-- Shorter keys come first, keys of one length in the order of their bytes. -/
def KeyBefore (a b : Bytes) : Prop := a.length < b.length ∨ a.length = b.length ∧ a < b

/-- Numbers and lengths that a head has room for, and keys that are strictly increasing. -/
inductive WellFormed : Item → Prop
  | unsigned {n : ℕ} (h : n ≤ u64Max) : WellFormed (.unsigned n)
  | negative {n : ℕ} (h : n ≤ u64Max) : WellFormed (.negative n)
  | bytes {b : Bytes} (h : b.length ≤ u64Max) : WellFormed (.bytes b)
  | text {s : String} (h : (ofString s).length ≤ u64Max) : WellFormed (.text s)
  | tag {n : ℕ} {item : Item} (h : n ≤ u64Max) (hitem : WellFormed item) : WellFormed (.tag n item)
  | array {items : List Item} (h : items.length ≤ u64Max) (hitems : ∀ i ∈ items, WellFormed i) :
      WellFormed (.array items)
  | map {entries : List (Item × Item)} (h : entries.length ≤ u64Max)
      (hkeys : ∀ e ∈ entries, WellFormed e.1) (hvalues : ∀ e ∈ entries, WellFormed e.2)
      (hsorted : entries.Pairwise fun a b => KeyBefore (encode a.1) (encode b.1)) :
      WellFormed (.map entries)
  | simple {n : ℕ} (h : n < 256) : WellFormed (.simple n)
  | bool (b : Bool) : WellFormed (.bool b)
  | null : WellFormed .null
  | undefined : WellFormed .undefined

lemma levelsItems_le_iff {items : List Item} {n : ℕ} :
    levelsItems items ≤ n ↔ ∀ i ∈ items, levels i ≤ n := by
  induction items with
  | nil => simp [levelsItems]
  | cons i items ih => simp [levelsItems, ih]

lemma levelsEntries_le_iff {entries : List (Item × Item)} {n : ℕ} :
    levelsEntries entries ≤ n ↔ ∀ e ∈ entries, levels e.1 ≤ n ∧ levels e.2 ≤ n := by
  induction entries with
  | nil => simp [levelsEntries]
  | cons e entries ih =>
    obtain ⟨key, value⟩ := e
    simp [levelsEntries, ih, and_assoc]

/-! ### The first byte -/

/-- The kind that the first byte tells. -/
def kind : Item → Datatype
  | .unsigned _ => .unsigned
  | .negative _ => .negative
  | .bytes _ => .bytes
  | .text _ => .string
  | .tag _ _ => .tag
  | .array _ => .array
  | .map _ => .map
  | .simple _ => .simple
  | .bool _ => .bool
  | .null => .null
  | .undefined => .undefined

/-- The kind of a major type. -/
def kindOf : ℕ → Datatype
  | 0 => .unsigned
  | 1 => .negative
  | 2 => .bytes
  | 3 => .string
  | 4 => .array
  | 5 => .map
  | _ => .tag

lemma datatype_cons (b : UInt8) (w : Bytes) : datatype (b :: w) = datatype [b] := rfl

lemma head_eq_cons (major n : ℕ) : ∃ info rest, info < 28 ∧ head major n = initial major info :: rest := by
  unfold head
  split_ifs with h
  · exact ⟨n, [], by omega, rfl⟩
  · exact ⟨24, _, by omega, rfl⟩
  · exact ⟨25, _, by omega, rfl⟩
  · exact ⟨26, _, by omega, rfl⟩
  · exact ⟨27, _, by omega, rfl⟩

lemma datatype_head {major : ℕ} (hm : major < 7) (n : ℕ) (z : Bytes) :
    datatype (head major n ++ z) = some (kindOf major) := by
  have hall : ∀ major < 7, ∀ info < 28, datatype [initial major info] = some (kindOf major) := by
    decide
  obtain ⟨info, rest, hi, heq⟩ := head_eq_cons major n
  rw [heq, List.cons_append, datatype_cons, hall major hm info hi]

lemma datatype_encode {i : Item} (h : WellFormed i) (z : Bytes) :
    datatype (encode i ++ z) = some (kind i) := by
  cases h with
  | unsigned h => rw [encode, datatype_head (by omega)]; rfl
  | negative h => rw [encode, datatype_head (by omega)]; rfl
  | bytes h => rw [encode, List.append_assoc, datatype_head (by omega)]; rfl
  | text h => rw [encode, List.append_assoc, datatype_head (by omega)]; rfl
  | tag h hitem => rw [encode, List.append_assoc, datatype_head (by omega)]; rfl
  | array h hitems => rw [encode, List.append_assoc, datatype_head (by omega)]; rfl
  | map h hkeys hvalues hsorted => rw [encode, List.append_assoc, datatype_head (by omega)]; rfl
  | simple h =>
    have hall : ∀ n < 20, datatype [initial 7 n] = some .simple := by decide
    rw [encode]
    split
    · next hlt => rw [List.cons_append, datatype_cons, hall _ hlt]; rfl
    · rfl
  | bool b => cases b <;> rfl
  | null => rfl
  | undefined => rfl

lemma encode_ne_nil {i : Item} (h : WellFormed i) : encode i ≠ [] := by
  intro hnil
  have hkind := datatype_encode h []
  rw [hnil] at hkind
  cases hkind

/-! ### No encoding is the beginning of another -/

lemma head_append_inj {major m n : ℕ} (hmajor : major < 8) (hm : m ≤ u64Max) (hn : n ≤ u64Max)
    {z z' : Bytes} (h : head major m ++ z = head major n ++ z') : m = n ∧ z = z' := by
  have h1 := readHead_head hmajor hm z
  rw [h, readHead_head hmajor hn z'] at h1
  simp only [Option.some.injEq, Prod.mk.injEq, true_and] at h1
  exact ⟨h1.1.symm, h1.2.symm⟩

/-- What follows an item and the item itself can be told from one another. -/
def Separates (i : Item) : Prop :=
  ∀ j, WellFormed j → ∀ z z', encode i ++ z = encode j ++ z' → i = j ∧ z = z'

lemma encodeItems_append_inj {items items' : List Item} (hlen : items.length = items'.length)
    (hsep : ∀ i ∈ items, Separates i) (hitems' : ∀ i ∈ items', WellFormed i) {z z' : Bytes}
    (h : encodeItems items ++ z = encodeItems items' ++ z') : items = items' ∧ z = z' := by
  induction items generalizing items' with
  | nil =>
    rw [List.eq_nil_of_length_eq_zero hlen.symm] at h ⊢
    exact ⟨rfl, h⟩
  | cons i items ih =>
    obtain ⟨j, items', rfl⟩ := List.exists_cons_of_length_eq_add_one hlen.symm
    rw [encodeItems, encodeItems, List.append_assoc, List.append_assoc] at h
    obtain ⟨rfl, hrest⟩ := hsep i (by simp) j (hitems' j (by simp)) _ _ h
    obtain ⟨rfl, rfl⟩ := ih (by simpa using hlen) (fun k hk => hsep k (List.mem_cons_of_mem _ hk))
      (fun k hk => hitems' k (List.mem_cons_of_mem _ hk)) hrest
    exact ⟨rfl, rfl⟩

lemma encodeEntries_append_inj {entries entries' : List (Item × Item)}
    (hlen : entries.length = entries'.length)
    (hsep : ∀ e ∈ entries, Separates e.1 ∧ Separates e.2)
    (hentries' : ∀ e ∈ entries', WellFormed e.1 ∧ WellFormed e.2) {z z' : Bytes}
    (h : encodeEntries entries ++ z = encodeEntries entries' ++ z') :
    entries = entries' ∧ z = z' := by
  induction entries generalizing entries' with
  | nil =>
    rw [List.eq_nil_of_length_eq_zero hlen.symm] at h ⊢
    exact ⟨rfl, h⟩
  | cons e entries ih =>
    obtain ⟨⟨key', value'⟩, entries', rfl⟩ := List.exists_cons_of_length_eq_add_one hlen.symm
    obtain ⟨key, value⟩ := e
    obtain ⟨hkey, hvalue⟩ := hsep (key, value) (by simp)
    obtain ⟨hkey', hvalue'⟩ := hentries' (key', value') (by simp)
    simp only [encodeEntries, List.append_assoc] at h
    obtain ⟨rfl, hnext⟩ := hkey key' hkey' _ _ h
    obtain ⟨rfl, hrest⟩ := hvalue value' hvalue' _ _ hnext
    obtain ⟨rfl, rfl⟩ := ih (by simpa using hlen) (fun e he => hsep e (List.mem_cons_of_mem _ he))
      (fun e he => hentries' e (List.mem_cons_of_mem _ he)) hrest
    exact ⟨rfl, rfl⟩

lemma simple_append_inj {m n : ℕ} (hm : m < 256) (hn : n < 256) {z z' : Bytes}
    (h : encode (.simple m) ++ z = encode (.simple n) ++ z') : m = n ∧ z = z' := by
  have hsmall : ∀ k < 20, (initial 7 k).toNat = 224 + k := by decide
  have hmark : (initial 7 24).toNat = 248 := by decide
  rw [encode, encode] at h
  split_ifs at h with h1 h2 h2
  all_goals simp only [List.cons_append, List.nil_append, List.cons.injEq] at h
  · have := congrArg UInt8.toNat h.1
    rw [hsmall m h1, hsmall n h2] at this
    exact ⟨by omega, h.2⟩
  · have := congrArg UInt8.toNat h.1
    rw [hsmall m h1, hmark] at this
    omega
  · have := congrArg UInt8.toNat h.1
    rw [hsmall n h2, hmark] at this
    omega
  · have := congrArg UInt8.toNat h.2.1
    rw [UInt8.toNat_ofNat', UInt8.toNat_ofNat', Nat.mod_eq_of_lt hm, Nat.mod_eq_of_lt hn] at this
    exact ⟨this, h.2.2⟩

/-- Every item separates. The first bytes tell the kind; the induction is on the levels. -/
lemma separates {n : ℕ} {i : Item} (hn : levels i ≤ n) (hi : WellFormed i) : Separates i := by
  induction n generalizing i with
  | zero => cases i <;> simp [levels] at hn
  | succ n ih =>
    intro j hj z z' h
    have hkind : kind i = kind j := by
      have h1 := datatype_encode hi z
      rw [h, datatype_encode hj z'] at h1
      exact (Option.some.inj h1).symm
    cases hi with
    | unsigned hm =>
      cases hj <;> cases hkind
      next hm' =>
        obtain ⟨rfl, rfl⟩ := head_append_inj (by omega) hm hm' h
        exact ⟨rfl, rfl⟩
    | negative hm =>
      cases hj <;> cases hkind
      next hm' =>
        obtain ⟨rfl, rfl⟩ := head_append_inj (by omega) hm hm' h
        exact ⟨rfl, rfl⟩
    | bytes hm =>
      cases hj <;> cases hkind
      next hm' =>
        rw [encode, encode, List.append_assoc, List.append_assoc] at h
        obtain ⟨hlen, h⟩ := head_append_inj (by omega) hm hm' h
        obtain ⟨rfl, rfl⟩ := List.append_inj h hlen
        exact ⟨rfl, rfl⟩
    | text hm =>
      cases hj <;> cases hkind
      next hm' =>
        rw [encode, encode, List.append_assoc, List.append_assoc] at h
        obtain ⟨hlen, h⟩ := head_append_inj (by omega) hm hm' h
        obtain ⟨hs, rfl⟩ := List.append_inj h hlen
        have := congrArg toString? hs
        rw [toString?_ofString, toString?_ofString] at this
        cases this
        exact ⟨rfl, rfl⟩
    | tag hm hitem =>
      cases hj <;> cases hkind
      next hm' hitem' =>
        rw [levels] at hn
        rw [encode, encode, List.append_assoc, List.append_assoc] at h
        obtain ⟨rfl, hrest⟩ := head_append_inj (by omega) hm hm' h
        obtain ⟨rfl, rfl⟩ := ih (by omega) hitem _ hitem' _ _ hrest
        exact ⟨rfl, rfl⟩
    | array hm hitems =>
      cases hj <;> cases hkind
      next hm' hitems' =>
        rw [levels] at hn
        have hlevels := levelsItems_le_iff.mp (Nat.le_of_succ_le_succ hn)
        rw [encode, encode, List.append_assoc, List.append_assoc] at h
        obtain ⟨hlen, h⟩ := head_append_inj (by omega) hm hm' h
        obtain ⟨rfl, rfl⟩ := encodeItems_append_inj hlen
          (fun i hi => ih (hlevels i hi) (hitems i hi)) hitems' h
        exact ⟨rfl, rfl⟩
    | map hm hkeys hvalues hsorted =>
      cases hj <;> cases hkind
      next hm' hkeys' hvalues' hsorted' =>
        rw [levels] at hn
        have hlevels := levelsEntries_le_iff.mp (Nat.le_of_succ_le_succ hn)
        rw [encode, encode, List.append_assoc, List.append_assoc] at h
        obtain ⟨hlen, h⟩ := head_append_inj (by omega) hm hm' h
        obtain ⟨rfl, rfl⟩ := encodeEntries_append_inj hlen
          (fun e he => ⟨ih (hlevels e he).1 (hkeys e he), ih (hlevels e he).2 (hvalues e he)⟩)
          (fun e he => ⟨hkeys' e he, hvalues' e he⟩) h
        exact ⟨rfl, rfl⟩
    | simple hm =>
      cases hj <;> cases hkind
      next hm' =>
        obtain ⟨rfl, rfl⟩ := simple_append_inj hm hm' h
        exact ⟨rfl, rfl⟩
    | bool b =>
      cases hj <;> cases hkind
      next b' =>
        cases b <;> cases b' <;> simp [encode, initial] at h ⊢ <;> exact h
    | null =>
      cases hj <;> cases hkind
      exact ⟨rfl, List.append_cancel_left h⟩
    | undefined =>
      cases hj <;> cases hkind
      exact ⟨rfl, List.append_cancel_left h⟩

/-- **A word is the encoding of one item at most.** -/
theorem encode_inj {i j : Item} (hi : WellFormed i) (hj : WellFormed j)
    (h : encode i = encode j) : i = j :=
  (separates (Nat.le_refl _) hi j hj [] [] (by rw [h])).1

end Item

end Ladon.Lib.Cbor

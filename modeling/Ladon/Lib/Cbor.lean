import Mathlib.Data.List.Induction
import Ladon.Lib.Utf8
import Ladon.Lib.Word

/-!
CBOR as RFC 8949 has it: the heads of data items, the writers with the shortest head, and readers
that take an item off the front of a word and return what is left.

A reader accepts every width of a head. `skip` passes over one well-formed item of any kind, with
the items that are still to come kept on a stack.
-/

namespace Ladon.Lib.Cbor

open Ladon.Lib.Utf8 Ladon.Lib.Word

/-! ### Numbers of a fixed width -/

/-- The `k` low bytes of a number, the highest first. -/
def be : ℕ → ℕ → Bytes
  | 0, _ => []
  | k + 1, n => be k (n / 256) ++ [UInt8.ofNat n]

def ofBe (w : Bytes) : ℕ := w.foldl (fun acc b => acc * 256 + b.toNat) 0

@[simp] lemma length_be (k n : ℕ) : (be k n).length = k := by
  induction k generalizing n with
  | zero => rfl
  | succ k ih => simp [be, ih]

lemma ofBe_be {k n : ℕ} (h : n < 256 ^ k) : ofBe (be k n) = n := by
  induction k generalizing n with
  | zero => simp only [Nat.pow_zero] at h; simp [be, ofBe]; omega
  | succ k ih =>
    have hq : n / 256 < 256 ^ k := by
      rw [Nat.div_lt_iff_lt_mul (by omega)]
      rwa [Nat.pow_succ] at h
    have hstep : ofBe (be k (n / 256) ++ [UInt8.ofNat n]) = ofBe (be k (n / 256)) * 256 + n % 256 := by
      simp [ofBe, List.foldl_append]
    rw [be, hstep, ih hq]
    omega

lemma ofBe_lt (w : Bytes) : ofBe w < 256 ^ w.length := by
  induction w using List.reverseRecOn with
  | nil => simp [ofBe]
  | append_singleton w b ih =>
    have hstep : ofBe (w ++ [b]) = ofBe w * 256 + b.toNat := by
      simp [ofBe, List.foldl_append]
    have hb : b.toNat < 256 := b.toNat_lt
    rw [hstep, List.length_append, List.length_singleton, Nat.pow_succ]
    omega

lemma be_ofBe {w : Bytes} {k : ℕ} (h : w.length = k) : be k (ofBe w) = w := by
  induction w using List.reverseRecOn generalizing k with
  | nil => subst h; rfl
  | append_singleton w b ih =>
    have hk : k = w.length + 1 := by simpa using h.symm
    have hstep : ofBe (w ++ [b]) = ofBe w * 256 + b.toNat := by simp [ofBe, List.foldl_append]
    have hb : b.toNat < 256 := b.toNat_lt
    have hq : (ofBe w * 256 + b.toNat) / 256 = ofBe w := by omega
    have hr : UInt8.ofNat (ofBe w * 256 + b.toNat) = b := by
      apply UInt8.toNat_inj.mp
      rw [UInt8.toNat_ofNat']
      omega
    rw [hk, be, hstep, hq, hr, ih rfl]

def readBe (k : ℕ) (w : Bytes) : Option (ℕ × Bytes) :=
  if k ≤ w.length then some (ofBe (w.take k), w.drop k) else none

lemma readBe_be {k n : ℕ} (h : n < 256 ^ k) (z : Bytes) : readBe k (be k n ++ z) = some (n, z) := by
  rw [readBe, if_pos (by simp), List.take_left' (by simp), List.drop_left' (by simp), ofBe_be h]

/-! ### Heads -/

/-- The first byte of an item: its major type and the five bits of additional information. -/
def initial (major info : ℕ) : UInt8 := UInt8.ofNat (32 * major + info)

/-- The shortest head of a major type with its argument. -/
def head (major n : ℕ) : Bytes :=
  if n < 24 then [initial major n]
  else if n < 2 ^ 8 then initial major 24 :: be 1 n
  else if n < 2 ^ 16 then initial major 25 :: be 2 n
  else if n < 2 ^ 32 then initial major 26 :: be 4 n
  else initial major 27 :: be 8 n

/-- The argument that the additional information announces. -/
def argument (info : ℕ) (w : Bytes) : Option (ℕ × Bytes) :=
  if info < 24 then some (info, w)
  else if info = 24 then readBe 1 w
  else if info = 25 then readBe 2 w
  else if info = 26 then readBe 4 w
  else if info = 27 then readBe 8 w
  else none

/-- The major type and the argument of a head of definite length, and what follows it. -/
def readHead : Bytes → Option (ℕ × ℕ × Bytes)
  | [] => none
  | b :: t => (argument (b.toNat % 32) t).map fun r => (b.toNat / 32, r)

lemma initial_toNat {major info : ℕ} (hm : major < 8) (hi : info < 32) :
    (initial major info).toNat / 32 = major ∧ (initial major info).toNat % 32 = info := by
  have h : (initial major info).toNat = 32 * major + info := by
    simp only [initial, UInt8.toNat_ofNat']
    omega
  omega

/-- A head that was written is read back. -/
lemma readHead_head {major n : ℕ} (hm : major < 8) (hn : n ≤ u64Max) (z : Bytes) :
    readHead (head major n ++ z) = some (major, n, z) := by
  have key : ∀ info, info < 32 → ∀ w, argument info (w ++ z) = some (n, z) →
      readHead (initial major info :: w ++ z) = some (major, n, z) := by
    intro info hi w ha
    obtain ⟨h1, h2⟩ := initial_toNat hm hi
    rw [List.cons_append, readHead, h1, h2, ha]
    rfl
  simp only [u64Max] at hn
  unfold head
  split_ifs with h1 h2 h3 h4
  · exact key n (by omega) [] (by simp [argument, h1])
  · exact key 24 (by omega) _ (by simpa [argument] using readBe_be (k := 1) (by omega) z)
  · exact key 25 (by omega) _ (by simpa [argument] using readBe_be (k := 2) (by omega) z)
  · exact key 26 (by omega) _ (by simpa [argument] using readBe_be (k := 4) (by omega) z)
  · exact key 27 (by omega) _ (by simpa [argument] using readBe_be (k := 8) (by omega) z)

lemma head_ne_nil (major n : ℕ) : head major n ≠ [] := by
  unfold head
  split_ifs <;> simp

lemma length_head_le (major n : ℕ) : (head major n).length ≤ 9 := by
  unfold head
  split_ifs <;> simp

lemma argument_eq_some {info n : ℕ} {w rest : Bytes} (h : argument info w = some (n, rest)) :
    ∃ u, w = u ++ rest ∧ ∀ z, argument info (u ++ z) = some (n, z) := by
  have read : ∀ k, readBe k w = some (n, rest) →
      ∃ u, w = u ++ rest ∧ ∀ z, readBe k (u ++ z) = some (n, z) := by
    intro k hk
    unfold readBe at hk
    split at hk
    · next hle =>
      cases hk
      refine ⟨w.take k, (List.take_append_drop k w).symm, fun z => ?_⟩
      rw [readBe, if_pos (by simp; omega), List.take_left' (by simp; omega),
        List.drop_left' (by simp; omega)]
    · cases hk
  unfold argument at h ⊢
  split_ifs at h with h1 h2 h3 h4 h5
  · cases h; exact ⟨[], rfl, fun z => by simp [h1]⟩
  · obtain ⟨u, hu, hz⟩ := read 1 h; exact ⟨u, hu, fun z => by simpa [h1, h2] using hz z⟩
  · obtain ⟨u, hu, hz⟩ := read 2 h; exact ⟨u, hu, fun z => by simpa [h1, h2, h3] using hz z⟩
  · obtain ⟨u, hu, hz⟩ := read 4 h; exact ⟨u, hu, fun z => by simpa [h1, h2, h3, h4] using hz z⟩
  · obtain ⟨u, hu, hz⟩ := read 8 h
    exact ⟨u, hu, fun z => by simpa [h1, h2, h3, h4, h5] using hz z⟩

/-- Reading a head depends on the bytes of the head alone. -/
lemma readHead_eq_some {w rest : Bytes} {major n : ℕ} (h : readHead w = some (major, n, rest)) :
    ∃ u, u ≠ [] ∧ w = u ++ rest ∧ ∀ z, readHead (u ++ z) = some (major, n, z) := by
  rcases w with _ | ⟨b, t⟩
  · cases h
  · rw [readHead, Option.map_eq_some_iff] at h
    obtain ⟨⟨n', rest'⟩, ha, he⟩ := h
    cases he
    obtain ⟨u, rfl, hu⟩ := argument_eq_some ha
    exact ⟨b :: u, by simp, rfl, fun z => by simp [readHead, hu z]⟩

lemma readHead_length {w rest : Bytes} {major n : ℕ} (h : readHead w = some (major, n, rest)) :
    rest.length < w.length := by
  obtain ⟨u, hne, rfl, -⟩ := readHead_eq_some h
  have := List.length_pos_iff.mpr hne
  simp only [List.length_append]
  omega

/-! ### Readers -/

/-- An unsigned number that is at most `max`. -/
def uint (max : ℕ) (w : Bytes) : Option (ℕ × Bytes) :=
  match readHead w with
  | some (0, n, rest) => if n ≤ max then some (n, rest) else none
  | _ => none

def u8 : Bytes → Option (ℕ × Bytes) := uint 255
def u32 : Bytes → Option (ℕ × Bytes) := uint u32Max
def u64 : Bytes → Option (ℕ × Bytes) := uint u64Max

/-- The number of items of an array or a map, none where its length is indefinite. -/
def container (major : ℕ) (w : Bytes) : Option (Option ℕ × Bytes) :=
  if w.head? = some (initial major 31) then some (none, w.tail)
  else match readHead w with
    | some (m, n, rest) => if m = major then some (some n, rest) else none
    | none => none

def array : Bytes → Option (Option ℕ × Bytes) := container 4
def map : Bytes → Option (Option ℕ × Bytes) := container 5

/-- The contents of a string of definite length. -/
def string (major : ℕ) (w : Bytes) : Option (Bytes × Bytes) :=
  match readHead w with
  | some (m, n, rest) =>
    if m = major ∧ n ≤ rest.length then some (rest.take n, rest.drop n) else none
  | none => none

def bytes : Bytes → Option (Bytes × Bytes) := string 2

def str (w : Bytes) : Option (String × Bytes) :=
  match string 3 w with
  | some (b, rest) => (toString? b).map fun s => (s, rest)
  | none => none

/-- The argument of an item of another major type. -/
def plain (major : ℕ) (w : Bytes) : Option (ℕ × Bytes) :=
  match readHead w with
  | some (m, n, rest) => if m = major then some (n, rest) else none
  | none => none

/-- The kinds of item, as the first byte tells them apart. The widths of numbers are one kind;
floating point, indefinite lengths, breaks and unassigned bytes are the last. -/
inductive Datatype
  | unsigned
  | negative
  | bytes
  | string
  | array
  | map
  | tag
  | simple
  | bool
  | null
  | undefined
  | other
  deriving DecidableEq

def datatype (w : Bytes) : Option Datatype :=
  w.head?.map fun b =>
    if b ≤ 0x1B then .unsigned
    else if 0x20 ≤ b ∧ b ≤ 0x3B then .negative
    else if 0x40 ≤ b ∧ b ≤ 0x5B then .bytes
    else if 0x60 ≤ b ∧ b ≤ 0x7B then .string
    else if 0x80 ≤ b ∧ b ≤ 0x9B then .array
    else if 0xA0 ≤ b ∧ b ≤ 0xBB then .map
    else if 0xC0 ≤ b ∧ b ≤ 0xDB then .tag
    else if (0xE0 ≤ b ∧ b ≤ 0xF3) ∨ b = 0xF8 then .simple
    else if b = 0xF4 ∨ b = 0xF5 then .bool
    else if b = 0xF6 then .null
    else if b = 0xF7 then .undefined
    else .other

lemma uint_head {max n : ℕ} (h : n ≤ max) (hm : max ≤ u64Max) (z : Bytes) :
    uint max (head 0 n ++ z) = some (n, z) := by
  rw [uint, readHead_head (by omega) (Nat.le_trans h hm)]
  exact if_pos h

lemma head_head? {major n : ℕ} (hm : major < 8) (z : Bytes) :
    (head major n ++ z).head? ≠ some (initial major 31) := by
  have key : ∀ info w, info < 31 → (initial major info :: w ++ z).head? ≠ some (initial major 31) := by
    intro info w hi h
    have he : initial major info = initial major 31 := by simpa using h
    have h1 := (initial_toNat hm (show info < 32 by omega)).2
    have h2 := (initial_toNat hm (show 31 < 32 by omega)).2
    rw [he] at h1
    omega
  unfold head
  split_ifs with h1 h2 h3 h4
  · exact key n [] (by omega)
  · exact key 24 _ (by omega)
  · exact key 25 _ (by omega)
  · exact key 26 _ (by omega)
  · exact key 27 _ (by omega)

lemma container_head {major n : ℕ} (hm : major < 8) (hn : n ≤ u64Max) (z : Bytes) :
    container major (head major n ++ z) = some (some n, z) := by
  rw [container, if_neg (head_head? hm z), readHead_head hm hn]
  exact if_pos rfl

lemma string_head {major : ℕ} (hm : major < 8) {b : Bytes} (hb : b.length ≤ u64Max) (z : Bytes) :
    string major (head major b.length ++ (b ++ z)) = some (b, z) := by
  rw [string, readHead_head hm hb]
  simp

lemma str_head {s : String} (hs : (ofString s).length ≤ u64Max) (z : Bytes) :
    str (head 3 (ofString s).length ++ (ofString s ++ z)) = some (s, z) := by
  rw [str, string_head (by omega) hs]
  simp

/-! ### Skipping an item -/

/-- What is still to come: a number of items, items up to a break, or the chunks of a string. -/
inductive Frame
  | items (n : ℕ)
  | untilBreak
  | chunks (major : ℕ)

/-- What stands at the front of a word: an item on its own, the beginning of one with others
inside, or a break. -/
inductive Token
  | leaf
  | nest (f : Frame)
  | stop

/-- The word begins with a head of definite length. -/
def tokenOf (w : Bytes) : ℕ → ℕ → Bytes → Option (Token × Bytes)
  | 2, _, _ => (bytes w).map fun r => (.leaf, r.2)
  | 3, _, _ => (str w).map fun r => (.leaf, r.2)
  | 4, n, rest => some (.nest (.items n), rest)
  | 5, n, rest => some (.nest (.items (2 * n)), rest)
  | 6, _, rest => some (.nest (.items 1), rest)
  | _, _, rest => some (.leaf, rest)

def token (w : Bytes) : Option (Token × Bytes) :=
  if w.head? = some 0xFF then some (.stop, w.tail)
  else if w.head? = some (initial 2 31) then some (.nest (.chunks 2), w.tail)
  else if w.head? = some (initial 3 31) then some (.nest (.chunks 3), w.tail)
  else if w.head? = some (initial 4 31) ∨ w.head? = some (initial 5 31) then
    some (.nest .untilBreak, w.tail)
  else match readHead w with
    | none => none
    | some (major, n, rest) => tokenOf w major n rest

lemma string_length {major : ℕ} {w b rest : Bytes} (h : string major w = some (b, rest)) :
    rest.length < w.length := by
  unfold string at h
  split at h
  · next m n r hr =>
    have := readHead_length hr
    split at h
    · cases h; rw [List.length_drop]; omega
    · cases h
  · cases h

lemma str_length {w rest : Bytes} {s : String} (h : str w = some (s, rest)) :
    rest.length < w.length := by
  unfold str at h
  split at h
  · next b r hr =>
    obtain ⟨s', -, he⟩ := Option.map_eq_some_iff.mp h
    cases he
    exact string_length hr
  · cases h

lemma token_length {w rest : Bytes} {t : Token} (h : token w = some (t, rest)) :
    rest.length < w.length := by
  have tail : ∀ b, w.head? = some b → w.tail.length < w.length := by
    intro b hb
    rcases w with _ | ⟨c, v⟩
    · cases hb
    · simp
  unfold token at h
  split_ifs at h with h1 h2 h3 h4
  · cases h; exact tail _ h1
  · cases h; exact tail _ h2
  · cases h; exact tail _ h3
  · cases h
    rcases h4 with h4 | h4
    · exact tail _ h4
    · exact tail _ h4
  · split at h
    · cases h
    · next major n r hr =>
      unfold tokenOf at h
      split at h
      · obtain ⟨⟨b, r⟩, hs, he⟩ := Option.map_eq_some_iff.mp h
        cases he; exact string_length hs
      · obtain ⟨⟨b, r⟩, hs, he⟩ := Option.map_eq_some_iff.mp h
        cases he; exact str_length hs
      all_goals cases h; exact readHead_length hr

def skipFrom : List Frame → Bytes → Option Bytes
  | [], w => some w
  | .items 0 :: stack, w => skipFrom stack w
  | .items (n + 1) :: stack, w =>
    match _h : token w with
    | some (.leaf, rest) => skipFrom (.items n :: stack) rest
    | some (.nest f, rest) => skipFrom (f :: .items n :: stack) rest
    | some (.stop, _) => none
    | none => none
  | .untilBreak :: stack, w =>
    match _h : token w with
    | some (.leaf, rest) => skipFrom (.untilBreak :: stack) rest
    | some (.nest f, rest) => skipFrom (f :: .untilBreak :: stack) rest
    | some (.stop, rest) => skipFrom stack rest
    | none => none
  | .chunks major :: stack, w =>
    if _hs : w.head? = some 0xFF then skipFrom stack w.tail
    else match _h : string major w with
      | some (_, rest) => skipFrom (.chunks major :: stack) rest
      | none => none
termination_by stack w => (w.length, stack.length)
decreasing_by
  · exact Prod.Lex.right _ (by simp)
  · exact Prod.Lex.left _ _ (token_length _h)
  · exact Prod.Lex.left _ _ (token_length _h)
  · exact Prod.Lex.left _ _ (token_length _h)
  · exact Prod.Lex.left _ _ (token_length _h)
  · exact Prod.Lex.left _ _ (token_length _h)
  · refine Prod.Lex.left _ _ ?_
    rcases w with _ | ⟨c, v⟩
    · cases _hs
    · simp
  · exact Prod.Lex.left _ _ (string_length _h)

/-- One item of any kind. -/
def skip (w : Bytes) : Option Bytes := skipFrom [.items 1] w

lemma readHead_ne_indefinite {w : Bytes} {r : ℕ × ℕ × Bytes} (h : readHead w = some r)
    (major : ℕ) (hm : major < 8) : w.head? ≠ some (initial major 31) := by
  rcases w with _ | ⟨b, t⟩
  · cases h
  · intro hb
    have hb' : b = initial major 31 := by simpa using hb
    rw [readHead, hb', (initial_toNat hm (by omega)).2] at h
    simp [argument] at h

/-- Behind a head of definite length the major type alone decides. -/
lemma token_of_readHead {w rest : Bytes} {major n : ℕ} (h : readHead w = some (major, n, rest)) :
    token w = tokenOf w major n rest := by
  have hstop : w.head? ≠ some 0xFF := readHead_ne_indefinite h 7 (by omega)
  rw [token, if_neg hstop, if_neg (readHead_ne_indefinite h _ (by omega)),
    if_neg (readHead_ne_indefinite h _ (by omega)),
    if_neg (not_or.mpr ⟨readHead_ne_indefinite h _ (by omega), readHead_ne_indefinite h _ (by omega)⟩), h]

lemma plain_eq_some {major n : ℕ} {w rest : Bytes} (h : plain major w = some (n, rest)) :
    ∃ u, w = u ++ rest ∧ ∀ z, readHead (u ++ z) = some (major, n, z) := by
  unfold plain at h
  split at h
  · next m k r hr =>
    split at h
    · next hm =>
      cases h
      subst hm
      obtain ⟨u, -, hu, hz⟩ := readHead_eq_some hr
      exact ⟨u, hu, hz⟩
    · cases h
  · cases h

lemma uint_eq_plain {max n : ℕ} {w rest : Bytes} (h : uint max w = some (n, rest)) :
    plain 0 w = some (n, rest) ∧ n ≤ max := by
  unfold uint at h
  unfold plain
  split at h
  · next k r hr =>
    split at h
    · next hle => cases h; simp [hr, hle]
    · cases h
  · cases h

lemma container_eq_plain {major n : ℕ} {w rest : Bytes}
    (h : container major w = some (some n, rest)) : plain major w = some (n, rest) := by
  unfold container at h
  unfold plain
  split at h
  · cases h
  · split at h
    · next m k r hr =>
      split at h
      · next hm => cases h; simp [hm]
      · cases h
    · cases h

/-- Reading a string depends on the bytes of the string alone. -/
lemma string_eq_some {major : ℕ} {w b rest : Bytes} (h : string major w = some (b, rest)) :
    ∃ v, w = v ++ rest ∧ ∀ z, string major (v ++ z) = some (b, z) ∧
      ∃ n r, readHead (v ++ z) = some (major, n, r) := by
  unfold string at h
  split at h
  · next m n r hr =>
    split at h
    · next hm =>
      cases h
      obtain ⟨rfl, hle⟩ := hm
      obtain ⟨u, -, hu, hz⟩ := readHead_eq_some hr
      refine ⟨u ++ r.take n, ?_, fun z => ?_⟩
      · rw [List.append_assoc, List.take_append_drop, hu]
      · have hz' := hz (r.take n ++ z)
        rw [List.append_assoc]
        refine ⟨?_, n, _, hz'⟩
        rw [string, hz']
        simp [List.take_left', List.drop_left', Nat.min_eq_left hle]
    · cases h
  · cases h

lemma str_eq_some {w rest : Bytes} {s : String} (h : str w = some (s, rest)) :
    ∃ v, w = v ++ rest ∧ ∀ z, str (v ++ z) = some (s, z) ∧
      ∃ n r, readHead (v ++ z) = some (3, n, r) := by
  unfold str at h
  split at h
  · next b r hr =>
    obtain ⟨s', hs, he⟩ := Option.map_eq_some_iff.mp h
    cases he
    obtain ⟨v, hv, hz⟩ := string_eq_some hr
    refine ⟨v, hv, fun z => ⟨?_, (hz z).2⟩⟩
    rw [str, (hz z).1]
    simp [hs]
  · cases h

/-- The word `v` is one item to `skip`, whatever follows it. -/
def Skips (v : Bytes) : Prop := ∀ n stack z,
  skipFrom (.items (n + 1) :: stack) (v ++ z) = skipFrom (.items n :: stack) z

/-- The word `v` is `k` items to `skip`. -/
def SkipsAll (k : ℕ) (v : Bytes) : Prop := ∀ stack z,
  skipFrom (.items k :: stack) (v ++ z) = skipFrom stack z

lemma skipsAll_zero : SkipsAll 0 [] := fun stack z => by rw [skipFrom, List.nil_append]

lemma Skips.cons {k : ℕ} {v vs : Bytes} (h : Skips v) (hs : SkipsAll k vs) :
    SkipsAll (k + 1) (v ++ vs) := fun stack z => by rw [List.append_assoc, h, hs]

lemma skips_leaf {v : Bytes} (h : ∀ z, token (v ++ z) = some (.leaf, z)) : Skips v := by
  intro n stack z
  rw [skipFrom]
  split <;> simp_all

lemma skips_nest {u v : Bytes} {k : ℕ} (h : ∀ z, token (u ++ z) = some (.nest (.items k), z))
    (hv : SkipsAll k v) : Skips (u ++ v) := by
  intro n stack z
  rw [skipFrom, List.append_assoc]
  have hk := h (v ++ z)
  split
  · next hr => rw [hk] at hr; cases hr
  · next f rest hr =>
    rw [hk] at hr
    cases hr
    exact hv _ _
  · next hr => rw [hk] at hr; cases hr
  · next hr => rw [hk] at hr; cases hr

/-- A number, or a simple value. -/
lemma skips_plain {major n : ℕ} {w rest : Bytes} (hm : major = 0 ∨ major = 1 ∨ major = 7)
    (h : plain major w = some (n, rest)) : ∃ v, w = v ++ rest ∧ Skips v := by
  obtain ⟨u, hu, hz⟩ := plain_eq_some h
  refine ⟨u, hu, skips_leaf fun z => ?_⟩
  rw [token_of_readHead (hz z)]
  rcases hm with rfl | rfl | rfl <;> rfl

lemma skips_bytes {w b rest : Bytes} (h : bytes w = some (b, rest)) :
    ∃ v, w = v ++ rest ∧ Skips v := by
  obtain ⟨v, hv, hz⟩ := string_eq_some h
  refine ⟨v, hv, skips_leaf fun z => ?_⟩
  obtain ⟨h1, n, r, hr⟩ := hz z
  rw [token_of_readHead hr, tokenOf, bytes, h1]
  rfl

lemma skips_str {w rest : Bytes} {s : String} (h : str w = some (s, rest)) :
    ∃ v, w = v ++ rest ∧ Skips v := by
  obtain ⟨v, hv, hz⟩ := str_eq_some h
  refine ⟨v, hv, skips_leaf fun z => ?_⟩
  obtain ⟨h1, n, r, hr⟩ := hz z
  rw [token_of_readHead hr, tokenOf, h1]
  rfl

/-- An array, a map or a tag, with the items inside. -/
lemma skips_container {major n k : ℕ} {w rest v rest' : Bytes}
    (hm : major = 4 ∧ k = n ∨ major = 5 ∧ k = 2 * n ∨ major = 6 ∧ k = 1)
    (h : plain major w = some (n, rest)) (hrest : rest = v ++ rest') (hv : SkipsAll k v) :
    ∃ u, w = u ++ rest' ∧ Skips u := by
  obtain ⟨u, hu, hz⟩ := plain_eq_some h
  refine ⟨u ++ v, by rw [hu, hrest, List.append_assoc], skips_nest (fun z => ?_) hv⟩
  rw [token_of_readHead (hz z)]
  rcases hm with ⟨rfl, rfl⟩ | ⟨rfl, rfl⟩ | ⟨rfl, rfl⟩ <;> rfl

lemma Skips.skip {v : Bytes} (h : Skips v) (z : Bytes) : skip (v ++ z) = some z := by
  rw [Cbor.skip, h 0 [] z, skipFrom, skipFrom]

end Ladon.Lib.Cbor

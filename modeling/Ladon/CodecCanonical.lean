import Ladon.Codec
import Ladon.Lib.CborItem

/-!
What a canonical value is.

A value that a later version added to the payload is carried along when it is canonical, and this
is decided by writing it again while it is read. Here this is put in the words of the format: the
words that pass are the deterministic encodings of items of at most sixteen levels, and each of
one item only.
-/

namespace Ladon.Codec

open Ladon.Error Ladon.Lib Ladon.Lib.Utf8 Ladon.Lib.Word
open Ladon.Lib.Cbor (Item)
open Ladon.Lib.Cbor.Item (encode encodeItems encodeEntries levels levelsItems levelsEntries
  WellFormed KeyBefore)

/-! ### The order of keys -/

lemma compare_byte_eq_lt {a b : UInt8} : compare a b = .lt ↔ a < b := by
  rw [show compare a b = compareOfLessAndEq a b from rfl, compareOfLessAndEq]
  split_ifs with h h' <;> simp [h]

lemma compare_byte_eq_eq {a b : UInt8} : compare a b = .eq ↔ a = b := by
  rw [show compare a b = compareOfLessAndEq a b from rfl, compareOfLessAndEq]
  split_ifs with h h'
  · refine iff_of_false (by simp) ?_
    rintro rfl
    exact UInt8.lt_irrefl a h
  · exact iff_of_true rfl h'
  · exact iff_of_false (by simp) h'

lemma compare_bytes_eq_lt {a b : Bytes} : compare a b = .lt ↔ a < b := by
  induction a generalizing b with
  | nil =>
    cases b with
    | nil => exact iff_of_false (by decide) (List.lt_irrefl _)
    | cons y ys => exact iff_of_true rfl (List.nil_lt_cons _ _)
  | cons x xs ih =>
    cases b with
    | nil => exact iff_of_false (by simp [List.compare_cons_nil]) (List.not_lt_nil _)
    | cons y ys =>
      rw [List.compare_cons_cons, Ordering.then_eq_lt, compare_byte_eq_lt, compare_byte_eq_eq, ih,
        List.cons_lt_cons_iff]

lemma canonicalKeyOrder_eq_lt {a b : Bytes} : canonicalKeyOrder a b = .lt ↔ KeyBefore a b := by
  rw [canonicalKeyOrder, Ordering.then_eq_lt, Nat.compare_eq_lt, Nat.compare_eq_eq,
    compare_bytes_eq_lt]
  rfl

lemma keyBefore_trans {a b c : Bytes} (h : KeyBefore a b) (h' : KeyBefore b c) : KeyBefore a c := by
  rcases h with h | ⟨h, hab⟩ <;> rcases h' with h' | ⟨h', hbc⟩
  · exact Or.inl (by omega)
  · exact Or.inl (by omega)
  · exact Or.inl (by omega)
  · exact Or.inr ⟨by omega, List.lt_trans hab hbc⟩

/-! ### What passes is an encoding -/

/-- A word from which an item can be written, at most `d` levels deep. -/
def Writes (d : ℕ) (out : Bytes) : Prop := ∃ i, WellFormed i ∧ levels i ≤ d ∧ encode i = out

lemma canonicalizeItems_sound {item : Bytes → Option (Bytes × Bytes)} {d : ℕ}
    (hitem : ∀ w out rest, item w = some (out, rest) → Writes d out) {n : ℕ} {w out rest : Bytes}
    (h : canonicalizeItems item n w = some (out, rest)) :
    ∃ items : List Item, items.length = n ∧ (∀ i ∈ items, WellFormed i ∧ levels i ≤ d) ∧
      encodeItems items = out := by
  induction n generalizing w out with
  | zero => cases h; exact ⟨[], rfl, by simp, rfl⟩
  | succ n ih =>
    simp only [canonicalizeItems, Option.bind_eq_bind, Option.bind_eq_some_iff] at h
    obtain ⟨⟨first, w1⟩, h1, ⟨others, w2⟩, h2, h3⟩ := h
    cases h3
    obtain ⟨i, hi, hle, rfl⟩ := hitem _ _ _ h1
    obtain ⟨items, rfl, hall, rfl⟩ := ih h2
    exact ⟨i :: items, rfl, List.forall_mem_cons.mpr ⟨⟨hi, hle⟩, hall⟩, rfl⟩

lemma canonicalizeEntries_sound {item : Bytes → Option (Bytes × Bytes)} {d : ℕ}
    (hitem : ∀ w out rest, item w = some (out, rest) → Writes d out) {n : ℕ}
    {previous : Option Bytes} {w out rest : Bytes}
    (h : canonicalizeEntries item previous n w = some (out, rest)) :
    ∃ entries : List (Item × Item), entries.length = n ∧
      (∀ e ∈ entries, (WellFormed e.1 ∧ WellFormed e.2) ∧ levels e.1 ≤ d ∧ levels e.2 ≤ d) ∧
      (∀ p ∈ previous, ∀ e ∈ entries, KeyBefore p (encode e.1)) ∧
      (entries.Pairwise fun a b => KeyBefore (encode a.1) (encode b.1)) ∧
      encodeEntries entries = out := by
  induction n generalizing w out previous with
  | zero => cases h; exact ⟨[], rfl, by simp, by simp, .nil, rfl⟩
  | succ n ih =>
    simp only [canonicalizeEntries, Option.bind_eq_bind, Option.bind_eq_some_iff] at h
    obtain ⟨⟨key, w1⟩, h1, h⟩ := h
    split at h
    · simp at h
    · next horder =>
      simp only [Option.bind_eq_some_iff] at h
      obtain ⟨⟨value, w2⟩, h2, ⟨others, w3⟩, h3, h4⟩ := h
      cases h4
      obtain ⟨k, hk, hkle, rfl⟩ := hitem _ _ _ h1
      obtain ⟨v, hv, hvle, rfl⟩ := hitem _ _ _ h2
      obtain ⟨entries, rfl, hall, hbefore, hsorted, rfl⟩ := ih h3
      have hfirst := hbefore (encode k) rfl
      refine ⟨(k, v) :: entries, rfl, List.forall_mem_cons.mpr ⟨⟨⟨hk, hv⟩, hkle, hvle⟩, hall⟩,
        fun p hp => ?_, .cons hfirst hsorted, by simp [encodeEntries]⟩
      -- the key stands behind the one before it, and the others behind the key
      have hprevious : KeyBefore p (encode k) := by
        cases hp
        rw [← canonicalKeyOrder_eq_lt]
        simpa using horder
      exact List.forall_mem_cons.mpr
        ⟨hprevious, fun e he => keyBefore_trans hprevious (hfirst e he)⟩

lemma first_byte {w : Bytes} {t : Cbor.Datatype} (h : Cbor.datatype w = some t) :
    ∃ b rest, w = b :: rest ∧ Cbor.datatype [b] = some t := by
  rcases w with _ | ⟨b, rest⟩
  · cases h
  · exact ⟨b, rest, rfl, h⟩

/-- The argument of a head that has it in the first byte. -/
lemma plain_small {major n : ℕ} {b : UInt8} {t rest : Bytes}
    (h : Cbor.plain major (b :: t) = some (n, rest)) (hb : b.toNat % 32 < 24) :
    n = b.toNat % 32 := by
  simp only [Cbor.plain, Cbor.readHead, Cbor.argument, if_pos hb, Option.map_some] at h
  split at h
  · cases h; rfl
  · cases h

lemma plain_next {major n : ℕ} {b : UInt8} {t rest : Bytes}
    (h : Cbor.plain major (b :: t) = some (n, rest)) (hb : b.toNat % 32 = 24) : n < 256 := by
  obtain ⟨u, hu, hz⟩ := Cbor.plain_eq_some h
  have := hz rest
  rw [← hu, Cbor.readHead, Option.map_eq_some_iff] at this
  obtain ⟨⟨m, r⟩, ha, he⟩ := this
  cases he
  rw [hb] at ha
  have hread : Cbor.readBe 1 t = some (n, rest) := ha
  exact Cbor.readBe_lt hread

lemma simple_byte {b : UInt8} (h : Cbor.datatype [b] = some .simple) :
    b.toNat % 32 < 20 ∨ b.toNat % 32 = 24 := by
  have hall : ∀ b : UInt8, Cbor.datatype [b] = some .simple →
      b.toNat % 32 < 20 ∨ b.toNat % 32 = 24 := by decide +kernel
  exact hall b h

lemma special_byte (b : UInt8) :
    (Cbor.datatype [b] = some .bool → b.toNat % 32 = 20 ∨ b.toNat % 32 = 21) ∧
      (Cbor.datatype [b] = some .null → b.toNat % 32 = 22) ∧
      (Cbor.datatype [b] = some .undefined → b.toNat % 32 = 23) := by
  revert b
  decide +kernel

/-- What is written is the encoding of an item, one case for each kind. -/
lemma canonicalizeItem_sound {d : ℕ} : ∀ w out rest,
    canonicalizeItem d w = some (out, rest) → Writes d out := by
  induction d with
  | zero => intro w out rest h; cases h
  | succ d ih =>
    intro w out rest h
    unfold canonicalizeItem at h
    split at h
    · obtain ⟨⟨n, r⟩, hr, he⟩ := Option.map_eq_some_iff.mp h
      cases he
      exact ⟨.unsigned n, .unsigned (Cbor.uint_eq_plain hr).2, by simp [levels], rfl⟩
    · obtain ⟨⟨n, r⟩, hr, he⟩ := Option.map_eq_some_iff.mp h
      cases he
      exact ⟨.negative n, .negative (Cbor.plain_le hr), by simp [levels], rfl⟩
    · obtain ⟨⟨b, r⟩, hr, he⟩ := Option.map_eq_some_iff.mp h
      cases he
      exact ⟨.bytes b, .bytes (Cbor.string_le hr), by simp [levels], rfl⟩
    · obtain ⟨⟨s, r⟩, hr, he⟩ := Option.map_eq_some_iff.mp h
      cases he
      exact ⟨.text s, .text (Cbor.str_le hr), by simp [levels], rfl⟩
    · next hkind =>
      obtain ⟨⟨n, r⟩, hr, he⟩ := Option.map_eq_some_iff.mp h
      cases he
      obtain ⟨b, t, rfl, hb⟩ := first_byte hkind
      have hn : n < 256 := by
        rcases simple_byte hb with hsmall | hnext
        · rw [plain_small hr (by omega)]
          omega
        · exact plain_next hr hnext
      exact ⟨.simple n, .simple hn, by simp [levels], rfl⟩
    · next hkind =>
      obtain ⟨⟨n, r⟩, hr, he⟩ := Option.map_eq_some_iff.mp h
      cases he
      obtain ⟨b, t, rfl, hb⟩ := first_byte hkind
      rcases (special_byte b).1 hb with hinfo | hinfo
      · rw [plain_small hr (by omega), hinfo]
        exact ⟨.bool false, .bool _, by simp [levels], rfl⟩
      · rw [plain_small hr (by omega), hinfo]
        exact ⟨.bool true, .bool _, by simp [levels], rfl⟩
    · next hkind =>
      obtain ⟨⟨n, r⟩, hr, he⟩ := Option.map_eq_some_iff.mp h
      cases he
      obtain ⟨b, t, rfl, hb⟩ := first_byte hkind
      have hinfo := (special_byte b).2.1 hb
      rw [plain_small hr (by omega), hinfo]
      exact ⟨.null, .null, by simp [levels], rfl⟩
    · next hkind =>
      obtain ⟨⟨n, r⟩, hr, he⟩ := Option.map_eq_some_iff.mp h
      cases he
      obtain ⟨b, t, rfl, hb⟩ := first_byte hkind
      have hinfo := (special_byte b).2.2 hb
      rw [plain_small hr (by omega), hinfo]
      exact ⟨.undefined, .undefined, by simp [levels], rfl⟩
    · simp only [Option.bind_eq_bind, Option.bind_eq_some_iff] at h
      obtain ⟨⟨tag, r⟩, hr, ⟨inner, r1⟩, hi, he⟩ := h
      cases he
      obtain ⟨i, hwf, hle, rfl⟩ := ih _ _ _ hi
      exact ⟨.tag tag i, .tag (Cbor.plain_le hr) hwf, by rw [levels]; omega, rfl⟩
    · simp only [Option.bind_eq_bind, Option.bind_eq_some_iff] at h
      obtain ⟨⟨length, r⟩, hr, n, hn, h⟩ := h
      split at h
      · simp at h
      · simp only [Option.bind_eq_some_iff] at h
        obtain ⟨⟨written, r1⟩, hi, he⟩ := h
        cases he
        obtain ⟨items, rfl, hall, rfl⟩ := canonicalizeItems_sound ih hi
        subst hn
        have hlevels := Item.levelsItems_le_iff.mpr fun i hi => (hall i hi).2
        exact ⟨.array items, .array (Cbor.plain_le (Cbor.container_eq_plain hr))
          fun i hi => (hall i hi).1, by rw [levels]; omega, rfl⟩
    · simp only [Option.bind_eq_bind, Option.bind_eq_some_iff] at h
      obtain ⟨⟨length, r⟩, hr, n, hn, h⟩ := h
      split at h
      · simp at h
      · simp only [Option.bind_eq_some_iff] at h
        obtain ⟨⟨written, r1⟩, hi, he⟩ := h
        cases he
        obtain ⟨entries, rfl, hall, -, hsorted, rfl⟩ := canonicalizeEntries_sound ih hi
        subst hn
        have hlevels := Item.levelsEntries_le_iff.mpr fun e he => (hall e he).2
        exact ⟨.map entries, .map (Cbor.plain_le (Cbor.container_eq_plain hr))
          (fun e he => (hall e he).1.1) (fun e he => (hall e he).1.2) hsorted,
          by rw [levels]; omega, rfl⟩
    · cases h
    · cases h

/-! ### Every encoding passes -/

lemma length_le_encodeItems {items : List Item} (h : ∀ i ∈ items, WellFormed i) :
    items.length ≤ (encodeItems items).length := by
  induction items with
  | nil => simp
  | cons i items ih =>
    have hi := List.length_pos_iff.mpr (Item.encode_ne_nil (h i (by simp)))
    have hrest := ih fun j hj => h j (List.mem_cons_of_mem _ hj)
    simp only [encodeItems, List.length_append, List.length_cons]
    omega

lemma length_le_encodeEntries {entries : List (Item × Item)}
    (hkeys : ∀ e ∈ entries, WellFormed e.1) (hvalues : ∀ e ∈ entries, WellFormed e.2) :
    2 * entries.length ≤ (encodeEntries entries).length := by
  induction entries with
  | nil => simp
  | cons e entries ih =>
    obtain ⟨key, value⟩ := e
    have hk := List.length_pos_iff.mpr (Item.encode_ne_nil (hkeys (key, value) (by simp)))
    have hv := List.length_pos_iff.mpr (Item.encode_ne_nil (hvalues (key, value) (by simp)))
    have hrest := ih (fun e he => hkeys e (List.mem_cons_of_mem _ he))
      fun e he => hvalues e (List.mem_cons_of_mem _ he)
    simp only [encodeEntries, List.length_append, List.length_cons] at hk hv ⊢
    omega

/-- The encoding of an item is read and written as it is, whatever follows it. -/
def Passes (item : Bytes → Option (Bytes × Bytes)) (i : Item) : Prop :=
  ∀ z, item (encode i ++ z) = some (encode i, z)

lemma canonicalizeItems_complete {item : Bytes → Option (Bytes × Bytes)} {items : List Item}
    (h : ∀ i ∈ items, Passes item i) (z : Bytes) :
    canonicalizeItems item items.length (encodeItems items ++ z) = some (encodeItems items, z) := by
  induction items with
  | nil => rfl
  | cons i items ih =>
    rw [List.length_cons, canonicalizeItems, encodeItems, List.append_assoc, h i (by simp)]
    simp [ih fun j hj => h j (List.mem_cons_of_mem _ hj)]

lemma canonicalizeEntries_complete {item : Bytes → Option (Bytes × Bytes)}
    {entries : List (Item × Item)} (h : ∀ e ∈ entries, Passes item e.1 ∧ Passes item e.2)
    (hsorted : entries.Pairwise fun a b => KeyBefore (encode a.1) (encode b.1))
    {previous : Option Bytes} (hprevious : ∀ p ∈ previous, ∀ e ∈ entries, KeyBefore p (encode e.1))
    (z : Bytes) :
    canonicalizeEntries item previous entries.length (encodeEntries entries ++ z) =
      some (encodeEntries entries, z) := by
  induction entries generalizing previous with
  | nil => rfl
  | cons e entries ih =>
    obtain ⟨key, value⟩ := e
    obtain ⟨hkey, hvalue⟩ := h (key, value) (by simp)
    rw [List.pairwise_cons] at hsorted
    have hrest : canonicalizeEntries item (some (encode key)) entries.length
        (encodeEntries entries ++ z) = some (encodeEntries entries, z) := by
      refine ih (fun e he => h e (List.mem_cons_of_mem _ he)) hsorted.2 ?_
      rintro p ⟨⟩ e he
      exact hsorted.1 e he
    have horder : previous.any (fun p => canonicalKeyOrder p (encode key) != .lt) = false := by
      cases previous with
      | none => rfl
      | some p =>
        have := canonicalKeyOrder_eq_lt.mpr (hprevious p rfl (key, value) (by simp))
        simp [this]
    rw [List.length_cons, canonicalizeEntries, encodeEntries, List.append_assoc, List.append_assoc,
      hkey]
    simp [horder, hvalue (encodeEntries entries ++ z), hrest]

lemma plain_head {major n : ℕ} (hm : major < 8) (hn : n ≤ u64Max) (z : Bytes) :
    Cbor.plain major (Cbor.head major n ++ z) = some (n, z) := by
  rw [Cbor.plain, Cbor.readHead_head hm hn]
  exact if_pos rfl

/-- A simple value is read back from the one or the two bytes it is written with. -/
lemma plain_simple {n : ℕ} (h : n < 256) (z : Bytes) :
    Cbor.plain 7 (encode (.simple n) ++ z) = some (n, z) := by
  rw [encode]
  split
  · next hlt =>
    have hhead : Cbor.head 7 n = [Cbor.initial 7 n] := by rw [Cbor.head, if_pos (by omega)]
    rw [← hhead]
    exact plain_head (by omega) (by simp only [u64Max]; omega) z
  · next hge =>
    obtain ⟨h1, h2⟩ := Cbor.initial_toNat (show 7 < 8 by omega) (show 24 < 32 by omega)
    have hread : Cbor.readBe 1 (UInt8.ofNat n :: z) = some (n, z) := Cbor.readBe_be (by omega) z
    have hargument : Cbor.argument 24 (UInt8.ofNat n :: z) = some (n, z) := hread
    rw [List.cons_append, List.cons_append, List.nil_append, Cbor.plain, Cbor.readHead, h1, h2,
      hargument]
    rfl

/-- The encoding of an item passes within its levels. -/
lemma canonicalizeItem_complete {d : ℕ} {i : Item} (hi : WellFormed i) (hd : levels i ≤ d) :
    Passes (canonicalizeItem d) i := by
  induction d generalizing i with
  | zero => cases i <;> simp [levels] at hd
  | succ d ih =>
    intro z
    have hkind := Item.datatype_encode hi z
    rw [canonicalizeItem, hkind]
    cases hi with
    | unsigned h =>
      simp only [Item.kind, encode]
      rw [Cbor.u64, Cbor.uint_head h (Nat.le_refl _)]
      rfl
    | negative h =>
      simp only [Item.kind, encode]
      rw [plain_head (by omega) h]
      rfl
    | bytes h =>
      simp only [Item.kind, encode]
      rw [List.append_assoc, Cbor.bytes, Cbor.string_head (by omega) h]
      rfl
    | text h =>
      simp only [Item.kind, encode]
      rw [List.append_assoc, Cbor.str_head h]
      rfl
    | tag h hitem =>
      rw [levels] at hd
      simp only [Item.kind, encode]
      rw [List.append_assoc, plain_head (by omega) h]
      simp [ih hitem (by omega) z]
    | array h hitems =>
      rw [levels] at hd
      have hlevels := Item.levelsItems_le_iff.mp (Nat.le_of_succ_le_succ hd)
      have hguard := length_le_encodeItems hitems
      have hread := canonicalizeItems_complete (fun i hi => ih (hitems i hi) (hlevels i hi)) z
      simp only [Item.kind, encode]
      rw [List.append_assoc, Cbor.array, Cbor.container_head (by omega) h]
      simp only [Option.bind_eq_bind, Option.bind_some, List.length_append]
      rw [if_neg (by omega), hread]
      rfl
    | @map entries h hkeys hvalues hsorted =>
      rw [levels] at hd
      have hlevels := Item.levelsEntries_le_iff.mp (Nat.le_of_succ_le_succ hd)
      have hguard := length_le_encodeEntries hkeys hvalues
      have hitems : ∀ e ∈ entries,
          Passes (canonicalizeItem d) e.1 ∧ Passes (canonicalizeItem d) e.2 := fun e he =>
        ⟨ih (hkeys e he) (hlevels e he).1, ih (hvalues e he) (hlevels e he).2⟩
      have hnone : ∀ p ∈ (none : Option Bytes), ∀ e ∈ entries, KeyBefore p (encode e.1) := by simp
      have hread := canonicalizeEntries_complete hitems hsorted hnone z
      simp only [Item.kind, encode]
      rw [List.append_assoc, Cbor.map, Cbor.container_head (by omega) h]
      simp only [Option.bind_eq_bind, Option.bind_some, List.length_append]
      rw [if_neg (by omega), hread]
      rfl
    | simple h =>
      have hread := plain_simple h z
      simp only [Item.kind, encode] at hread ⊢
      rw [hread]
      rfl
    | bool b => cases b <;> rfl
    | null => rfl
    | undefined => rfl

/-- **What is kept verbatim is deterministic CBOR.** A word passes exactly when it is the encoding
of a well-formed item of at most sixteen levels; that item is then the only one. -/
theorem isCanonicalUnknownValue_iff (b : Bytes) :
    isCanonicalUnknownValue b = true ↔
      ∃! i : Item, WellFormed i ∧ levels i ≤ 16 ∧ encode i = b := by
  rw [isCanonicalUnknownValue, decide_eq_true_iff]
  constructor
  · intro h
    obtain ⟨i, hi, hle, heq⟩ := canonicalizeItem_sound _ _ _ h
    refine ⟨i, ⟨hi, hle, heq⟩, ?_⟩
    rintro j ⟨hj, -, heq'⟩
    exact Item.encode_inj hj hi (heq'.trans heq.symm)
  · rintro ⟨i, ⟨hi, hle, rfl⟩, -⟩
    have := canonicalizeItem_complete hi hle []
    rwa [List.append_nil] at this

end Ladon.Codec

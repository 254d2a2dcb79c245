import Ladon.Codec

/-!
What is encoded is decoded again.

A payload that keeps the limits of the decoder is read back from its encoding as it was. Each
reader takes exactly the bytes its writer wrote off the front of the input, whatever follows.
-/

namespace Ladon.CodecRoundtrip

open Ladon.Error Ladon.Model Ladon.Codec Ladon.Lib Ladon.Lib.Utf8 Ladon.Lib.Word

/-! ### The parts -/

lemma ok_bind {α β : Type} (a : α) (f : α → Except LadonError β) :
    (Except.ok a >>= f) = f a := rfl

lemma definiteLen_map {n m : ℕ} (hn : n ≤ m) (hm : m ≤ u64Max) (z : Bytes) :
    definiteLen (Cbor.map (Cbor.head 5 n ++ z)) m = .ok (n, z) := by
  rw [Cbor.map, Cbor.container_head (by omega) (hn.trans hm)]
  exact if_neg (by omega)

lemma definiteLen_array {n m : ℕ} (hn : n ≤ m) (hm : m ≤ u64Max) (z : Bytes) :
    definiteLen (Cbor.array (Cbor.head 4 n ++ z)) m = .ok (n, z) := by
  rw [Cbor.array, Cbor.container_head (by omega) (hn.trans hm)]
  exact if_neg (by omega)

lemma expectMap_head (n : ℕ) (hn : n ≤ u64Max) (z : Bytes) :
    expectMap n (Cbor.head 5 n ++ z) = .ok z := by
  rw [expectMap, definiteLen_map (le_refl n) hn, ok_bind]
  exact if_pos rfl

lemma expectKey_uint (key : ℕ) (h : key ≤ 255) (z : Bytes) :
    expectKey key (encodeUint key ++ z) = .ok z := by
  rw [expectKey, encodeUint, Cbor.u8, Cbor.uint_head h (by norm_num [u64Max])]
  exact if_pos rfl

lemma u64_uint {n : ℕ} (h : n ≤ u64Max) (z : Bytes) :
    Cbor.u64 (encodeUint n ++ z) = some (n, z) :=
  Cbor.uint_head h (le_refl _) z

lemma decodeId_encodeId (id : SecretId) (z : Bytes) : decodeId (encodeId id ++ z) = .ok (id, z) := by
  obtain ⟨⟨b, hb⟩⟩ := id
  have hlen : b.length ≤ u64Max := by rw [hb]; norm_num [u64Max]
  simp only [decodeId, encodeId, SecretId.asBytes, List.append_assoc]
  rw [Cbor.bytes, Cbor.string_head (by omega) hlen]
  simp only [orInvalid, Uuid.ofBytes, hb, dite_true, ok_bind]
  rfl

lemma str_encodeStr {s : String} (h : (ofString s).length ≤ u64Max) (z : Bytes) :
    Cbor.str (encodeStr s ++ z) = some (s, z) := by
  rw [encodeStr, List.append_assoc, Cbor.str_head h]

lemma bytes_encode {b : Bytes} (h : b.length ≤ u64Max) (z : Bytes) :
    Cbor.bytes (Cbor.head 2 b.length ++ b ++ z) = some (b, z) := by
  rw [List.append_assoc, Cbor.bytes, Cbor.string_head (by omega) h]

/-- A reader undoes a writer on a value. -/
def Reads {α : Type} (read : Reader α) (write : α → Bytes) (a : α) : Prop :=
  ∀ z, read (write a ++ z) = .ok (a, z)

lemma decodeHint_encodeHint (h : TextHint) : decodeHint (encodeHint h) = .ok h := by
  cases h <;> rfl

lemma encodeHint_le (h : TextHint) : encodeHint h ≤ 255 := by cases h <;> simp [encodeHint]

lemma reads_field (f : SecretField) : Reads decodeField encodeField f := by
  intro z
  have hname : (ofString f.name.text).length ≤ u64Max := f.name.valid.1.trans (by norm_num [u64Max])
  have hvalue : f.value.length ≤ u64Max := f.value_le.trans (by norm_num [u64Max, maxFieldBytes])
  have hhint : Cbor.u8 (encodeUint (encodeHint f.textHint) ++ z) =
      some (encodeHint f.textHint, z) :=
    Cbor.uint_head (encodeHint_le _) (by norm_num [u64Max]) z
  have hmap := expectMap_head 3 (by norm_num [u64Max])
  simp only [encodeField, decodeField, List.append_assoc, hmap, ok_bind,
    expectKey_uint 0 (by omega), expectKey_uint 1 (by omega), str_encodeStr hname, orInvalid,
    FieldName.parse_text, asInvalid]
  rw [← List.append_assoc (Cbor.head 2 f.value.length), bytes_encode hvalue]
  simp only [ok_bind, expectKey_uint 2 (by omega), hhint, decodeHint_encodeHint,
    SecretField.new_parts]
  rfl

lemma decodeMany_flatMap {α : Type} {read : Reader α} {write : α → Bytes} {l : List α}
    (h : ∀ a ∈ l, Reads read write a) (z : Bytes) :
    decodeMany read l.length (l.flatMap write ++ z) = .ok (l, z) := by
  induction l with
  | nil => rfl
  | cons a t ih =>
    have hrest := ih fun b hb => h b (List.mem_cons_of_mem _ hb)
    rw [List.flatMap_cons, List.append_assoc, List.length_cons, decodeMany, h a (by simp)]
    simp only [ok_bind, hrest]
    rfl

lemma decodeSettings_encode {seconds : ℕ} (h : seconds ≤ u32Max) (z : Bytes) :
    decodeSettings (Cbor.head 5 1 ++ (encodeUint 0 ++ (encodeUint seconds ++ z))) =
      .ok (seconds, z) := by
  have hu : Cbor.u32 (encodeUint seconds ++ z) = some (seconds, z) :=
    Cbor.uint_head h (by norm_num [u64Max, u32Max]) z
  rw [decodeSettings, expectMap_head 1 (by norm_num [u64Max]), ok_bind,
    expectKey_uint 0 (by omega), ok_bind, hu]
  rfl

/-! ### Unknown entries -/

lemma canonicalizeItems_skips {item : Bytes → Option (Bytes × Bytes)}
    (hitem : ∀ w out rest, item w = some (out, rest) → ∃ v, w = v ++ rest ∧ Cbor.Skips v)
    {n : ℕ} {w out rest : Bytes} (h : canonicalizeItems item n w = some (out, rest)) :
    ∃ v, w = v ++ rest ∧ Cbor.SkipsAll n v := by
  induction n generalizing w out with
  | zero => cases h; exact ⟨[], rfl, Cbor.skipsAll_zero⟩
  | succ n ih =>
    simp only [canonicalizeItems, Option.bind_eq_bind, Option.bind_eq_some_iff] at h
    obtain ⟨⟨first, w'⟩, h1, ⟨others, w''⟩, h2, h3⟩ := h
    cases h3
    obtain ⟨v, rfl, hv⟩ := hitem _ _ _ h1
    obtain ⟨vs, rfl, hvs⟩ := ih h2
    exact ⟨v ++ vs, by rw [List.append_assoc], hv.cons hvs⟩

lemma canonicalizeEntries_skips {item : Bytes → Option (Bytes × Bytes)}
    (hitem : ∀ w out rest, item w = some (out, rest) → ∃ v, w = v ++ rest ∧ Cbor.Skips v)
    {n : ℕ} {previous : Option Bytes} {w out rest : Bytes}
    (h : canonicalizeEntries item previous n w = some (out, rest)) :
    ∃ v, w = v ++ rest ∧ Cbor.SkipsAll (2 * n) v := by
  induction n generalizing w out previous with
  | zero => cases h; exact ⟨[], rfl, Cbor.skipsAll_zero⟩
  | succ n ih =>
    simp only [canonicalizeEntries, Option.bind_eq_bind, Option.bind_eq_some_iff] at h
    obtain ⟨⟨key, w'⟩, h1, h⟩ := h
    split at h
    · simp at h
    · simp only [Option.bind_eq_some_iff] at h
      obtain ⟨⟨value, w''⟩, h2, ⟨others, w'''⟩, h3, h4⟩ := h
      cases h4
      obtain ⟨k, rfl, hk⟩ := hitem _ _ _ h1
      obtain ⟨v, rfl, hv⟩ := hitem _ _ _ h2
      obtain ⟨vs, rfl, hvs⟩ := ih h3
      exact ⟨k ++ (v ++ vs), by simp only [List.append_assoc], hk.cons (hv.cons hvs)⟩

/-- An item that can be written again is an item to `skip`. -/
lemma canonicalizeItem_skips {depth : ℕ} : ∀ w out rest,
    canonicalizeItem depth w = some (out, rest) → ∃ v, w = v ++ rest ∧ Cbor.Skips v := by
  induction depth with
  | zero => intro w out rest h; cases h
  | succ depth ih =>
    intro w out rest h
    unfold canonicalizeItem at h
    split at h
    · obtain ⟨⟨n, r⟩, hr, he⟩ := Option.map_eq_some_iff.mp h
      cases he
      exact Cbor.skips_plain (.inl rfl) (Cbor.uint_eq_plain hr).1
    · obtain ⟨⟨n, r⟩, hr, he⟩ := Option.map_eq_some_iff.mp h
      cases he
      exact Cbor.skips_plain (.inr (.inl rfl)) hr
    · obtain ⟨⟨b, r⟩, hr, he⟩ := Option.map_eq_some_iff.mp h
      cases he
      exact Cbor.skips_bytes hr
    · obtain ⟨⟨s, r⟩, hr, he⟩ := Option.map_eq_some_iff.mp h
      cases he
      exact Cbor.skips_str hr
    iterate 4
      · obtain ⟨⟨n, r⟩, hr, he⟩ := Option.map_eq_some_iff.mp h
        cases he
        exact Cbor.skips_plain (.inr (.inr rfl)) hr
    · simp only [Option.bind_eq_bind, Option.bind_eq_some_iff] at h
      obtain ⟨⟨tag, r⟩, hr, ⟨item, r'⟩, hi, he⟩ := h
      cases he
      obtain ⟨v, hv, hs⟩ := ih _ _ _ hi
      refine Cbor.skips_container (.inr (.inr ⟨rfl, rfl⟩)) hr hv ?_
      simpa using hs.cons Cbor.skipsAll_zero
    · simp only [Option.bind_eq_bind, Option.bind_eq_some_iff] at h
      obtain ⟨⟨length, r⟩, hr, n, hn, h⟩ := h
      split at h
      · simp at h
      · simp only [Option.bind_eq_some_iff] at h
        obtain ⟨⟨items, r'⟩, hi, he⟩ := h
        cases he
        obtain ⟨v, hv, hs⟩ := canonicalizeItems_skips ih hi
        subst hn
        exact Cbor.skips_container (.inl ⟨rfl, rfl⟩) (Cbor.container_eq_plain hr) hv hs
    · simp only [Option.bind_eq_bind, Option.bind_eq_some_iff] at h
      obtain ⟨⟨length, r⟩, hr, n, hn, h⟩ := h
      split at h
      · simp at h
      · simp only [Option.bind_eq_some_iff] at h
        obtain ⟨⟨entries, r'⟩, hi, he⟩ := h
        cases he
        obtain ⟨v, hv, hs⟩ := canonicalizeEntries_skips ih hi
        subst hn
        exact Cbor.skips_container (.inr (.inl ⟨rfl, rfl⟩)) (Cbor.container_eq_plain hr) hv hs
    · cases h
    · cases h

/-- A canonical value is skipped as one item. -/
lemma skip_canonical {v : Bytes} (h : isCanonicalUnknownValue v) (z : Bytes) :
    Cbor.skip (v ++ z) = some z := by
  obtain ⟨u, hu, hs⟩ := canonicalizeItem_skips v v [] (by simpa [isCanonicalUnknownValue] using h)
  rw [List.append_nil] at hu
  subst hu
  exact hs.skip z

lemma orInvalid_eq_ok {α : Type} {x : Option α} {a : α} (h : orInvalid x = .ok a) : x = some a := by
  cases x with
  | none => cases h
  | some b => cases h; rfl

lemma decodeSettings_le {w w' : Bytes} {n : ℕ} (h : decodeSettings w = .ok (n, w')) :
    n ≤ u32Max := by
  simp only [decodeSettings, bind_eq_ok] at h
  obtain ⟨w1, -, w2, -, h⟩ := h
  exact (Cbor.uint_eq_plain (orInvalid_eq_ok h)).2

lemma length_le_flatMap {α : Type} {l : List α} {f : α → Bytes} (h : ∀ a ∈ l, f a ≠ []) :
    l.length ≤ (l.flatMap f).length := by
  induction l with
  | nil => simp
  | cons a t ih =>
    have h1 := List.length_pos_iff.mpr (h a (by simp))
    have h2 := ih fun b hb => h b (List.mem_cons_of_mem _ hb)
    simp only [List.flatMap_cons, List.length_append, List.length_cons]
    omega

section Payload

variable [UnicodeNormalization]

lemma reads_record (r : SecretRecord) : Reads decodeRecord encodeRecord r := by
  intro z
  have hname : (ofString r.name.text).length ≤ u64Max :=
    r.name.valid.2.1.trans (by norm_num [u64Max])
  have hpos : r.fields.length ≠ 0 := by simpa using r.fields_ne_nil
  have hmap := expectMap_head 3 (by norm_num [u64Max])
  simp only [encodeRecord, decodeRecord, List.append_assoc, hmap, ok_bind,
    expectKey_uint 0 (by omega), expectKey_uint 1 (by omega),
    expectKey_uint 2 (by omega), decodeId_encodeId, str_encodeStr hname, orInvalid,
    definiteLen_array r.fields_le (by norm_num [u64Max, maxFieldsPerRecord]), if_neg hpos,
    decodeMany_flatMap fun f _ => reads_field f, SecretRecord.fromParts_parts, asInvalid]
  rfl

lemma decodeRecords_flatMap {records : List SecretRecord} (h : records.length ≤ maxRecords)
    (z : Bytes) : decodeRecords (Cbor.head 4 records.length ++ (records.flatMap encodeRecord ++ z)) =
      .ok (records, z) := by
  rw [decodeRecords, definiteLen_array h (by norm_num [u64Max, maxRecords]), ok_bind]
  exact decodeMany_flatMap (fun r _ => reads_record r) z

/-! ### Payloads -/

/-- What every payload keeps, the number of its records apart. -/
structure Consistent (p : VaultPayload) : Prop where
  ids_nodup : (p.records.map SecretRecord.id).Nodup
  names_nodup : (p.records.map SecretRecord.name).Nodup
  revision_le : p.revision ≤ u64Max
  idleTimeout_le : p.idleTimeoutSeconds ≤ u32Max
  unknown_le : p.unknown.entries.length ≤ maxRecords
  unknown_key : ∀ e ∈ p.unknown.entries, 3 < e.1 ∧ e.1 ≤ u64Max
  unknown_canonical : ∀ e ∈ p.unknown.entries, isCanonicalUnknownValue e.2

lemma decodeEntries_key {n key : ℕ} {p : Partial} (hkey : key ≤ u64Max)
    (hprev : ∀ previous ∈ p.previousKey, previous < key) (w : Bytes) :
    decodeEntries (n + 1) p (encodeUint key ++ w) =
      (decodeEntry { p with previousKey := some key } key w >>= fun r => decodeEntries n r.1 r.2) := by
  have hany : p.previousKey.any (fun previous => decide (key ≤ previous)) = false := by
    cases hp : p.previousKey with
    | none => rfl
    | some previous => simpa using hprev previous (by simp [hp])
  rw [decodeEntries, u64_uint hkey]
  simp only [orInvalid, ok_bind, hany, Bool.false_eq_true, if_false]

/-- An entry of a later version is kept as it is. -/
lemma decodeEntry_unknown {p : Partial} {key : ℕ} (hkey : 3 < key) {v : Bytes}
    (hv : isCanonicalUnknownValue v) (z : Bytes) :
    decodeEntry p key (v ++ z) = .ok ({ p with unknown := p.unknown.insert key v }, z) := by
  have htake : (v ++ z).take ((v ++ z).length - z.length) = v := by simp
  rw [decodeEntry, if_neg (by omega), if_neg (by omega), if_neg (by omega), if_neg (by omega),
    if_neg (by omega), skip_canonical hv]
  simp only [orInvalid, ok_bind, htake, hv, not_true_eq_false, if_false]
  rfl

lemma decodeEntries_unknown {l : List (ℕ × Bytes)} (hsorted : l.Pairwise fun a b => a.1 < b.1)
    (hkey : ∀ e ∈ l, 3 < e.1 ∧ e.1 ≤ u64Max) (hcanon : ∀ e ∈ l, isCanonicalUnknownValue e.2)
    {p : Partial} (hprev : ∀ e ∈ l, ∀ previous ∈ p.previousKey, previous < e.1)
    (hunk : ∀ e ∈ l, ∀ e' ∈ p.unknown.entries, e'.1 < e.1) (z : Bytes) :
    ∃ p', decodeEntries l.length p (l.flatMap (fun e => encodeUint e.1 ++ e.2) ++ z) = .ok (p', z) ∧
      p'.vaultId = p.vaultId ∧ p'.revision = p.revision ∧ p'.records = p.records ∧
      p'.idleTimeoutSeconds = p.idleTimeoutSeconds ∧
      p'.unknown.entries = p.unknown.entries ++ l := by
  induction l generalizing p with
  | nil => exact ⟨p, rfl, rfl, rfl, rfl, rfl, by simp⟩
  | cons e t ih =>
    obtain ⟨hlt, ht⟩ := List.pairwise_cons.mp hsorted
    have he := hkey e (by simp)
    have hins : (p.unknown.insert e.1 e.2).entries = p.unknown.entries ++ [e] :=
      SortedMap.insertEntry_last (hunk e (by simp))
    -- The state behind this entry, from which the induction goes on.
    obtain ⟨p', h1, h2, h3, h4, h5, h6⟩ := @ih ht (fun f hf => hkey f (List.mem_cons_of_mem _ hf))
      (fun f hf => hcanon f (List.mem_cons_of_mem _ hf))
      { p with previousKey := some e.1, unknown := p.unknown.insert e.1 e.2 }
      (fun f hf previous hp => by cases hp; exact hlt f hf)
      (fun f hf e' he' => by
        dsimp only at he'
        rw [hins] at he'
        rcases List.mem_append.mp he' with he' | he'
        · exact hunk f (List.mem_cons_of_mem _ hf) e' he'
        · rw [List.mem_singleton.mp he']; exact hlt f hf)
    refine ⟨p', ?_, h2, h3, h4, h5, ?_⟩
    · rw [List.flatMap_cons, List.length_cons, List.append_assoc, List.append_assoc,
        decodeEntries_key he.2 (hprev e (by simp)),
        decodeEntry_unknown he.1 (hcanon e (by simp)), ok_bind]
      exact h1
    · rw [h6, hins, List.append_assoc]
      rfl

lemma decodeEntry_vaultId {q : Partial} (hq : q.vaultId = none) (id : SecretId) (z : Bytes) :
    decodeEntry q 0 (encodeId id ++ z) = .ok ({ q with vaultId := some id }, z) := by
  rw [decodeEntry, if_pos (by simp [hq]), decodeId_encodeId]
  rfl

lemma decodeEntry_revision {q : Partial} (hq : q.revision = none) {n : ℕ} (hn : n ≤ u64Max)
    (z : Bytes) : decodeEntry q 1 (encodeUint n ++ z) = .ok ({ q with revision := some n }, z) := by
  rw [decodeEntry, if_neg (by omega), if_pos (by simp [hq]), u64_uint hn]
  rfl

lemma decodeEntry_records {q : Partial} (hq : q.records = none) {records : List SecretRecord}
    (h : records.length ≤ maxRecords) (z : Bytes) :
    decodeEntry q 2 (Cbor.head 4 records.length ++ (records.flatMap encodeRecord ++ z)) =
      .ok ({ q with records := some records }, z) := by
  rw [decodeEntry, if_neg (by omega), if_neg (by omega), if_pos (by simp [hq]),
    decodeRecords_flatMap h]
  rfl

lemma decodeEntry_settings {q : Partial} (hq : q.idleTimeoutSeconds = none) {n : ℕ}
    (hn : n ≤ u32Max) (z : Bytes) :
    decodeEntry q 3 (Cbor.head 5 1 ++ (encodeUint 0 ++ (encodeUint n ++ z))) =
      .ok ({ q with idleTimeoutSeconds := some n }, z) := by
  rw [decodeEntry, if_neg (by omega), if_neg (by omega), if_neg (by omega), if_pos (by simp [hq]),
    decodeSettings_encode hn]
  rfl

/-- The state of the decoder at the value of the records. -/
def beforeRecords (p : VaultPayload) : Partial where
  vaultId := some p.vaultId
  revision := some p.revision
  previousKey := some 2

/-- The state of the decoder behind the entries this version knows. -/
def afterKnown (p : VaultPayload) : Partial where
  vaultId := some p.vaultId
  revision := some p.revision
  records := some p.records
  idleTimeoutSeconds := some p.idleTimeoutSeconds
  previousKey := some 3

lemma decodeEntries_beforeRecords {n : ℕ} {p : VaultPayload} (h : p.revision ≤ u64Max) (z : Bytes) :
    decodeEntries (n + 3) {} (encodeUint 0 ++ (encodeId p.vaultId ++ (encodeUint 1 ++
      (encodeUint p.revision ++ (encodeUint 2 ++ z))))) =
    (decodeEntry (beforeRecords p) 2 z >>= fun r => decodeEntries n r.1 r.2) := by
  have small : ∀ k, k ≤ 3 → k ≤ u64Max := fun k hk => hk.trans (by norm_num [u64Max])
  rw [decodeEntries_key (small 0 (by omega)) (by simp), decodeEntry_vaultId rfl, ok_bind,
    decodeEntries_key (small 1 (by omega)) (by simp), decodeEntry_revision rfl h, ok_bind,
    decodeEntries_key (small 2 (by omega)) (by simp)]
  rfl

lemma decodeEntries_known {n : ℕ} {p : VaultPayload} (h : Consistent p)
    (hrecords : p.records.length ≤ maxRecords) (z : Bytes) :
    decodeEntries (n + 4) {} (encodeUint 0 ++ (encodeId p.vaultId ++ (encodeUint 1 ++
      (encodeUint p.revision ++ (encodeUint 2 ++ (Cbor.head 4 p.records.length ++
        (p.records.flatMap encodeRecord ++ (encodeUint 3 ++ (Cbor.head 5 1 ++ (encodeUint 0 ++
          (encodeUint p.idleTimeoutSeconds ++ z))))))))))) =
    decodeEntries n (afterKnown p) z := by
  rw [decodeEntries_beforeRecords h.revision_le, decodeEntry_records rfl hrecords, ok_bind,
    decodeEntries_key (by norm_num [u64Max]) (by simp [beforeRecords]),
    decodeEntry_settings rfl h.idleTimeout_le, ok_bind]
  rfl

lemma encodePayload_eq_ok {p : VaultPayload} {b : Bytes} (h : encodePayload p = .ok b) :
    b = p.encoded ∧ p.encoded.length ≤ maxVaultPayloadBytes := by
  unfold encodePayload at h
  split at h
  · cases h
  · next hlen => cases h; exact ⟨rfl, Nat.not_lt.mp hlen⟩

lemma assemble_eq {p : VaultPayload} (h : Consistent p) (hrecords : p.records.length ≤ maxRecords)
    (he : encodePayload p = .ok p.encoded) {p' : Partial} (h1 : p'.vaultId = some p.vaultId)
    (h2 : p'.revision = some p.revision) (h3 : p'.records = some p.records)
    (h4 : p'.idleTimeoutSeconds = some p.idleTimeoutSeconds) (h5 : p'.unknown = p.unknown) :
    assemble p.encoded p' = .ok p := by
  have hnew : VaultPayload.new p.vaultId p.revision p.records = .ok
      ⟨p.vaultId, p.revision, p.records, defaultIdleTimeoutSeconds, .empty⟩ := by
    rw [VaultPayload.new, if_neg (Nat.not_lt.mpr hrecords), if_pos ⟨h.ids_nodup, h.names_nodup⟩]
  simp only [assemble, h1, h2, h3, h4, h5, orInvalid, ok_bind, hnew, he, ne_eq, not_true_eq_false,
    if_false]

/-- **A payload that keeps the limits is read back from its encoding.** -/
theorem decodePayload_encodePayload {p : VaultPayload} (h : Consistent p)
    (hrecords : p.records.length ≤ maxRecords) {b : Bytes} (he : encodePayload p = .ok b) :
    decodePayload b = .ok p := by
  obtain ⟨rfl, hlen⟩ := encodePayload_eq_ok he
  have hunknown := h.unknown_le
  obtain ⟨p', h1, h2, h3, h4, h5, h6⟩ := decodeEntries_unknown p.unknown.sorted h.unknown_key
    h.unknown_canonical (p := afterKnown p)
    (fun e hm previous hp => by cases hp; exact (h.unknown_key e hm).1)
    (fun e _ e' he' => by cases he') []
  rw [List.append_nil] at h1
  have hloop := (decodeEntries_known h hrecords _).trans h1
  have hmap := definiteLen_map (n := 4 + p.unknown.entries.length) (m := 4 + maxRecords)
    (by omega) (by norm_num [u64Max, maxRecords])
  rw [Nat.add_comm p.unknown.entries.length 4] at hloop
  rw [decodePayload, if_neg (Nat.not_lt.mpr hlen)]
  nth_rewrite 1 [VaultPayload.encoded]
  simp only [hmap, hloop, ok_bind, ne_eq, not_true_eq_false, if_false]
  exact assemble_eq h hrecords he h2 h3 h4 h5 (SortedMap.ext (by rw [h6]; rfl))

/-! ### What the decoder refuses and what it accepts -/

lemma encodeRecord_ne_nil (r : SecretRecord) : encodeRecord r ≠ [] := by
  simp [encodeRecord, Cbor.head_ne_nil]

lemma records_length_le_encoded (p : VaultPayload) : p.records.length ≤ p.encoded.length := by
  have := length_le_flatMap fun (r : SecretRecord) (_ : r ∈ p.records) => encodeRecord_ne_nil r
  simp only [VaultPayload.encoded, List.length_append]
  omega

lemma unknown_length_le_encoded (p : VaultPayload) :
    p.unknown.entries.length ≤ p.encoded.length := by
  have := length_le_flatMap (f := fun e : ℕ × Bytes => encodeUint e.1 ++ e.2)
    (l := p.unknown.entries) fun e _ => by simp [encodeUint, Cbor.head_ne_nil]
  simp only [VaultPayload.encoded, List.length_append]
  omega

/-- **A payload with too many records is never read back**, though it is encoded. -/
theorem decodePayload_tooManyRecords {p : VaultPayload} (h : Consistent p)
    (hrecords : maxRecords < p.records.length) {b : Bytes} (he : encodePayload p = .ok b) :
    decodePayload b = .error .invalidVaultPayload := by
  obtain ⟨rfl, hlen⟩ := encodePayload_eq_ok he
  have hunknown := h.unknown_le
  have hcount : p.records.length ≤ u64Max :=
    ((records_length_le_encoded p).trans hlen).trans (by norm_num [u64Max, maxVaultPayloadBytes])
  have hfail : ∀ z, decodeEntry (beforeRecords p) 2 (Cbor.head 4 p.records.length ++ z) =
      .error .invalidVaultPayload := by
    intro z
    rw [decodeEntry, if_neg (by omega), if_neg (by omega), if_pos ⟨rfl, rfl⟩, decodeRecords,
      Cbor.array, Cbor.container_head (by omega) hcount, definiteLen, if_pos hrecords]
    rfl
  have hmap := definiteLen_map (n := 4 + p.unknown.entries.length) (m := 4 + maxRecords)
    (by omega) (by norm_num [u64Max, maxRecords])
  rw [decodePayload, if_neg (Nat.not_lt.mpr hlen), VaultPayload.encoded]
  simp only [hmap, ok_bind]
  rw [show 4 + p.unknown.entries.length = (1 + p.unknown.entries.length) + 3 by omega,
    decodeEntries_beforeRecords h.revision_le, hfail]
  rfl

/-- What the entries read so far keep. -/
structure PartialOk (q : Partial) : Prop where
  revision : ∀ n ∈ q.revision, n ≤ u64Max
  idleTimeout : ∀ n ∈ q.idleTimeoutSeconds, n ≤ u32Max
  unknown : ∀ e ∈ q.unknown.entries, (3 < e.1 ∧ e.1 ≤ u64Max) ∧ isCanonicalUnknownValue e.2

lemma decodeEntry_ok {q q' : Partial} {key : ℕ} {w w' : Bytes} (hq : PartialOk q)
    (hkey : key ≤ u64Max) (h : decodeEntry q key w = .ok (q', w')) : PartialOk q' := by
  obtain ⟨h1, h2, h3⟩ := hq
  unfold decodeEntry at h
  split_ifs at h with c0 c1 c2 c3 c4
  · simp only [bind_eq_ok] at h
    obtain ⟨⟨id, r⟩, -, h⟩ := h
    cases h
    exact ⟨h1, h2, h3⟩
  · simp only [bind_eq_ok] at h
    obtain ⟨⟨n, r⟩, hn, h⟩ := h
    cases h
    refine ⟨fun m hm => ?_, h2, h3⟩
    cases hm
    exact (Cbor.uint_eq_plain (orInvalid_eq_ok hn)).2
  · simp only [bind_eq_ok] at h
    obtain ⟨⟨records, r⟩, -, h⟩ := h
    cases h
    exact ⟨h1, h2, h3⟩
  · simp only [bind_eq_ok] at h
    obtain ⟨⟨n, r⟩, hn, h⟩ := h
    cases h
    refine ⟨h1, fun m hm => ?_, h3⟩
    cases hm
    exact decodeSettings_le hn
  · simp only [bind_eq_ok] at h
    obtain ⟨r, -, h⟩ := h
    split at h
    · cases h
    · next hcanon =>
      cases h
      refine ⟨h1, h2, fun e he => ?_⟩
      rcases SortedMap.mem_insertEntry he with rfl | he
      · exact ⟨⟨by omega, hkey⟩, by simpa using hcanon⟩
      · exact h3 e he

lemma decodeEntries_ok {n : ℕ} {q q' : Partial} {w w' : Bytes} (hq : PartialOk q)
    (h : decodeEntries n q w = .ok (q', w')) : PartialOk q' := by
  induction n generalizing q w with
  | zero => cases h; exact hq
  | succ n ih =>
    simp only [decodeEntries, bind_eq_ok] at h
    obtain ⟨⟨key, r⟩, hkey, h⟩ := h
    split at h
    · cases h
    · simp only [bind_eq_ok] at h
      obtain ⟨⟨q1, r1⟩, h1, h⟩ := h
      have hle := (Cbor.uint_eq_plain (orInvalid_eq_ok hkey)).2
      have hq' : PartialOk { q with previousKey := some key } :=
        ⟨hq.revision, hq.idleTimeout, hq.unknown⟩
      exact ih (decodeEntry_ok hq' hle h1) h

lemma new_eq_ok {vaultId : SecretId} {revision : ℕ} {records : List SecretRecord}
    {p : VaultPayload} (h : VaultPayload.new vaultId revision records = .ok p) :
    p = ⟨vaultId, revision, records, defaultIdleTimeoutSeconds, .empty⟩ ∧
      records.length ≤ maxRecords ∧ (records.map SecretRecord.id).Nodup ∧
      (records.map SecretRecord.name).Nodup := by
  unfold VaultPayload.new at h
  split_ifs at h with h1 h2
  cases h
  exact ⟨rfl, Nat.not_lt.mp h1, h2.1, h2.2⟩

/-- A new payload keeps the limits. -/
lemma consistent_new {vaultId : SecretId} {revision : ℕ} {records : List SecretRecord}
    {p : VaultPayload} (hrev : revision ≤ u64Max)
    (h : VaultPayload.new vaultId revision records = .ok p) :
    Consistent p ∧ p.records.length ≤ maxRecords := by
  obtain ⟨rfl, hlen, hids, hnames⟩ := new_eq_ok h
  refine ⟨⟨hids, hnames, hrev, ?_, Nat.zero_le _, ?_, ?_⟩, hlen⟩
  · norm_num [defaultIdleTimeoutSeconds, u32Max]
  · intro e he; cases he
  · intro e he; cases he

/-- A payload that was decoded keeps the limits. -/
lemma consistent_decodePayload {input : Bytes} {p : VaultPayload}
    (h : decodePayload input = .ok p) : Consistent p ∧ p.records.length ≤ maxRecords := by
  unfold decodePayload at h
  split at h
  · cases h
  next hlen =>
  simp only [bind_eq_ok] at h
  obtain ⟨⟨entries, w⟩, hmap, ⟨q, rest⟩, hloop, h⟩ := h
  dsimp only at hloop h
  split at h
  · cases h
  simp only [assemble, bind_eq_ok] at h
  obtain ⟨vaultId, -, revision, hrev, records, hrec, payload, hnew, idle, hidle, encoded, henc, h⟩ := h
  split at h
  · cases h
  next heq =>
  have hq := decodeEntries_ok ⟨by simp, by simp, by simp [SortedMap.empty]⟩ hloop
  obtain ⟨rfl, hle, hids, hnames⟩ := new_eq_ok hnew
  cases h
  refine ⟨⟨hids, hnames, hq.revision _ (orInvalid_eq_ok hrev), hq.idleTimeout _ (orInvalid_eq_ok hidle),
    ?_, fun e he => (hq.unknown e he).1, fun e he => (hq.unknown e he).2⟩, hle⟩
  -- The input begins with the number of entries, which the decoder bounds.
  obtain ⟨rfl, hfit⟩ := encodePayload_eq_ok henc
  have hcount := unknown_length_le_encoded
    (⟨vaultId, revision, records, idle, q.unknown⟩ : VaultPayload)
  have hin := not_not.mp heq
  rw [← hin, Cbor.map, VaultPayload.encoded, Cbor.container_head (by omega)
    (by simp only [u64Max, maxVaultPayloadBytes] at *; omega), definiteLen] at hmap
  split at hmap
  · cases hmap
  · dsimp only at *; omega

/-- A payload that was decoded is encoded as the input. -/
lemma encodePayload_of_decodePayload {input : Bytes} {p : VaultPayload}
    (h : decodePayload input = .ok p) : encodePayload p = .ok input := by
  unfold decodePayload at h
  split at h
  · cases h
  simp only [bind_eq_ok] at h
  obtain ⟨⟨entries, w⟩, -, ⟨q, rest⟩, -, h⟩ := h
  dsimp only at h
  split at h
  · cases h
  simp only [assemble, bind_eq_ok] at h
  obtain ⟨_, -, _, -, _, -, _, -, _, -, encoded, henc, h⟩ := h
  split at h
  · cases h
  next heq =>
  cases h
  rw [henc, not_not.mp heq]

/-- **Encoding and decoding are inverse to each other**: over the payloads that pass the checks of a
new payload, with any revision and idle timeout and any entries of later versions within the
limits, an input is decoded to a payload just when it is what the payload is encoded as. -/
theorem decodePayload_eq_ok_iff (p made : VaultPayload)
    (hmade : VaultPayload.new p.vaultId p.revision p.records = .ok made)
    (hrevision : p.revision ≤ u64Max) (hidle : p.idleTimeoutSeconds ≤ u32Max)
    (hcount : p.unknown.entries.length ≤ maxRecords)
    (hunknown : ∀ e ∈ p.unknown.entries, 3 < e.1 ∧ e.1 ≤ u64Max ∧ isCanonicalUnknownValue e.2)
    (b : Bytes) : decodePayload b = .ok p ↔ encodePayload p = .ok b := by
  obtain ⟨-, hrecords, hids, hnames⟩ := new_eq_ok hmade
  have hp : Consistent p := ⟨hids, hnames, hrevision, hidle, hcount,
    fun e he => ⟨(hunknown e he).1, (hunknown e he).2.1⟩, fun e he => (hunknown e he).2.2⟩
  constructor
  · exact encodePayload_of_decodePayload
  · exact decodePayload_encodePayload hp hrecords

end Payload

section Sample

local instance plainText : UnicodeNormalization := asciiNormalization

def sampleId (i : ℕ) : SecretId := ⟨⟨Cbor.be 16 i, Cbor.length_be 16 i⟩⟩

def sampleField : SecretField := ⟨⟨"token", by decide⟩, [0x00, 0xFF], .binary, by decide⟩

def sampleRecord : SecretRecord :=
  ⟨sampleId 7, ⟨"mail", by decide, rfl⟩, [sampleField], by simp, by decide, by simp⟩

/-- One record, and what a later version may have added under the keys 4 and 300. -/
def samplePayload : VaultPayload where
  vaultId := sampleId 1
  revision := 70000
  records := [sampleRecord]
  idleTimeoutSeconds := 0
  unknown := ⟨[(4, [0xF6]), (300, [0x82, 0x01, 0x61, 0x61])], by decide⟩

theorem decodePayload_eq_ok_iff_sample : ∃ b, encodePayload samplePayload = .ok b ∧
    decodePayload b = .ok samplePayload := by
  refine ⟨samplePayload.encoded, by decide +kernel, ?_⟩
  exact (decodePayload_eq_ok_iff samplePayload
    ⟨sampleId 1, 70000, [sampleRecord], defaultIdleTimeoutSeconds, .empty⟩ (by decide +kernel)
    (by norm_num [samplePayload, u64Max]) (by norm_num [samplePayload, u32Max]) (by decide)
    (by decide +kernel) _).mpr (by decide +kernel)

end Sample

end Ladon.CodecRoundtrip

import Ladon.CryptoFile
import Ladon.Lib.Fault

/-!
The bounds of the parts of a vault file.

The lengths in a file are whatever its writer wrote. Here the parser and the passphrase check are
written with every slice and every sum that could go wrong, on a machine of 64 bits; none does,
and what is parsed are the parts of the file in their order.
-/

namespace Ladon.CryptoFraming

open Ladon.Error Ladon.Model Ladon.Codec Ladon.CodecRoundtrip Ladon.Crypto Ladon.CryptoFile
open Ladon.Lib Ladon.Lib.Utf8 Ladon.Lib.Word

/-! ### The code, with its bounds -/

/-- `read_u16`, `read_u32` and `read_u64`: the end is a plain sum, the slice is not. -/
def readUintWithBounds (width : ℕ) (input : Bytes) (offset : ℕ) : Faulting LadonError ℕ := do
  let stop ← plus offset width
  if stop ≤ input.length then return Cbor.ofBe (slice input offset stop)
  else throw .invalidVaultFile

/-- What a file is parsed to. -/
structure Slices where
  header : KdfHeader
  prefixBeforeDek : Bytes
  dekNonce : Bytes
  wrappedDek : Bytes
  prefixThroughDekTag : Bytes
  prefixThroughPayloadLen : Bytes
  payloadNonce : Bytes
  encryptedPayload : Bytes

/-- `parse_file`. -/
def parseFileWithBounds (file : Bytes) : Faulting LadonError Slices := do
  require (fixedPrefixBytes + wrapperBytes + payloadFixedBytes ≤ file.length) .invalidVaultFile
  require (file.take magic.length = magic) .invalidVaultFile
  let fileVersion ← readUintWithBounds 2 file 8
  require (fileVersion = version) .unsupportedVaultVersion
  let headerLen ← readUintWithBounds 4 file 10
  require (headerLen ≤ maxHeaderBytes) .invalidVaultFile
  let headerEnd ← orInvalidFile (checkedAdd fixedPrefixBytes headerLen)
  let prefixEnd ← orInvalidFile (checkedAdd headerEnd wrapperBytes)
  let payloadLenEnd ← orInvalidFile (checkedAdd prefixEnd 8)
  require (payloadLenEnd ≤ file.length) .invalidVaultFile
  let encodedHeader ← cut file fixedPrefixBytes headerEnd
  let header ← decodeHeader encodedHeader
  let payloadLen ← readUintWithBounds 8 file prefixEnd
  require (payloadLen ≤ maxVaultPayloadBytes) .invalidVaultFile
  let expectedLen ← orInvalidFile do
    let nonceEnd ← checkedAdd payloadLenEnd nonceBytes
    let ciphertextEnd ← checkedAdd nonceEnd payloadLen
    checkedAdd ciphertextEnd tagBytes
  require (expectedLen = file.length) .invalidVaultFile
  let dekNonceEnd ← plus headerEnd nonceBytes
  let dekNonce ← cut file headerEnd dekNonceEnd
  require (dekNonce.length = nonceBytes) .invalidVaultFile
  let wrappedStart ← plus headerEnd nonceBytes
  let wrappedDek ← cut file wrappedStart prefixEnd
  let payloadNonceEnd ← plus payloadLenEnd nonceBytes
  let payloadNonce ← cut file payloadLenEnd payloadNonceEnd
  require (payloadNonce.length = nonceBytes) .invalidVaultFile
  let encryptedStart ← plus payloadLenEnd nonceBytes
  let encryptedPayload ← cut file encryptedStart file.length
  let prefixBeforeDek ← cut file 0 headerEnd
  let prefixThroughDekTag ← cut file 0 prefixEnd
  let prefixThroughPayloadLen ← cut file 0 payloadLenEnd
  return ⟨header, prefixBeforeDek, dekNonce, wrappedDek, prefixThroughDekTag,
    prefixThroughPayloadLen, payloadNonce, encryptedPayload⟩

/-- `verify_current_passphrase`. -/
def verifyCurrentPassphraseWithBounds (decrypt : Decrypt) (kdf : Kdf) (keys : KeyMaterial)
    (passphrase : Bytes) : Faulting LadonError Unit := do
  let keyPrefix := keys.prefixThroughDekTag
  let headerLen ← readUintWithBounds 4 keyPrefix 10
  let headerEnd ← orInvalidFile (checkedAdd fixedPrefixBytes headerLen)
  let prefixEnd ← plus headerEnd wrapperBytes
  require (keyPrefix.length = prefixEnd) .invalidVaultFile
  let encodedHeader ← cut keyPrefix fixedPrefixBytes headerEnd
  let header ← decodeHeader encodedHeader
  let nonceEnd ← plus headerEnd nonceBytes
  let nonce ← cut keyPrefix headerEnd nonceEnd
  require (nonce.length = nonceBytes) .invalidVaultFile
  let wrappedStart ← plus headerEnd nonceBytes
  let wrapped ← cut keyPrefix wrappedStart keyPrefix.length
  let kek ← deriveKek kdf passphrase header
  let prefixBeforeDek ← cut keyPrefix 0 headerEnd
  let candidate ← asUnauthentic (decrypt kek nonce wrapped
    (associatedData dekDomain prefixBeforeDek))
  require (candidate.length = keyBytes) .vaultAuthenticationFailed

/-! ### No fault -/

lemma readUint_lt {width offset n : ℕ} {f : Bytes} (h : readUint width f offset = .ok n) :
    n < 256 ^ width := by
  unfold readUint at h
  split_ifs at h with hle
  cases h
  have hlen : (slice f offset (offset + width)).length = width := by
    rw [length_slice hle, Nat.add_sub_cancel_left]
  have hlt := Cbor.ofBe_lt (slice f offset (offset + width))
  rwa [hlen] at hlt

lemma faultless_readUint {width offset : ℕ} {input : Bytes} (h : offset + width ≤ u64Max) :
    Faultless (readUintWithBounds width input offset) (readUint width input offset) := by
  refine Faultless.step (plus_eq h) ?_
  unfold readUint
  split <;> rfl

lemma required {c : Prop} [Decidable c] {e : LadonError} (h : c) : require c e = .ok () :=
  require_eq_ok.mpr h

lemma checkedAdd_once {a b : ℕ} (h : a + b ≤ u64Max) :
    orInvalidFile (checkedAdd a b) = .ok (a + b) := by
  rw [checkedAdd_eq_some.mpr ⟨rfl, h⟩]
  rfl

lemma checkedAdd_thrice {a b c d : ℕ} (h : a + b + c + d ≤ u64Max) :
    orInvalidFile (do
      let ab ← checkedAdd a b
      let abc ← checkedAdd ab c
      checkedAdd abc d) = .ok (a + b + c + d) := by
  have h1 : checkedAdd a b = some (a + b) := checkedAdd_eq_some.mpr ⟨rfl, by omega⟩
  have h2 : checkedAdd (a + b) c = some (a + b + c) := checkedAdd_eq_some.mpr ⟨rfl, by omega⟩
  have h3 : checkedAdd (a + b + c) d = some (a + b + c + d) := checkedAdd_eq_some.mpr ⟨rfl, h⟩
  simp only [h1, h2, h3, Option.bind_eq_bind, Option.bind_some, orInvalidFile]

lemma length_cut {f : Bytes} {start n : ℕ} (h : start + n ≤ f.length) :
    ((f.drop start).take (start + n - start)).length = n := by
  rw [List.length_take, List.length_drop]
  omega

def slices (q : ParsedFile) : Slices where
  header := q.header
  prefixBeforeDek := q.prefixBeforeDek
  dekNonce := q.dekNonce
  wrappedDek := q.wrappedDek
  prefixThroughDekTag := q.prefixThroughDekTag
  prefixThroughPayloadLen := q.prefixThroughPayloadLen
  payloadNonce := q.payloadNonce
  encryptedPayload := q.encryptedPayload

/-- The sizes as numbers, for the sums of offsets. -/
lemma sizes : u64Max = 18446744073709551615 ∧ fixedPrefixBytes = 14 ∧ wrapperBytes = 72 ∧
    nonceBytes = 24 ∧ tagBytes = 16 ∧ maxHeaderBytes = 4096 ∧ maxVaultPayloadBytes = 67108864 := by
  decide

lemma faultless_parseFile (file : Bytes) :
    Faultless (parseFileWithBounds file) (do return slices (← parseFile file)) := by
  unfold parseFileWithBounds parseFile
  simp only [bind_assoc]
  refine Faultless.bind (.lift _) fun _ hmin => Faultless.bind (.lift _) fun _ _ => ?_
  refine Faultless.bind (faultless_readUint (by norm_num [u64Max])) fun _ _ => ?_
  refine Faultless.bind (.lift _) fun _ _ => ?_
  refine Faultless.bind (faultless_readUint (by norm_num [u64Max])) fun headerLen _ => ?_
  rw [require_eq_ok] at hmin
  obtain ⟨hword, hfixed, hwrapper, hnonce, htag, hheaders, hpayloads⟩ := sizes
  by_cases hle : headerLen ≤ maxHeaderBytes
  · rw [dif_neg (Nat.not_lt.mpr hle)]
    simp only [bind_assoc]
    refine Faultless.answered (required hle) ?_
    refine Faultless.answered (checkedAdd_once (by omega)) ?_
    refine Faultless.answered (checkedAdd_once (by omega)) ?_
    refine Faultless.answered (checkedAdd_once (by omega)) ?_
    refine Faultless.bind (.lift _) fun _ hend => ?_
    rw [require_eq_ok] at hend
    refine Faultless.step (cut_eq (by omega) (by omega)) ?_
    refine Faultless.bind (.lift _) fun header _ => ?_
    refine Faultless.bind (faultless_readUint (by omega)) fun payloadLen _ => ?_
    refine Faultless.bind (.lift _) fun _ hpayload => ?_
    rw [require_eq_ok] at hpayload
    refine Faultless.answered (checkedAdd_thrice (by omega)) ?_
    refine Faultless.bind (.lift _) fun _ hlen => ?_
    rw [require_eq_ok] at hlen
    -- from here on every offset lies within the file
    refine Faultless.step (plus_eq (by omega)) ?_
    refine Faultless.step (cut_eq (by omega) (by omega)) ?_
    refine Faultless.answered (required (length_cut (by omega))) ?_
    refine Faultless.step (plus_eq (by omega)) ?_
    refine Faultless.step (cut_eq (by omega) (by omega)) ?_
    refine Faultless.step (plus_eq (by omega)) ?_
    refine Faultless.step (cut_eq (by omega) (by omega)) ?_
    refine Faultless.answered (required (length_cut (by omega))) ?_
    refine Faultless.step (plus_eq (by omega)) ?_
    refine Faultless.step (cut_eq (by omega) (le_refl _)) ?_
    refine Faultless.step (cut_eq (Nat.zero_le _) (by omega)) ?_
    refine Faultless.step (cut_eq (Nat.zero_le _) (by omega)) ?_
    refine Faultless.step (cut_eq (Nat.zero_le _) (by omega)) ?_
    rw [← List.length_drop, List.take_length]
    rfl
  · rw [dif_pos (Nat.not_le.mp hle), require, if_neg hle]
    rfl

lemma faultless_verifyCurrentPassphrase (decrypt : Decrypt) (kdf : Kdf) (keys : KeyMaterial)
    (passphrase : Bytes) :
    Faultless (verifyCurrentPassphraseWithBounds decrypt kdf keys passphrase)
      (verifyCurrentPassphrase decrypt kdf keys passphrase) := by
  unfold verifyCurrentPassphraseWithBounds verifyCurrentPassphrase
  obtain ⟨hword, hfixed, hwrapper, hnonce, -⟩ := sizes
  refine Faultless.bind (faultless_readUint (by omega)) fun headerLen hread => ?_
  have hlt : headerLen < 256 ^ 4 := readUint_lt hread
  refine Faultless.answered (checkedAdd_once (by omega)) ?_
  refine Faultless.step (plus_eq (by omega)) ?_
  refine Faultless.bind (.lift _) fun _ hlen => ?_
  rw [require_eq_ok] at hlen
  refine Faultless.step (cut_eq (by omega) (by omega)) ?_
  refine Faultless.bind (.lift _) fun header _ => ?_
  refine Faultless.step (plus_eq (by omega)) ?_
  refine Faultless.step (cut_eq (by omega) (by omega)) ?_
  refine Faultless.answered (required (length_cut (by omega))) ?_
  refine Faultless.step (plus_eq (by omega)) ?_
  refine Faultless.step (cut_eq (by omega) (le_refl _)) ?_
  refine Faultless.bind (.lift _) fun kek _ => ?_
  refine Faultless.step (cut_eq (Nat.zero_le _) (by omega)) ?_
  rw [← List.length_drop, List.take_length]
  exact Faultless.bind (.lift _) fun _ _ => .lift _

/-! ### The framing -/

/-- A header is read from its encoding, and from nothing else. -/
lemma decodeHeader_eq_ok_iff {b : Bytes} {h : KdfHeader} :
    decodeHeader b = .ok h ↔ h.WithinBounds ∧ encodeHeader h = .ok b := by
  rw [encodeHeader_eq_ok_iff]
  constructor
  · intro hd
    obtain ⟨hb, rfl⟩ := decodeHeader_eq_ok hd
    exact ⟨hb, length_encoded hb, rfl⟩
  · rintro ⟨hb, -, rfl⟩
    exact decodeHeader_encoded hb

/-- A file with its parts: the magic, the version, the length of the header, the header, the nonce
and the wrapped key, the length `n` of the payload, its nonce and its ciphertext. -/
structure Framed (file : Bytes) (s : Slices) (encodedHeader : Bytes) (n : ℕ) : Prop where
  withinBounds : s.header.WithinBounds
  header : encodeHeader s.header = .ok encodedHeader
  length_header : encodedHeader.length ≤ maxHeaderBytes
  prefixBeforeDek : s.prefixBeforeDek =
    magic ++ Cbor.be 2 version ++ Cbor.be 4 encodedHeader.length ++ encodedHeader
  length_dekNonce : s.dekNonce.length = 24
  length_wrappedDek : s.wrappedDek.length = 48
  prefixThroughDekTag : s.prefixThroughDekTag = s.prefixBeforeDek ++ s.dekNonce ++ s.wrappedDek
  payloadLen_le : n ≤ maxVaultPayloadBytes
  prefixThroughPayloadLen : s.prefixThroughPayloadLen = s.prefixThroughDekTag ++ Cbor.be 8 n
  length_payloadNonce : s.payloadNonce.length = 24
  length_encryptedPayload : s.encryptedPayload.length = n + 16
  file : file = s.prefixThroughPayloadLen ++ s.payloadNonce ++ s.encryptedPayload

lemma Framed.of_parts (p : Parts) :
    Framed p.file (slices p.parsed) p.header.encoded p.payloadLen where
  withinBounds := p.withinBounds
  header := encodeHeader_eq_ok_iff.mpr ⟨length_encoded p.withinBounds, rfl⟩
  length_header := length_encoded p.withinBounds
  prefixBeforeDek := rfl
  length_dekNonce := p.length_dekNonce
  length_wrappedDek := p.length_wrappedDek
  prefixThroughDekTag := rfl
  payloadLen_le := p.payloadLen_le
  prefixThroughPayloadLen := rfl
  length_payloadNonce := p.length_payloadNonce
  length_encryptedPayload := p.length_encryptedPayload
  file := rfl

lemma Framed.exists_parts {f e : Bytes} {s : Slices} {n : ℕ} (h : Framed f s e n) :
    ∃ p : Parts, f = p.file ∧ s = slices p.parsed := by
  obtain ⟨hb, hheader, -, hbefore, hdekNonce, hwrapped, htag, hn, hlen, hnonce, hciphertext, rfl⟩ := h
  obtain ⟨-, rfl⟩ := encodeHeader_eq_ok_iff.mp hheader
  refine ⟨⟨s.header, s.dekNonce, s.wrappedDek, n, s.payloadNonce, s.encryptedPayload, hb,
    hdekNonce, hwrapped, hn, hnonce, hciphertext⟩, ?_, ?_⟩
  · rw [hlen, htag, hbefore]
    rfl
  · obtain ⟨header, before, dekNonce, wrapped, throughTag, throughLen, nonce, ciphertext⟩ := s
    simp only at hbefore htag hlen
    subst hlen htag hbefore
    rfl

/-- Parsing answers the parts of a framed file, and refuses every other. -/
lemma parseFileWithBounds_eq_iff {f : Bytes} {s : Slices} :
    parseFileWithBounds f = pure s ↔ ∃ e n, Framed f s e n := by
  have hplain : parseFileWithBounds f = pure s ↔
      ((do return slices (← parseFile f)) : Except LadonError Slices) = .ok s := by
    rw [show parseFileWithBounds f = _ from faultless_parseFile f]
    exact ⟨fun h => Except.ok.inj h, fun h => by rw [h]; rfl⟩
  rw [hplain, bind_eq_ok]
  constructor
  · rintro ⟨q, hq, hs⟩
    obtain ⟨p, rfl, rfl⟩ := parseFile_eq_ok_iff.mp hq
    cases hs
    exact ⟨_, _, Framed.of_parts p⟩
  · rintro ⟨e, n, h⟩
    obtain ⟨p, rfl, rfl⟩ := h.exists_parts
    exact ⟨p.parsed, parseFile_file p, rfl⟩

/-- The passphrase check, once the stored prefix is cut. -/
def verifyParts (decrypt : Decrypt) (kdf : Kdf) (passphrase : Bytes) (header : KdfHeader)
    (nonce wrapped prefixBeforeDek : Bytes) : Except LadonError Unit := do
  let kek ← deriveKek kdf passphrase header
  let candidate ← asUnauthentic (decrypt kek nonce wrapped
    (associatedData dekDomain prefixBeforeDek))
  require (candidate.length = keyBytes) .vaultAuthenticationFailed

/-- The stored prefix is cut where the file is. -/
lemma verifyCurrentPassphrase_eq {decrypt : Decrypt} {kdf : Kdf} {keys : KeyMaterial}
    {passphrase nonce wrapped : Bytes} {header : KdfHeader} (hb : header.WithinBounds)
    (hnonce : nonce.length = nonceBytes) (hwrapped : wrapped.length = wrappedDekBytes)
    (hhead : keys.prefixThroughDekTag = fileStart header.encoded ++ nonce ++ wrapped) :
    verifyCurrentPassphrase decrypt kdf keys passphrase =
      verifyParts decrypt kdf passphrase header nonce wrapped (fileStart header.encoded) := by
  have hlen : keys.prefixThroughDekTag.length =
      fixedPrefixBytes + header.encoded.length + wrapperBytes := by
    rw [hhead, List.length_append, List.length_append, length_fileStart, hnonce, hwrapped,
      wrapperBytes, Nat.add_assoc]
  rw [List.append_assoc] at hhead
  have hread : readU32 keys.prefixThroughDekTag 10 = .ok header.encoded.length := by
    rw [hhead]
    exact readU32_fileStart hb _
  have hdecode : decodeHeader (slice keys.prefixThroughDekTag fixedPrefixBytes
      (fixedPrefixBytes + header.encoded.length)) = .ok header := by
    rw [hhead]
    exact decodeHeader_fileStart hb _
  have hstart : keys.prefixThroughDekTag.take (fixedPrefixBytes + header.encoded.length) =
      fileStart header.encoded := by
    rw [hhead]
    exact List.take_left' (length_fileStart _)
  have hslice : slice keys.prefixThroughDekTag (fixedPrefixBytes + header.encoded.length)
      (fixedPrefixBytes + header.encoded.length + nonceBytes) = nonce := by
    rw [hhead]
    exact slice_append (length_fileStart _).symm (by rw [length_fileStart, hnonce])
  have hdrop : keys.prefixThroughDekTag.drop (fixedPrefixBytes + header.encoded.length +
      nonceBytes) = wrapped := by
    rw [hhead, ← List.append_assoc]
    exact List.drop_left' (by rw [List.length_append, length_fileStart, hnonce])
  rw [verifyCurrentPassphrase]
  simp only [hread, ok_bind, required hlen, hdecode, hslice, hdrop, hstart]
  rfl

/-- **The framing of a vault file is total and exact.** No slice of the parser or of the passphrase
check is out of range and no sum overflows, whatever the file or the stored prefix; a file is
parsed just when it is framed, to its parts in their order; headers are read from their encodings
only; and the passphrase check cuts the prefix that a file was parsed to into the same parts. -/
theorem framing (f : Bytes) :
    (∃ x, Faultless (parseFileWithBounds f) x) ∧
      (∀ s, parseFileWithBounds f = pure s ↔ ∃ e n, Framed f s e n) ∧
      (∀ b h, decodeHeader b = .ok h ↔ h.WithinBounds ∧ encodeHeader h = .ok b) ∧
      ∀ (decrypt : Decrypt) (kdf : Kdf) (keys : KeyMaterial) (passphrase : Bytes),
        (∃ x, Faultless (verifyCurrentPassphraseWithBounds decrypt kdf keys passphrase) x) ∧
        ∀ s, parseFileWithBounds f = pure s → keys.prefixThroughDekTag = s.prefixThroughDekTag →
          Faultless (verifyCurrentPassphraseWithBounds decrypt kdf keys passphrase)
            (verifyParts decrypt kdf passphrase s.header s.dekNonce s.wrappedDek
              s.prefixBeforeDek) := by
  refine ⟨⟨_, faultless_parseFile f⟩, fun s => parseFileWithBounds_eq_iff,
    fun b h => decodeHeader_eq_ok_iff, fun decrypt kdf keys passphrase => ⟨⟨_,
      faultless_verifyCurrentPassphrase decrypt kdf keys passphrase⟩, fun s hs hkeys => ?_⟩⟩
  obtain ⟨e, n, hframed⟩ := parseFileWithBounds_eq_iff.mp hs
  obtain ⟨p, -, rfl⟩ := hframed.exists_parts
  have hverify : verifyCurrentPassphrase decrypt kdf keys passphrase =
      verifyParts decrypt kdf passphrase p.header p.dekNonce p.wrappedDek p.prefixBeforeDek :=
    verifyCurrentPassphrase_eq p.withinBounds p.length_dekNonce p.length_wrappedDek hkeys
  have hfaultless := faultless_verifyCurrentPassphrase decrypt kdf keys passphrase
  rwa [hverify] at hfaultless

/-- The shortest file there is, with an empty payload. -/
def shortest : Parts where
  header := ⟨minMemoryKib, minPasses, minParallelism, List.replicate 16 0⟩
  dekNonce := List.replicate 24 0
  wrappedDek := List.replicate 48 0
  payloadLen := 0
  payloadNonce := List.replicate 24 0
  encryptedPayload := List.replicate 16 0
  withinBounds := by decide
  length_dekNonce := rfl
  length_wrappedDek := rfl
  payloadLen_le := Nat.zero_le _
  length_payloadNonce := rfl
  length_encryptedPayload := rfl

theorem framing_shortest :
    parseFileWithBounds shortest.file = pure (slices shortest.parsed) :=
  ((framing shortest.file).2.1 _).mpr ⟨_, _, Framed.of_parts shortest⟩

end Ladon.CryptoFraming

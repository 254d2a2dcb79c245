import Ladon.CodecRoundtrip
import Ladon.Crypto

/-!
What a vault file is made of.

Parsing is inverse to putting the parts of a file one after another: a file is parsed just when it
has the parts, and they are what it is parsed to. No byte of a file is left out.
-/

namespace Ladon.CryptoFile

open Ladon.Error Ladon.Model Ladon.Codec Ladon.CodecRoundtrip Ladon.Crypto Ladon.Lib
open Ladon.Lib.Utf8 Ladon.Lib.Word

/-! ### Headers -/

lemma length_encodeStr (s : String) :
    (encodeStr s).length ≤ 9 + (ofString s).length := by
  have hhead := Cbor.length_head_le 3 (ofString s).length
  simp only [encodeStr, List.length_append]
  omega

lemma length_encodeUint (n : ℕ) : (encodeUint n).length ≤ 9 := Cbor.length_head_le 0 n

/-- A header within the bounds is short. -/
lemma length_encoded {h : KdfHeader} (hb : h.WithinBounds) : h.encoded.length ≤ maxHeaderBytes := by
  have hsalt : h.salt.length ≤ 64 := hb.2.2.2.2
  have hmap := Cbor.length_head_le 5 5
  have hbytes := Cbor.length_head_le 2 h.salt.length
  have htexts : (ofString "kdf").length ≤ 16 ∧ (ofString "argon2id").length ≤ 16 ∧
      (ofString "salt").length ≤ 16 ∧ (ofString "passes").length ≤ 16 ∧
      (ofString "memory_kib").length ≤ 16 ∧ (ofString "parallelism").length ≤ 16 := by decide +kernel
  have h1 := length_encodeStr "kdf"
  have h2 := length_encodeStr "argon2id"
  have h3 := length_encodeStr "salt"
  have h4 := length_encodeStr "passes"
  have h5 := length_encodeStr "memory_kib"
  have h6 := length_encodeStr "parallelism"
  have h7 := length_encodeUint h.passes
  have h8 := length_encodeUint h.memoryKib
  have h9 := length_encodeUint h.parallelism
  simp only [KdfHeader.encoded, List.length_append, maxHeaderBytes]
  omega

lemma expectText_encodeStr {s : String} (hs : (ofString s).length ≤ u64Max) (z : Bytes) :
    expectText s (encodeStr s ++ z) = .ok z := by
  rw [expectText, str_encodeStr hs]
  exact if_pos rfl

lemma expectHeaderMap_head (z : Bytes) : expectHeaderMap (Cbor.head 5 5 ++ z) = .ok z := by
  rw [expectHeaderMap, Cbor.map, Cbor.container_head (by omega) (by norm_num [u64Max])]
  rfl

lemma encodeHeader_eq_ok_iff {h : KdfHeader} {b : Bytes} :
    encodeHeader h = .ok b ↔ h.encoded.length ≤ maxHeaderBytes ∧ h.encoded = b := by
  unfold encodeHeader
  split_ifs with hlen
  · simp only [false_iff, not_and]
    exact fun hle => absurd hle (Nat.not_le.mpr hlen)
  · simp only [Except.ok.injEq, Nat.not_lt.mp hlen, true_and]

lemma checkHeader_eq_ok_iff {input rest : Bytes} {h h' : KdfHeader} :
    checkHeader input rest h = .ok h' ↔
      (h.WithinBounds ∧ rest = []) ∧ encodeHeader h = .ok input ∧ h' = h := by
  simp only [checkHeader, bind_eq_ok, require_eq_ok]
  constructor
  · rintro ⟨-, hb, encoded, he, -, rfl, hpure⟩
    cases hpure
    exact ⟨hb, he, rfl⟩
  · rintro ⟨hb, he, rfl⟩
    exact ⟨(), hb, input, he, (), rfl, rfl⟩

lemma u32_encodeUint {n : ℕ} (hn : n ≤ u32Max) (z : Bytes) :
    Cbor.u32 (encodeUint n ++ z) = some (n, z) := Cbor.uint_head hn (by norm_num [u32Max, u64Max]) z

/-- A header is read back from its encoding. -/
lemma decodeHeader_encoded {h : KdfHeader} (hb : h.WithinBounds) :
    decodeHeader h.encoded = .ok h := by
  have hlen := length_encoded hb
  have htext : ∀ s ∈ ["kdf", "argon2id", "salt", "passes", "memory_kib", "parallelism"],
      (ofString s).length ≤ u64Max := by decide +kernel
  simp only [List.forall_mem_cons] at htext
  obtain ⟨t1, t2, t3, t4, t5, t6, -⟩ := htext
  obtain ⟨⟨-, hm⟩, ⟨-, hp⟩, ⟨-, hl⟩, -, hs⟩ := id hb
  have hmem : h.memoryKib ≤ u32Max := hm.trans (by norm_num [maxMemoryKib, u32Max])
  have hpasses : h.passes ≤ u32Max := hp.trans (by norm_num [maxPasses, u32Max])
  have hpar : h.parallelism ≤ u32Max := hl.trans (by norm_num [maxParallelism, u32Max])
  have hsalt : h.salt.length ≤ u64Max := hs.trans (by norm_num [maxSaltBytes, u64Max])
  have hlast : Cbor.u32 (encodeUint h.parallelism) = some (h.parallelism, []) := by
    simpa using u32_encodeUint hpar []
  rw [decodeHeader, show require (h.encoded.length ≤ maxHeaderBytes) .invalidVaultFile = .ok ()
    from require_eq_ok.mpr hlen, ok_bind]
  nth_rewrite 1 [KdfHeader.encoded]
  simp only [expectHeaderMap_head, ok_bind, expectText_encodeStr t1, expectText_encodeStr t2,
    expectText_encodeStr t3, bytes_encode hsalt, orInvalidFile, expectText_encodeStr t4,
    u32_encodeUint hpasses, expectText_encodeStr t5, u32_encodeUint hmem, expectText_encodeStr t6,
    hlast]
  exact checkHeader_eq_ok_iff.mpr ⟨⟨hb, rfl⟩, encodeHeader_eq_ok_iff.mpr ⟨hlen, rfl⟩, rfl⟩

/-- A header that is read is within the bounds, and the input is its encoding. -/
lemma decodeHeader_eq_ok {input : Bytes} {h : KdfHeader} (hd : decodeHeader input = .ok h) :
    h.WithinBounds ∧ h.encoded = input := by
  simp only [decodeHeader, bind_eq_ok, checkHeader_eq_ok_iff] at hd
  obtain ⟨_, -, _, -, _, -, _, -, _, -, salt, -, _, -, passes, -, _, -, memory, -, _, -, parallelism,
    -, ⟨hb, -⟩, he, rfl⟩ := hd
  exact ⟨hb, (encodeHeader_eq_ok_iff.mp he).2⟩

/-! ### Slices -/

lemma slice_append {a b c : Bytes} {i j : ℕ} (hi : i = a.length) (hj : j = a.length + b.length) :
    slice (a ++ (b ++ c)) i j = b := by
  subst hi hj
  rw [slice, List.drop_left, Nat.add_sub_cancel_left, List.take_left]

lemma take_append_slice {f : Bytes} {i j : ℕ} (h : i ≤ j) : f.take i ++ slice f i j = f.take j := by
  rw [slice, ← List.take_add, Nat.add_sub_cancel' h]

lemma length_slice {f : Bytes} {i j : ℕ} (h : j ≤ f.length) : (slice f i j).length = j - i := by
  rw [slice, List.length_take, List.length_drop]
  omega

/-- A number that was read is written as the bytes it was read from. -/
lemma readUint_eq_ok {width offset n : ℕ} {f : Bytes} (h : readUint width f offset = .ok n) :
    offset + width ≤ f.length ∧ slice f offset (offset + width) = Cbor.be width n := by
  unfold readUint at h
  split_ifs at h with hle
  cases h
  have hlen : (slice f offset (offset + width)).length = width := by
    rw [length_slice hle, Nat.add_sub_cancel_left]
  exact ⟨hle, (Cbor.be_ofBe hlen).symm⟩

/-- A number is read where it was written. -/
lemma readUint_be {width offset n : ℕ} {a z : Bytes} (hn : n < 256 ^ width)
    (ho : offset = a.length) : readUint width (a ++ (Cbor.be width n ++ z)) offset = .ok n := by
  have hlen : offset + width ≤ (a ++ (Cbor.be width n ++ z)).length := by
    simp only [List.length_append, Cbor.length_be]
    omega
  have hslice : slice (a ++ (Cbor.be width n ++ z)) offset (offset + width) = Cbor.be width n :=
    slice_append ho (by rw [Cbor.length_be, ho])
  rw [readUint, if_pos hlen, hslice, Cbor.ofBe_be hn]

/-! ### The beginning of a file -/

lemma length_magic : magic.length = 8 := by decide +kernel

section Start

variable {header : KdfHeader} (hb : header.WithinBounds) (z : Bytes)

lemma fileStart_append (encoded z : Bytes) : fileStart encoded ++ z =
    magic ++ (Cbor.be 2 version ++ (Cbor.be 4 encoded.length ++ (encoded ++ z))) := by
  simp only [fileStart, List.append_assoc]

lemma readU16_fileStart (encoded z : Bytes) : readU16 (fileStart encoded ++ z) 8 = .ok version := by
  rw [fileStart_append]
  exact readUint_be (by norm_num [version]) length_magic.symm

include hb in
lemma readU32_fileStart :
    readU32 (fileStart header.encoded ++ z) 10 = .ok header.encoded.length := by
  have hlen : header.encoded.length ≤ 4 * 1024 := length_encoded hb
  rw [fileStart_append, ← List.append_assoc]
  refine readUint_be (by omega) ?_
  rw [List.length_append, length_magic, Cbor.length_be]

include hb in
lemma decodeHeader_fileStart : decodeHeader (slice (fileStart header.encoded ++ z) fixedPrefixBytes
    (fixedPrefixBytes + header.encoded.length)) = .ok header := by
  have hslice : slice (fileStart header.encoded ++ z) fixedPrefixBytes
      (fixedPrefixBytes + header.encoded.length) = header.encoded := by
    rw [fileStart_append, ← List.append_assoc, ← List.append_assoc]
    refine slice_append ?_ ?_
    all_goals simp only [List.length_append, length_magic, Cbor.length_be, fixedPrefixBytes]
  rw [hslice, decodeHeader_encoded hb]

end Start

/-- The beginning of a file tells the header. -/
lemma fileStart_inj {h h' : KdfHeader} {z z' : Bytes} (hb : h.WithinBounds) (hb' : h'.WithinBounds)
    (heq : fileStart h.encoded ++ z = fileStart h'.encoded ++ z') : h = h' := by
  have hlen := readU32_fileStart hb z
  have hdecode := decodeHeader_fileStart hb z
  rw [heq, readU32_fileStart hb', Except.ok.injEq] at hlen
  rw [heq, ← hlen, decodeHeader_fileStart hb', Except.ok.injEq] at hdecode
  exact hdecode.symm

/-! ### Parts -/

/-- The parts of a file. -/
structure Parts where
  header : KdfHeader
  dekNonce : Bytes
  wrappedDek : Bytes
  payloadLen : ℕ
  payloadNonce : Bytes
  encryptedPayload : Bytes
  withinBounds : header.WithinBounds
  length_dekNonce : dekNonce.length = nonceBytes
  length_wrappedDek : wrappedDek.length = wrappedDekBytes
  payloadLen_le : payloadLen ≤ maxVaultPayloadBytes
  length_payloadNonce : payloadNonce.length = nonceBytes
  length_encryptedPayload : encryptedPayload.length = payloadLen + tagBytes

namespace Parts

def prefixBeforeDek (p : Parts) : Bytes := fileStart p.header.encoded

def prefixThroughDekTag (p : Parts) : Bytes := p.prefixBeforeDek ++ p.dekNonce ++ p.wrappedDek

def prefixThroughPayloadLen (p : Parts) : Bytes := p.prefixThroughDekTag ++ Cbor.be 8 p.payloadLen

/-- The parts one after another. -/
def file (p : Parts) : Bytes := p.prefixThroughPayloadLen ++ p.payloadNonce ++ p.encryptedPayload

lemma length_prefixBeforeDek (p : Parts) :
    p.prefixBeforeDek.length = fixedPrefixBytes + p.header.encoded.length := length_fileStart _

lemma length_prefixThroughDekTag (p : Parts) :
    p.prefixThroughDekTag.length = fixedPrefixBytes + p.header.encoded.length + wrapperBytes := by
  simp only [prefixThroughDekTag, List.length_append, length_prefixBeforeDek, p.length_dekNonce,
    p.length_wrappedDek, wrapperBytes, Nat.add_assoc]

lemma length_prefixThroughPayloadLen (p : Parts) : p.prefixThroughPayloadLen.length =
    fixedPrefixBytes + p.header.encoded.length + wrapperBytes + 8 := by
  simp only [prefixThroughPayloadLen, List.length_append, length_prefixThroughDekTag,
    Cbor.length_be]

lemma length_file (p : Parts) : p.file.length =
    fixedPrefixBytes + p.header.encoded.length + wrapperBytes + 8 + nonceBytes + p.payloadLen +
      tagBytes := by
  simp only [file, List.length_append, length_prefixThroughPayloadLen, p.length_payloadNonce,
    p.length_encryptedPayload, Nat.add_assoc]

/-- What the file is parsed to. -/
def parsed (p : Parts) : ParsedFile where
  header := p.header
  prefixBeforeDek := p.prefixBeforeDek
  dekNonce := p.dekNonce
  wrappedDek := p.wrappedDek
  prefixThroughDekTag := p.prefixThroughDekTag
  prefixThroughPayloadLen := p.prefixThroughPayloadLen
  payloadNonce := p.payloadNonce
  encryptedPayload := p.encryptedPayload
  prefix_le := by
    have hheader := length_encoded p.withinBounds
    rw [length_prefixThroughDekTag]
    omega

end Parts

namespace Parts

variable (p : Parts)

lemma file_eq_dek : p.file = p.prefixBeforeDek ++ (p.dekNonce ++ (p.wrappedDek ++
    (Cbor.be 8 p.payloadLen ++ (p.payloadNonce ++ p.encryptedPayload)))) := by
  simp only [file, prefixThroughPayloadLen, prefixThroughDekTag, List.append_assoc]

lemma file_eq_payloadLen : p.file = p.prefixThroughDekTag ++ (Cbor.be 8 p.payloadLen ++
    (p.payloadNonce ++ p.encryptedPayload)) := by
  simp only [file, prefixThroughPayloadLen, List.append_assoc]

lemma file_eq_payload :
    p.file = p.prefixThroughPayloadLen ++ (p.payloadNonce ++ p.encryptedPayload) := by
  simp only [file, List.append_assoc]

lemma readU64_file :
    readU64 p.file (fixedPrefixBytes + p.header.encoded.length + wrapperBytes) =
      .ok p.payloadLen := by
  have hlen : p.payloadLen ≤ 64 * 1024 * 1024 := p.payloadLen_le
  rw [file_eq_payloadLen]
  exact readUint_be (by omega) p.length_prefixThroughDekTag.symm

lemma slice_dekNonce : slice p.file (fixedPrefixBytes + p.header.encoded.length)
    (fixedPrefixBytes + p.header.encoded.length + nonceBytes) = p.dekNonce := by
  rw [file_eq_dek]
  refine slice_append p.length_prefixBeforeDek.symm ?_
  rw [length_prefixBeforeDek, p.length_dekNonce]

lemma slice_wrappedDek : slice p.file (fixedPrefixBytes + p.header.encoded.length + nonceBytes)
    (fixedPrefixBytes + p.header.encoded.length + wrapperBytes) = p.wrappedDek := by
  rw [file_eq_dek, ← List.append_assoc]
  refine slice_append ?_ ?_
  · rw [List.length_append, length_prefixBeforeDek, p.length_dekNonce]
  · rw [List.length_append, length_prefixBeforeDek, p.length_dekNonce, p.length_wrappedDek,
      wrapperBytes, Nat.add_assoc, Nat.add_assoc, Nat.add_assoc]

lemma slice_payloadNonce :
    slice p.file (fixedPrefixBytes + p.header.encoded.length + wrapperBytes + 8)
      (fixedPrefixBytes + p.header.encoded.length + wrapperBytes + 8 + nonceBytes) =
      p.payloadNonce := by
  rw [file_eq_payload]
  refine slice_append p.length_prefixThroughPayloadLen.symm ?_
  rw [length_prefixThroughPayloadLen, p.length_payloadNonce]

lemma drop_file :
    p.file.drop (fixedPrefixBytes + p.header.encoded.length + wrapperBytes + 8 + nonceBytes) =
      p.encryptedPayload := by
  rw [file]
  refine List.drop_left' ?_
  rw [List.length_append, length_prefixThroughPayloadLen, p.length_payloadNonce]

end Parts

/-- A file that has the parts is parsed to them. -/
lemma parseFile_file (p : Parts) : parseFile p.file = .ok p.parsed := by
  have hlen := p.length_file
  have hheader := length_encoded p.withinBounds
  have hmin : fixedPrefixBytes + wrapperBytes + payloadFixedBytes ≤ p.file.length := by
    rw [hlen, payloadFixedBytes]
    omega
  have htake : p.file.take magic.length = magic := by
    rw [p.file_eq_dek, Parts.prefixBeforeDek, fileStart_append, List.take_left]
  have hversion : readU16 p.file 8 = .ok version := by
    rw [p.file_eq_dek]
    exact readU16_fileStart _ _
  have hheaderLen : readU32 p.file 10 = .ok p.header.encoded.length := by
    rw [p.file_eq_dek]
    exact readU32_fileStart p.withinBounds _
  have hdecode : decodeHeader (slice p.file fixedPrefixBytes
      (fixedPrefixBytes + p.header.encoded.length)) = .ok p.header := by
    rw [p.file_eq_dek]
    exact decodeHeader_fileStart p.withinBounds _
  simp only [parseFile, bind_eq_ok, require_eq_ok]
  refine ⟨(), hmin, (), htake, version, hversion, (), rfl, _, hheaderLen, ?_⟩
  rw [dif_neg (Nat.not_lt.mpr hheader)]
  simp only [bind_eq_ok, require_eq_ok]
  refine ⟨(), by omega, p.header, hdecode, p.payloadLen, p.readU64_file, (), p.payloadLen_le, (),
    hlen.symm, ?_⟩
  have t1 : p.file.take (fixedPrefixBytes + p.header.encoded.length) = p.prefixBeforeDek := by
    rw [p.file_eq_dek]
    exact List.take_left' p.length_prefixBeforeDek
  have t2 : p.file.take (fixedPrefixBytes + p.header.encoded.length + wrapperBytes) =
      p.prefixThroughDekTag := by
    rw [p.file_eq_payloadLen]
    exact List.take_left' p.length_prefixThroughDekTag
  have t3 : p.file.take (fixedPrefixBytes + p.header.encoded.length + wrapperBytes + 8) =
      p.prefixThroughPayloadLen := by
    rw [p.file_eq_payload]
    exact List.take_left' p.length_prefixThroughPayloadLen
  simp only [t1, t2, t3, p.slice_dekNonce, p.slice_wrappedDek, p.slice_payloadNonce, p.drop_file]
  rfl

/-- A file that is parsed has the parts. -/
lemma exists_parts {f : Bytes} {q : ParsedFile} (h : parseFile f = .ok q) :
    ∃ p : Parts, f = p.file := by
  simp only [parseFile, bind_eq_ok, require_eq_ok] at h
  obtain ⟨-, -, -, hmagic, _, h16, -, rfl, headerLen, h32, h⟩ := h
  split_ifs at h with hle
  simp only [bind_eq_ok, require_eq_ok] at h
  obtain ⟨-, hend, header, hdecode, payloadLen, h64, -, hpayload, -, hlen, -⟩ := h
  obtain ⟨hb, hencoded⟩ := decodeHeader_eq_ok hdecode
  have hversion := (readUint_eq_ok h16).2
  have hheaderLen := (readUint_eq_ok h32).2
  have hpayloadLen := (readUint_eq_ok h64).2
  have hlenHeader : header.encoded.length = headerLen := by
    rw [hencoded, length_slice (by omega)]
    omega
  let p : Parts := {
    header := header
    dekNonce := slice f (fixedPrefixBytes + headerLen) (fixedPrefixBytes + headerLen + nonceBytes)
    wrappedDek := slice f (fixedPrefixBytes + headerLen + nonceBytes)
      (fixedPrefixBytes + headerLen + wrapperBytes)
    payloadLen := payloadLen
    payloadNonce := slice f (fixedPrefixBytes + headerLen + wrapperBytes + 8)
      (fixedPrefixBytes + headerLen + wrapperBytes + 8 + nonceBytes)
    encryptedPayload := f.drop (fixedPrefixBytes + headerLen + wrapperBytes + 8 + nonceBytes)
    withinBounds := hb
    length_dekNonce := by
      rw [length_slice (by simp only [wrapperBytes] at hend; omega)]
      omega
    length_wrappedDek := by
      rw [length_slice (by omega), wrapperBytes]
      omega
    payloadLen_le := hpayload
    length_payloadNonce := by
      rw [length_slice (by omega)]
      omega
    length_encryptedPayload := by
      rw [List.length_drop]
      omega }
  refine ⟨p, ?_⟩
  have s1 : magic ++ Cbor.be 2 version = f.take 10 := by
    have hstart : f.take 8 = magic := hmagic
    rw [← hversion, ← hstart]
    exact take_append_slice (by omega)
  have s2 : p.prefixBeforeDek = f.take (fixedPrefixBytes + headerLen) := by
    have hstart : f.take 10 ++ slice f 10 (10 + 4) = f.take fixedPrefixBytes :=
      take_append_slice (by omega)
    rw [Parts.prefixBeforeDek, fileStart, s1, hlenHeader, ← hheaderLen, hstart, hencoded]
    exact take_append_slice (by omega)
  have s3 : p.prefixThroughDekTag = f.take (fixedPrefixBytes + headerLen + wrapperBytes) := by
    rw [Parts.prefixThroughDekTag, s2, take_append_slice (by omega)]
    exact take_append_slice (by simp only [wrapperBytes]; omega)
  have s4 : p.prefixThroughPayloadLen =
      f.take (fixedPrefixBytes + headerLen + wrapperBytes + 8) := by
    rw [Parts.prefixThroughPayloadLen, s3, ← hpayloadLen]
    exact take_append_slice (by omega)
  rw [Parts.file, s4, take_append_slice (by omega), List.take_append_drop]

/-- **A file is parsed just when it is made of the parts.** -/
theorem parseFile_eq_ok_iff {f : Bytes} {q : ParsedFile} :
    parseFile f = .ok q ↔ ∃ p : Parts, f = p.file ∧ q = p.parsed := by
  constructor
  · intro h
    obtain ⟨p, rfl⟩ := exists_parts h
    rw [parseFile_file] at h
    exact ⟨p, rfl, (Except.ok.inj h).symm⟩
  · rintro ⟨p, rfl, rfl⟩
    exact parseFile_file p

end Ladon.CryptoFile

import Ladon.CryptoLifetime

/-!
No file is opened that was not sealed.

The cipher is taken as ideal: under a key it decrypts what was encrypted under that key and nothing
else. Every encryption that a program makes is recorded in a journal, with the keys it made and the
files it returned. Each byte of a file is in the associated data of one of its two ciphertexts, or in
a nonce or in a ciphertext, so that a file that opens is one of those returned.
-/

namespace Ladon.CryptoTamper

open Ladon.Error Ladon.Model Ladon.Codec Ladon.CodecRoundtrip Ladon.Crypto Ladon.CryptoFile
open Ladon.CryptoLifetime Ladon.Lib Ladon.Lib.Utf8

/-! ### Encryptions -/

/-- What the cipher is asked to encrypt. -/
structure Encryption where
  key : Bytes
  nonce : Bytes
  plaintext : Bytes
  aad : Bytes

def Encryption.result (aead : Aead) (e : Encryption) : Except LadonError Bytes :=
  aead.encrypt e.key e.nonce e.plaintext e.aad

/-- The ciphertext, nonce and associated data come from one of the encryptions under the key. -/
def Produced (aead : Aead) (calls : List Encryption) (key nonce ciphertext aad : Bytes) : Prop :=
  ∃ e ∈ calls, e.key = key ∧ e.nonce = nonce ∧ e.aad = aad ∧ e.result aead = .ok ciphertext

instance (aead : Aead) (calls : List Encryption) (key nonce ciphertext aad : Bytes) :
    Decidable (Produced aead calls key nonce ciphertext aad) :=
  inferInstanceAs (Decidable (∃ e ∈ calls, _))

/-- The ideal cipher decrypts only what was encrypted under the key. -/
def idealDecrypt (aead : Aead) (calls : List Encryption) : Decrypt := fun key nonce ciphertext aad =>
  if Produced aead calls key nonce ciphertext aad then aead.decrypt key nonce ciphertext aad
  else .error .vaultAuthenticationFailed

lemma idealDecrypt_eq_ok {aead : Aead} {calls : List Encryption}
    {key nonce ciphertext aad plaintext : Bytes}
    (h : idealDecrypt aead calls key nonce ciphertext aad = .ok plaintext) :
    ⟨key, nonce, plaintext, aad⟩ ∈ calls ∧
      aead.encrypt key nonce plaintext aad = .ok ciphertext := by
  unfold idealDecrypt at h
  split_ifs at h with hproduced
  obtain ⟨e, he, rfl, rfl, rfl, hresult⟩ := hproduced
  have hdecrypt := aead.decrypt_encrypt hresult
  rw [h] at hdecrypt
  cases hdecrypt
  exact ⟨he, hresult⟩

/-! ### Histories -/

section Histories

variable [UnicodeNormalization] (aead : Aead) (kdf : Kdf)

/-- The encryption that wraps a new key. -/
def wrapCalls (passphrase : Bytes) (draws : KeyDraws) : List Encryption :=
  match prepareKey kdf passphrase draws with
  | .ok w => [⟨w.kek, w.nonce.bytes, w.dek.1, w.aad⟩]
  | .error _ => []

/-- The encryption of a payload. -/
def sealCalls (payload : VaultPayload) (keys : KeyMaterial) (nonce : Except LadonError Nonce) :
    List Encryption :=
  match encodePayload payload, nonce with
  | .ok plaintext, .ok n =>
    [⟨keys.dek, n.bytes, plaintext, associatedData payloadDomain
      (keys.prefixThroughDekTag ++ Cbor.be 8 plaintext.length)⟩]
  | _, _ => []

/-- The encryptions of a new key and of the payload sealed with it. -/
def freshCalls (payload : VaultPayload) (passphrase : Bytes) (draws : KeyDraws)
    (nonce : Except LadonError Nonce) : List Encryption :=
  wrapCalls kdf passphrase draws ++
    match newKeyMaterial aead kdf passphrase draws with
    | .ok keys => sealCalls payload keys nonce
    | .error _ => []

/-- The key material that is made for a passphrase. -/
def freshKeys (passphrase : Bytes) (draws : KeyDraws) : List (Bytes × KeyMaterial) :=
  match newKeyMaterial aead kdf passphrase draws with
  | .ok keys => [(passphrase, keys)]
  | .error _ => []

inductive VaultCall
  | create (payload : VaultPayload) (passphrase : Bytes) (draws : KeyDraws)
      (nonce : Except LadonError Nonce)
  | save (vault : UnlockedVault) (nonce : Except LadonError Nonce)
  | rotatePassphrase (vault : UnlockedVault) (currentPassphrase newPassphrase : Bytes)
      (draws : KeyDraws) (nonce : Except LadonError Nonce)

variable (decrypt : Decrypt)

def VaultCall.calls : VaultCall → List Encryption
  | .create payload passphrase draws nonce => freshCalls aead kdf payload passphrase draws nonce
  | .save vault nonce => sealCalls vault.payload vault.keyMaterial nonce
  | .rotatePassphrase vault currentPassphrase newPassphrase draws nonce =>
    match verifyCurrentPassphrase decrypt kdf vault.keyMaterial currentPassphrase with
    | .ok () => freshCalls aead kdf vault.payload newPassphrase draws nonce
    | .error _ => []

def VaultCall.keys : VaultCall → List (Bytes × KeyMaterial)
  | .create _ passphrase draws _ => freshKeys aead kdf passphrase draws
  | .save _ _ => []
  | .rotatePassphrase vault currentPassphrase newPassphrase draws _ =>
    match verifyCurrentPassphrase decrypt kdf vault.keyMaterial currentPassphrase with
    | .ok () => freshKeys aead kdf newPassphrase draws
    | .error _ => []

/-- The file that the call returns, with the keys it is sealed with. -/
def VaultCall.files : VaultCall → List (KeyMaterial × Bytes)
  | .create payload passphrase draws nonce =>
    match createVault aead kdf payload passphrase draws nonce with
    | .ok (vault, file) => [(vault.keyMaterial, file)]
    | .error _ => []
  | .save vault nonce =>
    match vault.sealVault aead nonce with
    | .ok file => [(vault.keyMaterial, file)]
    | .error _ => []
  | .rotatePassphrase vault currentPassphrase newPassphrase draws nonce =>
    match vault.rotatePassphrase aead decrypt kdf currentPassphrase newPassphrase draws nonce with
    | (.ok file, vault) => [(vault.keyMaterial, file)]
    | (.error _, _) => []

/-- The encryptions made so far, the keys that were made for passphrases, and the files that were
returned. -/
structure Journal where
  calls : List Encryption := []
  keys : List (Bytes × KeyMaterial) := []
  files : List (KeyMaterial × Bytes) := []

def Journal.after (j : Journal) (call : VaultCall) : Journal where
  calls := j.calls ++ call.calls aead kdf (idealDecrypt aead j.calls)
  keys := j.keys ++ call.keys aead kdf (idealDecrypt aead j.calls)
  files := j.files ++ call.files aead kdf (idealDecrypt aead j.calls)

/-- The journal of a history of calls. -/
def journal (history : List VaultCall) : Journal := history.foldl (Journal.after aead kdf) {}

/-- A file was sealed with keys that were made for the passphrase. -/
def Journal.SealedUnder (j : Journal) (passphrase file : Bytes) : Prop :=
  ∃ keys, (passphrase, keys) ∈ j.keys ∧ (keys, file) ∈ j.files

end Histories

/-! ### What an encryption is for -/

section Recorded

variable [UnicodeNormalization] {aead : Aead} {kdf : Kdf}

/-- The encryption wraps the key of one of the key materials. -/
def Wraps (kdf : Kdf) (keys : List (Bytes × KeyMaterial)) (e : Encryption) (ciphertext : Bytes) :
    Prop :=
  ∃ passphrase k header, (passphrase, k) ∈ keys ∧ KdfHeader.WithinBounds header ∧
    deriveKek kdf passphrase header = .ok e.key ∧
    e.aad = associatedData dekDomain (fileStart header.encoded) ∧
    k.prefixThroughDekTag = fileStart header.encoded ++ e.nonce ++ ciphertext ∧ k.dek = e.plaintext

/-- The encryption is the payload of one of the files. -/
def Seals (files : List (KeyMaterial × Bytes)) (e : Encryption) (ciphertext : Bytes) : Prop :=
  ∃ k file len, (k, file) ∈ files ∧ k.dek = e.key ∧
    e.aad = associatedData payloadDomain (k.prefixThroughDekTag ++ Cbor.be 8 len) ∧
    file = k.prefixThroughDekTag ++ Cbor.be 8 len ++ e.nonce ++ ciphertext

omit [UnicodeNormalization] in
lemma wraps_of_mem {passphrase : Bytes} {draws : KeyDraws} {e : Encryption} {c : Bytes}
    (he : e ∈ wrapCalls kdf passphrase draws) (hc : e.result aead = .ok c) :
    Wraps kdf (freshKeys aead kdf passphrase draws) e c := by
  unfold wrapCalls at he
  split at he
  · next w hw =>
    obtain rfl := List.mem_singleton.mp he
    obtain ⟨header, hb, hstart, hkek⟩ := prepareKey_eq_ok hw
    obtain ⟨keys, hkeys, hhead, hdek⟩ := newKeyMaterial_of_encrypt hw hc
    refine ⟨passphrase, keys, header, ?_, hb, hkek, ?_, ?_, hdek⟩
    · rw [freshKeys, hkeys]
      exact List.mem_singleton_self _
    · rw [← hstart]
      rfl
    · rw [hhead, hstart]
  · cases he

lemma seals_of_mem {payload : VaultPayload} {keys : KeyMaterial} {nonce : Except LadonError Nonce}
    {e : Encryption} {c : Bytes} (he : e ∈ sealCalls payload keys nonce)
    (hc : e.result aead = .ok c) :
    ∃ file, sealPayload aead payload keys nonce = .ok file ∧ Seals [(keys, file)] e c := by
  unfold sealCalls at he
  split at he
  · next plaintext n hp =>
    obtain rfl := List.mem_singleton.mp he
    have hencrypt : aead.encrypt keys.dek n.bytes plaintext (associatedData payloadDomain
      (keys.prefixThroughDekTag ++ Cbor.be 8 plaintext.length)) = .ok c := hc
    refine ⟨_, ?_, keys, _, plaintext.length, List.mem_singleton_self _, rfl, rfl, rfl⟩
    rw [sealPayload, hp, ok_bind]
    simp only [ok_bind, hencrypt]
    rfl
  · cases he

omit [UnicodeNormalization] in
lemma Wraps.mono {l l' : List (Bytes × KeyMaterial)} {e : Encryption} {c : Bytes}
    (h : Wraps kdf l e c) (hl : l ⊆ l') : Wraps kdf l' e c := by
  obtain ⟨passphrase, k, header, hmem, hrest⟩ := h
  exact ⟨passphrase, k, header, hl hmem, hrest⟩

omit [UnicodeNormalization] in
lemma Seals.mono {l l' : List (KeyMaterial × Bytes)} {e : Encryption} {c : Bytes}
    (h : Seals l e c) (hl : l ⊆ l') : Seals l' e c := by
  obtain ⟨k, file, len, hmem, hrest⟩ := h
  exact ⟨k, file, len, hl hmem, hrest⟩

/-- The encryptions of a new key and of what is sealed with it. -/
lemma fresh_cases {payload : VaultPayload} {passphrase : Bytes} {draws : KeyDraws}
    {nonce : Except LadonError Nonce} {e : Encryption} {c : Bytes}
    (he : e ∈ freshCalls aead kdf payload passphrase draws nonce) (hc : e.result aead = .ok c) :
    Wraps kdf (freshKeys aead kdf passphrase draws) e c ∨
      ∃ keys file, newKeyMaterial aead kdf passphrase draws = .ok keys ∧
        sealPayload aead payload keys nonce = .ok file ∧ Seals [(keys, file)] e c := by
  rcases List.mem_append.mp he with he | he
  · exact .inl (wraps_of_mem he hc)
  · split at he
    · next keys hkeys =>
      obtain ⟨file, hfile, hseals⟩ := seals_of_mem he hc
      exact .inr ⟨keys, file, hkeys, hfile, hseals⟩
    · cases he

/-- Every encryption of a call wraps a key it makes or seals a file it returns. -/
lemma VaultCall.recorded {decrypt : Decrypt} {call : VaultCall} {e : Encryption} {c : Bytes}
    (he : e ∈ call.calls aead kdf decrypt) (hc : e.result aead = .ok c) :
    Wraps kdf (call.keys aead kdf decrypt) e c ∨ Seals (call.files aead kdf decrypt) e c := by
  cases call with
  | create payload passphrase draws nonce =>
    rcases fresh_cases he hc with h | ⟨keys, file, hkeys, hfile, h⟩
    · exact .inl h
    · refine .inr ?_
      simp only [VaultCall.files, createVault, hkeys, hfile, ok_bind]
      exact h
  | save vault nonce =>
    obtain ⟨file, hfile, h⟩ := seals_of_mem he hc
    refine .inr ?_
    rw [VaultCall.files, UnlockedVault.sealVault, hfile]
    exact h
  | rotatePassphrase vault currentPassphrase newPassphrase draws nonce =>
    rw [VaultCall.calls] at he
    split at he
    · next hverify =>
      rcases fresh_cases he hc with h | ⟨keys, file, hkeys, hfile, h⟩
      · refine .inl ?_
        rw [VaultCall.keys, hverify]
        exact h
      · refine .inr ?_
        simp only [VaultCall.files, UnlockedVault.rotatePassphrase, hverify, hkeys, hfile, ok_bind]
        exact h
    · cases he

/-- Every encryption in the journal is accounted for. -/
def Recorded (aead : Aead) (kdf : Kdf) (j : Journal) : Prop :=
  ∀ e ∈ j.calls, ∀ c, e.result aead = .ok c → Wraps kdf j.keys e c ∨ Seals j.files e c

lemma Recorded.after {j : Journal} (h : Recorded aead kdf j) (call : VaultCall) :
    Recorded aead kdf (j.after aead kdf call) := by
  intro e he c hc
  rcases List.mem_append.mp he with he | he
  · rcases h e he c hc with h | h
    · exact .inl (h.mono (List.subset_append_left _ _))
    · exact .inr (h.mono (List.subset_append_left _ _))
  · rcases VaultCall.recorded he hc with h | h
    · exact .inl (h.mono (List.subset_append_right _ _))
    · exact .inr (h.mono (List.subset_append_right _ _))

lemma recorded_journal (history : List VaultCall) : Recorded aead kdf (journal aead kdf history) := by
  induction history using List.reverseRecOn with
  | nil => exact fun e he => (nomatch he)
  | append_singleton history call ih =>
    rw [journal, List.foldl_append]
    exact ih.after call

/-! ### Opening -/

omit [UnicodeNormalization] in
/-- The two ciphertexts of a file are told apart by their associated data. -/
lemma associatedData_ne (a b : Bytes) :
    associatedData dekDomain a ≠ associatedData payloadDomain b := by
  intro h
  have htake := congrArg (List.take 7) h
  rw [associatedData, associatedData, List.take_append_of_le_length (by decide +kernel),
    List.take_append_of_le_length (by decide +kernel)] at htake
  revert htake
  decide +kernel

omit [UnicodeNormalization] in
lemma associatedData_inj {domain a b : Bytes} (h : associatedData domain a = associatedData domain b) :
    a = b := List.append_cancel_left h

/-- The header that the key material begins with. -/
def HeaderOf (keys : KeyMaterial) (header : KdfHeader) : Prop :=
  header.WithinBounds ∧ ∃ rest, keys.prefixThroughDekTag = fileStart header.encoded ++ rest

/-- No other passphrase that keys were made for derives the key of this one from the header of these
keys. -/
def CollisionFree (kdf : Kdf) (j : Journal) (passphrase : Bytes) : Prop :=
  ∀ q keys, (q, keys) ∈ j.keys → ∀ header, HeaderOf keys header → ∀ kek,
    deriveKek kdf q header = .ok kek → deriveKek kdf passphrase header = .ok kek → q = passphrase

omit [UnicodeNormalization] in
lemma HeaderOf.unique {keys : KeyMaterial} {header header' : KdfHeader} (h : HeaderOf keys header)
    (h' : HeaderOf keys header') : header = header' := by
  obtain ⟨hb, rest, hkeys⟩ := h
  obtain ⟨hb', rest', hkeys'⟩ := h'
  exact fileStart_inj hb hb' (hkeys.symm.trans hkeys')

/-- **Only a file that was sealed opens.** Whatever vaults were made, sealed and given other
passphrases, if a file opens with a passphrase under the ideal cipher, then it is byte for byte a file
that was returned, sealed with keys that were made for this passphrase. -/
theorem unlock_sealed (aead : Aead) (kdf : Kdf) (history : List VaultCall) (file passphrase : Bytes)
    (hkdf : CollisionFree kdf (journal aead kdf history) passphrase) (vault : UnlockedVault)
    (hopen : unlockVault (idealDecrypt aead (journal aead kdf history).calls) kdf file passphrase =
      .ok vault) :
    (journal aead kdf history).SealedUnder passphrase file := by
  simp only [unlockVault, bind_eq_ok, asUnauthentic_eq_ok] at hopen
  obtain ⟨parsed, hparse, kek, hkek, dek, hdek, -, -, plaintext, hplain, -⟩ := hopen
  obtain ⟨p, rfl, rfl⟩ := parseFile_eq_ok_iff.mp hparse
  obtain ⟨hwrap, hwrapped⟩ := idealDecrypt_eq_ok hdek
  obtain ⟨hseal, hsealed⟩ := idealDecrypt_eq_ok hplain
  have hrecorded : Recorded aead kdf (journal aead kdf history) := recorded_journal history
  -- The first ciphertext wraps a key that was made for the passphrase.
  rcases hrecorded _ hwrap _ hwrapped with ⟨q, k, header, hmem, hb, hq, haad, hhead, hk⟩ |
    ⟨_, _, _, -, -, haad, -⟩
  swap
  · exact absurd haad (associatedData_ne _ _)
  obtain rfl : p.header = header :=
    fileStart_inj p.withinBounds hb (congrArg (· ++ []) (associatedData_inj haad))
  have hheader : HeaderOf k p.header := ⟨hb, _, hhead.trans (List.append_assoc ..)⟩
  obtain rfl : q = passphrase := hkdf q k hmem _ hheader kek hq hkek
  -- The second one is the payload of a file with the same beginning.
  rcases hrecorded _ hseal _ hsealed with ⟨_, _, _, -, -, -, haad', -⟩ |
    ⟨k', file', len, hmem', hk', haad', hfile'⟩
  · exact absurd haad'.symm (associatedData_ne _ _)
  have hparts : p.prefixThroughDekTag ++ Cbor.be 8 p.payloadLen =
      k'.prefixThroughDekTag ++ Cbor.be 8 len := associatedData_inj haad'
  obtain ⟨hthrough, hlen⟩ := List.append_inj' hparts (by simp only [Cbor.length_be])
  have hkeys : k' = k := by
    cases k'
    cases k
    simp only [KeyMaterial.mk.injEq]
    exact ⟨hthrough.symm.trans hhead.symm, hk'.trans hk.symm⟩
  have hsame : file' = p.file := by
    rw [hfile', ← hthrough, ← hlen]
    rfl
  exact ⟨k, hmem, hkeys ▸ hsame ▸ hmem'⟩

end Recorded

section Sample

local instance tamperText : UnicodeNormalization := asciiNormalization

/-- A vault is made, sealed once more, and given another passphrase. -/
def sampleHistory : List VaultCall :=
  [.create plainPayload [1, 2, 3] (sampleDraws 1) (sampleNonce 4),
    .save sampleCreated.1 (sampleNonce 5),
    .rotatePassphrase sampleCreated.1 [1, 2, 3] [4, 5] (sampleDraws 6) (sampleNonce 9)]

/-- The header of the first passphrase. -/
def sampleHeader : KdfHeader := defaultHeader (Cbor.be defaultSaltBytes 1)

lemma headerOf_sample : HeaderOf sampleCreated.1.keyMaterial sampleHeader :=
  ⟨withinBounds_defaultHeader (Cbor.length_be _ _),
    sampleCreated.1.keyMaterial.prefixThroughDekTag.drop (fileStart sampleHeader.encoded).length,
    by decide +kernel⟩

lemma collisionFree_sample :
    CollisionFree sampleKdf (journal sampleAead sampleKdf sampleHistory) [4, 5] := by
  have hkeys : (journal sampleAead sampleKdf sampleHistory).keys =
      [([1, 2, 3], sampleCreated.1.keyMaterial), ([4, 5], sampleEnd.vault.keyMaterial)] := by
    decide +kernel
  intro q keys hmem header hheader kek hq hp
  rw [hkeys] at hmem
  rcases List.mem_pair.mp hmem with h | h
  · cases h
    obtain rfl := hheader.unique headerOf_sample
    have hother : deriveKek sampleKdf [1, 2, 3] sampleHeader ≠ deriveKek sampleKdf [4, 5] sampleHeader := by
      decide +kernel
    exact absurd (hq.trans hp.symm) hother
  · cases h
    rfl

theorem unlock_sealed_sample : ∃ vault,
    unlockVault (idealDecrypt sampleAead (journal sampleAead sampleKdf sampleHistory).calls) sampleKdf
      sampleEnd.latest [4, 5] = .ok vault ∧
    (journal sampleAead sampleKdf sampleHistory).SealedUnder [4, 5] sampleEnd.latest := by
  have hopen : unlockVault (idealDecrypt sampleAead
      (journal sampleAead sampleKdf sampleHistory).calls) sampleKdf sampleEnd.latest [4, 5] =
      .ok sampleEnd.vault := by decide +kernel
  exact ⟨_, hopen, unlock_sealed _ _ _ _ _ collisionFree_sample _ hopen⟩

end Sample

end Ladon.CryptoTamper

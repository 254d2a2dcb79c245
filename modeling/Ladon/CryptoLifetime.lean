import Ladon.CryptoFraming
import Ladon.Lib.Run

/-!
A vault over its whole life: made, edited, sealed, opened again, given another passphrase.

The keys of a vault open with a passphrase where the beginning of the file they are kept with unwraps
to the key of the payload. New keys do so, keys that come out of a file are the keys that went in, and
a passphrase is changed only together with the keys.
-/

namespace Ladon.CryptoLifetime

open Ladon.Error Ladon.Model Ladon.Codec Ladon.CodecRoundtrip Ladon.Crypto Ladon.CryptoFile
open Ladon.CryptoFraming Ladon.Lib Ladon.Lib.Utf8

lemma asUnauthentic_eq_ok {α : Type} {x : Except LadonError α} {a : α} :
    asUnauthentic x = .ok a ↔ x = .ok a := by
  cases x with
  | error e => simp [asUnauthentic]
  | ok b => simp [asUnauthentic]

/-- The passphrase unwraps the key of the payload. -/
structure OpensWith (decrypt : Decrypt) (kdf : Kdf) (passphrase : Bytes) (keys : KeyMaterial) : Prop
    where
  parts : ∃ header nonce wrapped kek, header.WithinBounds ∧ nonce.length = nonceBytes ∧
    wrapped.length = wrappedDekBytes ∧
    keys.prefixThroughDekTag = fileStart header.encoded ++ nonce ++ wrapped ∧
    deriveKek kdf passphrase header = .ok kek ∧
    decrypt kek nonce wrapped (associatedData dekDomain (fileStart header.encoded)) = .ok keys.dek
  length_dek : keys.dek.length = keyBytes

lemma withinBounds_defaultHeader {salt : Bytes} (h : salt.length = defaultSaltBytes) :
    (defaultHeader salt).WithinBounds := by
  have hsalt : salt.length = 16 := h
  simp only [KdfHeader.WithinBounds, defaultHeader, hsalt]
  decide

section Keys

variable {aead : Aead} {kdf : Kdf} {passphrase : Bytes} {keys : KeyMaterial}

/-- A key that is about to be wrapped, with the key of the passphrase. -/
lemma prepareKey_eq_ok {draws : KeyDraws} {w : Wrapping}
    (h : prepareKey kdf passphrase draws = .ok w) :
    ∃ header : KdfHeader, header.WithinBounds ∧ w.prefixBeforeDek = fileStart header.encoded ∧
      deriveKek kdf passphrase header = .ok w.kek := by
  simp only [prepareKey, bind_eq_ok] at h
  obtain ⟨salt, -, h⟩ := h
  split_ifs at h
  simp only [bind_eq_ok] at h
  obtain ⟨dek, -, kek, hkek, nonce, -, h⟩ := h
  cases h
  exact ⟨_, withinBounds_defaultHeader salt.2, rfl, hkek⟩

lemma newKeyMaterial_eq_ok {draws : KeyDraws}
    (h : newKeyMaterial aead kdf passphrase draws = .ok keys) :
    ∃ w wrapped, prepareKey kdf passphrase draws = .ok w ∧
      aead.encrypt w.kek w.nonce.bytes w.dek.1 w.aad = .ok wrapped ∧
      keys.prefixThroughDekTag = w.prefixBeforeDek ++ w.nonce.bytes ++ wrapped ∧
      keys.dek = w.dek.1 := by
  simp only [newKeyMaterial, bind_eq_ok] at h
  obtain ⟨w, hw, h⟩ := h
  split at h
  · cases h
  · next wrapped he =>
    cases h
    exact ⟨w, wrapped, hw, he, rfl, rfl⟩

lemma newKeyMaterial_of_encrypt {draws : KeyDraws} {w : Wrapping} {wrapped : Bytes}
    (hw : prepareKey kdf passphrase draws = .ok w)
    (he : aead.encrypt w.kek w.nonce.bytes w.dek.1 w.aad = .ok wrapped) :
    ∃ keys, newKeyMaterial aead kdf passphrase draws = .ok keys ∧
      keys.prefixThroughDekTag = w.prefixBeforeDek ++ w.nonce.bytes ++ wrapped ∧
      keys.dek = w.dek.1 := by
  rw [newKeyMaterial, hw, ok_bind]
  split
  · next e h =>
    rw [he] at h
    cases h
  · next wrapped' h =>
    rw [he] at h
    cases h
    exact ⟨_, rfl, rfl, rfl⟩

/-- New keys open with their passphrase. -/
lemma opensWith_newKeyMaterial {draws : KeyDraws}
    (h : newKeyMaterial aead kdf passphrase draws = .ok keys) :
    OpensWith aead.decrypt kdf passphrase keys := by
  obtain ⟨w, wrapped, hw, he, hhead, hdek⟩ := newKeyMaterial_eq_ok h
  obtain ⟨header, hb, hstart, hkek⟩ := prepareKey_eq_ok hw
  have hlen : wrapped.length = wrappedDekBytes := by
    rw [aead.length_encrypt he, w.dek.2, wrappedDekBytes]
  refine ⟨⟨header, w.nonce.bytes, wrapped, w.kek, hb, w.nonce.length_eq, hlen, ?_, hkek, ?_⟩, ?_⟩
  · rw [hhead, hstart]
  · rw [hdek, ← hstart]
    exact aead.decrypt_encrypt he
  · rw [hdek, w.dek.2]

/-- The passphrase of the keys is accepted as the current one. -/
lemma verifyCurrentPassphrase_ok {decrypt : Decrypt} (h : OpensWith decrypt kdf passphrase keys) :
    verifyCurrentPassphrase decrypt kdf keys passphrase = .ok () := by
  obtain ⟨⟨header, nonce, wrapped, kek, hb, hnonce, hwrapped, hhead, hkek, hdecrypt⟩, hdek⟩ := h
  rw [verifyCurrentPassphrase_eq hb hnonce hwrapped hhead]
  simp only [verifyParts, bind_eq_ok, require_eq_ok, asUnauthentic_eq_ok]
  exact ⟨kek, hkek, keys.dek, hdecrypt, hdek⟩

/-! ### Sealed files -/

variable [UnicodeNormalization]

lemma sealPayload_eq_ok {payload : VaultPayload} {nonce : Except LadonError Nonce} {file : Bytes}
    (h : sealPayload aead payload keys nonce = .ok file) :
    ∃ plaintext n encrypted, encodePayload payload = .ok plaintext ∧ nonce = .ok n ∧
      aead.encrypt keys.dek n.bytes plaintext (associatedData payloadDomain
        (keys.prefixThroughDekTag ++ Cbor.be 8 plaintext.length)) = .ok encrypted ∧
      file = keys.prefixThroughDekTag ++ Cbor.be 8 plaintext.length ++ n.bytes ++ encrypted := by
  simp only [sealPayload, bind_eq_ok] at h
  obtain ⟨plaintext, hp, n, hn, encrypted, he, h⟩ := h
  cases h
  exact ⟨plaintext, n, encrypted, hp, hn, he, rfl⟩

/-- What a payload must keep to be read back. -/
def Valid (p : VaultPayload) : Prop := Consistent p ∧ p.records.length ≤ maxRecords

/-- **A sealed file opens** with the passphrase of its keys, to the payload and the same keys. -/
theorem unlockVault_sealPayload (h : OpensWith aead.decrypt kdf passphrase keys)
    {payload : VaultPayload} (hvalid : Valid payload) {nonce : Except LadonError Nonce}
    {file : Bytes} (hseal : sealPayload aead payload keys nonce = .ok file) :
    unlockVault aead.decrypt kdf file passphrase = .ok ⟨payload, keys⟩ := by
  obtain ⟨⟨header, dekNonce, wrapped, kek, hb, hnonce, hwrapped, hhead, hkek, hdecrypt⟩, hdek⟩ := h
  obtain ⟨plaintext, n, encrypted, hp, -, he, rfl⟩ := sealPayload_eq_ok hseal
  let p : Parts := {
    header := header
    dekNonce := dekNonce
    wrappedDek := wrapped
    payloadLen := plaintext.length
    payloadNonce := n.bytes
    encryptedPayload := encrypted
    withinBounds := hb
    length_dekNonce := hnonce
    length_wrappedDek := hwrapped
    payloadLen_le := by
      obtain ⟨rfl, hle⟩ := encodePayload_eq_ok hp
      exact hle
    length_payloadNonce := n.length_eq
    length_encryptedPayload := aead.length_encrypt he }
  have hthrough : p.prefixThroughDekTag = keys.prefixThroughDekTag := hhead.symm
  have hfile : keys.prefixThroughDekTag ++ Cbor.be 8 plaintext.length ++ n.bytes ++ encrypted =
      p.file := by rw [Parts.file, Parts.prefixThroughPayloadLen, hthrough]
  have hopen : aead.decrypt keys.dek n.bytes encrypted
      (associatedData payloadDomain p.prefixThroughPayloadLen) = .ok plaintext := by
    rw [Parts.prefixThroughPayloadLen, hthrough]
    exact aead.decrypt_encrypt he
  simp only [unlockVault, bind_eq_ok, require_eq_ok, asUnauthentic_eq_ok]
  refine ⟨p.parsed, by rw [hfile, parseFile_file], kek, hkek, keys.dek, hdecrypt, (), hdek, plaintext,
    hopen, payload, decodePayload_encodePayload hvalid.1 hvalid.2 hp, ?_⟩
  simp only [Parts.parsed, hthrough]
  rfl

/-- What the cipher decrypts encrypts to the same ciphertext again, given the same nonce. -/
def Reproducible (aead : Aead) : Prop :=
  ∀ {k n c a p : Bytes}, aead.decrypt k n c a = .ok p → aead.encrypt k n p a = .ok c

/-- **A file that opens is a seal** of the vault it opens to, whose keys open with the passphrase. -/
theorem sealPayload_of_unlockVault (haead : Reproducible aead) {file : Bytes} {vault : UnlockedVault}
    (h : unlockVault aead.decrypt kdf file passphrase = .ok vault) :
    (∃ nonce, sealPayload aead vault.payload vault.keyMaterial nonce = .ok file) ∧
      OpensWith aead.decrypt kdf passphrase vault.keyMaterial ∧ Valid vault.payload := by
  simp only [unlockVault, bind_eq_ok, asUnauthentic_eq_ok, require_eq_ok] at h
  obtain ⟨parsed, hparse, kek, hkek, dek, hdek, -, hlen, plaintext, hplain, payload, hdecode, hpure⟩ :=
    h
  cases hpure
  obtain ⟨p, rfl, rfl⟩ := parseFile_eq_ok_iff.mp hparse
  have hencrypt := haead hplain
  have hplainLen : plaintext.length = p.payloadLen := by
    have h1 := aead.length_encrypt hencrypt
    have h2 : p.parsed.encryptedPayload.length = p.payloadLen + tagBytes := p.length_encryptedPayload
    omega
  refine ⟨⟨.ok ⟨p.payloadNonce, p.length_payloadNonce⟩, ?_⟩,
    ⟨⟨p.header, p.dekNonce, p.wrappedDek, kek, p.withinBounds, p.length_dekNonce,
      p.length_wrappedDek, rfl, hkek, hdek⟩, hlen⟩, consistent_decodePayload hdecode⟩
  have hencrypt' : aead.encrypt dek p.payloadNonce plaintext (associatedData payloadDomain
      (p.prefixThroughDekTag ++ Cbor.be 8 p.payloadLen)) = .ok p.encryptedPayload := hencrypt
  simp only [sealPayload, encodePayload_of_decodePayload hdecode, ok_bind, hplainLen,
    Parts.parsed, hencrypt']
  rfl

end Keys

/-! ### Lifetimes -/

section Lifetimes

variable [UnicodeNormalization]

/-- An open vault, the passphrase in force, the latest file and what it was sealed from. -/
structure Lifetime where
  vault : UnlockedVault
  passphrase : Bytes
  latest : Bytes
  saved : VaultPayload

inductive LifeOp
  | edit (payload : VaultPayload)
  | save (nonce : Except LadonError Nonce)
  | rotatePassphrase (currentPassphrase newPassphrase : Bytes) (draws : KeyDraws)
      (nonce : Except LadonError Nonce)
  | unlock

variable (aead : Aead) (kdf : Kdf)

/-- The life of the vault behind an operation; one that fails leaves it as it was. -/
def Lifetime.after (l : Lifetime) : LifeOp → Lifetime
  | .edit payload => { l with vault := { l.vault with payload := payload } }
  | .save nonce =>
    match l.vault.sealVault aead nonce with
    | .ok file => { l with latest := file, saved := l.vault.payload }
    | .error _ => l
  | .rotatePassphrase currentPassphrase newPassphrase draws nonce =>
    let (result, vault) := l.vault.rotatePassphrase aead aead.decrypt kdf currentPassphrase
      newPassphrase draws nonce
    match result with
    | .ok file => ⟨vault, newPassphrase, file, vault.payload⟩
    | .error _ => { l with vault := vault }
  | .unlock =>
    match unlockVault aead.decrypt kdf l.latest l.passphrase with
    | .ok vault => { l with vault := vault }
    | .error _ => l

/-- Edits keep the payload valid. -/
def LifeOp.Proper : LifeOp → Prop
  | .edit payload => Valid payload
  | _ => True

def LifeStep (l : Lifetime) (op : LifeOp) (l' : Lifetime) : Prop :=
  op.Proper ∧ l' = l.after aead kdf op

variable {aead : Aead} {kdf : Kdf} {l l' : Lifetime} {op : LifeOp}

/-- What the life of a vault keeps. -/
structure LifeInv (aead : Aead) (kdf : Kdf) (l : Lifetime) : Prop where
  keys : OpensWith aead.decrypt kdf l.passphrase l.vault.keyMaterial
  valid : Valid l.vault.payload
  saved : Valid l.saved
  latest : ∃ nonce, sealPayload aead l.saved l.vault.keyMaterial nonce = .ok l.latest

lemma LifeInv.unlock_latest (h : LifeInv aead kdf l) :
    unlockVault aead.decrypt kdf l.latest l.passphrase = .ok ⟨l.saved, l.vault.keyMaterial⟩ := by
  obtain ⟨nonce, hseal⟩ := h.latest
  exact unlockVault_sealPayload h.keys h.saved hseal

/-- A vault behind a change of its passphrase has new keys or is as it was. -/
lemma rotatePassphrase_cases (vault : UnlockedVault) (currentPassphrase newPassphrase : Bytes)
    (draws : KeyDraws) (nonce : Except LadonError Nonce) :
    (∃ keys file, newKeyMaterial aead kdf newPassphrase draws = .ok keys ∧
      sealPayload aead vault.payload keys nonce = .ok file ∧
      vault.rotatePassphrase aead aead.decrypt kdf currentPassphrase newPassphrase draws nonce =
        (.ok file, { vault with keyMaterial := keys })) ∨
    ∃ e, vault.rotatePassphrase aead aead.decrypt kdf currentPassphrase newPassphrase draws nonce =
      (.error e, vault) := by
  unfold UnlockedVault.rotatePassphrase
  dsimp only
  split
  · next keys file h =>
    simp only [bind_eq_ok] at h
    obtain ⟨-, -, keys', hkeys, file', hfile, hpure⟩ := h
    cases hpure
    exact .inl ⟨keys, file, hkeys, hfile, rfl⟩
  · next e _ => exact .inr ⟨e, rfl⟩

lemma LifeInv.step (h : LifeInv aead kdf l) (hs : LifeStep aead kdf l op l') :
    LifeInv aead kdf l' := by
  obtain ⟨hproper, rfl⟩ := hs
  cases op with
  | edit payload => exact ⟨h.keys, hproper, h.saved, h.latest⟩
  | save nonce =>
    rw [Lifetime.after]
    cases hseal : l.vault.sealVault aead nonce with
    | error e => exact h
    | ok file => exact ⟨h.keys, h.valid, h.valid, nonce, hseal⟩
  | rotatePassphrase currentPassphrase newPassphrase draws nonce =>
    rw [Lifetime.after]
    rcases @rotatePassphrase_cases _ aead kdf l.vault currentPassphrase newPassphrase draws nonce with
      ⟨keys, file, hkeys, hfile, heq⟩ | ⟨e, heq⟩
    · rw [heq]
      exact ⟨opensWith_newKeyMaterial hkeys, h.valid, h.valid, nonce, hfile⟩
    · rw [heq]
      exact h
  | unlock =>
    rw [Lifetime.after, h.unlock_latest]
    exact ⟨h.keys, h.saved, h.saved, h.latest⟩

lemma lifeInv_create {payload : VaultPayload} {passphrase : Bytes} {draws : KeyDraws}
    {nonce : Except LadonError Nonce} {vault : UnlockedVault} {file : Bytes}
    (hvalid : Valid payload)
    (h : createVault aead kdf payload passphrase draws nonce = .ok (vault, file)) :
    LifeInv aead kdf ⟨vault, passphrase, file, payload⟩ := by
  simp only [createVault, bind_eq_ok] at h
  obtain ⟨keys, hkeys, file', hfile, hpure⟩ := h
  cases hpure
  exact ⟨opensWith_newKeyMaterial hkeys, hvalid, hvalid, nonce, hfile⟩

/-- **The latest file always opens** with the passphrase in force, over the whole life of a vault, to
what was last sealed and to the keys of the vault. Whatever is sealed with these keys later opens with
the same passphrase, which is also accepted as the current one; and a change of passphrase that fails
leaves the vault as it was. -/
theorem latest_opens (aead : Aead) (kdf : Kdf) (payload : VaultPayload) (hvalid : Valid payload)
    (passphrase : Bytes) (draws : KeyDraws) (nonce : Except LadonError Nonce)
    (vault : UnlockedVault) (file : Bytes)
    (hcreate : createVault aead kdf payload passphrase draws nonce = .ok (vault, file))
    (ops : List LifeOp) (l : Lifetime)
    (hrun : Run (LifeStep aead kdf) ⟨vault, passphrase, file, payload⟩ ops l) :
    unlockVault aead.decrypt kdf l.latest l.passphrase = .ok ⟨l.saved, l.vault.keyMaterial⟩ ∧
    (∀ payload nonce file, Valid payload →
      UnlockedVault.sealVault aead ⟨payload, l.vault.keyMaterial⟩ nonce = .ok file →
      unlockVault aead.decrypt kdf file l.passphrase = .ok ⟨payload, l.vault.keyMaterial⟩) ∧
    verifyCurrentPassphrase aead.decrypt kdf l.vault.keyMaterial l.passphrase = .ok () ∧
    ∀ currentPassphrase newPassphrase draws nonce e,
      (l.vault.rotatePassphrase aead aead.decrypt kdf currentPassphrase newPassphrase draws
        nonce).1 = .error e →
      (l.vault.rotatePassphrase aead aead.decrypt kdf currentPassphrase newPassphrase draws
        nonce).2 = l.vault := by
  have hinv : LifeInv aead kdf l := by
    refine hrun.invariant (lifeInv_create hvalid hcreate) ?_
    intro l op l' h hs
    exact h.step hs
  refine ⟨hinv.unlock_latest, fun payload nonce file hp hseal => ?_,
    verifyCurrentPassphrase_ok hinv.keys, fun current new draws nonce e herror => ?_⟩
  · exact unlockVault_sealPayload hinv.keys hp hseal
  · rcases @rotatePassphrase_cases _ aead kdf l.vault current new draws nonce with
      ⟨keys, file, -, -, heq⟩ | ⟨e', heq⟩
    · rw [heq] at herror
      cases herror
    · rw [heq]

end Lifetimes

section Sample

local instance lifetimeText : UnicodeNormalization := asciiNormalization

/-- A number that depends on all of the bytes. -/
def checksum (b : Bytes) : ℕ := b.foldl (fun acc x => acc * 257 + x.toNat + 1) 0

/-- A cipher that does not hide the plaintext but does authenticate it, by a checksum. -/
def sampleAead : Aead where
  encrypt := fun k n p a => .ok (p ++ Cbor.be tagBytes (checksum (k ++ n ++ a ++ p)))
  decrypt := fun k n c a =>
    let p := c.take (c.length - tagBytes)
    if c = p ++ Cbor.be tagBytes (checksum (k ++ n ++ a ++ p)) then .ok p
    else .error .vaultAuthenticationFailed
  length_encrypt := by rintro _ _ p _ c h; cases h; simp
  decrypt_encrypt := by rintro _ _ p _ c h; cases h; simp

def sampleKdf : Kdf := fun passphrase header =>
  some (Cbor.be keyBytes (checksum (passphrase ++ header.salt)))

def sampleDraws (n : ℕ) : KeyDraws where
  salt := .ok ⟨Cbor.be defaultSaltBytes n, Cbor.length_be _ _⟩
  dek := .ok ⟨Cbor.be keyBytes (n + 1), Cbor.length_be _ _⟩
  nonce := .ok ⟨Cbor.be nonceBytes (n + 2), Cbor.length_be _ _⟩

def sampleNonce (n : ℕ) : Except LadonError Nonce := .ok ⟨Cbor.be nonceBytes n, Cbor.length_be _ _⟩

def plainPayload : VaultPayload := { samplePayload with unknown := .empty }

lemma valid_plainPayload : Valid plainPayload := by
  have hdecode : decodePayload plainPayload.encoded = .ok plainPayload := by decide +kernel
  exact consistent_decodePayload hdecode

/-- A new vault with its first file. -/
def sampleCreated : UnlockedVault × Bytes :=
  match createVault sampleAead sampleKdf plainPayload [1, 2, 3] (sampleDraws 1) (sampleNonce 4) with
  | .ok created => created
  | .error _ => (⟨plainPayload, .blank⟩, [])

lemma createVault_sample : createVault sampleAead sampleKdf plainPayload [1, 2, 3] (sampleDraws 1)
    (sampleNonce 4) = .ok sampleCreated := by decide +kernel

def sampleLife : Lifetime := ⟨sampleCreated.1, [1, 2, 3], sampleCreated.2, plainPayload⟩

/-- The vault is sealed again, gets another passphrase and is opened. -/
def sampleOps : List LifeOp :=
  [.save (sampleNonce 5), .rotatePassphrase [1, 2, 3] [4, 5] (sampleDraws 6) (sampleNonce 9), .unlock]

def sampleEnd : Lifetime := sampleOps.foldl (Lifetime.after sampleAead sampleKdf) sampleLife

theorem latest_opens_sample : sampleEnd.passphrase = [4, 5] ∧ sampleEnd.saved = plainPayload ∧
    unlockVault sampleAead.decrypt sampleKdf sampleEnd.latest sampleEnd.passphrase =
      .ok ⟨sampleEnd.saved, sampleEnd.vault.keyMaterial⟩ := by
  have hrun : Run (LifeStep sampleAead sampleKdf) sampleLife sampleOps sampleEnd :=
    .of_foldl sampleLife sampleOps fun op hop l => by
      simp only [sampleOps, List.mem_cons, List.not_mem_nil, or_false] at hop
      rcases hop with rfl | rfl | rfl
      all_goals exact ⟨trivial, rfl⟩
  exact ⟨by decide +kernel, by decide +kernel,
    (latest_opens sampleAead sampleKdf plainPayload valid_plainPayload [1, 2, 3]
      (sampleDraws 1) (sampleNonce 4) _ _ createVault_sample sampleOps _ hrun).1⟩

end Sample

end Ladon.CryptoLifetime

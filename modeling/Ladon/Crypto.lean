import Ladon.Codec

/-!
Sealing a payload into a vault file, and opening it again.

A file begins with a header that says how the key of the passphrase is derived, and the key of the
payload wrapped with it. Behind this prefix stand the length of the payload, a nonce, and the payload
encrypted with everything before the nonce as associated data. The cipher and the derivation of keys
are parameters; what is used of the cipher here is the length of what it returns.
-/

namespace Ladon.Crypto

open Ladon.Error Ladon.Model Ladon.Codec Ladon.Lib Ladon.Lib.Utf8

def fixedPrefixBytes : ℕ := 14
def maxHeaderBytes : ℕ := 4 * 1024
def nonceBytes : ℕ := 24
def keyBytes : ℕ := 32
def tagBytes : ℕ := 16
def wrappedDekBytes : ℕ := keyBytes + tagBytes
def wrapperBytes : ℕ := nonceBytes + wrappedDekBytes
def payloadFixedBytes : ℕ := 8 + nonceBytes + tagBytes

def maxVaultFileBytes : ℕ :=
  fixedPrefixBytes + maxHeaderBytes + wrapperBytes + payloadFixedBytes + maxVaultPayloadBytes

def magic : Bytes := ofString "LADONV1" ++ [0]
def version : ℕ := 1

def dekDomain : Bytes := ofString "ladon/dek/v1"
def payloadDomain : Bytes := ofString "ladon/payload/v1"

def defaultMemoryKib : ℕ := 64 * 1024
def defaultPasses : ℕ := 3
def defaultParallelism : ℕ := 4
def defaultSaltBytes : ℕ := 16

def minMemoryKib : ℕ := 32 * 1024
def maxMemoryKib : ℕ := 256 * 1024
def minPasses : ℕ := 1
def maxPasses : ℕ := 10
def minParallelism : ℕ := 1
def maxParallelism : ℕ := 16
def minSaltBytes : ℕ := 16
def maxSaltBytes : ℕ := 64

/-- The authenticated cipher: key, nonce, plaintext or ciphertext, associated data. -/
structure Aead where
  encrypt : Bytes → Bytes → Bytes → Bytes → Except LadonError Bytes
  decrypt : Bytes → Bytes → Bytes → Bytes → Except LadonError Bytes
  length_encrypt : ∀ {k n p a c}, encrypt k n p a = .ok c → c.length = p.length + tagBytes
  decrypt_encrypt : ∀ {k n p a c}, encrypt k n p a = .ok c → decrypt k n c a = .ok p

structure Nonce where
  bytes : Bytes
  length_eq : bytes.length = nonceBytes

/-- The key of the payload, and the beginning of the file that holds it wrapped. -/
structure KeyMaterial where
  prefixThroughDekTag : Bytes
  dek : Bytes
  prefix_le : prefixThroughDekTag.length ≤ fixedPrefixBytes + maxHeaderBytes + wrapperBytes
  deriving DecidableEq

/-- The material of a store that wraps no key. -/
def KeyMaterial.blank : KeyMaterial := ⟨[], [], Nat.zero_le _⟩

def associatedData (domain bytes : Bytes) : Bytes := domain ++ bytes

section Seal

variable [UnicodeNormalization]

structure UnlockedVault where
  payload : VaultPayload
  keyMaterial : KeyMaterial
  deriving DecidableEq

/-- The file that holds a payload, under a nonce that the random source gave or could not give. -/
def sealPayload (aead : Aead) (payload : VaultPayload) (keys : KeyMaterial)
    (nonce : Except LadonError Nonce) : Except LadonError Bytes := do
  let plaintext ← encodePayload payload
  let output := keys.prefixThroughDekTag ++ Cbor.be 8 plaintext.length
  let nonce ← nonce
  let encrypted ← aead.encrypt keys.dek nonce.bytes plaintext (associatedData payloadDomain output)
  return output ++ nonce.bytes ++ encrypted

/-- No file that is sealed is too large to be opened. -/
lemma sealPayload_length {aead : Aead} {payload : VaultPayload} {keys : KeyMaterial}
    {nonce : Except LadonError Nonce} {file : Bytes}
    (h : sealPayload aead payload keys nonce = .ok file) : file.length ≤ maxVaultFileBytes := by
  simp only [sealPayload, bind_eq_ok] at h
  obtain ⟨plaintext, hp, n, -, encrypted, he, h⟩ := h
  cases h
  have hplain : plaintext.length ≤ maxVaultPayloadBytes := by
    unfold encodePayload at hp
    split at hp
    · cases hp
    · next hlen => cases hp; exact Nat.not_lt.mp hlen
  have henc : encrypted.length = plaintext.length + tagBytes := aead.length_encrypt he
  have hprefix := keys.prefix_le
  have hnonce := n.length_eq
  simp only [List.length_append, Cbor.length_be, maxVaultFileBytes, payloadFixedBytes]
  omega

end Seal

/-! ### Headers -/

/-- How the key of a passphrase is derived. -/
structure KdfHeader where
  memoryKib : ℕ
  passes : ℕ
  parallelism : ℕ
  salt : Bytes
  deriving DecidableEq

/-- The encoding before its length is checked. -/
def KdfHeader.encoded (h : KdfHeader) : Bytes :=
  Cbor.head 5 5 ++ (encodeStr "kdf" ++ (encodeStr "argon2id" ++ (encodeStr "salt" ++
    ((Cbor.head 2 h.salt.length ++ h.salt) ++ (encodeStr "passes" ++ (encodeUint h.passes ++
      (encodeStr "memory_kib" ++ (encodeUint h.memoryKib ++ (encodeStr "parallelism" ++
        encodeUint h.parallelism)))))))))

def encodeHeader (h : KdfHeader) : Except LadonError Bytes :=
  if maxHeaderBytes < h.encoded.length then .error .invalidVaultFile else .ok h.encoded

/-- What a reader found, or the error of a file that is not a vault. -/
def orInvalidFile {α : Type} : Option α → Except LadonError α
  | some a => .ok a
  | none => .error .invalidVaultFile

/-- The text that must come next. -/
def expectText (expected : String) (w : Bytes) : Except LadonError Bytes :=
  match Cbor.str w with
  | some (s, w) => if s = expected then .ok w else .error .invalidVaultFile
  | none => .error .invalidVaultFile

def KdfHeader.WithinBounds (h : KdfHeader) : Prop :=
  (minMemoryKib ≤ h.memoryKib ∧ h.memoryKib ≤ maxMemoryKib) ∧
    (minPasses ≤ h.passes ∧ h.passes ≤ maxPasses) ∧
    (minParallelism ≤ h.parallelism ∧ h.parallelism ≤ maxParallelism) ∧
    minSaltBytes ≤ h.salt.length ∧ h.salt.length ≤ maxSaltBytes

instance (h : KdfHeader) : Decidable h.WithinBounds := by
  unfold KdfHeader.WithinBounds
  infer_instance

def expectHeaderMap (w : Bytes) : Except LadonError Bytes :=
  match Cbor.map w with
  | some (some 5, w) => .ok w
  | _ => .error .invalidVaultFile

/-- The header that was read, if it keeps the bounds and the input is its encoding. -/
def checkHeader (input rest : Bytes) (header : KdfHeader) : Except LadonError KdfHeader := do
  require (header.WithinBounds ∧ rest = []) .invalidVaultFile
  let encoded ← encodeHeader header
  require (encoded = input) .invalidVaultFile
  return header

def decodeHeader (input : Bytes) : Except LadonError KdfHeader := do
  require (input.length ≤ maxHeaderBytes) .invalidVaultFile
  let w ← expectHeaderMap input
  let w ← expectText "kdf" w
  let w ← expectText "argon2id" w
  let w ← expectText "salt" w
  let (salt, w) ← orInvalidFile (Cbor.bytes w)
  let w ← expectText "passes" w
  let (passes, w) ← orInvalidFile (Cbor.u32 w)
  let w ← expectText "memory_kib" w
  let (memoryKib, w) ← orInvalidFile (Cbor.u32 w)
  let w ← expectText "parallelism" w
  let (parallelism, w) ← orInvalidFile (Cbor.u32 w)
  checkHeader input w ⟨memoryKib, passes, parallelism, salt⟩

/-! ### Keys -/

/-- Argon2: the key for a passphrase, where the parameters are accepted. -/
abbrev Kdf := Bytes → KdfHeader → Option Bytes

def deriveKek (kdf : Kdf) (passphrase : Bytes) (header : KdfHeader) : Except LadonError Bytes :=
  orInvalidFile (kdf passphrase header)

/-- So many bytes from the random source, which may be unavailable. -/
abbrev Fill (n : ℕ) := Except LadonError { b : Bytes // b.length = n }

/-- What a new key takes from the random source. -/
structure KeyDraws where
  salt : Fill defaultSaltBytes
  dek : Fill keyBytes
  nonce : Except LadonError Nonce

/-- A key that is about to be wrapped. -/
structure Wrapping where
  prefixBeforeDek : Bytes
  kek : Bytes
  nonce : Nonce
  dek : { b : Bytes // b.length = keyBytes }
  prefix_le : prefixBeforeDek.length ≤ fixedPrefixBytes + maxHeaderBytes

def Wrapping.aad (w : Wrapping) : Bytes := associatedData dekDomain w.prefixBeforeDek

/-- The beginning of a file, up to its header. -/
def fileStart (encodedHeader : Bytes) : Bytes :=
  magic ++ Cbor.be 2 version ++ Cbor.be 4 encodedHeader.length ++ encodedHeader

lemma length_fileStart (encodedHeader : Bytes) :
    (fileStart encodedHeader).length = fixedPrefixBytes + encodedHeader.length := by
  have hmagic : magic.length = 8 := by decide +kernel
  simp only [fileStart, List.length_append, Cbor.length_be, hmagic, fixedPrefixBytes]

/-- The header of new keys. -/
def defaultHeader (salt : Bytes) : KdfHeader :=
  ⟨defaultMemoryKib, defaultPasses, defaultParallelism, salt⟩

/-- A new key of the payload and the key that wraps it. -/
def prepareKey (kdf : Kdf) (passphrase : Bytes) (draws : KeyDraws) : Except LadonError Wrapping := do
  let salt ← draws.salt
  let header := defaultHeader salt.1
  if h : maxHeaderBytes < header.encoded.length then .error .invalidVaultFile
  else
    let dek ← draws.dek
    let kek ← deriveKek kdf passphrase header
    let nonce ← draws.nonce
    return ⟨fileStart header.encoded, kek, nonce, dek, by rw [length_fileStart]; omega⟩

def newKeyMaterial (aead : Aead) (kdf : Kdf) (passphrase : Bytes) (draws : KeyDraws) :
    Except LadonError KeyMaterial := do
  let w ← prepareKey kdf passphrase draws
  match h : aead.encrypt w.kek w.nonce.bytes w.dek.1 w.aad with
  | .error e => .error e
  | .ok wrappedDek =>
    return ⟨w.prefixBeforeDek ++ w.nonce.bytes ++ wrappedDek, w.dek.1, by
      have hlen := aead.length_encrypt h
      have hprefix := w.prefix_le
      have hnonce := w.nonce.length_eq
      have hdek := w.dek.2
      simp only [List.length_append, wrapperBytes, wrappedDekBytes] at *
      omega⟩

/-! ### Files -/

/-- The bytes from one offset up to another. -/
def slice (input : Bytes) (start stop : ℕ) : Bytes := (input.drop start).take (stop - start)

/-- A number of a fixed width at an offset. -/
def readUint (width : ℕ) (input : Bytes) (offset : ℕ) : Except LadonError ℕ :=
  if offset + width ≤ input.length then .ok (Cbor.ofBe (slice input offset (offset + width)))
  else .error .invalidVaultFile

def readU16 : Bytes → ℕ → Except LadonError ℕ := readUint 2
def readU32 : Bytes → ℕ → Except LadonError ℕ := readUint 4
def readU64 : Bytes → ℕ → Except LadonError ℕ := readUint 8

structure ParsedFile where
  header : KdfHeader
  prefixBeforeDek : Bytes
  dekNonce : Bytes
  wrappedDek : Bytes
  prefixThroughDekTag : Bytes
  prefixThroughPayloadLen : Bytes
  payloadNonce : Bytes
  encryptedPayload : Bytes
  prefix_le : prefixThroughDekTag.length ≤ fixedPrefixBytes + maxHeaderBytes + wrapperBytes

def parseFile (file : Bytes) : Except LadonError ParsedFile := do
  require (fixedPrefixBytes + wrapperBytes + payloadFixedBytes ≤ file.length) .invalidVaultFile
  require (file.take magic.length = magic) .invalidVaultFile
  let fileVersion ← readU16 file 8
  require (fileVersion = version) .unsupportedVaultVersion
  let headerLen ← readU32 file 10
  if h : maxHeaderBytes < headerLen then .error .invalidVaultFile
  else
    let headerEnd := fixedPrefixBytes + headerLen
    let prefixEnd := headerEnd + wrapperBytes
    let payloadLenEnd := prefixEnd + 8
    require (payloadLenEnd ≤ file.length) .invalidVaultFile
    let header ← decodeHeader (slice file fixedPrefixBytes headerEnd)
    let payloadLen ← readU64 file prefixEnd
    require (payloadLen ≤ maxVaultPayloadBytes) .invalidVaultFile
    require (payloadLenEnd + nonceBytes + payloadLen + tagBytes = file.length) .invalidVaultFile
    return {
      header := header
      prefixBeforeDek := file.take headerEnd
      dekNonce := slice file headerEnd (headerEnd + nonceBytes)
      wrappedDek := slice file (headerEnd + nonceBytes) prefixEnd
      prefixThroughDekTag := file.take prefixEnd
      prefixThroughPayloadLen := file.take payloadLenEnd
      payloadNonce := slice file payloadLenEnd (payloadLenEnd + nonceBytes)
      encryptedPayload := file.drop (payloadLenEnd + nonceBytes)
      prefix_le := by
        simp only [List.length_take, prefixEnd, headerEnd]
        omega }

/-! ### Vaults -/

section Vaults

variable [UnicodeNormalization]

/-- Decryption: key, nonce, ciphertext, associated data. -/
abbrev Decrypt := Bytes → Bytes → Bytes → Bytes → Except LadonError Bytes

/-- Whatever went wrong, the file is not authentic. -/
def asUnauthentic {α : Type} : Except LadonError α → Except LadonError α
  | .ok a => .ok a
  | .error _ => .error .vaultAuthenticationFailed

def unlockVault (decrypt : Decrypt) (kdf : Kdf) (file passphrase : Bytes) :
    Except LadonError UnlockedVault := do
  let parsed ← parseFile file
  let kek ← deriveKek kdf passphrase parsed.header
  let dek ← asUnauthentic (decrypt kek parsed.dekNonce parsed.wrappedDek
    (associatedData dekDomain parsed.prefixBeforeDek))
  require (dek.length = keyBytes) .vaultAuthenticationFailed
  let plaintext ← asUnauthentic (decrypt dek parsed.payloadNonce parsed.encryptedPayload
    (associatedData payloadDomain parsed.prefixThroughPayloadLen))
  let payload ← asUnauthentic (decodePayload plaintext)
  return ⟨payload, ⟨parsed.prefixThroughDekTag, dek, parsed.prefix_le⟩⟩

def createVault (aead : Aead) (kdf : Kdf) (payload : VaultPayload) (passphrase : Bytes)
    (draws : KeyDraws) (nonce : Except LadonError Nonce) :
    Except LadonError (UnlockedVault × Bytes) := do
  let keyMaterial ← newKeyMaterial aead kdf passphrase draws
  let encrypted ← sealPayload aead payload keyMaterial nonce
  return (⟨payload, keyMaterial⟩, encrypted)

def verifyCurrentPassphrase (decrypt : Decrypt) (kdf : Kdf) (keys : KeyMaterial)
    (passphrase : Bytes) : Except LadonError Unit := do
  let keyPrefix := keys.prefixThroughDekTag
  let headerLen ← readU32 keyPrefix 10
  let headerEnd := fixedPrefixBytes + headerLen
  require (keyPrefix.length = headerEnd + wrapperBytes) .invalidVaultFile
  let header ← decodeHeader (slice keyPrefix fixedPrefixBytes headerEnd)
  let nonce := slice keyPrefix headerEnd (headerEnd + nonceBytes)
  let wrapped := keyPrefix.drop (headerEnd + nonceBytes)
  let kek ← deriveKek kdf passphrase header
  let candidate ← asUnauthentic (decrypt kek nonce wrapped
    (associatedData dekDomain (keyPrefix.take headerEnd)))
  require (candidate.length = keyBytes) .vaultAuthenticationFailed

namespace UnlockedVault

def sealVault (aead : Aead) (vault : UnlockedVault) (nonce : Except LadonError Nonce) :
    Except LadonError Bytes :=
  sealPayload aead vault.payload vault.keyMaterial nonce

/-- A new passphrase for the vault; it keeps its keys where this fails. -/
def rotatePassphrase (aead : Aead) (decrypt : Decrypt) (kdf : Kdf) (vault : UnlockedVault)
    (currentPassphrase newPassphrase : Bytes) (draws : KeyDraws)
    (nonce : Except LadonError Nonce) : Except LadonError Bytes × UnlockedVault :=
  let rotated : Except LadonError (KeyMaterial × Bytes) := do
    verifyCurrentPassphrase decrypt kdf vault.keyMaterial currentPassphrase
    let newMaterial ← newKeyMaterial aead kdf newPassphrase draws
    let encrypted ← sealPayload aead vault.payload newMaterial nonce
    return (newMaterial, encrypted)
  match rotated with
  | .ok (newMaterial, encrypted) => (.ok encrypted, { vault with keyMaterial := newMaterial })
  | .error e => (.error e, vault)

end UnlockedVault

end Vaults

end Ladon.Crypto

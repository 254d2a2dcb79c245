import Ladon.Lib.Cbor
import Ladon.Lib.SortedMap
import Ladon.Model

/-!
The payload of a vault and its encoding.

A payload is a CBOR map with the keys 0 to 3 for what this version knows, and keys above 3 for
what a later version may have added; these are kept as they are. Decoding accepts the one
encoding of a payload that encoding produces.
-/

namespace Ladon.Codec

open Ladon.Error Ladon.Model Ladon.Lib Ladon.Lib.Utf8 Ladon.Lib.Word

def maxVaultPayloadBytes : ℕ := 64 * 1024 * 1024
def maxRecords : ℕ := 10000
def defaultIdleTimeoutSeconds : ℕ := 30 * 60

section Payload

variable [UnicodeNormalization]

structure VaultPayload where
  vaultId : SecretId
  revision : ℕ
  records : List SecretRecord
  idleTimeoutSeconds : ℕ
  unknown : SortedMap ℕ Bytes
  deriving DecidableEq

def VaultPayload.new (vaultId : SecretId) (revision : ℕ) (records : List SecretRecord) :
    Except LadonError VaultPayload :=
  if maxRecords < records.length then .error .invalidVaultPayload
  else if (records.map SecretRecord.id).Nodup ∧ (records.map SecretRecord.name).Nodup then
    .ok ⟨vaultId, revision, records, defaultIdleTimeoutSeconds, .empty⟩
  else .error .invalidVaultPayload

def VaultPayload.incrementRevision (p : VaultPayload) : Except LadonError VaultPayload :=
  match checkedAdd p.revision 1 with
  | some revision => .ok { p with revision := revision }
  | none => .error .revisionOverflow

/-! ### Encoding -/

def encodeId (id : SecretId) : Bytes := Cbor.head 2 id.asBytes.length ++ id.asBytes

def encodeStr (s : String) : Bytes := Cbor.head 3 (ofString s).length ++ ofString s

def encodeUint (n : ℕ) : Bytes := Cbor.head 0 n

def encodeHint : TextHint → ℕ
  | .binary => 0
  | .text => 1

def encodeField (f : SecretField) : Bytes :=
  Cbor.head 5 3 ++ (encodeUint 0 ++ (encodeStr f.name.text ++ (encodeUint 1 ++
    ((Cbor.head 2 f.value.length ++ f.value) ++ (encodeUint 2 ++ encodeUint (encodeHint f.textHint))))))

def encodeRecord (r : SecretRecord) : Bytes :=
  Cbor.head 5 3 ++ (encodeUint 0 ++ (encodeId r.id ++ (encodeUint 1 ++ (encodeStr r.name.text ++
    (encodeUint 2 ++ (Cbor.head 4 r.fields.length ++ r.fields.flatMap encodeField))))))

/-- The encoding before its length is checked. -/
def VaultPayload.encoded (p : VaultPayload) : Bytes :=
  Cbor.head 5 (4 + p.unknown.entries.length) ++ (encodeUint 0 ++ (encodeId p.vaultId ++
    (encodeUint 1 ++ (encodeUint p.revision ++ (encodeUint 2 ++ (Cbor.head 4 p.records.length ++
      (p.records.flatMap encodeRecord ++ (encodeUint 3 ++ (Cbor.head 5 1 ++ (encodeUint 0 ++
        (encodeUint p.idleTimeoutSeconds ++
          p.unknown.entries.flatMap fun e => encodeUint e.1 ++ e.2)))))))))))

def encodePayload (p : VaultPayload) : Except LadonError Bytes :=
  if maxVaultPayloadBytes < p.encoded.length then .error .vaultPayloadTooLarge else .ok p.encoded

/-! ### Canonical values -/

/-- Shorter keys come first, keys of one length in the order of their bytes. -/
def canonicalKeyOrder (left right : Bytes) : Ordering :=
  (compare left.length right.length).then (compare left right)

/-- The items of an array, one after another. -/
def canonicalizeItems (item : Bytes → Option (Bytes × Bytes)) : ℕ → Bytes → Option (Bytes × Bytes)
  | 0, w => some ([], w)
  | n + 1, w => do
    let (first, w) ← item w
    let (rest, w) ← canonicalizeItems item n w
    return (first ++ rest, w)

/-- The entries of a map, with the key before them. -/
def canonicalizeEntries (item : Bytes → Option (Bytes × Bytes)) :
    Option Bytes → ℕ → Bytes → Option (Bytes × Bytes)
  | _, 0, w => some ([], w)
  | previousKey, n + 1, w => do
    let (key, w) ← item w
    if previousKey.any (fun previous => canonicalKeyOrder previous key != .lt) then none
    let (value, w) ← item w
    let (rest, w) ← canonicalizeEntries item (some key) n w
    return (key ++ value ++ rest, w)

/-- One item written again in the shortest way, `depth` levels deep at most; and what is left of
the input. -/
def canonicalizeItem : ℕ → Bytes → Option (Bytes × Bytes)
  | 0, _ => none
  | depth + 1, w =>
    match Cbor.datatype w with
    | some .unsigned => (Cbor.u64 w).map fun r => (Cbor.head 0 r.1, r.2)
    | some .negative => (Cbor.plain 1 w).map fun r => (Cbor.head 1 r.1, r.2)
    | some .bytes => (Cbor.bytes w).map fun r => (Cbor.head 2 r.1.length ++ r.1, r.2)
    | some .string => (Cbor.str w).map fun r => (encodeStr r.1, r.2)
    | some .simple => (Cbor.plain 7 w).map fun r =>
      (if r.1 < 0x14 then [Cbor.initial 7 r.1] else [Cbor.initial 7 24, UInt8.ofNat r.1], r.2)
    | some .bool | some .null | some .undefined =>
      (Cbor.plain 7 w).map fun r => ([Cbor.initial 7 r.1], r.2)
    | some .tag => do
      let (tag, w) ← Cbor.plain 6 w
      let (item, w) ← canonicalizeItem depth w
      return (Cbor.head 6 tag ++ item, w)
    | some .array => do
      let (length, w) ← Cbor.array w
      let length ← length
      if w.length < length then none
      let (items, w) ← canonicalizeItems (canonicalizeItem depth) length w
      return (Cbor.head 4 length ++ items, w)
    | some .map => do
      let (length, w) ← Cbor.map w
      let length ← length
      if w.length / 2 < length then none
      let (entries, w) ← canonicalizeEntries (canonicalizeItem depth) none length w
      return (Cbor.head 5 length ++ entries, w)
    | some .other | none => none

def isCanonicalUnknownValue (w : Bytes) : Bool := canonicalizeItem 16 w = some (w, [])

/-! ### Decoding -/

/-- A reader of the payload: what it reads, and what is left. -/
abbrev Reader (α : Type) := Bytes → Except LadonError (α × Bytes)

def orInvalid {α : Type} : Option α → Except LadonError α
  | some a => .ok a
  | none => .error .invalidVaultPayload

/-- The length of an array or a map that must be definite and within a limit. -/
def definiteLen (r : Option (Option ℕ × Bytes)) (maximum : ℕ) : Except LadonError (ℕ × Bytes) :=
  match r with
  | some (some length, w) =>
    if maximum < length then .error .invalidVaultPayload else .ok (length, w)
  | _ => .error .invalidVaultPayload

/-- The key that must come next. -/
def expectKey (key : ℕ) (w : Bytes) : Except LadonError Bytes :=
  match Cbor.u8 w with
  | some (k, w) => if k = key then .ok w else .error .invalidVaultPayload
  | none => .error .invalidVaultPayload

/-- A map of as many entries as it must have. -/
def expectMap (entries : ℕ) (w : Bytes) : Except LadonError Bytes := do
  let (n, w) ← definiteLen (Cbor.map w) entries
  if n = entries then .ok w else .error .invalidVaultPayload

def decodeId : Reader SecretId := fun w => do
  let (b, w) ← orInvalid (Cbor.bytes w)
  let uuid ← orInvalid (Uuid.ofBytes b)
  return (⟨uuid⟩, w)

def decodeHint : ℕ → Except LadonError TextHint
  | 0 => .ok .binary
  | 1 => .ok .text
  | _ => .error .invalidVaultPayload

/-- An error of a constructor, reported as an invalid payload. -/
def asInvalid {α : Type} : Except LadonError α → Except LadonError α
  | .ok a => .ok a
  | .error _ => .error .invalidVaultPayload

def decodeField : Reader SecretField := fun w => do
  let w ← expectMap 3 w
  let w ← expectKey 0 w
  let (name, w) ← orInvalid (Cbor.str w)
  let name ← asInvalid (FieldName.parse name)
  let w ← expectKey 1 w
  let (value, w) ← orInvalid (Cbor.bytes w)
  let w ← expectKey 2 w
  let (hint, w) ← orInvalid (Cbor.u8 w)
  let textHint ← decodeHint hint
  let field ← asInvalid (SecretField.new name value textHint)
  return (field, w)

/-- A number of things one after another. -/
def decodeMany {α : Type} (read : Reader α) : ℕ → Reader (List α)
  | 0, w => .ok ([], w)
  | n + 1, w => do
    let (a, w) ← read w
    let (rest, w) ← decodeMany read n w
    return (a :: rest, w)

def decodeRecord : Reader SecretRecord := fun w => do
  let w ← expectMap 3 w
  let w ← expectKey 0 w
  let (id, w) ← decodeId w
  let w ← expectKey 1 w
  let (name, w) ← orInvalid (Cbor.str w)
  let w ← expectKey 2 w
  let (fieldCount, w) ← definiteLen (Cbor.array w) maxFieldsPerRecord
  if fieldCount = 0 then .error .invalidVaultPayload
  let (fields, w) ← decodeMany decodeField fieldCount w
  let record ← asInvalid (SecretRecord.fromParts id name fields)
  return (record, w)

def decodeRecords : Reader (List SecretRecord) := fun w => do
  let (count, w) ← definiteLen (Cbor.array w) maxRecords
  decodeMany decodeRecord count w

def decodeSettings : Reader ℕ := fun w => do
  let w ← expectMap 1 w
  let w ← expectKey 0 w
  orInvalid (Cbor.u32 w)

/-- What the entries read so far have given. -/
structure Partial where
  vaultId : Option SecretId := none
  revision : Option ℕ := none
  records : Option (List SecretRecord) := none
  idleTimeoutSeconds : Option ℕ := none
  unknown : SortedMap ℕ Bytes := .empty
  previousKey : Option ℕ := none

/-- One entry of the payload, behind its key. -/
def decodeEntry (p : Partial) (key : ℕ) : Reader Partial := fun w =>
  if key = 0 ∧ p.vaultId.isNone then do
    let (id, w) ← decodeId w
    return ({ p with vaultId := some id }, w)
  else if key = 1 ∧ p.revision.isNone then do
    let (revision, w) ← orInvalid (Cbor.u64 w)
    return ({ p with revision := some revision }, w)
  else if key = 2 ∧ p.records.isNone then do
    let (records, w) ← decodeRecords w
    return ({ p with records := some records }, w)
  else if key = 3 ∧ p.idleTimeoutSeconds.isNone then do
    let (idleTimeoutSeconds, w) ← decodeSettings w
    return ({ p with idleTimeoutSeconds := some idleTimeoutSeconds }, w)
  else if key ≤ 3 then .error .invalidVaultPayload
  else do
    let rest ← orInvalid (Cbor.skip w)
    let rawValue := w.take (w.length - rest.length)
    if ¬ isCanonicalUnknownValue rawValue then .error .invalidVaultPayload
    return ({ p with unknown := p.unknown.insert key rawValue }, rest)

def decodeEntries : ℕ → Partial → Reader Partial
  | 0, p, w => .ok (p, w)
  | n + 1, p, w => do
    let (key, w) ← orInvalid (Cbor.u64 w)
    if p.previousKey.any (key ≤ ·) then .error .invalidVaultPayload
    let (p, w) ← decodeEntry { p with previousKey := some key } key w
    decodeEntries n p w

/-- The payload that the entries make, if its encoding is the input. -/
def assemble (input : Bytes) (p : Partial) : Except LadonError VaultPayload := do
  let vaultId ← orInvalid p.vaultId
  let revision ← orInvalid p.revision
  let records ← orInvalid p.records
  let payload ← VaultPayload.new vaultId revision records
  let idleTimeoutSeconds ← orInvalid p.idleTimeoutSeconds
  let payload := { payload with idleTimeoutSeconds := idleTimeoutSeconds, unknown := p.unknown }
  let encoded ← encodePayload payload
  if encoded ≠ input then .error .invalidVaultPayload else .ok payload

def decodePayload (input : Bytes) : Except LadonError VaultPayload :=
  if maxVaultPayloadBytes < input.length then .error .vaultPayloadTooLarge
  else do
    let (entries, w) ← definiteLen (Cbor.map input) (4 + maxRecords)
    let (p, rest) ← decodeEntries entries {} w
    if rest ≠ [] then .error .invalidVaultPayload else assemble input p

end Payload

end Ladon.Codec

import Ladon.Crypto

/-!
A session on an unlocked vault: finding records, and the edits that each move the revision on.

An edit returns its result with the session after it, which is the session before it where the
edit fails.
-/

namespace Ladon.Vault

open Ladon.Error Ladon.Model Ladon.Codec Ladon.Crypto Ladon.Lib Ladon.Lib.Utf8 Ladon.Lib.Word

section Session

variable [UnicodeNormalization]

/-- A session, with the number of times secret activity was reported. -/
structure VaultSession where
  vault : UnlockedVault
  activity : ℕ

structure PreparedRecordReplacement where
  expectedRevision : ℕ
  targetId : SecretId
  replacement : SecretRecord

structure SecretMetadata where
  id : SecretId
  name : String
  fieldNames : List String
  deriving DecidableEq

/-- The record a reference names. -/
def refersTo (reference : SecretRef) (record : SecretRecord) : Bool :=
  match reference with
  | .name name => record.name = name
  | .id id => record.id = id

def findRecordIndex (records : List SecretRecord) (reference : SecretRef) :
    Except LadonError (Fin records.length) :=
  match records.findFinIdx? (refersTo reference) with
  | some target => .ok target
  | none => .error .secretNotFound

/-- A record other than the target has the name. -/
def nameTaken (records : List SecretRecord) (target : ℕ) (name : SecretName) : Bool :=
  records.zipIdx.any fun (record, index) => index ≠ target ∧ record.name = name

namespace VaultSession

def payload (s : VaultSession) : VaultPayload := s.vault.payload

def records (s : VaultSession) : List SecretRecord := s.payload.records

/-- The session with an edited payload, reported as activity. -/
def edited (s : VaultSession) (payload : VaultPayload) : VaultSession :=
  { s with vault := { s.vault with payload := payload }, activity := s.activity + 1 }

/-- Records changed under the next revision. -/
def editRecords (s : VaultSession) (records : List SecretRecord) :
    Except LadonError Unit × VaultSession :=
  match s.payload.incrementRevision with
  | .error e => (.error e, s)
  | .ok payload => (.ok (), s.edited { payload with records := records })

def withRecord {R : Type} (s : VaultSession) (reference : SecretRef) (operation : SecretRecord → R) :
    Except LadonError R × VaultSession :=
  match findRecordIndex s.records reference with
  | .error e => (.error e, s)
  | .ok target => (.ok (operation (s.records.get target)), { s with activity := s.activity + 1 })

def withField {R : Type} (s : VaultSession) (reference : SecretRef) (fieldName : FieldName)
    (operation : Bytes → R) : Except LadonError R × VaultSession :=
  match findRecordIndex s.records reference with
  | .error e => (.error e, s)
  | .ok target =>
    match (s.records.get target).fields.find? (fun f => f.name = fieldName) with
    | none => (.error .fieldNotFound, s)
    | some field => (.ok (operation field.value), { s with activity := s.activity + 1 })

def list (s : VaultSession) : List SecretMetadata :=
  s.records.map fun r => ⟨r.id, r.name.text, r.fields.map fun f => f.name.text⟩

/-- A new record, under an identifier that is drawn at random. -/
def add (s : VaultSession) (id : SecretId) (name : String) (fields : List SecretField) :
    Except LadonError SecretId × VaultSession :=
  match SecretRecord.fromParts id name fields with
  | .error e => (.error e, s)
  | .ok record =>
    if s.records.any (fun existing => existing.name = record.name) then
      (.error .duplicateSecretName, s)
    else ((s.editRecords (s.records ++ [record])).1.map fun _ => id,
      (s.editRecords (s.records ++ [record])).2)

def rename (s : VaultSession) (reference : SecretRef) (newName : String) :
    Except LadonError Unit × VaultSession :=
  match SecretRef.parse newName with
  | .error e => (.error e, s)
  | .ok (.id _) => (.error .invalidSecretRef, s)
  | .ok (.name normalized) =>
    match findRecordIndex s.records reference with
    | .error e => (.error e, s)
    | .ok target =>
      if nameTaken s.records target normalized then (.error .duplicateSecretName, s)
      else s.editRecords (s.records.modify target (·.setName normalized))

def replaceFields (s : VaultSession) (reference : SecretRef) (fields : List SecretField) :
    Except LadonError Unit × VaultSession :=
  match findRecordIndex s.records reference with
  | .error e => (.error e, s)
  | .ok target =>
    let current := s.records.get target
    match SecretRecord.fromParts current.id current.name.text fields with
    | .error e => (.error e, s)
    | .ok replacement => s.editRecords (s.records.set target replacement)

def prepareRecordReplacement (s : VaultSession) (reference : SecretRef) (newName : String)
    (fields : List SecretField) : Except LadonError PreparedRecordReplacement := do
  let target ← findRecordIndex s.records reference
  let current := s.records.get target
  let replacement ← SecretRecord.fromParts current.id newName fields
  if nameTaken s.records target replacement.name then .error .duplicateSecretName
  else return ⟨s.payload.revision, current.id, replacement⟩

def applyRecordReplacement (s : VaultSession) (prepared : PreparedRecordReplacement) :
    Except LadonError Unit × VaultSession :=
  if s.payload.revision ≠ prepared.expectedRevision then (.error .invalidRequest, s)
  else match findRecordIndex s.records (.id prepared.targetId) with
    | .error e => (.error e, s)
    | .ok target => s.editRecords (s.records.set target prepared.replacement)

def delete (s : VaultSession) (reference : SecretRef) : Except LadonError Unit × VaultSession :=
  match findRecordIndex s.records reference with
  | .error e => (.error e, s)
  | .ok target => s.editRecords (s.records.eraseIdx target)

end VaultSession

/-! ### What an operation leaves -/

lemma vault_withRecord {R : Type} (s : VaultSession) (reference : SecretRef)
    (operation : SecretRecord → R) : (s.withRecord reference operation).2.vault = s.vault := by
  unfold VaultSession.withRecord
  split <;> rfl

lemma vault_withField {R : Type} (s : VaultSession) (reference : SecretRef) (fieldName : FieldName)
    (operation : Bytes → R) : (s.withField reference fieldName operation).2.vault = s.vault := by
  unfold VaultSession.withField
  split
  · rfl
  · split <;> rfl

/-- A result that is an error leaves the session. -/
def Atomic {α : Type} (s : VaultSession) (r : Except LadonError α × VaultSession) : Prop :=
  ∀ err, r.1 = .error err → r.2 = s

lemma atomic_editRecords (s : VaultSession) (records : List SecretRecord) :
    Atomic s (s.editRecords records) := by
  intro err h
  unfold VaultSession.editRecords at h ⊢
  split at h
  · rfl
  · cases h

lemma atomic_add (s : VaultSession) (id : SecretId) (name : String) (fields : List SecretField) :
    Atomic s (s.add id name fields) := by
  intro err h
  unfold VaultSession.add at h ⊢
  split at h
  · rfl
  next record hrecord =>
  split_ifs at h ⊢ with htaken
  · rfl
  · have hedit := atomic_editRecords s (s.records ++ [record])
    cases hr : (s.editRecords (s.records ++ [record])).1 with
    | error e => exact hedit e hr
    | ok u => rw [hr] at h; cases h

lemma atomic_rename (s : VaultSession) (reference : SecretRef) (newName : String) :
    Atomic s (s.rename reference newName) := by
  intro err h
  unfold VaultSession.rename at h ⊢
  split at h
  · rfl
  · rfl
  split at h
  · rfl
  split_ifs at h ⊢ with htaken
  · rfl
  · exact atomic_editRecords s _ err h

lemma atomic_replaceFields (s : VaultSession) (reference : SecretRef) (fields : List SecretField) :
    Atomic s (s.replaceFields reference fields) := by
  intro err h
  unfold VaultSession.replaceFields at h ⊢
  split at h
  · rfl
  dsimp only at h ⊢
  split at h
  · rfl
  · exact atomic_editRecords s _ err h

lemma atomic_applyRecordReplacement (s : VaultSession) (p : PreparedRecordReplacement) :
    Atomic s (s.applyRecordReplacement p) := by
  intro err h
  unfold VaultSession.applyRecordReplacement at h ⊢
  split_ifs at h ⊢ with hrev
  · rfl
  split at h
  · rfl
  · exact atomic_editRecords s _ err h

lemma atomic_delete (s : VaultSession) (reference : SecretRef) : Atomic s (s.delete reference) := by
  intro err h
  unfold VaultSession.delete at h ⊢
  split at h
  · rfl
  · exact atomic_editRecords s _ err h

lemma atomic_withRecord {R : Type} (s : VaultSession) (reference : SecretRef)
    (operation : SecretRecord → R) : Atomic s (s.withRecord reference operation) := by
  intro err h
  unfold VaultSession.withRecord at h ⊢
  split at h
  · rfl
  · cases h

lemma atomic_withField {R : Type} (s : VaultSession) (reference : SecretRef) (fieldName : FieldName)
    (operation : Bytes → R) : Atomic s (s.withField reference fieldName operation) := by
  intro err h
  unfold VaultSession.withField at h ⊢
  split at h
  · rfl
  split at h
  · rfl
  · cases h

end Session

end Ladon.Vault

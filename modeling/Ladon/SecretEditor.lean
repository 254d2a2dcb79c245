import Ladon.Model

/-!
Drafts of secrets: what a human types, and the fields it is turned into.

A draft for a new secret starts with one field and leaves out rows that were never filled in; a
draft for an edit starts from the record and keeps values that are not text as they are.
-/

namespace Ladon.SecretEditor

open Ladon.Error Ladon.Model Ladon.Lib.Utf8

/-! ### Adding -/

structure DraftField where
  name : String
  value : String

structure AddSecretDraft where
  name : String
  fields : List DraftField

inductive AddDraftValidationError
  | missingName (fieldIndex : ℕ)
  | invalidName (fieldIndex : ℕ)
  | duplicateName (fieldIndex : ℕ)
  | valueTooLarge (fieldIndex : ℕ)

def AddDraftValidationError.asLadonError : AddDraftValidationError → LadonError
  | .missingName _ | .invalidName _ => .invalidFieldName
  | .duplicateName _ => .duplicateField
  | .valueTooLarge _ => .fieldTooLarge

def DraftField.isUntouched (f : DraftField) : Bool := f.name = "" && f.value = ""

/-- The rows that count, each with its position: the first, and those that were filled in. -/
def AddSecretDraft.includedFields (draft : AddSecretDraft) : List (DraftField × ℕ) :=
  draft.fields.zipIdx.filter fun (field, index) => index = 0 || !field.isUntouched

/-- The rows one after another, with the names seen so far. -/
def validateRows : List FieldName → List (DraftField × ℕ) → Except AddDraftValidationError Unit
  | _, [] => .ok ()
  | names, (field, index) :: rest =>
    if 0 < index ∧ field.name = "" then .error (.missingName index)
    else match FieldName.parse field.name with
      | .error _ => .error (.invalidName index)
      | .ok name =>
        if maxFieldBytes < (ofString field.value).length then .error (.valueTooLarge index)
        else if name ∈ names then .error (.duplicateName index)
        else validateRows (name :: names) rest

def AddSecretDraft.validateFields (draft : AddSecretDraft) : Except AddDraftValidationError Unit :=
  validateRows [] draft.includedFields

def AddSecretDraft.toFields (draft : AddSecretDraft) : Except LadonError (List SecretField) :=
  match draft.validateFields with
  | .error e => .error e.asLadonError
  | .ok () => draft.includedFields.mapM fun (field, _) => do
    SecretField.new (← FieldName.parse field.name) (ofString field.value) .text

/-! ### Editing -/

inductive EditableValue
  | text (value : Bytes) (utf8 : fromUtf8 value = .ok)
  | binary (bytes : Bytes) (originalHint : TextHint)

structure EditableField where
  name : String
  value : EditableValue

structure EditSecretDraft where
  id : SecretId
  name : String
  fields : List EditableField

def EditableValue.bytes : EditableValue → Bytes
  | .text value _ => value
  | .binary bytes _ => bytes

def EditableValue.hint : EditableValue → TextHint
  | .text _ _ => .text
  | .binary _ originalHint => originalHint

/-- A field of a record as it is edited: as text where it is text and says so. -/
def EditableField.ofField (field : SecretField) : EditableField :=
  ⟨field.name.text,
    if h : field.textHint = .text ∧ fromUtf8 field.value = .ok then .text field.value h.2
    else .binary field.value field.textHint⟩

def EditSecretDraft.fromRecord [UnicodeNormalization] (record : SecretRecord) : EditSecretDraft :=
  ⟨record.id, record.name.text, record.fields.map EditableField.ofField⟩

def validateField (name : String) (valueLen : ℕ) : Except LadonError FieldName := do
  let name ← FieldName.parse name
  if maxFieldBytes < valueLen then .error .fieldTooLarge else return name

def EditSecretDraft.toFields (draft : EditSecretDraft) : Except LadonError (List SecretField) :=
  draft.fields.mapM fun field => do
    let name ← validateField field.name field.value.bytes.length
    SecretField.new name field.value.bytes field.value.hint

/-! ### Edits of a draft -/

def EditableField.setName (field : EditableField) (name : String) : EditableField :=
  { field with name := name }

/-- The text of a value that is text is typed over; other values cannot be. -/
def EditableField.setText (field : EditableField) (text : Bytes) (utf8 : fromUtf8 text = .ok) :
    EditableField :=
  match field.value with
  | .text _ _ => { field with value := .text text utf8 }
  | .binary _ _ => field

def EditSecretDraft.setName (draft : EditSecretDraft) (name : String) : EditSecretDraft :=
  { draft with name := name }

/-- A field is changed in place, through `fields_mut`. -/
def EditSecretDraft.modifyField (draft : EditSecretDraft) (index : ℕ)
    (change : EditableField → EditableField) : EditSecretDraft :=
  { draft with fields := draft.fields.modify index change }

def EditSecretDraft.addTextField (draft : EditSecretDraft) : EditSecretDraft :=
  { draft with fields := draft.fields ++ [⟨"", .text [] fromUtf8_nil⟩] }

def EditSecretDraft.removeField (draft : EditSecretDraft) (index : ℕ) : Bool × EditSecretDraft :=
  if draft.fields.length ≤ 1 ∨ draft.fields.length ≤ index then (false, draft)
  else (true, { draft with fields := draft.fields.eraseIdx index })

end Ladon.SecretEditor

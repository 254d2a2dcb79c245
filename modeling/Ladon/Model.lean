import Ladon.Error
import Ladon.Lib.Text
import Ladon.Lib.Uuid

/-!
Secrets: names, fields and records. Each carries the proof that it passed the checks it is made
with, so that what a vault holds is well formed by its type.

Unicode normalization is a parameter of the development; all that is used of it is that
normalizing twice is normalizing once.
-/

namespace Ladon.Model

open Ladon.Error Ladon.Lib Ladon.Lib.Utf8

def maxFieldBytes : ℕ := 1024 * 1024
def maxFieldsPerRecord : ℕ := 64

/-- Normalization form C. -/
class UnicodeNormalization where
  nfc : String → String
  nfc_nfc : ∀ s, nfc (nfc s) = nfc s

export UnicodeNormalization (nfc nfc_nfc)

/-- Normalization on text whose characters are all ASCII. -/
@[reducible] def asciiNormalization : UnicodeNormalization := ⟨id, fun _ => rfl⟩

structure SecretId where
  uuid : Uuid
  deriving DecidableEq

def SecretId.parse (input : Bytes) : Except LadonError SecretId :=
  match Uuid.parse input with
  | some u => .ok ⟨u⟩
  | none => .error .invalidSecretRef

def SecretId.asBytes (id : SecretId) : Bytes := id.uuid.bytes

def SecretId.display (id : SecretId) : String := Text.ascii id.uuid.display

lemma SecretId.ofString_display (id : SecretId) : ofString id.display = id.uuid.display :=
  Text.ofString_ascii fun _ hb => (Uuid.display_ascii hb).1

@[simp] lemma SecretId.parse_display (id : SecretId) :
    SecretId.parse (ofString id.display) = .ok id := by
  rw [SecretId.ofString_display, SecretId.parse, Uuid.parse_display]

/-! ### Names -/

/-- ASCII control characters and the marks that change the direction of text. -/
def isForbiddenNameCharacter (c : Char) : Bool :=
  let codepoint := c.toNat
  codepoint < 0x20 || codepoint == 0x7F || codepoint == 0x061C || codepoint == 0x200E ||
    codepoint == 0x200F || (0x202A ≤ codepoint && codepoint ≤ 0x202E) ||
    (0x2066 ≤ codepoint && codepoint ≤ 0x2069)

/-- What a name must be, once it is normalized. -/
def validSecretName (s : String) : Prop :=
  s ≠ "" ∧ (ofString s).length ≤ 128 ∧ ¬ "::".toList <:+: s.toList ∧
    ¬ "id:".toList <+: s.toList ∧ ∀ c ∈ s.toList, ¬ isForbiddenNameCharacter c

-- over the characters of the text, not over all characters there are
instance (s : String) : Decidable (validSecretName s) :=
  haveI (p : Char → Prop) [DecidablePred p] : Decidable (∀ c ∈ s.toList, p c) :=
    List.decidableBAll p _
  inferInstanceAs (Decidable (_ ∧ _ ∧ _ ∧ _ ∧ _))

structure SecretName [UnicodeNormalization] where
  text : String
  valid : validSecretName text
  normalized : nfc text = text
  deriving DecidableEq

def isAsciiAlphabetic (b : UInt8) : Bool := (0x41 ≤ b && b ≤ 0x5A) || (0x61 ≤ b && b ≤ 0x7A)

def isAsciiDigit (b : UInt8) : Bool := 0x30 ≤ b && b ≤ 0x39

/-- A letter, then letters, digits, `_` and `-`. -/
def validFieldName (s : String) : Prop :=
  (ofString s).length ≤ 64 ∧ (∃ b ∈ (ofString s).head?, isAsciiAlphabetic b) ∧
    ∀ b ∈ (ofString s).tail, isAsciiAlphabetic b ∨ isAsciiDigit b ∨ b = 0x5F ∨ b = 0x2D

-- and here over its bytes
instance (s : String) : Decidable (validFieldName s) :=
  haveI (p : UInt8 → Prop) [DecidablePred p] : Decidable (∀ b ∈ (ofString s).tail, p b) :=
    List.decidableBAll p _
  inferInstanceAs (Decidable (_ ∧ _ ∧ _))

structure FieldName where
  text : String
  valid : validFieldName text
  deriving DecidableEq

def FieldName.parse (input : String) : Except LadonError FieldName :=
  if h : validFieldName input then .ok ⟨input, h⟩ else .error .invalidFieldName

/-- The name under which a secret of one value keeps it. -/
def FieldName.value : FieldName := ⟨"value", by decide⟩

@[simp] lemma FieldName.parse_text (n : FieldName) : FieldName.parse n.text = .ok n :=
  dif_pos n.valid

/-! ### Fields -/

inductive TextHint
  | binary
  | text
  deriving DecidableEq, Repr

structure SecretField where
  name : FieldName
  value : Bytes
  textHint : TextHint
  value_le : value.length ≤ maxFieldBytes
  deriving DecidableEq

def SecretField.new (name : FieldName) (value : Bytes) (textHint : TextHint) :
    Except LadonError SecretField :=
  if h : maxFieldBytes < value.length then .error .fieldTooLarge
  else .ok ⟨name, value, textHint, Nat.not_lt.mp h⟩

@[simp] lemma SecretField.new_parts (f : SecretField) :
    SecretField.new f.name f.value f.textHint = .ok f :=
  dif_neg (Nat.not_lt.mpr f.value_le)

/-! ### Records -/

section Records

variable [UnicodeNormalization]

def SecretName.parse (input : String) : Except LadonError SecretName :=
  if h : validSecretName (nfc input) then .ok ⟨nfc input, h, nfc_nfc input⟩
  else .error .invalidSecretRef

@[simp] lemma SecretName.parse_text (n : SecretName) : SecretName.parse n.text = .ok n := by
  obtain ⟨text, valid, normalized⟩ := n
  have h : validSecretName (nfc text) := by rwa [normalized]
  rw [SecretName.parse, dif_pos h]
  simp only [normalized]

lemma SecretName.text_injective : Function.Injective SecretName.text := by
  intro a b h
  cases a
  cases b
  simpa using h

inductive SecretRef
  | name (n : SecretName)
  | id (i : SecretId)
  deriving DecidableEq

def SecretRef.parse (input : String) : Except LadonError SecretRef :=
  if ofString "id:" <+: ofString input then
    (SecretId.parse ((ofString input).drop 3)).map .id
  else (SecretName.parse input).map .name

def SecretRef.display : SecretRef → String
  | .name n => n.text
  | .id i => "id:" ++ i.display

/-- A reference is read back as it is written: a name that is kept does not begin as an identifier
does. -/
@[simp] lemma SecretRef.parse_display (x : SecretRef) : SecretRef.parse x.display = .ok x := by
  cases x with
  | name n =>
    have hid : ¬ ofString "id:" <+: ofString n.text := fun h => n.valid.2.2.2.1 (Text.toList_prefix h)
    rw [SecretRef.display, SecretRef.parse, if_neg hid, SecretName.parse_text]
    rfl
  | id i =>
    have htext : ofString ("id:" ++ i.display) = ofString "id:" ++ ofString i.display :=
      Text.ofString_append _ _
    have hdrop : (ofString "id:" ++ ofString i.display).drop 3 = ofString i.display := rfl
    rw [SecretRef.display, SecretRef.parse, htext, if_pos (List.prefix_append _ _), hdrop,
      SecretId.parse_display]
    rfl

structure SecretRecord where
  id : SecretId
  name : SecretName
  fields : List SecretField
  fields_ne_nil : fields ≠ []
  fields_le : fields.length ≤ maxFieldsPerRecord
  fields_nodup : (fields.map SecretField.name).Nodup
  deriving DecidableEq

def SecretRecord.fromParts (id : SecretId) (name : String) (fields : List SecretField) :
    Except LadonError SecretRecord :=
  if h0 : fields = [] then .error .emptyRecord
  else if h1 : maxFieldsPerRecord < fields.length then .error .tooManyFields
  else if h2 : (fields.map SecretField.name).Nodup then do
    let name ← SecretName.parse name
    return ⟨id, name, fields, h0, Nat.not_lt.mp h1, h2⟩
  else .error .duplicateField

@[simp] lemma SecretRecord.fromParts_parts (r : SecretRecord) :
    SecretRecord.fromParts r.id r.name.text r.fields = .ok r := by
  rw [SecretRecord.fromParts, dif_neg r.fields_ne_nil, dif_neg (Nat.not_lt.mpr r.fields_le),
    dif_pos r.fields_nodup, SecretName.parse_text]
  rfl

/-- A record that the parts make has these parts. -/
lemma SecretRecord.fromParts_eq_ok {id : SecretId} {name : String} {fields : List SecretField}
    {r : SecretRecord} (h : SecretRecord.fromParts id name fields = .ok r) :
    r.id = id ∧ r.fields = fields ∧ SecretName.parse name = .ok r.name := by
  unfold SecretRecord.fromParts at h
  split_ifs at h
  cases hn : SecretName.parse name with
  | error e => simp [hn] at h
  | ok n =>
    rw [hn] at h
    cases h
    exact ⟨rfl, rfl, rfl⟩

def SecretRecord.setName (r : SecretRecord) (name : SecretName) : SecretRecord :=
  { r with name := name }

end Records

end Ladon.Model

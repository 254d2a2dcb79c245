import Ladon.Runner
import Ladon.VaultCrud

/-!
How a secret is named at the command line, and that every field of every secret can be.

A binding is the name of an environment variable, `=`, a reference to a secret, and `::` with a
field unless that is `value`. Names of secrets are free text in which both separators may occur:
`=` anywhere, and `:` as long as there are no two in a row. The variable ends at the first `=`, the
field begins after the last `::`.
-/

namespace Ladon.Commands

open Ladon.Error Ladon.Model Ladon.Codec Ladon.Vault Ladon.VaultReopen Ladon.VaultCrud Ladon.Runner
  Ladon.Lib Ladon.Lib.Utf8

def parseReference (reference : String) : Except LadonError (String × String) :=
  match Text.rsplitOnce "::".toList reference.toList with
  | some (secretRef, field) =>
    if secretRef = [] ∨ field = [] then .error .invalidBinding
    else .ok (String.ofList secretRef, String.ofList field)
  | none =>
    if reference = "" then .error .invalidBinding else .ok (reference, "value")

def parseNamedBinding (value : String) (file : Bool) : Except LadonError SecretBindingRequest :=
  match Text.splitOnce '=' value.toList with
  | none => .error .invalidBinding
  | some (name, reference) => do
    let (secretRef, field) ← parseReference (String.ofList reference)
    let target :=
      if file then .temporaryFileEnvironment (String.ofList name) none
      else .environment (String.ofList name)
    return ⟨secretRef, field, target⟩

def parseStdinBinding (value : String) : Except LadonError SecretBindingRequest := do
  let (secretRef, field) ← parseReference value
  return ⟨secretRef, field, .standardInput⟩

/-! ### What is parsed -/

/-- A reference that can stand before `::`: not empty, and without `::` itself. -/
structure Plain (reference : String) : Prop where
  ne_empty : reference ≠ ""
  no_separator : ¬ "::".toList <:+: reference.toList

/-- A name of a field has no colon. -/
lemma colon_not_mem_field (field : FieldName) : ':' ∉ field.text.toList := by
  intro h
  have hbyte : (0x3A : UInt8) ∈ ofString field.text := Text.mem_ofString h (by decide)
  obtain ⟨-, ⟨b, hb, hfirst⟩, hrest⟩ := field.valid
  cases htext : ofString field.text with
  | nil =>
    rw [htext] at hbyte
    cases hbyte
  | cons a t =>
    rw [htext] at hbyte hb hrest
    cases hb
    rcases List.mem_cons.mp hbyte with rfl | hbyte
    · exact absurd hfirst (by decide)
    · exact absurd (hrest _ hbyte) (by decide)

lemma field_ne_nil (field : FieldName) : field.text.toList ≠ [] := by
  intro h
  obtain ⟨-, ⟨b, hb, -⟩, -⟩ := field.valid
  rw [Text.ofString_eq, h] at hb
  cases hb

lemma parseReference_field {reference : String} (h : Plain reference) (field : FieldName) :
    parseReference (reference ++ "::" ++ field.text) = .ok (reference, field.text) := by
  have hsplit : Text.rsplitOnce "::".toList (reference ++ "::" ++ field.text).toList =
      some (reference.toList, field.text.toList) := by
    rw [String.toList_append, String.toList_append, List.append_assoc]
    exact Text.rsplitOnce_append (by decide) (Text.not_infix_pair (colon_not_mem_field field))
  have hne : reference.toList ≠ [] := by simpa using h.ne_empty
  rw [parseReference, hsplit]
  simp only [hne, field_ne_nil field, or_self, if_false, String.ofList_toList]

lemma parseReference_value {reference : String} (h : Plain reference) :
    parseReference reference = .ok (reference, "value") := by
  rw [parseReference, Text.rsplitOnce_eq_none h.no_separator]
  exact if_neg h.ne_empty

/-- The variable of a named binding. -/
def variableTarget (name : String) (file : Bool) : BindingTarget :=
  if file then .temporaryFileEnvironment name none else .environment name

lemma parseNamedBinding_eq {name value : String} (hname : '=' ∉ name.toList) {secretRef field : String}
    (h : parseReference value = .ok (secretRef, field)) (file : Bool) :
    parseNamedBinding (name ++ "=" ++ value) file =
      .ok ⟨secretRef, field, variableTarget name file⟩ := by
  have hsplit : Text.splitOnce '=' (name ++ "=" ++ value).toList =
      some (name.toList, value.toList) := by
    rw [String.toList_append, String.toList_append, List.append_assoc]
    exact Text.splitOnce_append hname
  rw [parseNamedBinding, hsplit]
  simp only [String.ofList_toList, h]
  rfl

lemma parseStdinBinding_eq {value secretRef field : String}
    (h : parseReference value = .ok (secretRef, field)) :
    parseStdinBinding value = .ok ⟨secretRef, field, .standardInput⟩ := by
  rw [parseStdinBinding, h]
  rfl

/-! ### What can be addressed -/

lemma plain_id (i : SecretId) : Plain ("id:" ++ i.display) := by
  have hbytes := SecretId.ofString_display i
  have hcolon : ':' ∉ i.display.toList := by
    intro h
    have hbyte : (0x3A : UInt8) ∈ ofString i.display := Text.mem_ofString h (by decide)
    rw [hbytes] at hbyte
    exact (Uuid.display_ascii hbyte).2 rfl
  constructor
  · intro h
    have := congrArg String.toList h
    simp at this
  · intro h
    have hcount := h.sublist.count_le ':'
    rw [String.toList_append, List.count_append, List.count_eq_zero_of_not_mem hcolon] at hcount
    exact absurd hcount (by decide)

section Addresses

variable [UnicodeNormalization]

lemma plain_name (n : SecretName) : Plain n.text := ⟨n.valid.1, n.valid.2.2.1⟩

/-- The reference leads to the record and to no other, and can be written with the field wherever a
binding is expected. -/
structure Addresses (records : List SecretRecord) (r : SecretRecord) (field : FieldName)
    (reference : String) : Prop where
  found : ∃ x target, SecretRef.parse reference = .ok x ∧ findRecordIndex records x = .ok target ∧
    records.get target = r ∧ ∀ r' ∈ records, Vault.refersTo x r' → r' = r
  named : ∀ name file, '=' ∉ name.toList →
    parseNamedBinding (name ++ "=" ++ (reference ++ "::" ++ field.text)) file =
      .ok ⟨reference, field.text, variableTarget name file⟩
  stdin : parseStdinBinding (reference ++ "::" ++ field.text) =
    .ok ⟨reference, field.text, .standardInput⟩
  namedValue : field = .value → ∀ name file, '=' ∉ name.toList →
    parseNamedBinding (name ++ "=" ++ reference) file =
      .ok ⟨reference, field.text, variableTarget name file⟩
  stdinValue : field = .value → parseStdinBinding reference =
    .ok ⟨reference, field.text, .standardInput⟩

lemma addresses_of_parse {records : List SecretRecord} (hd : Distinct records) {r : SecretRecord}
    (hr : r ∈ records) {reference : String} (hplain : Plain reference) {x : SecretRef}
    (hparse : SecretRef.parse reference = .ok x) (hx : Vault.refersTo x r) (field : FieldName) :
    Addresses records r field reference where
  found := by
    obtain ⟨target, htarget, hget⟩ := findRecordIndex_mem hd hr hx
    exact ⟨x, target, hparse, htarget, hget, fun r' hr' hx' => refersTo_unique hd hr' hr hx' hx⟩
  named := fun _ file hname => parseNamedBinding_eq hname (parseReference_field hplain field) file
  stdin := parseStdinBinding_eq (parseReference_field hplain field)
  namedValue := by
    rintro rfl name file hname
    exact parseNamedBinding_eq hname (parseReference_value hplain) file
  stdinValue := by
    rintro rfl
    exact parseStdinBinding_eq (parseReference_value hplain)

/-- **Every field of every secret can be addressed, and only by its own reference**: in every
session reached by calls from a payload that was made or decoded, the name of a record and its
identifier each lead to that record alone, and a binding written with them is taken apart into just
what it was written from. A reference that is written is read back. -/
theorem addressable (start : VaultSession) (hstart : Accepted start.payload) (calls : List Call)
    (e : Editing) (hrun : Run CallStep ⟨start, []⟩ calls e) :
    (∀ r ∈ e.session.records, ∀ f ∈ r.fields,
      Addresses e.session.records r f.name r.name.text ∧
      Addresses e.session.records r f.name ("id:" ++ r.id.display)) ∧
    ∀ x : SecretRef, SecretRef.parse x.display = .ok x := by
  have hd := distinct_of_calls hstart hrun
  refine ⟨fun r hr f _ => ⟨?_, ?_⟩, SecretRef.parse_display⟩
  · exact addresses_of_parse hd hr (plain_name r.name) (SecretRef.parse_display (.name r.name))
      (decide_eq_true rfl) f.name
  · exact addresses_of_parse hd hr (plain_id r.id) (SecretRef.parse_display (.id r.id))
      (decide_eq_true rfl) f.name

end Addresses

/-! ### A name with both separators -/

section Odd

local instance oddText : UnicodeNormalization := asciiNormalization

lemma validSecretName_odd : validSecretName "a:=b:" := by decide

def oddName : SecretName := ⟨"a:=b:", validSecretName_odd, rfl⟩

def oddRecord : SecretRecord := { wideRecord 3 with name := oddName }

def oddPayload : VaultPayload := { widePayload 0 0 with records := [oddRecord] }

lemma accepted_odd : Accepted oddPayload := by
  refine .inl ⟨wideId 0, 0, [oddRecord], Nat.zero_le _, ?_⟩
  rfl

theorem addressable_odd :
    parseNamedBinding "PASS=a:=b:::value" false = .ok ⟨"a:=b:", "value", .environment "PASS"⟩ ∧
    parseStdinBinding "a:=b:" = .ok ⟨"a:=b:", "value", .standardInput⟩ ∧
    SecretRef.parse "a:=b:" = .ok (.name oddName) := by
  have h := addressable (sessionOn oddPayload) accepted_odd [] _ (.nil _)
  obtain ⟨hname, -⟩ := h.1 oddRecord (List.mem_singleton.mpr rfl) valueField
    (List.mem_singleton.mpr rfl)
  exact ⟨hname.named "PASS" false (by decide), hname.stdinValue rfl, h.2 (.name oddName)⟩

end Odd

end Ladon.Commands

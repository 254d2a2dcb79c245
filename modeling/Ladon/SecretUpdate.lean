import Ladon.ControllerLaw
import Ladon.VaultReopen

/-!
Editing a secret keeps what is not edited.

A draft holds a value as text where it is text and says so, and as bytes otherwise; either way it
gives back the bytes and the hint it was made from. Every field of a draft is followed through the
edits to the field of the record that it was, if it was one.
-/

namespace Ladon.SecretUpdate

open Ladon.Error Ladon.Model Ladon.Codec Ladon.Vault Ladon.VaultReopen Ladon.SecretEditor
open Ladon.Controller Ladon.Lib Ladon.Lib.Utf8

/-! ### There and back -/

/-- The draft of a field: its name, its bytes and its hint. -/
structure DraftOf (field : EditableField) (name : String) (value : Bytes) (hint : TextHint) : Prop
    where
  name : field.name = name
  value : field.value.bytes = value
  hint : field.value.hint = hint

lemma draftOf_ofField (f : SecretField) :
    DraftOf (EditableField.ofField f) f.name.text f.value f.textHint := by
  refine ⟨rfl, ?_, ?_⟩
  · simp only [EditableField.ofField]
    split <;> rfl
  · simp only [EditableField.ofField]
    split
    · next h => exact h.1.symm
    · rfl

/-- The name and the length are checked first, so that the field is made. -/
lemma new_of_validateField {field : EditableField} {name : FieldName}
    (h : validateField field.name field.value.bytes.length = .ok name) :
    ∃ f, SecretField.new name field.value.bytes field.value.hint = .ok f ∧
      DraftOf field f.name.text f.value f.textHint := by
  simp only [validateField, bind_eq_ok] at h
  obtain ⟨parsed, hparsed, h⟩ := h
  split_ifs at h with hlen
  cases h
  refine ⟨_, dif_neg hlen, ?_, rfl, rfl⟩
  unfold FieldName.parse at hparsed
  split_ifs at hparsed
  cases hparsed
  rfl

lemma field_of_draftOf {field : EditableField} {f : SecretField}
    (h : DraftOf field f.name.text f.value f.textHint) : (do
      let name ← validateField field.name field.value.bytes.length
      SecretField.new name field.value.bytes field.value.hint) = .ok f := by
  have hvalid : validateField f.name.text f.value.length = .ok f.name := by
    rw [validateField, FieldName.parse_text]
    exact if_neg (Nat.not_lt.mpr f.value_le)
  rw [h.name, h.value, h.hint, hvalid]
  exact SecretField.new_parts f

/-- The fields a draft is turned into are those it holds, in order. -/
lemma toFields_eq_ok {draft : EditSecretDraft} {fields : List SecretField} :
    draft.toFields = .ok fields ↔
      List.Forall₂ (fun field f => DraftOf field f.name.text f.value f.textHint)
        draft.fields fields := by
  rw [EditSecretDraft.toFields, mapM_eq_ok]
  constructor
  · intro h
    refine h.imp fun field f hf => ?_
    obtain ⟨name, hname, hnew⟩ := bind_eq_ok.mp hf
    obtain ⟨f', hnew', hdraft⟩ := new_of_validateField hname
    cases hnew.symm.trans hnew'
    exact hdraft
  · exact fun h => h.imp fun field f hf => field_of_draftOf hf

/-- The value is held as text. -/
def EditableField.isText (field : EditableField) : Bool :=
  match field.value with
  | .text _ _ => true
  | .binary _ _ => false

/-- A value that is not text is not typed over. -/
lemma setText_of_not_isText {field : EditableField} {text : Bytes} {utf8 : fromUtf8 text = .ok}
    (h : EditableField.isText field = false) : field.setText text utf8 = field := by
  obtain ⟨name, value⟩ := field
  cases value with
  | text value valid => cases h
  | binary bytes originalHint => rfl

section Edits

variable [UnicodeNormalization]

lemma toFields_fromRecord (r : SecretRecord) :
    (EditSecretDraft.fromRecord r).toFields = .ok r.fields := by
  rw [toFields_eq_ok, EditSecretDraft.fromRecord, List.forall₂_map_left_iff, List.forall₂_same]
  exact fun f _ => draftOf_ofField f

/-! ### Edits -/

/-- What a human does to a draft. -/
inductive DraftEdit
  | setName (name : String)
  | setFieldName (index : ℕ) (name : String)
  | setText (index : ℕ) (text : Bytes) (utf8 : fromUtf8 text = .ok)
  | addTextField
  | removeField (index : ℕ)

def DraftEdit.apply (draft : EditSecretDraft) : DraftEdit → EditSecretDraft
  | .setName name => draft.setName name
  | .setFieldName index name => draft.modifyField index (·.setName name)
  | .setText index text utf8 => draft.modifyField index (·.setText text utf8)
  | .addTextField => draft.addTextField
  | .removeField index => (draft.removeField index).2

/-- The field of the record that a field of the draft was, and what was done to it since. -/
structure Origin where
  index : ℕ
  renamed : Bool
  retyped : Bool
  deriving DecidableEq

/-- Where the fields of a draft come from, after an edit of it. An added one comes from nowhere. -/
def DraftEdit.track (draft : EditSecretDraft) (origins : List (Option Origin)) :
    DraftEdit → List (Option Origin)
  | .setName _ => origins
  | .setFieldName index _ => origins.modify index (Option.map ({ · with renamed := true }))
  | .setText index _ _ =>
    if (draft.fields[index]?.map EditableField.isText).getD false then
      origins.modify index (Option.map ({ · with retyped := true }))
    else origins
  | .addTextField => origins ++ [none]
  | .removeField index => if (draft.removeField index).1 then origins.eraseIdx index else origins

/-- A draft with where its fields come from. -/
structure Tracked where
  draft : EditSecretDraft
  origins : List (Option Origin)

/-- The draft of a record before the first edit. -/
def Tracked.start (r : SecretRecord) : Tracked :=
  ⟨.fromRecord r, (List.range r.fields.length).map fun index => some ⟨index, false, false⟩⟩

def Tracked.edit (t : Tracked) (e : DraftEdit) : Tracked :=
  ⟨e.apply t.draft, e.track t.draft t.origins⟩

/-- The draft after the edits. -/
def edited (r : SecretRecord) (edits : List DraftEdit) : Tracked :=
  edits.foldl Tracked.edit (Tracked.start r)

lemma draft_edited (r : SecretRecord) (edits : List DraftEdit) :
    (edited r edits).draft = edits.foldl DraftEdit.apply (.fromRecord r) := by
  have hall : ∀ (edits : List DraftEdit) (t : Tracked),
      (edits.foldl Tracked.edit t).draft = edits.foldl DraftEdit.apply t.draft := by
    intro edits
    induction edits with
    | nil => exact fun t => rfl
    | cons e edits ih => exact fun t => ih (t.edit e)
  exact hall edits _

/-- What was not done to a field has left it as it was in the record. -/
def KeepsOrigin (r : SecretRecord) (o : Origin) (field : EditableField) : Prop :=
  ∃ f, r.fields[o.index]? = some f ∧ (o.renamed = false → field.name = f.name.text) ∧
    (o.retyped = false → field.value.bytes = f.value ∧ field.value.hint = f.textHint)

structure Inv (r : SecretRecord) (t : Tracked) : Prop where
  id : t.draft.id = r.id
  length : t.origins.length = t.draft.fields.length
  keeps : ∀ (j : ℕ) (o : Origin) (field : EditableField), t.origins[j]? = some (some o) →
    t.draft.fields[j]? = some field → KeepsOrigin r o field

lemma inv_start (r : SecretRecord) : Inv r (Tracked.start r) := by
  refine ⟨rfl, by simp [Tracked.start, EditSecretDraft.fromRecord], fun j o field ho hfield => ?_⟩
  simp only [Tracked.start, EditSecretDraft.fromRecord, List.getElem?_map] at ho hfield
  obtain ⟨k, hk, hok⟩ := Option.map_eq_some_iff.mp ho
  obtain ⟨f, hf, rfl⟩ := Option.map_eq_some_iff.mp hfield
  cases hok
  have hjk : j = k := by
    obtain ⟨hlt, heq⟩ := List.getElem?_eq_some_iff.mp hk
    simpa using heq
  obtain ⟨hname, hvalue, hhint⟩ := draftOf_ofField f
  exact ⟨f, by rw [← hjk, hf], fun _ => hname, fun _ => ⟨hvalue, hhint⟩⟩

/-- A change of one field, which the origins follow. -/
lemma Inv.modify {r : SecretRecord} {t : Tracked} (h : Inv r t) {index : ℕ}
    {change : EditableField → EditableField} {mark : Origin → Origin}
    (hchange : ∀ o field, t.draft.fields[index]? = some field → KeepsOrigin r o field →
      KeepsOrigin r (mark o) (change field)) :
    Inv r ⟨t.draft.modifyField index change, t.origins.modify index (Option.map mark)⟩ := by
  refine ⟨h.id, by simpa [EditSecretDraft.modifyField] using h.length, fun j o field ho hfield => ?_⟩
  simp only [EditSecretDraft.modifyField, List.getElem?_modify] at ho hfield
  obtain ⟨o', ho', hmark⟩ := Option.map_eq_some_iff.mp ho
  obtain ⟨field', hfield', rfl⟩ := Option.map_eq_some_iff.mp hfield
  by_cases hj : index = j
  · subst hj
    simp only [if_true] at hmark ⊢
    obtain ⟨o'', rfl, rfl⟩ := Option.map_eq_some_iff.mp hmark
    exact hchange o'' field' hfield' (h.keeps _ _ _ ho' hfield')
  · simp only [if_neg hj] at hmark ⊢
    subst hmark
    exact h.keeps _ _ _ ho' hfield'

lemma Inv.setText {r : SecretRecord} {t : Tracked} (h : Inv r t) (index : ℕ) (text : Bytes)
    (utf8 : fromUtf8 text = .ok) : Inv r (t.edit (.setText index text utf8)) := by
  rw [Tracked.edit, DraftEdit.track, DraftEdit.apply]
  by_cases htext : (t.draft.fields[index]?.map EditableField.isText).getD false = true
  · rw [if_pos htext]
    refine h.modify fun o field _ hkeeps => ?_
    obtain ⟨f, hf, hname, -⟩ := hkeeps
    refine ⟨f, hf, fun hrenamed => ?_, by simp⟩
    rw [← hname hrenamed, EditableField.setText]
    split <;> rfl
  · rw [if_neg htext]
    have hsame : t.draft.modifyField index (·.setText text utf8) = t.draft := by
      have hfields : t.draft.fields.modify index (·.setText text utf8) = t.draft.fields := by
        refine List.ext_getElem? fun j => ?_
        rw [List.getElem?_modify]
        by_cases hj : index = j
        · subst hj
          cases hfield : t.draft.fields[index]? with
          | none => rfl
          | some field =>
            rw [hfield] at htext
            simp [setText_of_not_isText (Bool.eq_false_iff.mpr htext)]
        · simp [hj]
      rw [EditSecretDraft.modifyField, hfields]
    rw [hsame]
    exact h

lemma Inv.addTextField {r : SecretRecord} {t : Tracked} (h : Inv r t) :
    Inv r (t.edit .addTextField) := by
  refine ⟨h.id, ?_, fun j o field ho hfield => ?_⟩
  · simp only [Tracked.edit, DraftEdit.track, DraftEdit.apply, EditSecretDraft.addTextField,
      List.length_append, h.length, List.length_singleton]
  · simp only [Tracked.edit, DraftEdit.track, DraftEdit.apply, EditSecretDraft.addTextField] at ho hfield
    rcases Nat.lt_or_ge j t.origins.length with hj | hj
    · rw [List.getElem?_append_left hj] at ho
      rw [List.getElem?_append_left (h.length ▸ hj)] at hfield
      exact h.keeps _ _ _ ho hfield
    · -- the new field comes from nowhere
      rw [List.getElem?_append_right hj, List.getElem?_singleton] at ho
      split at ho <;> cases ho

lemma Inv.removeField {r : SecretRecord} {t : Tracked} (h : Inv r t) (index : ℕ) :
    Inv r (t.edit (.removeField index)) := by
  rw [Tracked.edit, DraftEdit.track, DraftEdit.apply, EditSecretDraft.removeField]
  by_cases hkept : t.draft.fields.length ≤ 1 ∨ t.draft.fields.length ≤ index
  · rw [if_pos hkept]
    exact h
  · rw [if_neg hkept]
    simp only [if_true]
    refine ⟨h.id, ?_, fun j o field ho hfield => ?_⟩
    · simp only [List.length_eraseIdx, h.length]
    · simp only [List.getElem?_eraseIdx] at ho hfield
      by_cases hj : j < index
      · rw [if_pos hj] at ho hfield
        exact h.keeps _ _ _ ho hfield
      · rw [if_neg hj] at ho hfield
        exact h.keeps _ _ _ ho hfield

lemma Inv.edit {r : SecretRecord} {t : Tracked} (h : Inv r t) (e : DraftEdit) :
    Inv r (t.edit e) := by
  cases e with
  | setName name => exact ⟨h.id, h.length, h.keeps⟩
  | setFieldName index name =>
    refine h.modify fun o field _ hkeeps => ?_
    obtain ⟨f, hf, -, hvalue⟩ := hkeeps
    exact ⟨f, hf, by simp, hvalue⟩
  | setText index text utf8 => exact h.setText index text utf8
  | addTextField => exact h.addTextField
  | removeField index => exact h.removeField index

lemma inv_edited (r : SecretRecord) (edits : List DraftEdit) : Inv r (edited r edits) := by
  have hall : ∀ (edits : List DraftEdit) (t : Tracked), Inv r t →
      Inv r (edits.foldl Tracked.edit t) := by
    intro edits
    induction edits with
    | nil => exact fun t h => h
    | cons e edits ih => exact fun t h => ih _ (h.edit e)
  exact hall edits _ (inv_start r)

/-! ### Saving -/

/-- The records with one in the place of another. -/
structure Replaced (before after : VaultSession) (r : SecretRecord) (draft : EditSecretDraft)
    (target : ℕ) (saved : SecretRecord) : Prop where
  found : ∃ old, before.records[target]? = some old ∧ old.id = r.id
  records : after.records = before.records.set target saved
  id : saved.id = r.id
  name : SecretName.parse draft.name = .ok saved.name
  fields : List.Forall₂ (fun field f => DraftOf field f.name.text f.value f.textHint)
    draft.fields saved.fields

lemma prepare_eq_ok {s : VaultSession} {reference : SecretRef} {name : String}
    {fields : List SecretField} {update : PreparedRecordReplacement}
    (h : s.prepareRecordReplacement reference name fields = .ok update) :
    ∃ target, findRecordIndex s.records reference = .ok target ∧
      SecretRecord.fromParts (s.records.get target).id name fields = .ok update.replacement ∧
      update.targetId = (s.records.get target).id := by
  simp only [VaultSession.prepareRecordReplacement, bind_eq_ok] at h
  obtain ⟨target, htarget, replacement, hreplacement, h⟩ := h
  split_ifs at h
  cases h
  exact ⟨target, htarget, hreplacement, rfl⟩

lemma fromParts_eq_ok {id : SecretId} {name : String} {fields : List SecretField}
    {record : SecretRecord} (h : SecretRecord.fromParts id name fields = .ok record) :
    record.id = id ∧ record.fields = fields ∧ SecretName.parse name = .ok record.name := by
  unfold SecretRecord.fromParts at h
  split_ifs at h
  obtain ⟨parsed, hparsed, h⟩ := bind_eq_ok.mp h
  cases h
  exact ⟨rfl, rfl, hparsed⟩

lemma apply_eq_ok {s s' : VaultSession} {update : PreparedRecordReplacement}
    (h : s.applyRecordReplacement update = (.ok (), s')) :
    ∃ target, findRecordIndex s.records (.id update.targetId) = .ok target ∧
      s'.records = s.records.set target update.replacement := by
  unfold VaultSession.applyRecordReplacement at h
  split_ifs at h with hrevision
  · cases h
  · split at h
    · cases h
    · next target htarget =>
      refine ⟨target, htarget, ?_⟩
      unfold VaultSession.editRecords at h
      split at h
      · cases h
      · cases h
        rfl

/-- What is saved is the draft, in the place of the record. -/
lemma replaced_of_saved {c c' : VaultController} {amb : Ambient} {storage : Storage}
    {r : SecretRecord} {draft : EditSecretDraft} (hid : draft.id = r.id)
    {update : PreparedRecordReplacement} (hprepare : c.prepareSecretUpdate draft = .ok update)
    (happly : c.applySecretUpdate amb storage update = (.ok (), c')) :
    ∃ session last session' last' target saved, c.state = .unlocked session last ∧
      c'.state = .unlocked session' last' ∧ Replaced session session' r draft target saved := by
  unfold VaultController.prepareSecretUpdate at hprepare
  unfold VaultController.applySecretUpdate VaultController.editAndCommit at happly
  split at hprepare
  swap
  · cases hprepare
  next session last hstate =>
  rw [hstate] at happly
  obtain ⟨fields, hfields, hprepared⟩ := bind_eq_ok.mp hprepare
  obtain ⟨target, htarget, hparts, htargetId⟩ := prepare_eq_ok hprepared
  obtain ⟨hsavedId, hsavedFields, hname⟩ := fromParts_eq_ok hparts
  have hold : (session.records.get target).id = r.id := by
    have href := findRecordIndex_eq_ok htarget
    simp only [refersTo, decide_eq_true_eq] at href
    rw [href, hid]
  dsimp only at happly
  split at happly
  · cases happly
  next after hedit =>
  split at happly
  · cases happly
  cases happly
  obtain ⟨target', htarget', hrecords⟩ := apply_eq_ok hedit
  refine ⟨session, last, after, _, target', update.replacement, hstate, rfl, ?_, hrecords,
    hsavedId.trans hold, hname, ?_⟩
  · have href := findRecordIndex_eq_ok htarget'
    simp only [refersTo, decide_eq_true_eq] at href
    exact ⟨session.records.get target', by simp, by rw [href, htargetId, hold]⟩
  · rw [hsavedFields]
    exact toFields_eq_ok.mp hfields

/-- A save that fails leaves the controller, unless it is the commit that fails. -/
lemma unchanged_of_failed {c c' : VaultController} {amb : Ambient} {storage : Storage}
    {update : PreparedRecordReplacement} {e : LadonError}
    (happly : c.applySecretUpdate amb storage update = (.error e, c')) :
    c' = c ∨ ∃ session last after, c.state = .unlocked session last ∧
      session.applyRecordReplacement update = (.ok (), after) ∧
        storage.commit after.vault = .error e := by
  unfold VaultController.applySecretUpdate VaultController.editAndCommit at happly
  split at happly
  · next session last hstate =>
    split at happly
    · next e' after hedit =>
      refine Or.inl ?_
      have hafter : after = session := by
        have hfailed : session.applyRecordReplacement update = (.error e', after) := hedit
        have hatomic := atomic_applyRecordReplacement session update e'
        rw [hfailed] at hatomic
        exact hatomic rfl
      cases happly
      rw [hafter, VaultController.updateSession, if_pos rfl, ← hstate]
    · next after hedit =>
      split at happly
      · next e' hcommit =>
        cases happly
        exact Or.inr ⟨session, last, after, hstate, hedit, hcommit⟩
      · cases happly
  · cases happly
    exact Or.inl rfl

/-- **Editing keeps what is not edited.** The draft of a record gives back its fields; a field that
passes the checks of a draft is made; and after any edits a save that succeeds puts the fields of
the draft in the place of the record's, keeps its identifier and every other record, and leaves of
each field what was not done to it. A save that fails before the commit changes nothing. -/
theorem edit_preserves (r : SecretRecord) :
    (EditSecretDraft.fromRecord r).toFields = .ok r.fields ∧
    (∀ (field : EditableField) (name : FieldName),
      validateField field.name field.value.bytes.length = .ok name →
        ∃ f, SecretField.new name field.value.bytes field.value.hint = .ok f) ∧
    ∀ (edits : List DraftEdit) (c c' : VaultController) (amb : Ambient) (storage : Storage)
      (update : PreparedRecordReplacement),
      (c.prepareSecretUpdate (edited r edits).draft = .ok update →
        c.applySecretUpdate amb storage update = (.ok (), c') →
        ∃ session last session' last' target saved, c.state = .unlocked session last ∧
          c'.state = .unlocked session' last' ∧
          Replaced session session' r (edited r edits).draft target saved ∧
          ∀ (j : ℕ) (o : Origin), (edited r edits).origins[j]? = some (some o) →
            ∃ f f', r.fields[o.index]? = some f ∧ saved.fields[j]? = some f' ∧
              (o.renamed = false → f'.name = f.name) ∧
              (o.retyped = false → f'.value = f.value ∧ f'.textHint = f.textHint)) ∧
      ∀ e, c.applySecretUpdate amb storage update = (.error e, c') →
        c' = c ∨ ∃ session last after, c.state = .unlocked session last ∧
          session.applyRecordReplacement update = (.ok (), after) ∧
            storage.commit after.vault = .error e := by
  refine ⟨toFields_fromRecord r, fun field name h => ?_, fun edits c c' amb storage update =>
    ⟨fun hprepare happly => ?_, fun e => unchanged_of_failed⟩⟩
  · obtain ⟨f, hf, -⟩ := new_of_validateField h
    exact ⟨f, hf⟩
  · have hinv := inv_edited r edits
    obtain ⟨session, last, session', last', target, saved, hstate, hstate', hreplaced⟩ :=
      replaced_of_saved hinv.id hprepare happly
    refine ⟨session, last, session', last', target, saved, hstate, hstate', hreplaced,
      fun j o ho => ?_⟩
    have hlt : j < (edited r edits).draft.fields.length := by
      rw [← hinv.length]
      exact (List.getElem?_eq_some_iff.mp ho).1
    have hlt' : j < saved.fields.length := hreplaced.fields.length_eq ▸ hlt
    obtain ⟨f, hf, hname, hvalue⟩ := hinv.keeps j o _ ho (List.getElem?_eq_getElem hlt)
    have hdraft := hreplaced.fields.get hlt hlt'
    refine ⟨f, saved.fields[j], hf, List.getElem?_eq_getElem hlt', fun hrenamed => ?_,
      fun hretyped => ?_⟩
    · have htext : saved.fields[j].name.text = f.name.text :=
        hdraft.name.symm.trans (hname hrenamed)
      cases hn : saved.fields[j].name
      cases hn' : f.name
      rw [hn, hn'] at htext
      simpa using htext
    · obtain ⟨hbytes, hhint⟩ := hvalue hretyped
      exact ⟨hdraft.value.symm.trans hbytes, hdraft.hint.symm.trans hhint⟩

end Edits

/-! ### A key beside a word -/

section Keys

local instance keyNames : UnicodeNormalization := asciiNormalization

def wordField : SecretField := ⟨.value, [0x61], .text, by decide⟩

/-- A value that says it is text, and is none. -/
def keyField : SecretField := ⟨⟨"key", by decide⟩, [0xFF, 0x61], .text, by decide⟩

def keyRecord : SecretRecord :=
  ⟨wideId 0, wideName 0, [wordField, keyField], by simp, by decide, by decide⟩

def keySession : VaultSession :=
  sessionOn { widePayload 0 2 with records := [keyRecord, wideRecord 1] }

def keyController : VaultController := ⟨.unlocked keySession 0, none⟩

/-- The word is typed over, which the key does not take; a field is added, and the secret gets
another name. -/
def keyEdits : List DraftEdit :=
  [.setText 0 [0x62] (by decide +kernel), .setText 1 [0x63] (by decide +kernel), .addTextField,
    .setFieldName 2 "note", .setName "keys"]

lemma saved_key : (do
    let update ← keyController.prepareSecretUpdate (edited keyRecord keyEdits).draft
    (keyController.applySecretUpdate openAmbient openStorage update).1) = .ok () := by
  decide +kernel

theorem edit_preserves_key :
    ∃ update c' session' last' saved,
      keyController.prepareSecretUpdate (edited keyRecord keyEdits).draft = .ok update ∧
      keyController.applySecretUpdate openAmbient openStorage update = (.ok (), c') ∧
      c'.state = .unlocked session' last' ∧ session'.records = [saved, wideRecord 1] ∧
      saved.id = keyRecord.id ∧ saved.fields[1]? = some keyField := by
  obtain ⟨update, hprepare, happly⟩ := bind_eq_ok.mp saved_key
  have hsaved : keyController.applySecretUpdate openAmbient openStorage update =
      (.ok (), (keyController.applySecretUpdate openAmbient openStorage update).2) :=
    Prod.ext happly rfl
  obtain ⟨-, -, hsave⟩ := edit_preserves keyRecord
  obtain ⟨session, last, session', last', target, saved, hstate, hstate', hreplaced, hfields⟩ :=
    (hsave keyEdits keyController _ openAmbient openStorage update).1 hprepare hsaved
  cases hstate
  obtain ⟨f, f', hf, hf', hname, hvalue⟩ := hfields 1 ⟨1, false, false⟩ (by decide +kernel)
  have htarget : target = 0 := by
    obtain ⟨old, hold, hid⟩ := hreplaced.found
    match target with
    | 0 => rfl
    | 1 =>
      cases hold
      exact absurd hid (by decide +kernel)
  refine ⟨update, _, session', last', saved, hprepare, hsaved, hstate', ?_, hreplaced.id, ?_⟩
  · rw [hreplaced.records, htarget]
    rfl
  · cases hf
    obtain ⟨hbytes, hhint⟩ := hvalue rfl
    obtain ⟨name, value, hint, hle⟩ := f'
    cases hname rfl
    cases hbytes
    cases hhint
    exact hf'

end Keys

end Ladon.SecretUpdate

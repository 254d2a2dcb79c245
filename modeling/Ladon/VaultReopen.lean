import Ladon.CodecRoundtrip
import Ladon.Lib.Run
import Ladon.Vault

/-!
Whether a vault that was saved can be opened again.

A payload that was made or decoded is edited by any number of edits that succeed, and encoded.
Every edit keeps the names and the identifiers of the records apart and moves the revision on
within its word; but `add` does not look at how many records there are, and a payload with more
than the decoder accepts is encoded without an error.
-/

namespace Ladon.VaultReopen

open Ladon.Error Ladon.Model Ladon.Codec Ladon.CodecRoundtrip Ladon.Vault Ladon.Lib Ladon.Lib.Utf8
  Ladon.Lib.Word

/-- The new element is like no other. -/
lemma nodup_map_set {α β : Type} {f : α → β} {l : List α} (h : (l.map f).Nodup) (target : ℕ) {a : α}
    (hne : ∀ i (hi : i < l.length), i ≠ target → f l[i] ≠ f a) : ((l.set target a).map f).Nodup := by
  rw [List.Nodup, List.pairwise_iff_getElem] at h ⊢
  intro i j hi hj hij
  have hi' : i < l.length := by simpa using hi
  have hj' : j < l.length := by simpa using hj
  have hold := h i j (by simpa using hi') (by simpa using hj') hij
  simp only [List.getElem_map, List.getElem_set] at hold ⊢
  split_ifs with h1 h2 h2
  · omega
  · exact fun he => hne j hj' (Ne.symm h2) he.symm
  · exact hne i hi' (Ne.symm h1)
  · exact hold

section Edits

variable [UnicodeNormalization]

/-- A session with the replacements that were prepared in it. -/
structure Editing where
  session : VaultSession
  prepared : List PreparedRecordReplacement := []

inductive Edit
  | add (id : SecretId) (name : String) (fields : List SecretField)
  | rename (reference : SecretRef) (newName : String)
  | replaceFields (reference : SecretRef) (fields : List SecretField)
  | prepare (reference : SecretRef) (newName : String) (fields : List SecretField)
  | apply (prepared : PreparedRecordReplacement)
  | delete (reference : SecretRef)

/-- The session after an edit that succeeded. -/
def succeeded {α : Type} : Except LadonError α × VaultSession → Option VaultSession
  | (.ok _, s) => some s
  | (.error _, _) => none

def Editing.edit (e : Editing) : Edit → Option Editing
  | .add id name fields =>
    (succeeded (e.session.add id name fields)).map fun s => { e with session := s }
  | .rename reference newName =>
    (succeeded (e.session.rename reference newName)).map fun s => { e with session := s }
  | .replaceFields reference fields =>
    (succeeded (e.session.replaceFields reference fields)).map fun s => { e with session := s }
  | .prepare reference newName fields =>
    match e.session.prepareRecordReplacement reference newName fields with
    | .ok p => some { e with prepared := p :: e.prepared }
    | .error _ => none
  | .apply p =>
    (succeeded (e.session.applyRecordReplacement p)).map fun s => { e with session := s }
  | .delete reference =>
    (succeeded (e.session.delete reference)).map fun s => { e with session := s }

/-- New identifiers are fresh, and only what was prepared is applied. -/
def Proper (e : Editing) : Edit → Prop
  | .add id _ _ => ∀ r ∈ e.session.records, r.id ≠ id
  | .apply p => p ∈ e.prepared
  | _ => True

/-- A successful edit. -/
def EditStep (e : Editing) (op : Edit) (e' : Editing) : Prop := Proper e op ∧ e.edit op = some e'

/-- A payload that was made or decoded, with a revision that fits its word. -/
def Accepted (p : VaultPayload) : Prop :=
  (∃ vaultId revision records, revision ≤ u64Max ∧
    VaultPayload.new vaultId revision records = .ok p) ∨ ∃ b, decodePayload b = .ok p

lemma Accepted.consistent {p : VaultPayload} (h : Accepted p) :
    Consistent p ∧ p.records.length ≤ maxRecords := by
  rcases h with ⟨vaultId, revision, records, hrev, hnew⟩ | ⟨b, hb⟩
  · exact consistent_new hrev hnew
  · exact consistent_decodePayload hb

/-! ### One edit -/

/-- The payload after an edit: the next revision, with these records. -/
def Edited (s s' : VaultSession) (records : List SecretRecord) : Prop :=
  s.payload.revision + 1 ≤ u64Max ∧
    s'.payload = { s.payload with revision := s.payload.revision + 1, records := records }

lemma editRecords_edited {s s' : VaultSession} {records : List SecretRecord}
    (h : succeeded (s.editRecords records) = some s') : Edited s s' records := by
  unfold VaultSession.editRecords VaultPayload.incrementRevision at h
  cases hc : checkedAdd s.payload.revision 1 with
  | none => rw [hc] at h; cases h
  | some n =>
    rw [hc] at h
    cases h
    obtain ⟨rfl, hle⟩ := checkedAdd_eq_some.mp hc
    exact ⟨hle, rfl⟩

lemma nameTaken_eq_false {records : List SecretRecord} {target : ℕ} {name : SecretName}
    (h : ¬ nameTaken records target name) :
    ∀ i (hi : i < records.length), i ≠ target → records[i].name ≠ name := by
  intro i hi hne heq
  refine h (List.any_eq_true.mpr ⟨(records[i], i), ?_, ?_⟩)
  · rw [List.mem_zipIdx_iff_getElem?, List.getElem?_eq_getElem hi]
  · simp [hne, heq]

lemma findRecordIndex_eq_ok {records : List SecretRecord} {reference : SecretRef}
    {target : Fin records.length} (h : findRecordIndex records reference = .ok target) :
    refersTo reference (records.get target) := by
  unfold findRecordIndex at h
  split at h
  · next t ht =>
    cases h
    exact (List.findFinIdx?_eq_some_iff.mp ht).1
  · cases h

/-- Identifiers apart, and names apart. -/
def Distinct (records : List SecretRecord) : Prop :=
  (records.map SecretRecord.id).Nodup ∧ (records.map SecretRecord.name).Nodup

/-- A reference leads to one record at most. -/
lemma refersTo_unique {records : List SecretRecord} {reference : SecretRef} {r r' : SecretRecord}
    (hd : Distinct records) (hr : r ∈ records) (hr' : r' ∈ records)
    (h : refersTo reference r) (h' : refersTo reference r') : r = r' := by
  cases reference with
  | name n =>
    simp only [refersTo, decide_eq_true_eq] at h h'
    exact List.inj_on_of_nodup_map hd.2 hr hr' (h.trans h'.symm)
  | id k =>
    simp only [refersTo, decide_eq_true_eq] at h h'
    exact List.inj_on_of_nodup_map hd.1 hr hr' (h.trans h'.symm)

lemma findRecordIndex_mem {records : List SecretRecord} {reference : SecretRef} {r : SecretRecord}
    (hd : Distinct records) (hr : r ∈ records)
    (h : refersTo reference r) :
    ∃ target, findRecordIndex records reference = .ok target ∧ records.get target = r := by
  cases hfind : records.findFinIdx? (refersTo reference) with
  | none =>
    have := List.findFinIdx?_eq_none_iff.mp hfind r hr
    exact absurd h this
  | some target =>
    have href := (List.findFinIdx?_eq_some_iff.mp hfind).1
    refine ⟨target, by rw [findRecordIndex, hfind], ?_⟩
    exact refersTo_unique hd (List.get_mem records target) hr href h

/-- A record in the place of one with its identifier, under a name no other has. -/
lemma Distinct.set {records : List SecretRecord} (h : Distinct records)
    (target : Fin records.length) {r : SecretRecord} (hid : r.id = (records.get target).id)
    (hname : ∀ i (hi : i < records.length), i ≠ target → records[i].name ≠ r.name) :
    Distinct (records.set target r) := by
  refine ⟨?_, nodup_map_set h.2 target hname⟩
  refine nodup_map_set h.1 target fun i hi hne => ?_
  have hnd := List.nodup_iff_injective_getElem.mp h.1
  intro he
  rw [hid] at he
  have hti : target.1 < (records.map SecretRecord.id).length := by simp
  have hii : i < (records.map SecretRecord.id).length := by simpa using hi
  have := @hnd ⟨i, hii⟩ ⟨target, hti⟩ (by simpa using he)
  exact hne (by simpa using this)

lemma Distinct.name_ne {records : List SecretRecord} (h : Distinct records)
    (target : Fin records.length) :
    ∀ i (hi : i < records.length), i ≠ target → records[i].name ≠ (records.get target).name := by
  intro i hi hne he
  have hnd := List.nodup_iff_injective_getElem.mp h.2
  have hti : target.1 < (records.map SecretRecord.name).length := by simp
  have hii : i < (records.map SecretRecord.name).length := by simpa using hi
  have := @hnd ⟨i, hii⟩ ⟨target, hti⟩ (by simpa using he)
  exact hne (by simpa using this)

lemma Distinct.concat {records : List SecretRecord} (h : Distinct records) {r : SecretRecord}
    (hid : ∀ r' ∈ records, r'.id ≠ r.id) (hname : ∀ r' ∈ records, r'.name ≠ r.name) :
    Distinct (records ++ [r]) := by
  constructor
  · rw [List.map_append, List.map_singleton, List.nodup_append]
    refine ⟨h.1, by simp, ?_⟩
    intro a ha b hb
    obtain ⟨r', hr', rfl⟩ := List.mem_map.mp ha
    rw [List.mem_singleton.mp hb]
    exact hid r' hr'
  · rw [List.map_append, List.map_singleton, List.nodup_append]
    refine ⟨h.2, by simp, ?_⟩
    intro a ha b hb
    obtain ⟨r', hr', rfl⟩ := List.mem_map.mp ha
    rw [List.mem_singleton.mp hb]
    exact hname r' hr'

lemma Distinct.eraseIdx {records : List SecretRecord} (h : Distinct records) (i : ℕ) :
    Distinct (records.eraseIdx i) :=
  ⟨h.1.sublist ((List.eraseIdx_sublist records i).map _),
    h.2.sublist ((List.eraseIdx_sublist records i).map _)⟩

/-- What a successful edit makes of the records: only the record it addresses changes, and that one
keeps its identifier. -/
def Effect (records : List SecretRecord) : Edit → List SecretRecord → Prop
  | .add id name fields, records' => ∃ r : SecretRecord, r.id = id ∧ r.fields = fields ∧
    SecretName.parse name = .ok r.name ∧ records' = records ++ [r]
  | .rename reference newName, records' => ∃ (target : Fin records.length) (r : SecretRecord),
    refersTo reference (records.get target) ∧ r.id = (records.get target).id ∧
    r.fields = (records.get target).fields ∧ SecretName.parse newName = .ok r.name ∧
    records' = records.set target r
  | .replaceFields reference fields, records' =>
    ∃ (target : Fin records.length) (r : SecretRecord), refersTo reference (records.get target) ∧
    r.id = (records.get target).id ∧ r.name = (records.get target).name ∧ r.fields = fields ∧
    records' = records.set target r
  | .prepare _ _ _, records' => records' = records
  | .apply p, records' => ∃ target : Fin records.length, (records.get target).id = p.targetId ∧
    p.replacement.id = p.targetId ∧ records' = records.set target p.replacement
  | .delete reference, records' => ∃ target : Fin records.length,
    refersTo reference (records.get target) ∧ records' = records.eraseIdx target

/-- Only a record that is added makes more of them. -/
lemma Effect.length_le {records records' : List SecretRecord} {op : Edit}
    (h : Effect records op records') :
    records'.length ≤ records.length ∨
      (∃ id name fields, op = .add id name fields) ∧ records'.length = records.length + 1 := by
  cases op with
  | add id name fields =>
    obtain ⟨r, -, -, -, rfl⟩ := h
    exact .inr ⟨⟨id, name, fields, rfl⟩, by simp⟩
  | rename reference newName =>
    obtain ⟨target, r, -, -, -, -, rfl⟩ := h
    exact .inl (by simp)
  | replaceFields reference fields =>
    obtain ⟨target, r, -, -, -, -, rfl⟩ := h
    exact .inl (by simp)
  | prepare reference newName fields =>
    obtain rfl : records' = records := h
    exact .inl (Nat.le_refl _)
  | apply p =>
    obtain ⟨target, -, -, rfl⟩ := h
    exact .inl (by simp)
  | delete reference =>
    obtain ⟨target, -, rfl⟩ := h
    exact .inl (List.eraseIdx_sublist _ _).length_le

/-- A replacement that, at the revision it was prepared for, may take the place of its target. -/
def Fits (s : VaultSession) (p : PreparedRecordReplacement) : Prop :=
  p.expectedRevision ≤ s.payload.revision ∧
    (p.expectedRevision = s.payload.revision → p.replacement.id = p.targetId ∧
      ∀ target : Fin s.records.length, (s.records.get target).id = p.targetId →
        ∀ i (hi : i < s.records.length), i ≠ target → s.records[i].name ≠ p.replacement.name)

/-- Records apart, and only replacements that fit or are stale. -/
structure Sound (e : Editing) : Prop where
  distinct : Distinct e.session.records
  fits : ∀ p ∈ e.prepared, Fits e.session p

lemma Edited.records_eq {s s' : VaultSession} {records : List SecretRecord}
    (h : Edited s s' records) : s'.records = records := by
  rw [VaultSession.records, h.2]

/-- What was prepared before an edit is stale after it. -/
lemma Sound.edited {e : Editing} (h : Sound e) {s' : VaultSession} {records : List SecretRecord}
    (he : Edited e.session s' records) (hd : Distinct records) :
    Sound { e with session := s' } := by
  refine ⟨he.records_eq ▸ hd, fun p hm => ?_⟩
  have hf := (h.fits p hm).1
  have hrev : s'.payload.revision = e.session.payload.revision + 1 := by rw [he.2]
  exact ⟨by simp only [hrev]; omega, fun heq => by simp only [hrev] at heq; omega⟩

lemma Sound.prepared {e : Editing} (h : Sound e) {p : PreparedRecordReplacement}
    (hp : Fits e.session p) : Sound { e with prepared := p :: e.prepared } := by
  refine ⟨h.distinct, fun q hq => ?_⟩
  rcases List.mem_cons.mp hq with rfl | hq
  · exact hp
  · exact h.fits q hq

/-- What every successful edit keeps. -/
structure Kept (e : Editing) : Prop where
  consistent : Consistent e.session.payload
  fits : ∀ p ∈ e.prepared, Fits e.session p

lemma Kept.sound {e : Editing} (h : Kept e) : Sound e :=
  ⟨⟨h.consistent.ids_nodup, h.consistent.names_nodup⟩, h.fits⟩

/-- An edited payload is consistent. -/
lemma Kept.edited {e : Editing} (h : Kept e) {s' : VaultSession} {records : List SecretRecord}
    (he : Edited e.session s' records) (hd : Distinct records) :
    Kept { e with session := s' } := by
  refine ⟨?_, (h.sound.edited he hd).fits⟩
  obtain ⟨hle, hp⟩ := he
  have hc := h.consistent
  simp only [hp]
  exact ⟨hd.1, hd.2, hle, hc.idleTimeout_le, hc.unknown_le, hc.unknown_key, hc.unknown_canonical⟩

lemma add_edited {s s' : VaultSession} {id : SecretId} {name : String} {fields : List SecretField}
    (hd : Distinct s.records) (hfresh : ∀ r ∈ s.records, r.id ≠ id)
    (h : succeeded (s.add id name fields) = some s') :
    ∃ records, Edited s s' records ∧ Distinct records ∧
      Effect s.records (.add id name fields) records := by
  unfold VaultSession.add at h
  split at h
  · cases h
  next r hr =>
  obtain ⟨rfl, hfields, hparse⟩ := SecretRecord.fromParts_eq_ok hr
  split at h
  · cases h
  next hno =>
  have hname : ∀ r' ∈ s.records, r'.name ≠ r.name := fun r' hr' he =>
    hno (List.any_eq_true.mpr ⟨r', hr', by simpa using he⟩)
  refine ⟨_, editRecords_edited ?_, hd.concat hfresh hname, r, rfl, hfields, hparse, rfl⟩
  rcases hs : s.editRecords (s.records ++ [r]) with ⟨_ | _, s''⟩
  · rw [hs] at h; cases h
  · rw [hs] at h; exact h

/-- A reference that is a name is the name that the text is parsed to. -/
lemma parse_eq_name {input : String} {name : SecretName}
    (h : SecretRef.parse input = .ok (.name name)) : SecretName.parse input = .ok name := by
  unfold SecretRef.parse at h
  split at h
  · cases hid : SecretId.parse ((ofString input).drop 3) with
    | error e => rw [hid] at h; cases h
    | ok id => rw [hid] at h; cases h
  · cases hname : SecretName.parse input with
    | error e => rw [hname] at h; cases h
    | ok n => rw [hname] at h; cases h; rfl

lemma rename_edited {s s' : VaultSession} {reference : SecretRef} {newName : String}
    (hd : Distinct s.records) (h : succeeded (s.rename reference newName) = some s') :
    ∃ records, Edited s s' records ∧ Distinct records ∧
      Effect s.records (.rename reference newName) records := by
  unfold VaultSession.rename at h
  split at h
  · cases h
  · cases h
  next name hn =>
  split at h
  · cases h
  next target ht =>
  split at h
  · cases h
  next hno =>
  have hset : s.records.modify target (·.setName name) =
      s.records.set target ((s.records.get target).setName name) := by
    rw [List.modify_eq_set_getElem? , List.getElem?_eq_getElem target.2]
    rfl
  rw [hset] at h
  exact ⟨_, editRecords_edited h, hd.set target rfl (nameTaken_eq_false hno), target,
    (s.records.get target).setName name, findRecordIndex_eq_ok ht, rfl, rfl, parse_eq_name hn, rfl⟩

lemma replaceFields_edited {s s' : VaultSession} {reference : SecretRef} {fields : List SecretField}
    (hd : Distinct s.records) (h : succeeded (s.replaceFields reference fields) = some s') :
    ∃ records, Edited s s' records ∧ Distinct records ∧
      Effect s.records (.replaceFields reference fields) records := by
  unfold VaultSession.replaceFields at h
  split at h
  · cases h
  next target ht =>
  dsimp only at h
  split at h
  · cases h
  next r hr =>
  obtain ⟨hid, hfields, hname⟩ := SecretRecord.fromParts_eq_ok hr
  rw [SecretName.parse_text, Except.ok.injEq] at hname
  refine ⟨_, editRecords_edited h, hd.set target hid ?_, target, r, findRecordIndex_eq_ok ht, hid,
    hname.symm, hfields, rfl⟩
  rw [← hname]
  exact hd.name_ne target

lemma prepare_fits {s : VaultSession} {reference : SecretRef} {newName : String}
    {fields : List SecretField} {p : PreparedRecordReplacement} (hd : Distinct s.records)
    (h : s.prepareRecordReplacement reference newName fields = .ok p) : Fits s p := by
  simp only [VaultSession.prepareRecordReplacement, bind_eq_ok] at h
  obtain ⟨target, -, r, hr, h⟩ := h
  split at h
  · cases h
  next hno =>
  cases h
  obtain ⟨hid, -, -⟩ := SecretRecord.fromParts_eq_ok hr
  refine ⟨Nat.le_refl _, fun _ => ⟨hid, fun t ht => ?_⟩⟩
  -- Identifiers are apart, so the target is the record the replacement was prepared for.
  have hinj := List.nodup_iff_injective_getElem.mp hd.1
  have ht1 : t.1 < (s.records.map SecretRecord.id).length := by simp
  have ht2 : target.1 < (s.records.map SecretRecord.id).length := by simp
  have heq := @hinj ⟨t, ht1⟩ ⟨target, ht2⟩ (by simpa using ht)
  have hval : t.1 = target.1 := by simpa using heq
  rw [hval]
  exact nameTaken_eq_false hno

lemma apply_edited {s s' : VaultSession} {p : PreparedRecordReplacement} (hd : Distinct s.records)
    (hf : Fits s p) (h : succeeded (s.applyRecordReplacement p) = some s') :
    ∃ records, Edited s s' records ∧ Distinct records ∧ Effect s.records (.apply p) records := by
  unfold VaultSession.applyRecordReplacement at h
  split at h
  · cases h
  next hrev =>
  obtain ⟨hid, hname⟩ := hf.2 (not_not.mp hrev).symm
  split at h
  · cases h
  next target ht =>
  have htarget : (s.records.get target).id = p.targetId := by
    simpa [refersTo] using findRecordIndex_eq_ok ht
  exact ⟨_, editRecords_edited h, hd.set target (hid.trans htarget.symm) (hname target htarget),
    target, htarget, hid, rfl⟩

lemma delete_edited {s s' : VaultSession} {reference : SecretRef} (hd : Distinct s.records)
    (h : succeeded (s.delete reference) = some s') :
    ∃ records, Edited s s' records ∧ Distinct records ∧
      Effect s.records (.delete reference) records := by
  unfold VaultSession.delete at h
  split at h
  · cases h
  next target ht =>
  exact ⟨_, editRecords_edited h, hd.eraseIdx _, target, findRecordIndex_eq_ok ht, rfl⟩

/-- What a successful edit can do: prepare a replacement, or move to the next revision with
records that are apart, changed as the edit says. -/
lemma edit_cases {e e' : Editing} {op : Edit} (hk : Sound e) (hp : Proper e op)
    (h : e.edit op = some e') :
    (∃ p reference newName fields, op = .prepare reference newName fields ∧
      e' = { e with prepared := p :: e.prepared } ∧ Fits e.session p) ∨
    ∃ s' records, e' = { e with session := s' } ∧ Edited e.session s' records ∧ Distinct records ∧
      Effect e.session.records op records := by
  have hd := hk.distinct
  cases op with
  | add id name fields =>
    obtain ⟨s', hs, rfl⟩ := Option.map_eq_some_iff.mp h
    obtain ⟨records, hr⟩ := add_edited hd hp hs
    exact .inr ⟨s', records, rfl, hr⟩
  | rename reference newName =>
    obtain ⟨s', hs, rfl⟩ := Option.map_eq_some_iff.mp h
    obtain ⟨records, hr⟩ := rename_edited hd hs
    exact .inr ⟨s', records, rfl, hr⟩
  | replaceFields reference fields =>
    obtain ⟨s', hs, rfl⟩ := Option.map_eq_some_iff.mp h
    obtain ⟨records, hr⟩ := replaceFields_edited hd hs
    exact .inr ⟨s', records, rfl, hr⟩
  | prepare reference newName fields =>
    rw [Editing.edit] at h
    split at h
    · next p hpr =>
      cases h
      exact .inl ⟨p, reference, newName, fields, rfl, rfl, prepare_fits hd hpr⟩
    · cases h
  | apply p =>
    obtain ⟨s', hs, rfl⟩ := Option.map_eq_some_iff.mp h
    obtain ⟨records, hr⟩ := apply_edited hd (hk.fits p hp) hs
    exact .inr ⟨s', records, rfl, hr⟩
  | delete reference =>
    obtain ⟨s', hs, rfl⟩ := Option.map_eq_some_iff.mp h
    obtain ⟨records, hr⟩ := delete_edited hd hs
    exact .inr ⟨s', records, rfl, hr⟩

lemma Sound.step {e e' : Editing} {op : Edit} (hk : Sound e) (hs : EditStep e op e') :
    Sound e' := by
  rcases edit_cases hk hs.1 hs.2 with ⟨p, _, _, _, -, rfl, hf⟩ | ⟨s', records, rfl, he, hd, -⟩
  · exact hk.prepared hf
  · exact hk.edited he hd

lemma Kept.step {e e' : Editing} {op : Edit} (hk : Kept e) (hs : EditStep e op e') : Kept e' := by
  rcases edit_cases hk.sound hs.1 hs.2 with ⟨p, _, _, _, -, rfl, hf⟩ | ⟨s', records, rfl, he, hd, -⟩
  · exact ⟨hk.consistent, (hk.sound.prepared hf).fits⟩
  · exact hk.edited he hd

/-! ### Runs -/

/-- There is room for the record that is added. -/
def HasRoom (e : Editing) : Edit → Prop
  | .add _ _ _ => e.session.records.length < maxRecords
  | _ => True

/-- A successful edit that adds a record only where there is room. -/
def RoomyStep (e : Editing) (op : Edit) (e' : Editing) : Prop := HasRoom e op ∧ EditStep e op e'

lemma RoomyStep.records_le {e e' : Editing} {op : Edit} (hk : Kept e)
    (hl : e.session.records.length ≤ maxRecords) (hs : RoomyStep e op e') :
    e'.session.records.length ≤ maxRecords := by
  obtain ⟨hroom, hp, he⟩ := hs
  rcases edit_cases hk.sound hp he with ⟨p, _, _, _, -, rfl, -⟩ | ⟨s', records, rfl, hed, -, heff⟩
  · exact hl
  · dsimp only
    rw [hed.records_eq]
    rcases heff.length_le with hlen | ⟨⟨id, name, fields, rfl⟩, hlen⟩
    · exact hlen.trans hl
    · have : e.session.records.length < maxRecords := hroom
      omega

/-- **A vault that was saved can be opened again**, where no record was added beyond the limit:
from every payload that was made or decoded, after every run of successful edits that each had
room, the payload that is encoded is the one that is decoded. -/
theorem reopen_of_room (start : VaultSession) (hstart : Accepted start.payload) (ops : List Edit)
    (e : Editing) (hrun : Run RoomyStep ⟨start, []⟩ ops e) (b : Bytes)
    (hb : encodePayload e.session.payload = .ok b) :
    decodePayload b = .ok e.session.payload := by
  obtain ⟨hc, hl⟩ := hstart.consistent
  have h : Kept e ∧ e.session.records.length ≤ maxRecords :=
    hrun.invariant (I := fun e => Kept e ∧ e.session.records.length ≤ maxRecords)
      ⟨⟨hc, fun p hp => by cases hp⟩, hl⟩ fun t a u ht hs => ⟨ht.1.step hs.2, hs.records_le ht.1 ht.2⟩
  exact decodePayload_encodePayload h.1.consistent h.2 hb

end Edits

/-! ### A vault that cannot be opened again -/

section Full

local instance asciiText : UnicodeNormalization := asciiNormalization

def valueField : SecretField := ⟨.value, [], .text, by decide⟩

def wideId (i : ℕ) : SecretId := sampleId i

/-- One of twenty thousand ideographs, which normalization leaves as they are. -/
def wideChar (i : ℕ) : Char := Char.ofNat (0x4E00 + i % 20000)

lemma toNat_wideChar (i : ℕ) : (wideChar i).toNat = 0x4E00 + i % 20000 := by
  have hv : (0x4E00 + i % 20000).isValidChar := .inl (by omega)
  rw [wideChar, Char.ofNat, dif_pos hv]
  rfl

lemma length_ofString_singleton (c : Char) : (ofString (String.singleton c)).length ≤ 4 := by
  have h : (ofString (String.singleton c)).length = (String.singleton c).utf8ByteSize := rfl
  rw [h, String.utf8ByteSize_singleton]
  exact Char.utf8Size_le_four c

lemma validSecretName_wide (i : ℕ) : validSecretName (String.singleton (wideChar i)) := by
  refine ⟨?_, (length_ofString_singleton _).trans (by omega), ?_, ?_, ?_⟩
  · intro h
    have := congrArg String.toList h
    simp at this
  · rw [String.toList_singleton]
    intro h
    exact absurd h.length_le (by simp)
  · rw [String.toList_singleton]
    intro h
    exact absurd h.length_le (by simp)
  · intro c hc
    rw [String.toList_singleton, List.mem_singleton] at hc
    rw [hc]
    have := toNat_wideChar i
    simp only [isForbiddenNameCharacter, this, Bool.or_eq_true, Bool.and_eq_true, decide_eq_true_eq,
      beq_iff_eq]
    omega

def wideName (i : ℕ) : SecretName := ⟨String.singleton (wideChar i), validSecretName_wide i, rfl⟩

def wideRecord (i : ℕ) : SecretRecord :=
  ⟨wideId i, wideName i, [valueField], by simp, by decide, by simp⟩

lemma wideId_injOn {i j : ℕ} (hi : i < 20000) (hj : j < 20000) (h : wideId i = wideId j) : i = j := by
  have hb : Cbor.be 16 i = Cbor.be 16 j := by simpa [wideId, sampleId] using h
  rw [← Cbor.ofBe_be (k := 16) (n := i) (by omega), hb, Cbor.ofBe_be (by omega)]

lemma wideName_injOn {i j : ℕ} (hi : i < 20000) (hj : j < 20000) (h : wideName i = wideName j) :
    i = j := by
  have ht : (String.singleton (wideChar i)).toList = (String.singleton (wideChar j)).toList := by
    rw [show String.singleton (wideChar i) = String.singleton (wideChar j) by simpa [wideName] using h]
  rw [String.toList_singleton, String.toList_singleton, List.cons.injEq] at ht
  have hn := congrArg Char.toNat ht.1
  rw [toNat_wideChar, toNat_wideChar] at hn
  omega

lemma distinct_wide {n : ℕ} (hn : n ≤ 20000) : Distinct ((List.range n).map wideRecord) := by
  constructor
  · rw [List.map_map]
    refine List.Nodup.map_on (fun i hi j hj h => ?_) List.nodup_range
    rw [List.mem_range] at hi hj
    exact wideId_injOn (by omega) (by omega) h
  · rw [List.map_map]
    refine List.Nodup.map_on (fun i hi j hj h => ?_) List.nodup_range
    rw [List.mem_range] at hi hj
    exact wideName_injOn (by omega) (by omega) h

/-- A payload at a revision with its first `n` records. -/
def widePayload (revision n : ℕ) : VaultPayload :=
  ⟨wideId 0, revision, (List.range n).map wideRecord, defaultIdleTimeoutSeconds, .empty⟩

lemma length_encodeRecord_wide (i : ℕ) : (encodeRecord (wideRecord i)).length ≤ 300 := by
  have hname := length_ofString_singleton (wideChar i)
  have hhead := Cbor.length_head_le
  have h1 := hhead 5 3
  have h2 := hhead 0 0
  have h3 := hhead 0 1
  have h4 := hhead 0 2
  have h5 := hhead 2 16
  have h6 := hhead 3 (ofString (String.singleton (wideChar i))).length
  have h7 := hhead 4 1
  have h8 : (encodeField valueField).length ≤ 100 := by decide
  simp only [encodeRecord, wideRecord, wideName, wideId, sampleId, encodeUint, encodeId, encodeStr,
    SecretId.asBytes, List.length_append, Cbor.length_be, List.flatMap_cons, List.flatMap_nil,
    List.length_cons, List.length_nil, Nat.zero_add, Nat.add_zero]
  omega

lemma length_flatMap_le {α : Type} {l : List α} {f : α → Bytes} {k : ℕ}
    (h : ∀ a ∈ l, (f a).length ≤ k) : (l.flatMap f).length ≤ k * l.length := by
  induction l with
  | nil => simp
  | cons a t ih =>
    have h1 := h a (by simp)
    have h2 := ih fun b hb => h b (List.mem_cons_of_mem _ hb)
    simp only [List.flatMap_cons, List.length_append, List.length_cons, Nat.mul_add, Nat.mul_one]
    omega

lemma encodePayload_wide (revision n : ℕ) (hn : n ≤ 20000) :
    encodePayload (widePayload revision n) = .ok (widePayload revision n).encoded := by
  refine if_neg (Nat.not_lt.mpr ?_)
  have hr : ((widePayload revision n).records.flatMap encodeRecord).length ≤ 300 * n := by
    have := length_flatMap_le (l := (widePayload revision n).records) (f := encodeRecord) (k := 300)
      fun r hr => by
        obtain ⟨i, -, rfl⟩ := List.mem_map.mp hr
        exact length_encodeRecord_wide i
    simpa [widePayload] using this
  have hhead := Cbor.length_head_le
  have h1 := hhead 5 4
  have h2 := hhead 0 0
  have h3 := hhead 0 1
  have h4 := hhead 0 2
  have h5 := hhead 0 3
  have h6 := hhead 2 16
  have h7 := hhead 4 (widePayload revision n).records.length
  have h8 := hhead 5 1
  have h9 := hhead 0 revision
  have h10 := hhead 0 defaultIdleTimeoutSeconds
  have h11 : (encodeId (widePayload revision n).vaultId).length ≤ 25 := by
    simp only [encodeId, SecretId.asBytes, List.length_append, widePayload, wideId, sampleId, Cbor.length_be]
    omega
  have h12 : (widePayload revision n).unknown.entries = [] := rfl
  have h13 : (widePayload revision n).revision = revision := rfl
  have h14 : (widePayload revision n).idleTimeoutSeconds = defaultIdleTimeoutSeconds := rfl
  simp only [VaultPayload.encoded, encodeUint, List.length_append, h12, h13, h14, List.length_nil,
    List.flatMap_nil, Nat.add_zero, maxVaultPayloadBytes]
  omega

lemma consistent_wide {revision n : ℕ} (hn : n ≤ 20000) (hr : revision ≤ u64Max) :
    Consistent (widePayload revision n) := by
  obtain ⟨hids, hnames⟩ := distinct_wide hn
  refine ⟨hids, hnames, hr, ?_, Nat.zero_le _, ?_, ?_⟩
  · norm_num [widePayload, defaultIdleTimeoutSeconds, u32Max]
  · intro e he; cases he
  · intro e he; cases he

lemma accepted_wide {revision n : ℕ} (hn : n ≤ maxRecords) (hr : revision ≤ u64Max) :
    Accepted (widePayload revision n) := by
  obtain ⟨hids, hnames⟩ := distinct_wide (show n ≤ 20000 from hn.trans (by norm_num [maxRecords]))
  refine .inl ⟨wideId 0, revision, (List.range n).map wideRecord, hr, ?_⟩
  rw [VaultPayload.new, if_neg (by simpa using hn), if_pos ⟨hids, hnames⟩]
  rfl

/-- A session on a payload, with no keys. -/
def sessionOn (p : VaultPayload) : VaultSession := ⟨⟨p, .blank⟩, 0⟩

/-- Adding one more record to the first `n`. -/
lemma add_wide (revision n : ℕ) (hn : n < 20000) (hr : revision + 1 ≤ u64Max) (s : VaultSession)
    (hs : s.payload = widePayload revision n) :
    ∃ s', succeeded (s.add (wideId n) (wideName n).text [valueField]) = some s' ∧
      s'.payload = widePayload (revision + 1) (n + 1) := by
  have hrec : s.records = (List.range n).map wideRecord := by rw [VaultSession.records, hs]; rfl
  have hparts : SecretRecord.fromParts (wideId n) (wideName n).text [valueField] =
      .ok (wideRecord n) := SecretRecord.fromParts_parts (wideRecord n)
  have hnew : ¬ s.records.any (fun existing => existing.name = (wideRecord n).name) := by
    rw [List.any_eq_true]
    rintro ⟨r, hr, he⟩
    rw [hrec] at hr
    obtain ⟨i, hi, rfl⟩ := List.mem_map.mp hr
    rw [List.mem_range] at hi
    have := wideName_injOn (by omega) hn (of_decide_eq_true he)
    omega
  have hinc : s.payload.incrementRevision = .ok { s.payload with revision := revision + 1 } := by
    have : checkedAdd s.payload.revision 1 = some (revision + 1) := by
      rw [hs]; exact checkedAdd_eq_some.mpr ⟨rfl, hr⟩
    rw [VaultPayload.incrementRevision, this]
  refine ⟨_, by rw [VaultSession.add, hparts]; simp only [hnew, VaultSession.editRecords, hinc]; rfl, ?_⟩
  simp only [VaultSession.edited, VaultSession.payload] at hs ⊢
  rw [hs, hrec]
  simp [widePayload, List.range_succ]

lemma editStep_add_wide (revision n : ℕ) (hn : n < 20000) (hr : revision + 1 ≤ u64Max)
    (s : VaultSession) (hs : s.payload = widePayload revision n) :
    ∃ s', EditStep ⟨s, []⟩ (.add (wideId n) (wideName n).text [valueField]) ⟨s', []⟩ ∧
      s'.payload = widePayload (revision + 1) (n + 1) := by
  obtain ⟨s', h1, h2⟩ := add_wide revision n hn hr s hs
  refine ⟨s', ⟨fun r hm he => ?_, by rw [Editing.edit, h1]; rfl⟩, h2⟩
  have hrec : s.records = (List.range n).map wideRecord := by rw [VaultSession.records, hs]; rfl
  dsimp only at hm
  rw [hrec] at hm
  obtain ⟨i, hi, rfl⟩ := List.mem_map.mp hm
  rw [List.mem_range] at hi
  have := wideId_injOn (by omega) hn he
  omega

/-- **One more record than the decoder accepts is added and saved, and not opened again.** -/
theorem overfull_not_reopened :
    Accepted (widePayload 0 10000) ∧ ∃ e b,
      Run EditStep ⟨sessionOn (widePayload 0 10000), []⟩
        [.add (wideId 10000) (wideName 10000).text [valueField]] e ∧
      encodePayload e.session.payload = .ok b ∧
      decodePayload b = .error .invalidVaultPayload := by
  refine ⟨accepted_wide (Nat.le_refl _) (Nat.zero_le _), ?_⟩
  obtain ⟨s', hstep, hp⟩ := editStep_add_wide 0 10000 (by omega)
    (by norm_num [u64Max]) (sessionOn (widePayload 0 10000)) rfl
  have henc := encodePayload_wide 1 10001 (by omega)
  refine ⟨_, _, Run.single hstep, by rw [hp]; exact henc, ?_⟩
  refine decodePayload_tooManyRecords (consistent_wide (by omega) (by norm_num [u64Max])) ?_ henc
  simp [widePayload, maxRecords]

theorem reopen_of_room_wide : ∃ e b,
    Run RoomyStep ⟨sessionOn (widePayload 0 3), []⟩
      [.add (wideId 3) (wideName 3).text [valueField]] e ∧
    encodePayload e.session.payload = .ok b ∧ decodePayload b = .ok e.session.payload := by
  obtain ⟨s', hstep, hp⟩ := editStep_add_wide 0 3 (by omega)
    (by norm_num [u64Max]) (sessionOn (widePayload 0 3)) rfl
  have hrun : Run RoomyStep ⟨sessionOn (widePayload 0 3), []⟩
      [.add (wideId 3) (wideName 3).text [valueField]] ⟨s', []⟩ :=
    Run.single ⟨show 3 < maxRecords by decide, hstep⟩
  have henc : encodePayload s'.payload = .ok (widePayload 1 4).encoded := by
    rw [hp]; exact encodePayload_wide 1 4 (by omega)
  have hacc : Accepted (sessionOn (widePayload 0 3)).payload :=
    accepted_wide (by norm_num [maxRecords]) (Nat.zero_le _)
  exact ⟨_, _, hrun, henc, reopen_of_room _ hacc _ _ hrun _ henc⟩

end Full

end Ladon.VaultReopen

import Ladon.VaultReopen

/-!
What the operations of a vault session keep, over any sequence of calls that succeed or fail.

A call that fails changes nothing. A call that succeeds and is a mutation moves to the next revision
and changes the one record it addresses. A replacement may be applied long after it was prepared:
the revision it was prepared for then refuses it, so that the names checked in advance still hold
when it is applied.
-/

namespace Ladon.VaultCrud

open Ladon.Error Ladon.Model Ladon.Codec Ladon.Vault Ladon.VaultReopen Ladon.Lib
  Ladon.Lib.Utf8

section Calls

variable [UnicodeNormalization]

inductive Call
  | edit (op : Edit)
  | withRecord (reference : SecretRef)
  | withField (reference : SecretRef) (fieldName : FieldName)

/-- What a call on the session returned, without its value. -/
def outcome {α : Type} (e : Editing) (r : Except LadonError α × VaultSession) :
    Except LadonError Unit × Editing :=
  (r.1.map fun _ => (), { e with session := r.2 })

/-- A call, with its result and the session after it. -/
def perform (e : Editing) : Call → Except LadonError Unit × Editing
  | .edit (.add id name fields) => outcome e (e.session.add id name fields)
  | .edit (.rename reference newName) => outcome e (e.session.rename reference newName)
  | .edit (.replaceFields reference fields) => outcome e (e.session.replaceFields reference fields)
  | .edit (.prepare reference newName fields) =>
    match e.session.prepareRecordReplacement reference newName fields with
    | .ok p => (.ok (), { e with prepared := p :: e.prepared })
    | .error err => (.error err, e)
  | .edit (.apply p) => outcome e (e.session.applyRecordReplacement p)
  | .edit (.delete reference) => outcome e (e.session.delete reference)
  | .withRecord reference => outcome e (e.session.withRecord reference fun r => r)
  | .withField reference fieldName => outcome e (e.session.withField reference fieldName fun v => v)

/-- New identifiers are fresh, and only what was prepared earlier is applied. -/
def Allowed (e : Editing) : Call → Prop
  | .edit op => Proper e op
  | _ => True

def CallStep (e : Editing) (call : Call) (e' : Editing) : Prop :=
  Allowed e call ∧ e' = (perform e call).2

/-- Records as a vault keeps them. -/
structure WellFormed (records : List SecretRecord) : Prop where
  ids : (records.map SecretRecord.id).Nodup
  names : (records.map fun r => r.name.text).Nodup
  normalized : ∀ r ∈ records, nfc r.name.text = r.name.text
  parsed : ∀ r ∈ records, SecretName.parse r.name.text = .ok r.name
  fields : ∀ r ∈ records, 1 ≤ r.fields.length ∧ r.fields.length ≤ 64
  fieldNames : ∀ r ∈ records, (r.fields.map SecretField.name).Nodup

/-- What a call that succeeded did. -/
def Performed (e : Editing) (call : Call) (e' : Editing) : Prop :=
  match call with
  | .edit (.prepare _ _ _) => e'.session = e.session
  | .edit op => ∃ records, Edited e.session e'.session records ∧
    Effect e.session.records op records
  | _ => e'.session.vault = e.session.vault

/-! ### A call that fails -/

lemma outcome_error {α : Type} {e : Editing} {r : Except LadonError α × VaultSession}
    (ha : Atomic e.session r) {err : LadonError} (h : (outcome e r).1 = .error err) :
    (outcome e r).2 = e := by
  obtain ⟨result, s⟩ := r
  cases result with
  | error err' =>
    have hs : s = e.session := ha err' rfl
    rw [outcome, hs]
  | ok a => cases h

/-- A call that fails changes nothing. -/
lemma perform_error {e : Editing} {call : Call} {err : LadonError}
    (h : (perform e call).1 = .error err) : (perform e call).2 = e := by
  cases call with
  | withRecord reference => exact outcome_error (atomic_withRecord _ _ _) h
  | withField reference fieldName => exact outcome_error (atomic_withField _ _ _ _) h
  | edit op =>
    cases op with
    | add id name fields => exact outcome_error (atomic_add _ _ _ _) h
    | rename reference newName => exact outcome_error (atomic_rename _ _ _) h
    | replaceFields reference fields => exact outcome_error (atomic_replaceFields _ _ _) h
    | apply p => exact outcome_error (atomic_applyRecordReplacement _ _) h
    | delete reference => exact outcome_error (atomic_delete _ _) h
    | prepare reference newName fields =>
      rw [perform] at h ⊢
      split at h
      · cases h
      · rfl

/-! ### A call that succeeds -/

lemma outcome_ok {α : Type} {e : Editing} {r : Except LadonError α × VaultSession}
    (h : (outcome e r).1 = .ok ()) :
    (succeeded r).map (fun s => { e with session := s }) = some (outcome e r).2 := by
  obtain ⟨result, s⟩ := r
  cases result with
  | error err => cases h
  | ok a => rfl

/-- An edit that succeeds is a step of a run of successful edits. -/
lemma edit_of_perform {e : Editing} {op : Edit} (h : (perform e (.edit op)).1 = .ok ()) :
    e.edit op = some (perform e (.edit op)).2 := by
  cases op with
  | add id name fields => exact outcome_ok h
  | rename reference newName => exact outcome_ok h
  | replaceFields reference fields => exact outcome_ok h
  | apply p => exact outcome_ok h
  | delete reference => exact outcome_ok h
  | prepare reference newName fields =>
    rw [perform] at h ⊢
    rw [Editing.edit]
    cases hp : e.session.prepareRecordReplacement reference newName fields with
    | ok p => rfl
    | error err =>
      rw [hp] at h
      cases h

lemma perform_ok {e : Editing} {call : Call} (hs : Sound e) (ha : Allowed e call)
    (h : (perform e call).1 = .ok ()) : Performed e call (perform e call).2 := by
  cases call with
  | withRecord reference => exact vault_withRecord _ _ _
  | withField reference fieldName => exact vault_withField _ _ _ _
  | edit op =>
    rcases edit_cases hs ha (edit_of_perform h) with
      ⟨p, _, _, _, rfl, he, -⟩ | ⟨s', records, he, hed, -, heff⟩
    · rw [he]
      exact rfl
    · rw [he]
      cases op with
      | prepare reference newName fields =>
        -- A prepared replacement leaves the session, so this edit is not one of the revision.
        have hsame : (perform e (.edit (.prepare reference newName fields))).2.session =
            e.session := by
          rw [perform]
          split <;> rfl
        rw [he] at hsame
        exact hsame
      | add id name fields => exact ⟨records, hed, heff⟩
      | rename reference newName => exact ⟨records, hed, heff⟩
      | replaceFields reference fields => exact ⟨records, hed, heff⟩
      | apply p => exact ⟨records, hed, heff⟩
      | delete reference => exact ⟨records, hed, heff⟩

/-! ### Runs -/

/-- Reading a session leaves what is prepared for it. -/
lemma sound_of_vault {e e' : Editing} (hs : Sound e) (hv : e'.session.vault = e.session.vault)
    (hp : e'.prepared = e.prepared) : Sound e' := by
  obtain ⟨⟨vault, activity⟩, prepared⟩ := e
  obtain ⟨⟨vault', activity'⟩, prepared'⟩ := e'
  obtain rfl : vault' = vault := hv
  obtain rfl : prepared' = prepared := hp
  exact ⟨hs.distinct, hs.fits⟩

lemma sound_step {e e' : Editing} {call : Call} (hs : Sound e) (h : CallStep e call e') :
    Sound e' := by
  obtain ⟨ha, rfl⟩ := h
  cases hr : (perform e call).1 with
  | error err => rw [perform_error hr]; exact hs
  | ok u =>
    cases call with
    | edit op => exact hs.step ⟨ha, edit_of_perform hr⟩
    | withRecord reference => exact sound_of_vault hs (vault_withRecord _ _ _) rfl
    | withField reference fieldName => exact sound_of_vault hs (vault_withField _ _ _ _) rfl

/-- The calls of a session keep identifiers and names apart. -/
lemma distinct_of_calls {start : VaultSession} (hstart : Accepted start.payload) {calls : List Call}
    {e : Editing} (hrun : Run CallStep ⟨start, []⟩ calls e) : Distinct e.session.records := by
  have hc := hstart.consistent.1
  have h0 : Sound ⟨start, []⟩ := ⟨⟨hc.ids_nodup, hc.names_nodup⟩, fun p hp => by cases hp⟩
  exact (hrun.invariant h0 fun t a u ht hs => sound_step ht hs).distinct

lemma wellFormed_of_distinct {records : List SecretRecord} (h : Distinct records) :
    WellFormed records where
  ids := h.1
  names := by
    have := h.2.map SecretName.text_injective
    rwa [List.map_map] at this
  normalized := fun r _ => r.name.normalized
  parsed := fun r _ => SecretName.parse_text r.name
  fields := fun r _ => ⟨List.length_pos_iff.mpr r.fields_ne_nil, r.fields_le⟩
  fieldNames := fun r _ => r.fields_nodup

/-- **A session keeps its records well formed and every call is all or nothing.** From any payload
whose records are apart, after any calls that succeeded or failed, the records are well formed; the
next call either fails and changes nothing, or succeeds: a mutation moves the revision on by one and
changes the record it addresses and no other. -/
theorem session_law (start : VaultSession)
    (hids : (start.records.map SecretRecord.id).Nodup)
    (hnames : (start.records.map SecretRecord.name).Nodup) (calls : List Call) (e : Editing)
    (hrun : Run CallStep ⟨start, []⟩ calls e) :
    WellFormed e.session.records ∧
    (∀ call err, (perform e call).1 = .error err → (perform e call).2 = e) ∧
    (∀ call, Allowed e call → (perform e call).1 = .ok () →
      Performed e call (perform e call).2) := by
  have hs : Sound e := hrun.invariant ⟨⟨hids, hnames⟩, fun p hp => by cases hp⟩
    fun t a u ht hstep => sound_step ht hstep
  exact ⟨wellFormed_of_distinct hs.distinct, fun _ _ h => perform_error h,
    fun _ ha h => perform_ok hs ha h⟩

end Calls

section Stale

local instance asciiNames : UnicodeNormalization := asciiNormalization

/-- A replacement is prepared, and the record is renamed before it is applied. -/
def preparedThenRenamed : Editing :=
  let e : Editing := ⟨sessionOn (widePayload 0 2), []⟩
  let e := (perform e (.edit (.prepare (.id (wideId 0)) "spare" [valueField]))).2
  (perform e (.edit (.rename (.id (wideId 1)) "spare"))).2

theorem session_law_stale :
    WellFormed preparedThenRenamed.session.records ∧ preparedThenRenamed.prepared.length = 1 ∧
    ∀ p ∈ preparedThenRenamed.prepared.head?,
      (perform preparedThenRenamed (.edit (.apply p))).1 = .error .invalidRequest ∧
      (perform preparedThenRenamed (.edit (.apply p))).2 = preparedThenRenamed := by
  have hstart := distinct_wide (show 2 ≤ 20000 by decide)
  have hrun : Run CallStep ⟨sessionOn (widePayload 0 2), []⟩
      [.edit (.prepare (.id (wideId 0)) "spare" [valueField]),
        .edit (.rename (.id (wideId 1)) "spare")] preparedThenRenamed :=
    Run.cons ⟨trivial, rfl⟩ (Run.single ⟨trivial, rfl⟩)
  have hlaw := session_law (sessionOn (widePayload 0 2)) hstart.1 hstart.2 _ _ hrun
  have hstale : ∀ p ∈ preparedThenRenamed.prepared.head?,
      (perform preparedThenRenamed (.edit (.apply p))).1 = .error .invalidRequest := by
    decide +kernel
  exact ⟨hlaw.1, by decide +kernel, fun p hp => ⟨hstale p hp, hlaw.2.1 _ _ (hstale p hp)⟩⟩

end Stale

end Ladon.VaultCrud

import Ladon.Approval
import Ladon.Runner
import Ladon.SecretEditor
import Ladon.Store
import Ladon.Vault

/-!
The controller of the vault: whether it is open, under which session, and every operation on it.

An operation returns its result with the controller after it. What it reads from outside is an
argument: the clock, the identifiers drawn at random, and what the files answer.
-/

namespace Ladon.Controller

open Ladon.Error Ladon.Model Ladon.Codec Ladon.Crypto Ladon.Store Ladon.Vault Ladon.Runner
  Ladon.SecretEditor Ladon.Approval Ladon.Grants Ladon.Lib Ladon.Lib.Utf8

def minPassphraseScalars : ℕ := 12
def maxPassphraseBytes : ℕ := 1024

/-- Half an hour, in nanoseconds. -/
def defaultIdleTimeout : Duration := 30 * 60 * 10 ^ 9

inductive VaultUiPhase
  | firstRun
  | locked
  | recoveryRequired
  | unlocked
  deriving DecidableEq

/-- The clock, and the identifiers an operation draws. -/
structure Ambient where
  now : ℕ
  sessionId : Uuid
  secretId : SecretId

section Controller

variable [UnicodeNormalization]

/-- What the files of the vault answer. -/
structure Storage where
  ensurePrivateParent : Except LadonError Unit
  createVault : VaultPayload → Bytes → Except LadonError UnlockedVault
  openVault : Bytes → Except LadonError VaultOpen
  commit : UnlockedVault → Except LadonError Unit

/-- An open vault knows when it was last used. -/
inductive ManagedVault
  | firstRun
  | locked
  | recoveryRequired (primary : Option UnlockedVault) (backup : UnlockedVault) (last : ℕ)
  | unlocked (session : VaultSession) (last : ℕ)

structure VaultController where
  state : ManagedVault
  sessionId : Option Uuid

structure ApprovalPlan where
  vaultSessionId : Uuid
  secrets : List ApprovalSecret
  bindingSecretIds : List SecretId

def validateNewPassphrase (passphrase confirmation : String) : Except LadonError Unit :=
  if passphrase = confirmation ∧ minPassphraseScalars ≤ passphrase.length ∧
      passphrase.length ≤ maxPassphraseBytes ∧ (ofString passphrase).length ≤ maxPassphraseBytes then
    .ok ()
  else .error .invalidPassphrase

/-- The secret a reference names, among those that are listed. -/
def findSecret (metadata : List SecretMetadata) (reference : SecretRef) :
    Except LadonError SecretMetadata :=
  match metadata.find? fun secret =>
    match reference with
    | .name name => secret.name = name.text
    | .id id => secret.id = id with
  | some secret => .ok secret
  | none => .error .secretNotFound

/-- One more field that approval is asked for. -/
def requestField (requested : List ApprovalSecret) (secret : SecretMetadata) (field : String) :
    List ApprovalSecret :=
  match requested.findIdx? (·.id = secret.id) with
  | some i => requested.modify i fun existing =>
      if field ∈ existing.fields then existing
      else ⟨secret.id, secret.name, existing.fields ++ [field]⟩
  | none => requested ++ [⟨secret.id, secret.name, [field]⟩]

/-- What approval is asked for, binding by binding. -/
def requestBinding (metadata : List SecretMetadata) (requested : List ApprovalSecret)
    (binding : ValidatedSecretBinding × SecretId) : Except LadonError (List ApprovalSecret) :=
  match metadata.find? fun secret => secret.id = binding.2 with
  | none => .error .secretNotFound
  | some secret =>
    if binding.1.field.text ∈ secret.fieldNames then
      .ok (requestField requested secret binding.1.field.text)
    else .error .fieldNotFound

/-- The value of one binding. -/
def resolveBinding (metadata : List SecretMetadata) (session : VaultSession)
    (binding : ValidatedSecretBinding) (expectedId : SecretId) :
    Except LadonError ResolvedSecretBinding × VaultSession :=
  match findSecret metadata binding.secretRef with
  | .error e => (.error e, session)
  | .ok secret =>
    if secret.id ≠ expectedId then (.error .invalidBinding, session)
    else match session.withField binding.secretRef binding.field id with
      | (.error e, session) => (.error e, session)
      | (.ok value, session) =>
        (ResolvedSecretBinding.new secret.id.uuid.display binding.field.text value, session)

/-- The values of the bindings up to the first that has none; those read before it count as use of
the vault. -/
def resolveAll (metadata : List SecretMetadata) (session : VaultSession) :
    List (ValidatedSecretBinding × SecretId) →
    Except LadonError (List ResolvedSecretBinding) × VaultSession
  | [] => (.ok [], session)
  | (binding, expectedId) :: rest =>
    match resolveBinding metadata session binding expectedId with
    | (.error e, session) => (.error e, session)
    | (.ok value, session) =>
      let (values, session) := resolveAll metadata session rest
      (values.map (value :: ·), session)

namespace VaultController

def new (fileExists : Bool) : VaultController :=
  ⟨if fileExists then .locked else .firstRun, none⟩

def phase (c : VaultController) : VaultUiPhase :=
  match c.state with
  | .firstRun => .firstRun
  | .locked => .locked
  | .recoveryRequired _ _ _ => .recoveryRequired
  | .unlocked _ _ => .unlocked

/-! ### Parts of operations -/

/-- The vault is open, under a session of its own. -/
def openSession (amb : Ambient) (vault : UnlockedVault) : VaultController :=
  ⟨.unlocked ⟨vault, 0⟩ amb.now, some amb.sessionId⟩

/-- The session after an operation on it; the operation may have counted as use. -/
def updateSession (c : VaultController) (amb : Ambient) (before after : VaultSession) (last : ℕ) :
    VaultController :=
  { c with state := .unlocked after (if after.activity = before.activity then last else amb.now) }

/-- An edit of the open vault and its commit; where the commit fails the vault is locked. -/
def editAndCommit {R : Type} (amb : Ambient) (storage : Storage) (whenClosed : LadonError)
    (edit : VaultSession → Except LadonError R × VaultSession) (c : VaultController) :
    Except LadonError R × VaultController :=
  match c.state with
  | .unlocked session last =>
    match edit session with
    | (.error e, after) => (.error e, c.updateSession amb session after last)
    | (.ok r, after) =>
      match storage.commit after.vault with
      | .error e => (.error e, ⟨.locked, none⟩)
      | .ok () => (.ok r, c.updateSession amb session after last)
  | _ => (.error whenClosed, c)

/-! ### Opening and locking -/

def create (amb : Ambient) (storage : Storage) (passphrase confirmation : String)
    (c : VaultController) : Except LadonError Unit × VaultController :=
  if c.phase ≠ .firstRun then (.error .invalidRequest, c)
  else
    let created : Except LadonError UnlockedVault := do
      validateNewPassphrase passphrase confirmation
      storage.ensurePrivateParent
      let payload ← VaultPayload.new amb.secretId 0 []
      let vault ← storage.createVault payload (ofString passphrase)
      storage.commit vault
      return vault
    match created with
    | .error e => (.error e, c)
    | .ok vault => (.ok (), openSession amb vault)

def unlock (amb : Ambient) (storage : Storage) (passphrase : String) (c : VaultController) :
    Except LadonError Unit × VaultController :=
  if c.phase ≠ .locked then (.error .invalidRequest, c)
  else match storage.openVault (ofString passphrase) with
    | .error e => (.error e, c)
    | .ok (.primary vault none) => (.ok (), openSession amb vault)
    | .ok (.primary vault (some backup)) =>
      (.ok (), { c with state := .recoveryRequired (some vault) backup amb.now })
    | .ok (.restoreRequired backup) =>
      (.ok (), { c with state := .recoveryRequired none backup amb.now })

/-- The state is taken out before it is looked at: called in another phase, this leaves a locked
vault behind, and the session of an open one in place. -/
def restoreBackup (amb : Ambient) (storage : Storage) (c : VaultController) :
    Except LadonError Unit × VaultController :=
  match c.state with
  | .recoveryRequired _ backup _ =>
    match storage.commit backup with
    | .error e => (.error e, c)
    | .ok () => (.ok (), openSession amb backup)
  | _ => (.error .invalidRequest, { c with state := .locked })

def continueWithPrimary (amb : Ambient) (c : VaultController) :
    Except LadonError Unit × VaultController :=
  match c.state with
  | .recoveryRequired (some primary) _ _ => (.ok (), openSession amb primary)
  | .recoveryRequired none _ _ => (.error .invalidRequest, c)
  | _ => (.error .invalidRequest, { c with state := .locked })

def lock (c : VaultController) : VaultController :=
  ⟨match c.state with
    | .firstRun => .firstRun
    | _ => .locked, none⟩

/-- The time since the vault was last used has run out. -/
def isIdle (now : ℕ) (c : VaultController) : Bool :=
  match c.state with
  | .unlocked _ last | .recoveryRequired _ _ last => defaultIdleTimeout ≤ now - last
  | .firstRun | .locked => false

def autoLockIfIdle (now : ℕ) (c : VaultController) : Bool × VaultController :=
  if c.isIdle now then (true, c.lock) else (false, c)

def remainingUnlocked (now : ℕ) (c : VaultController) : Option Duration :=
  match c.state with
  | .unlocked _ last | .recoveryRequired _ _ last => some (defaultIdleTimeout - (now - last))
  | .firstRun | .locked => none

/-! ### Secrets -/

def secrets (c : VaultController) : List SecretMetadata :=
  match c.state with
  | .unlocked session _ => session.list
  | _ => []

def loadSecret (amb : Ambient) (id : SecretId) (c : VaultController) :
    Except LadonError EditSecretDraft × VaultController :=
  match c.state with
  | .unlocked session last =>
    let (draft, after) := session.withRecord (.id id) EditSecretDraft.fromRecord
    (draft, c.updateSession amb session after last)
  | _ => (.error .vaultLocked, c)

def prepareSecretUpdate (draft : EditSecretDraft) (c : VaultController) :
    Except LadonError PreparedRecordReplacement :=
  match c.state with
  | .unlocked session _ => do
    session.prepareRecordReplacement (.id draft.id) draft.name (← draft.toFields)
  | _ => .error .vaultLocked

def applySecretUpdate (amb : Ambient) (storage : Storage) (update : PreparedRecordReplacement) :
    VaultController → Except LadonError Unit × VaultController :=
  editAndCommit amb storage .vaultLocked fun session => session.applyRecordReplacement update

def ensureSecretExists (id : SecretId) (c : VaultController) : Except LadonError Unit :=
  match c.state with
  | .unlocked session _ =>
    if session.list.any fun secret => secret.id = id then .ok () else .error .secretNotFound
  | _ => .error .vaultLocked

def addSecret (amb : Ambient) (storage : Storage) (draft : AddSecretDraft) (c : VaultController) :
    Except LadonError SecretId × VaultController :=
  match draft.toFields with
  | .error e => (.error e, c)
  | .ok fields =>
    c.editAndCommit amb storage .invalidRequest fun session =>
      session.add amb.secretId draft.name fields

def deleteSecret (amb : Ambient) (storage : Storage) (id : SecretId) :
    VaultController → Except LadonError Unit × VaultController :=
  editAndCommit amb storage .invalidRequest fun session => session.delete (.id id)

def recordSecretActivity (amb : Ambient) (c : VaultController) : VaultController :=
  match c.state with
  | .unlocked session _ =>
    { c with state := .unlocked { session with activity := session.activity + 1 } amb.now }
  | _ => c

/-! ### Bindings -/

def bindingSecretIds (bindings : List ValidatedSecretBinding) (c : VaultController) :
    Except LadonError (List SecretId) :=
  match c.state with
  | .unlocked session _ => bindings.mapM fun binding =>
      (findSecret session.list binding.secretRef).map SecretMetadata.id
  | _ => .error .vaultLocked

def resolveBindingsForIds (amb : Ambient) (bindings : List ValidatedSecretBinding)
    (expectedSecretIds : List SecretId) (c : VaultController) :
    Except LadonError (List ResolvedSecretBinding) × VaultController :=
  if bindings.length ≠ expectedSecretIds.length then (.error .invalidBinding, c)
  else match c.state with
    | .unlocked session last =>
      let (values, after) := resolveAll session.list session (bindings.zip expectedSecretIds)
      (values, c.updateSession amb session after last)
    | _ => (.error .vaultLocked, c)

def resolveBindings (amb : Ambient) (bindings : List ValidatedSecretBinding)
    (c : VaultController) : Except LadonError (List ResolvedSecretBinding) × VaultController :=
  match c.bindingSecretIds bindings with
  | .error e => (.error e, c)
  | .ok secretIds => c.resolveBindingsForIds amb bindings secretIds

def approvalPlan (bindings : List ValidatedSecretBinding) (c : VaultController) :
    Except LadonError ApprovalPlan := do
  let bindingSecretIds ← c.bindingSecretIds bindings
  match c.state with
  | .unlocked session _ =>
    let requested ← (bindings.zip bindingSecretIds).foldlM (requestBinding session.list) []
    match c.sessionId with
    | some vaultSessionId => return ⟨vaultSessionId, requested, bindingSecretIds⟩
    | none => .error .vaultLocked
  | _ => .error .vaultLocked

end VaultController

/-! ### All operations -/

/-- The operations of the vault controller. -/
inductive ControllerOp
  | create (storage : Storage) (passphrase confirmation : String)
  | unlock (storage : Storage) (passphrase : String)
  | restoreBackup (storage : Storage)
  | continueWithPrimary
  | lock
  | autoLockIfIdle
  | loadSecret (id : SecretId)
  | addSecret (storage : Storage) (draft : AddSecretDraft)
  | applySecretUpdate (storage : Storage) (update : PreparedRecordReplacement)
  | deleteSecret (storage : Storage) (id : SecretId)
  | resolveBindings (bindings : List ValidatedSecretBinding)
  | recordSecretActivity

def ControllerOp.after (amb : Ambient) (c : VaultController) : ControllerOp → VaultController
  | .create storage passphrase confirmation => (c.create amb storage passphrase confirmation).2
  | .unlock storage passphrase => (c.unlock amb storage passphrase).2
  | .restoreBackup storage => (c.restoreBackup amb storage).2
  | .continueWithPrimary => (c.continueWithPrimary amb).2
  | .lock => c.lock
  | .autoLockIfIdle => (c.autoLockIfIdle amb.now).2
  | .loadSecret id => (c.loadSecret amb id).2
  | .addSecret storage draft => (c.addSecret amb storage draft).2
  | .applySecretUpdate storage update => (c.applySecretUpdate amb storage update).2
  | .deleteSecret storage id => (c.deleteSecret amb storage id).2
  | .resolveBindings bindings => (c.resolveBindings amb bindings).2
  | .recordSecretActivity => c.recordSecretActivity amb

/-! ### Plans -/

omit [UnicodeNormalization] in
/-- The secrets a list of requests is for. -/
lemma map_id_requestField {requested : List ApprovalSecret} {secret : SecretMetadata}
    {field : String} :
    (requestField requested secret field).map ApprovalSecret.id =
      if secret.id ∈ requested.map ApprovalSecret.id then requested.map ApprovalSecret.id
      else requested.map ApprovalSecret.id ++ [secret.id] := by
  unfold requestField
  split
  · next i hi =>
    obtain ⟨hlt, hid, -⟩ := List.findIdx?_eq_some_iff_getElem.mp hi
    have hmem : secret.id ∈ requested.map ApprovalSecret.id :=
      List.mem_map.mpr ⟨requested[i], List.getElem_mem hlt, of_decide_eq_true hid⟩
    rw [if_pos hmem]
    refine List.ext_getElem? fun n => ?_
    rw [List.getElem?_map, List.getElem?_modify, List.getElem?_map]
    by_cases hn : i = n
    · subst hn
      have hsame : requested[i].id = secret.id := of_decide_eq_true hid
      rw [List.getElem?_eq_getElem hlt]
      simp only [if_true, Option.map_some]
      by_cases hfield : field ∈ requested[i].fields
      · simp [hfield]
      · simp [hfield, hsame]
    · simp [hn]
  · next hnone =>
    have hmem : secret.id ∉ requested.map ApprovalSecret.id := by
      intro h
      obtain ⟨x, hx, hid⟩ := List.mem_map.mp h
      have := List.findIdx?_eq_none_iff.mp hnone x hx
      simp [hid] at this
    rw [if_neg hmem, List.map_append, List.map_singleton]

lemma requestBinding_mem {metadata : List SecretMetadata} {requested result : List ApprovalSecret}
    {binding : ValidatedSecretBinding × SecretId}
    (h : requestBinding metadata requested binding = .ok result) :
    binding.2 ∈ result.map ApprovalSecret.id ∧
      ∀ k ∈ requested.map ApprovalSecret.id, k ∈ result.map ApprovalSecret.id := by
  unfold requestBinding at h
  split at h
  · cases h
  · next secret hfind =>
    split at h
    · cases h
      have hid : secret.id = binding.2 := by simpa using List.find?_some hfind
      rw [map_id_requestField, ← hid]
      split
      · next hmem => exact ⟨hmem, fun _ hk => hk⟩
      · exact ⟨by simp, fun _ hk => List.mem_append_left _ hk⟩
    · cases h

lemma foldlM_requestBinding_mem {metadata : List SecretMetadata}
    {bindings : List (ValidatedSecretBinding × SecretId)} {requested result : List ApprovalSecret}
    (h : bindings.foldlM (requestBinding metadata) requested = .ok result) :
    (∀ b ∈ bindings, b.2 ∈ result.map ApprovalSecret.id) ∧
      ∀ k ∈ requested.map ApprovalSecret.id, k ∈ result.map ApprovalSecret.id := by
  induction bindings generalizing requested with
  | nil =>
    cases h
    exact ⟨fun _ hb => (nomatch hb), fun _ hk => hk⟩
  | cons b bindings ih =>
    rw [List.foldlM_cons, bind_eq_ok] at h
    obtain ⟨next, hb, h⟩ := h
    obtain ⟨h1, h2⟩ := ih h
    obtain ⟨hmem, hkeep⟩ := requestBinding_mem hb
    refine ⟨fun x hx => ?_, fun k hk => h2 k (hkeep k hk)⟩
    rcases List.mem_cons.mp hx with rfl | hx
    · exact h2 _ hmem
    · exact h1 x hx

/-- A plan asks for the secrets of all bindings. -/
lemma approvalPlan_covered {c : VaultController} {bindings : List ValidatedSecretBinding}
    {plan : ApprovalPlan} (h : c.approvalPlan bindings = .ok plan) :
    ∀ k ∈ plan.bindingSecretIds, k ∈ plan.secrets.map ApprovalSecret.id := by
  unfold VaultController.approvalPlan at h
  rw [bind_eq_ok] at h
  obtain ⟨ids, hids, h⟩ := h
  split at h
  · next session last hstate =>
    rw [bind_eq_ok] at h
    obtain ⟨requested, hreq, h⟩ := h
    split at h
    · cases h
      have hlen : ids.length = bindings.length := by
        unfold VaultController.bindingSecretIds at hids
        rw [hstate] at hids
        exact (mapM_eq_ok.mp hids).length_eq.symm
      intro k hk
      have hzip : (bindings.zip ids).map Prod.snd = ids := List.map_snd_zip (by omega)
      rw [← hzip] at hk
      obtain ⟨b, hb, rfl⟩ := List.mem_map.mp hk
      exact (foldlM_requestBinding_mem hreq).1 b hb
    · cases h
  · cases h

lemma requestBinding_new {metadata : List SecretMetadata} {requested result : List ApprovalSecret}
    {binding : ValidatedSecretBinding × SecretId}
    (h : requestBinding metadata requested binding = .ok result) :
    ∀ k ∈ result.map ApprovalSecret.id, k ∈ requested.map ApprovalSecret.id ∨ k = binding.2 := by
  unfold requestBinding at h
  split at h
  · cases h
  · next secret hfind =>
    split at h
    · cases h
      have hid : secret.id = binding.2 := by simpa using List.find?_some hfind
      intro k hk
      rw [map_id_requestField] at hk
      split at hk
      · exact .inl hk
      · rcases List.mem_append.mp hk with hk | hk
        · exact .inl hk
        · exact .inr ((List.mem_singleton.mp hk).trans hid)
    · cases h

/-- A plan asks for no secrets but those of its bindings. -/
lemma approvalPlan_exact {c : VaultController} {bindings : List ValidatedSecretBinding}
    {plan : ApprovalPlan} (h : c.approvalPlan bindings = .ok plan) :
    ∀ k ∈ plan.secrets.map ApprovalSecret.id, k ∈ plan.bindingSecretIds := by
  have hfold : ∀ {metadata : List SecretMetadata} {pairs : List (ValidatedSecretBinding × SecretId)}
      {requested result : List ApprovalSecret},
      pairs.foldlM (requestBinding metadata) requested = .ok result →
      ∀ k ∈ result.map ApprovalSecret.id,
        k ∈ requested.map ApprovalSecret.id ∨ k ∈ pairs.map Prod.snd := by
    intro metadata pairs
    induction pairs with
    | nil =>
      intro requested result h k hk
      cases h
      exact .inl hk
    | cons pair pairs ih =>
      intro requested result h k hk
      rw [List.foldlM_cons, bind_eq_ok] at h
      obtain ⟨next, hnext, h⟩ := h
      rcases ih h k hk with hk | hk
      · rcases requestBinding_new hnext k hk with hk | rfl
        · exact .inl hk
        · exact .inr List.mem_cons_self
      · exact .inr (List.mem_cons_of_mem _ hk)
  unfold VaultController.approvalPlan at h
  rw [bind_eq_ok] at h
  obtain ⟨ids, -, h⟩ := h
  split at h
  · rw [bind_eq_ok] at h
    obtain ⟨requested, hrequested, h⟩ := h
    split at h
    · cases h
      intro k hk
      rcases hfold hrequested k hk with hk | hk
      · cases hk
      · obtain ⟨pair, hpair, rfl⟩ := List.mem_map.mp hk
        exact (List.of_mem_zip hpair).2
    · cases h
  · cases h

end Controller

end Ladon.Controller

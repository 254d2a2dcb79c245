import Ladon.ControllerLaw
import Ladon.CryptoLifetime

/-!
What is in memory is on disk.

The operations of the controller work on the two copies of the vault, and a commit may fail at any of
its steps. While the vault is open its primary copy is a seal of it, with one exception: restoring the
backup can fail when it has already replaced the primary copy, and the vault that was read from there
before can still be continued with.
-/

namespace Ladon.ControllerDisk

open Ladon.Error Ladon.Model Ladon.Codec Ladon.CodecRoundtrip Ladon.Crypto Ladon.CryptoFile
open Ladon.CryptoLifetime Ladon.Store Ladon.Vault Ladon.Runner Ladon.SecretEditor Ladon.Controller
open Ladon.Lib Ladon.Lib.Utf8

/-! ### Commits -/

/-- The steps of a commit, in order. -/
def stages : List Stage :=
  [.writeFirst, .writeSecond, .verifyFirst, .verifySecond, .replaceBackup, .syncBackup,
    .replacePrimary, .syncPrimary]

/-- The steps of a commit up to the one that fails; the candidates are removed behind it. -/
def commitStages (encrypted : Bytes) (failsAt : Option Stage) :
    List Stage → Disk → Except LadonError Unit × Disk
  | [], d => (.ok (), d)
  | stage :: rest, d =>
    if failsAt = some stage then (.error .storageFailure, { d with first := none, second := none })
    else match stage.perform encrypted d with
      | none => (.error .storageFailure, { d with first := none, second := none })
      | some d => commitStages encrypted failsAt rest d

def commitEncrypted (encrypted : Bytes) (failsAt : Option Stage) (d : Disk) :
    Except LadonError Unit × Disk :=
  commitStages encrypted failsAt stages d

/-- The steps follow one another to the last. -/
def Linked : List Stage → Prop
  | [] => True
  | [stage] => stage.next = none
  | stage :: next :: rest => stage.next = some next ∧ Linked (next :: rest)

/-- A step of a commit leaves the primary copy or makes it the new one. -/
lemma perform_current {encrypted : Bytes} {d d' : Disk} {stage : Stage}
    (hp : Progress encrypted d stage) (h : stage.perform encrypted d = some d') :
    d'.primary.current = d.primary.current ∨ d'.primary.current = some encrypted := by
  cases stage with
  | writeFirst | writeSecond | syncBackup | syncPrimary =>
    cases h
    exact .inl rfl
  | verifyFirst | verifySecond =>
    rw [Stage.perform] at h
    split_ifs at h
    cases h
    exact .inl rfl
  | replaceBackup =>
    obtain ⟨c, -, rfl⟩ := Option.map_eq_some_iff.mp h
    exact .inl rfl
  | replacePrimary =>
    obtain ⟨c, hc, rfl⟩ := Option.map_eq_some_iff.mp h
    rw [hp.2] at hc
    exact .inr hc.symm

/-- A commit leaves the primary copy or makes it the new one, and one that succeeds does the
latter. -/
lemma commitStages_spec {encrypted : Bytes} {failsAt : Option Stage} {stage : Stage}
    {rest : List Stage} {d : Disk} (hl : Linked (stage :: rest)) (hp : Progress encrypted d stage) :
    ((commitStages encrypted failsAt (stage :: rest) d).2.primary.current = d.primary.current ∨
      (commitStages encrypted failsAt (stage :: rest) d).2.primary.current = some encrypted) ∧
    ((commitStages encrypted failsAt (stage :: rest) d).1 = .ok () →
      (commitStages encrypted failsAt (stage :: rest) d).2.primary.current = some encrypted) := by
  induction rest generalizing stage d with
  | nil =>
    rw [commitStages]
    split_ifs
    · exact ⟨.inl rfl, fun h => (by cases h)⟩
    · cases hperform : stage.perform encrypted d with
      | none => exact ⟨.inl rfl, fun h => (by cases h)⟩
      | some d' =>
        have hspec := (perform_spec hp hperform).2
        rw [show stage.next = none from hl] at hspec
        exact ⟨perform_current hp hperform, fun _ => congrArg Slot.current hspec.1⟩
  | cons next rest ih =>
    rw [commitStages]
    split_ifs
    · exact ⟨.inl rfl, fun h => (by cases h)⟩
    · cases hperform : stage.perform encrypted d with
      | none => exact ⟨.inl rfl, fun h => (by cases h)⟩
      | some d' =>
        have hspec := (perform_spec hp hperform).2
        rw [hl.1] at hspec
        obtain ⟨h1, h2⟩ := ih hl.2 hspec
        refine ⟨?_, h2⟩
        rcases h1 with h1 | h1
        · rcases perform_current hp hperform with h | h
          · exact .inl (h1.trans h)
          · exact .inr (h1.trans h)
        · exact .inr h1

lemma linked_stages : Linked stages := ⟨rfl, rfl, rfl, rfl, rfl, rfl, rfl, rfl⟩

section Disk

variable [UnicodeNormalization]

/-- The file is a seal of the vault, under its keys. -/
def SealOf (aead : Aead) (vault : UnlockedVault) (file : Bytes) : Prop :=
  ∃ nonce, vault.sealVault aead nonce = .ok file

/-- What an operation meets outside: whether the directory can be prepared, what the random source
gives, and the step at which a commit fails, if it does. -/
structure Fate where
  parent : Except LadonError Unit
  draws : KeyDraws
  createNonce : Except LadonError Nonce
  nonce : Except LadonError Nonce
  failsAt : Option Stage

def commit (aead : Aead) (fate : Fate) (vault : UnlockedVault) (d : Disk) :
    Except LadonError Unit × Disk :=
  match vault.sealVault aead fate.nonce with
  | .error e => (.error e, d)
  | .ok encrypted => commitEncrypted encrypted fate.failsAt d

lemma commit_spec (aead : Aead) (fate : Fate) (vault : UnlockedVault) (d : Disk) :
    ((commit aead fate vault d).2.primary.current = d.primary.current ∨
      ∃ file, SealOf aead vault file ∧ (commit aead fate vault d).2.primary.current = some file) ∧
    ((commit aead fate vault d).1 = .ok () →
      ∃ file, SealOf aead vault file ∧ (commit aead fate vault d).2.primary.current = some file) := by
  unfold commit
  cases hseal : vault.sealVault aead fate.nonce with
  | error e => exact ⟨.inl rfl, fun h => (by cases h)⟩
  | ok encrypted =>
    have hspec := @commitStages_spec encrypted fate.failsAt _ _ d linked_stages trivial
    refine ⟨?_, fun hok => ⟨encrypted, ⟨_, hseal⟩, hspec.2 hok⟩⟩
    rcases hspec.1 with h | h
    · exact .inl h
    · exact .inr ⟨encrypted, ⟨_, hseal⟩, h⟩

/-! ### Operations on the disk -/

variable (aead : Aead) (kdf : Kdf)

/-- What the files on a disk answer. -/
def storageOf (d : Disk) (fate : Fate) : Storage where
  ensurePrivateParent := fate.parent
  createVault := fun payload passphrase =>
    (Crypto.createVault aead kdf payload passphrase fate.draws fate.createNonce).map Prod.fst
  openVault := fun passphrase => Store.openVault (unlockVault aead.decrypt kdf) passphrase d
  commit := fun vault => (commit aead fate vault d).1

/-- The operations of the controller, whatever the files answer. -/
inductive VaultOp
  | create (passphrase confirmation : String)
  | unlock (passphrase : String)
  | restoreBackup
  | continueWithPrimary
  | lock
  | autoLockIfIdle
  | loadSecret (id : SecretId)
  | addSecret (draft : AddSecretDraft)
  | applySecretUpdate (update : PreparedRecordReplacement)
  | deleteSecret (id : SecretId)
  | resolveBindings (bindings : List ValidatedSecretBinding)
  | recordSecretActivity

def VaultOp.on (storage : Storage) : VaultOp → ControllerOp
  | .create passphrase confirmation => .create storage passphrase confirmation
  | .unlock passphrase => .unlock storage passphrase
  | .restoreBackup => .restoreBackup storage
  | .continueWithPrimary => .continueWithPrimary
  | .lock => .lock
  | .autoLockIfIdle => .autoLockIfIdle
  | .loadSecret id => .loadSecret id
  | .addSecret draft => .addSecret storage draft
  | .applySecretUpdate update => .applySecretUpdate storage update
  | .deleteSecret id => .deleteSecret storage id
  | .resolveBindings bindings => .resolveBindings bindings
  | .recordSecretActivity => .recordSecretActivity

/-- The open vault behind an edit that succeeds. -/
def editedVault {R : Type} (edit : VaultSession → Except LadonError R × VaultSession)
    (c : VaultController) : Option UnlockedVault :=
  match c.state with
  | .unlocked session _ =>
    match edit session with
    | (.ok _, after) => some after.vault
    | (.error _, _) => none
  | _ => none

/-- A new vault, before it is committed. -/
def prepareVault (amb : Ambient) (storage : Storage) (passphrase confirmation : String) :
    Except LadonError UnlockedVault := do
  validateNewPassphrase passphrase confirmation
  storage.ensurePrivateParent
  let payload ← VaultPayload.new amb.secretId 0 []
  storage.createVault payload (ofString passphrase)

/-- The vault that an operation commits. -/
def VaultOp.commits (amb : Ambient) (storage : Storage) (c : VaultController) :
    VaultOp → Option UnlockedVault
  | .create passphrase confirmation =>
    if c.phase ≠ .firstRun then none
    else (prepareVault amb storage passphrase confirmation).toOption
  | .restoreBackup =>
    match c.state with
    | .recoveryRequired _ backup _ => some backup
    | _ => none
  | .addSecret draft =>
    match draft.toFields with
    | .ok fields => editedVault (fun session => session.add amb.secretId draft.name fields) c
    | .error _ => none
  | .applySecretUpdate update =>
    editedVault (fun session => session.applyRecordReplacement update) c
  | .deleteSecret id => editedVault (fun session => session.delete (.id id)) c
  | _ => none

/-- The controller and the disk; and, for the record, the primary copy when the vault was last
opened. -/
structure World where
  controller : VaultController
  disk : Disk
  offered : Option Bytes := none

def World.storage (w : World) (fate : Fate) : Storage := storageOf aead kdf w.disk fate

def World.after (w : World) (amb : Ambient) (fate : Fate) (op : VaultOp) : World where
  controller := (op.on (w.storage aead kdf fate)).after amb w.controller
  disk := match op.commits amb (w.storage aead kdf fate) w.controller with
    | some vault => (commit aead fate vault w.disk).2
    | none => w.disk
  offered := match op with
    | .unlock _ => if w.controller.phase = .locked then w.disk.primary.current else w.offered
    | _ => w.offered

variable {aead : Aead} {kdf : Kdf} {amb : Ambient} {fate : Fate} {c : VaultController} {w : World}

lemma create_eq (storage : Storage) (passphrase confirmation : String)
    (h : c.phase = .firstRun) :
    c.create amb storage passphrase confirmation =
      match prepareVault amb storage passphrase confirmation with
      | .error e => (.error e, c)
      | .ok vault =>
        match storage.commit vault with
        | .error e => (.error e, c)
        | .ok () => (.ok (), VaultController.openSession amb vault) := by
  rw [VaultController.create, if_neg (not_not.mpr h), prepareVault]
  cases validateNewPassphrase passphrase confirmation with
  | error e => rfl
  | ok u =>
    cases storage.ensurePrivateParent with
    | error e => rfl
    | ok u =>
      cases VaultPayload.new amb.secretId 0 [] with
      | error e => rfl
      | ok payload =>
        simp only [ok_bind]
        cases storage.createVault payload (ofString passphrase) with
        | error e => rfl
        | ok vault =>
          simp only [ok_bind]
          cases storage.commit vault <;> rfl

/-! ### What the disk holds -/

/-- While the vault is open, its primary copy is a seal of it. -/
def Faithful (aead : Aead) (w : World) : Prop :=
  ∀ session last, w.controller.state = .unlocked session last →
    ∃ file, SealOf aead session.vault file ∧ w.disk.primary.current = some file

/-- The vaults a recovery is offered between: they open with one passphrase, the backup is the later,
and the primary copy is still the one that was read or a seal of the backup. -/
structure Offered (aead : Aead) (kdf : Kdf) (w : World) (primary : Option UnlockedVault)
    (backup : UnlockedVault) (passphrase : Bytes) : Prop where
  backup_opens : OpensWith aead.decrypt kdf passphrase backup.keyMaterial
  backup_valid : Valid backup.payload
  primary_opens : ∀ vault ∈ primary, OpensWith aead.decrypt kdf passphrase vault.keyMaterial
  primary_valid : ∀ vault ∈ primary, Valid vault.payload
  newer : ∀ vault ∈ primary, vault.payload.revision < backup.payload.revision
  read : ∀ vault ∈ primary, ∃ file, SealOf aead vault file ∧ w.offered = some file
  current : w.disk.primary.current = w.offered ∨
    ∃ file, SealOf aead backup file ∧ w.disk.primary.current = some file

structure WorldInv (aead : Aead) (kdf : Kdf) (w : World) : Prop where
  faithful : Faithful aead w
  offered : ∀ primary backup last, w.controller.state = .recoveryRequired primary backup last →
    ∃ passphrase, Offered aead kdf w primary backup passphrase

/-- A world whose vault is closed has nothing to keep. -/
lemma worldInv_of_closed (h : w.controller.state = .firstRun ∨ w.controller.state = .locked) :
    WorldInv aead kdf w := by
  refine ⟨fun session last hs => ?_, fun primary backup last hs => ?_⟩
  all_goals
    rw [hs] at h
    rcases h with h | h <;> cases h

/-- A vault that has just been opened from a seal. -/
lemma worldInv_openSession {vault : UnlockedVault} {d : Disk} {offered : Option Bytes} {file : Bytes}
    (hseal : SealOf aead vault file) (hd : d.primary.current = some file) :
    WorldInv aead kdf ⟨VaultController.openSession amb vault, d, offered⟩ := by
  refine ⟨fun session last hs => ?_, fun primary backup last hs => (by cases hs)⟩
  cases hs
  exact ⟨file, hseal, hd⟩

lemma held_recovery {c' : VaultController} {primary primary' : Option UnlockedVault}
    {backup backup' : UnlockedVault} {last last' : ℕ}
    (h : c.state = .recoveryRequired primary backup last)
    (h' : c'.state = .recoveryRequired primary' backup' last') (hheld : c'.held = c.held) :
    primary' = primary ∧ backup' = backup := by
  rw [VaultController.held, VaultController.held, h, h'] at hheld
  obtain ⟨hp, hb⟩ := List.append_inj' hheld rfl
  refine ⟨?_, List.singleton_inj.mp hb⟩
  cases primary <;> cases primary' <;> simp_all

/-- An operation that touches neither the vault nor the disk. -/
lemma WorldInv.untouched (h : WorldInv aead kdf w) {c' : VaultController}
    (hc : Untouched w.controller c') : WorldInv aead kdf { w with controller := c' } := by
  constructor
  · intro session' last' hs'
    have hphase : w.controller.phase = .unlocked := hc.phase.symm.trans (phase_of_unlocked hs')
    cases hs : w.controller.state with
    | unlocked session last =>
      have hheld := hc.held
      have hs'' : c'.state = .unlocked session' last' := hs'
      rw [VaultController.held, VaultController.held, hs, hs''] at hheld
      rw [List.singleton_inj.mp hheld]
      exact h.faithful session last hs
    | firstRun | locked | recoveryRequired => rw [VaultController.phase, hs] at hphase; cases hphase
  · intro primary' backup' last' hs'
    have hphase : w.controller.phase = .recoveryRequired := by
      rw [← hc.phase, VaultController.phase, show c'.state = _ from hs']
    cases hs : w.controller.state with
    | recoveryRequired primary backup last =>
      obtain ⟨rfl, rfl⟩ := held_recovery hs hs' hc.held
      obtain ⟨passphrase, ho⟩ := h.offered _ _ last hs
      exact ⟨passphrase, ⟨ho.backup_opens, ho.backup_valid, ho.primary_opens, ho.primary_valid,
        ho.newer, ho.read, ho.current⟩⟩
    | firstRun | locked | unlocked => rw [VaultController.phase, hs] at hphase; cases hphase

/-! ### Steps -/

/-- An edit is on disk where it is acknowledged, and a vault whose commit fails is closed. -/
lemma WorldInv.edit (h : WorldInv aead kdf w) {R : Type} {whenClosed : LadonError}
    {edit : VaultSession → Except LadonError R × VaultSession} (hedit : ∀ s, Atomic s (edit s)) :
    WorldInv aead kdf {
      controller := (w.controller.editAndCommit amb (w.storage aead kdf fate) whenClosed edit).2
      disk := match editedVault edit w.controller with
        | some vault => (commit aead fate vault w.disk).2
        | none => w.disk
      offered := w.offered } := by
  unfold VaultController.editAndCommit editedVault
  cases hs : w.controller.state with
  | firstRun | locked | recoveryRequired => exact h.untouched (.refl _)
  | unlocked session last =>
    obtain ⟨result, after, he⟩ : ∃ result after, edit session = (result, after) := ⟨_, _, rfl⟩
    simp only [he]
    cases result with
    | error e =>
      have hsame : after = session := by simpa [he] using hedit session e (by rw [he])
      simp only [hsame, updateSession_self hs]
      exact h.untouched (.refl _)
    | ok r =>
      simp only [World.storage, storageOf]
      cases hc : (commit aead fate after.vault w.disk).1 with
      | error e => exact worldInv_of_closed (.inr rfl)
      | ok u =>
        obtain ⟨file, hseal, hfile⟩ := (commit_spec aead fate after.vault w.disk).2 hc
        refine ⟨fun session' last' hs' => ?_, fun primary backup last hs' => (by cases hs')⟩
        cases hs'
        exact ⟨file, hseal, hfile⟩

lemma openCopy_eq_some {unlock : Bytes → Bytes → Except LadonError UnlockedVault}
    {passphrase : Bytes} {file : Option Bytes} {vault : UnlockedVault}
    (h : openCopy unlock passphrase file = some vault) :
    ∃ bytes, file = some bytes ∧ unlock bytes passphrase = .ok vault := by
  unfold openCopy at h
  split at h
  · cases h
  · next bytes =>
    split_ifs at h
    cases hu : unlock bytes passphrase with
    | error e => rw [hu] at h; cases h
    | ok v => rw [hu] at h; cases h; exact ⟨bytes, rfl, hu⟩

/-- What opening the copies finds. -/
lemma openVault_cases {unlock : Bytes → Bytes → Except LadonError UnlockedVault}
    {passphrase : Bytes} {d : Disk} {result : VaultOpen}
    (h : Store.openVault unlock passphrase d = .ok result) :
    (∃ vault, result = .primary vault none ∧
      openCopy unlock passphrase d.primary.current = some vault) ∨
    (∃ vault backup, result = .primary vault (some backup) ∧
      openCopy unlock passphrase d.primary.current = some vault ∧
      openCopy unlock passphrase d.backup.current = some backup ∧
      vault.payload.revision < backup.payload.revision) ∨
    ∃ backup, result = .restoreRequired backup ∧
      openCopy unlock passphrase d.backup.current = some backup := by
  unfold Store.openVault at h
  split at h
  · next vault backup hp hb =>
    cases h
    by_cases hnew : backup.payload.vaultId = vault.payload.vaultId ∧
        vault.payload.revision < backup.payload.revision
    · rw [newerBackup, if_pos hnew]
      exact .inr (.inl ⟨vault, backup, rfl, hp, hb, hnew.2⟩)
    · rw [newerBackup, if_neg hnew]
      exact .inl ⟨vault, rfl, hp⟩
  · next vault hp hb =>
    cases h
    exact .inl ⟨vault, rfl, hp⟩
  · next backup hp hb =>
    cases h
    exact .inr (.inr ⟨backup, rfl, hb⟩)
  · cases h

/-- A copy that opens is a seal of the vault it opens to. -/
lemma sealOf_openCopy (haead : Reproducible aead) {passphrase : Bytes} {file : Option Bytes}
    {vault : UnlockedVault}
    (h : openCopy (unlockVault aead.decrypt kdf) passphrase file = some vault) :
    (∃ bytes, SealOf aead vault bytes ∧ file = some bytes) ∧
      OpensWith aead.decrypt kdf passphrase vault.keyMaterial ∧ Valid vault.payload := by
  obtain ⟨bytes, rfl, hu⟩ := openCopy_eq_some h
  obtain ⟨hseal, hopens, hvalid⟩ := sealPayload_of_unlockVault haead hu
  exact ⟨⟨bytes, hseal, rfl⟩, hopens, hvalid⟩

lemma WorldInv.unlock (haead : Reproducible aead) (h : WorldInv aead kdf w) {passphrase : String} :
    WorldInv aead kdf (w.after aead kdf amb fate (.unlock passphrase)) := by
  simp only [World.after, VaultOp.on, ControllerOp.after, VaultOp.commits]
  by_cases hphase : w.controller.phase = .locked
  swap
  · simp only [VaultController.unlock, if_pos hphase, if_neg hphase]
    exact h.untouched (.refl _)
  simp only [VaultController.unlock, if_neg (not_not.mpr hphase), if_pos hphase]
  cases hopen : (w.storage aead kdf fate).openVault (ofString passphrase) with
  | error e =>
    refine worldInv_of_closed (.inr ?_)
    change w.controller.state = .locked
    cases hs : w.controller.state with
    | locked => rfl
    | firstRun | recoveryRequired | unlocked =>
      rw [VaultController.phase, hs] at hphase
      cases hphase
  | ok result =>
    rcases openVault_cases hopen with ⟨vault, rfl, hp⟩ | ⟨vault, backup, rfl, hp, hb, hnew⟩ |
      ⟨backup, rfl, hb⟩
    · obtain ⟨⟨bytes, hseal, hfile⟩, -⟩ := sealOf_openCopy haead hp
      exact worldInv_openSession hseal hfile
    · obtain ⟨⟨bytes, hseal, hfile⟩, hopens, hvalid⟩ := sealOf_openCopy haead hp
      obtain ⟨-, hopens', hvalid'⟩ := sealOf_openCopy haead hb
      refine ⟨fun _ _ hs => (by cases hs), fun primary' backup' last' hs => ?_⟩
      cases hs
      refine ⟨ofString passphrase, hopens', hvalid', ?_, ?_, ?_, ?_, .inl rfl⟩
      · rintro _ ⟨⟩
        exact hopens
      · rintro _ ⟨⟩
        exact hvalid
      · rintro _ ⟨⟩
        exact hnew
      · rintro _ ⟨⟩
        exact ⟨bytes, hseal, hfile⟩
    · obtain ⟨-, hopens', hvalid'⟩ := sealOf_openCopy haead hb
      refine ⟨fun _ _ hs => (by cases hs), fun primary' backup' last' hs => ?_⟩
      cases hs
      exact ⟨ofString passphrase, hopens', hvalid', fun _ hv => (by cases hv),
        fun _ hv => (by cases hv), fun _ hv => (by cases hv), fun _ hv => (by cases hv), .inl rfl⟩

lemma state_of_firstRun (h : c.phase = .firstRun) : c.state = .firstRun := by
  cases hs : c.state with
  | firstRun => rfl
  | locked | recoveryRequired | unlocked => rw [VaultController.phase, hs] at h; cases h

lemma WorldInv.create (h : WorldInv aead kdf w) {passphrase confirmation : String} :
    WorldInv aead kdf (w.after aead kdf amb fate (.create passphrase confirmation)) := by
  simp only [World.after, VaultOp.on, ControllerOp.after, VaultOp.commits]
  by_cases hphase : w.controller.phase = .firstRun
  swap
  · simp only [VaultController.create, if_pos hphase]
    exact h.untouched (.refl _)
  simp only [create_eq _ _ _ hphase, if_neg (not_not.mpr hphase)]
  cases prepareVault amb (w.storage aead kdf fate) passphrase confirmation with
  | error e => exact worldInv_of_closed (.inl (state_of_firstRun hphase))
  | ok vault =>
    simp only [World.storage, storageOf, Except.toOption]
    cases hc : (commit aead fate vault w.disk).1 with
    | error e => exact worldInv_of_closed (.inl (state_of_firstRun hphase))
    | ok u =>
      obtain ⟨file, hseal, hfile⟩ := (commit_spec aead fate vault w.disk).2 hc
      exact worldInv_openSession hseal hfile

lemma WorldInv.restoreBackup (h : WorldInv aead kdf w) :
    WorldInv aead kdf (w.after aead kdf amb fate .restoreBackup) := by
  simp only [World.after, VaultOp.on, ControllerOp.after, VaultOp.commits,
    VaultController.restoreBackup]
  cases hs : w.controller.state with
  | firstRun | locked | unlocked => exact worldInv_of_closed (.inr rfl)
  | recoveryRequired primary backup last =>
    simp only [World.storage, storageOf]
    obtain ⟨hcurrent, hcommitted⟩ := commit_spec aead fate backup w.disk
    cases hc : (commit aead fate backup w.disk).1 with
    | ok u =>
      obtain ⟨file, hseal, hfile⟩ := hcommitted hc
      exact worldInv_openSession hseal hfile
    | error e =>
      refine ⟨fun session last' hs' => ?_, fun primary' backup' last' hs' => ?_⟩
      · rw [hs] at hs'
        cases hs'
      · rw [hs] at hs'
        cases hs'
        obtain ⟨passphrase, ho⟩ := h.offered primary backup last hs
        refine ⟨passphrase, ho.backup_opens, ho.backup_valid, ho.primary_opens, ho.primary_valid,
          ho.newer, ho.read, ?_⟩
        rcases hcurrent with hsame | hnew
        · rcases ho.current with hread | ⟨file, hseal, hfile⟩
          · exact .inl (hsame.trans hread)
          · exact .inr ⟨file, hseal, hsame.trans hfile⟩
        · exact .inr hnew

/-- The primary copy is continued with only where it is still the one that was read. -/
def Careful (w : World) : VaultOp → Prop
  | .continueWithPrimary => ∀ primary backup last,
      w.controller.state = .recoveryRequired (some primary) backup last →
      w.disk.primary.current = w.offered
  | _ => True

lemma WorldInv.continueWithPrimary (h : WorldInv aead kdf w)
    (hcareful : Careful w .continueWithPrimary) :
    WorldInv aead kdf (w.after aead kdf amb fate .continueWithPrimary) := by
  simp only [World.after, VaultOp.on, ControllerOp.after, VaultOp.commits,
    VaultController.continueWithPrimary]
  cases hs : w.controller.state with
  | firstRun | locked | unlocked => exact worldInv_of_closed (.inr rfl)
  | recoveryRequired primary backup last =>
    cases primary with
    | none => exact h.untouched (.refl _)
    | some vault =>
      obtain ⟨passphrase, ho⟩ := h.offered _ _ _ hs
      obtain ⟨file, hseal, hread⟩ := ho.read vault rfl
      exact worldInv_openSession hseal ((hcareful _ _ _ hs).trans hread)

lemma WorldInv.lock (h : WorldInv aead kdf w) {closes : Bool} :
    WorldInv aead kdf { w with
      controller := if closes then w.controller.lock else w.controller } := by
  cases closes with
  | false => exact h.untouched (.refl _)
  | true =>
    refine worldInv_of_closed ?_
    change w.controller.lock.state = .firstRun ∨ w.controller.lock.state = .locked
    rw [VaultController.lock]
    cases w.controller.state with
    | firstRun => exact .inl rfl
    | locked | recoveryRequired | unlocked => exact .inr rfl

/-- Every operation keeps what the disk holds, where it is careful. -/
lemma WorldInv.step (haead : Reproducible aead) (h : WorldInv aead kdf w) {op : VaultOp}
    (hcareful : Careful w op) : WorldInv aead kdf (w.after aead kdf amb fate op) := by
  cases op with
  | create passphrase confirmation => exact h.create
  | unlock passphrase => exact h.unlock haead
  | restoreBackup => exact h.restoreBackup
  | continueWithPrimary => exact h.continueWithPrimary hcareful
  | lock => exact @WorldInv.lock _ _ _ _ h true
  | autoLockIfIdle =>
    have hlock := @WorldInv.lock _ _ _ _ h (w.controller.isIdle amb.now)
    have heq : (w.controller.autoLockIfIdle amb.now).2 =
        if w.controller.isIdle amb.now then w.controller.lock else w.controller := by
      rw [VaultController.autoLockIfIdle]
      split <;> rfl
    rw [← heq] at hlock
    exact hlock
  | loadSecret id => exact h.untouched (untouched_loadSecret id)
  | addSecret draft =>
    simp only [World.after, VaultOp.on, ControllerOp.after, VaultOp.commits,
      VaultController.addSecret]
    cases draft.toFields with
    | error e => exact h.untouched (.refl _)
    | ok fields => exact h.edit fun session => atomic_add session _ _ _
  | applySecretUpdate update =>
    exact h.edit fun session => atomic_applyRecordReplacement session update
  | deleteSecret id => exact h.edit fun session => atomic_delete session _
  | resolveBindings bindings => exact h.untouched (untouched_resolveBindings bindings)
  | recordSecretActivity => exact h.untouched untouched_recordSecretActivity

/-- Where the backup has replaced the primary copy, the vault that is continued with is not on
disk. -/
lemma WorldInv.careful_of_faithful (h : WorldInv aead kdf w) {op : VaultOp}
    (hf : Faithful aead (w.after aead kdf amb fate op)) : Careful w op := by
  cases op with
  | continueWithPrimary =>
    intro vault backup last hs
    obtain ⟨passphrase, ho⟩ := h.offered _ _ _ hs
    rcases ho.current with hcurrent | ⟨file, ⟨nonce, hseal⟩, hfile⟩
    · exact hcurrent
    -- The primary copy would be a seal of both vaults, and open to both.
    have hopened : (w.after aead kdf amb fate .continueWithPrimary).controller.state =
        .unlocked ⟨vault, 0⟩ amb.now := by
      simp only [World.after, VaultOp.on, ControllerOp.after, VaultController.continueWithPrimary, hs]
      rfl
    obtain ⟨file', ⟨nonce', hseal'⟩, hfile'⟩ := hf _ _ hopened
    obtain rfl : file = file' := Option.some.inj (hfile.symm.trans hfile')
    have h1 := unlockVault_sealPayload ho.backup_opens ho.backup_valid hseal
    have h2 := unlockVault_sealPayload (ho.primary_opens vault rfl) (ho.primary_valid vault rfl) hseal'
    rw [h1] at h2
    have hnewer := ho.newer vault rfl
    simp only [Except.ok.injEq, UnlockedVault.mk.injEq] at h2
    rw [h2.1] at hnewer
    exact absurd hnewer (Nat.lt_irrefl _)
  | create | unlock | restoreBackup | lock | autoLockIfIdle | loadSecret | addSecret
  | applySecretUpdate | deleteSecret | resolveBindings | recordSecretActivity => trivial

/-- An operation that fails shows nothing new in an open vault. -/
lemma held_of_error {op : ControllerOp} (herror : op.error? amb c ≠ none)
    (hopen : (op.after amb c).phase = .unlocked) : (op.after amb c).held = c.held := by
  have hends := op.ends amb c
  generalize op.error? amb c = e at herror hends
  generalize op.after amb c = c' at hopen hends
  cases hends with
  | kept h => exact h.held
  | edited | opened | recovers | closed => exact (herror rfl).elim
  | emergency | misplaced => cases hopen

/-! ### Runs -/

variable (aead kdf) in
def WorldStep (w : World) (a : Ambient × Fate × VaultOp) (w' : World) : Prop :=
  w' = w.after aead kdf a.1 a.2.1 a.2.2

variable (aead kdf) in
def CarefulStep (w : World) (a : Ambient × Fate × VaultOp) (w' : World) : Prop :=
  Careful w a.2.2 ∧ WorldStep aead kdf w a w'

lemma worldInv_run (haead : Reproducible aead) {fileExists : Bool} {d : Disk}
    {steps : List (Ambient × Fate × VaultOp)}
    (hrun : Run (CarefulStep aead kdf) ⟨VaultController.new fileExists, d, none⟩ steps w) :
    WorldInv aead kdf w := by
  have hnew : WorldInv aead kdf ⟨VaultController.new fileExists, d, none⟩ := by
    cases fileExists with
    | false => exact worldInv_of_closed (.inl rfl)
    | true => exact worldInv_of_closed (.inr rfl)
  refine hrun.invariant hnew ?_
  rintro w a _ h ⟨hcareful, rfl⟩
  exact h.step haead hcareful

/-- **What is acknowledged is on disk**: after any operations on any files, whichever commits failed
at whichever step, the primary copy of an open vault is a seal of what is in memory, as long as the
primary copy was continued with only where it was the one that had been read. From there an operation
keeps this exactly where it is careful in this way; and one that fails shows nothing new in an open
vault. -/
theorem faithful_iff_careful (aead : Aead) (kdf : Kdf) (haead : Reproducible aead)
    (fileExists : Bool) (d : Disk) (steps : List (Ambient × Fate × VaultOp)) (w : World)
    (hrun : Run (CarefulStep aead kdf) ⟨VaultController.new fileExists, d, none⟩ steps w) :
    Faithful aead w ∧
    (∀ amb fate op, Faithful aead (w.after aead kdf amb fate op) ↔ Careful w op) ∧
    ∀ amb fate op, (VaultOp.on (w.storage aead kdf fate) op).error? amb w.controller ≠ none →
      (w.after aead kdf amb fate op).controller.phase = .unlocked →
      (w.after aead kdf amb fate op).controller.held = w.controller.held := by
  have hinv := worldInv_run haead hrun
  refine ⟨hinv.faithful, fun amb fate op => ⟨hinv.careful_of_faithful, fun hc => ?_⟩,
    fun amb fate op herror hopen => held_of_error herror hopen⟩
  exact (hinv.step haead hc).faithful

end Disk

/-! ### A restore that fails at its last step -/

section Restore

local instance diskText : UnicodeNormalization := asciiNormalization

def deskAmbient : Ambient := ⟨0, .filled 3, sampleId 7⟩

/-- Everything succeeds, except that the commit fails at a step. -/
def deskFate (n : ℕ) (failsAt : Option Stage) : Fate :=
  ⟨.ok (), sampleDraws n, sampleNonce (n + 10), sampleNonce (n + 11), failsAt⟩

def deskDraft : AddSecretDraft := ⟨"mail", [⟨"token", "secret"⟩]⟩

/-- A vault is made; a secret is added, but only the backup is replaced; the vault is opened again;
and the backup is restored, but the directory cannot be synchronized behind it. -/
def deskSteps : List (Ambient × Fate × VaultOp) :=
  [(deskAmbient, deskFate 1 none, .create "correct horse battery" "correct horse battery"),
    (deskAmbient, deskFate 2 (some .syncBackup), .addSecret deskDraft),
    (deskAmbient, deskFate 3 none, .unlock "correct horse battery"),
    (deskAmbient, deskFate 4 (some .syncPrimary), .restoreBackup)]

def deskStart : World := ⟨VaultController.new false, ⟨⟨none, []⟩, ⟨none, []⟩, none, none⟩, none⟩

def deskWorld : World :=
  deskSteps.foldl (fun w a => w.after sampleAead sampleKdf a.1 a.2.1 a.2.2) deskStart

lemma reproducible_sample : Reproducible sampleAead := by
  intro k n c a p h
  simp only [sampleAead] at h ⊢
  split_ifs at h with hc
  cases h
  exact congrArg Except.ok hc.symm

lemma run_desk : Run (CarefulStep sampleAead sampleKdf) deskStart deskSteps deskWorld :=
  .of_foldl deskStart deskSteps fun a ha w => by
    simp only [deskSteps, List.mem_cons, List.not_mem_nil, or_false] at ha
    rcases ha with rfl | rfl | rfl | rfl
    all_goals exact ⟨trivial, rfl⟩

theorem faithful_iff_careful_desk :
    (deskWorld.after sampleAead sampleKdf deskAmbient (deskFate 5 none)
      .restoreBackup).controller.phase = .unlocked ∧
    Faithful sampleAead (deskWorld.after sampleAead sampleKdf deskAmbient (deskFate 5 none)
      .restoreBackup) := by
  have hall := faithful_iff_careful sampleAead sampleKdf reproducible_sample false _ _ _ run_desk
  exact ⟨by decide +kernel, (hall.2.1 deskAmbient (deskFate 5 none) .restoreBackup).mpr trivial⟩

/-- A recovery is offered between two vaults. -/
def offersBoth (c : VaultController) : Bool :=
  match c.state with
  | .recoveryRequired (some _) _ _ => true
  | _ => false

/-- **A restore that fails behind the primary copy loses it**: the vault can be continued with as it
was read before, while its primary copy is the backup. -/
theorem continue_after_failed_restore :
    ¬ ∀ (aead : Aead) (kdf : Kdf), Reproducible aead → ∀ (fileExists : Bool) (d : Disk)
      (steps : List (Ambient × Fate × VaultOp)) (w : World),
      Run (WorldStep aead kdf) ⟨VaultController.new fileExists, d, none⟩ steps w →
      Faithful aead w := by
  intro h
  have hrun : Run (WorldStep sampleAead sampleKdf) deskStart
      (deskSteps ++ [(deskAmbient, deskFate 5 none, .continueWithPrimary)])
      (deskWorld.after sampleAead sampleKdf deskAmbient (deskFate 5 none) .continueWithPrimary) :=
    (run_desk.mono fun _ _ _ hs => hs.2).snoc rfl
  have hfaithful := h _ _ reproducible_sample false _ _ _ hrun
  have hinv := worldInv_run reproducible_sample run_desk
  have hcareful := hinv.careful_of_faithful hfaithful
  have hoffers : offersBoth deskWorld.controller = true := by decide +kernel
  have hreplaced : deskWorld.disk.primary.current ≠ deskWorld.offered := by decide +kernel
  unfold offersBoth at hoffers
  split at hoffers
  · next primary backup last hs => exact hreplaced (hcareful _ _ _ hs)
  · cases hoffers

end Restore

end Ladon.ControllerDisk

import Ladon.Controller
import Ladon.Lib.Run

/-!
The law of the vault controller: it has a session exactly while the vault is open, and an operation
that fails, other than by a commit, changes nothing.

Two operations take the state out before they look at it, and break the law where they are called on
a vault that is open or was never made. All others keep it in every phase.
-/

namespace Ladon.Controller

open Ladon.Error Ladon.Model Ladon.Codec Ladon.Crypto Ladon.Store Ladon.Vault Ladon.Runner
  Ladon.SecretEditor Ladon.Lib Ladon.Lib.Utf8

section Law

variable [UnicodeNormalization]

def failure {α : Type} : Except LadonError α → Option LadonError
  | .ok _ => none
  | .error e => some e

/-- The error an operation returns. -/
def ControllerOp.error? (amb : Ambient) (c : VaultController) : ControllerOp → Option LadonError
  | .create storage passphrase confirmation =>
    failure (c.create amb storage passphrase confirmation).1
  | .unlock storage passphrase => failure (c.unlock amb storage passphrase).1
  | .restoreBackup storage => failure (c.restoreBackup amb storage).1
  | .continueWithPrimary => failure (c.continueWithPrimary amb).1
  | .lock | .autoLockIfIdle | .recordSecretActivity => none
  | .loadSecret id => failure (c.loadSecret amb id).1
  | .addSecret storage draft => failure (c.addSecret amb storage draft).1
  | .applySecretUpdate storage update => failure (c.applySecretUpdate amb storage update).1
  | .deleteSecret storage id => failure (c.deleteSecret amb storage id).1
  | .resolveBindings bindings => failure (c.resolveBindings amb bindings).1

/-- The same files, but a commit succeeds. -/
def Storage.durable (storage : Storage) : Storage := { storage with commit := fun _ => .ok () }

/-- The same operation on files where a commit succeeds. -/
def ControllerOp.durable : ControllerOp → ControllerOp
  | .create storage passphrase confirmation => .create storage.durable passphrase confirmation
  | .unlock storage passphrase => .unlock storage.durable passphrase
  | .restoreBackup storage => .restoreBackup storage.durable
  | .addSecret storage draft => .addSecret storage.durable draft
  | .applySecretUpdate storage update => .applySecretUpdate storage.durable update
  | .deleteSecret storage id => .deleteSecret storage.durable id
  | op => op

/-- The vaults in memory. -/
def VaultController.held (c : VaultController) : List UnlockedVault :=
  match c.state with
  | .firstRun | .locked => []
  | .recoveryRequired primary backup _ => primary.toList ++ [backup]
  | .unlocked session _ => [session.vault]

def HasSession (c : VaultController) : Prop := c.sessionId.isSome ↔ c.phase = .unlocked

/-- Nothing changed but the time of the last use. -/
structure Untouched (c c' : VaultController) : Prop where
  phase : c'.phase = c.phase
  session : c'.sessionId = c.sessionId
  held : c'.held = c.held

/-- The law at one operation: there is a session behind it exactly where the vault is open, and it
changes nothing where it fails for another reason than its commit. -/
structure Lawful (amb : Ambient) (c : VaultController) (op : ControllerOp) : Prop where
  session : HasSession (op.after amb c)
  atomic : op.error? amb c ≠ none → op.durable.error? amb c ≠ none → Untouched c (op.after amb c)

/-- A recovery is chosen only where one is offered or the vault is closed. -/
def Orderly (c : VaultController) : ControllerOp → Prop
  | .restoreBackup _ | .continueWithPrimary => c.phase = .recoveryRequired ∨ c.phase = .locked
  | _ => True

lemma Untouched.refl (c : VaultController) : Untouched c c := ⟨rfl, rfl, rfl⟩

/-! ### What an operation can do -/

/-- Every way an operation can end, with the error it returns. -/
inductive Ends (amb : Ambient) (c : VaultController) (op : ControllerOp) :
    Option LadonError → VaultController → Prop
  | kept {e : Option LadonError} {c' : VaultController} (h : Untouched c c') : Ends amb c op e c'
  | edited {session session' : VaultSession} {last last' : ℕ}
      (h : c.state = .unlocked session last) :
      Ends amb c op none { c with state := .unlocked session' last' }
  | opened (vault : UnlockedVault) (h : c.phase ≠ .unlocked) :
      Ends amb c op none (VaultController.openSession amb vault)
  | recovers {primary : Option UnlockedVault} {backup : UnlockedVault} (h : c.phase = .locked) :
      Ends amb c op none { c with state := .recoveryRequired primary backup amb.now }
  | closed : Ends amb c op none c.lock
  | emergency {e : LadonError} (h : c.phase = .unlocked) (hcommit : op.durable.error? amb c = none) :
      Ends amb c op (some e) ⟨.locked, none⟩
  | misplaced (h : ¬ Orderly c op) (hfails : op.durable.error? amb c ≠ none) :
      Ends amb c op (some .invalidRequest) { c with state := .locked }

lemma phase_of_unlocked {c : VaultController} {session : VaultSession} {last : ℕ}
    (h : c.state = .unlocked session last) : c.phase = .unlocked := by
  rw [VaultController.phase, h]

lemma updateSession_self {c : VaultController} {amb : Ambient} {session : VaultSession} {last : ℕ}
    (h : c.state = .unlocked session last) : c.updateSession amb session session last = c := by
  rw [VaultController.updateSession, if_pos rfl, ← h]

/-- A use of the open vault that leaves what it holds. -/
lemma untouched_updateSession {c : VaultController} {amb : Ambient} {session after : VaultSession}
    {last : ℕ} (h : c.state = .unlocked session last) (hv : after.vault = session.vault) :
    Untouched c (c.updateSession amb session after last) := by
  refine ⟨(phase_of_unlocked h).symm, rfl, ?_⟩
  simp only [VaultController.held, VaultController.updateSession, h, hv]

variable {amb : Ambient} {c : VaultController} {op : ControllerOp}

/-- An edit either fails and changes nothing, or is committed, or its commit fails and the vault is
locked. -/
lemma editAndCommit_ends {R : Type} {storage : Storage} {whenClosed : LadonError}
    {edit : VaultSession → Except LadonError R × VaultSession} (hedit : ∀ s, Atomic s (edit s))
    (hop : op.durable.error? amb c =
      failure (c.editAndCommit amb storage.durable whenClosed edit).1) :
    Ends amb c op (failure (c.editAndCommit amb storage whenClosed edit).1)
      (c.editAndCommit amb storage whenClosed edit).2 := by
  unfold VaultController.editAndCommit at hop ⊢
  split
  · next session last hs =>
    simp only [hs] at hop
    split
    · next e after he =>
      have hsame : after = session := by simpa [he] using hedit session e (by rw [he])
      rw [hsame, updateSession_self hs]
      exact .kept (.refl c)
    · next r after he =>
      rw [he] at hop
      cases hcommit : storage.commit after.vault with
      | error e => exact .emergency (phase_of_unlocked hs) hop
      | ok u => exact .edited hs
  · exact .kept (.refl c)

lemma vault_resolveBinding (metadata : List SecretMetadata) (session : VaultSession)
    (binding : ValidatedSecretBinding) (expectedId : SecretId) :
    (resolveBinding metadata session binding expectedId).2.vault = session.vault := by
  unfold resolveBinding
  split
  · rfl
  · split
    · rfl
    · have hv := vault_withField session binding.secretRef binding.field id
      split
      · next h => rw [h] at hv; exact hv
      · next h => rw [h] at hv; exact hv

/-- Reading values leaves the vault, however many of them are read. -/
lemma vault_resolveAll (metadata : List SecretMetadata) (session : VaultSession)
    (bindings : List (ValidatedSecretBinding × SecretId)) :
    (resolveAll metadata session bindings).2.vault = session.vault := by
  induction bindings generalizing session with
  | nil => rfl
  | cons b rest ih =>
    have hv := vault_resolveBinding metadata session b.1 b.2
    unfold resolveAll
    split
    · next h => rw [h] at hv; exact hv
    · next h =>
      rw [h] at hv
      exact (ih _).trans hv

lemma untouched_resolveBindingsForIds (bindings : List ValidatedSecretBinding)
    (ids : List SecretId) : Untouched c (c.resolveBindingsForIds amb bindings ids).2 := by
  unfold VaultController.resolveBindingsForIds
  split
  · exact .refl c
  · split
    · next session last hs => exact untouched_updateSession hs (vault_resolveAll _ _ _)
    · exact .refl c

lemma untouched_resolveBindings (bindings : List ValidatedSecretBinding) :
    Untouched c (c.resolveBindings amb bindings).2 := by
  unfold VaultController.resolveBindings
  split
  · exact .refl c
  · exact untouched_resolveBindingsForIds _ _

lemma create_ends {storage : Storage} {passphrase confirmation : String} :
    Ends amb c op (failure (c.create amb storage passphrase confirmation).1)
      (c.create amb storage passphrase confirmation).2 := by
  unfold VaultController.create
  by_cases h : c.phase = .firstRun
  · rw [if_neg (not_not.mpr h)]
    dsimp only
    split
    · exact .kept (.refl c)
    · exact .opened _ (by rw [h]; decide)
  · rw [if_pos h]
    exact .kept (.refl c)

lemma unlock_ends {storage : Storage} {passphrase : String} :
    Ends amb c op (failure (c.unlock amb storage passphrase).1)
      (c.unlock amb storage passphrase).2 := by
  unfold VaultController.unlock
  by_cases h : c.phase = .locked
  · rw [if_neg (not_not.mpr h)]
    split
    · exact .kept (.refl c)
    · exact .opened _ (by rw [h]; decide)
    · exact .recovers h
    · exact .recovers h
  · rw [if_pos h]
    exact .kept (.refl c)

/-- A vault that is taken out where no recovery is offered is locked behind it. -/
lemma misplaced_ends {misplaced : ControllerOp} (hop : ∀ c, Orderly c misplaced ↔
      c.phase = .recoveryRequired ∨ c.phase = .locked)
    (hphase : c.phase ≠ .recoveryRequired) (hfails : misplaced.durable.error? amb c ≠ none) :
    Ends amb c misplaced (some .invalidRequest) { c with state := .locked } := by
  by_cases hlocked : c.phase = .locked
  · have hs : c.state = .locked := by
      rw [VaultController.phase] at hlocked
      split at hlocked
      · cases hlocked
      · assumption
      · cases hlocked
      · cases hlocked
    have hc : { c with state := ManagedVault.locked } = c := by rw [← hs]
    rw [hc]
    exact .kept (.refl c)
  · exact .misplaced (fun h => ((hop c).mp h).elim hphase hlocked) hfails

lemma restoreBackup_ends {storage : Storage} :
    Ends amb c (.restoreBackup storage) (failure (c.restoreBackup amb storage).1)
      (c.restoreBackup amb storage).2 := by
  cases hs : c.state with
  | recoveryRequired primary backup last =>
    rw [VaultController.restoreBackup, hs]
    dsimp only
    split
    · exact .kept (.refl c)
    · exact .opened _ (by simp [VaultController.phase, hs])
  | firstRun | locked | unlocked session last =>
    rw [VaultController.restoreBackup, hs]
    refine misplaced_ends (fun _ => Iff.rfl) (by simp [VaultController.phase, hs]) ?_
    simp [ControllerOp.durable, ControllerOp.error?, VaultController.restoreBackup, hs, failure]

lemma continueWithPrimary_ends :
    Ends amb c .continueWithPrimary (failure (c.continueWithPrimary amb).1)
      (c.continueWithPrimary amb).2 := by
  cases hs : c.state with
  | recoveryRequired primary backup last =>
    cases primary with
    | none =>
      rw [VaultController.continueWithPrimary, hs]
      exact .kept (.refl c)
    | some primary =>
      rw [VaultController.continueWithPrimary, hs]
      exact .opened _ (by simp [VaultController.phase, hs])
  | firstRun | locked | unlocked session last =>
    rw [VaultController.continueWithPrimary, hs]
    refine misplaced_ends (fun _ => Iff.rfl) (by simp [VaultController.phase, hs]) ?_
    simp [ControllerOp.durable, ControllerOp.error?, VaultController.continueWithPrimary, hs,
      failure]

lemma untouched_loadSecret (id : SecretId) : Untouched c (c.loadSecret amb id).2 := by
  unfold VaultController.loadSecret
  split
  · next session last hs => exact untouched_updateSession hs (vault_withRecord _ _ _)
  · exact .refl c

lemma addSecret_ends {storage : Storage} {draft : AddSecretDraft} :
    Ends amb c (.addSecret storage draft) (failure (c.addSecret amb storage draft).1)
      (c.addSecret amb storage draft).2 := by
  cases hf : draft.toFields with
  | error e =>
    rw [VaultController.addSecret, hf]
    exact .kept (.refl c)
  | ok fields =>
    rw [VaultController.addSecret, hf]
    refine editAndCommit_ends (fun s => atomic_add s _ _ _) ?_
    rw [ControllerOp.durable, ControllerOp.error?, VaultController.addSecret, hf]

lemma untouched_recordSecretActivity : Untouched c (c.recordSecretActivity amb) := by
  unfold VaultController.recordSecretActivity
  split
  · next session last hs =>
    refine ⟨(phase_of_unlocked hs).symm, rfl, ?_⟩
    simp only [VaultController.held, hs]
  · exact .refl c

/-- What any operation can do. -/
lemma ControllerOp.ends (amb : Ambient) (c : VaultController) (op : ControllerOp) :
    Ends amb c op (op.error? amb c) (op.after amb c) := by
  cases op with
  | create storage passphrase confirmation => exact create_ends
  | unlock storage passphrase => exact unlock_ends
  | restoreBackup storage => exact restoreBackup_ends
  | continueWithPrimary => exact continueWithPrimary_ends
  | lock => exact .closed
  | autoLockIfIdle =>
    rw [ControllerOp.after, ControllerOp.error?, VaultController.autoLockIfIdle]
    split
    · exact .closed
    · exact .kept (.refl c)
  | loadSecret id => exact .kept (untouched_loadSecret id)
  | addSecret storage draft => exact addSecret_ends
  | applySecretUpdate storage update =>
    exact editAndCommit_ends (fun s => atomic_applyRecordReplacement s update) rfl
  | deleteSecret storage id => exact editAndCommit_ends (fun s => atomic_delete s _) rfl
  | resolveBindings bindings => exact .kept (untouched_resolveBindings bindings)
  | recordSecretActivity => exact .kept untouched_recordSecretActivity

/-! ### Sessions -/

/-- A vault that is open was open before, under the same session. -/
def KeepsSession (c c' : VaultController) : Prop :=
  c'.phase = .unlocked → c.phase = .unlocked ∧ c'.sessionId = c.sessionId

lemma KeepsSession.refl (c : VaultController) : KeepsSession c c := fun h => ⟨h, rfl⟩

lemma keepsSession_of_closed {c' : VaultController} (h : c'.phase ≠ .unlocked) :
    KeepsSession c c' := fun hu => (h hu).elim

lemma Untouched.keepsSession {c' : VaultController} (h : Untouched c c') : KeepsSession c c' :=
  fun hu => ⟨h.phase.symm.trans hu, h.session⟩

lemma phase_lock : c.lock.phase ≠ .unlocked := by
  unfold VaultController.lock VaultController.phase
  cases c.state <;> exact fun h => (nomatch h)

lemma keepsSession_editAndCommit {R : Type} {storage : Storage} {e : LadonError}
    {edit : VaultSession → Except LadonError R × VaultSession} :
    KeepsSession c (c.editAndCommit amb storage e edit).2 := by
  unfold VaultController.editAndCommit
  split
  · next session last hs =>
    split
    · exact fun _ => ⟨phase_of_unlocked hs, rfl⟩
    · split
      · exact keepsSession_of_closed fun h => (nomatch h)
      · exact fun _ => ⟨phase_of_unlocked hs, rfl⟩
  · exact .refl c

/-- An operation opens the vault. -/
def ControllerOp.Opens (amb : Ambient) (c : VaultController) (op : ControllerOp) : Prop :=
  c.phase ≠ .unlocked ∧ (op.after amb c).phase = .unlocked

lemma Ends.keepsSession {e : Option LadonError} {c' : VaultController} (h : Ends amb c op e c')
    (hno : ¬ (c.phase ≠ .unlocked ∧ c'.phase = .unlocked)) : KeepsSession c c' := by
  cases h with
  | kept h => exact h.keepsSession
  | edited h => exact fun _ => ⟨phase_of_unlocked h, rfl⟩
  | opened vault h => exact (hno ⟨h, rfl⟩).elim
  | recovers h => exact keepsSession_of_closed fun h => (nomatch h)
  | closed => exact keepsSession_of_closed phase_lock
  | emergency _ _ => exact keepsSession_of_closed fun h => (nomatch h)
  | misplaced _ _ => exact keepsSession_of_closed fun h => (nomatch h)

/-- An operation that does not open the vault leaves its session, or ends it. -/
lemma ControllerOp.keepsSession (h : ¬ op.Opens amb c) : KeepsSession c (op.after amb c) :=
  (op.ends amb c).keepsSession h

/-! ### The law -/

lemma Untouched.hasSession {c' : VaultController} (h : Untouched c c') (hc : HasSession c) :
    HasSession c' := by
  rw [HasSession, h.phase, h.session]
  exact hc

lemma hasSession_lock : HasSession c.lock :=
  iff_of_false (fun h => (nomatch h)) phase_lock

lemma Ends.hasSession {e : Option LadonError} {c' : VaultController} (h : Ends amb c op e c')
    (hc : HasSession c) (ho : Orderly c op) : HasSession c' := by
  cases h with
  | kept h => exact h.hasSession hc
  | edited h => exact iff_of_true (hc.mpr (phase_of_unlocked h)) rfl
  | opened vault _ => exact iff_of_true rfl rfl
  | recovers h =>
    have hnone : ¬ c.sessionId.isSome := by
      rw [hc.not, h]
      decide
    exact iff_of_false hnone (fun h => (nomatch h))
  | closed => exact hasSession_lock
  | emergency _ _ => exact iff_of_false (fun h => (nomatch h)) (fun h => (nomatch h))
  | misplaced h _ => exact (h ho).elim

/-- An open vault has a session, also after an operation out of its place. -/
lemma Ends.session_isSome {e : Option LadonError} {c' : VaultController} (h : Ends amb c op e c')
    (hc : c.phase = .unlocked → c.sessionId.isSome) (hopen : c'.phase = .unlocked) :
    c'.sessionId.isSome := by
  cases h with
  | kept h =>
    obtain ⟨hphase, hsame⟩ := h.keepsSession hopen
    rw [hsame]
    exact hc hphase
  | edited h => exact hc (phase_of_unlocked h)
  | opened vault _ => rfl
  | recovers _ => cases hopen
  | closed => exact absurd hopen phase_lock
  | emergency _ _ => cases hopen
  | misplaced _ _ => cases hopen

lemma Ends.untouched {e : Option LadonError} {c' : VaultController} (h : Ends amb c op e c')
    (ho : Orderly c op) (herror : e ≠ none) (hdurable : op.durable.error? amb c ≠ none) :
    Untouched c c' := by
  cases h with
  | kept h => exact h
  | edited _ => exact (herror rfl).elim
  | opened _ _ => exact (herror rfl).elim
  | recovers _ => exact (herror rfl).elim
  | closed => exact (herror rfl).elim
  | emergency _ hcommit => exact (hdurable hcommit).elim
  | misplaced h _ => exact (h ho).elim

/-- An operation in its place keeps the law. -/
lemma lawful_of_orderly (hc : HasSession c) (ho : Orderly c op) : Lawful amb c op :=
  ⟨(op.ends amb c).hasSession hc ho, (op.ends amb c).untouched ho⟩

/-- An operation out of its place fails and locks the vault. -/
lemma after_of_disorderly (ho : ¬ Orderly c op) :
    op.error? amb c ≠ none ∧ op.durable.error? amb c ≠ none ∧ (op.after amb c).phase = .locked ∧
      c.phase ≠ .locked := by
  cases op with
  | restoreBackup storage =>
    obtain ⟨hrecovery, hlocked⟩ := not_or.mp ho
    cases hs : c.state with
    | recoveryRequired primary backup last =>
      exact (hrecovery (by rw [VaultController.phase, hs])).elim
    | firstRun | locked | unlocked session last =>
      refine ⟨?_, ?_, ?_, hlocked⟩
      · simp [ControllerOp.error?, VaultController.restoreBackup, hs, failure]
      · simp [ControllerOp.durable, ControllerOp.error?, VaultController.restoreBackup, hs, failure]
      · simp [ControllerOp.after, VaultController.restoreBackup, hs, VaultController.phase]
  | continueWithPrimary =>
    obtain ⟨hrecovery, hlocked⟩ := not_or.mp ho
    cases hs : c.state with
    | recoveryRequired primary backup last =>
      exact (hrecovery (by rw [VaultController.phase, hs])).elim
    | firstRun | locked | unlocked session last =>
      refine ⟨?_, ?_, ?_, hlocked⟩
      · simp [ControllerOp.error?, VaultController.continueWithPrimary, hs, failure]
      · simp [ControllerOp.durable, ControllerOp.error?, VaultController.continueWithPrimary, hs,
          failure]
      · simp [ControllerOp.after, VaultController.continueWithPrimary, hs, VaultController.phase]
  | create | unlock | lock | autoLockIfIdle | loadSecret | addSecret | applySecretUpdate
  | deleteSecret | resolveBindings | recordSecretActivity => exact (ho trivial).elim

lemma orderly_of_lawful (h : Lawful amb c op) : Orderly c op := by
  by_contra ho
  obtain ⟨herror, hdurable, hafter, hlocked⟩ := @after_of_disorderly _ amb c op ho
  exact hlocked ((h.atomic herror hdurable).phase.symm.trans hafter)

/-- Any operation, whether in its place or not. -/
def OpStep (c : VaultController) (a : Ambient × ControllerOp) (c' : VaultController) : Prop :=
  c' = a.2.after a.1 c

/-- An operation in its place. -/
def OrderlyStep (c : VaultController) (a : Ambient × ControllerOp) (c' : VaultController) : Prop :=
  Orderly c a.2 ∧ OpStep c a c'

/-- **The controller has a session exactly while the vault is open**, after any operations that were
each in their place, whatever the files answered and whichever commits failed; and from there an
operation keeps the law exactly where it is in its place. -/
theorem lawful_iff_orderly (fileExists : Bool) (steps : List (Ambient × ControllerOp))
    (c : VaultController) (hrun : Run OrderlyStep (VaultController.new fileExists) steps c) :
    HasSession c ∧ ∀ amb op, Lawful amb c op ↔ Orderly c op := by
  have hnew : HasSession (VaultController.new fileExists) := by
    cases fileExists <;> exact iff_of_false (fun h => (nomatch h)) (fun h => (nomatch h))
  have hc : HasSession c := hrun.invariant hnew fun t a u ht hs => by
    obtain ⟨ho, rfl⟩ := hs
    exact (lawful_of_orderly ht ho).session
  exact ⟨hc, fun amb op => ⟨orderly_of_lawful, lawful_of_orderly hc⟩⟩

end Law

/-! ### A recovery that nobody offered -/

section Misplaced

local instance plainNames : UnicodeNormalization := asciiNormalization

def openAmbient : Ambient := ⟨0, .filled 3, ⟨.filled 4⟩⟩

/-- Files that open to an empty vault. -/
def openStorage : Storage where
  ensurePrivateParent := .ok ()
  createVault := fun _ _ => .error .cryptoUnavailable
  openVault := fun _ => .ok (.primary (plainVault 0) none)
  commit := fun _ => .ok ()

def openedController : VaultController :=
  (VaultController.new true).unlock openAmbient openStorage "correct horse" |>.2

theorem lawful_iff_orderly_unlocked :
    Run OrderlyStep (VaultController.new true)
      [(openAmbient, .unlock openStorage "correct horse")] openedController ∧
    openedController.phase = .unlocked ∧ HasSession openedController ∧
    Lawful openAmbient openedController (.deleteSecret openStorage openAmbient.secretId) := by
  have hrun : Run OrderlyStep (VaultController.new true)
      [(openAmbient, .unlock openStorage "correct horse")] openedController :=
    Run.single ⟨trivial, rfl⟩
  have hlaw := lawful_iff_orderly true _ _ hrun
  exact ⟨hrun, rfl, hlaw.1, (hlaw.2 _ _).mpr trivial⟩

/-- **A recovery chosen on an open vault locks it and leaves its session behind**, though it is
refused as an invalid request and no commit failed. -/
theorem restoreBackup_breaks_law :
    ∃ c, Run OpStep (VaultController.new true)
      [(openAmbient, .unlock openStorage "correct horse"),
        (openAmbient, .restoreBackup openStorage)] c ∧
    c.phase = .locked ∧ c.sessionId.isSome ∧ ¬ HasSession c ∧
    ControllerOp.error? openAmbient openedController (.restoreBackup openStorage) =
      some .invalidRequest ∧
    openedController.phase = .unlocked := by
  refine ⟨_, Run.cons rfl (Run.single rfl), rfl, rfl, ?_, rfl, rfl⟩
  intro h
  cases h.mp rfl

end Misplaced

end Ladon.Controller

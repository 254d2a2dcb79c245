import Ladon.Crypto
import Ladon.Lib.Run

/-!
The two copies of a vault on disk: how a commit replaces them, and which of them is opened.

A commit is a sequence of steps on the file system, any of which may fail or be the last before a
crash. A rename is atomic, but until the directory is synchronized a crash may bring back what was
there before: each copy is kept with the versions a crash can still leave in its place. Candidate
files are whatever a step made of them; opening never looks at them.
-/

namespace Ladon.Store

open Ladon.Error Ladon.Model Ladon.Codec Ladon.Crypto Ladon.Lib Ladon.Lib.Utf8

/-- A directory entry: what it names now, and what a crash may leave it naming. -/
structure Slot where
  current : Option Bytes
  older : List (Option Bytes) := []

def Slot.versions (s : Slot) : List (Option Bytes) := s.current :: s.older

def Slot.replace (s : Slot) (file : Bytes) : Slot := ⟨some file, s.versions⟩

def Slot.sync (s : Slot) : Slot := ⟨s.current, []⟩

structure Disk where
  primary : Slot
  backup : Slot
  first : Option Bytes := none
  second : Option Bytes := none

/-- The steps of a commit. -/
inductive Stage
  | writeFirst
  | writeSecond
  | verifyFirst
  | verifySecond
  | replaceBackup
  | syncBackup
  | replacePrimary
  | syncPrimary
  deriving DecidableEq

def Stage.next : Stage → Option Stage
  | .writeFirst => some .writeSecond
  | .writeSecond => some .verifyFirst
  | .verifyFirst => some .verifySecond
  | .verifySecond => some .replaceBackup
  | .replaceBackup => some .syncBackup
  | .syncBackup => some .replacePrimary
  | .replacePrimary => some .syncPrimary
  | .syncPrimary => none

/-- A step that succeeds; a candidate that does not hold what was written cannot be verified. -/
def Stage.perform (encrypted : Bytes) (d : Disk) : Stage → Option Disk
  | .writeFirst => some { d with first := some encrypted }
  | .writeSecond => some { d with second := some encrypted }
  | .verifyFirst => if d.first = some encrypted then some d else none
  | .verifySecond => if d.second = some encrypted then some d else none
  | .replaceBackup => d.first.map fun c => { d with backup := d.backup.replace c, first := none }
  | .syncBackup => some { d with primary := d.primary.sync, backup := d.backup.sync }
  | .replacePrimary => d.second.map fun c => { d with primary := d.primary.replace c, second := none }
  | .syncPrimary => some { d with primary := d.primary.sync, backup := d.backup.sync }

section Vaults

variable [UnicodeNormalization]

inductive VaultOpen
  | primary (vault : UnlockedVault) (newerBackup : Option UnlockedVault)
  | restoreRequired (backup : UnlockedVault)

/-! ### Opening -/

section Open

variable (unlockVault : Bytes → Bytes → Except LadonError UnlockedVault) (passphrase : Bytes)

def openCopy (file : Option Bytes) : Option UnlockedVault :=
  match file with
  | none => none
  | some bytes =>
    if maxVaultFileBytes < bytes.length then none else (unlockVault bytes passphrase).toOption

/-- The backup, where it is a later revision of the same vault. -/
def newerBackup (vault backup : UnlockedVault) : Option UnlockedVault :=
  if backup.payload.vaultId = vault.payload.vaultId ∧
      vault.payload.revision < backup.payload.revision then some backup else none

def openVault (d : Disk) : Except LadonError VaultOpen :=
  match openCopy unlockVault passphrase d.primary.current,
    openCopy unlockVault passphrase d.backup.current with
  | some vault, some backup => .ok (.primary vault (newerBackup vault backup))
  | some vault, none => .ok (.primary vault none)
  | none, some backup => .ok (.restoreRequired backup)
  | none, none => .error .vaultUnavailable

end Open

/-! ### Commits, failures and crashes -/

/-- The store with the commit in progress; and, for the record, the payload acknowledged last and
those whose commit was attempted since. -/
structure Machine where
  disk : Disk
  job : Option (Stage × UnlockedVault × Bytes) := none
  acknowledged : VaultPayload
  attempted : List VaultPayload := []

/-- What happens to the store: a commit begins, its next step succeeds or fails, or the machine
crashes. A failure removes the candidates as far as it can; a crash leaves each copy at one of the
versions it may have, and the candidates as they come. -/
inductive Event
  | commit (vault : UnlockedVault) (encrypted : Bytes)
  | succeed
  | fail (first second : Option Bytes)
  | crash (primary backup first second : Option Bytes)

/-- The store behind a step of a commit that succeeded. -/
def Machine.advance (m : Machine) (stage : Stage) (vault : UnlockedVault) (encrypted : Bytes)
    (d : Disk) : Machine :=
  match stage.next with
  | some stage => { m with disk := d, job := some (stage, vault, encrypted) }
  | none => { m with disk := d, job := none, acknowledged := vault.payload, attempted := [] }

section Steps

variable (aead : Aead) (unlockVault : Bytes → Bytes → Except LadonError UnlockedVault)
  (passphrase : Bytes)

/-- A file that was sealed from a vault and that the passphrase opens. -/
def Sealed (vault : UnlockedVault) (encrypted : Bytes) : Prop :=
  (∃ nonce, sealPayload aead vault.payload vault.keyMaterial nonce = .ok encrypted) ∧
    ∃ v, unlockVault encrypted passphrase = .ok v ∧ v.payload = vault.payload

inductive Step : Machine → Event → Machine → Prop
  | commit {m : Machine} {vault : UnlockedVault} {encrypted : Bytes} (idle : m.job = none)
      (sameVault : vault.payload.vaultId = m.acknowledged.vaultId)
      (isSealed : Sealed aead unlockVault passphrase vault encrypted) :
      Step m (.commit vault encrypted) { m with
        job := some (.writeFirst, vault, encrypted)
        attempted := vault.payload :: m.attempted }
  | succeed {m : Machine} {stage : Stage} {vault : UnlockedVault} {encrypted : Bytes} {d : Disk}
      (job : m.job = some (stage, vault, encrypted)) (done : stage.perform encrypted m.disk = some d) :
      Step m .succeed (m.advance stage vault encrypted d)
  | fail {m : Machine} {stage : Stage} {vault : UnlockedVault} {encrypted : Bytes}
      {first second : Option Bytes} (job : m.job = some (stage, vault, encrypted)) :
      Step m (.fail first second)
        { m with disk := { m.disk with first := first, second := second }, job := none }
  | crash {m : Machine} {primary backup first second : Option Bytes}
      (hp : primary ∈ m.disk.primary.versions) (hb : backup ∈ m.disk.backup.versions) :
      Step m (.crash primary backup first second)
        { m with disk := ⟨⟨primary, []⟩, ⟨backup, []⟩, first, second⟩, job := none }

end Steps

end Vaults

/-! ### What a commit has done -/

/-- What the steps before a stage have left on disk. -/
def Progress (encrypted : Bytes) (d : Disk) : Stage → Prop
  | .writeFirst => True
  | .writeSecond => d.first = some encrypted
  | .verifyFirst | .verifySecond | .replaceBackup =>
    d.first = some encrypted ∧ d.second = some encrypted
  | .syncBackup => d.backup.current = some encrypted ∧ d.second = some encrypted
  | .replacePrimary => d.backup = ⟨some encrypted, []⟩ ∧ d.second = some encrypted
  | .syncPrimary => d.backup = ⟨some encrypted, []⟩ ∧ d.primary.current = some encrypted

/-- Both copies, safe from a crash. -/
def Finished (encrypted : Bytes) (d : Disk) : Prop :=
  d.primary = ⟨some encrypted, []⟩ ∧ d.backup = ⟨some encrypted, []⟩

/-- The copies after a step are those from before it and the new one. -/
def Grows (encrypted : Bytes) (d d' : Disk) : Prop :=
  (∀ x ∈ d'.primary.versions, x = some encrypted ∨ x ∈ d.primary.versions) ∧
    ∀ x ∈ d'.backup.versions, x = some encrypted ∨ x ∈ d.backup.versions

lemma Slot.mem_sync {s : Slot} {x : Option Bytes} (h : x ∈ s.sync.versions) : x ∈ s.versions := by
  have : x = s.current := by simpa [Slot.versions, Slot.sync] using h
  rw [this]
  exact List.mem_cons_self

lemma Slot.mem_replace {s : Slot} {c : Bytes} {x : Option Bytes} (h : x ∈ (s.replace c).versions) :
    x = some c ∨ x ∈ s.versions := by
  simpa [Slot.versions, Slot.replace] using h

lemma perform_verifyFirst {encrypted : Bytes} {d : Disk} (h : d.first = some encrypted) :
    Stage.verifyFirst.perform encrypted d = some d := if_pos h

lemma perform_verifySecond {encrypted : Bytes} {d : Disk} (h : d.second = some encrypted) :
    Stage.verifySecond.perform encrypted d = some d := if_pos h

/-- One step of a commit. -/
lemma perform_spec {encrypted : Bytes} {d d' : Disk} {stage : Stage}
    (hp : Progress encrypted d stage) (h : stage.perform encrypted d = some d') :
    Grows encrypted d d' ∧
      match stage.next with
      | some next => Progress encrypted d' next
      | none => Finished encrypted d' := by
  have same : ∀ {e : Disk}, e.primary = d.primary → e.backup = d.backup → Grows encrypted d e := by
    intro e h1 h2
    exact ⟨fun x hx => .inr (h1 ▸ hx), fun x hx => .inr (h2 ▸ hx)⟩
  cases stage with
  | writeFirst => cases h; exact ⟨same rfl rfl, rfl⟩
  | writeSecond => cases h; exact ⟨same rfl rfl, hp, rfl⟩
  | verifyFirst =>
    rw [perform_verifyFirst hp.1] at h
    cases h
    exact ⟨same rfl rfl, hp⟩
  | verifySecond =>
    rw [perform_verifySecond hp.2] at h
    cases h
    exact ⟨same rfl rfl, hp⟩
  | replaceBackup =>
    rw [Stage.perform, hp.1] at h
    cases h
    exact ⟨⟨fun x hx => .inr hx, fun x hx => Slot.mem_replace hx⟩, rfl, hp.2⟩
  | syncBackup =>
    cases h
    refine ⟨⟨fun x hx => .inr (Slot.mem_sync hx), fun x hx => .inr (Slot.mem_sync hx)⟩, ?_, hp.2⟩
    simp only [Slot.sync, hp.1]
  | replacePrimary =>
    rw [Stage.perform, hp.2] at h
    cases h
    exact ⟨⟨fun x hx => Slot.mem_replace hx, fun x hx => .inr hx⟩, hp.1, rfl⟩
  | syncPrimary =>
    cases h
    refine ⟨⟨fun x hx => .inr (Slot.mem_sync hx), fun x hx => .inr (Slot.mem_sync hx)⟩, ?_, ?_⟩
    · simp only [Slot.sync, hp.2]
    · simp only [Slot.sync, hp.1]

/-! ### What every run keeps -/

section Runs

variable [UnicodeNormalization] {aead : Aead}
  {unlockVault : Bytes → Bytes → Except LadonError UnlockedVault} {passphrase : Bytes}

variable (unlockVault passphrase) in
/-- The entry names a file that opens to one of the payloads. -/
def Holds (payloads : List VaultPayload) (x : Option Bytes) : Prop :=
  ∃ v, openCopy unlockVault passphrase x = some v ∧ v.payload ∈ payloads

lemma Holds.mono {l l' : List VaultPayload} {x : Option Bytes} (h : Holds unlockVault passphrase l x)
    (hl : ∀ p ∈ l, p ∈ l') : Holds unlockVault passphrase l' x := by
  obtain ⟨v, hv, hm⟩ := h
  exact ⟨v, hv, hl _ hm⟩

lemma Sealed.holds {vault : UnlockedVault} {encrypted : Bytes}
    (h : Sealed aead unlockVault passphrase vault encrypted) :
    Holds unlockVault passphrase [vault.payload] (some encrypted) := by
  obtain ⟨⟨nonce, hseal⟩, v, hopen, hpayload⟩ := h
  have hlen : ¬ maxVaultFileBytes < encrypted.length := Nat.not_lt.mpr (sealPayload_length hseal)
  refine ⟨v, ?_, by simp [hpayload]⟩
  rw [openCopy, if_neg hlen, hopen]
  rfl

variable (unlockVault passphrase) in
/-- The invariant of a store after an acknowledged commit. -/
structure Inv (m : Machine) : Prop where
  primary : ∀ x ∈ m.disk.primary.versions,
    Holds unlockVault passphrase (m.acknowledged :: m.attempted) x
  backup : ∀ x ∈ m.disk.backup.versions,
    Holds unlockVault passphrase (m.acknowledged :: m.attempted) x
  sameVault : ∀ p ∈ m.attempted, p.vaultId = m.acknowledged.vaultId
  job : ∀ stage vault encrypted, m.job = some (stage, vault, encrypted) →
    Progress encrypted m.disk stage ∧ vault.payload ∈ m.attempted ∧
      Holds unlockVault passphrase [vault.payload] (some encrypted)

lemma Inv.commit {m : Machine} (h : Inv unlockVault passphrase m) {vault : UnlockedVault}
    {encrypted : Bytes} (hv : vault.payload.vaultId = m.acknowledged.vaultId)
    (hs : Sealed aead unlockVault passphrase vault encrypted) :
    Inv unlockVault passphrase { m with
      job := some (.writeFirst, vault, encrypted)
      attempted := vault.payload :: m.attempted } := by
  have more : ∀ p ∈ m.acknowledged :: m.attempted,
      p ∈ m.acknowledged :: vault.payload :: m.attempted := by
    intro p hp
    rcases List.mem_cons.mp hp with rfl | hp
    · simp
    · simp [hp]
  refine ⟨fun x hx => (h.primary x hx).mono more, fun x hx => (h.backup x hx).mono more, ?_, ?_⟩
  · intro p hp
    rcases List.mem_cons.mp hp with rfl | hp
    · exact hv
    · exact h.sameVault p hp
  · rintro stage v e hj
    cases hj
    exact ⟨trivial, by simp, hs.holds⟩

lemma Inv.succeed {m : Machine} (h : Inv unlockVault passphrase m) {stage : Stage}
    {vault : UnlockedVault} {encrypted : Bytes} {d : Disk}
    (hj : m.job = some (stage, vault, encrypted))
    (hd : stage.perform encrypted m.disk = some d) :
    Inv unlockVault passphrase (m.advance stage vault encrypted d) := by
  obtain ⟨hprog, hmem, hholds⟩ := h.job stage vault encrypted hj
  obtain ⟨⟨hgp, hgb⟩, hnext⟩ := perform_spec hprog hd
  have hnew : Holds unlockVault passphrase (m.acknowledged :: m.attempted) (some encrypted) :=
    hholds.mono fun p hp => by rw [List.mem_singleton.mp hp]; exact List.mem_cons_of_mem _ hmem
  unfold Machine.advance
  cases hn : stage.next with
  | some next =>
    simp only [hn] at hnext
    refine ⟨fun x hx => ?_, fun x hx => ?_, h.sameVault, ?_⟩
    · rcases hgp x hx with rfl | hx
      · exact hnew
      · exact h.primary x hx
    · rcases hgb x hx with rfl | hx
      · exact hnew
      · exact h.backup x hx
    · rintro stage' vault' encrypted' hj'
      cases hj'
      exact ⟨hnext, hmem, hholds⟩
  | none =>
    -- The commit is acknowledged: both copies are the new file, with nothing behind them.
    simp only [hn] at hnext
    obtain ⟨hp, hb⟩ := hnext
    refine ⟨fun x hx => ?_, fun x hx => ?_, fun p hp => (List.not_mem_nil hp).elim, ?_⟩
    · have : x = some encrypted := by simpa [hp, Slot.versions] using hx
      rw [this]
      exact hholds
    · have : x = some encrypted := by simpa [hb, Slot.versions] using hx
      rw [this]
      exact hholds
    · rintro stage' vault' encrypted' hj'
      cases hj'

lemma Inv.step {m m' : Machine} {e : Event} (h : Inv unlockVault passphrase m)
    (hs : Step aead unlockVault passphrase m e m') : Inv unlockVault passphrase m' := by
  cases hs with
  | commit _ hv hsealed => exact h.commit hv hsealed
  | succeed hj hd => exact h.succeed hj hd
  | fail hj =>
    exact ⟨h.primary, h.backup, h.sameVault, by rintro _ _ _ hj'; cases hj'⟩
  | crash hp hb =>
    refine ⟨fun x hx => ?_, fun x hx => ?_, h.sameVault, by rintro _ _ _ hj'; cases hj'⟩
    · rw [List.mem_singleton.mp hx]; exact h.primary _ hp
    · rw [List.mem_singleton.mp hx]; exact h.backup _ hb

variable (aead unlockVault passphrase) in
/-- The store right behind an acknowledged commit of a vault. -/
def JustCommitted (m : Machine) (vault : UnlockedVault) (encrypted : Bytes) : Prop :=
  Sealed aead unlockVault passphrase vault encrypted ∧ Finished encrypted m.disk ∧ m.job = none ∧
    m.acknowledged = vault.payload ∧ m.attempted = []

lemma JustCommitted.inv {m : Machine} {vault : UnlockedVault} {encrypted : Bytes}
    (h : JustCommitted aead unlockVault passphrase m vault encrypted) :
    Inv unlockVault passphrase m := by
  obtain ⟨hs, ⟨hp, hb⟩, hj, ha, hat⟩ := h
  have hholds : Holds unlockVault passphrase (m.acknowledged :: m.attempted) (some encrypted) := by
    rw [ha, hat]
    exact hs.holds
  refine ⟨fun x hx => ?_, fun x hx => ?_, fun p hp => ?_, fun stage v e hj' => ?_⟩
  · have : x = some encrypted := by simpa [hp, Slot.versions] using hx
    rwa [this]
  · have : x = some encrypted := by simpa [hb, Slot.versions] using hx
    rwa [this]
  · rw [hat] at hp
    exact (List.not_mem_nil hp).elim
  · rw [hj] at hj'
    cases hj'

/-- **The two copies are never both lost.** From an acknowledged commit on, through any number of
commits with a failure or a crash at any of their steps, the primary opens to the payload
acknowledged last or to one whose commit was attempted since, so does the backup, and the backup is
offered exactly where it is the later of the two. -/
theorem open_after_crashes (m₀ m : Machine) (vault : UnlockedVault) (encrypted : Bytes)
    (h₀ : JustCommitted aead unlockVault passphrase m₀ vault encrypted) (events : List Event)
    (hrun : Run (Step aead unlockVault passphrase) m₀ events m) :
    ∃ primary backup,
      openCopy unlockVault passphrase m.disk.primary.current = some primary ∧
      openCopy unlockVault passphrase m.disk.backup.current = some backup ∧
      primary.payload ∈ m.acknowledged :: m.attempted ∧
      backup.payload ∈ m.acknowledged :: m.attempted ∧
      openVault unlockVault passphrase m.disk = .ok (.primary primary
        (if primary.payload.revision < backup.payload.revision then some backup else none)) := by
  have hinv : Inv unlockVault passphrase m :=
    hrun.invariant h₀.inv fun _ _ _ ht hs => ht.step hs
  obtain ⟨p, hp, hpm⟩ := hinv.primary _ List.mem_cons_self
  obtain ⟨b, hb, hbm⟩ := hinv.backup _ List.mem_cons_self
  have hid : ∀ q ∈ m.acknowledged :: m.attempted, q.vaultId = m.acknowledged.vaultId := by
    intro q hq
    rcases List.mem_cons.mp hq with rfl | hq
    · rfl
    · exact hinv.sameVault q hq
  have hsame : b.payload.vaultId = p.payload.vaultId := (hid _ hbm).trans (hid _ hpm).symm
  refine ⟨p, b, hp, hb, hpm, hbm, ?_⟩
  rw [openVault, hp, hb]
  simp only [newerBackup, hsame, true_and]

end Runs

/-! ### A crash between the two copies -/

section Crash

local instance plainText : UnicodeNormalization := asciiNormalization

/-- A cipher that only appends an empty tag. -/
def plainAead : Aead where
  encrypt := fun _ _ p _ => .ok (p ++ List.replicate tagBytes 0)
  decrypt := fun _ _ c _ => .ok (c.take (c.length - tagBytes))
  length_encrypt := by rintro _ _ p _ c h; cases h; simp
  decrypt_encrypt := by rintro _ _ p _ c h; cases h; simp

def plainKeys : KeyMaterial := .blank

def plainNonce : Nonce := ⟨List.replicate nonceBytes 0, by simp⟩

/-- An empty vault at a revision. -/
def plainVault (revision : ℕ) : UnlockedVault :=
  ⟨⟨⟨.filled 7⟩, revision, [], defaultIdleTimeoutSeconds, .empty⟩, plainKeys⟩

def plainFile (revision : ℕ) : Bytes :=
  Cbor.be 8 (plainVault revision).payload.encoded.length ++ plainNonce.bytes ++
    ((plainVault revision).payload.encoded ++ List.replicate tagBytes 0)

/-- What opens the files of that cipher. -/
def plainUnlock (file _passphrase : Bytes) : Except LadonError UnlockedVault := do
  let payload ← decodePayload ((file.drop (8 + nonceBytes)).take
    (file.length - payloadFixedBytes))
  return ⟨payload, plainKeys⟩

def plainStart : Machine where
  disk := ⟨⟨some (plainFile 0), []⟩, ⟨some (plainFile 0), []⟩, none, none⟩
  acknowledged := (plainVault 0).payload

lemma sealed_plain {revision : ℕ} (h : plainUnlock (plainFile revision) [] = .ok (plainVault revision))
    (hlen : (plainVault revision).payload.encoded.length ≤ maxVaultPayloadBytes) :
    Sealed plainAead plainUnlock [] (plainVault revision) (plainFile revision) := by
  refine ⟨⟨.ok plainNonce, ?_⟩, _, h, rfl⟩
  rw [sealPayload, encodePayload, if_neg (Nat.not_lt.mpr hlen)]
  rfl

/-- The second commit at one of its steps. -/
def plainDuring (stage : Stage) (d : Disk) : Machine where
  disk := d
  job := some (stage, plainVault 1, plainFile 1)
  acknowledged := (plainVault 0).payload
  attempted := [(plainVault 1).payload]

lemma plainDuring_step {stage next : Stage} {d d' : Disk} (hn : stage.next = some next)
    (hd : stage.perform (plainFile 1) d = some d') :
    Step plainAead plainUnlock [] (plainDuring stage d) .succeed (plainDuring next d') := by
  have h := @Step.succeed _ plainAead plainUnlock [] (plainDuring stage d) _ _ _ _ rfl hd
  rw [Machine.advance, hn] at h
  exact h

theorem open_after_crashes_plain : ∃ m events,
    Run (Step plainAead plainUnlock []) plainStart events m ∧
    ∃ primary backup, openVault plainUnlock [] m.disk = .ok (.primary primary
      (if primary.payload.revision < backup.payload.revision then some backup else none)) := by
  have h0 : Sealed plainAead plainUnlock [] (plainVault 0) (plainFile 0) :=
    sealed_plain (by decide +kernel) (by decide +kernel)
  have h1 : Sealed plainAead plainUnlock [] (plainVault 1) (plainFile 1) :=
    sealed_plain (by decide +kernel) (by decide +kernel)
  have s1 : Run (Step plainAead plainUnlock []) plainStart _ (plainDuring .writeFirst _) :=
    Run.single (@Step.commit _ plainAead plainUnlock [] plainStart (plainVault 1) (plainFile 1) rfl
      rfl h1)
  have s2 := (s1.snoc (plainDuring_step rfl rfl)).snoc (plainDuring_step rfl rfl)
  have s3 := (s2.snoc (plainDuring_step rfl (perform_verifyFirst rfl))).snoc
    (plainDuring_step rfl (perform_verifySecond rfl))
  have s4 := s3.snoc (plainDuring_step rfl rfl)
  have s5 := s4.snoc (@Step.crash _ plainAead plainUnlock [] _ (some (plainFile 0))
    (some (plainFile 1)) none none List.mem_cons_self List.mem_cons_self)
  obtain ⟨p, b, -, -, -, -, h⟩ := open_after_crashes plainStart _ (plainVault 0) (plainFile 0)
    ⟨h0, ⟨rfl, rfl⟩, rfl, rfl, rfl⟩ _ s5
  exact ⟨_, _, s5, p, b, h⟩

end Crash

end Ladon.Store

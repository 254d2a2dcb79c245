import Ladon.ApprovalLifetime
import Ladon.Broker
import Ladon.SecretDetail
import Ladon.SessionAuth
import Ladon.UnlockRequest

/-!
The desktop: what a human sees and does, and what the desktop asks of the broker on the human's word.

Protected actions need the session's PIN, or Touch ID, which is asked for in one frame and answers in
a later one; what it was asked for is kept until then. What the controller, the broker and the
platform answer in the course of an event comes with the event.
-/

namespace Ladon.Desktop

open Ladon.Error Ladon.Model Ladon.Vault Ladon.Approval Ladon.Grants Ladon.Controller
  Ladon.SecretEditor Ladon.SecretDetail Ladon.SessionAuth Ladon.ApprovalLifetime Ladon.UnlockRequest
  Ladon.Lib Ladon.Lib.Utf8

/-! ### What the broker tells of agents -/

structure AgentGrantView where
  clientSessionId : Uuid
  clientLabel : String
  secretId : SecretId
  secretName : String
  remaining : Duration
  expiresWithSession : Bool
  running : Bool
  unattended : Bool
  expiresAt : Option ℤ
  deriving DecidableEq

structure AgentSessionView where
  details : SessionDetails
  grants : List AgentGrantView
  running : Bool
  waiting : Bool

/-- A consent to unattended use of the secrets there are, before it is confirmed. -/
structure UnattendedConsent where
  context : UnattendedContext
  secrets : List SecretMetadata
  deriving DecidableEq

/-! ### How long access is given for -/

inductive ApprovalLifetime
  | thirtyMinutes
  | endOfDay
  | session
  deriving DecidableEq

/-- The decision an approval is made with, given the end of the day. -/
def ApprovalLifetime.decision (dayEnd : Except LadonError ℤ) :
    ApprovalLifetime → Except LadonError HumanDecision
  | .thirtyMinutes => .ok (.approveFor (30 * 60 * 10 ^ 9))
  | .endOfDay => dayEnd.map .approveUntil
  | .session => .ok .approveSession

inductive UnattendedLifetime
  | thirtyMinutes
  | twoHours
  | eightHours
  | twelveHours
  | custom
  deriving DecidableEq

/-- The seconds of a lifetime; a custom one has none. -/
def UnattendedLifetime.seconds : UnattendedLifetime → Option ℕ
  | .thirtyMinutes => some (30 * 60)
  | .twoHours => some (2 * 3600)
  | .eightHours => some (8 * 3600)
  | .twelveHours => some (12 * 3600)
  | .custom => none

def UnattendedLifetime.deadlineAt (now : ℤ) (lifetime : UnattendedLifetime) :
    Except LadonError ℤ :=
  match lifetime.seconds.bind fun seconds => systemTimeCheckedAdd now (seconds * 10 ^ 9) with
  | some deadline => .ok deadline
  | none => .error .invalidRequest

/-- What the desktop runs on: the hash of PINs, and the C library in its time zone. -/
structure Platform where
  argon2 : PinHash
  offset : ℤ → ℤ
  libc : LibC offset

structure UnattendedConfirmation where
  consent : UnattendedConsent
  capturedAt : ℤ
  lifetime : UnattendedLifetime
  localTime : String

def UnattendedConfirmation.deadline (platform : Platform) (c : UnattendedConfirmation) :
    Except LadonError ℤ :=
  if c.lifetime = .custom then localDeadlineAt platform.libc c.localTime c.capturedAt
  else c.lifetime.deadlineAt c.capturedAt

/-! ### The state -/

inductive DesktopLockState
  | active
  | locking (epoch : ℕ)
  | locked (epoch : ℕ)
  deriving DecidableEq

/-- What Touch ID was asked for. -/
inductive TouchIdTarget
  | unattended (consent : UnattendedConsent) (deadline : ℤ)
  | appUnlock (vaultSessionId : Uuid) (lockEpoch : ℕ)
  | secret (attempt : LocalAuthAttempt) (vaultSessionId : Uuid)
  | approval (approvalId vaultSessionId : Uuid) (lifetime : ApprovalLifetime)
  deriving DecidableEq

inductive ConfirmationAction
  | touchId
  | pin
  deriving DecidableEq

inductive AppUnlockStart
  | touchId
  | pin
  | hardLock
  deriving DecidableEq

def appUnlockStart (touchIdAvailable pinConfigured : Bool) : AppUnlockStart :=
  if touchIdAvailable then .touchId else if pinConfigured then .pin else .hardLock

def canFinishSessionSetup (touchIdAvailable pinConfigured : Bool) : Bool :=
  touchIdAvailable || pinConfigured

def confirmationActions (touchIdAvailable pinConfigured : Bool) : List ConfirmationAction :=
  (if touchIdAvailable then [.touchId] else []) ++ if pinConfigured then [.pin] else []

def managerRenderingAllowed (phase : VaultUiPhase) (desktopLock : DesktopLockState) : Bool :=
  phase = .unlocked && desktopLock = .active

structure Notice where
  text : String
  danger : Bool

structure SessionEditor where
  connectionId : Option Uuid
  name : String
  note : String

structure LadonDesktop where
  agentGrants : List AgentGrantView := []
  agentSessions : List AgentSessionView := []
  sessionEditors : Table Uuid SessionEditor := .empty
  unattendedConfirmation : Option UnattendedConfirmation := none
  agentCommandActive : Bool := false
  agentGrantsSession : Option Uuid := none
  agentGrantsErrorShown : Bool := false
  passphrase : String := ""
  confirmation : String := ""
  sessionPin : String := ""
  sessionPinConfirmation : String := ""
  localPin : String := ""
  sessionConfirmation : Option SessionConfirmation := none
  desktopLock : DesktopLockState := .active
  desktopLockEpoch : ℕ := 0
  /-- The epoch of the lock that is under way. -/
  pendingAppLock : Option ℕ := none
  appUnlockPinVisible : Bool := false
  pendingTouchId : Option TouchIdTarget := none
  focusedApproval : Option Uuid := none
  draft : AddSecretDraft := ⟨"", [⟨"value", ""⟩]⟩
  addFormError : Option AddDraftValidationError := none
  notice : Option Notice := none
  detail : SecretDetailState := .initial
  unlockConfirmation : Bool := false
  discardConfirmation : Bool := false
  pendingDelete : Option SecretId := none
  lastPhase : VaultUiPhase
  focusedUnlock : Option Uuid := none
  focusAuthInput : Bool := false

/-! ### What is asked for and answered -/

/-- What the controller says when it is looked at. -/
structure ControllerView where
  phase : VaultUiPhase
  sessionId : Option Uuid

/-- The places where an event looks at the controller. -/
inductive Look
  | first
  | second
  | third
  | rejected
  | frame
  | refresh
  | ready
  deriving DecidableEq

/-- What comes from outside in the course of an event. -/
structure Answers where
  controller : Look → Except LadonError ControllerView
  touchIdAvailable : Bool
  /-- Touch ID could be asked for. -/
  prompt : Except LadonError Unit
  /-- The result of what Touch ID was asked for, once there is one. -/
  touchIdResult : Option (Except LadonError Unit)
  pendingApproval : Except LadonError (Option PendingApproval)
  currentPending : Except LadonError (Option PendingApproval)
  /-- The result of the call of the broker or the controller that the event is about. -/
  called : Except LadonError Unit
  /-- The result of `cancel_active_run_and_lock`. -/
  vaultLocked : Except LadonError Unit
  beginAppLock : Except LadonError ℕ
  /-- The result of the lock of the application that is under way, once there is one. -/
  appLockResult : Option (Except LadonError Unit)
  externalLock : Except LadonError (Option ℕ)
  acknowledged : Except LadonError Unit
  externalLockInProgress : Bool
  idle : Bool
  autoLocked : Bool
  now : ℤ
  salt : Option { b : Bytes // b.length = pinSaltBytes }
  loaded : Except LadonError EditSecretDraft
  /-- The result of adding a secret, with the draft behind it. -/
  added : Except LadonError Unit × AddSecretDraft
  consent : Except LadonError UnattendedConsent
  access : Except LadonError (List AgentGrantView × List AgentSessionView × Bool)
  pendingUnlock : Option PendingUnlock
  closeRequested : Bool

namespace Answers

def sessionAt (a : Answers) (look : Look) : Except LadonError Uuid :=
  match a.controller look with
  | .error e => .error e
  | .ok view =>
    match view.sessionId with
    | some session => .ok session
    | none => .error .vaultLocked

def phaseAt (a : Answers) (look : Look) : VaultUiPhase :=
  match a.controller look with
  | .error _ => .locked
  | .ok view => view.phase

end Answers

/-- What an event does outside the desktop, with the result of a call that has one. Taking the lock
off a secret for the screen is one of them. -/
inductive Effect
  | approve (approvalId : Uuid) (decision : HumanDecision) (result : Except LadonError Unit)
  | deny (approvalId : Uuid)
  | grantUnattended (consent : UnattendedConsent) (deadline : ℤ) (result : Except LadonError Unit)
  | unlockApp (epoch : ℕ) (result : Except LadonError Unit)
  | unlockSecret (attempt : LocalAuthAttempt)
  | recordSecretActivity
  /-- The PIN that was typed is compared with the one of the session. -/
  | comparePin (candidate : String)
  | lockVault
  | autoLock
  | beginAppLock (automatic : Bool) (result : Except LadonError ℕ)
  | acknowledge (requestId : ℕ)
  | resolveUnlock (id : Uuid) (allow : Bool)
  | revokeGrants
  | revokeGrant (client : Uuid) (secret : SecretId)
  | revokeSession (client : Uuid)
  | annotate (client connectionId : Uuid) (name note : String)
  | updateSecret (draft : EditSecretDraft)
  | deleteSecret (id : SecretId)
  | addSecret (draft : AddSecretDraft)
  | createVault (passphrase confirmation : String)
  | unlockVault (passphrase : String)
  | restoreBackup
  | continueWithPrimary

/-- What an event does, and the desktop behind it. -/
abbrev Outcome := List Effect × LadonDesktop

namespace LadonDesktop

/-! ### Wiping -/

def notify (d : LadonDesktop) (text : String) (danger : Bool) : LadonDesktop :=
  { d with notice := some ⟨text, danger⟩ }

def noticeFrom (d : LadonDesktop) (result : Except LadonError Unit) (success : String) :
    LadonDesktop :=
  match result with
  | .ok () => d.notify success false
  | .error e => d.notify e.safeMessage true

def clearAgentGrants (d : LadonDesktop) : LadonDesktop :=
  { d with
    agentGrants := []
    agentSessions := []
    sessionEditors := .empty
    agentCommandActive := false
    agentGrantsSession := none
    agentGrantsErrorShown := false }

def clearUnlockFields (d : LadonDesktop) : LadonDesktop :=
  { d with passphrase := "", confirmation := "" }

def clearSensitiveBuffers (d : LadonDesktop) : LadonDesktop :=
  { d.clearUnlockFields with
    sessionPin := ""
    sessionPinConfirmation := ""
    localPin := ""
    appUnlockPinVisible := false
    pendingTouchId := none
    focusedApproval := none
    unattendedConfirmation := none
    sessionEditors := .empty
    draft := ⟨"", [⟨"value", ""⟩]⟩
    detail := d.detail.clearForVaultLock
    unlockConfirmation := false
    discardConfirmation := false
    pendingDelete := none
    addFormError := none }

def clearForAppLock (d : LadonDesktop) : LadonDesktop :=
  { d.clearAgentGrants.clearSensitiveBuffers with notice := none }

def clearSensitiveState (d : LadonDesktop) : LadonDesktop :=
  { d.clearForAppLock with
    sessionConfirmation := none
    pendingAppLock := none
    desktopLock := .active }

/-! ### Locking -/

def hasPin (d : LadonDesktop) : Bool := d.sessionConfirmation.any SessionConfirmation.hasPin

def finishImmediateLock (d : LadonDesktop) (result : Except LadonError Unit) : LadonDesktop :=
  match result with
  | .ok () => { d.clearSensitiveState with notice := none }
  | .error e => d.clearSensitiveState.noticeFrom (.error e) ""

def lockImmediately (a : Answers) (d : LadonDesktop) : Outcome :=
  ([.lockVault], d.finishImmediateLock a.vaultLocked)

def beginInterfaceLock (a : Answers) (automatic : Bool) (d : LadonDesktop) : Outcome :=
  if ¬ (a.touchIdAvailable || d.hasPin) then d.lockImmediately a
  else
    match a.beginAppLock with
    | .ok epoch => ([.beginAppLock automatic (.ok epoch)], { d with
        desktopLockEpoch := epoch
        desktopLock := .locking epoch
        pendingAppLock := some epoch }.clearForAppLock)
    | .error e =>
      (.beginAppLock automatic (.error e) :: (d.lockImmediately a).1, (d.lockImmediately a).2)

def lockApp (a : Answers) (d : LadonDesktop) : Outcome :=
  if d.desktopLock ≠ .active then
    match a.called with
    | .error _ => (.revokeGrants :: (d.lockImmediately a).1, (d.lockImmediately a).2)
    | .ok () => ([.revokeGrants], d.clearForAppLock)
  else d.beginInterfaceLock a false

def finishAppLockResult (a : Answers) (epoch : ℕ) (result : Except LadonError Unit)
    (d : LadonDesktop) : Outcome :=
  if result = .ok () ∧ d.desktopLock = .locking epoch ∧ d.desktopLockEpoch = epoch then
    ([], { d with desktopLock := .locked epoch })
  else d.lockImmediately a

def processAppLockResult (a : Answers) (d : LadonDesktop) : Outcome :=
  match d.pendingAppLock, a.appLockResult with
  | some epoch, some result => { d with pendingAppLock := none }.finishAppLockResult a epoch result
  | _, _ => ([], d)

def finishAutoLock (d : LadonDesktop) (autoLocked : Bool) : LadonDesktop :=
  if autoLocked then
    d.clearSensitiveState.notify "Vault locked after 30 minutes without secret activity" false
  else d

def handleIdleTimeout (a : Answers) (d : LadonDesktop) : Outcome :=
  if d.sessionConfirmation.isSome then
    if d.desktopLock = .active then d.beginInterfaceLock a true else ([], d)
  else ([.autoLock], d.finishAutoLock a.autoLocked)

def processExternalLock (a : Answers) (d : LadonDesktop) : Outcome :=
  match a.externalLock with
  | .ok none => ([], d)
  | .error e => ([], d.noticeFrom (.error e) "")
  | .ok (some requestId) =>
    let d := { d.clearSensitiveState with lastPhase := .locked }
    ([.acknowledge requestId],
      match a.acknowledged with
      | .ok () => d
      | .error e => d.noticeFrom (.error e) "")

def synchronizePhase (a : Answers) (phase : VaultUiPhase) (d : LadonDesktop) : Outcome :=
  if d.lastPhase = .unlocked ∧ phase ≠ .unlocked then
    (if a.externalLockInProgress then [] else [.revokeGrants],
      { d.clearSensitiveState with lastPhase := phase })
  else ([], { d with lastPhase := phase })

def handleSensitiveOperationError (a : Answers) (e : LadonError) (d : LadonDesktop) : Outcome :=
  ((d.synchronizePhase a (a.phaseAt .rejected)).1,
    (d.synchronizePhase a (a.phaseAt .rejected)).2.noticeFrom (.error e) "")

def refreshAgentGrants (a : Answers) (d : LadonDesktop) : LadonDesktop :=
  let failed (d : LadonDesktop) (e : LadonError) : LadonDesktop :=
    if e = .vaultLocked then d.clearAgentGrants
    else if d.agentGrantsErrorShown then d
    else { d.noticeFrom (.error e) "" with agentGrantsErrorShown := true }
  if d.desktopLock ≠ .active then d.clearAgentGrants
  else
    match a.sessionAt .refresh with
    | .error e => failed d e
    | .ok session =>
      let d := if d.agentGrantsSession ≠ some session then
          { d.clearAgentGrants with agentGrantsSession := some session }
        else d
      match a.access with
      | .error e => failed d e
      | .ok (grants, sessions, commandActive) => { d with
          sessionEditors := d.sessionEditors.retain fun client _ =>
            sessions.any fun session => session.details.clientSessionId = client
          agentSessions := sessions
          agentGrants := grants
          agentCommandActive := commandActive
          agentGrantsErrorShown := false }

/-! ### Authentication -/

/-- The PIN that was typed is tried, and gone. -/
def verifyLocalPin (platform : Platform) (d : LadonDesktop) :
    Except LadonError PinVerification × LadonDesktop :=
  match d.sessionConfirmation with
  | none => (.error .approvalAuthenticationFailed, { d with localPin := "" })
  | some c => ((c.verifyPin platform.argon2 d.localPin).1,
      { d with sessionConfirmation := some (c.verifyPin platform.argon2 d.localPin).2, localPin := "" })

/-- The PIN is compared, where there is one and memory to hash with. -/
def comparison (platform : Platform) (d : LadonDesktop) : List Effect :=
  match d.sessionConfirmation.bind SessionConfirmation.pin with
  | none => []
  | some pin =>
    if (platform.argon2 (ofString d.localPin) pin.salt.1).isSome then [.comparePin d.localPin] else []

/-- What follows a PIN that was tried: what it was for, where it was right. -/
def withPin (platform : Platform) (a : Answers) (accepted : LadonDesktop → Outcome)
    (d : LadonDesktop) : Outcome :=
  let after (o : Outcome) : Outcome := (d.comparison platform ++ o.1, o.2)
  match d.verifyLocalPin platform with
  | (.ok .accepted, d) => after (accepted d)
  | (.ok (.rejected remaining), d) =>
    after ([], d.notify ("PIN rejected; " ++ toString remaining ++ " attempts remain") true)
  | (.ok .lockVault, d) => after (d.lockImmediately a)
  | (.error e, d) => after ([], d.noticeFrom (.error e) "")

/-- Touch ID is asked for, unless it has been already. -/
def askTouchId (a : Answers) (target : TouchIdTarget) (d : LadonDesktop) : Outcome :=
  if d.pendingTouchId.isSome then ([], d)
  else match a.prompt with
    | .ok () => ([], { d with pendingTouchId := some target })
    | .error e => ([], d.noticeFrom (.error e) "")

def recordTouchIdSuccess (d : LadonDesktop) : LadonDesktop :=
  { d with sessionConfirmation :=
      d.sessionConfirmation.map SessionConfirmation.recordTouchIdSuccess }

def rejectStaleAuthentication (a : Answers) (d : LadonDesktop) : Outcome :=
  let d := { d with pendingTouchId := none }
  ((d.synchronizePhase a (a.phaseAt .rejected)).1,
    { (d.synchronizePhase a (a.phaseAt .rejected)).2 with
      unlockConfirmation := false
      localPin := ""
      notice := some ⟨"Authentication expired because the selected context changed", true⟩ })

/-! ### The lock of one secret -/

/-- The selected secret is unlocked, where it still is what the attempt was for. -/
def acceptSecret (a : Answers) (look : Look) (attempt : LocalAuthAttempt) (captured : Uuid)
    (accepted : LadonDesktop → LadonDesktop) (d : LadonDesktop) : Outcome :=
  if a.sessionAt look = .ok captured ∧ (d.detail.acceptAuthentication attempt captured).1 then
    ([.unlockSecret attempt], { accepted d with
      detail := (d.detail.acceptAuthentication attempt captured).2
      unlockConfirmation := false
      notice := some ⟨"Secret unlocked for this selection", false⟩ })
  else d.rejectStaleAuthentication a

def authenticateSelectedSecret (platform : Platform) (a : Answers) (action : ConfirmationAction)
    (d : LadonDesktop) : Outcome :=
  match a.sessionAt .first with
  | .error _ => d.synchronizePhase a .locked
  | .ok captured =>
    match d.detail.authenticationAttempt captured with
    | none => ([], { d with unlockConfirmation := false, localPin := "" })
    | some attempt =>
      match action with
      | .touchId => d.askTouchId a (.secret attempt captured)
      | .pin => { d with pendingTouchId := none }.withPin platform a
          (acceptSecret a .second attempt captured id)

def finishSelectedTouchId (a : Answers) (attempt : LocalAuthAttempt) (captured : Uuid)
    (d : LadonDesktop) : Outcome :=
  d.acceptSecret a .first attempt captured fun d => { d.recordTouchIdSuccess with localPin := "" }

/-! ### The lock of the application -/

/-- The vault session and the lock that an unlock is for. -/
def currentAppUnlockContext (a : Answers) (look : Look) (d : LadonDesktop) : Option (Uuid × ℕ) :=
  match d.desktopLock with
  | .active | .locking _ => none
  | .locked epoch =>
    if d.desktopLockEpoch ≠ epoch then none
    else match a.controller look with
      | .error _ => none
      | .ok view =>
        if view.phase ≠ .unlocked then none
        else view.sessionId.map fun session => (session, epoch)

def rejectStaleAppUnlock (d : LadonDesktop) : LadonDesktop :=
  { d with
    pendingTouchId := none
    localPin := ""
    notice := some ⟨"Authentication expired because the app lock context changed", true⟩ }

def finishAppUnlock (a : Answers) (look : Look) (vaultSessionId : Uuid) (lockEpoch : ℕ)
    (d : LadonDesktop) : Outcome :=
  let d := { d with pendingTouchId := none, localPin := "" }
  if d.currentAppUnlockContext a look ≠ some (vaultSessionId, lockEpoch) then
    ([], d.rejectStaleAppUnlock)
  else match a.called with
    | .ok () => ([.unlockApp lockEpoch (.ok ()), .recordSecretActivity], { d with
        desktopLock := .active
        appUnlockPinVisible := false
        notice := some ⟨"App unlocked", false⟩ })
    | .error e => ([.unlockApp lockEpoch (.error e)], d.noticeFrom (.error e) "")

def useAppUnlockPin (d : LadonDesktop) : LadonDesktop :=
  { d with pendingTouchId := none, localPin := "", appUnlockPinVisible := true, notice := none }

def beginAppUnlock (a : Answers) (d : LadonDesktop) : Outcome :=
  match appUnlockStart a.touchIdAvailable d.hasPin with
  | .touchId =>
    if d.pendingTouchId.isSome then ([], d)
    else match d.currentAppUnlockContext a .first with
      | none => ([], d.rejectStaleAppUnlock)
      | some (vaultSessionId, lockEpoch) =>
        { d with appUnlockPinVisible := false, localPin := "" }.askTouchId a
          (.appUnlock vaultSessionId lockEpoch)
  | .pin => ([], d.useAppUnlockPin)
  | .hardLock => d.lockImmediately a

def authenticateAppPinForContext (platform : Platform) (a : Answers) (vaultSessionId : Uuid)
    (lockEpoch : ℕ) (d : LadonDesktop) : Outcome :=
  if d.currentAppUnlockContext a .second ≠ some (vaultSessionId, lockEpoch) then
    ([], d.rejectStaleAppUnlock)
  else { d with pendingTouchId := none }.withPin platform a
    (finishAppUnlock a .third vaultSessionId lockEpoch)

def authenticateAppPin (platform : Platform) (a : Answers) (d : LadonDesktop) : Outcome :=
  match d.currentAppUnlockContext a .first with
  | none => ([], d.rejectStaleAppUnlock)
  | some (vaultSessionId, lockEpoch) =>
    d.authenticateAppPinForContext platform a vaultSessionId lockEpoch

def finishAppUnlockTouchId (a : Answers) (vaultSessionId : Uuid) (lockEpoch : ℕ)
    (d : LadonDesktop) : Outcome :=
  let d := { d with localPin := "" }
  if d.currentAppUnlockContext a .first ≠ some (vaultSessionId, lockEpoch) then
    ([], d.rejectStaleAppUnlock)
  else if d.sessionConfirmation.isNone then ([], d.rejectStaleAppUnlock)
  else d.recordTouchIdSuccess.finishAppUnlock a .second vaultSessionId lockEpoch

/-! ### Requests of agents -/

def cancelStaleApprovalTouchId (current : Option (Uuid × Uuid)) (d : LadonDesktop) : LadonDesktop :=
  match d.pendingTouchId with
  | some (.approval approvalId vaultSessionId _) =>
    if current ≠ some (approvalId, vaultSessionId) then { d with pendingTouchId := none } else d
  | _ => d

def updateFocusedApproval (next : Option Uuid) (d : LadonDesktop) : LadonDesktop :=
  if d.focusedApproval = next then d else { d with localPin := "", focusedApproval := next }

/-- The request that the frame shows, where it shows one. -/
def observeApproval (a : Answers) (d : LadonDesktop) : Option PendingApproval × LadonDesktop :=
  if d.unattendedConfirmation.isSome then (none, d)
  else
    match a.pendingApproval with
    | .ok (some pending) => (some pending,
        (d.cancelStaleApprovalTouchId (some (pending.id, pending.vaultSessionId))).updateFocusedApproval
          (some pending.id))
    | .ok none => (none, (d.cancelStaleApprovalTouchId none).updateFocusedApproval none)
    | .error e =>
      (none, ((d.cancelStaleApprovalTouchId none).updateFocusedApproval none).noticeFrom (.error e) "")

def approvalNotice : ApprovalLifetime → String
  | .thirtyMinutes => "Agent access allowed for 30 minutes"
  | .endOfDay => "Agent access allowed until end of day"
  | .session => "Agent access allowed until session ends"

/-- The request that was captured is the one that is pending now. -/
def exactRequestIsPending (a : Answers) (capturedId capturedSession : Uuid) : Bool :=
  match a.currentPending with
  | .ok (some current) => current.id = capturedId && current.vaultSessionId = capturedSession
  | _ => false

def finishAuthenticatedApproval (platform : Platform) (a : Answers) (capturedId capturedSession : Uuid)
    (touchIdSucceeded : Bool) (lifetime : ApprovalLifetime) (d : LadonDesktop) : Outcome :=
  if a.sessionAt .second ≠ .ok capturedSession ∨ ¬ exactRequestIsPending a capturedId capturedSession
  then d.rejectStaleAuthentication a
  else
    match lifetime.decision (localDayEnd platform.libc a.now) with
    | .error e => ([], { d with localPin := "" }.noticeFrom (.error e) "")
    | .ok decision =>
      let d := if a.called = .ok () ∧ touchIdSucceeded then d.recordTouchIdSuccess else d
      ([.approve capturedId decision a.called],
        { d with localPin := "" }.noticeFrom a.called (approvalNotice lifetime))

def authenticatePendingApproval (platform : Platform) (a : Answers) (method : ConfirmationAction)
    (pending : PendingApproval) (lifetime : ApprovalLifetime) (d : LadonDesktop) : Outcome :=
  if a.sessionAt .first ≠ .ok pending.vaultSessionId then d.rejectStaleAuthentication a
  else
    match method with
    | .touchId => d.askTouchId a (.approval pending.id pending.vaultSessionId lifetime)
    | .pin => { d with pendingTouchId := none }.withPin platform a
        (finishAuthenticatedApproval platform a pending.id pending.vaultSessionId false lifetime)

/-! ### Unattended use -/

def beginUnattendedConfirmation (a : Answers) (d : LadonDesktop) : LadonDesktop :=
  if d.desktopLock ≠ .active ∨ d.pendingTouchId.isSome then d
  else
    match a.consent with
    | .ok consent => { d with
        localPin := ""
        unattendedConfirmation := some ⟨consent, a.now, .thirtyMinutes, ""⟩ }
    | .error e => { d with localPin := "" }.noticeFrom (.error e) ""

def finishAuthenticatedUnattended (a : Answers) (consent : UnattendedConsent) (deadline : ℤ)
    (touchId : Bool) (d : LadonDesktop) : Outcome :=
  let d := { d with unattendedConfirmation := none, localPin := "" }
  let notice := "Unattended access granted until the confirmed deadline"
  if d.desktopLock ≠ .active then ([], d.noticeFrom (.error .approvalCancelled) notice)
  else
    let d := if a.called = .ok () then
        (if touchId then d.recordTouchIdSuccess else d).refreshAgentGrants a
      else d
    ([.grantUnattended consent deadline a.called], d.noticeFrom a.called notice)

def authenticateUnattended (platform : Platform) (a : Answers) (method : ConfirmationAction)
    (d : LadonDesktop) : Outcome :=
  match d.unattendedConfirmation with
  | none => ([], d)
  | some c =>
    match c.deadline platform with
    | .error _ => ([], d.noticeFrom (.error .invalidRequest) "")
    | .ok deadline =>
      if deadline ≤ a.now then ([], d.noticeFrom (.error .invalidRequest) "")
      else if d.desktopLock ≠ .active ∨ a.sessionAt .first ≠ .ok c.consent.context.vault then
        ((d.rejectStaleAuthentication a).1,
          { (d.rejectStaleAuthentication a).2 with unattendedConfirmation := none })
      else
        match method with
        | .touchId => d.askTouchId a (.unattended c.consent deadline)
        | .pin => d.withPin platform a (finishAuthenticatedUnattended a c.consent deadline false)

/-! ### Touch ID answers -/

def finishTouchId (platform : Platform) (a : Answers) (d : LadonDesktop) : TouchIdTarget → Outcome
  | .unattended consent deadline => d.finishAuthenticatedUnattended a consent deadline true
  | .appUnlock vaultSessionId lockEpoch => d.finishAppUnlockTouchId a vaultSessionId lockEpoch
  | .secret attempt vaultSessionId => d.finishSelectedTouchId a attempt vaultSessionId
  | .approval approvalId vaultSessionId lifetime =>
    d.finishAuthenticatedApproval platform a approvalId vaultSessionId true lifetime

def processTouchIdResult (platform : Platform) (a : Answers) (d : LadonDesktop) : Outcome :=
  match d.pendingTouchId, a.touchIdResult with
  | some target, some result =>
    let d := { d with pendingTouchId := none, localPin := "" }
    match result with
    | .ok () => d.finishTouchId platform a target
    | .error .approvalCancelled => ([], d)
    | .error e => ([], d.noticeFrom (.error e) "")
  | _, _ => ([], d)

/-! ### The selected secret -/

def finishAppliedNavigation (d : LadonDesktop) : LadonDesktop :=
  { d with
    pendingTouchId := none
    unlockConfirmation := false
    discardConfirmation := false
    localPin := ""
    pendingDelete := none
    addFormError := none
    notice := none }

def requestNavigation (target : NavigationTarget) (d : LadonDesktop) : LadonDesktop :=
  let d' := { d with detail := (d.detail.requestNavigation target).2 }
  match (d.detail.requestNavigation target).1 with
  | .applied => d'.finishAppliedNavigation
  | .confirmDiscard => { d' with discardConfirmation := true }

def finishDiscardNavigation (d : LadonDesktop) : LadonDesktop :=
  { d with detail := d.detail.discardPendingNavigation.2 }.finishAppliedNavigation

def cancelDiscardNavigation (d : LadonDesktop) : LadonDesktop :=
  { d with detail := d.detail.cancelPendingNavigation, discardConfirmation := false }

/-- The selected secret is loaded, and shown or edited. -/
def openDetail (a : Answers) (editing : Bool) (d : LadonDesktop) : Outcome :=
  if d.detail.selected.isNone then ([], d)
  else
    match a.sessionAt .first, a.loaded with
    | .error e, _ | .ok _, .error e => d.handleSensitiveOperationError a e
    | .ok session, .ok draft =>
      match d.detail.beginWithDraft session draft editing with
      | (.ok (), detail) => ([], { d with detail := detail })
      | (.error _, detail) =>
        ([], { d with detail := detail }.notify
          "The selected secret changed before it could be opened" true)

def hideDetail (d : LadonDesktop) : LadonDesktop := { d with detail := d.detail.hideValues }

def saveDetail (a : Answers) (d : LadonDesktop) : Outcome :=
  match d.detail.mode with
  | .hidden | .revealed _ => d.handleSensitiveOperationError a .invalidRequest
  | .editing draft _ =>
    match a.called with
    | .ok () => ([.updateSecret draft], { d with detail := d.detail.finishSave }.notify
        "Secret changes saved locally" false)
    | .error e => (.updateSecret draft :: (d.handleSensitiveOperationError a e).1,
        (d.handleSensitiveOperationError a e).2)

def handleDeleteResult (a : Answers) (d : LadonDesktop) : Outcome :=
  match a.called with
  | .ok () => ([], { d with
      pendingTouchId := none
      detail := d.detail.navigateNow .add
      unlockConfirmation := false
      localPin := "" }.notify "Secret deleted" false)
  | .error e => d.handleSensitiveOperationError a e

def requestDelete (id : SecretId) (d : LadonDesktop) : LadonDesktop :=
  { d with pendingDelete := some id }.notify "Delete this secret permanently?" true

def confirmDelete (a : Answers) (id : SecretId) (d : LadonDesktop) : Outcome :=
  (.deleteSecret id :: ({ d with pendingDelete := none }.handleDeleteResult a).1,
    ({ d with pendingDelete := none }.handleDeleteResult a).2)

def handleAddResult (a : Answers) (d : LadonDesktop) : Outcome :=
  match a.added.1 with
  | .ok () => ([], { d with addFormError := none }.notify "Secret saved locally" false)
  | .error e => d.handleSensitiveOperationError a e

def saveSecret (a : Answers) (d : LadonDesktop) : Outcome :=
  match d.draft.validateFields with
  | .error e => ([], { d with addFormError := some e, notice := none })
  | .ok () => (.addSecret d.draft :: ({ d with draft := a.added.2 }.handleAddResult a).1,
      ({ d with draft := a.added.2 }.handleAddResult a).2)

/-! ### The start of a session -/

def continueWithTouchId (d : LadonDesktop) : LadonDesktop :=
  { d with
    sessionPin := ""
    sessionPinConfirmation := ""
    sessionConfirmation := some .touchIdOnly }.notify "Touch ID will confirm protected actions" false

def setSessionPin (platform : Platform) (a : Answers) (d : LadonDesktop) : LadonDesktop :=
  let d' := match SessionPin.new platform.argon2 a.salt d.sessionPin d.sessionPinConfirmation with
    | .ok pin => { d with sessionConfirmation := some (.withPin pin) }.notify
        "PIN set for this app session; five wrong attempts require the master password" false
    | .error e => d.notify e.safeMessage true
  { d' with sessionPin := "", sessionPinConfirmation := "" }

/-! ### Requests to unlock -/

/-- A request of an agent to be let in is allowed once the human is. -/
def showUnlockRequest (a : Answers) (d : LadonDesktop) : Outcome :=
  match a.pendingUnlock with
  | none => ([], { d with focusedUnlock := none })
  | some pending =>
    let d := if d.focusedUnlock ≠ some pending.id then
        { d with focusedUnlock := some pending.id, focusAuthInput := true }
      else d
    if d.desktopLock = .active ∧ d.sessionConfirmation.isSome ∧ a.phaseAt .ready = .unlocked then
      ([.resolveUnlock pending.id true], d)
    else ([], d)

def denyUnlockRequest (id : Uuid) (d : LadonDesktop) : Outcome :=
  ([.resolveUnlock id false], { d with localPin := "", passphrase := "", pendingTouchId := none })

/-! ### The access of agents -/

/-- The editor of a session is made where there is none, and anew where the connection is another. -/
def openEditor (d : LadonDesktop) (session : AgentSessionView) : LadonDesktop :=
  let fresh : SessionEditor :=
    ⟨some session.details.connectionId, session.details.userName, session.details.note⟩
  match d.sessionEditors.get? session.details.clientSessionId with
  | some editor =>
    if editor.connectionId = some session.details.connectionId then d
    else { d with sessionEditors := d.sessionEditors.insert session.details.clientSessionId fresh }
  | none => { d with sessionEditors := d.sessionEditors.insert session.details.clientSessionId fresh }

def saveAliasAndNote (a : Answers) (client connectionId : Uuid) (name note : String)
    (d : LadonDesktop) : Outcome :=
  ([.annotate client connectionId name note],
    (d.noticeFrom a.called "Session alias and note saved").refreshAgentGrants a)

def revokeAgentSession (a : Answers) (client : Uuid) (d : LadonDesktop) : Outcome :=
  ([.revokeSession client], (d.noticeFrom a.called "Session access revoked").refreshAgentGrants a)

def revokeAgentGrant (a : Answers) (client : Uuid) (secret : SecretId) (d : LadonDesktop) : Outcome :=
  let d' := d.noticeFrom a.called "Agent access revoked"
  ([.revokeGrant client secret], if a.called = .ok () then d'.refreshAgentGrants a else d')

def revokeAllAgentGrants (a : Answers) (d : LadonDesktop) : Outcome :=
  ([.revokeGrants],
    (if a.called = .ok () then d.clearAgentGrants else d).noticeFrom a.called "Agent access revoked")

def denyApproval (a : Answers) (id : Uuid) (d : LadonDesktop) : Outcome :=
  ([.deny id],
    { d with pendingTouchId := none, localPin := "" }.noticeFrom a.called "Agent request denied")

/-! ### The vault -/

def createVault (a : Answers) (d : LadonDesktop) : Outcome :=
  ([.createVault d.passphrase d.confirmation],
    d.clearUnlockFields.noticeFrom a.called "Vault created on this device")

def unlockVault (a : Answers) (d : LadonDesktop) : Outcome :=
  ([.unlockVault d.passphrase], d.clearUnlockFields.noticeFrom a.called "Vault unlocked")

def restoreBackup (a : Answers) (d : LadonDesktop) : Outcome :=
  ([.restoreBackup], d.noticeFrom a.called "Backup restored")

def continueWithPrimary (a : Answers) (d : LadonDesktop) : Outcome :=
  ([.continueWithPrimary], d.noticeFrom a.called "Current vault kept")

end LadonDesktop

end Ladon.Desktop

import Ladon.Desktop
import Ladon.Lib.Machine

/-!
The desktop event by event: the stages that begin a frame, the screen that is drawn, and what is done
on it.

A frame is its stages in their order, the screen, and what was clicked; here the events come in any
order that the screens admit, and a click is an event of its own.
-/

namespace Ladon.Desktop

open Ladon.Error Ladon.Model Ladon.Approval Ladon.Controller Ladon.SecretEditor Ladon.SecretDetail
  Ladon.SessionAuth Ladon.Lib Ladon.Lib.Machine

inductive Screen
  | firstRun
  | locked
  | recovery
  | appLocking
  | appLocked
  | sessionSetup
  | manager
  /-- The dialogs over the manager. -/
  | dialogs
  | blank
  deriving DecidableEq

def screenFor (phase : VaultUiPhase) (d : LadonDesktop) : Screen :=
  match phase with
  | .firstRun => .firstRun
  | .locked => .locked
  | .recoveryRequired => .recovery
  | .unlocked =>
    match d.desktopLock with
    | .locking _ => .appLocking
    | .locked _ => .appLocked
    | .active => if d.sessionConfirmation.isNone then .sessionSetup else .manager

/-- What covers the manager once it may not be shown. -/
def overlayFor (phase : VaultUiPhase) (d : LadonDesktop) : Screen :=
  match phase with
  | .firstRun | .recoveryRequired => .blank
  | .locked => .locked
  | .unlocked =>
    match d.desktopLock with
    | .locking _ => .appLocking
    | .locked _ => .appLocked
    | .active => .blank

structure Ui where
  desktop : LadonDesktop
  screen : Screen
  /-- The request that the dialog for agents is about. -/
  shown : Option PendingApproval

inductive TrayAction
  | openWindow
  | lockApp
  | lockVault
  | quit

/-- The stages of a frame before the screen, in their order. -/
inductive Stage
  | tray (action : TrayAction)
  /-- The window is closed, and the tray keeps the application. -/
  | hide
  | externalLock
  | idle
  | appLock
  | touchId
  | phase
  | agentGrants
  /-- The window is closed for good. -/
  | close
  | unlockRequest

namespace LadonDesktop

def synchronize (a : Answers) (d : LadonDesktop) : Outcome :=
  match a.controller .frame with
  | .ok view => d.synchronizePhase a view.phase
  | .error _ => ([], { d.clearSensitiveBuffers with sessionConfirmation := none })

def close (a : Answers) (d : LadonDesktop) : LadonDesktop :=
  if a.phaseAt .frame = .unlocked ∧ d.desktopLock = .active ∧ a.closeRequested then
    let d' := { d with detail := (d.detail.requestNavigation .close).2 }
    match (d.detail.requestNavigation .close).1 with
    | .applied => d'
    | .confirmDiscard => { d' with discardConfirmation := true }
  else d

def stage (platform : Platform) (a : Answers) (d : LadonDesktop) : Stage → Outcome
  | .tray .openWindow => ([], d)
  | .tray .lockApp | .hide => d.lockApp a
  | .tray .lockVault | .tray .quit => d.lockImmediately a
  | .externalLock => d.processExternalLock a
  | .idle => if a.idle then d.handleIdleTimeout a else ([], d)
  | .appLock => d.processAppLockResult a
  | .touchId => d.processTouchIdResult platform a
  | .phase => d.synchronize a
  | .agentGrants => ([], d.refreshAgentGrants a)
  | .close => ([], d.close a)
  | .unlockRequest => d.showUnlockRequest a

/-- What drawing a screen does to the desktop. -/
def draw (a : Answers) (d : LadonDesktop) : Screen → LadonDesktop
  | .appLocked =>
    if ¬ a.touchIdAvailable ∧ d.hasPin then { d with appUnlockPinVisible := true } else d
  | .manager =>
    if d.detail.navigationTarget = .sessions then d.agentSessions.foldl openEditor d else d
  | _ => d

def onExit (a : Answers) (d : LadonDesktop) : Outcome :=
  ((d.processExternalLock a).1 ++ [.lockVault], (d.processExternalLock a).2.clearSensitiveState)

end LadonDesktop

/-- The fields for text that is typed over. -/
inductive TextField
  | passphrase
  | confirmation
  | sessionPin
  | sessionPinConfirmation
  | localPin

/-- What the human does on a screen. -/
inductive Action
  | type (field : TextField) (text : String)
  | createVault
  | unlockVault
  | restoreBackup
  | continueWithPrimary
  | continueWithTouchId
  | setSessionPin
  | denyUnlockRequest
  | beginAppUnlock
  | useAppUnlockPin
  | authenticateAppPin
  | lockVault
  | lockApp
  | navigate (target : NavigationTarget)
  | editDraft (draft : AddSecretDraft)
  | saveSecret
  | unlockSecret
  | openDetail (editing : Bool)
  | hideDetail
  | editDetail (name : String) (fields : List EditableField)
  | saveDetail
  | requestDelete
  | confirmDelete
  | cancelDelete
  | editSession (client : Uuid) (name note : String)
  | saveAliasAndNote (client connectionId : Uuid) (name note : String)
  | revokeSession (client : Uuid)
  | revokeGrant (client : Uuid) (secret : SecretId)
  | revokeAll
  | beginUnattended
  | confirmSecret (method : ConfirmationAction)
  | cancelSecret
  | continueEditing
  | discard
  | approve (method : ConfirmationAction) (lifetime : ApprovalLifetime)
  | deny
  | chooseLifetime (lifetime : UnattendedLifetime)
  | typeLocalTime (text : String)
  | confirmUnattended (method : ConfirmationAction)
  | cancelUnattended

namespace LadonDesktop

def type (d : LadonDesktop) (text : String) : TextField → LadonDesktop
  | .passphrase => { d with passphrase := text }
  | .confirmation => { d with confirmation := text }
  | .sessionPin => { d with sessionPin := text }
  | .sessionPinConfirmation => { d with sessionPinConfirmation := text }
  | .localPin => { d with localPin := text }

def editDetail (name : String) (fields : List EditableField) (d : LadonDesktop) : LadonDesktop :=
  match d.detail.mode with
  | .editing _ _ => { d with detail := (d.detail.editDraft name fields).markDirty }
  | _ => d

/-- The secret whose deletion is to be confirmed is the one that is selected. -/
def deleteSelected (a : Answers) (d : LadonDesktop) : Outcome :=
  match d.detail.selected with
  | some id => if d.pendingDelete = some id then d.confirmDelete a id else ([], d)
  | none => ([], d)

def editSession (client : Uuid) (name note : String) (d : LadonDesktop) : LadonDesktop :=
  match d.sessionEditors.get? client with
  | some editor =>
    { d with sessionEditors := d.sessionEditors.insert client ⟨editor.connectionId, name, note⟩ }
  | none => d

def chooseLifetime (lifetime : UnattendedLifetime) (d : LadonDesktop) : LadonDesktop :=
  { d with unattendedConfirmation :=
      d.unattendedConfirmation.map fun c => { c with lifetime := lifetime } }

def typeLocalTime (text : String) (d : LadonDesktop) : LadonDesktop :=
  { d with unattendedConfirmation :=
      d.unattendedConfirmation.map fun c => { c with localTime := text } }

/-- What the buttons of the confirmation dialogs are. -/
def offers (a : Answers) (d : LadonDesktop) (method : ConfirmationAction) : Bool :=
  method ∈ confirmationActions a.touchIdAvailable d.hasPin

end LadonDesktop

/-- The screens that an action is offered on, and what the screen asks of it. -/
def Action.offered (a : Answers) (ui : Ui) : Action → Bool
  | .type _ _ => true
  | .createVault => ui.screen = .firstRun
  | .unlockVault => ui.screen = .locked
  | .restoreBackup | .continueWithPrimary => ui.screen = .recovery
  | .continueWithTouchId => ui.screen = .sessionSetup && canFinishSessionSetup a.touchIdAvailable false
  | .setSessionPin => ui.screen = .sessionSetup
  | .denyUnlockRequest => ui.desktop.focusedUnlock.isSome
  | .beginAppUnlock => ui.screen = .appLocked && !ui.desktop.appUnlockPinVisible
  | .useAppUnlockPin =>
    ui.screen = .appLocked && !ui.desktop.appUnlockPinVisible && ui.desktop.hasPin
  | .authenticateAppPin => ui.screen = .appLocked && ui.desktop.appUnlockPinVisible
  | .lockVault => ui.screen = .appLocked
  -- The rail is drawn first, before anything could have locked the application.
  | .navigate _ => ui.screen = .manager && ui.desktop.desktopLock = .active
  | .lockApp | .editDraft _ | .saveSecret | .openDetail _ | .hideDetail | .editDetail _ _ | .saveDetail
  | .requestDelete | .confirmDelete | .cancelDelete | .editSession _ _ _ | .saveAliasAndNote _ _ _ _
  | .revokeSession _ | .revokeGrant _ _ | .revokeAll => ui.screen = .manager
  | .unlockSecret => ui.screen = .manager && ui.desktop.detail.selected.isSome
  | .beginUnattended => ui.screen = .manager || ui.screen = .dialogs
  | .confirmSecret method =>
    ui.screen = .dialogs && ui.desktop.unlockConfirmation && ui.desktop.offers a method
  | .cancelSecret => ui.screen = .dialogs && ui.desktop.unlockConfirmation
  | .continueEditing | .discard => ui.screen = .dialogs && ui.desktop.discardConfirmation
  | .approve method _ => ui.screen = .dialogs && ui.shown.isSome && ui.desktop.offers a method
  | .deny => ui.screen = .dialogs && ui.shown.isSome
  | .chooseLifetime _ | .typeLocalTime _ => ui.screen = .dialogs && ui.desktop.pendingTouchId.isNone
  | .confirmUnattended method => ui.screen = .dialogs && ui.desktop.pendingTouchId.isNone &&
      ui.desktop.offers a method
  | .cancelUnattended => ui.screen = .dialogs && ui.desktop.unattendedConfirmation.isSome

/-- What an action does. -/
def Action.run (platform : Platform) (a : Answers) (ui : Ui) : Action → Outcome
  | .type field text => ([], ui.desktop.type text field)
  | .createVault => ui.desktop.createVault a
  | .unlockVault => ui.desktop.unlockVault a
  | .restoreBackup => ui.desktop.restoreBackup a
  | .continueWithPrimary => ui.desktop.continueWithPrimary a
  | .continueWithTouchId => ([], ui.desktop.continueWithTouchId)
  | .setSessionPin => ([], ui.desktop.setSessionPin platform a)
  | .denyUnlockRequest =>
    match ui.desktop.focusedUnlock with
    | some id => ui.desktop.denyUnlockRequest id
    | none => ([], ui.desktop)
  | .beginAppUnlock => ui.desktop.beginAppUnlock a
  | .useAppUnlockPin => ([], ui.desktop.useAppUnlockPin)
  | .authenticateAppPin => ui.desktop.authenticateAppPin platform a
  | .lockVault => ui.desktop.lockImmediately a
  | .lockApp => ui.desktop.lockApp a
  | .navigate target => ([], ui.desktop.requestNavigation target)
  | .editDraft draft => ([], { ui.desktop with draft := draft, addFormError := none, notice := none })
  | .saveSecret => ui.desktop.saveSecret a
  | .unlockSecret => ([], { ui.desktop with unlockConfirmation := true, localPin := "" })
  | .openDetail editing => ui.desktop.openDetail a editing
  | .hideDetail => ([], ui.desktop.hideDetail)
  | .editDetail name fields => ([], ui.desktop.editDetail name fields)
  | .saveDetail => ui.desktop.saveDetail a
  | .requestDelete =>
    match ui.desktop.detail.selected with
    | some id => ([], ui.desktop.requestDelete id)
    | none => ([], ui.desktop)
  | .confirmDelete => ui.desktop.deleteSelected a
  | .cancelDelete => ([], { ui.desktop with pendingDelete := none })
  | .editSession client name note => ([], ui.desktop.editSession client name note)
  | .saveAliasAndNote client connectionId name note =>
    ui.desktop.saveAliasAndNote a client connectionId name note
  | .revokeSession client => ui.desktop.revokeAgentSession a client
  | .revokeGrant client secret => ui.desktop.revokeAgentGrant a client secret
  | .revokeAll => ui.desktop.revokeAllAgentGrants a
  | .beginUnattended => ([], ui.desktop.beginUnattendedConfirmation a)
  | .confirmSecret method => ui.desktop.authenticateSelectedSecret platform a method
  | .cancelSecret =>
    ([], { ui.desktop with pendingTouchId := none, unlockConfirmation := false, localPin := "" })
  | .continueEditing => ([], ui.desktop.cancelDiscardNavigation)
  | .discard => ([], ui.desktop.finishDiscardNavigation)
  | .approve method lifetime =>
    match ui.shown with
    | some pending => ui.desktop.authenticatePendingApproval platform a method pending lifetime
    | none => ([], ui.desktop)
  | .deny =>
    match ui.shown with
    | some pending => ui.desktop.denyApproval a pending.id
    | none => ([], ui.desktop)
  | .chooseLifetime lifetime => ([], ui.desktop.chooseLifetime lifetime)
  | .typeLocalTime text => ([], ui.desktop.typeLocalTime text)
  | .confirmUnattended method => ui.desktop.authenticateUnattended platform a method
  | .cancelUnattended => ([], { ui.desktop with
      unattendedConfirmation := none, pendingTouchId := none, localPin := "" })

inductive Event
  /-- A stage of a frame, before anything of it is drawn. -/
  | stage (s : Stage) (a : Answers)
  /-- The screen is drawn that the phase asks for. -/
  | draw (a : Answers)
  /-- The manager is drawn, and the phase looked at again. -/
  | drawn (a : Answers)
  /-- The request of an agent that is pending is put before the human. -/
  | observe (a : Answers)
  | act (action : Action) (a : Answers)
  | exit (a : Answers)

/-- What an event does, where the screen admits it. -/
def perform (platform : Platform) (ui : Ui) : Event → Option (List Effect × Ui)
  | .stage s a => some ((ui.desktop.stage platform a s).1,
      ⟨(ui.desktop.stage platform a s).2, .blank, none⟩)
  | .draw a =>
    let screen := screenFor (a.phaseAt .frame) ui.desktop
    some ([], ⟨ui.desktop.draw a screen, screen, none⟩)
  | .drawn a =>
    if ui.screen ≠ .manager then none
    else if managerRenderingAllowed (a.phaseAt .rejected) ui.desktop.desktopLock then
      some ([], { ui with screen := .dialogs })
    else
      let screen := overlayFor (a.phaseAt .rejected) ui.desktop
      some ([], ⟨ui.desktop.draw a screen, screen, none⟩)
  | .observe a =>
    if ui.screen ≠ .dialogs then none
    else some ([], { ui with
      shown := (ui.desktop.observeApproval a).1, desktop := (ui.desktop.observeApproval a).2 })
  | .act action a =>
    if action.offered a ui then
      some ((action.run platform a ui).1, { ui with desktop := (action.run platform a ui).2 })
    else none
  | .exit a => some ((ui.desktop.onExit a).1, ⟨(ui.desktop.onExit a).2, .blank, none⟩)

def apply (platform : Platform) (ui : Ui) (e : Event) : Option Ui :=
  (perform platform ui e).map Prod.snd

/-- The desktop as it is started, with the phase that the vault has. -/
def Ui.initial (phase : VaultUiPhase) : Ui := ⟨{ lastPhase := phase }, .locked, none⟩

abbrev Occurrence := Machine.Occurrence Ui Event

/-- What an event did outside the desktop. -/
def effects (platform : Platform) (o : Occurrence) : List Effect :=
  ((perform platform o.before o.event).map Prod.fst).getD []

end Ladon.Desktop

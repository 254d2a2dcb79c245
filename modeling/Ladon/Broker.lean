import Ladon.ApprovalRun
import Ladon.Controller

/-!
The broker at work: threads that serve run requests, threads that lock the application, and a human
at the desktop, all on one approval coordinator, one run coordinator and one vault controller.

A step is one section under one mutex. The approval coordinator is held while an operation that
needs a grant, or a change of a secret, goes to another mutex in turn: such an operation takes two
steps, and between them only steps that do not need the approval coordinator can happen.
-/

namespace Ladon.Broker

open Ladon.Error Ladon.Model Ladon.Vault Ladon.Runner Ladon.SecretEditor Ladon.Approval
  Ladon.Grants Ladon.Controller Ladon.Lib

/-! ### The run coordinator -/

structure ActiveRun where
  cancellation : Token
  clientSessionId : Uuid
  secretIds : Option (List SecretId)
  running : Bool
  deriving DecidableEq

/-- At most one run is active, and new ones may be blocked. -/
structure RunCoordinator where
  active : Option ActiveRun := none
  blockNew : Bool := false
  deriving DecidableEq

namespace RunCoordinator

def tryStart (cancellation : Token) (client : Uuid) (s : RunCoordinator) :
    Except LadonError Unit × RunCoordinator :=
  if s.blockNew ∨ s.active.isSome then (.error .busy, s)
  else (.ok (), { s with active := some ⟨cancellation, client, none, false⟩ })

/-- The run that cancelling the active one cancels. -/
def activeToken (s : RunCoordinator) : List Token := (s.active.map ActiveRun.cancellation).toList

def setSecretContext (secretIds : List SecretId) (s : RunCoordinator) :
    Except LadonError Unit × RunCoordinator :=
  match s.active with
  | none => (.error .invalidRequest, s)
  | some active =>
    if active.secretIds.isSome then (.error .invalidRequest, s)
    else (.ok (), { s with active := some { active with secretIds := some secretIds } })

/-- A child is started behind the gate that cancelling goes through: not once the run has been
cancelled. -/
def spawnChild (cancelled : List Token) (launched : Except LadonError Unit) (s : RunCoordinator) :
    Except LadonError Unit × RunCoordinator :=
  match s.active with
  | none => (.error .invalidRequest, s)
  | some active =>
    if active.secretIds.isNone then (.error .invalidRequest, s)
    else if active.cancellation ∈ cancelled then (.error .approvalCancelled, s)
    else match launched with
      | .error e => (.error e, s)
      | .ok () => (.ok (), { s with active := some { active with running := true } })

/-- The lease of the active run is dropped. -/
def dropLease (s : RunCoordinator) : RunCoordinator := { s with active := none }

def block (s : RunCoordinator) : RunCoordinator := { s with blockNew := true }

def dropBlock (s : RunCoordinator) : RunCoordinator := { s with blockNew := false }

end RunCoordinator

section Machine

variable [UnicodeNormalization]

/-! ### Threads -/

/-- How far a thread that serves a run request has come. A thread that has been checked by
`with_valid_grant` keeps what the check read from outside. -/
inductive RunStage
  | requested
  | refused
  | reserved
  | admitted
  | observed
  | planned (plan : ApprovalPlan)
  | prepared (plan : ApprovalPlan)
  | waiting (plan : ApprovalPlan) (w : Waiting)
  | ticketed (plan : ApprovalPlan) (ticket : GrantTicket)
  | resolving (plan : ApprovalPlan) (ticket : GrantTicket) (checked : Env)
  | resolved (plan : ApprovalPlan) (ticket : GrantTicket)
  | spawning (plan : ApprovalPlan) (ticket : GrantTicket) (checked : Env)
  | running (plan : ApprovalPlan)
  | plain
  | plainResolved
  | plainAdmitted
  | plainRunning
  | failed (e : LadonError)
  | ended

structure RunThread where
  client : Uuid
  label : String
  cancellation : Token
  request : ValidatedRunRequest
  stage : RunStage := .requested

/-- How far a lock has come: of the application, on a human's wish, or on its own after a while, where
runs under unattended grants go on; or of the vault, which remembers whether all went well. -/
inductive LockStage
  | begun (epoch : ℕ)
  | cancelled (epoch : ℕ)
  | draining (epoch : ℕ)
  | blocked (epoch : ℕ)
  | releasing
  | autoBegun (epoch : ℕ)
  | snapshot (epoch : ℕ) (active : Option ActiveRun)
  | judged (epoch : ℕ) (uncovered : Option Token)
  | watching (epoch : ℕ)
  | clear (epoch : ℕ)
  | vaultBegun
  | vaultCancelled
  | vaultRevoked (ok : Bool)
  | vaultDraining (ok : Bool)
  | vaultBlocked (ok : Bool)
  | vaultClosed (ok : Bool)
  | vaultReset (ok : Bool)
  | ended

/-- A change of a secret that has been prepared. -/
inductive PreparedMutation
  | update (prepared : PreparedRecordReplacement)
  | delete (id : SecretId)

/-- Who holds the approval coordinator between two steps. -/
inductive Holder
  | run (r : ℕ)
  | mutation (prepared : PreparedMutation)

structure State where
  env : Env
  approval : ApprovalState
  controller : VaultController
  runs : RunCoordinator := {}
  threads : ℕ → Option RunThread := fun _ => none
  locks : ℕ → Option LockStage := fun _ => none
  holder : Option Holder := none

/-- What a thread draws or is told from outside in a step. -/
structure Choice where
  approvalId : Uuid
  ambient : Ambient
  launched : Except LadonError Unit

/-! ### A thread that serves a run request -/

namespace State

def setThread (b : State) (r : ℕ) (t : RunThread) (stage : RunStage) : State :=
  { b with threads := Function.update b.threads r (some { t with stage := stage }) }

/-- A call of the approval coordinator, with the stage its result leads to. -/
def callFor (approvalTimeout : Duration) (b : State) (r : ℕ) (t : RunThread) (call : Call)
    (stage : RunStage) : State :=
  { b with approval := call.after approvalTimeout b.env b.approval }.setThread r t stage

/-- The stage behind a step that may fail. -/
def stageOf {α : Type} (result : Except LadonError α) (next : α → RunStage) : RunStage :=
  match result with
  | .ok a => next a
  | .error e => .failed e

def request (t : RunThread) (plan : ApprovalPlan) (approvalId : Uuid) : PendingApproval where
  id := approvalId
  vaultSessionId := plan.vaultSessionId
  clientSessionId := t.client
  clientLabel := t.label
  secrets := plan.secrets
  executable := t.request.executable
  arguments := t.request.arguments
  workingDirectory := t.request.workingDirectory

/-- The stage behind the check of `with_valid_grant`. -/
def checkStage (b : State) (ticket : GrantTicket) (next : RunStage) : RunStage :=
  if (b.approval.grantIsValid b.env ticket).1 then next else .failed .approvalCancelled

/-- The check of `with_valid_grant`; where it passes, the thread keeps the approval coordinator. -/
def check (approvalTimeout : Duration) (b : State) (r : ℕ) (t : RunThread) (ticket : GrantTicket)
    (next : RunStage) : State :=
  { b.callFor approvalTimeout r t (.withValidGrant ticket) (b.checkStage ticket next) with
    holder := if (b.approval.grantIsValid b.env ticket).1 then some (.run r) else none }

/-- The next step of a thread, where it has one; a step that needs the approval coordinator only
when nobody holds it. -/
def stepRun (approvalTimeout : Duration) (b : State) (r : ℕ) (c : Choice) : Option State :=
  match b.threads r with
  | none => none
  | some t =>
    match t.stage with
    | .requested =>
      let (result, runs) := b.runs.tryStart t.cancellation t.client
      some ({ b with runs := runs }.setThread r t
        (match result with
          | .ok () => .reserved
          | .error _ => .refused))
    | .reserved =>
      if b.holder.isSome then none
      else some (b.callFor approvalTimeout r t (.requireClientAccess t.client)
        (stageOf (b.approval.requireClientAccess b.env t.client).1 fun _ => .admitted))
    | .admitted =>
      if b.holder.isSome then none
      else some (b.callFor approvalTimeout r t
        (.observeRun t.client t.request.workingDirectory t.request.executable) .observed)
    | .observed =>
      if t.request.bindings = [] then
        let (result, runs) := b.runs.setSecretContext []
        some ({ b with runs := runs }.setThread r t (stageOf result fun _ => .plain))
      else
        some (b.setThread r t (stageOf (b.controller.approvalPlan t.request.bindings) .planned))
    | .planned plan =>
      let (result, runs) := b.runs.setSecretContext plan.bindingSecretIds
      some ({ b with runs := runs }.setThread r t (stageOf result fun _ => .prepared plan))
    | .prepared plan =>
      if b.holder.isSome then none
      else some (b.callFor approvalTimeout r t
        (.authorize (request t plan c.approvalId) t.cancellation)
        (match (b.approval.authorize approvalTimeout b.env (request t plan c.approvalId)
            t.cancellation).1 with
          | .done result => stageOf result (.ticketed plan)
          | .waiting w => .waiting plan w))
    | .waiting plan w =>
      if b.holder.isSome then none
      else some (b.callFor approvalTimeout r t (.poll w)
        (match (b.approval.poll b.env w).1 with
          | none => .waiting plan w
          | some result => stageOf result (.ticketed plan)))
    | .ticketed plan ticket =>
      if b.holder.isSome then none
      else some (b.check approvalTimeout r t ticket (.resolving plan ticket b.env))
    | .resolving plan ticket _ =>
      let (result, controller) :=
        b.controller.resolveBindingsForIds c.ambient t.request.bindings plan.bindingSecretIds
      some ({ b with controller := controller, holder := none }.setThread r t
        (stageOf result fun _ => .resolved plan ticket))
    | .resolved plan ticket =>
      if b.holder.isSome then none
      else some (b.check approvalTimeout r t ticket (.spawning plan ticket b.env))
    | .spawning plan _ _ =>
      let (result, runs) := b.runs.spawnChild b.env.cancelled c.launched
      some ({ b with runs := runs, holder := none }.setThread r t
        (stageOf result fun _ => .running plan))
    | .plain =>
      let (result, controller) := b.controller.resolveBindings c.ambient t.request.bindings
      some ({ b with controller := controller }.setThread r t
        (stageOf result fun _ => .plainResolved))
    | .plainResolved =>
      if b.holder.isSome then none
      else some (b.callFor approvalTimeout r t (.requireClientAccess t.client)
        (stageOf (b.approval.requireClientAccess b.env t.client).1 fun _ => .plainAdmitted))
    | .plainAdmitted =>
      let (result, runs) := b.runs.spawnChild b.env.cancelled c.launched
      some ({ b with runs := runs }.setThread r t (stageOf result fun _ => .plainRunning))
    | .running _ | .plainRunning | .failed _ =>
      some ({ b with runs := b.runs.dropLease }.setThread r t .ended)
    | .refused | .ended => none

/-- A thread gives up for a reason of its own: the supervisor is busy, a file cannot be made, the
program is shutting down. -/
def abandon (b : State) (r : ℕ) (e : LadonError) : Option State :=
  match b.threads r with
  | none => none
  | some t =>
    match t.stage with
    | .reserved | .admitted | .observed | .planned _ | .prepared _ | .ticketed _ _ | .resolved _ _
    | .plain | .plainResolved | .plainAdmitted => some (b.setThread r t (.failed e))
    | _ => none

/-! ### A thread that locks the application or the vault -/

def setLock (b : State) (l : ℕ) (stage : LockStage) : State :=
  { b with locks := Function.update b.locks l (some stage) }

/-- Runs and connections are cancelled. -/
def cancelTokens (b : State) (tokens : List Token) : State :=
  { b with env := { b.env with cancelled := tokens ++ b.env.cancelled } }

def beginLock (approvalTimeout : Duration) (b : State) (l : ℕ) (preserve : Bool) : Option State :=
  if b.holder.isSome ∨ (b.locks l).isSome then none
  else
    let call : Call := if preserve then .beginAutoAppLock else .beginAppLock
    some ({ b with approval := call.after approvalTimeout b.env b.approval }.setLock l
      (match (b.approval.beginAppLockWithPolicy b.env preserve).1 with
        | .error _ => .ended
        | .ok epoch => if preserve then .autoBegun epoch else .begun epoch))

/-- A vault is to be locked. -/
def beginVaultLock (b : State) (l : ℕ) : Option State :=
  if (b.locks l).isSome then none else some (b.setLock l .vaultBegun)

/-- A call of the approval coordinator in the course of a lock. -/
def callInLock (approvalTimeout : Duration) (b : State) (l : ℕ) (call : Call) (stage : LockStage) :
    Option State :=
  if b.holder.isSome then none
  else some ({ b with approval := call.after approvalTimeout b.env b.approval }.setLock l stage)

/-- The active run is one that has been cancelled. -/
def activeCancelled (b : State) : Bool := b.runs.active.any (·.cancellation ∈ b.env.cancelled)

/-- The secrets of a run as a lock sees them: none where their list is not known yet. -/
def contextIds (active : ActiveRun) : List SecretId := active.secretIds.getD []

def stepLock (approvalTimeout : Duration) (b : State) (l : ℕ) : Option State :=
  match b.locks l with
  | none => none
  | some stage =>
    match stage with
    | .begun epoch => some ((b.cancelTokens b.runs.activeToken).setLock l (.cancelled epoch))
    | .cancelled epoch =>
      if b.runs.blockNew then none
      else some (({ b with runs := b.runs.block }.cancelTokens b.runs.activeToken).setLock l
        (.draining epoch))
    | .draining epoch =>
      if b.runs.active.isSome then none else some (b.setLock l (.blocked epoch))
    | .blocked epoch => b.callInLock approvalTimeout l (.finishAppLock epoch) .releasing
    | .releasing => some ({ b with runs := b.runs.dropBlock }.setLock l .ended)
    | .autoBegun epoch => some (b.setLock l (.snapshot epoch b.runs.active))
    | .snapshot epoch none => some (b.setLock l (.judged epoch none))
    | .snapshot epoch (some active) =>
      b.callInLock approvalTimeout l
        (.unattendedCovers active.clientSessionId (contextIds active))
        (.judged epoch
          (match (b.approval.unattendedCovers b.env active.clientSessionId (contextIds active)).1 with
            | .ok true => none
            | _ => some active.cancellation))
    | .judged epoch uncovered =>
      some ((b.cancelTokens uncovered.toList).setLock l (.watching epoch))
    | .watching epoch => if b.activeCancelled then none else some (b.setLock l (.clear epoch))
    | .clear epoch => b.callInLock approvalTimeout l (.finishAppLock epoch) .ended
    | .vaultBegun => b.callInLock approvalTimeout l .cancelPending .vaultCancelled
    | .vaultCancelled =>
      b.callInLock approvalTimeout l .revokeAll (.vaultRevoked b.approval.revokeAll.1.toBool)
    | .vaultRevoked ok =>
      if b.runs.blockNew then none
      else some (({ b with runs := b.runs.block }.cancelTokens b.runs.activeToken).setLock l
        (.vaultDraining ok))
    | .vaultDraining ok =>
      if b.runs.active.isSome then none else some (b.setLock l (.vaultBlocked ok))
    | .vaultBlocked ok =>
      some ({ b with controller := b.controller.lock }.setLock l (.vaultClosed ok))
    | .vaultClosed ok =>
      b.callInLock approvalTimeout l .resetAfterVaultLock
        (.vaultReset (ok && b.approval.resetAfterVaultLock.1.toBool))
    | .vaultReset _ => some ({ b with runs := b.runs.dropBlock }.setLock l .ended)
    | .ended => none

end State

/-! ### The desktop -/

inductive Mutation
  | update (draft : EditSecretDraft)
  | delete (id : SecretId)

def Mutation.secret : Mutation → SecretId
  | .update draft => draft.id
  | .delete id => id

def Mutation.prepare (c : VaultController) : Mutation → Except LadonError PreparedMutation
  | .update draft => (c.prepareSecretUpdate draft).map .update
  | .delete id => (c.ensureSecretExists id).map fun _ => .delete id

def PreparedMutation.commit (amb : Ambient) (storage : Storage) (c : VaultController) :
    PreparedMutation → VaultController
  | .update prepared => (c.applySecretUpdate amb storage prepared).2
  | .delete id => (c.deleteSecret amb storage id).2

/-- The calls that are not steps of one of the threads here; they are made by other connections and
at the desktop. -/
def isPlainCall : Call → Bool
  | .authorize _ _ | .poll _ | .withValidGrant _ | .beginAppLock | .beginAutoAppLock
  | .finishAppLock _ | .coordinateSecretMutation _ _ _ | .captureUnattended _ _ => false
  | _ => true

/-- What happens: connections end and clocks advance, calls are made from elsewhere, the controller
is used, and threads take steps. A status request changes nothing. -/
inductive Event
  | cancel (token : Token)
  | advance (clock : Clock) (instant : ℕ)
  | call (call : Call)
  | controller (amb : Ambient) (op : ControllerOp)
  | capture (client : Uuid)
  | mutate (m : Mutation)
  | commit (amb : Ambient) (storage : Storage)
  | request (r : ℕ) (t : RunThread)
  | run (r : ℕ) (c : Choice)
  | abandon (r : ℕ) (e : LadonError)
  | beginLock (l : ℕ) (preserve : Bool)
  | beginVaultLock (l : ℕ)
  | lock (l : ℕ)
  | status

namespace State

/-- What the controller answers to a client that is to be allowed to work unattended. -/
def sessionSnapshot (c : VaultController) : Except LadonError Uuid :=
  match c.sessionId with
  | some vault => .ok vault
  | none => .error .vaultLocked

/-- The secret may be changed: the grants for it are gone, and the approval coordinator is kept until
the change is committed. -/
def mutate (approvalTimeout : Duration) (b : State) (m : Mutation) : Option State :=
  if b.holder.isSome then none
  else match m.prepare b.controller with
    | .error _ => some b
    | .ok prepared =>
      let call : Call := .coordinateSecretMutation m.secret (.ok ()) (.ok ())
      some { b with
        approval := call.after approvalTimeout b.env b.approval
        holder :=
          match (b.approval.coordinateSecretMutation b.env m.secret (.ok ()) fun _ => .ok ()).1 with
          | .ok () => some (.mutation prepared)
          | .error _ => none }

/-- The change is committed; the commit may fail, which locks the vault. -/
def commit (b : State) (amb : Ambient) (storage : Storage) : Option State :=
  match b.holder with
  | some (.mutation prepared) =>
    some { b with controller := prepared.commit amb storage b.controller, holder := none }
  | _ => none

/-- The broker behind an event, where it can happen. -/
def apply (approvalTimeout : Duration) (b : State) : Event → Option State
  | .cancel token => some (b.cancelTokens [token])
  | .advance clock instant =>
    if b.env.clock.nowMillis ≤ clock.nowMillis ∧ b.env.instant ≤ instant then
      some { b with env := { b.env with clock := clock, instant := instant } }
    else none
  | .call call =>
    if b.holder.isSome ∨ ¬ isPlainCall call then none
    else some { b with
      env := { b.env with cancelled := call.cancelledAfter b.approval b.env.cancelled }
      approval := call.after approvalTimeout b.env b.approval }
  | .controller amb op => some { b with controller := op.after amb b.controller }
  | .capture client =>
    if b.holder.isSome then none
    else
      let call : Call := .captureUnattended client (sessionSnapshot b.controller)
      some { b with approval := call.after approvalTimeout b.env b.approval }
  | .mutate m => b.mutate approvalTimeout m
  | .commit amb storage => b.commit amb storage
  | .request r t =>
    if (b.threads r).isSome then none else some (b.setThread r t .requested)
  | .run r c => b.stepRun approvalTimeout r c
  | .abandon r e => b.abandon r e
  | .beginLock l preserve => b.beginLock approvalTimeout l preserve
  | .beginVaultLock l => b.beginVaultLock l
  | .lock l => b.stepLock approvalTimeout l
  | .status => some b

def initial (env : Env) (grantLifetime : Duration) (fileExists : Bool) : State where
  env := env
  approval := .new grantLifetime
  controller := .new fileExists

end State

/-- An event, and the broker it happened to. -/
structure Occurrence where
  before : State
  event : Event

inductive Step (approvalTimeout : Duration) : State → Occurrence → State → Prop
  | mk {b b' : State} {e : Event} (h : b.apply approvalTimeout e = some b') :
      Step approvalTimeout b ⟨b, e⟩ b'

namespace State

/-- Events that happen one after another, with the broker behind them. -/
def play (approvalTimeout : Duration) (b : State) : List Event → Option (List Occurrence × State)
  | [] => some ([], b)
  | e :: events => do
    let b' ← b.apply approvalTimeout e
    let (history, last) ← b'.play approvalTimeout events
    return (⟨b, e⟩ :: history, last)

end State

lemma play_cons {approvalTimeout : Duration} {b last : State} {e : Event} {events : List Event}
    {history : List Occurrence} (h : b.play approvalTimeout (e :: events) = some (history, last)) :
    ∃ b' rest, history = ⟨b, e⟩ :: rest ∧ b.apply approvalTimeout e = some b' ∧
      b'.play approvalTimeout events = some (rest, last) := by
  simp only [State.play, Option.bind_eq_bind, Option.bind_eq_some_iff] at h
  obtain ⟨b', he, ⟨rest, last'⟩, hrest, h⟩ := h
  cases h
  exact ⟨b', rest, rfl, he, hrest⟩

lemma run_of_play {approvalTimeout : Duration} {b last : State} {events : List Event}
    {history : List Occurrence} (h : b.play approvalTimeout events = some (history, last)) :
    Run (Step approvalTimeout) b history last := by
  induction events generalizing b history with
  | nil =>
    cases h
    exact .nil _
  | cons e events ih =>
    obtain ⟨b', rest, rfl, he, hrest⟩ := play_cons h
    exact .cons (.mk he) (ih hrest)

end Machine

end Ladon.Broker

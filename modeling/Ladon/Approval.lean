import Ladon.Error
import Ladon.Grants
import Mathlib.Data.List.DropRight
import Mathlib.Data.List.Sort

/-!
The approval coordinator: requests that wait for a human decision, the grants that decisions make,
the client sessions and the lock of the application.

Every operation runs under one mutex; here it is a function from the state before it to its result
and the state behind it. What it reads from outside (the clocks, and which connections have gone) is
its first argument. A call of `authorize` that has to wait lets go of the mutex: it is cut into its
entry and one `poll` for every time it wakes up.
-/

namespace Ladon.Approval

open Ladon.Error Ladon.Model Ladon.Grants Ladon.Lib Ladon.Lib.Word

def maxTrackedSessions : ℕ := 32

/-- A connection or a run, as what can be cancelled. -/
abbrev Token := ℕ

structure Env where
  clock : Clock
  instant : ℕ
  cancelled : List Token
  deriving DecidableEq

structure ApprovalSecret where
  id : SecretId
  name : String
  fields : List String
  deriving DecidableEq

structure PendingApproval where
  id : Uuid
  vaultSessionId : Uuid
  clientSessionId : Uuid
  clientLabel : String
  secrets : List ApprovalSecret
  executable : String
  arguments : List String
  workingDirectory : String
  deriving DecidableEq

def PendingApproval.secretIds (r : PendingApproval) : List SecretId :=
  r.secrets.map ApprovalSecret.id

/-- The request for some of its secrets. -/
def PendingApproval.restrict (r : PendingApproval) (ids : List SecretId) : PendingApproval :=
  { r with secrets := r.secrets.filter fun secret => secret.id ∈ ids }

inductive AppAccessState
  | active
  | locking (epoch : ℕ)
  | locked (epoch : ℕ)
  deriving DecidableEq

structure SessionDetails where
  clientSessionId : Uuid
  connectionId : Uuid
  reportedName : String
  userName : String
  note : String
  workingDirectory : String
  lastAction : String
  connectedAt : ℤ
  lastActivity : ℤ
  deriving DecidableEq

structure UnattendedContext where
  client : Uuid
  vault : Uuid
  revision : ℕ
  epoch : ℕ
  connectionId : Uuid
  sessionLabel : String
  deriving DecidableEq

structure GrantTicket where
  vaultSessionId : Uuid
  clientSessionId : Uuid
  secretIds : List SecretId
  deriving DecidableEq

structure ActiveGrantSnapshot where
  clientSessionId : Uuid
  clientLabel : String
  secretId : SecretId
  remaining : Duration
  expiresWithSession : Bool
  unattended : Bool
  expiresAt : Option ℤ
  deriving DecidableEq

inductive ApprovalDecision
  | approve (lifetime : Option Duration)
  | approveUntil (deadline : ℤ)
  | approveSession
  | granted
  | deny
  | cancel
  deriving DecidableEq

/-- A decision that lets the request through with grants of its own. -/
def ApprovalDecision.approves : ApprovalDecision → Bool
  | .approve _ | .approveUntil _ | .approveSession => true
  | .granted | .deny | .cancel => false

structure PendingState where
  request : PendingApproval
  requestedSecretIds : List SecretId
  decision : Option ApprovalDecision
  deriving DecidableEq

structure ApprovalState where
  grants : GrantStore
  vaultSessionId : Option Uuid
  pending : Option PendingState
  clientLabels : Table Uuid String
  clientSessions : Table Uuid Token
  sessionsClosed : Bool
  appAccess : AppAccessState
  lockEpoch : ℕ
  revision : ℕ
  sessions : Table Uuid SessionDetails
  deriving DecidableEq

/-- A call of `authorize` that waits. -/
structure Waiting where
  approvalId : Uuid
  ticket : GrantTicket
  cancellation : Token
  deadline : ℕ
  deriving DecidableEq

inductive Authorization
  | done (result : Except LadonError GrantTicket)
  | waiting (w : Waiting)

namespace ApprovalState

def new (grantLifetime : Duration) : ApprovalState where
  grants := .new grantLifetime
  vaultSessionId := none
  pending := none
  clientLabels := .empty
  clientSessions := .empty
  sessionsClosed := false
  appAccess := .active
  lockEpoch := 0
  revision := 0
  sessions := .empty

/-! ### Parts of operations -/

def isAppActive (s : ApprovalState) : Bool := s.appAccess = .active

/-- The pending approval, if it is one of those, is cancelled. -/
def cancelPendingIf (s : ApprovalState) (p : PendingState → Bool) : ApprovalState :=
  { s with pending := s.pending.map fun q => if p q then { q with decision := some .cancel } else q }

def disconnect (s : ApprovalState) (client : Uuid) : ApprovalState :=
  { s with
    clientSessions := s.clientSessions.erase client
    grants := s.grants.revokeClient client
    clientLabels := s.clientLabels.erase client
    sessions := s.sessions.erase client }.cancelPendingIf (·.request.clientSessionId = client)

/-- The clients whose connection has gone. -/
def disconnected (env : Env) (s : ApprovalState) : List Uuid :=
  (s.clientSessions.retain fun _ token => token ∈ env.cancelled).keys

def purgeDisconnectedClients (env : Env) (s : ApprovalState) : ApprovalState :=
  (disconnected env s).foldl disconnect s

def pruneClientLabels (env : Env) (s : ApprovalState) : ApprovalState :=
  let (active, grants) := s.grants.active env.clock
  { s with
    grants := grants
    clientLabels := s.clientLabels.retain fun client _ =>
      active.any fun grant => grant.clientSessionId = client }

def clientHasUnattended (env : Env) (client : Uuid) (s : ApprovalState) : Bool × ApprovalState :=
  if s.clientSessions.contains client then
    let (has, grants) := s.grants.hasUnattended env.clock client
    (has, { s with grants := grants })
  else (false, s)

/-- The client has unattended grants for all of the secrets. -/
def coversUnattended (env : Env) (client : Uuid) (secrets : List SecretId) (s : ApprovalState) :
    Bool × ApprovalState :=
  let (has, s) := s.clientHasUnattended env client
  if has then
    let (missing, grants) := s.grants.missingUnattended env.clock client secrets
    (missing.isEmpty, { s with grants := grants })
  else (false, s)

def decisionFor (s : ApprovalState) (approvalId : Uuid) : Option ApprovalDecision :=
  s.pending.bind fun p => if p.request.id = approvalId then p.decision else none

/-- Nothing is pending any longer. -/
def takePending (s : ApprovalState) : ApprovalState := { s with pending := none }

def clearPending (env : Env) (approvalId : Uuid) (s : ApprovalState) : ApprovalState :=
  if s.pending.any (·.request.id = approvalId) then s.takePending.pruneClientLabels env
  else s

/-- The session of the vault the coordinator works for; the grants of another one are dropped. -/
def enterVaultSession (s : ApprovalState) (vault : Uuid) : ApprovalState :=
  if s.vaultSessionId ≠ some vault then
    { s with grants := s.grants.revokeAll, clientLabels := .empty, vaultSessionId := some vault }
  else s

/-- The next revision, where there is one. -/
def nextRevision (s : ApprovalState) : Except LadonError ApprovalState :=
  match checkedAdd s.revision 1 with
  | some revision => .ok { s with revision := revision }
  | none => .error .invalidRequest

/-- A lock under the next epoch, where there is one. -/
def nextEpoch (s : ApprovalState) : Except LadonError ℕ :=
  match checkedAdd s.lockEpoch 1 with
  | some epoch => .ok epoch
  | none => .error .invalidRequest

/-! ### Authorizing a run -/

/-- The secrets of a request that its client has no grant for; the client is known by its label
from here on. -/
def findMissing (env : Env) (request : PendingApproval) (s : ApprovalState) :
    List SecretId × ApprovalState :=
  let (missing, grants) := s.grants.missing env.clock request.clientSessionId request.secretIds
  (missing, { s with
    grants := grants
    clientLabels := s.clientLabels.insert request.clientSessionId request.clientLabel })

def authorize (approvalTimeout : Duration) (env : Env) (request : PendingApproval)
    (cancellation : Token) (s : ApprovalState) : Authorization × ApprovalState :=
  let s := s.purgeDisconnectedClients env
  if ¬ s.isAppActive then
    let ids := request.secretIds
    if s.vaultSessionId ≠ some request.vaultSessionId then (.done (.error .vaultLocked), s)
    else
      let (covered, s) := s.coversUnattended env request.clientSessionId ids
      if covered then
        (.done (.ok ⟨request.vaultSessionId, request.clientSessionId, ids⟩), s)
      else (.done (.error .vaultLocked), s)
  else if s.pending.isSome then (.done (.error .busy), s)
  else
    let s := s.enterVaultSession request.vaultSessionId
    let ticket : GrantTicket :=
      ⟨request.vaultSessionId, request.clientSessionId, request.secretIds.eraseDups⟩
    let (missing, s) := s.findMissing env request
    if missing.isEmpty then (.done (.ok ticket), s)
    else
      (.waiting ⟨request.id, ticket, cancellation, env.instant + approvalTimeout⟩,
        { s with pending := some ⟨request.restrict missing, ticket.secretIds, none⟩ })

/-- The grants of a request that was approved, with the label of its client. -/
def grantRequest (s : ApprovalState) (request : PendingApproval) (grants : GrantStore) :
    ApprovalState :=
  { s with
    grants := grants
    clientLabels := s.clientLabels.insert request.clientSessionId request.clientLabel }

/-- A decision is taken up by the call that waits for it; the request is no longer pending. -/
def takeUp (env : Env) (ticket : GrantTicket) (request : PendingApproval) (s : ApprovalState) :
    ApprovalDecision → Except LadonError GrantTicket × ApprovalState
  | .granted =>
    let (missing, grants) := s.grants.missing env.clock ticket.clientSessionId ticket.secretIds
    (if missing.isEmpty then .ok ticket else .error .approvalCancelled, { s with grants := grants })
  | .approve lifetime =>
    (.ok ticket, s.grantRequest request
      (match lifetime with
        | some lifetime =>
          s.grants.grantFor env.clock request.clientSessionId request.secretIds lifetime
        | none => s.grants.grant env.clock request.clientSessionId request.secretIds))
  | .approveUntil deadline =>
    (.ok ticket, s.grantRequest request
      (s.grants.grantUntil env.clock request.clientSessionId request.secretIds deadline))
  | .approveSession =>
    if (s.clientSessions.get? request.clientSessionId).all (· ∈ env.cancelled) then
      (.error .approvalCancelled, s)
    else
      (.ok ticket, s.grantRequest request
        (s.grants.grantSession env.clock request.clientSessionId request.secretIds))
  | .deny => (.error .approvalDenied, s.pruneClientLabels env)
  | .cancel => (.error .approvalCancelled, s.pruneClientLabels env)

/-- One turn of the loop in which a call of `authorize` waits; without a result it goes on. -/
def poll (env : Env) (w : Waiting) (s : ApprovalState) :
    Option (Except LadonError GrantTicket) × ApprovalState :=
  let s := s.purgeDisconnectedClients env
  if w.cancellation ∈ env.cancelled then
    (some (.error .approvalCancelled), s.clearPending env w.approvalId)
  else match s.pending, s.decisionFor w.approvalId with
    | some pending, some decision =>
      let (result, s) := takeUp env w.ticket pending.request s.takePending decision
      (some result, s)
    | _, _ =>
      if w.deadline ≤ env.instant then
        (some (.error .approvalTimeout), s.clearPending env w.approvalId)
      else (none, s)

/-! ### Decisions -/

def setDecision (env : Env) (approvalId : Uuid) (decision : ApprovalDecision)
    (s : ApprovalState) : Except LadonError Unit × ApprovalState :=
  let s := s.purgeDisconnectedClients env
  match s.pending with
  | none => (.error .invalidRequest, s)
  | some pending =>
    if decision = .approveSession ∧
        ¬ s.clientSessions.contains pending.request.clientSessionId then
      (.error .approvalCancelled, s)
    else if pending.request.id ≠ approvalId ∨ pending.decision.isSome then
      (.error .invalidRequest, s)
    else
      let s := { s with pending := some { pending with decision := some decision } }
      (.ok (), if decision.approves then s else s.pruneClientLabels env)

def approve (env : Env) (approvalId : Uuid) := setDecision env approvalId (.approve none)

def approveFor (env : Env) (approvalId : Uuid) (lifetime : Duration) :=
  setDecision env approvalId (.approve (some lifetime))

def approveUntil (env : Env) (approvalId : Uuid) (deadline : ℤ) :=
  setDecision env approvalId (.approveUntil deadline)

def approveSession (env : Env) (approvalId : Uuid) := setDecision env approvalId .approveSession

def deny (env : Env) (approvalId : Uuid) := setDecision env approvalId .deny

def cancelPending (env : Env) (s : ApprovalState) : Except LadonError Unit × ApprovalState :=
  if s.pending.isSome then (.ok (), (s.cancelPendingIf fun _ => true).pruneClientLabels env)
  else (.ok (), s)

/-! ### Sessions -/

def registerClientSession (env : Env) (client : Uuid) (cancellation : Token) (connectionId : Uuid)
    (s : ApprovalState) : Except LadonError Unit × ApprovalState :=
  let s := s.purgeDisconnectedClients env
  if s.sessionsClosed ∨ s.clientSessions.contains client ∨
      maxTrackedSessions ≤ s.clientSessions.size then (.error .busy, s)
  else
    let now := env.clock.wallTime
    (.ok (), { s with
      grants := s.grants.revokeClient client
      sessions := s.sessions.insert client
        { clientSessionId := client
          connectionId := connectionId
          reportedName := "MCP client"
          userName := ""
          note := ""
          workingDirectory := ""
          lastAction := "Connected"
          connectedAt := now
          lastActivity := now }
      clientSessions := s.clientSessions.insert client cancellation })

def clientSessionConnected (env : Env) (client : Uuid) (s : ApprovalState) :
    Except LadonError Bool × ApprovalState :=
  let s := s.purgeDisconnectedClients env
  (.ok (s.clientSessions.contains client), s)

/-- The tokens that closing the sessions cancels. -/
def sessionTokens (s : ApprovalState) : List Token := s.clientSessions.entries.map Prod.snd

/-- The connections are cancelled by the caller's environment; the purge then sees them gone. -/
def closeClientSessions (env : Env) (s : ApprovalState) : Except LadonError Unit × ApprovalState :=
  (.ok (), { s with sessionsClosed := true }.purgeDisconnectedClients
    { env with cancelled := s.sessionTokens ++ env.cancelled })

def pendingRequest (env : Env) (s : ApprovalState) :
    Except LadonError (Option PendingApproval) × ApprovalState :=
  let s := s.purgeDisconnectedClients env
  (.ok ((s.pending.filter (·.decision.isNone)).map PendingState.request), s)

def isControl (c : Char) : Bool := c.toNat < 0x20 || (0x7F ≤ c.toNat && c.toNat ≤ 0x9F)

def boundedMetadata (value : String) (limit : ℕ) : String :=
  String.ofList ((value.toList.filter (!isControl ·)).take limit)

def updateSession (s : ApprovalState) (client : Uuid) (f : SessionDetails → SessionDetails) :
    ApprovalState :=
  match s.sessions.get? client with
  | none => s
  | some session => { s with sessions := s.sessions.insert client (f session) }

/-- The label under which a client goes that has a grant or a request to decide on. -/
def relabel (env : Env) (client : Uuid) (label : String) (s : ApprovalState) : ApprovalState :=
  let (active, grants) := s.grants.active env.clock
  let s := { s with grants := grants }
  let ownsActiveGrant := active.any fun grant => grant.clientSessionId = client
  let hasPendingRequest := s.pending.any fun p =>
    p.decision.isNone && p.request.clientSessionId = client
  if ownsActiveGrant || hasPendingRequest then
    { s with
      pending := s.pending.map fun p =>
        if p.request.clientSessionId = client then
          { p with request := { p.request with clientLabel := label } }
        else p
      clientLabels := s.clientLabels.insert client label }
  else s

def observeClient (env : Env) (client : Uuid) (label : String) (s : ApprovalState) :
    Except LadonError Unit × ApprovalState :=
  let s := (s.purgeDisconnectedClients env).updateSession client fun session =>
    { session with
      reportedName := boundedMetadata label 128
      lastActivity := env.clock.wallTime }
  (.ok (), (s.relabel env client label).pruneClientLabels env)

def observeRun (env : Env) (client : Uuid) (project action : String) (s : ApprovalState) :
    Except LadonError Unit × ApprovalState :=
  (.ok (), s.updateSession client fun session =>
    { session with
      workingDirectory := boundedMetadata project 512
      lastAction := boundedMetadata action 128
      lastActivity := env.clock.wallTime })

/-- Order by the time of connection, then by the client. -/
def sessionLe (a b : SessionDetails) : Bool :=
  a.connectedAt < b.connectedAt || (a.connectedAt = b.connectedAt &&
    !decide (b.clientSessionId.bytes < a.clientSessionId.bytes))

def sessionList (env : Env) (s : ApprovalState) :
    Except LadonError (List SessionDetails) × ApprovalState :=
  let s := s.purgeDisconnectedClients env
  (.ok ((s.sessions.entries.map Prod.snd).insertionSort fun a b => sessionLe a b), s)

/-- The characters with the property `White_Space`. -/
def isWhitespace (c : Char) : Bool :=
  (0x09 ≤ c.toNat && c.toNat ≤ 0x0D) || (0x2000 ≤ c.toNat && c.toNat ≤ 0x200A) ||
    c.toNat ∈ [0x20, 0x85, 0xA0, 0x1680, 0x2028, 0x2029, 0x202F, 0x205F, 0x3000]

def trim (value : String) : String :=
  String.ofList ((value.toList.dropWhile isWhitespace).rdropWhile isWhitespace)

def setSessionAnnotationChecked (env : Env) (client : Uuid) (connectionId : Option Uuid)
    (name note : String) (s : ApprovalState) : Except LadonError Unit × ApprovalState :=
  if 64 < name.length ∨ 512 < note.length ∨ name.toList.any isControl ∨
      note.toList.any (fun c => isControl c && c ≠ '\n') then (.error .invalidRequest, s)
  else
    let s := s.purgeDisconnectedClients env
    if ¬ s.isAppActive then (.error .vaultLocked, s)
    else match s.sessions.get? client with
      | none => (.error .invalidRequest, s)
      | some session =>
        if connectionId.any (· ≠ session.connectionId) then (.error .approvalCancelled, s)
        else
          (.ok (), s.updateSession client fun session =>
            { session with userName := trim name, note := trim note })

def activeGrants (env : Env) (s : ApprovalState) :
    Except LadonError (List ActiveGrantSnapshot) × ApprovalState :=
  let s := s.purgeDisconnectedClients env
  let (active, grants) := s.grants.active env.clock
  let s := { s with
    grants := grants
    clientLabels := s.clientLabels.retain fun client _ =>
      active.any fun grant => grant.clientSessionId = client }
  (.ok (active.map fun grant =>
    { clientSessionId := grant.clientSessionId
      clientLabel := (s.clientLabels.get? grant.clientSessionId).getD "MCP client"
      secretId := grant.secretId
      remaining := grant.remaining
      expiresWithSession := grant.expiresWithSession
      unattended := grant.unattended
      expiresAt := grant.expiresAt }), s)

/-! ### The lock of the application -/

def requireAppActive (s : ApprovalState) : Except LadonError Unit :=
  if s.isAppActive then .ok () else .error .vaultLocked

def beginAppLockWithPolicy (env : Env) (preserve : Bool) (s : ApprovalState) :
    Except LadonError ℕ × ApprovalState :=
  if ¬ s.isAppActive then (.error .busy, s)
  else match s.nextEpoch with
    | .error e => (.error e, s)
    | .ok epoch =>
      let s := { s with lockEpoch := epoch, appAccess := .locking epoch }.cancelPendingIf fun _ => true
      (.ok epoch,
        if preserve then
          { s with grants := s.grants.retainUnattended env.clock }.pruneClientLabels env
        else { s with grants := s.grants.revokeAll, clientLabels := .empty })

def beginAppLock (env : Env) := beginAppLockWithPolicy env false

def beginAutoAppLock (env : Env) := beginAppLockWithPolicy env true

def finishAppLock (epoch : ℕ) (s : ApprovalState) : Except LadonError Unit × ApprovalState :=
  if s.appAccess ≠ .locking epoch then (.error .invalidRequest, s)
  else (.ok (), { s with appAccess := .locked epoch })

def unlockApp (epoch : ℕ) (s : ApprovalState) : Except LadonError Unit × ApprovalState :=
  if s.appAccess ≠ .locked epoch then (.error .invalidRequest, s)
  else (.ok (), { s with appAccess := .active })

def resetAfterVaultLock (s : ApprovalState) : Except LadonError Unit × ApprovalState :=
  match s.nextEpoch with
  | .error e => (.error e, s)
  | .ok epoch =>
    let s := { s with lockEpoch := epoch, appAccess := .active }.cancelPendingIf fun _ => true
    (.ok (), { s with grants := s.grants.revokeAll, clientLabels := .empty, vaultSessionId := none })

/-! ### Revocation -/

def revokeAll (s : ApprovalState) : Except LadonError Unit × ApprovalState :=
  match s.nextRevision with
  | .error e => (.error e, s)
  | .ok s => (.ok (), { s with grants := s.grants.revokeAll, clientLabels := .empty })

def revokePair (env : Env) (client : Uuid) (secret : SecretId) (s : ApprovalState) :
    Except LadonError Bool × ApprovalState :=
  match s.nextRevision with
  | .error e => (.error e, s)
  | .ok s =>
    let s := s.cancelPendingIf fun p =>
      p.request.clientSessionId = client && p.requestedSecretIds.contains secret
    let (revoked, grants) := s.grants.revokePair env.clock client secret
    (.ok revoked, { s with grants := grants }.pruneClientLabels env)

def revokeClient (env : Env) (client : Uuid) (s : ApprovalState) :
    Except LadonError Unit × ApprovalState :=
  match s.nextRevision with
  | .error e => (.error e, s)
  | .ok s =>
    let s := { s with grants := s.grants.revokeClient client }.cancelPendingIf
      (·.request.clientSessionId = client)
    (.ok (), s.pruneClientLabels env)

/-- A change of a secret: what allows it is gone before it is committed, whether or not the commit
succeeds. -/
def coordinateSecretMutation {P T : Type} (env : Env) (secret : SecretId)
    (prepare : Except LadonError P) (commit : P → Except LadonError T) (s : ApprovalState) :
    Except LadonError T × ApprovalState :=
  match prepare with
  | .error e => (.error e, s)
  | .ok prepared =>
    match s.nextRevision with
    | .error e => (.error e, s)
    | .ok s =>
      let s := s.cancelPendingIf (·.requestedSecretIds.contains secret)
      let s := { s with grants := s.grants.revokeSecret secret }.pruneClientLabels env
      (commit prepared, s)

/-! ### Using a grant -/

/-- The application is open, or the ticket is covered by unattended grants. -/
def accessIsValid (env : Env) (ticket : GrantTicket) (s : ApprovalState) : Bool × ApprovalState :=
  if s.isAppActive then (true, s)
  else s.coversUnattended env ticket.clientSessionId ticket.secretIds

/-- The check before an operation that needs the grants of a ticket. -/
def grantIsValid (env : Env) (ticket : GrantTicket) (s : ApprovalState) : Bool × ApprovalState :=
  let (accessValid, s) := (s.purgeDisconnectedClients env).accessIsValid env ticket
  if ¬ accessValid ∨ s.vaultSessionId ≠ some ticket.vaultSessionId then (false, s)
  else
    let (missing, grants) := s.grants.missing env.clock ticket.clientSessionId ticket.secretIds
    (missing.isEmpty, { s with grants := grants })

def withValidGrant {T : Type} (env : Env) (ticket : GrantTicket)
    (operation : Except LadonError T) (s : ApprovalState) : Except LadonError T × ApprovalState :=
  let (valid, s) := s.grantIsValid env ticket
  (if valid then operation else .error .approvalCancelled, s)

def requireClientAccess (env : Env) (client : Uuid) (s : ApprovalState) :
    Except LadonError Unit × ApprovalState :=
  let s := s.purgeDisconnectedClients env
  if s.isAppActive then (.ok (), s)
  else
    let (has, s) := s.clientHasUnattended env client
    (if has then .ok () else .error .vaultLocked, s)

def hasUnattended (env : Env) (client : Uuid) (s : ApprovalState) :
    Except LadonError Bool × ApprovalState :=
  let (has, s) := (s.purgeDisconnectedClients env).clientHasUnattended env client
  (.ok has, s)

def unattendedCovers (env : Env) (client : Uuid) (ids : List SecretId) (s : ApprovalState) :
    Except LadonError Bool × ApprovalState :=
  let (covers, s) := (s.purgeDisconnectedClients env).coversUnattended env client ids
  (.ok covers, s)

/-! ### Unattended use -/

def captureUnattendedWith {T : Type} (env : Env) (client : Uuid)
    (snapshot : Except LadonError (Uuid × T)) (s : ApprovalState) :
    Except LadonError (UnattendedContext × T) × ApprovalState :=
  let s := s.purgeDisconnectedClients env
  if ¬ s.isAppActive ∨ ¬ s.clientSessions.contains client then (.error .approvalCancelled, s)
  else match snapshot with
    | .error e => (.error e, s)
    | .ok (vault, snapshot) =>
      let s := s.enterVaultSession vault
      match s.sessions.get? client with
      | none => (.error .approvalCancelled, s)
      | some session =>
        (.ok (
          { client := client
            vault := vault
            revision := s.revision
            epoch := s.lockEpoch
            connectionId := session.connectionId
            sessionLabel :=
              if session.userName = "" then session.reportedName else session.userName },
          snapshot), s)

def captureUnattended (env : Env) (client vault : Uuid) (s : ApprovalState) :
    Except LadonError UnattendedContext × ApprovalState :=
  let (result, s) := s.captureUnattendedWith env client (.ok (vault, ()))
  (result.map Prod.fst, s)

/-- A day, in nanoseconds. -/
def maxUnattended : Duration := 24 * 3600 * 10 ^ 9

def grantUnattended (env : Env) (context : UnattendedContext) (secrets : List SecretId)
    (deadline : ℤ) (validate : Except LadonError Unit) (s : ApprovalState) :
    Except LadonError Unit × ApprovalState :=
  let s := s.purgeDisconnectedClients env
  match durationSince deadline env.clock.wallTime with
  | none => (.error .invalidRequest, s)
  | some remaining =>
    if remaining = 0 ∨ maxUnattended < remaining ∨ secrets = [] then (.error .invalidRequest, s)
    else if ¬ s.isAppActive ∨ s.vaultSessionId ≠ some context.vault ∨
        s.lockEpoch ≠ context.epoch ∨ s.revision ≠ context.revision ∨
        ¬ s.clientSessions.contains context.client ∨
        (s.sessions.get? context.client).all (·.connectionId ≠ context.connectionId) then
      (.error .approvalCancelled, s)
    else match validate with
      | .error e => (.error e, s)
      | .ok () =>
        (.ok (), { s with
          grants := s.grants.grantUnattendedUntil env.clock context.client secrets deadline
          pending := s.pending.map fun p =>
            if p.request.clientSessionId = context.client ∧ p.decision = none ∧
                p.requestedSecretIds.all (· ∈ secrets) then
              { p with decision := some .granted }
            else p })

end ApprovalState

end Ladon.Approval

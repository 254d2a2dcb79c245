import Ladon.ApprovalSpec
import Ladon.Lib.Run

/-!
Runs of the approval coordinator: any number of threads call its operations in any order, calls of
`authorize` wait and are polled, connections go away and clocks advance.

What one operation does is sorted into a dozen kinds of change; an invariant of all runs is then an
invariant of these.
-/

namespace Ladon.Approval

open Ladon.Error Ladon.Model Ladon.Grants Ladon.Lib Ladon.Lib.Word

/-- What a human decides on a request. -/
inductive HumanDecision
  | approve
  | approveFor (lifetime : Duration)
  | approveUntil (deadline : ℤ)
  | approveSession
  | deny
  deriving DecidableEq

def HumanDecision.decision : HumanDecision → ApprovalDecision
  | .approve => .approve none
  | .approveFor lifetime => .approve (some lifetime)
  | .approveUntil deadline => .approveUntil deadline
  | .approveSession => .approveSession
  | .deny => .deny

/-- The operations, with what their callers pass or their callbacks return. -/
inductive Call
  | authorize (request : PendingApproval) (cancellation : Token)
  | poll (w : Waiting)
  | decide (approvalId : Uuid) (decision : HumanDecision)
  | cancelPending
  | registerClientSession (client : Uuid) (cancellation : Token) (connectionId : Uuid)
  | clientSessionConnected (client : Uuid)
  | closeClientSessions
  | pending
  | observeClient (client : Uuid) (label : String)
  | observeRun (client : Uuid) (project action : String)
  | sessions
  | setSessionAnnotation (client : Uuid) (connectionId : Option Uuid) (name note : String)
  | activeGrants
  | beginAppLock
  | beginAutoAppLock
  | finishAppLock (epoch : ℕ)
  | unlockApp (epoch : ℕ)
  | resetAfterVaultLock
  | revokeAll
  | revokePair (client : Uuid) (secret : SecretId)
  | revokeClient (client : Uuid)
  | coordinateSecretMutation (secret : SecretId) (prepare commit : Except LadonError Unit)
  | withValidGrant (ticket : GrantTicket)
  | requireClientAccess (client : Uuid)
  | hasUnattended (client : Uuid)
  | unattendedCovers (client : Uuid) (ids : List SecretId)
  | captureUnattended (client : Uuid) (snapshot : Except LadonError Uuid)
  | grantUnattended (context : UnattendedContext) (secrets : List SecretId) (deadline : ℤ)
      (validate : Except LadonError Unit)

/-- The connections that are cancelled behind a call. -/
def Call.cancelledAfter (s : ApprovalState) (cancelled : List Token) : Call → List Token
  | .closeClientSessions => s.sessionTokens ++ cancelled
  | _ => cancelled

section Calls

variable (approvalTimeout : Duration) (env : Env) (s : ApprovalState)

/-- The state behind a call. -/
def Call.after : Call → ApprovalState
  | .authorize request cancellation => (s.authorize approvalTimeout env request cancellation).2
  | .poll w => (s.poll env w).2
  | .decide approvalId d => (s.setDecision env approvalId d.decision).2
  | .cancelPending => (s.cancelPending env).2
  | .registerClientSession client cancellation connectionId =>
    (s.registerClientSession env client cancellation connectionId).2
  | .clientSessionConnected client => (s.clientSessionConnected env client).2
  | .closeClientSessions => (s.closeClientSessions env).2
  | .pending => (s.pendingRequest env).2
  | .observeClient client label => (s.observeClient env client label).2
  | .observeRun client project action => (s.observeRun env client project action).2
  | .sessions => (s.sessionList env).2
  | Call.setSessionAnnotation client connectionId name note =>
    (s.setSessionAnnotationChecked env client connectionId name note).2
  | .activeGrants => (s.activeGrants env).2
  | .beginAppLock => (s.beginAppLock env).2
  | .beginAutoAppLock => (s.beginAutoAppLock env).2
  | .finishAppLock epoch => (s.finishAppLock epoch).2
  | .unlockApp epoch => (s.unlockApp epoch).2
  | .resetAfterVaultLock => s.resetAfterVaultLock.2
  | .revokeAll => s.revokeAll.2
  | .revokePair client secret => (s.revokePair env client secret).2
  | .revokeClient client => (s.revokeClient env client).2
  | .coordinateSecretMutation secret prepare commit =>
    (s.coordinateSecretMutation env secret prepare fun _ => commit).2
  | .withValidGrant ticket => (s.grantIsValid env ticket).2
  | .requireClientAccess client => (s.requireClientAccess env client).2
  | .hasUnattended client => (s.hasUnattended env client).2
  | .unattendedCovers client ids => (s.unattendedCovers env client ids).2
  | .captureUnattended client snapshot =>
    (s.captureUnattendedWith env client (snapshot.map fun vault => (vault, ()))).2
  | .grantUnattended context secrets deadline validate =>
    (s.grantUnattended env context secrets deadline validate).2

/-- What a call can have done. -/
inductive Change : Call → ApprovalState → Prop
  | quiet {call : Call} {s' : ApprovalState} (h : Quiet env s s') : Change call s'
  | entered {request : PendingApproval} {token : Token} {s' : ApprovalState}
      (active : s.isAppActive) (idle : (s.purgeDisconnectedClients env).pending = none)
      (h : Quiet env ((s.purgeDisconnectedClients env).enterVaultSession request.vaultSessionId) s') :
      Change (.authorize request token) s'
  | requested {request : PendingApproval} {token : Token} {s₁ : ApprovalState} {p : PendingState}
      (active : s.isAppActive) (idle : (s.purgeDisconnectedClients env).pending = none)
      (h : Quiet env ((s.purgeDisconnectedClients env).enterVaultSession request.vaultSessionId) s₁)
      (undecided : p.decision = none) (vault : p.request.vaultSessionId = request.vaultSessionId)
      (ids : ∀ x ∈ p.request.secretIds, x ∈ p.requestedSecretIds) :
      Change (.authorize request token) { s₁ with pending := some p }
  | granted {w : Waiting} {p : PendingState} {e : ApprovalDecision} {d : GrantDeadline}
      (pending : (s.purgeDisconnectedClients env).pending = some p)
      (id : p.request.id = w.approvalId) (decision : p.decision = some e) (approves : e.approves)
      (deadline : ApprovalState.decisionDeadline env.clock s.grants.lifetimeMillis e = some d)
      (ok : (s.poll env w).1 = some (.ok w.ticket)) :
      Change (.poll w)
        ((s.purgeDisconnectedClients env).takePending.granting env p.request d)
  | decided {approvalId : Uuid} {h : HumanDecision} {p : PendingState}
      (pending : (s.purgeDisconnectedClients env).pending = some p)
      (id : p.request.id = approvalId) (undecided : p.decision = none)
      (approves : h.decision.approves) (ok : (s.setDecision env approvalId h.decision).1 = .ok ()) :
      Change (.decide approvalId h) { s.purgeDisconnectedClients env with
        pending := some { p with decision := some h.decision } }
  | connected {client : Uuid} {token : Token} {connectionId : Uuid} {s' : ApprovalState}
      (new : (s.purgeDisconnectedClients env).clientSessions.get? client = none)
      (grants : s'.grants = (s.purgeDisconnectedClients env).grants.revokeClient client)
      (pending : s'.pending = (s.purgeDisconnectedClients env).pending)
      (sessions : s'.clientSessions =
        (s.purgeDisconnectedClients env).clientSessions.insert client token)
      (vault : s'.vaultSessionId = s.vaultSessionId) (access : s'.appAccess = s.appAccess) :
      Change (.registerClientSession client token connectionId) s'
  | captured {client vault : Uuid} (active : s.isAppActive)
      (connected : (s.purgeDisconnectedClients env).clientSessions.contains client) :
      Change (.captureUnattended client (.ok vault))
        ((s.purgeDisconnectedClients env).enterVaultSession vault)
  | consented {context : UnattendedContext} {secrets : List SecretId} {deadline : ℤ}
      {validate : Except LadonError Unit} {s' : ApprovalState}
      (ok : (s.grantUnattended env context secrets deadline validate).1 = .ok ())
      (active : s.isAppActive) (vault : s.vaultSessionId = some context.vault)
      (connected : (s.purgeDisconnectedClients env).clientSessions.contains context.client)
      (grants : s'.grants = (s.purgeDisconnectedClients env).grants.grantUnattendedUntil env.clock
        context.client secrets deadline)
      (h : Quiet env (s.purgeDisconnectedClients env)
        { s' with grants := (s.purgeDisconnectedClients env).grants }) :
      Change (.grantUnattended context secrets deadline validate) s'
  | locked {call : Call} {preserve : Bool} {epoch : ℕ} {s' : ApprovalState}
      (hcall : call = if preserve then .beginAutoAppLock else .beginAppLock)
      (active : s.isAppActive)
      (h : Quiet env { s with lockEpoch := epoch, appAccess := .locking epoch } s')
      (refused : ApprovalState.AllRefused s')
      (grants : ∀ c k d, s'.grants.get? c k = some d → preserve ∧ d.isUnattended) : Change call s'
  | finished {epoch : ℕ} (h : s.appAccess = .locking epoch) :
      Change (.finishAppLock epoch) { s with appAccess := .locked epoch }
  | unlocked {epoch : ℕ} (h : s.appAccess = .locked epoch) :
      Change (.unlockApp epoch) { s with appAccess := .active }
  | reset {epoch : ℕ} {s' : ApprovalState}
      (h : Quiet env { s with lockEpoch := epoch, appAccess := .active, vaultSessionId := none } s')
      (refused : ApprovalState.AllRefused s') (grants : ∀ c k, s'.grants.get? c k = none) :
      Change .resetAfterVaultLock s'

end Calls

section Changes

open ApprovalState

variable {approvalTimeout : Duration} {env : Env} {s : ApprovalState}

lemma quiet_closeClientSessions : Quiet env s (s.closeClientSessions env).2 := by
  have h : Quiet { env with cancelled := s.sessionTokens ++ env.cancelled }
    { s with sessionsClosed := true } (s.closeClientSessions env).2 := quiet_purge
  refine ⟨h.grants, h.pending, h.sessions, fun hg => .inr ?_, h.vault, h.access⟩
  obtain ⟨t, ht, hc⟩ := hg
  exact absent_purge ⟨t, ht, List.mem_append_right _ hc⟩

/-- A lock begins, or nothing happens. -/
lemma change_beginAppLock {preserve : Bool} {call : Call}
    (hcall : call = if preserve then .beginAutoAppLock else .beginAppLock) :
    Change env s call (s.beginAppLockWithPolicy env preserve).2 := by
  rcases @beginAppLockWithPolicy_cases env s preserve with ⟨e, h⟩ | ⟨ha, epoch, s', -, h, hq, hr, hg⟩
  · rw [h]
    exact .quiet (.refl s)
  · rw [h]
    exact .locked hcall ha hq hr hg

/-- **What one operation can do.** -/
theorem Call.change (call : Call) : Change env s call (call.after approvalTimeout env s) := by
  cases call with
  | authorize request token =>
    rcases @authorize_cases env s approvalTimeout request token with
      h | ⟨ha, hp, s₁, hq, h | ⟨p, h, hd, hv, hi⟩⟩
    · exact .quiet h
    · rw [Call.after, h]
      exact .entered ha hp hq
    · rw [Call.after, h]
      exact .requested ha hp hq hd hv hi
  | poll w =>
    rcases @poll_cases env s w with ⟨h, -⟩ | ⟨p, e, d, hp, hid, hd, ha, hdl, hok, h⟩
    · exact .quiet h
    · rw [Call.after, h]
      exact .granted hp hid hd ha hdl hok
  | decide approvalId d =>
    rcases @setDecision_cases env s approvalId d.decision with h | ⟨p, hp, hid, hd, ha, h⟩
    · exact .quiet h
    · have hok : (s.setDecision env approvalId d.decision).1 = .ok () := by rw [h]
      rw [Call.after, h]
      exact .decided hp hid hd ha hok
  | cancelPending => exact .quiet quiet_cancelPending
  | registerClientSession client token connectionId =>
    rcases @registerClientSession_cases env s client token connectionId with
      h | ⟨hn, hg, hp, hs, hv, ha⟩
    · exact .quiet h
    · exact .connected hn hg hp hs (hv.trans vaultSessionId_purge) (ha.trans appAccess_purge)
  | clientSessionConnected client => exact .quiet quiet_clientSessionConnected
  | closeClientSessions => exact .quiet quiet_closeClientSessions
  | pending => exact .quiet quiet_pendingRequest
  | observeClient client label => exact .quiet quiet_observeClient
  | observeRun client project action => exact .quiet quiet_observeRun
  | sessions => exact .quiet quiet_sessionList
  | setSessionAnnotation client connectionId name note => exact .quiet quiet_setSessionAnnotation
  | activeGrants => exact .quiet quiet_activeGrants
  | beginAppLock => exact @change_beginAppLock env s false _ rfl
  | beginAutoAppLock => exact @change_beginAppLock env s true _ rfl
  | finishAppLock epoch =>
    rw [Call.after, ApprovalState.finishAppLock]
    split
    · exact .quiet (.refl s)
    · next h => exact .finished (not_not.mp h)
  | unlockApp epoch =>
    rw [Call.after, ApprovalState.unlockApp]
    split
    · exact .quiet (.refl s)
    · next h => exact .unlocked (not_not.mp h)
  | resetAfterVaultLock =>
    rcases @resetAfterVaultLock_cases env s with ⟨e, h⟩ | ⟨epoch, s', -, h, hq, hr, hg⟩
    · rw [Call.after, h]
      exact .quiet (.refl s)
    · rw [Call.after, h]
      exact .reset hq hr hg
  | revokeAll => exact .quiet quiet_revokeAll
  | revokePair client secret =>
    rcases @revokePair_cases env s client secret with ⟨e, h⟩ | ⟨-, -, h, -⟩
    · rw [Call.after, h]
      exact .quiet (.refl s)
    · exact .quiet h
  | revokeClient client =>
    rcases @revokeClient_cases env s client with ⟨e, h⟩ | ⟨-, -, h, -⟩
    · rw [Call.after, h]
      exact .quiet (.refl s)
    · exact .quiet h
  | coordinateSecretMutation secret prepare commit =>
    rcases @coordinateSecretMutation_cases env s _ _ secret prepare fun _ => commit with
      ⟨h, -⟩ | ⟨-, -, -, -, -, h, -⟩
    · rw [Call.after, h]
      exact .quiet (.refl s)
    · exact .quiet h
  | withValidGrant ticket => exact .quiet quiet_grantIsValid
  | requireClientAccess client => exact .quiet quiet_requireClientAccess
  | hasUnattended client => exact .quiet quiet_hasUnattended
  | unattendedCovers client ids => exact .quiet quiet_unattendedCovers
  | captureUnattended client snapshot =>
    rcases @captureUnattended_cases env s client _ (snapshot.map fun vault => (vault, ())) with
      h | ⟨ha, hc, vault, x, hs, h⟩
    · exact .quiet h
    · obtain rfl : snapshot = .ok vault := by
        cases snapshot with
        | error e => cases hs
        | ok v => cases hs; rfl
      rw [Call.after, h]
      exact .captured ha hc
  | grantUnattended context secrets deadline validate =>
    rcases @grantUnattended_cases env s context secrets deadline validate with
      ⟨h, -⟩ | ⟨hok, ha, hv, hc, hg, hq⟩
    · exact .quiet h
    · exact .consented hok ha hv hc hg hq

end Changes

/-! ### Runs -/

structure World where
  env : Env
  state : ApprovalState
  waiting : List Waiting := []

inductive Event
  | call (call : Call)
  | cancel (token : Token)
  | advance (clock : Clock) (instant : ℕ)

/-- An event, and the world it happened in. -/
structure Occurrence where
  world : World
  event : Event

section Runs

variable (approvalTimeout : Duration)

/-- The calls of `authorize` that wait behind a call. -/
def Call.waitingAfter (w : World) : Call → List Waiting
  | .authorize request cancellation =>
    match (w.state.authorize approvalTimeout w.env request cancellation).1 with
    | .waiting x => x :: w.waiting
    | .done _ => w.waiting
  | .poll x =>
    match (w.state.poll w.env x).1 with
    | some _ => w.waiting.erase x
    | none => w.waiting
  | _ => w.waiting

def World.apply (w : World) : Event → World
  | .call c =>
    { env := { w.env with cancelled := c.cancelledAfter w.state w.env.cancelled }
      state := c.after approvalTimeout w.env w.state
      waiting := c.waitingAfter approvalTimeout w }
  | .cancel token => { w with env := { w.env with cancelled := token :: w.env.cancelled } }
  | .advance clock instant => { w with env := { w.env with clock := clock, instant := instant } }

/-- Only a call that waits is polled, and the monotonic clocks do not go back. -/
def World.enabled (w : World) : Event → Bool
  | .call (.poll x) => x ∈ w.waiting
  | .advance clock instant =>
    w.env.clock.nowMillis ≤ clock.nowMillis && w.env.instant ≤ instant
  | _ => true

inductive Step : World → Occurrence → World → Prop
  | mk {w : World} {e : Event} (enabled : w.enabled e) : Step w ⟨w, e⟩ (w.apply approvalTimeout e)

def World.initial (env : Env) (grantLifetime : Duration) : World where
  env := env
  state := .new grantLifetime

/-- The world behind events that happen one after another. -/
def World.play (w : World) (events : List Event) : World := events.foldl (·.apply approvalTimeout) w

/-- The same events with the worlds they happen in. -/
def World.trace (w : World) : List Event → List Occurrence
  | [] => []
  | e :: events => ⟨w, e⟩ :: (w.apply approvalTimeout e).trace events

def World.allEnabled (w : World) : List Event → Bool
  | [] => true
  | e :: events => w.enabled e && (w.apply approvalTimeout e).allEnabled events

end Runs

variable {approvalTimeout : Duration}

lemma run_play {w : World} {events : List Event} (h : w.allEnabled approvalTimeout events) :
    Run (Step approvalTimeout) w (w.trace approvalTimeout events) (w.play approvalTimeout events) := by
  induction events generalizing w with
  | nil => exact .nil w
  | cons e events ih =>
    rw [World.allEnabled, Bool.and_eq_true] at h
    exact .cons (.mk h.1) (ih h.2)

/-- What every change keeps holds in every state of a run. -/
lemma state_invariant {I : ApprovalState → Prop}
    (hchange : ∀ {env s s' call}, I s → Change env s call s' → I s') {w₀ w : World}
    {history : List Occurrence} (hrun : Run (Step approvalTimeout) w₀ history w)
    (h₀ : I w₀.state) : I w.state := by
  refine hrun.invariant (I := fun w => I w.state) h₀ ?_
  intro w o w' hw hstep
  cases hstep with
  | @mk e _ =>
    cases e with
    | call c => exact hchange hw c.change
    | cancel token => exact hw
    | advance clock instant => exact hw

end Ladon.Approval

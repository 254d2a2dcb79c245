import Ladon.ApprovalRun

/-!
While the application is locked, or is being locked, only unattended grants are left and the
pending approval has been cancelled; nothing is granted and nothing asked until it is open again.
-/

namespace Ladon.Approval

open Ladon.Error Ladon.Model Ladon.Grants Ladon.Lib ApprovalState

variable {approvalTimeout : Duration} {env : Env} {s s' : ApprovalState}

/-- Neither a grant nor a request that was not there. -/
structure AddsNothing (s s' : ApprovalState) : Prop where
  grants : ∀ {c k d}, s'.grants.get? c k = some d → s.grants.get? c k = some d
  pending : ∀ {p}, s'.pending = some p → ∃ q, s.pending = some q ∧ p.Follows q

lemma Quiet.addsNothing (h : Quiet env s s') : AddsNothing s s' := ⟨h.grants, h.pending⟩

/-- The invariant of the lock. -/
structure LockInv (s : ApprovalState) : Prop where
  unattended : s.isAppActive = false → ∀ {c k d}, s.grants.get? c k = some d → d.isUnattended
  refused : s.isAppActive = false → AllRefused s

lemma ApprovalState.AllRefused.addsNothing (h : AllRefused s) (ha : AddsNothing s s') : AllRefused s' := by
  intro p hp
  obtain ⟨q, hq, hf⟩ := ha.pending hp
  exact hf.cancelled (h q hq)

lemma ApprovalState.AllRefused.purge (h : AllRefused s) : AllRefused (s.purgeDisconnectedClients env) :=
  h.addsNothing quiet_purge.addsNothing

lemma isAppActive_of_access (h : s'.appAccess = s.appAccess) : s'.isAppActive = s.isAppActive := by
  rw [isAppActive, isAppActive, h]

/-- No operation adds anything while the application is not open. -/
lemma addsNothing_of_inactive (hs : s.isAppActive = false) (hr : AllRefused s) {call : Call}
    (h : Change env s call s') : AddsNothing s s' := by
  cases h with
  | quiet h => exact h.addsNothing
  | entered ha => rw [hs] at ha; cases ha
  | requested ha => rw [hs] at ha; cases ha
  | granted hp _ hd ha =>
    have := hr.purge _ hp
    rw [hd] at this
    cases this
    cases ha
  | decided hp _ hd =>
    have := hr.purge _ hp
    rw [hd] at this
    cases this
  | connected _ hg hp =>
    refine ⟨fun h => ?_, fun h => quiet_purge.pending (hp ▸ h)⟩
    rw [hg] at h
    exact quiet_purge.grants (GrantStore.get?_revokeClient.mp h).1
  | captured ha => rw [hs] at ha; cases ha
  | consented _ ha => rw [hs] at ha; cases ha
  | locked _ ha => rw [hs] at ha; cases ha
  | finished => exact ⟨fun h => h, fun h => ⟨_, h, .refl⟩⟩
  | unlocked => exact ⟨fun h => h, fun h => ⟨_, h, .refl⟩⟩
  | reset h => exact ⟨h.grants, h.pending⟩

/-- An application that is open stays so but for a lock. -/
lemma active_of_change (hs : s.isAppActive = true) {call : Call} (h : Change env s call s') :
    s'.isAppActive = true ∨
      AllRefused s' ∧ ∀ c k d, s'.grants.get? c k = some d → d.isUnattended := by
  have hpurge : (s.purgeDisconnectedClients env).isAppActive = true := isAppActive_purge.trans hs
  have henter : ∀ vault,
      ((s.purgeDisconnectedClients env).enterVaultSession vault).isAppActive = true := fun vault =>
    (isAppActive_of_access enterVaultSession_access).trans hpurge
  cases h with
  | quiet h => exact .inl ((isAppActive_of_access h.access).trans hs)
  | entered _ _ h => exact .inl ((isAppActive_of_access h.access).trans (henter _))
  | requested _ _ h =>
    have h1 := (isAppActive_of_access h.access).trans (henter _)
    exact .inl h1
  | granted => exact .inl hpurge
  | decided => exact .inl hpurge
  | connected _ _ _ _ _ ha => exact .inl ((isAppActive_of_access ha).trans hs)
  | captured => exact .inl (henter _)
  | consented _ _ _ _ _ h => exact .inl ((isAppActive_of_access h.access).trans hpurge)
  | locked _ _ _ hr hg => exact .inr ⟨hr, fun c k d h => (hg c k d h).2⟩
  | finished h => rw [isAppActive, h] at hs; cases hs
  | unlocked => exact .inl rfl
  | reset h => exact .inl (isAppActive_of_access h.access)

/-- What an operation does to the access: nothing, a lock begins or ends, or the application is
opened. -/
lemma access_of_change {call : Call} (h : Change env s call s') :
    s'.appAccess = s.appAccess ∨
      (∃ e, (call = .beginAppLock ∨ call = .beginAutoAppLock) ∧ s'.appAccess = .locking e) ∨
      (∃ e, call = .finishAppLock e ∧ s.appAccess = .locking e ∧ s'.appAccess = .locked e) ∨
      s'.appAccess = .active := by
  cases h with
  | quiet h => exact .inl h.access
  | entered _ _ h => exact .inl (h.access.trans (enterVaultSession_access.trans appAccess_purge))
  | requested _ _ h => exact .inl (h.access.trans (enterVaultSession_access.trans appAccess_purge))
  | granted => exact .inl appAccess_purge
  | decided => exact .inl appAccess_purge
  | connected _ _ _ _ _ ha => exact .inl ha
  | captured => exact .inl (enterVaultSession_access.trans appAccess_purge)
  | consented _ _ _ _ _ h => exact .inl (h.access.trans appAccess_purge)
  | @locked _ preserve epoch _ hcall _ h =>
    refine .inr (.inl ⟨epoch, ?_, h.access⟩)
    cases preserve with
    | false => exact .inl hcall
    | true => exact .inr hcall
  | finished h => exact .inr (.inr (.inl ⟨_, rfl, h, rfl⟩))
  | unlocked h => exact .inr (.inr (.inr rfl))
  | reset h => exact .inr (.inr (.inr h.access))

/-- How an application that is not open can become more so. -/
lemma access_of_inactive (hs : s.isAppActive = false) {call : Call} (h : Change env s call s') :
    s'.appAccess = s.appAccess ∨
      (∃ e, call = .finishAppLock e ∧ s.appAccess = .locking e ∧ s'.appAccess = .locked e) ∨
      (∃ e, call = .unlockApp e ∧ s.appAccess = .locked e) ∨ call = .resetAfterVaultLock := by
  cases h with
  | quiet h => exact .inl h.access
  | entered ha => rw [hs] at ha; cases ha
  | requested ha => rw [hs] at ha; cases ha
  | granted => exact .inl appAccess_purge
  | decided => exact .inl appAccess_purge
  | connected _ _ _ _ _ ha => exact .inl ha
  | captured ha => rw [hs] at ha; cases ha
  | consented _ ha => rw [hs] at ha; cases ha
  | locked _ ha => rw [hs] at ha; cases ha
  | finished h => exact .inr (.inl ⟨_, rfl, h, rfl⟩)
  | unlocked h => exact .inr (.inr (.inl ⟨_, rfl, h⟩))
  | reset => exact .inr (.inr (.inr rfl))

lemma LockInv.of_active (h : s.isAppActive = true) : LockInv s := by
  constructor
  · intro hn
    rw [h] at hn
    cases hn
  · intro hn
    rw [h] at hn
    cases hn

lemma LockInv.change (hinv : LockInv s) {call : Call} (h : Change env s call s') : LockInv s' := by
  cases hs : s.isAppActive with
  | true =>
    rcases active_of_change hs h with ha | ⟨hr, hg⟩
    · exact .of_active ha
    · exact ⟨fun _ => fun h => hg _ _ _ h, fun _ => hr⟩
  | false =>
    have hadd := addsNothing_of_inactive hs (hinv.refused hs) h
    exact ⟨fun _ => fun h => hinv.unattended hs (hadd.grants h),
      fun _ => (hinv.refused hs).addsNothing hadd⟩

/-- **A locked application grants nothing and asks for nothing.** In every state of every run in
which the application is being locked or is locked, all grants are unattended and the pending
approval, if there is one, has been cancelled; and no operation performed then adds a grant or a
pending approval. -/
theorem locked_state (grantLifetime : Duration) (env : Env) (w : World) (history : List Occurrence)
    (hrun : Run (Step approvalTimeout) (.initial env grantLifetime) history w)
    (hlocked : w.state.appAccess ≠ .active) :
    (∀ c k d, w.state.grants.get? c k = some d → d.isUnattended) ∧
      (∀ p, w.state.pending = some p → p.decision = some .cancel) ∧
      ∀ call : Call,
        (∀ c k d, (call.after approvalTimeout w.env w.state).grants.get? c k = some d →
          w.state.grants.get? c k = some d) ∧
        ∀ p, (call.after approvalTimeout w.env w.state).pending = some p →
          ∃ q, w.state.pending = some q ∧ p.SameRequest q ∧ p.decision = some .cancel := by
  have hinv : LockInv w.state := state_invariant (fun h hc => h.change hc) hrun (.of_active rfl)
  have hs : w.state.isAppActive = false := by simpa [isAppActive] using hlocked
  refine ⟨fun c k d h => hinv.unattended hs h, hinv.refused hs, fun call => ?_⟩
  have hadd := addsNothing_of_inactive hs (hinv.refused hs) (@Call.change approvalTimeout w.env _ call)
  refine ⟨fun c k d h => hadd.grants h, fun p hp => ?_⟩
  obtain ⟨q, hq, hf⟩ := hadd.pending hp
  exact ⟨q, hq, hf.toSameRequest, hf.cancelled (hinv.refused hs q hq)⟩

/-! ### A locked application with an unattended grant and a pending approval -/

section Night

def nightClient : Uuid := .filled 1
def nightVault : Uuid := .filled 2
def nightSecret : SecretId := ⟨.filled 3⟩

def nightStart : World := .initial ⟨⟨0, 0⟩, 0, []⟩ (30 * 60 * 10 ^ 9)

def nightContext : UnattendedContext := ⟨nightClient, nightVault, 0, 0, nightClient, "MCP client"⟩

/-- The client asks for another secret. -/
def nightRequest : PendingApproval :=
  ⟨.filled 4, nightVault, nightClient, "MCP client", [⟨⟨.filled 5⟩, "deploy", ["API_TOKEN"]⟩],
    "/usr/bin/deploy", [], "/home"⟩

/-- A client connects, is allowed to work unattended for an hour and waits for an approval when the
application locks. -/
def nightEvents : List Event :=
  [.call (.registerClientSession nightClient 0 nightClient),
    .call (.captureUnattended nightClient (.ok nightVault)),
    .call (.grantUnattended nightContext [nightSecret] (3600 * 10 ^ 9) (.ok ())),
    .call (.authorize nightRequest 0), .call .beginAutoAppLock]

theorem locked_state_night :
    (nightStart.play 0 nightEvents).state.appAccess ≠ .active ∧
      (∃ d, (nightStart.play 0 nightEvents).state.grants.get? nightClient nightSecret = some d) ∧
      (∀ c k d, (nightStart.play 0 nightEvents).state.grants.get? c k = some d → d.isUnattended) ∧
      ∃ p, (nightStart.play 0 nightEvents).state.pending = some p ∧ p.request = nightRequest ∧
        p.decision = some .cancel := by
  have hlocked : (nightStart.play 0 nightEvents).state.appAccess ≠ .active := by decide +kernel
  have hsome : ((nightStart.play 0 nightEvents).state.grants.get? nightClient nightSecret).isSome := by
    decide +kernel
  have hpending : (nightStart.play 0 nightEvents).state.pending.map PendingState.request =
      some nightRequest := by decide +kernel
  obtain ⟨p, hp, hrequest⟩ := Option.map_eq_some_iff.mp hpending
  obtain ⟨hgrants, hcancelled, -⟩ := locked_state _ _ _ _ (run_play (by decide +kernel)) hlocked
  exact ⟨hlocked, Option.isSome_iff_exists.mp hsome, hgrants, p, hp, hrequest, hcancelled p hp⟩

end Night

end Ladon.Approval

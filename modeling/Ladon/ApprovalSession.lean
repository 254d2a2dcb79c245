import Ladon.ApprovalHistory

/-!
Grants and sessions of the vault.

A grant should belong to the session of the vault in which it was asked for. Three operations move
the coordinator to another session: a request enters the session it is for, which it cannot do while
another one is pending; a lock of the vault cancels what is pending; and a capture for unattended
use, which drops the grants but leaves a pending approval as it is.
-/

namespace Ladon.Approval

open Ladon.Error Ladon.Model Ladon.Grants Ladon.Lib ApprovalState

variable {approvalTimeout : Duration}

/-- The grant was made last for a request or a consent of the coordinator's session of the vault. -/
def Homed (history : List Occurrence) (w : World) (c : Uuid) (k : SecretId) (d : GrantDeadline) :
    Prop :=
  ∃ v before o after, history = before ++ o :: after ∧ o.Grants c k d v ∧
    (∀ o' ∈ after, ∀ d' v', ¬ o'.Grants c k d' v') ∧ w.state.vaultSessionId = some v

/-- The occurrence captures the session of a connected client for unattended use, and moves the
coordinator to another session of the vault. -/
structure Occurrence.Captures (o : Occurrence) (client vault : Uuid) : Prop where
  event : o.event = .call (.captureUnattended client (.ok vault))
  active : o.world.state.isAppActive
  connected : (o.world.state.purgeDisconnectedClients o.world.env).clientSessions.contains client
  moves : o.world.state.vaultSessionId ≠ some vault

/-- A capture that moves the coordinator finds no approval that could still be taken up. -/
def Occurrence.Disposed (o : Occurrence) : Prop :=
  ∀ client vault, o.Captures client vault →
    ∀ p, (o.world.state.purgeDisconnectedClients o.world.env).pending = some p → Refuses p.decision

/-- A pending request is of the coordinator's session, or comes to nothing. -/
def PendingHome (s : ApprovalState) : Prop :=
  ∀ p, s.pending = some p → Refuses p.decision ∨ s.vaultSessionId = some p.request.vaultSessionId

lemma PendingHome.quiet {env : Env} {s s' : ApprovalState} (h : PendingHome s)
    (hq : Quiet env s s') : PendingHome s' := by
  intro p hp
  obtain ⟨q, hs, hf⟩ := hq.pending hp
  rcases h q hs with hr | hv
  · exact .inl (hr.follows hf)
  · refine .inr ?_
    rw [hq.vault, hv, hf.vault]

lemma PendingHome.change {w : World} {call : Call} {s' : ApprovalState} (h : PendingHome w.state)
    (hd : Occurrence.Disposed ⟨w, .call call⟩) (hc : Change w.env w.state call s') :
    PendingHome s' := by
  have hpurge : PendingHome (w.state.purgeDisconnectedClients w.env) := h.quiet quiet_purge
  cases hc with
  | quiet hq => exact h.quiet hq
  | entered _ hidle hq =>
    intro p hp
    obtain ⟨q, hs, -⟩ := hq.pending hp
    rw [enterVaultSession_pending, hidle] at hs
    cases hs
  | requested _ _ hq _ hv =>
    intro p hp
    cases hp
    refine .inr ?_
    dsimp only
    rw [hq.vault, enterVaultSession_vault, hv]
  | granted => intro p hp; cases hp
  | decided hq _ hu =>
    intro p hp
    cases hp
    rcases hpurge _ hq with ⟨e, he, -⟩ | hv
    · rw [hu] at he
      cases he
    · exact .inr hv
  | connected _ _ hp _ hv =>
    intro p hs
    rw [hp] at hs
    rw [hv, ← @vaultSessionId_purge w.env]
    exact hpurge p hs
  | @captured client vault ha hc =>
    intro p hp
    rw [enterVaultSession_pending] at hp
    by_cases hv : w.state.vaultSessionId = some vault
    · rcases hpurge p hp with hr | hv'
      · exact .inl hr
      · refine .inr ?_
        rw [vaultSessionId_purge, hv] at hv'
        rw [enterVaultSession_vault, hv']
    · exact .inl (hd client vault ⟨rfl, ha, hc, hv⟩ p hp)
  | consented _ _ _ _ _ hq => exact fun p hp => hpurge.quiet hq p hp
  | locked _ _ _ hr =>
    intro p hp
    exact .inl (hr p hp ▸ refuses_cancel)
  | finished => exact h
  | unlocked => exact h
  | reset _ hr =>
    intro p hp
    exact .inl (hr p hp ▸ refuses_cancel)

/-- The approval taken up by an occurrence is of the coordinator's session, as is a consent. -/
lemma Occurrence.Grants.home {w : World} {call : Call} {s' : ApprovalState} {c v : Uuid}
    {k : SecretId} {d : GrantDeadline} (h : Occurrence.Grants ⟨w, .call call⟩ c k d v)
    (hp : PendingHome w.state) (hc : Change w.env w.state call s')
    (hg : s'.grants.get? c k = some d) : s'.vaultSessionId = some v := by
  have hvault : s'.vaultSessionId = w.state.vaultSessionId := by
    rcases hc.vault with hv | hnone
    · exact hv
    · rw [hnone] at hg
      cases hg
  cases h with
  | approval ht =>
    rcases (hp.quiet quiet_purge) _ ht.pending with ⟨e, he, hr⟩ | hv
    · rw [ht.decision] at he
      cases he
      rw [ht.approves] at hr
      cases hr
    · rw [hvault, ← hv, vaultSessionId_purge]
  | consent ht =>
    obtain ⟨deadline, validate, hevent, hok, -⟩ := ht.event
    cases hevent
    rw [hvault]
    exact consent_vault hok

/-- What is known of every state of a run in which captures find no open approval. -/
structure HomeInv (history : List Occurrence) (w : World) : Prop where
  grants : ∀ {c k d}, w.state.grants.get? c k = some d → Homed history w c k d
  pending : PendingHome w.state

/-- An occurrence that makes no grant leaves a grant where it comes from. -/
lemma Homed.snoc {history : List Occurrence} {w w' : World} {o : Occurrence} {c : Uuid}
    {k : SecretId} {d : GrantDeadline} (h : Homed history w c k d)
    (ho : ∀ d' v', ¬ o.Grants c k d' v') (hv : w'.state.vaultSessionId = w.state.vaultSessionId) :
    Homed (history ++ [o]) w' c k d := by
  obtain ⟨v, before, o₁, after, rfl, hg, hlast, hvault⟩ := h
  refine ⟨v, before, o₁, after ++ [o], by simp, hg, fun o' ho' => ?_, hv.trans hvault⟩
  rcases List.mem_append.mp ho' with h | h
  · exact hlast o' h
  · rw [List.mem_singleton.mp h]
    exact ho

lemma HomeInv.call {history : List Occurrence} {w w' : World} {call : Call}
    (h : HomeInv history w) (hd : Occurrence.Disposed ⟨w, .call call⟩)
    (hw' : w'.state = call.after approvalTimeout w.env w.state) :
    HomeInv (history ++ [⟨w, .call call⟩]) w' := by
  have hchange : Change w.env w.state call w'.state := hw' ▸ call.change
  refine ⟨fun {c k d} hg => ?_, h.pending.change hd hchange⟩
  by_cases hnew : ∃ d' v, Occurrence.Grants ⟨w, .call call⟩ c k d' v
  · -- The call made the grant: it is its own source.
    obtain ⟨d', v, hgrants⟩ := hnew
    have hd' : w'.state.grants.get? c k = some d' := hw' ▸ hgrants.get?
    obtain rfl : d' = d := Option.some.inj (hd'.symm.trans hg)
    exact ⟨v, history, _, [], rfl, hgrants, fun _ h => (List.not_mem_nil h).elim,
      hgrants.home h.pending hchange hg⟩
  · rw [not_exists] at hnew
    have hnone : ∀ d' v', ¬ Occurrence.Grants ⟨w, .call call⟩ c k d' v' := fun d' v' hgr =>
      hnew d' ⟨v', hgr⟩
    rcases hchange.grants hg with hold | ⟨v, hgr⟩
    · refine (h.grants hold).snoc hnone ?_
      rcases hchange.vault with hv | hempty
      · exact hv
      · rw [hempty] at hg
        cases hg
    · exact (hnone d v hgr).elim

lemma HomeInv.step {history : List Occurrence} {w w' : World} {o : Occurrence}
    (h : HomeInv history w) (hd : o.Disposed) (hs : Step approvalTimeout w o w') :
    HomeInv (history ++ [o]) w' := by
  have silent : ∀ e, (∀ call, e ≠ .call call) → ∀ c k d' v',
      ¬ Occurrence.Grants ⟨w, e⟩ c k d' v' := by
    intro e he c k d' v' hg
    rcases hg.source with ⟨_, _, ht, -⟩ | ⟨_, _, ht⟩
    · obtain ⟨x, hx, -⟩ := ht.event
      exact he _ hx
    · obtain ⟨_, _, hx, -⟩ := ht.event
      exact he _ hx
  cases hs with
  | @mk e _ =>
    cases e with
    | call c => exact h.call hd rfl
    | cancel token =>
      exact ⟨fun hg => (h.grants hg).snoc (silent _ (by rintro _ ⟨⟩) _ _) rfl, h.pending⟩
    | advance clock instant =>
      exact ⟨fun hg => (h.grants hg).snoc (silent _ (by rintro _ ⟨⟩) _ _) rfl, h.pending⟩

/-- **Grants stay in the session they were asked for in**, in every run in which a capture that moves
the coordinator to another session of the vault finds no approval that could still be taken up:
every grant in the store was made for a request or a consent of the coordinator's session. -/
theorem grants_homed (grantLifetime : Duration) (env : Env) (w : World) (history : List Occurrence)
    (hrun : Run (Step approvalTimeout) (.initial env grantLifetime) history w)
    (hdisposed : ∀ o ∈ history, o.Disposed) (c : Uuid) (k : SecretId) (d : GrantDeadline)
    (hg : w.state.grants.get? c k = some d) : Homed history w c k d := by
  have h : (∀ o ∈ history, o.Disposed) → HomeInv history w := by
    refine hrun.history_invariant (I := fun history w =>
      (∀ o ∈ history, o.Disposed) → HomeInv history w) ?_ ?_
    · intro _
      exact ⟨fun h => (nomatch h), fun p h => (nomatch h)⟩
    · intro history w o w' ih hs hall
      have hhist : ∀ o' ∈ history, o'.Disposed := fun o' h => hall o' (List.mem_append_left _ h)
      exact (ih hhist).step (hall o (List.mem_append_right _ List.mem_cons_self)) hs
  exact (h hdisposed).grants hg

/-! ### A grant that outlives its session -/

section Crossing

def client₁ : Uuid := .filled 1
def client₂ : Uuid := .filled 2
def vault₁ : Uuid := .filled 3
def vault₂ : Uuid := .filled 4
def secret₁ : SecretId := ⟨.filled 5⟩

/-- A request of the first client for one secret, in the first session of the vault. -/
def request₁ : PendingApproval :=
  ⟨client₁, vault₁, client₁, "agent", [⟨secret₁, "token", ["value"]⟩], "/bin/true", [], "/"⟩

def waiting₁ : Waiting := ⟨client₁, ⟨vault₁, client₁, [secret₁]⟩, 0, 120 * 10 ^ 9⟩

def opening : World := .initial ⟨⟨0, 0⟩, 0, []⟩ (30 * 60 * 10 ^ 9)

def timeout₁ : Duration := 120 * 10 ^ 9

/-- The request is approved; before it is taken up, another client is captured in the next session
of the vault. -/
def crossing : List Event :=
  [.call (.authorize request₁ 0), .call (.registerClientSession client₂ 1 client₂),
    .call (.decide client₁ .approve), .call (.captureUnattended client₂ (.ok vault₂)),
    .call (.poll waiting₁)]

theorem grants_cross_sessions :
    ∃ w history, Run (Step timeout₁) opening history w ∧
      ∃ d, w.state.grants.get? client₁ secret₁ = some d ∧ ¬ Homed history w client₁ secret₁ d := by
  refine ⟨_, _, @run_play timeout₁ opening crossing (by decide +kernel), ?_⟩
  have hsome : ((opening.play timeout₁ crossing).state.grants.get? client₁ secret₁).isSome := by
    decide +kernel
  obtain ⟨d, hd⟩ := Option.isSome_iff_exists.mp hsome
  refine ⟨d, hd, ?_⟩
  rintro ⟨v, before, o, after, hhist, hgrants, -, hv⟩
  have hvault : (opening.play timeout₁ crossing).state.vaultSessionId = some vault₂ := by
    decide +kernel
  obtain rfl := Option.some.inj (hvault.symm.trans hv)
  have ho : o ∈ opening.trace timeout₁ crossing := by rw [hhist]; simp
  -- Every request that is pending on the way is of the first session, and nobody consents.
  have hrequests : ∀ o ∈ opening.trace timeout₁ crossing,
      ((o.world.state.purgeDisconnectedClients o.world.env).pending.all
        fun p => p.request.vaultSessionId = vault₁) = true := by decide +kernel
  have hevents : ∀ o ∈ opening.trace timeout₁ crossing, (match o.event with
      | .call (.grantUnattended _ _ _ _) => false
      | _ => true) = true := by decide +kernel
  rcases hgrants.source with ⟨p, e, ht, hp⟩ | ⟨context, secrets, ht⟩
  · have hall := hrequests o ho
    rw [ht.pending, Option.all_some, hp] at hall
    revert hall
    decide
  · obtain ⟨deadline, validate, hevent, -⟩ := ht.event
    have := hevents o ho
    rw [hevent] at this
    cases this

def context₂ : UnattendedContext := ⟨client₂, vault₂, 0, 0, client₂, "MCP client"⟩

/-- The same with the request taken up before the capture, and the consent that follows it. -/
def orderly : List Event :=
  [.call (.authorize request₁ 0), .call (.registerClientSession client₂ 1 client₂),
    .call (.decide client₁ .approve), .call (.poll waiting₁),
    .call (.captureUnattended client₂ (.ok vault₂)),
    .call (.grantUnattended context₂ [secret₁] (3600 * 10 ^ 9) (.ok ()))]

theorem grants_homed_orderly :
    ∃ d, (opening.play timeout₁ orderly).state.grants.get? client₂ secret₁ = some d ∧
      Homed (opening.trace timeout₁ orderly) (opening.play timeout₁ orderly) client₂ secret₁ d := by
  have hsome : ((opening.play timeout₁ orderly).state.grants.get? client₂ secret₁).isSome := by
    decide +kernel
  obtain ⟨d, hd⟩ := Option.isSome_iff_exists.mp hsome
  have hidle : ∀ o ∈ opening.trace timeout₁ orderly, (match o.event with
      | .call (.captureUnattended _ _) =>
        (o.world.state.purgeDisconnectedClients o.world.env).pending.isNone
      | _ => true) = true := by decide +kernel
  refine ⟨d, hd, grants_homed _ _ _ _ (run_play (by decide +kernel)) ?_ _ _ _ hd⟩
  intro o ho client vault hc p hp
  have := hidle o ho
  rw [hc.event, hp] at this
  cases this

end Crossing

end Ladon.Approval

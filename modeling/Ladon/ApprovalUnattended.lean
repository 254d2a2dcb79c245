import Ladon.ApprovalConsent
import Ladon.GrantsSpec

/-!
What becomes of an unattended grant.

Grants of all kinds share one table. An approval of a pending request is turned into grants only when
the waiting call takes it up; if its client was given unattended grants in the meantime, the approval
overwrites them with ordinary ones. Short of that an unattended grant stays until its deadline.
-/

namespace Ladon.Approval

open Ladon.Error Ladon.Model Ladon.Grants Ladon.Lib Ladon.Lib.Word ApprovalState

/-- The occurrence is meant to end unattended access of a client to some of the secrets. -/
def Occurrence.EndsAccess (o : Occurrence) (client : Uuid) (secrets : List SecretId) : Prop :=
  o.event = .call .revokeAll ∨ o.event = .call .beginAppLock ∨
    o.event = .call .resetAfterVaultLock ∨ o.event = .call (.revokeClient client) ∨
    (∃ k ∈ secrets, o.event = .call (.revokePair client k)) ∨
    (∃ k ∈ secrets, ∃ commit, o.event = .call (.coordinateSecretMutation k (.ok ()) commit)) ∨
    o.Disconnects client ∨
    ∃ context secrets deadline validate, context.client = client ∧
      o.Accepts context secrets deadline validate

/-- The occurrence is a waiting call of the client taking up an approval that lists the secret. -/
def Occurrence.Overwrites (o : Occurrence) (client : Uuid) (k : SecretId) : Prop :=
  ∃ p e d, o.TakesUp p e d ∧ p.request.clientSessionId = client ∧ k ∈ p.request.secretIds

section Calls

variable {approvalTimeout : Duration} {env : Env} {s : ApprovalState} {c vault : Uuid}
  {k : SecretId} {d : GrantDeadline}

/-- Another client that connects leaves the grants. -/
lemma registerClientSession_keeps {client : Uuid} {token : Token} {connectionId : Uuid}
    (hget : s.grants.get? c k = some d) (hr : d.remaining env.clock ≠ 0) {t : Token}
    (ht : s.clientSessions.get? c = some t) (hlive : t ∉ env.cancelled) :
    (s.registerClientSession env client token connectionId).2.grants.get? c k = some d := by
  have hgone : ¬ Gone env s c := by
    rintro ⟨t', ht', hc⟩
    rw [ht] at ht'
    cases ht'
    exact hlive hc
  have hold := (@spares_purge env s).grants hget hr hgone
  unfold registerClientSession
  dsimp only
  split
  · exact hold
  · next hnew =>
    simp only [not_or] at hnew
    refine GrantStore.get?_revokeClient.mpr ⟨hold, fun hc => hnew.2.1 ?_⟩
    exact Table.contains_eq_true.mpr ⟨t, hc ▸ clientSessions_purge.mpr ⟨ht, hlive⟩⟩

/-- An automatic lock leaves the unattended grants. -/
lemma beginAutoAppLock_keeps (hget : s.grants.get? c k = some d)
    (hr : d.remaining env.clock ≠ 0) (hu : d.isUnattended) :
    (s.beginAutoAppLock env).2.grants.get? c k = some d := by
  unfold beginAutoAppLock beginAppLockWithPolicy nextEpoch
  split
  · exact hget
  · cases checkedAdd s.lockEpoch 1 with
    | none => exact hget
    | some epoch =>
      exact GrantStore.get?_purgeExpired.mpr
        ⟨GrantStore.get?_retainUnattended.mpr ⟨hget, hr, hu⟩, hr⟩

lemma revokePair_keeps {client : Uuid} {secret : SecretId} (hget : s.grants.get? c k = some d)
    (hr : d.remaining env.clock ≠ 0) (hne : ¬ (c = client ∧ k = secret)) :
    (s.revokePair env client secret).2.grants.get? c k = some d := by
  unfold ApprovalState.revokePair nextRevision
  cases checkedAdd s.revision 1 with
  | none => exact hget
  | some revision =>
    exact GrantStore.get?_purgeExpired.mpr ⟨GrantStore.get?_revokePair.mpr ⟨hget, hr, hne⟩, hr⟩

lemma revokeClient_keeps {client : Uuid} (hget : s.grants.get? c k = some d)
    (hr : d.remaining env.clock ≠ 0) (hne : c ≠ client) :
    (s.revokeClient env client).2.grants.get? c k = some d := by
  unfold ApprovalState.revokeClient nextRevision
  cases checkedAdd s.revision 1 with
  | none => exact hget
  | some revision =>
    exact GrantStore.get?_purgeExpired.mpr ⟨GrantStore.get?_revokeClient.mpr ⟨hget, hne⟩, hr⟩

lemma coordinateSecretMutation_keeps {secret : SecretId} {prepare commit : Except LadonError Unit}
    (hget : s.grants.get? c k = some d) (hr : d.remaining env.clock ≠ 0)
    (hne : prepare = .ok () → k ≠ secret) :
    (s.coordinateSecretMutation env secret prepare fun _ => commit).2.grants.get? c k = some d := by
  unfold ApprovalState.coordinateSecretMutation nextRevision
  cases prepare with
  | error e => exact hget
  | ok u =>
    cases checkedAdd s.revision 1 with
    | none => exact hget
    | some revision =>
      exact GrantStore.get?_purgeExpired.mpr
        ⟨GrantStore.get?_revokeSecret.mpr ⟨hget, hne rfl⟩, hr⟩

/-- A consent that is refused only purges. -/
lemma grantUnattended_error {context : UnattendedContext} {secrets : List SecretId} {deadline : ℤ}
    {validate : Except LadonError Unit} {e : LadonError}
    (h : (s.grantUnattended env context secrets deadline validate).1 = .error e) :
    (s.grantUnattended env context secrets deadline validate).2 =
      s.purgeDisconnectedClients env := by
  unfold grantUnattended at h ⊢
  dsimp only at h ⊢
  cases hd : durationSince deadline env.clock.wallTime with
  | none => rfl
  | some remaining =>
    simp only [hd] at h ⊢
    split_ifs at h ⊢ with h1 h2
    · rfl
    · rfl
    · cases validate with
      | error e => rfl
      | ok u => cases h

lemma grantUnattended_keeps {context : UnattendedContext} {secrets : List SecretId} {deadline : ℤ}
    {validate : Except LadonError Unit} (hget : s.grants.get? c k = some d)
    (hr : d.remaining env.clock ≠ 0) (hgone : ¬ Gone env s c)
    (hne : (s.grantUnattended env context secrets deadline validate).1 = .ok () →
      c ≠ context.client) :
    (s.grantUnattended env context secrets deadline validate).2.grants.get? c k = some d := by
  have hold := (@spares_purge env s).grants hget hr hgone
  rcases @grantUnattended_cases env s context secrets deadline validate with
    ⟨-, e, he⟩ | ⟨hok, -, -, -, hg, -⟩
  · rw [grantUnattended_error he]
    exact hold
  · rw [hg, GrantStore.grantUnattendedUntil]
    refine GrantStore.get?_insertAll.mpr (.inr ⟨fun h => hne hok h.1, ?_⟩)
    exact GrantStore.get?_purgeExpired.mpr ⟨hold, hr⟩

/-- A call that neither ends the access nor overwrites it leaves an unattended grant in place. -/
lemma Call.keeps_unattended {w : World} {call : Call} {secrets : List SecretId} {t : Token}
    (hget : w.state.grants.get? c k = some d) (hr : d.remaining w.env.clock ≠ 0)
    (hu : d.isUnattended) (ht : w.state.clientSessions.get? c = some t)
    (hlive : t ∉ w.env.cancelled) (hvault : w.state.vaultSessionId = some vault)
    (hvault' : (call.after approvalTimeout w.env w.state).vaultSessionId = some vault)
    (hends : ¬ Occurrence.EndsAccess ⟨w, .call call⟩ c secrets) (hk : k ∈ secrets)
    (hover : ¬ Occurrence.Overwrites ⟨w, .call call⟩ c k) :
    (call.after approvalTimeout w.env w.state).grants.get? c k = some d := by
  have hgone : ¬ Gone w.env w.state c := by
    rintro ⟨t', ht', hc⟩
    rw [ht] at ht'
    cases ht'
    exact hlive hc
  have of_spares : ∀ {s'}, Spares w.env w.state s' → s'.grants.get? c k = some d :=
    fun h => h.grants hget hr hgone
  simp only [Occurrence.EndsAccess, not_or] at hends
  obtain ⟨hall, hmanual, hreset, hclient, hpair, hmutation, hgo, hconsent⟩ := hends
  cases call with
  | authorize request token =>
    rcases @spares_authorize approvalTimeout w.env w.state request token with h | ⟨hv, h⟩
    · exact of_spares h
    · have hsame : some request.vaultSessionId = some vault := hv.symm.trans hvault'
      have henter : Spares w.env (w.state.purgeDisconnectedClients w.env)
          ((w.state.purgeDisconnectedClients w.env).enterVaultSession request.vaultSessionId) :=
        spares_enterVaultSession (vaultSessionId_purge.trans (hvault.trans hsame.symm))
      exact of_spares ((spares_purge.trans henter).trans h)
  | poll x =>
    rcases @spares_poll w.env w.state x with h | ⟨p, e, d', hp, hid, hd, ha, hdl, hok, heq⟩
    · exact of_spares h
    · rw [Call.after, heq]
      refine granting_keeps (of_spares (spares_purge.trans spares_pending)) hr fun h => hover ?_
      exact ⟨p, e, d', ⟨⟨x, rfl, hid, hok⟩, hp, hd, ha, hdl⟩, h.1.symm, h.2⟩
  | decide approvalId decision => exact of_spares spares_setDecision
  | cancelPending => exact of_spares spares_cancelPending
  | registerClientSession client token connectionId =>
    exact registerClientSession_keeps hget hr ht hlive
  | clientSessionConnected client => exact of_spares spares_purge
  | closeClientSessions => exact (hgo ⟨t, ht, .inr rfl⟩).elim
  | pending => exact of_spares spares_purge
  | observeClient client label => exact of_spares spares_observeClient
  | observeRun client project action => exact of_spares spares_observeRun
  | sessions => exact of_spares spares_purge
  | setSessionAnnotation client connectionId name note =>
    exact of_spares spares_setSessionAnnotation
  | activeGrants => exact of_spares spares_activeGrants
  | beginAppLock => exact (hmanual rfl).elim
  | beginAutoAppLock => exact beginAutoAppLock_keeps hget hr hu
  | finishAppLock epoch =>
    rw [Call.after, ApprovalState.finishAppLock]
    split <;> exact hget
  | unlockApp epoch =>
    rw [Call.after, ApprovalState.unlockApp]
    split <;> exact hget
  | resetAfterVaultLock => exact (hreset rfl).elim
  | revokeAll => exact (hall rfl).elim
  | revokePair client secret =>
    refine revokePair_keeps hget hr ?_
    rintro ⟨rfl, rfl⟩
    exact hpair ⟨k, hk, rfl⟩
  | revokeClient client =>
    refine revokeClient_keeps hget hr ?_
    rintro rfl
    exact hclient rfl
  | coordinateSecretMutation secret prepare commit =>
    refine coordinateSecretMutation_keeps hget hr ?_
    rintro rfl rfl
    exact hmutation ⟨k, hk, commit, rfl⟩
  | withValidGrant ticket => exact of_spares spares_grantIsValid
  | requireClientAccess client => exact of_spares spares_requireClientAccess
  | hasUnattended client => exact of_spares (spares_purge.trans spares_clientHasUnattended)
  | unattendedCovers client ids => exact of_spares (spares_purge.trans spares_coversUnattended)
  | captureUnattended client snapshot =>
    rcases @spares_captureUnattended w.env w.state client _
      (snapshot.map fun vault => (vault, ())) with h | ⟨-, v, x, -, h⟩
    · exact of_spares h
    · rw [Call.after, h] at hvault' ⊢
      rw [enterVaultSession_vault] at hvault'
      exact of_spares (spares_purge.trans
        (spares_enterVaultSession (vaultSessionId_purge.trans (hvault.trans hvault'.symm))))
  | grantUnattended context secrets' deadline validate =>
    refine grantUnattended_keeps hget hr hgone ?_
    rintro hok rfl
    exact hconsent ⟨context, secrets', deadline, validate, rfl, rfl, hok⟩

/-- A call that is not a consent of the client makes no unattended grant for it. -/
lemma Call.makes_no_unattended {w : World} {call : Call} {secrets : List SecretId}
    (hends : ¬ Occurrence.EndsAccess ⟨w, .call call⟩ c secrets)
    (hget : (call.after approvalTimeout w.env w.state).grants.get? c k = some d)
    (hu : d.isUnattended) : w.state.grants.get? c k = some d := by
  rcases (Call.change call).grants hget with hold | ⟨v, hnew⟩
  · exact hold
  · cases hnew with
    | approval h _ =>
      rw [decisionDeadline_attended h.deadline] at hu
      cases hu
    | consent h _ =>
      obtain ⟨deadline, validate, he, hok, -⟩ := h.event
      simp only [Occurrence.EndsAccess, not_or] at hends
      exact (hends.2.2.2.2.2.2.2 ⟨_, _, deadline, validate, rfl, he, hok⟩).elim

end Calls

/-! ### Runs -/

section Runs

variable {approvalTimeout : Duration} {client vault : Uuid} {secrets : List SecretId} {k : SecretId}
  {d : GrantDeadline} {middle : List Occurrence} {w w' : World} {o : Occurrence}

/-- The client has been connected since its consent, and a grant of it is in place for as long as no
approval has overwritten it. -/
structure AccessInv (client : Uuid) (k : SecretId) (d : GrantDeadline) (middle : List Occurrence)
    (w : World) : Prop where
  token : ∃ t, w.state.clientSessions.get? client = some t ∧ t ∉ w.env.cancelled
  kept : (∀ o ∈ middle, ¬ o.Overwrites client k) → w.state.grants.get? client k = some d
  lost : ∀ o ∈ middle, o.Overwrites client k →
    ∀ d', w.state.grants.get? client k = some d' → d'.isUnattended = false

/-- A connection that is not cancelled stays. -/
lemma Step.keeps_token (hs : Step approvalTimeout w o w') {t : Token}
    (ht : w.state.clientSessions.get? client = some t) (hlive : t ∉ w.env.cancelled)
    (hgo : ¬ o.Disconnects client) :
    w'.state.clientSessions.get? client = some t ∧ t ∉ w'.env.cancelled := by
  cases hs with
  | @mk e _ =>
    cases e with
    | call call =>
      have hafter : t ∉ call.cancelledAfter w.state w.env.cancelled := by
        cases call with
        | closeClientSessions => exact (hgo ⟨t, ht, .inr rfl⟩).elim
        | _ => exact hlive
      exact ⟨(Call.leaves call).tokens client t ht hafter, hafter⟩
    | cancel token =>
      refine ⟨ht, fun h => ?_⟩
      rcases List.mem_cons.mp h with rfl | h
      · exact hgo ⟨t, ht, .inl rfl⟩
      · exact hlive h
    | advance clock instant => exact ⟨ht, hlive⟩

lemma not_disconnects (h : ¬ o.EndsAccess client secrets) : ¬ o.Disconnects client := by
  simp only [Occurrence.EndsAccess, not_or] at h
  exact h.2.2.2.2.2.2.1

/-- An approval that is taken up leaves an ordinary grant. -/
lemma Step.overwritten (hs : Step approvalTimeout w o w') (ho : o.Overwrites client k)
    {d' : GrantDeadline} (hget : w'.state.grants.get? client k = some d') :
    d'.isUnattended = false := by
  obtain ⟨p, e, d₁, htake, rfl, hk⟩ := ho
  have hevent := htake.event
  obtain ⟨x, hx, -⟩ := hevent
  cases hs with
  | @mk e' _ =>
    cases hx
    have hnew := @Occurrence.Grants.get? approvalTimeout _ _ _ _ _ _ (.approval htake hk)
    obtain rfl : d₁ = d' := Option.some.inj (hnew.symm.trans hget)
    exact decisionDeadline_attended htake.deadline

/-- A step that is not meant to end the access makes no unattended grant for the client. -/
lemma Step.makes_no_unattended (hs : Step approvalTimeout w o w')
    (hends : ¬ o.EndsAccess client secrets) {d' : GrantDeadline}
    (hget : w'.state.grants.get? client k = some d') (hu : d'.isUnattended) :
    w.state.grants.get? client k = some d' := by
  cases hs with
  | @mk e _ =>
    cases e with
    | call call => exact Call.makes_no_unattended hends hget hu
    | cancel token => exact hget
    | advance clock instant => exact hget

lemma Step.keeps_unattended (hs : Step approvalTimeout w o w')
    (hget : w.state.grants.get? client k = some d) (hr : d.remaining w.env.clock ≠ 0)
    (hu : d.isUnattended) {t : Token} (ht : w.state.clientSessions.get? client = some t)
    (hlive : t ∉ w.env.cancelled) (hvault : w.state.vaultSessionId = some vault)
    (hvault' : w'.state.vaultSessionId = some vault) (hends : ¬ o.EndsAccess client secrets)
    (hk : k ∈ secrets) (hover : ¬ o.Overwrites client k) :
    w'.state.grants.get? client k = some d := by
  cases hs with
  | @mk e _ =>
    cases e with
    | call call =>
      exact Call.keeps_unattended hget hr hu ht hlive hvault hvault' hends hk hover
    | cancel token => exact hget
    | advance clock instant => exact hget

lemma AccessInv.step (h : AccessInv client k d middle w) (hs : Step approvalTimeout w o w')
    (hr : d.remaining w.env.clock ≠ 0) (hu : d.isUnattended)
    (hvault : w.state.vaultSessionId = some vault)
    (hvault' : w'.state.vaultSessionId = some vault) (hends : ¬ o.EndsAccess client secrets)
    (hk : k ∈ secrets) : AccessInv client k d (middle ++ [o]) w' := by
  obtain ⟨t, ht, hlive⟩ := h.token
  refine ⟨⟨t, hs.keeps_token ht hlive (not_disconnects hends)⟩, fun hover => ?_,
    fun o' ho' hover d' hget => ?_⟩
  · have hold := h.kept fun o' ho' => hover o' (List.mem_append_left _ ho')
    exact hs.keeps_unattended hold hr hu ht hlive hvault hvault' hends hk
      (hover o (List.mem_append_right _ List.mem_cons_self))
  · rcases List.mem_append.mp ho' with ho' | ho'
    · by_contra hne
      have hu' : d'.isUnattended := by simpa using hne
      rw [h.lost o' ho' hover d' (hs.makes_no_unattended hends hget hu')] at hu'
      cases hu'
    · rw [List.mem_singleton.mp ho'] at hover
      exact hs.overwritten hover hget

/-- The access right behind a consent. -/
lemma accessInv_of_accepts {consent : Occurrence} {context : UnattendedContext} {deadline : ℤ}
    {validate : Except LadonError Unit} (hs : Step approvalTimeout w consent w')
    (haccept : consent.Accepts context secrets deadline validate) (hk : k ∈ secrets) :
    AccessInv context.client k (GrantStore.unattendedDeadline consent.world.env.clock deadline) []
      w' := by
  obtain ⟨hevent, hok⟩ := haccept
  have hconsents : consent.Consents context secrets
      (GrantStore.unattendedDeadline consent.world.env.clock deadline) :=
    ⟨deadline, validate, hevent, hok, rfl⟩
  obtain ⟨-, -, -, -, -, -, -, t, -, ht, hlive, -⟩ := grantUnattended_ok hok
  cases hs with
  | @mk e _ =>
    cases hevent
    refine ⟨⟨t, (Call.leaves _).tokens _ t ht hlive, hlive⟩, fun _ => ?_, fun _ ho => (nomatch ho)⟩
    exact Occurrence.Grants.get? (.consent hconsents hk)

/-- The occurrence neither ends the access nor comes too late, and the session of the vault is the
one of the consent. -/
def Undisturbed (context : UnattendedContext) (secrets : List SecretId) (d : GrantDeadline)
    (o : Occurrence) : Prop :=
  ¬ o.EndsAccess context.client secrets ∧ ¬ Reached o.world.env.clock d ∧
    o.world.state.vaultSessionId = some context.vault

lemma accessInv_run {context : UnattendedContext}
    (hrun : Run (Step approvalTimeout) w middle w') (h₀ : AccessInv context.client k d [] w)
    (hu : d.isUnattended) (hk : k ∈ secrets)
    (hgood : ∀ o ∈ middle, Undisturbed context secrets d o)
    (hvault : w'.state.vaultSessionId = some context.vault) :
    AccessInv context.client k d middle w' := by
  refine hrun.history_invariant (I := fun as w => (∀ o ∈ as, Undisturbed context secrets d o) →
    w.state.vaultSessionId = some context.vault → AccessInv context.client k d as w)
    (fun _ _ => h₀) ?_ hgood hvault
  intro as w o w' h hs has hv'
  obtain ⟨hends, htime, hv⟩ := has o (List.mem_append_right _ List.mem_cons_self)
  rw [hs.world_eq] at htime hv
  have hinv := h (fun o' ho' => has o' (List.mem_append_left _ ho')) hv
  exact hinv.step hs (mt remaining_eq_zero_iff.mp htime) hu hv hv' hends hk

/-- **An unattended grant stays until its deadline, exactly where no approval overwrites it.** Behind
an accepted consent of a client to use some secrets unattended, for as long as the deadline is not
reached on either clock, the session of the vault is the same and nothing that ends the access has
happened, the client has unattended grants for all of these secrets if and only if no waiting call of
the client has meanwhile taken up an approval that lists one of them. -/
theorem unattended_kept_iff (grantLifetime : Duration) (env : Env)
    (before middle : List Occurrence) (consent : Occurrence) (w : World)
    (hrun : Run (Step approvalTimeout) (.initial env grantLifetime)
      (before ++ consent :: middle) w)
    (context : UnattendedContext) (secrets : List SecretId) (deadline : ℤ)
    (validate : Except LadonError Unit)
    (haccept : consent.Accepts context secrets deadline validate)
    (hends : ∀ o ∈ middle, ¬ o.EndsAccess context.client secrets)
    (htime : ∀ o ∈ middle, ¬ Reached o.world.env.clock
      (GrantStore.unattendedDeadline consent.world.env.clock deadline))
    (hnow : ¬ Reached w.env.clock
      (GrantStore.unattendedDeadline consent.world.env.clock deadline))
    (hvault : ∀ o ∈ middle, o.world.state.vaultSessionId = some context.vault)
    (hvault' : w.state.vaultSessionId = some context.vault) :
    (w.state.grants.missingUnattended w.env.clock context.client secrets).1 = [] ↔
      ∀ o ∈ middle, ∀ k ∈ secrets, ¬ o.Overwrites context.client k := by
  obtain ⟨w₁, -, hrest⟩ := hrun.split
  obtain ⟨w₂, hconsent, hmiddle⟩ := hrest.cons_inv
  have hinv : ∀ k ∈ secrets, AccessInv context.client k
      (GrantStore.unattendedDeadline consent.world.env.clock deadline) middle w := by
    intro k hk
    have hgood : ∀ o ∈ middle, Undisturbed context secrets
        (GrantStore.unattendedDeadline consent.world.env.clock deadline) o :=
      fun o ho => ⟨hends o ho, htime o ho, hvault o ho⟩
    exact accessInv_run hmiddle (accessInv_of_accepts hconsent haccept hk) rfl hk hgood hvault'
  constructor
  · intro hnil o ho k hk hover
    have hmem : k ∈ (w.state.grants.missingUnattended w.env.clock context.client secrets).1 := by
      refine GrantStore.mem_missingUnattended.mpr ⟨hk, ?_⟩
      rintro ⟨d, hlive, hu⟩
      rw [(hinv k hk).lost o ho hover d hlive.1] at hu
      cases hu
    rw [hnil] at hmem
    cases hmem
  · intro hnone
    refine List.eq_nil_iff_forall_not_mem.mpr fun k hmem => ?_
    obtain ⟨hk, hno⟩ := GrantStore.mem_missingUnattended.mp hmem
    exact hno ⟨_, ⟨(hinv k hk).kept fun o ho => hnone o ho k hk, hnow⟩, rfl⟩

end Runs

/-! ### An approval that was already given -/

section Downgrade

/-- A request of the client for the secret. -/
def dayRequest : PendingApproval where
  id := .filled 5
  vaultSessionId := nightVault
  clientSessionId := nightClient
  clientLabel := "MCP client"
  secrets := [⟨nightSecret, "mail", ["token"]⟩]
  executable := "/usr/bin/true"
  arguments := []
  workingDirectory := "/"

def dayWaiting : Waiting :=
  ⟨dayRequest.id, ⟨nightVault, nightClient, [nightSecret]⟩, 1, 3600 * 10 ^ 9⟩

/-- The request waits and is approved; before the waiting call wakes up, unattended use of the same
secret is consented to. -/
def dayEvents : List Event :=
  [.call (.registerClientSession nightClient 0 nightClient),
    .call (.captureUnattended nightClient (.ok nightVault)),
    .call (.authorize dayRequest 1),
    .call (.decide dayRequest.id .approve),
    .call (.grantUnattended nightContext [nightSecret] (3600 * 10 ^ 9) (.ok ())),
    .call (.poll dayWaiting)]

def dayWorld (n : ℕ) : World := nightStart.play (3600 * 10 ^ 9) (dayEvents.take n)

lemma accepts_day : Occurrence.Accepts
    ⟨dayWorld 4, .call (.grantUnattended nightContext [nightSecret] (3600 * 10 ^ 9) (.ok ()))⟩
    nightContext [nightSecret] (3600 * 10 ^ 9) (.ok ()) := ⟨rfl, by decide +kernel⟩

lemma not_endsAccess_poll {w : World} {x : Waiting} {client : Uuid} {secrets : List SecretId} :
    ¬ Occurrence.EndsAccess ⟨w, .call (.poll x)⟩ client secrets := by
  rintro (h | h | h | h | ⟨_, _, h⟩ | ⟨_, _, _, h⟩ | ⟨_, _, h | h⟩ | ⟨_, _, _, _, _, h, _⟩)
  all_goals cases h

lemma run_day : Run (Step (3600 * 10 ^ 9)) nightStart
    ([⟨dayWorld 0, .call (.registerClientSession nightClient 0 nightClient)⟩,
      ⟨dayWorld 1, .call (.captureUnattended nightClient (.ok nightVault))⟩,
      ⟨dayWorld 2, .call (.authorize dayRequest 1)⟩,
      ⟨dayWorld 3, .call (.decide dayRequest.id .approve)⟩] ++
      ⟨dayWorld 4, .call (.grantUnattended nightContext [nightSecret] (3600 * 10 ^ 9) (.ok ()))⟩ ::
      [⟨dayWorld 5, .call (.poll dayWaiting)⟩]) (dayWorld 6) :=
  @run_play (3600 * 10 ^ 9) nightStart dayEvents (by decide +kernel)

lemma not_reached_day {n : ℕ} (h : (dayWorld n).env.clock = ⟨0, 0⟩) :
    ¬ Reached (dayWorld n).env.clock
      (GrantStore.unattendedDeadline (dayWorld 4).env.clock (3600 * 10 ^ 9)) := by
  rw [h]
  exact mt remaining_eq_zero_iff.mpr (by decide +kernel)

/-- The approval given before the consent takes the unattended grant away when it is taken up after
it. -/
theorem approval_downgrades_unattended :
    ¬ ∀ (approvalTimeout grantLifetime : Duration) (env : Env) (before middle : List Occurrence)
      (consent : Occurrence) (w : World),
      Run (Step approvalTimeout) (.initial env grantLifetime) (before ++ consent :: middle) w →
      ∀ (context : UnattendedContext) (secrets : List SecretId) (deadline : ℤ)
        (validate : Except LadonError Unit), consent.Accepts context secrets deadline validate →
      (∀ o ∈ middle, ¬ o.EndsAccess context.client secrets) →
      (∀ o ∈ middle, ¬ Reached o.world.env.clock
        (GrantStore.unattendedDeadline consent.world.env.clock deadline)) →
      ¬ Reached w.env.clock (GrantStore.unattendedDeadline consent.world.env.clock deadline) →
      (∀ o ∈ middle, o.world.state.vaultSessionId = some context.vault) →
      w.state.vaultSessionId = some context.vault →
      (w.state.grants.missingUnattended w.env.clock context.client secrets).1 = [] := by
  intro h
  have hnil := h _ _ _ _ _ _ _ run_day nightContext [nightSecret] (3600 * 10 ^ 9) (.ok ()) accepts_day
    (List.forall_mem_singleton.mpr not_endsAccess_poll)
    (List.forall_mem_singleton.mpr (not_reached_day (by decide +kernel)))
    (not_reached_day (by decide +kernel)) (List.forall_mem_singleton.mpr (by decide +kernel))
    (by decide +kernel)
  have hlost : ((dayWorld 6).state.grants.missingUnattended (dayWorld 6).env.clock nightClient
      [nightSecret]).1 = [nightSecret] := by decide +kernel
  rw [show nightContext.client = nightClient from rfl, hlost] at hnil
  cases hnil

theorem unattended_kept_iff_day :
    ((dayWorld 5).state.grants.missingUnattended (dayWorld 5).env.clock nightClient
      [nightSecret]).1 = [] ∧
    ∃ k ∈ [nightSecret],
      Occurrence.Overwrites ⟨dayWorld 5, .call (.poll dayWaiting)⟩ nightClient k := by
  refine ⟨by decide +kernel, ?_⟩
  have hiff := unattended_kept_iff _ _ _ _ _ _ run_day nightContext [nightSecret] (3600 * 10 ^ 9)
    (.ok ()) accepts_day (List.forall_mem_singleton.mpr not_endsAccess_poll)
    (List.forall_mem_singleton.mpr (not_reached_day (by decide +kernel)))
    (not_reached_day (by decide +kernel)) (List.forall_mem_singleton.mpr (by decide +kernel))
    (by decide +kernel)
  by_contra hnone
  have hkept := hiff.mpr (List.forall_mem_singleton.mpr fun k hk hover => hnone ⟨k, hk, hover⟩)
  have hlost : ((dayWorld 6).state.grants.missingUnattended (dayWorld 6).env.clock nightClient
      [nightSecret]).1 = [nightSecret] := by decide +kernel
  rw [show nightContext.client = nightClient from rfl, hlost] at hkept
  cases hkept

end Downgrade

end Ladon.Approval

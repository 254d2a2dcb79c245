import Ladon.ApprovalRun

/-!
Where a grant comes from.

A grant is made in one of two ways: a waiting call takes up an approval of its request, or a human
consents to unattended use. Each is an occurrence of a run; whatever is in the store behind one more
step was there before it or was made by it. What is pending was pending too, or was just asked for.
-/

namespace Ladon.Approval

open Ladon.Error Ladon.Model Ladon.Grants Ladon.Lib ApprovalState

/-- The occurrence is the waiting call of a request taking up its approval, with this deadline. -/
structure Occurrence.TakesUp (o : Occurrence) (p : PendingState) (e : ApprovalDecision)
    (d : GrantDeadline) : Prop where
  event : ∃ x : Waiting, o.event = .call (.poll x) ∧ p.request.id = x.approvalId ∧
    (o.world.state.poll o.world.env x).1 = some (.ok x.ticket)
  pending : (o.world.state.purgeDisconnectedClients o.world.env).pending = some p
  decision : p.decision = some e
  approves : e.approves
  deadline : decisionDeadline o.world.env.clock o.world.state.grants.lifetimeMillis e = some d

/-- The occurrence is a consent to unattended use, with this deadline. -/
structure Occurrence.Consents (o : Occurrence) (context : UnattendedContext)
    (secrets : List SecretId) (d : GrantDeadline) : Prop where
  event : ∃ deadline validate,
    o.event = .call (.grantUnattended context secrets deadline validate) ∧
    (o.world.state.grantUnattended o.world.env context secrets deadline validate).1 = .ok () ∧
    d = GrantStore.unattendedDeadline o.world.env.clock deadline

/-- The occurrence makes a grant, for a request or a consent of this session of the vault. -/
inductive Occurrence.Grants (o : Occurrence) : Uuid → SecretId → GrantDeadline → Uuid → Prop
  | approval {p : PendingState} {e : ApprovalDecision} {d : GrantDeadline} {k : SecretId}
      (h : o.TakesUp p e d) (hk : k ∈ p.request.secretIds) :
      Grants o p.request.clientSessionId k d p.request.vaultSessionId
  | consent {context : UnattendedContext} {secrets : List SecretId} {d : GrantDeadline}
      {k : SecretId} (h : o.Consents context secrets d) (hk : k ∈ secrets) :
      Grants o context.client k d context.vault

lemma Occurrence.Grants.source {o : Occurrence} {c v : Uuid} {k : SecretId} {d : GrantDeadline}
    (h : o.Grants c k d v) :
    (∃ p e, o.TakesUp p e d ∧ p.request.vaultSessionId = v) ∨
      ∃ context secrets, o.Consents context secrets d := by
  cases h with
  | approval ht => exact .inl ⟨_, _, ht, rfl⟩
  | consent ht => exact .inr ⟨_, _, ht⟩

section Steps

variable {approvalTimeout : Duration} {env : Env} {s s' : ApprovalState} {call : Call} {w : World}
  {c : Uuid} {k : SecretId} {d : GrantDeadline}

lemma get?_granting {request : PendingApproval} {d' : GrantDeadline} :
    (s.granting env request d').grants.get? c k = some d ↔
      (c = request.clientSessionId ∧ k ∈ request.secretIds ∧ d = d') ∨
        ¬ (c = request.clientSessionId ∧ k ∈ request.secretIds) ∧
          s.grants.get? c k = some d ∧ d.remaining env.clock ≠ 0 := by
  rw [granting, grantRequest, GrantStore.get?_insertAll, GrantStore.get?_purgeExpired]

/-- An approval never makes an unattended grant. -/
lemma decisionDeadline_attended {clock : Clock} {lifetime : ℕ} {e : ApprovalDecision}
    (h : decisionDeadline clock lifetime e = some d) : d.isUnattended = false := by
  cases e <;> cases h <;> rfl

/-- What is in the store was there or was made by the call. -/
lemma Change.grants {w : World} (h : Change w.env w.state call s')
    (hg : s'.grants.get? c k = some d) :
    w.state.grants.get? c k = some d ∨ ∃ v, Occurrence.Grants ⟨w, .call call⟩ c k d v := by
  cases h with
  | quiet h => exact .inl (h.grants hg)
  | entered _ _ h =>
    exact .inl (quiet_purge.grants (enterVaultSession_old (h.grants hg)))
  | requested _ _ h =>
    exact .inl (quiet_purge.grants (enterVaultSession_old (h.grants hg)))
  | granted hp hid hd ha hdl hok =>
    rcases get?_granting.mp hg with ⟨rfl, hk, rfl⟩ | ⟨-, hold, -⟩
    · exact .inr ⟨_, .approval ⟨⟨_, rfl, hid, hok⟩, hp, hd, ha, hdl⟩ hk⟩
    · exact .inl (quiet_purge.grants hold)
  | decided => exact .inl (quiet_purge.grants hg)
  | connected _ hgr =>
    rw [hgr] at hg
    exact .inl (quiet_purge.grants (GrantStore.get?_revokeClient.mp hg).1)
  | captured => exact .inl (quiet_purge.grants (enterVaultSession_old hg))
  | consented hok _ _ _ hgr =>
    rw [hgr, GrantStore.grantUnattendedUntil, GrantStore.get?_insertAll,
      GrantStore.get?_purgeExpired] at hg
    rcases hg with ⟨rfl, hk, rfl⟩ | ⟨-, hold, -⟩
    · exact .inr ⟨_, .consent ⟨⟨_, _, rfl, hok, rfl⟩⟩ hk⟩
    · exact .inl (quiet_purge.grants hold)
  | locked _ _ h => exact .inl (h.grants hg)
  | finished => exact .inl hg
  | unlocked => exact .inl hg
  | reset h => exact .inl (h.grants hg)

/-- A grant that is made is in the store behind its occurrence. -/
lemma Occurrence.Grants.get? {v : Uuid} (h : Occurrence.Grants ⟨w, .call call⟩ c k d v) :
    (call.after approvalTimeout w.env w.state).grants.get? c k = some d := by
  cases h with
  | approval ht hk =>
    obtain ⟨x, hx, -, hok⟩ := ht.event
    cases hx
    rcases @poll_cases w.env w.state x with ⟨-, hne⟩ | ⟨q, e, d', hq, -, hd, -, hdl, -, heq⟩
    · exact (hne _ _ ht.pending ht.decision ht.approves _ hok).elim
    · obtain rfl := Option.some.inj (ht.pending.symm.trans hq)
      obtain rfl := Option.some.inj (ht.decision.symm.trans hd)
      obtain rfl := Option.some.inj (ht.deadline.symm.trans hdl)
      rw [Call.after, heq]
      exact get?_granting.mpr (.inl ⟨rfl, hk, rfl⟩)
  | consent ht hk =>
    obtain ⟨deadline, validate, hx, hok, rfl⟩ := ht.event
    cases hx
    rcases @grantUnattended_cases w.env w.state _ _ deadline validate with
      ⟨-, e, he⟩ | ⟨-, -, -, -, hg, -⟩
    · rw [he] at hok
      cases hok
    · rw [Call.after, hg, GrantStore.grantUnattendedUntil, GrantStore.get?_insertAll]
      exact .inl ⟨rfl, hk, rfl⟩

lemma consent_vault {context : UnattendedContext} {secrets : List SecretId} {deadline : ℤ}
    {validate : Except LadonError Unit}
    (hok : (s.grantUnattended env context secrets deadline validate).1 = .ok ()) :
    s.vaultSessionId = some context.vault := by
  rcases @grantUnattended_cases env s context secrets deadline validate with
    ⟨-, e, he⟩ | ⟨-, -, hv, -⟩
  · rw [he] at hok
    cases hok
  · exact hv

/-- A call that changes the session of the vault leaves no grant. -/
lemma Change.vault (h : Change env s call s') :
    s'.vaultSessionId = s.vaultSessionId ∨ ∀ c k, s'.grants.get? c k = none := by
  have henter : ∀ {vault s''}, Quiet env
      ((s.purgeDisconnectedClients env).enterVaultSession vault) s'' →
      s''.vaultSessionId = s.vaultSessionId ∨ ∀ c k, s''.grants.get? c k = none := by
    intro vault s'' hq
    by_cases hv : s.vaultSessionId = some vault
    · exact .inl ((hq.vault.trans enterVaultSession_vault).trans hv.symm)
    · refine .inr fun c k => ?_
      by_contra hne
      obtain ⟨d, hd⟩ := Option.ne_none_iff_exists'.mp hne
      have hnone := enterVaultSession_grants (c := c) (k := k)
        (show (s.purgeDisconnectedClients env).vaultSessionId ≠ some vault by simpa using hv)
      rw [hq.grants hd] at hnone
      cases hnone
  cases h with
  | quiet h => exact .inl h.vault
  | entered _ _ h => exact henter h
  | requested _ _ h => simpa using henter h
  | granted => exact .inl vaultSessionId_purge
  | decided => exact .inl vaultSessionId_purge
  | connected _ _ _ _ hv => exact .inl hv
  | captured => exact henter (.refl _)
  | consented _ _ _ _ _ h => exact .inl (h.vault.trans vaultSessionId_purge)
  | locked _ _ h => exact .inl h.vault
  | finished => exact .inl rfl
  | unlocked => exact .inl rfl
  | reset _ _ hg => exact .inr hg

/-- How the session that the approval coordinator remembers can change. -/
lemma Change.vault_eq (h : Change env s call s') :
    s'.vaultSessionId = s.vaultSessionId ∨ s'.vaultSessionId = none ∨
      (∃ request token, call = .authorize request token ∧
        s'.vaultSessionId = some request.vaultSessionId) ∨
      ∃ client vault, call = .captureUnattended client (.ok vault) ∧
        s'.vaultSessionId = some vault := by
  cases h with
  | quiet h => exact .inl h.vault
  | entered _ _ h =>
    exact .inr (.inr (.inl ⟨_, _, rfl, h.vault.trans enterVaultSession_vault⟩))
  | requested _ _ h =>
    exact .inr (.inr (.inl ⟨_, _, rfl, h.vault.trans enterVaultSession_vault⟩))
  | granted => exact .inl vaultSessionId_purge
  | decided => exact .inl vaultSessionId_purge
  | connected _ _ _ _ hv => exact .inl hv
  | captured => exact .inr (.inr (.inr ⟨_, _, rfl, enterVaultSession_vault⟩))
  | consented _ _ _ _ _ h => exact .inl (h.vault.trans vaultSessionId_purge)
  | locked _ _ h => exact .inl h.vault
  | finished => exact .inl rfl
  | unlocked => exact .inl rfl
  | reset h => exact .inr (.inl h.vault)

/-- An approval that is pending behind a call was pending before it, or is made by it. -/
lemma Change.approved (h : Change env s call s') {p : PendingState} {e : ApprovalDecision}
    (hp : s'.pending = some p) (he : p.decision = some e) (ha : e.approves) :
    (∃ q, s.pending = some q ∧ p.SameRequest q ∧ q.decision = some e) ∨
      ∃ q h, call = .decide q.request.id h ∧ e = h.decision ∧ p.SameRequest q ∧
        (s.purgeDisconnectedClients env).pending = some q ∧ q.decision = none ∧
        (s.setDecision env q.request.id h.decision).1 = .ok () := by
  have hquiet : ∀ {s₁}, Quiet env s s₁ → s₁.pending = some p →
      ∃ q, s.pending = some q ∧ p.SameRequest q ∧ q.decision = some e := by
    intro s₁ hq hp
    obtain ⟨q, hs, hf⟩ := hq.pending hp
    exact ⟨q, hs, hf.toSameRequest, hf.approved he ha⟩
  cases h with
  | quiet h => exact .inl (hquiet h hp)
  | entered _ hidle h =>
    obtain ⟨q, hq, -⟩ := h.pending hp
    rw [enterVaultSession_pending, hidle] at hq
    cases hq
  | requested _ _ _ hu =>
    cases hp
    rw [hu] at he
    cases he
  | granted => cases hp
  | decided hq hid hu _ hok =>
    cases hp
    cases he
    subst hid
    exact .inr ⟨_, _, rfl, rfl, .decided, hq, hu, hok⟩
  | connected _ _ hpend => exact .inl (hquiet quiet_purge (hpend ▸ hp))
  | captured =>
    rw [enterVaultSession_pending] at hp
    exact .inl (hquiet quiet_purge hp)
  | consented _ _ _ _ _ h => exact .inl (hquiet (quiet_purge.trans h) hp)
  | locked _ _ _ hr =>
    rw [hr p hp] at he
    cases he
    cases ha
  | finished => exact .inl ⟨p, hp, .refl, he⟩
  | unlocked => exact .inl ⟨p, hp, .refl, he⟩
  | reset _ hr =>
    rw [hr p hp] at he
    cases he
    cases ha

/-! ### What is pending -/

/-- What is pending is the request that was pending, and is cancelled where that was. -/
def Remains (s : ApprovalState) (p : PendingState) : Prop :=
  ∃ q, s.pending = some q ∧ p.SameRequest q ∧ (q.decision = some .cancel → p.decision = some .cancel)

lemma Remains.of_quiet {p : PendingState} (h : Quiet env s s') (hp : s'.pending = some p) :
    Remains s p := by
  obtain ⟨q, hq, hf⟩ := h.pending hp
  exact ⟨q, hq, hf.toSameRequest, hf.cancelled⟩

lemma Remains.of_purge {p : PendingState} (h : Remains (s.purgeDisconnectedClients env) p) :
    Remains s p := by
  obtain ⟨q, hq, hsame, hcancel⟩ := h
  obtain ⟨q', hq', hf⟩ := (@quiet_purge env s).pending hq
  exact ⟨q', hq', hsame.trans hf.toSameRequest, fun hd => hcancel (hf.cancelled hd)⟩

lemma Change.remains (h : Change env s call s') (hcall : ∀ request token, call ≠ .authorize request token)
    {p : PendingState} (hp : s'.pending = some p) : Remains s p := by
  cases h with
  | quiet h => exact .of_quiet h hp
  | entered => exact (hcall _ _ rfl).elim
  | requested => exact (hcall _ _ rfl).elim
  | granted => cases hp
  | @decided _ _ q hq _ hundecided =>
    cases hp
    refine Remains.of_purge ⟨q, hq, .decided, fun hd => ?_⟩
    rw [hundecided] at hd
    cases hd
  | connected _ _ hpending =>
    rw [hpending] at hp
    exact .of_quiet quiet_purge hp
  | captured =>
    rw [enterVaultSession_pending] at hp
    exact .of_quiet quiet_purge hp
  | consented _ _ _ _ _ h => exact Remains.of_purge (.of_quiet h hp)
  | locked _ _ h =>
    obtain ⟨q, hq, hf⟩ := h.pending hp
    exact ⟨q, hq, hf.toSameRequest, hf.cancelled⟩
  | finished => exact ⟨p, hp, .refl, fun hd => hd⟩
  | unlocked => exact ⟨p, hp, .refl, fun hd => hd⟩
  | reset h =>
    obtain ⟨q, hq, hf⟩ := h.pending hp
    exact ⟨q, hq, hf.toSameRequest, hf.cancelled⟩

/-- Calls that are not `authorize` add nothing to what is pending. -/
lemma Call.remains (hcall : ∀ request token, call ≠ .authorize request token) {p : PendingState}
    (hp : (call.after approvalTimeout env s).pending = some p) : Remains s p :=
  (@Call.change approvalTimeout env s call).remains hcall hp

/-- The request of a call of `authorize` that waits, undecided. -/
structure PendingFor (request : PendingApproval) (p : PendingState) : Prop where
  id : p.request.id = request.id
  client : p.request.clientSessionId = request.clientSessionId
  secrets : ∀ k ∈ p.request.secretIds, k ∈ request.secretIds
  requested : ∀ k ∈ p.requestedSecretIds, k ∈ request.secretIds
  undecided : p.decision = none

/-- What is pending behind a call of `authorize` was pending, or is its own request; then it waits. -/
lemma authorize_remains {request : PendingApproval} {token : Token} {p : PendingState}
    (h : (s.authorize approvalTimeout env request token).2.pending = some p) :
    Remains s p ∨ PendingFor request p ∧
      ∃ w, (s.authorize approvalTimeout env request token).1 = .waiting w := by
  unfold authorize at h ⊢
  dsimp only at h ⊢
  split at h
  · split at h
    · exact .inl (.of_quiet quiet_purge h)
    · split at h
      · exact .inl (.of_quiet (quiet_purge.trans quiet_coversUnattended) h)
      · exact .inl (.of_quiet (quiet_purge.trans quiet_coversUnattended) h)
  · next hactive =>
    split at h
    · exact .inl (.of_quiet quiet_purge h)
    · next hpending =>
      split at h
      · obtain ⟨q, hq, hf⟩ := (@quiet_findMissing env _ request).pending h
        rw [enterVaultSession_pending] at hq
        exact .inl (Remains.of_purge ⟨q, hq, hf.toSameRequest, hf.cancelled⟩)
      · next hmissing =>
        cases h
        rw [if_neg hactive, if_neg hpending, if_neg hmissing]
        refine .inr ⟨⟨rfl, rfl, fun k hk => ?_, fun k hk => List.mem_eraseDups.mp hk, rfl⟩, _, rfl⟩
        obtain ⟨secret, hs, rfl⟩ := List.mem_map.mp hk
        exact List.mem_map_of_mem (List.mem_of_mem_filter hs)

end Steps

end Ladon.Approval

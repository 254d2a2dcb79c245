import Ladon.ApprovalHistory
import Ladon.ApprovalLock

/-!
No stale authorization: whenever an operation runs under a ticket, each of its secrets is covered by
a human decision whose deadline has not passed and that nothing has revoked since.

The decision and the grant are made by different threads. So the invariant speaks of both: of every
grant in the store, and of every approval that waits to be taken up. A connection that goes away
revokes too, but the coordinator notices only at its next purge; until then the client counts as
gone.
-/

namespace Ladon.Approval

open Ladon.Error Ladon.Model Ladon.Grants Ladon.Lib Ladon.Lib.Word ApprovalState

/-- What was decided on a client and a secret: a request approved, or unattended use with a
deadline. -/
inductive Decision
  | approval (id : Uuid) (e : ApprovalDecision)
  | consent (d : GrantDeadline)

/-- A human decides on this client and this secret. -/
inductive Occurrence.Decides : Occurrence → Uuid → SecretId → Decision → Prop
  | approval {w : World} {h : HumanDecision} {p : PendingState} {k : SecretId}
      (pending : (w.state.purgeDisconnectedClients w.env).pending = some p)
      (undecided : p.decision = none) (approves : h.decision.approves)
      (ok : (w.state.setDecision w.env p.request.id h.decision).1 = .ok ())
      (hk : k ∈ p.request.secretIds) :
      Decides ⟨w, .call (.decide p.request.id h)⟩ p.request.clientSessionId k
        (.approval p.request.id h.decision)
  | consent {o : Occurrence} {context : UnattendedContext} {secrets : List SecretId}
      {d : GrantDeadline} {k : SecretId} (h : o.Consents context secrets d) (hk : k ∈ secrets) :
      Decides o context.client k (.consent d)

/-- Such a decision ends here: a revocation of the pair, of the client or of all by a lock, a change
of the secret, or the end of the connection. An automatic lock spares what is unattended. -/
inductive Occurrence.Revokes : Occurrence → Bool → Uuid → SecretId → Prop
  | pair {w : World} {u : Bool} {c : Uuid} {k : SecretId} {b : Bool}
      (ok : (w.state.revokePair w.env c k).1 = .ok b) :
      Revokes ⟨w, .call (.revokePair c k)⟩ u c k
  | client {w : World} {u : Bool} {c : Uuid} {k : SecretId}
      (ok : (w.state.revokeClient w.env c).1 = .ok ()) :
      Revokes ⟨w, .call (.revokeClient c)⟩ u c k
  | mutation {w : World} {u : Bool} {c : Uuid} {k : SecretId} {commit : Except LadonError Unit}
      (room : w.state.revision < u64Max) :
      Revokes ⟨w, .call (.coordinateSecretMutation k (.ok ()) commit)⟩ u c k
  | lock {w : World} {u : Bool} {c : Uuid} {k : SecretId} {epoch : ℕ}
      (ok : (w.state.beginAppLock w.env).1 = .ok epoch) : Revokes ⟨w, .call .beginAppLock⟩ u c k
  | autoLock {w : World} {c : Uuid} {k : SecretId} {epoch : ℕ}
      (ok : (w.state.beginAutoAppLock w.env).1 = .ok epoch) :
      Revokes ⟨w, .call .beginAutoAppLock⟩ false c k
  | reset {w : World} {u : Bool} {c : Uuid} {k : SecretId}
      (ok : w.state.resetAfterVaultLock.1 = .ok ()) :
      Revokes ⟨w, .call .resetAfterVaultLock⟩ u c k
  | close {w : World} {u : Bool} {c : Uuid} {k : SecretId} {t : Token}
      (connected : w.state.clientSessions.get? c = some t) :
      Revokes ⟨w, .call .closeClientSessions⟩ u c k
  | disconnect {w : World} {u : Bool} {c : Uuid} {k : SecretId} {t : Token}
      (connected : w.state.clientSessions.get? c = some t) : Revokes ⟨w, .cancel t⟩ u c k

/-- The deadline that comes of a decision: of an approval, when its waiting call takes it up. -/
def Decision.Gives (after : List Occurrence) (c : Uuid) (k : SecretId) (d : GrantDeadline) :
    Decision → Prop
  | .consent d' => d = d'
  | .approval id e => ∃ o ∈ after, ∃ p : PendingState, p.request.id = id ∧
    p.request.clientSessionId = c ∧ k ∈ p.request.secretIds ∧ o.TakesUp p e d

/-- A decision covers the pair with this deadline, and was not revoked since. -/
def Covered (history : List Occurrence) (c : Uuid) (k : SecretId) (d : GrantDeadline) : Prop :=
  ∃ before o after decision, history = before ++ o :: after ∧ o.Decides c k decision ∧
    decision.Gives after c k d ∧ ∀ o' ∈ after, ¬ o'.Revokes d.isUnattended c k

/-- A request was approved, and the approval not revoked since. -/
def Approved (history : List Occurrence) (c : Uuid) (k : SecretId) (id : Uuid)
    (e : ApprovalDecision) : Prop :=
  ∃ before o after, history = before ++ o :: after ∧ o.Decides c k (.approval id e) ∧
    ∀ o' ∈ after, ¬ o'.Revokes false c k

variable {approvalTimeout : Duration} {history : List Occurrence} {w w' : World} {o : Occurrence}
  {env : Env} {s s' : ApprovalState} {call : Call} {c : Uuid} {k : SecretId} {d : GrantDeadline}

lemma Covered.snoc (h : Covered history c k d) (ho : ¬ o.Revokes d.isUnattended c k) :
    Covered (history ++ [o]) c k d := by
  obtain ⟨before, o₁, after, decision, rfl, hdec, hgives, hnot⟩ := h
  refine ⟨before, o₁, after ++ [o], decision, by simp, hdec, ?_, fun o' ho' => ?_⟩
  · cases decision with
    | consent d' => exact hgives
    | approval id e =>
      obtain ⟨o₂, h₂, hp⟩ := hgives
      exact ⟨o₂, List.mem_append_left _ h₂, hp⟩
  · rcases List.mem_append.mp ho' with h | h
    · exact hnot o' h
    · rwa [List.mem_singleton.mp h]

lemma Approved.snoc {id : Uuid} {e : ApprovalDecision} (h : Approved history c k id e)
    (ho : ¬ o.Revokes false c k) : Approved (history ++ [o]) c k id e := by
  obtain ⟨before, o₁, after, rfl, hdec, hnot⟩ := h
  refine ⟨before, o₁, after ++ [o], by simp, hdec, fun o' ho' => ?_⟩
  rcases List.mem_append.mp ho' with h | h
  · exact hnot o' h
  · rwa [List.mem_singleton.mp h]

/-! ### Clients that have gone -/

/-- A client that has gone is noticed, or stays gone. -/
lemma Change.gone (h : Change env s call s') (hg : Gone env s c) :
    Gone env s' c ∨ Absent s' c := by
  have habsent : Absent (s.purgeDisconnectedClients env) c := absent_purge hg
  have henter : ∀ vault, Absent ((s.purgeDisconnectedClients env).enterVaultSession vault) c := by
    intro vault
    refine ⟨fun k => ?_, fun p e hp => habsent.2 p e (enterVaultSession_pending ▸ hp)⟩
    by_contra hne
    obtain ⟨d, hd⟩ := Option.ne_none_iff_exists'.mp hne
    have := enterVaultSession_old hd
    rw [habsent.1 k] at this
    cases this
  cases h with
  | quiet h => exact h.gone hg
  | entered _ _ h => exact .inr ((henter _).quiet h)
  | requested _ _ h hu =>
    refine .inr ⟨((henter _).quiet h).1, fun p e hp _ he => ?_⟩
    cases hp
    rw [hu] at he
    cases he
  | granted hp _ hd ha =>
    refine .inr ⟨fun k => ?_, fun p e h => nomatch h⟩
    by_contra hne
    obtain ⟨d, hget⟩ := Option.ne_none_iff_exists'.mp hne
    rcases get?_granting.mp hget with ⟨hc, -, -⟩ | ⟨-, hold, -⟩
    · rw [cancelled_purge hg hp hc.symm] at hd
      cases hd
      cases ha
    · have hnone := habsent.1 k
      rw [show (s.purgeDisconnectedClients env).grants.get? c k = some d from hold] at hnone
      cases hnone
  | decided hp _ hu =>
    refine .inr ⟨habsent.1, fun p e h hc _ => ?_⟩
    cases h
    rw [cancelled_purge hg hp hc] at hu
    cases hu
  | connected _ hgr hp =>
    refine .inr ⟨fun k => ?_, fun p e h => habsent.2 p e (hp ▸ h)⟩
    by_contra hne
    obtain ⟨d, hget⟩ := Option.ne_none_iff_exists'.mp hne
    rw [hgr] at hget
    have := (GrantStore.get?_revokeClient.mp hget).1
    rw [habsent.1 k] at this
    cases this
  | captured => exact .inr (henter _)
  | consented _ _ _ hc hgr h =>
    have hquiet := habsent.quiet h
    refine .inr ⟨fun k => ?_, hquiet.2⟩
    by_contra hne
    obtain ⟨d, hget⟩ := Option.ne_none_iff_exists'.mp hne
    rw [hgr, GrantStore.grantUnattendedUntil, GrantStore.get?_insertAll,
      GrantStore.get?_purgeExpired] at hget
    rcases hget with ⟨rfl, -, -⟩ | ⟨-, hold, -⟩
    · obtain ⟨t, ht⟩ := Table.contains_eq_true.mp hc
      obtain ⟨hold, hcan⟩ := clientSessions_purge.mp ht
      obtain ⟨t', ht', hcan'⟩ := hg
      rw [hold] at ht'
      cases ht'
      exact hcan hcan'
    · rw [habsent.1 k] at hold
      cases hold
  | locked _ _ h => exact h.gone hg
  | finished => exact .inl hg
  | unlocked => exact .inl hg
  | reset h => exact h.gone hg

lemma Call.cancelledAfter_subset {cancelled : List Token} {t : Token} (h : t ∈ cancelled) :
    t ∈ call.cancelledAfter s cancelled := by
  unfold Call.cancelledAfter
  split
  · exact List.mem_append_right _ h
  · exact h

lemma Step.gone (h : Step approvalTimeout w o w') (hg : Gone w.env w.state c) :
    Gone w'.env w'.state c ∨ Absent w'.state c := by
  cases h with
  | @mk e _ =>
    cases e with
    | call call =>
      rcases (@Call.change approvalTimeout w.env w.state call).gone hg with ⟨t, ht, hc⟩ | ha
      · exact .inl ⟨t, ht, Call.cancelledAfter_subset hc⟩
      · exact .inr ha
    | cancel token =>
      obtain ⟨t, ht, hc⟩ := hg
      exact .inl ⟨t, ht, List.mem_cons_of_mem _ hc⟩
    | advance clock instant => exact .inl hg

/-! ### Revocations -/

/-- Behind a revocation a pair has no grant, unless the client is gone or the grant was spared, and
no approval that could make one. -/
structure Cleared (env : Env) (s : ApprovalState) (u : Bool) (c : Uuid) (k : SecretId) : Prop where
  grants : ∀ {d}, s.grants.get? c k = some d → u = false ∧ d.isUnattended
  pending : ∀ {p e}, s.pending = some p → p.request.clientSessionId = c →
    k ∈ p.requestedSecretIds → p.decision = some e → e.approves = false

lemma Refuses.approves {p : PendingState} {e : ApprovalDecision} (h : Refuses p.decision)
    (he : p.decision = some e) : e.approves = false := by
  obtain ⟨e', he', ha⟩ := h
  rw [he] at he'
  cases he'
  exact ha

lemma Absent.cleared {u : Bool} (h : Absent s c) : Cleared env s u c k := by
  refine ⟨fun hg => ?_, fun hp hc _ he => h.2 _ _ hp hc he⟩
  rw [h.1 k] at hg
  cases hg

lemma cleared_lock {preserve : Bool} {epoch : ℕ} {u : Bool} (hu : preserve = true → u = false)
    (hok : (s.beginAppLockWithPolicy env preserve).1 = .ok epoch) :
    Cleared env (s.beginAppLockWithPolicy env preserve).2 u c k := by
  rcases @beginAppLockWithPolicy_cases env s preserve with ⟨e, h⟩ | ⟨-, epoch', s₁, -, h, -, hr, hg⟩
  · rw [h] at hok
    cases hok
  · rw [h]
    refine ⟨fun hget => ?_, fun hp _ _ he => ?_⟩
    · obtain ⟨hpres, hun⟩ := hg _ _ _ hget
      exact ⟨hu hpres, hun⟩
    · rw [hr _ hp] at he
      cases he
      rfl

/-- A revocation revokes. -/
lemma Occurrence.Revokes.cleared {u : Bool} (h : o.Revokes u c k)
    (hs : Step approvalTimeout w o w') :
    Gone w'.env w'.state c ∨ Cleared w'.env w'.state u c k := by
  cases hs with
  | mk =>
    cases h with
    | pair hok =>
      rcases @revokePair_cases w.env w.state c k with ⟨e, he⟩ | ⟨-, -, -, hg, hp⟩
      · rw [he] at hok
        cases hok
      · refine .inr ⟨fun hget => ?_, fun hpend hc hk he => (hp _ hpend hc hk).approves he⟩
        cases hget.symm.trans hg
    | client hok =>
      rcases @revokeClient_cases w.env w.state c with ⟨e, he⟩ | ⟨-, -, -, ha⟩
      · rw [he] at hok
        cases hok
      · exact .inr ha.cleared
    | @mutation _ _ _ _ commit hroom =>
      rcases @coordinateSecretMutation_cases w.env w.state _ _ k (.ok ()) fun _ => commit with
        ⟨-, ⟨e, he⟩ | hnone⟩ | ⟨-, -, -, -, -, -, hg, hp⟩
      · cases he
      · unfold checkedAdd at hnone
        split at hnone
        · cases hnone
        · omega
      · refine .inr ⟨fun hget => ?_, fun hpend _ hk he => (hp _ hpend hk).approves he⟩
        cases hget.symm.trans (hg c)
    | lock hok => exact .inr (cleared_lock (fun h => nomatch h) hok)
    | autoLock hok => exact .inr (cleared_lock (fun _ => rfl) hok)
    | reset hok =>
      rcases @resetAfterVaultLock_cases w.env w.state with ⟨e, he⟩ | ⟨-, s₁, -, he, -, hr, hg⟩
      · rw [he] at hok
        cases hok
      · refine .inr ?_
        rw [World.apply, Call.after, he]
        refine ⟨fun hget => ?_, fun hp _ _ hd => ?_⟩
        · rw [hg] at hget
          cases hget
        · rw [hr _ hp] at hd
          cases hd
          rfl
    | @close _ _ _ _ t hc =>
      have hmem : t ∈ w.state.sessionTokens :=
        List.mem_map.mpr ⟨(c, t), Table.get?_eq_some_iff.mp hc, rfl⟩
      have habsent : Absent (w.state.closeClientSessions w.env).2 c :=
        absent_purge ⟨t, hc, List.mem_append_left _ hmem⟩
      exact .inr habsent.cleared
    | disconnect hc => exact .inl ⟨_, hc, List.mem_cons_self⟩

/-! ### The invariant -/

lemma PendingState.SameRequest.secretIds {p q : PendingState} (h : p.SameRequest q) :
    p.request.secretIds = q.request.secretIds := by
  rw [PendingApproval.secretIds, PendingApproval.secretIds, h.secrets]

/-- The secrets a request lists are among those it was made for. -/
def Requested (s : ApprovalState) : Prop :=
  ∀ p k, s.pending = some p → k ∈ p.request.secretIds → k ∈ p.requestedSecretIds

lemma Requested.follows (h : Requested s)
    (hf : ∀ {p}, s'.pending = some p → ∃ q, s.pending = some q ∧ p.Follows q) : Requested s' := by
  intro p k hp hk
  obtain ⟨q, hs, hf⟩ := hf hp
  rw [hf.requested]
  exact h q k hs (hf.toSameRequest.secretIds ▸ hk)

lemma Requested.change (h : Requested s) (hc : Change env s call s') : Requested s' := by
  have hpurge : Requested (s.purgeDisconnectedClients env) := h.follows (@quiet_purge env s).pending
  cases hc with
  | quiet hq => exact h.follows hq.pending
  | entered _ hidle hq =>
    intro p k hp
    obtain ⟨q, hs, -⟩ := hq.pending hp
    rw [enterVaultSession_pending, hidle] at hs
    cases hs
  | requested _ _ _ _ _ hids =>
    intro p k hp hk
    cases hp
    exact hids k hk
  | granted => intro p k hp; cases hp
  | @decided _ _ q hq =>
    intro p k hp hk
    cases hp
    exact hpurge q k hq hk
  | connected _ _ hp => exact fun p k hs => hpurge p k (hp ▸ hs)
  | captured => exact fun p k hs => hpurge p k (enterVaultSession_pending ▸ hs)
  | consented _ _ _ _ _ hq => exact hpurge.follows hq.pending
  | locked _ _ hq => exact h.follows hq.pending
  | finished => exact h
  | unlocked => exact h
  | reset hq => exact h.follows hq.pending

structure CoverInv (history : List Occurrence) (w : World) : Prop where
  grants : ∀ {c k d}, w.state.grants.get? c k = some d →
    Gone w.env w.state c ∨ Covered history c k d
  approved : ∀ {p e k}, w.state.pending = some p → p.decision = some e → e.approves →
    k ∈ p.request.secretIds → Gone w.env w.state p.request.clientSessionId ∨
      Approved history p.request.clientSessionId k p.request.id e
  requested : Requested w.state

/-- A grant that a step leaves in the store is covered still, unless the client has gone. -/
lemma CoverInv.keep_grant (h : CoverInv history w) (hs : Step approvalTimeout w o w')
    (hold : w.state.grants.get? c k = some d) (hg : w'.state.grants.get? c k = some d) :
    Gone w'.env w'.state c ∨ Covered (history ++ [o]) c k d := by
  rcases h.grants hold with hgone | hcov
  · rcases hs.gone hgone with hgone' | habsent
    · exact .inl hgone'
    · cases hg.symm.trans (habsent.1 k)
  · by_cases hrev : o.Revokes d.isUnattended c k
    · rcases hrev.cleared hs with hgone | hcl
      · exact .inl hgone
      · obtain ⟨hfalse, htrue⟩ := hcl.grants hg
        rw [htrue] at hfalse
        cases hfalse
    · exact .inr (hcov.snoc hrev)

/-- An approval that a step leaves pending is in force still, unless the client has gone. -/
lemma CoverInv.keep_approval (h : CoverInv history w) (hs : Step approvalTimeout w o w')
    {p q : PendingState} {e : ApprovalDecision} (hq : w.state.pending = some q)
    (hqe : q.decision = some e) (hsame : p.SameRequest q) (hp : w'.state.pending = some p)
    (he : p.decision = some e) (ha : e.approves) (hk : k ∈ p.request.secretIds) :
    Gone w'.env w'.state p.request.clientSessionId ∨
      Approved (history ++ [o]) p.request.clientSessionId k p.request.id e := by
  have hqk : k ∈ q.request.secretIds := hsame.secretIds ▸ hk
  rw [hsame.client, hsame.id]
  rcases h.approved hq hqe ha hqk with hgone | happ
  · rcases hs.gone hgone with hgone' | habsent
    · exact .inl hgone'
    · rw [habsent.2 p e hp hsame.client he] at ha
      cases ha
  · by_cases hrev : o.Revokes false q.request.clientSessionId k
    · rcases hrev.cleared hs with hgone | hcl
      · exact .inl hgone
      · have hreq : k ∈ p.requestedSecretIds := hsame.requested ▸ h.requested q k hq hqk
        rw [hcl.pending hp hsame.client hreq he] at ha
        cases ha
    · exact .inr (happ.snoc hrev)

/-- A call that takes up an approval makes grants that it covers: the approval was in force, since
the request of a client that has gone is cancelled first. -/
lemma CoverInv.take_up (h : CoverInv history w) {p : PendingState} {e : ApprovalDecision}
    (ht : Occurrence.TakesUp ⟨w, .call call⟩ p e d) (hk : k ∈ p.request.secretIds) :
    Covered (history ++ [⟨w, .call call⟩]) p.request.clientSessionId k d := by
  obtain ⟨q, hq, hf⟩ := quiet_purge.pending ht.pending
  have hqe : q.decision = some e := hf.approved ht.decision ht.approves
  have hqk : k ∈ q.request.secretIds := hf.toSameRequest.secretIds ▸ hk
  rcases h.approved hq hqe ht.approves hqk with hgone | happ
  · have hcancel := cancelled_purge hgone ht.pending hf.client
    rw [ht.decision] at hcancel
    cases hcancel
    cases ht.approves
  · obtain ⟨before, o₁, after, rfl, hdec, hnot⟩ := happ
    refine ⟨before, o₁, after ++ [⟨w, .call call⟩], .approval q.request.id e, by simp,
      hf.client ▸ hdec, ⟨_, List.mem_append_right _ List.mem_cons_self, p, hf.id, rfl, hk, ht⟩,
      fun o' ho' => ?_⟩
    rw [decisionDeadline_attended ht.deadline]
    rcases List.mem_append.mp ho' with ho' | ho'
    · exact hf.client ▸ hnot o' ho'
    · obtain ⟨x, hx, -⟩ := ht.event
      cases hx
      rw [List.mem_singleton.mp ho']
      rintro ⟨⟩

lemma CoverInv.change (h : CoverInv history w) (hs : Step approvalTimeout w ⟨w, .call call⟩ w')
    (hchange : Change w.env w.state call w'.state) :
    CoverInv (history ++ [⟨w, .call call⟩]) w' := by
  refine ⟨fun hg => ?_, fun hp he ha hk => ?_, h.requested.change hchange⟩
  · rcases hchange.grants hg with hold | ⟨v, hnew⟩
    · exact h.keep_grant hs hold hg
    · cases hnew with
      | approval ht hk => exact .inr (h.take_up ht hk)
      | consent ht hk =>
        exact .inr ⟨history, _, [], .consent _, rfl, .consent ht hk, rfl,
          fun o' ho' => (List.not_mem_nil ho').elim⟩
  · rcases hchange.approved hp he ha with
      ⟨q, hq, hsame, hqe⟩ | ⟨q, hd, rfl, rfl, hsame, hq, hu, hok⟩
    · exact h.keep_approval hs hq hqe hsame hp he ha hk
    · -- The call is the decision itself.
      rw [hsame.client, hsame.id]
      exact .inr ⟨history, _, [], rfl, .approval hq hu ha hok (hsame.secretIds ▸ hk),
        fun o' ho' => (List.not_mem_nil ho').elim⟩

/-- What happens around the coordinator. -/
lemma CoverInv.outside (h : CoverInv history w) (hs : Step approvalTimeout w o w')
    (hstate : w'.state = w.state) : CoverInv (history ++ [o]) w' := by
  refine ⟨fun hg => h.keep_grant hs (hstate ▸ hg) hg, fun hp he ha hk => ?_, hstate ▸ h.requested⟩
  exact h.keep_approval hs (hstate ▸ hp) he .refl hp he ha hk

lemma CoverInv.step (h : CoverInv history w) (hs : Step approvalTimeout w o w') :
    CoverInv (history ++ [o]) w' := by
  have hs' := hs
  cases hs with
  | @mk e _ =>
    cases e with
    | call call => exact h.change hs' call.change
    | cancel token => exact h.outside hs' rfl
    | advance clock instant => exact h.outside hs' rfl

/-- **No stale authorization.** Whenever, in any run, an operation runs under a ticket, there is for
each secret of the ticket an earlier human decision on exactly this client and this secret: a request
of the client that lists the secret was approved, or unattended use of it consented to. The deadline
that came of it has not passed, and nothing since has revoked it. -/
theorem no_stale_authorization (grantLifetime : Duration) (env : Env) (w : World)
    (history : List Occurrence)
    (hrun : Run (Step approvalTimeout) (.initial env grantLifetime) history w)
    (ticket : GrantTicket) (hvalid : (w.state.grantIsValid w.env ticket).1 = true) :
    ∀ k ∈ ticket.secretIds, ∃ d, Covered history ticket.clientSessionId k d ∧
      d.remaining w.env.clock ≠ 0 := by
  have hinv : CoverInv history w := by
    refine hrun.history_invariant ?_ fun _ _ _ _ h hs => h.step hs
    exact ⟨fun h => (nomatch h), fun h => (nomatch h), fun p k h => (nomatch h)⟩
  obtain ⟨-, hgrants, -⟩ := grantIsValid_spec hvalid
  intro k hk
  obtain ⟨d, hget, hremaining, hhere⟩ := hgrants k hk
  rcases hinv.grants hget with hgone | hcov
  · exact (hhere hgone).elim
  · exact ⟨d, hcov, hremaining⟩

/-! ### A lock that was refused -/

section Night

def nightTicket : GrantTicket := ⟨nightVault, nightClient, [nightSecret]⟩

theorem no_stale_authorization_night :
    ((nightStart.play 0 nightEvents).state.grantIsValid (nightStart.play 0 nightEvents).env
      nightTicket).1 = true ∧
    ∀ k ∈ nightTicket.secretIds, ∃ d,
      Covered (nightStart.trace 0 nightEvents) nightTicket.clientSessionId k d ∧
        d.remaining (nightStart.play 0 nightEvents).env.clock ≠ 0 := by
  have hvalid : ((nightStart.play 0 nightEvents).state.grantIsValid
      (nightStart.play 0 nightEvents).env nightTicket).1 = true := by decide +kernel
  exact ⟨hvalid, no_stale_authorization _ _ _ _ (run_play (by decide +kernel)) _ hvalid⟩

/-- The night goes on with a lock by hand, which is refused since the application is locked. -/
def refusedEvents : List Event := nightEvents ++ [.call .beginAppLock]

lemma Occurrence.Decides.event_ne {decision : Decision} (h : o.Decides c k decision) :
    o.event ≠ .call .beginAppLock := by
  cases h with
  | approval => rintro ⟨⟩
  | consent h =>
    obtain ⟨_, _, he, -⟩ := h.event
    rw [he]
    rintro ⟨⟩

/-- An operation runs under a ticket although an attempt to lock the application came after every
decision on its secret. -/
theorem authorized_after_refused_lock :
    ∃ w history, Run (Step 0) nightStart history w ∧
      (w.state.grantIsValid w.env nightTicket).1 = true ∧ nightSecret ∈ nightTicket.secretIds ∧
      ∀ before o after decision, history = before ++ o :: after →
        o.Decides nightClient nightSecret decision → ∃ o' ∈ after, o'.event = .call .beginAppLock := by
  refine ⟨_, _, @run_play 0 nightStart refusedEvents (by decide +kernel), by decide +kernel,
    List.mem_cons_self, ?_⟩
  intro before o after decision hhist hdec
  have hlast : (nightStart.trace 0 refusedEvents).getLast?.map Occurrence.event =
    some (.call .beginAppLock) := rfl
  rw [hhist, List.getLast?_append, List.getLast?_cons] at hlast
  cases hafter : after.getLast? with
  | none =>
    rw [hafter] at hlast
    exact (hdec.event_ne (Option.some.inj hlast)).elim
  | some o' =>
    rw [hafter] at hlast
    exact ⟨o', List.mem_of_getLast? hafter, Option.some.inj hlast⟩

end Night

end Ladon.Approval

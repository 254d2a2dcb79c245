import Ladon.ApprovalHistory

/-!
What a revocation takes, and what becomes of a call that waits.

A revocation takes the grants it names and no others. A call that waits has the token it was made
with, and once that is cancelled it can only end in a cancellation; and with its answer nothing is
left pending under its identifier.
-/

namespace Ladon.Approval

open Ladon.Error Ladon.Model Ladon.Grants Ladon.Lib Ladon.Lib.Word ApprovalState

section Steps

variable {approvalTimeout : Duration} {env : Env} {s : ApprovalState}

/-! ### A call that waits -/

/-- A call that waits has the identifier and the token it was made with. -/
lemma authorize_waiting {request : PendingApproval} {token : Token} {w : Waiting}
    (h : (s.authorize approvalTimeout env request token).1 = .waiting w) :
    w.approvalId = request.id ∧ w.cancellation = token := by
  unfold authorize at h
  dsimp only at h
  split at h
  · split at h
    · cases h
    · split at h <;> cases h
  · split at h
    · cases h
    · split at h
      · cases h
      · cases h
        exact ⟨rfl, rfl⟩

/-- A call whose token has been cancelled gives up. -/
lemma poll_cancelled {w : Waiting} (h : w.cancellation ∈ env.cancelled) :
    (s.poll env w).1 = some (.error .approvalCancelled) := by
  rw [poll, if_pos h]

lemma takeUp_pending {ticket : GrantTicket} {request : PendingApproval} {e : ApprovalDecision} :
    (takeUp env ticket request s e).2.pending = s.pending := by
  cases e with
  | approveSession =>
    rw [takeUp]
    split <;> rfl
  | _ => rfl

/-- A call that has its answer leaves nothing pending under its identifier. -/
lemma poll_answered {w : Waiting} {result : Except LadonError GrantTicket}
    (h : (s.poll env w).1 = some result) {p : PendingState}
    (hp : (s.poll env w).2.pending = some p) : p.request.id ≠ w.approvalId := by
  have hclear : ∀ {s : ApprovalState}, (s.clearPending env w.approvalId).pending = some p →
      p.request.id ≠ w.approvalId := by
    intro s hp
    unfold clearPending at hp
    split at hp
    · cases hp
    · next hany =>
      rw [hp] at hany
      simpa using hany
  unfold poll at h hp
  dsimp only at h hp
  split at hp
  · exact hclear hp
  · next hlive =>
    rw [if_neg hlive] at h
    split at hp
    · rw [takeUp_pending] at hp
      cases hp
    · next hundecided =>
      split at hp
      · exact hclear hp
      · next hwait =>
        split at h
        · next hp' hd' => exact (hundecided _ _ hp' hd').elim
        · rw [if_neg hwait] at h
          cases h

/-! ### What a revocation takes -/

lemma get?_revokeAll_of_ok (h : s.revokeAll.1 = .ok ()) (c : Uuid) (k : SecretId) :
    s.revokeAll.2.grants.get? c k = none := by
  unfold revokeAll at h ⊢
  rcases @nextRevision_cases s with ⟨e, he⟩ | ⟨revision, -, he⟩
  · rw [he] at h
    cases h
  · rw [he]
    rfl

lemma get?_revokeClient_of_ok {client c : Uuid} {k : SecretId} {d : GrantDeadline}
    (h : (s.revokeClient env client).1 = .ok ()) :
    (s.revokeClient env client).2.grants.get? c k = some d ↔
      c ≠ client ∧ s.grants.get? c k = some d ∧ d.remaining env.clock ≠ 0 := by
  unfold revokeClient at h ⊢
  rcases @nextRevision_cases s with ⟨e, he⟩ | ⟨revision, -, he⟩
  · rw [he] at h
    cases h
  · rw [he]
    dsimp only
    refine GrantStore.get?_purgeExpired.trans ?_
    rw [show ∀ x : ApprovalState, ∀ p, (x.cancelPendingIf p).grants = x.grants from fun _ _ => rfl,
      GrantStore.get?_revokeClient]
    tauto

lemma get?_revokePair_of_ok {client c : Uuid} {secret k : SecretId} {d : GrantDeadline} {revoked : Bool}
    (h : (s.revokePair env client secret).1 = .ok revoked) :
    (s.revokePair env client secret).2.grants.get? c k = some d ↔
      ¬ (c = client ∧ k = secret) ∧ s.grants.get? c k = some d ∧ d.remaining env.clock ≠ 0 := by
  unfold revokePair at h ⊢
  rcases @nextRevision_cases s with ⟨e, he⟩ | ⟨revision, -, he⟩
  · rw [he] at h
    cases h
  · rw [he]
    dsimp only
    refine GrantStore.get?_purgeExpired.trans ?_
    dsimp only
    rw [GrantStore.get?_revokePair]
    exact ⟨fun ⟨⟨hg, hr, hne⟩, _⟩ => ⟨hne, hg, hr⟩, fun ⟨hne, hg, hr⟩ => ⟨⟨hg, hr, hne⟩, hr⟩⟩

end Steps

end Ladon.Approval

import Ladon.ApprovalHistory

/-!
What each operation of the approval coordinator leaves in place.

Most operations spare every grant that has not expired and every connection that has not gone. All
of them leave the two counters or move them on, and a session keeps the identifier of its connection
for as long as it lasts.
-/

namespace Ladon.Approval

open Ladon.Error Ladon.Model Ladon.Grants Ladon.Lib Ladon.Lib.Word ApprovalState

/-- A session that is there was there, on the same connection. -/
def SameSessions (s s' : ApprovalState) : Prop :=
  ∀ c x, s'.sessions.get? c = some x → ∃ y, s.sessions.get? c = some y ∧
    x.connectionId = y.connectionId ∧ s'.clientSessions.get? c = s.clientSessions.get? c

/-- An operation that spares what has neither expired nor gone. -/
structure Spares (env : Env) (s s' : ApprovalState) : Prop where
  grants : ∀ {c k d}, s.grants.get? c k = some d → d.remaining env.clock ≠ 0 → ¬ Gone env s c →
    s'.grants.get? c k = some d
  tokens : ∀ {c t}, s.clientSessions.get? c = some t → t ∉ env.cancelled →
    s'.clientSessions.get? c = some t
  old : ∀ {c t}, s'.clientSessions.get? c = some t → s.clientSessions.get? c = some t
  sessions : SameSessions s s'
  revision : s'.revision = s.revision
  epoch : s'.lockEpoch = s.lockEpoch

lemma SameSessions.refl (s : ApprovalState) : SameSessions s s := fun _ x h => ⟨x, h, rfl, rfl⟩

lemma SameSessions.trans {s s' s'' : ApprovalState} (h : SameSessions s s')
    (h' : SameSessions s' s'') : SameSessions s s'' := by
  intro c x hx
  obtain ⟨y, hy, hid, htoken⟩ := h' c x hx
  obtain ⟨z, hz, hid', htoken'⟩ := h c y hy
  exact ⟨z, hz, hid.trans hid', htoken.trans htoken'⟩

namespace Spares

variable {env : Env} {s s' s'' : ApprovalState}

lemma refl (s : ApprovalState) : Spares env s s :=
  ⟨fun h _ _ => h, fun h _ => h, fun h => h, .refl s, rfl, rfl⟩

lemma not_gone (h : Spares env s s') {c : Uuid} (hc : ¬ Gone env s c) : ¬ Gone env s' c := by
  rintro ⟨t, ht, hcancelled⟩
  exact hc ⟨t, h.old ht, hcancelled⟩

lemma trans (h : Spares env s s') (h' : Spares env s' s'') : Spares env s s'' :=
  ⟨fun hg hr hc => h'.grants (h.grants hg hr hc) hr (h.not_gone hc),
    fun ht hc => h'.tokens (h.tokens ht hc) hc, fun ht => h.old (h'.old ht),
    h.sessions.trans h'.sessions, h'.revision.trans h.revision, h'.epoch.trans h.epoch⟩

/-- The connections and the counters are as they were. -/
lemma of_grants (hg : ∀ {c k d}, s.grants.get? c k = some d → d.remaining env.clock ≠ 0 →
      s'.grants.get? c k = some d)
    (hc : s'.clientSessions = s.clientSessions) (hs : s'.sessions = s.sessions)
    (hr : s'.revision = s.revision) (he : s'.lockEpoch = s.lockEpoch) : Spares env s s' :=
  ⟨fun h hl _ => hg h hl, fun h _ => hc ▸ h, fun h => hc ▸ h,
    fun _ x h => ⟨x, hs ▸ h, rfl, by rw [hc]⟩, hr, he⟩

end Spares

section Operations

variable {approvalTimeout : Duration} {env : Env} {s : ApprovalState} {client : Uuid}

/-! ### Connections that have gone -/

lemma sessions_foldl_disconnect (l : List Uuid) {c : Uuid} {x : SessionDetails} :
    (l.foldl disconnect s).sessions.get? c = some x ↔ s.sessions.get? c = some x ∧ c ∉ l := by
  induction l generalizing s with
  | nil => simp
  | cons a l ih =>
    have hd : (s.disconnect a).sessions.get? c = if c = a then none else s.sessions.get? c :=
      Table.get?_erase _ _ _
    rw [List.foldl_cons, ih, hd, List.mem_cons, not_or]
    by_cases ha : c = a
    · simp [ha]
    · simp [ha]

lemma sameSessions_purge : SameSessions s (s.purgeDisconnectedClients env) := by
  intro c x hx
  rw [purgeDisconnectedClients, sessions_foldl_disconnect, mem_disconnected] at hx
  refine ⟨x, hx.1, rfl, ?_⟩
  cases ht : s.clientSessions.get? c with
  | none =>
    by_contra hne
    obtain ⟨t, ht'⟩ := Option.ne_none_iff_exists'.mp hne
    rw [(clientSessions_purge.mp ht').1] at ht
    cases ht
  | some t => exact clientSessions_purge.mpr ⟨ht, fun hc => hx.2 ⟨t, ht, hc⟩⟩

lemma spares_purge : Spares env s (s.purgeDisconnectedClients env) :=
  ⟨fun h _ hc => get?_purge.mpr ⟨h, hc⟩, fun h ht => clientSessions_purge.mpr ⟨h, ht⟩,
    fun h => (clientSessions_purge.mp h).1, sameSessions_purge, revision_purge, lockEpoch_purge⟩

/-! ### Parts of operations -/

lemma spares_purgeExpired : Spares env s { s with grants := s.grants.purgeExpired env.clock } :=
  .of_grants (fun h hr => GrantStore.get?_purgeExpired.mpr ⟨h, hr⟩) rfl rfl rfl rfl

lemma spares_prune : Spares env s (s.pruneClientLabels env) :=
  .of_grants (fun h hr => GrantStore.get?_purgeExpired.mpr ⟨h, hr⟩) rfl rfl rfl rfl

lemma spares_pending {pending : Option PendingState} : Spares env s { s with pending := pending } :=
  .of_grants (fun h _ => h) rfl rfl rfl rfl

lemma spares_cancelPendingIf {p : PendingState → Bool} : Spares env s (s.cancelPendingIf p) :=
  .of_grants (fun h _ => h) rfl rfl rfl rfl

lemma spares_clientHasUnattended : Spares env s (s.clientHasUnattended env client).2 := by
  unfold clientHasUnattended
  split
  · exact spares_purgeExpired
  · exact .refl s

lemma spares_coversUnattended {secrets : List SecretId} :
    Spares env s (s.coversUnattended env client secrets).2 := by
  unfold coversUnattended
  dsimp only
  split
  · exact spares_clientHasUnattended.trans spares_purgeExpired
  · exact spares_clientHasUnattended

lemma spares_clearPending {approvalId : Uuid} : Spares env s (s.clearPending env approvalId) := by
  unfold clearPending
  split
  · exact spares_pending.trans spares_prune
  · exact .refl s

/-- A session is updated on its connection. -/
lemma spares_updateSession {f : SessionDetails → SessionDetails}
    (hf : ∀ x, (f x).connectionId = x.connectionId) : Spares env s (s.updateSession client f) := by
  unfold updateSession
  split
  · exact .refl s
  · next session hs =>
    refine ⟨fun h _ _ => h, fun h _ => h, fun h => h, fun c x hx => ?_, rfl, rfl⟩
    rw [Table.get?_insert] at hx
    split at hx
    · next hc =>
      cases hx
      exact ⟨session, hc ▸ hs, hf session, rfl⟩
    · exact ⟨x, hx, rfl, rfl⟩

lemma spares_relabel {label : String} : Spares env s (s.relabel env client label) := by
  unfold relabel
  dsimp only
  split
  · exact spares_purgeExpired.trans (.of_grants (fun h _ => h) rfl rfl rfl rfl)
  · exact spares_purgeExpired

lemma spares_findMissing {request : PendingApproval} :
    Spares env s (s.findMissing env request).2 :=
  .of_grants (fun h hr => GrantStore.get?_purgeExpired.mpr ⟨h, hr⟩) rfl rfl rfl rfl

lemma spares_enterVaultSession {vault : Uuid} (h : s.vaultSessionId = some vault) :
    Spares env s (s.enterVaultSession vault) := by
  rw [enterVaultSession, if_neg (not_not.mpr h)]
  exact .refl s

/-! ### Operations that spare -/

/-- A call of `authorize` spares, but for entering the session of the vault it is for. -/
lemma spares_authorize {request : PendingApproval} {token : Token} :
    Spares env s (s.authorize approvalTimeout env request token).2 ∨
      (s.authorize approvalTimeout env request token).2.vaultSessionId =
          some request.vaultSessionId ∧
        Spares env ((s.purgeDisconnectedClients env).enterVaultSession request.vaultSessionId)
          (s.authorize approvalTimeout env request token).2 := by
  unfold authorize
  dsimp only
  split
  · split
    · exact .inl spares_purge
    · split
      · exact .inl (spares_purge.trans spares_coversUnattended)
      · exact .inl (spares_purge.trans spares_coversUnattended)
  · split
    · exact .inl spares_purge
    · split
      · exact .inr ⟨enterVaultSession_vault, spares_findMissing⟩
      · exact .inr ⟨enterVaultSession_vault, spares_findMissing.trans spares_pending⟩

lemma spares_setDecision {approvalId : Uuid} {e : ApprovalDecision} :
    Spares env s (s.setDecision env approvalId e).2 := by
  unfold setDecision
  dsimp only
  split
  · exact spares_purge
  · split
    · exact spares_purge
    · split
      · exact spares_purge
      · split
        · exact spares_purge.trans spares_pending
        · exact (spares_purge.trans spares_pending).trans spares_prune

lemma spares_cancelPending : Spares env s (s.cancelPending env).2 := by
  unfold cancelPending
  split
  · exact spares_cancelPendingIf.trans spares_prune
  · exact .refl s

lemma spares_observeClient {label : String} : Spares env s (s.observeClient env client label).2 := by
  refine Spares.trans (Spares.trans (spares_purge.trans ?_) spares_relabel) spares_prune
  exact spares_updateSession fun _ => rfl

lemma spares_observeRun {project action : String} :
    Spares env s (s.observeRun env client project action).2 := spares_updateSession fun _ => rfl

lemma spares_setSessionAnnotation {connectionId : Option Uuid} {name note : String} :
    Spares env s (s.setSessionAnnotationChecked env client connectionId name note).2 := by
  unfold setSessionAnnotationChecked
  dsimp only
  split
  · exact .refl s
  · split
    · exact spares_purge
    · split
      · exact spares_purge
      · split
        · exact spares_purge
        · exact spares_purge.trans (spares_updateSession fun _ => rfl)

lemma spares_activeGrants : Spares env s (s.activeGrants env).2 :=
  spares_purge.trans
    (.of_grants (fun h hr => GrantStore.get?_purgeExpired.mpr ⟨h, hr⟩) rfl rfl rfl rfl)

lemma spares_requireClientAccess : Spares env s (s.requireClientAccess env client).2 := by
  unfold requireClientAccess
  dsimp only
  split
  · exact spares_purge
  · exact spares_purge.trans spares_clientHasUnattended

lemma spares_grantIsValid {ticket : GrantTicket} : Spares env s (s.grantIsValid env ticket).2 := by
  have haccess : Spares env (s.purgeDisconnectedClients env)
      ((s.purgeDisconnectedClients env).accessIsValid env ticket).2 := by
    unfold accessIsValid
    split
    · exact .refl _
    · exact spares_coversUnattended
  unfold grantIsValid
  dsimp only
  split
  · exact spares_purge.trans haccess
  · exact (spares_purge.trans haccess).trans spares_purgeExpired

/-- So does the capture of a context. -/
lemma spares_captureUnattended {T : Type} {snapshot : Except LadonError (Uuid × T)} :
    Spares env s (s.captureUnattendedWith env client snapshot).2 ∨
      s.isAppActive ∧ ∃ vault x, snapshot = .ok (vault, x) ∧
        (s.captureUnattendedWith env client snapshot).2 =
          (s.purgeDisconnectedClients env).enterVaultSession vault := by
  unfold captureUnattendedWith
  dsimp only
  split
  · exact .inl spares_purge
  · next hopen =>
    rw [not_or, not_not, not_not, isAppActive_purge] at hopen
    split
    · exact .inl spares_purge
    · next vault x =>
      refine .inr ⟨hopen.1, vault, x, rfl, ?_⟩
      split <;> rfl

/-- A decision that is taken up without an approval spares. -/
lemma spares_takeUp {ticket : GrantTicket} {request : PendingApproval} {e : ApprovalDecision} :
    Spares env s (takeUp env ticket request s e).2 ∨
      e.approves ∧ ∃ d, decisionDeadline env.clock s.grants.lifetimeMillis e = some d ∧
        takeUp env ticket request s e = (.ok ticket, s.granting env request d) := by
  rcases @takeUp_cases env s ticket request e with ⟨-, herror⟩ | h
  · refine .inl ?_
    cases e with
    | granted => exact spares_purgeExpired
    | deny => exact spares_prune
    | cancel => exact spares_prune
    | approve lifetime =>
      obtain ⟨error, h⟩ := herror rfl
      cases h
    | approveUntil deadline =>
      obtain ⟨error, h⟩ := herror rfl
      cases h
    | approveSession =>
      obtain ⟨error, h⟩ := herror rfl
      rw [takeUp] at h ⊢
      split_ifs at h ⊢ with hgone
      exact .refl s
  · exact .inr h

/-- A turn of a waiting call spares, but for the grants of a request whose approval it takes up. -/
lemma spares_poll {w : Waiting} :
    Spares env s (s.poll env w).2 ∨
      ∃ p e d, (s.purgeDisconnectedClients env).pending = some p ∧ p.request.id = w.approvalId ∧
        p.decision = some e ∧ e.approves ∧
        decisionDeadline env.clock s.grants.lifetimeMillis e = some d ∧
        (s.poll env w).1 = some (.ok w.ticket) ∧
        (s.poll env w).2 =
          (s.purgeDisconnectedClients env).takePending.granting env p.request d := by
  unfold poll
  dsimp only
  split
  · exact .inl (spares_purge.trans spares_clearPending)
  · split
    · next p e hp hd =>
      have hid : p.request.id = w.approvalId ∧ p.decision = some e := by
        rw [decisionFor, hp] at hd
        simpa using hd
      have htake : Spares env s (s.purgeDisconnectedClients env).takePending :=
        spares_purge.trans spares_pending
      rcases @spares_takeUp env (s.purgeDisconnectedClients env).takePending w.ticket p.request e
        with h | ⟨ha, d, hdl, h⟩
      · exact .inl (htake.trans h)
      · have hl : (s.purgeDisconnectedClients env).takePending.grants.lifetimeMillis =
          s.grants.lifetimeMillis := lifetimeMillis_purge
        refine .inr ⟨p, e, d, hp, hid.1, hid.2, ha, hl ▸ hdl, ?_, ?_⟩
        · rw [h]
        · rw [h]
    · split
      · exact .inl (spares_purge.trans spares_clearPending)
      · exact .inl spares_purge

lemma granting_keeps {request : PendingApproval} {d' d : GrantDeadline} {c : Uuid} {k : SecretId}
    (h : s.grants.get? c k = some d) (hr : d.remaining env.clock ≠ 0)
    (hne : ¬ (c = request.clientSessionId ∧ k ∈ request.secretIds)) :
    (s.granting env request d').grants.get? c k = some d :=
  get?_granting.mpr (.inr ⟨hne, h, hr⟩)

/-! ### The counters -/

/-- The counters only move on, connections that have not gone stay, and sessions stay on theirs. -/
structure Steady (env : Env) (s s' : ApprovalState) : Prop where
  revision : s.revision ≤ s'.revision
  epoch : s.lockEpoch ≤ s'.lockEpoch
  tokens : ∀ {c t}, s.clientSessions.get? c = some t → t ∉ env.cancelled →
    s'.clientSessions.get? c = some t
  sessions : SameSessions s s'

lemma Spares.steady {s' : ApprovalState} (h : Spares env s s') : Steady env s s' :=
  ⟨h.revision.ge, h.epoch.ge, h.tokens, h.sessions⟩

lemma Steady.refl (s : ApprovalState) : Steady env s s :=
  ⟨Nat.le_refl _, Nat.le_refl _, fun h _ => h, .refl s⟩

lemma Steady.trans {s' s'' : ApprovalState} (h : Steady env s s') (h' : Steady env s' s'') :
    Steady env s s'' :=
  ⟨h.revision.trans h'.revision, h.epoch.trans h'.epoch,
    fun ht hc => h'.tokens (h.tokens ht hc) hc, h.sessions.trans h'.sessions⟩

/-- The connections are as they were. -/
lemma Steady.of_counters {s' : ApprovalState} (hr : s.revision ≤ s'.revision)
    (he : s.lockEpoch ≤ s'.lockEpoch) (hc : s'.clientSessions = s.clientSessions)
    (hs : s'.sessions = s.sessions) : Steady env s s' :=
  ⟨hr, he, fun h _ => hc ▸ h, fun _ x h => ⟨x, hs ▸ h, rfl, by rw [hc]⟩⟩

lemma steady_enterVaultSession {vault : Uuid} : Steady env s (s.enterVaultSession vault) := by
  unfold enterVaultSession
  split
  · exact .of_counters (Nat.le_refl _) (Nat.le_refl _) rfl rfl
  · exact .of_counters (Nat.le_refl _) (Nat.le_refl _) rfl rfl

/-- The call registers a client on a connection. -/
def Call.Registers (client connectionId : Uuid) : Call → Prop
  | .registerClientSession c _ id => c = client ∧ id = connectionId
  | _ => False

lemma steady_registerClientSession {token : Token} {connectionId : Uuid} :
    let s' := (s.registerClientSession env client token connectionId).2
    s.revision ≤ s'.revision ∧ s.lockEpoch ≤ s'.lockEpoch ∧
      (∀ c t, s.clientSessions.get? c = some t → t ∉ env.cancelled →
        s'.clientSessions.get? c = some t) ∧
      ∀ c x, s'.sessions.get? c = some x → (c = client ∧ connectionId = x.connectionId) ∨
        ∃ y, s.sessions.get? c = some y ∧ x.connectionId = y.connectionId ∧
          s'.clientSessions.get? c = s.clientSessions.get? c := by
  unfold registerClientSession
  dsimp only
  have hpurge := (@spares_purge env s).steady
  split
  · exact ⟨hpurge.revision, hpurge.epoch, fun _ _ h => hpurge.tokens h,
      fun c x h => .inr (hpurge.sessions c x h)⟩
  · next hnew =>
    simp only [not_or] at hnew
    refine ⟨hpurge.revision, hpurge.epoch, fun c t ht hlive => ?_, fun c x hx => ?_⟩
    · have hthere := hpurge.tokens ht hlive
      have hne : c ≠ client := fun hc => hnew.2.1 (Table.contains_eq_true.mpr ⟨t, hc ▸ hthere⟩)
      rw [Table.get?_insert, if_neg hne]
      exact hthere
    · rw [Table.get?_insert] at hx
      split at hx
      · next hc =>
        cases hx
        exact .inl ⟨hc, rfl⟩
      · next hc =>
        obtain ⟨y, hy, hid, htoken⟩ := hpurge.sessions c x hx
        refine .inr ⟨y, hy, hid, ?_⟩
        rw [Table.get?_insert, if_neg hc]
        exact htoken

lemma checkedAdd_le {n m : ℕ} (h : checkedAdd n 1 = some m) : n ≤ m := by
  obtain ⟨rfl, -⟩ := checkedAdd_eq_some.mp h
  omega

lemma steady_beginAppLockWithPolicy {preserve : Bool} :
    Steady env s (s.beginAppLockWithPolicy env preserve).2 := by
  unfold beginAppLockWithPolicy nextEpoch
  split
  · exact .refl s
  · cases hepoch : checkedAdd s.lockEpoch 1 with
    | none => exact .refl s
    | some epoch =>
      cases preserve with
      | true => exact .of_counters (Nat.le_refl _) (checkedAdd_le hepoch) rfl rfl
      | false => exact .of_counters (Nat.le_refl _) (checkedAdd_le hepoch) rfl rfl

lemma steady_resetAfterVaultLock : Steady env s s.resetAfterVaultLock.2 := by
  unfold resetAfterVaultLock nextEpoch
  cases hepoch : checkedAdd s.lockEpoch 1 with
  | none => exact .refl s
  | some epoch => exact .of_counters (Nat.le_refl _) (checkedAdd_le hepoch) rfl rfl

lemma steady_revokeAll : Steady env s s.revokeAll.2 := by
  unfold revokeAll nextRevision
  cases hrevision : checkedAdd s.revision 1 with
  | none => exact .refl s
  | some revision => exact .of_counters (checkedAdd_le hrevision) (Nat.le_refl _) rfl rfl

lemma steady_revokePair {secret : SecretId} : Steady env s (s.revokePair env client secret).2 := by
  unfold revokePair nextRevision
  cases hrevision : checkedAdd s.revision 1 with
  | none => exact .refl s
  | some revision => exact .of_counters (checkedAdd_le hrevision) (Nat.le_refl _) rfl rfl

lemma steady_revokeClient : Steady env s (s.revokeClient env client).2 := by
  unfold revokeClient nextRevision
  cases hrevision : checkedAdd s.revision 1 with
  | none => exact .refl s
  | some revision => exact .of_counters (checkedAdd_le hrevision) (Nat.le_refl _) rfl rfl

lemma steady_coordinateSecretMutation {P T : Type} {secret : SecretId}
    {prepare : Except LadonError P} {commit : P → Except LadonError T} :
    Steady env s (s.coordinateSecretMutation env secret prepare commit).2 := by
  unfold coordinateSecretMutation nextRevision
  cases prepare with
  | error e => exact .refl s
  | ok prepared =>
    cases hrevision : checkedAdd s.revision 1 with
    | none => exact .refl s
    | some revision => exact .of_counters (checkedAdd_le hrevision) (Nat.le_refl _) rfl rfl

lemma steady_grantUnattended {context : UnattendedContext} {secrets : List SecretId} {deadline : ℤ}
    {validate : Except LadonError Unit} :
    Steady env s (s.grantUnattended env context secrets deadline validate).2 := by
  have hpurge := (@spares_purge env s).steady
  unfold grantUnattended
  dsimp only
  split
  · exact hpurge
  · split
    · exact hpurge
    · split
      · exact hpurge
      · split
        · exact hpurge
        · exact hpurge.trans (.of_counters (Nat.le_refl _) (Nat.le_refl _) rfl rfl)

/-- What every call leaves behind: the counters are not moved back, a connection that has not gone
is there, and a session is on the connection it was on or was just registered. -/
structure Call.Leaves (call : Call) (env : Env) (s s' : ApprovalState) : Prop where
  revision : s.revision ≤ s'.revision
  epoch : s.lockEpoch ≤ s'.lockEpoch
  tokens : ∀ c t, s.clientSessions.get? c = some t → t ∉ call.cancelledAfter s env.cancelled →
    s'.clientSessions.get? c = some t
  sessions : ∀ c x, s'.sessions.get? c = some x → call.Registers c x.connectionId ∨
    ∃ y, s.sessions.get? c = some y ∧ x.connectionId = y.connectionId ∧
      s'.clientSessions.get? c = s.clientSessions.get? c

lemma mem_cancelledAfter {call : Call} {cancelled : List Token} {t : Token} (h : t ∈ cancelled) :
    t ∈ call.cancelledAfter s cancelled := by
  cases call with
  | closeClientSessions => exact List.mem_append_right _ h
  | _ => exact h

lemma Call.leaves (call : Call) : call.Leaves env s (call.after approvalTimeout env s) := by
  have of_steady : ∀ {s' : ApprovalState}, Steady env s s' → call.Leaves env s s' :=
    fun h => ⟨h.revision, h.epoch, fun c t ht hlive => h.tokens ht (mt mem_cancelledAfter hlive),
      fun c x hx => .inr (h.sessions c x hx)⟩
  have hpurge := (@spares_purge env s).steady
  cases call with
  | authorize request token =>
    rcases @spares_authorize approvalTimeout env s request token with h | ⟨-, h⟩
    · exact of_steady h.steady
    · exact of_steady ((hpurge.trans steady_enterVaultSession).trans h.steady)
  | poll w =>
    rcases @spares_poll env s w with h | ⟨p, e, d, -, -, -, -, -, -, heq⟩
    · exact of_steady h.steady
    · refine of_steady ?_
      rw [Call.after, heq]
      exact hpurge.trans (.of_counters (Nat.le_refl _) (Nat.le_refl _) rfl rfl)
  | decide approvalId d => exact of_steady spares_setDecision.steady
  | cancelPending => exact of_steady spares_cancelPending.steady
  | registerClientSession client token connectionId =>
    obtain ⟨hr, he, ht, hs⟩ := @steady_registerClientSession env s client token connectionId
    refine ⟨hr, he, ht, fun c x hx => ?_⟩
    rcases hs c x hx with ⟨rfl, rfl⟩ | h
    · exact .inl ⟨rfl, rfl⟩
    · exact .inr h
  | clientSessionConnected client => exact of_steady hpurge
  | closeClientSessions =>
    have hclose := (@spares_purge { env with cancelled := s.sessionTokens ++ env.cancelled }
      { s with sessionsClosed := true }).steady
    exact ⟨hclose.revision, hclose.epoch, fun c t => hclose.tokens,
      fun c x hx => .inr (hclose.sessions c x hx)⟩
  | pending => exact of_steady hpurge
  | observeClient client label => exact of_steady spares_observeClient.steady
  | observeRun client project action => exact of_steady (@spares_observeRun env _ _ _ _).steady
  | sessions => exact of_steady hpurge
  | setSessionAnnotation client connectionId name note =>
    exact of_steady spares_setSessionAnnotation.steady
  | activeGrants => exact of_steady spares_activeGrants.steady
  | beginAppLock => exact of_steady steady_beginAppLockWithPolicy
  | beginAutoAppLock => exact of_steady steady_beginAppLockWithPolicy
  | finishAppLock epoch =>
    refine of_steady ?_
    rw [Call.after, ApprovalState.finishAppLock]
    split
    · exact .refl s
    · exact .of_counters (Nat.le_refl _) (Nat.le_refl _) rfl rfl
  | unlockApp epoch =>
    refine of_steady ?_
    rw [Call.after, ApprovalState.unlockApp]
    split
    · exact .refl s
    · exact .of_counters (Nat.le_refl _) (Nat.le_refl _) rfl rfl
  | resetAfterVaultLock => exact of_steady steady_resetAfterVaultLock
  | revokeAll => exact of_steady steady_revokeAll
  | revokePair client secret => exact of_steady steady_revokePair
  | revokeClient client => exact of_steady steady_revokeClient
  | coordinateSecretMutation secret prepare commit =>
    exact of_steady steady_coordinateSecretMutation
  | withValidGrant ticket => exact of_steady spares_grantIsValid.steady
  | requireClientAccess client => exact of_steady spares_requireClientAccess.steady
  | hasUnattended client => exact of_steady (spares_purge.trans spares_clientHasUnattended).steady
  | unattendedCovers client ids =>
    exact of_steady (spares_purge.trans spares_coversUnattended).steady
  | captureUnattended client snapshot =>
    rcases @spares_captureUnattended env s client _ (snapshot.map fun vault => (vault, ())) with
      h | ⟨-, vault, x, -, h⟩
    · exact of_steady h.steady
    · refine of_steady ?_
      rw [Call.after, h]
      exact hpurge.trans steady_enterVaultSession
  | grantUnattended context secrets deadline validate => exact of_steady steady_grantUnattended

end Operations

end Ladon.Approval

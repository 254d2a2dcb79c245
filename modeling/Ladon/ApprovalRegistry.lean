import Ladon.ApprovalKept
import Ladon.ApprovalSession

/-!
The clients that are registered with the approval coordinator.

That a client has gone is a flag on its connection, which another thread sets; the next operation
that purges notices it. Registrations are kept in two tables, and grants that last as long as a
registration in a third: they agree in every state, because a purge clears all of them at once and
everything else leaves the tables as they are. A client that comes back finds nothing from before.
-/

namespace Ladon.Approval

open Ladon.Error Ladon.Model Ladon.Grants Ladon.Lib ApprovalState

/-- A grant that is for as long as its client stays registered. -/
def endsWithClient : GrantDeadline → Bool
  | .session | .unattended _ _ => true
  | .elapsed _ | .wallClock _ => false

/-- What the tables of a coordinator have in common. -/
structure Registry (s : ApprovalState) : Prop where
  keys : ∀ c, s.sessions.contains c = s.clientSessions.contains c
  size_le : s.clientSessions.size ≤ maxTrackedSessions
  bound : ∀ {c k d}, s.grants.get? c k = some d → endsWithClient d → s.clientSessions.contains c

/-- A purge takes everything away from the clients that have gone, and nothing from the others. -/
structure Purged (env : Env) (s s' : ApprovalState) : Prop where
  gone : ∀ c, Gone env s c → s'.clientSessions.get? c = none ∧ s'.sessions.get? c = none ∧
    s'.clientLabels.get? c = none ∧ (∀ k, s'.grants.get? c k = none) ∧
    ∀ p, s.pending = some p → p.request.clientSessionId = c →
      s'.pending = some { p with decision := some .cancel }
  kept : ∀ c, ¬ Gone env s c → s'.clientSessions.get? c = s.clientSessions.get? c ∧
    s'.sessions.get? c = s.sessions.get? c ∧ s'.clientLabels.get? c = s.clientLabels.get? c ∧
    (∀ k, s'.grants.get? c k = s.grants.get? c k) ∧
    ∀ p, s.pending = some p → p.request.clientSessionId = c → s'.pending = some p
  idle : s.pending = none → s'.pending = none
  rest : s'.vaultSessionId = s.vaultSessionId ∧ s'.appAccess = s.appAccess ∧
    s'.lockEpoch = s.lockEpoch ∧ s'.revision = s.revision ∧ s'.sessionsClosed = s.sessionsClosed

/-- The same registrations. -/
structure Roster (s s' : ApprovalState) : Prop where
  clients : s'.clientSessions = s.clientSessions
  sessions : ∀ c, s'.sessions.contains c = s.sessions.contains c

lemma Roster.refl (s : ApprovalState) : Roster s s := ⟨rfl, fun _ => rfl⟩

lemma Roster.trans {s s' s'' : ApprovalState} (h : Roster s s') (h' : Roster s' s'') :
    Roster s s'' :=
  ⟨h'.clients.trans h.clients, fun c => (h'.sessions c).trans (h.sessions c)⟩

lemma Roster.of_eq {s s' : ApprovalState} (hc : s'.clientSessions = s.clientSessions)
    (hs : s'.sessions = s.sessions) : Roster s s' := ⟨hc, fun c => by rw [hs]⟩

section Operations

variable {approvalTimeout : Duration} {env : Env} {s : ApprovalState} {client : Uuid}

/-! ### A purge -/

lemma clientLabels_foldl_disconnect (l : List Uuid) (c : Uuid) :
    (l.foldl disconnect s).clientLabels.get? c =
      if c ∈ l then none else s.clientLabels.get? c := by
  induction l generalizing s with
  | nil => simp
  | cons a l ih =>
    have hd : (s.disconnect a).clientLabels.get? c =
        if c = a then none else s.clientLabels.get? c := Table.get?_erase _ _ _
    rw [List.foldl_cons, ih, hd]
    by_cases ha : c = a
    · simp [ha]
    · simp [ha]

lemma sessionsClosed_foldl_disconnect (l : List Uuid) :
    (l.foldl disconnect s).sessionsClosed = s.sessionsClosed := by
  induction l generalizing s with
  | nil => rfl
  | cons a l ih =>
    rw [List.foldl_cons, ih]
    rfl

lemma sessions_purge {c : Uuid} {x : SessionDetails} :
    (s.purgeDisconnectedClients env).sessions.get? c = some x ↔
      s.sessions.get? c = some x ∧ ¬ Gone env s c := by
  rw [purgeDisconnectedClients, sessions_foldl_disconnect, mem_disconnected]

lemma purged_purge : Purged env s (s.purgeDisconnectedClients env) where
  gone := by
    classical
    intro c hgone
    refine ⟨?_, ?_, ?_, (absent_purge hgone).1, fun p hp hc => ?_⟩
    · refine Option.eq_none_iff_forall_ne_some.mpr fun t ht => ?_
      obtain ⟨ht, hlive⟩ := clientSessions_purge.mp ht
      obtain ⟨t', ht', hcancelled⟩ := hgone
      rw [ht] at ht'
      cases ht'
      exact hlive hcancelled
    · exact Option.eq_none_iff_forall_ne_some.mpr fun x hx => (sessions_purge.mp hx).2 hgone
    · rw [purgeDisconnectedClients, clientLabels_foldl_disconnect,
        if_pos (mem_disconnected.mpr hgone)]
    · rw [pending_purge, hp, Option.map_some, hc, if_pos hgone]
  kept := by
    classical
    intro c hkept
    refine ⟨Option.ext fun t => ?_, Option.ext fun x => ?_, ?_, fun k => Option.ext fun d => ?_,
      fun p hp hc => ?_⟩
    · rw [clientSessions_purge]
      exact and_iff_left_of_imp fun ht hc => hkept ⟨t, ht, hc⟩
    · rw [sessions_purge, and_iff_left hkept]
    · rw [purgeDisconnectedClients, clientLabels_foldl_disconnect,
        if_neg (mt mem_disconnected.mp hkept)]
    · rw [get?_purge, and_iff_left hkept]
    · rw [pending_purge, hp, Option.map_some, hc, if_neg hkept]
  idle := by
    classical
    intro h
    rw [pending_purge, h]
    rfl
  rest := ⟨vaultSessionId_purge, appAccess_purge, lockEpoch_purge, revision_purge,
    sessionsClosed_foldl_disconnect _⟩

lemma not_gone_purge {c : Uuid} : ¬ Gone env (s.purgeDisconnectedClients env) c := by
  rintro ⟨t, ht, hc⟩
  exact (clientSessions_purge.mp ht).2 hc

/-- A second purge finds nothing to do. -/
@[simp] lemma purge_purge :
    (s.purgeDisconnectedClients env).purgeDisconnectedClients env =
      s.purgeDisconnectedClients env := by
  have hnone : disconnected env (s.purgeDisconnectedClients env) = [] :=
    List.eq_nil_iff_forall_not_mem.mpr fun c hc => not_gone_purge (mem_disconnected.mp hc)
  rw [purgeDisconnectedClients, hnone]
  rfl

lemma size_foldl_disconnect (l : List Uuid) :
    (l.foldl disconnect s).clientSessions.size ≤ s.clientSessions.size := by
  induction l generalizing s with
  | nil => exact Nat.le_refl _
  | cons a l ih =>
    have hd : (s.disconnect a).clientSessions.size ≤ s.clientSessions.size :=
      List.length_filter_le _ _
    exact (ih (s := s.disconnect a)).trans hd

lemma Registry.purge (h : Registry s) (env : Env) : Registry (s.purgeDisconnectedClients env) where
  keys := by
    intro c
    by_cases hgone : Gone env s c
    · obtain ⟨hc, hs, -⟩ := purged_purge.gone c hgone
      rw [Table.contains, Table.contains, hc, hs]
      rfl
    · obtain ⟨hc, hs, -⟩ := purged_purge.kept c hgone
      rw [Table.contains, Table.contains, hc, hs]
      exact h.keys c
  size_le := (size_foldl_disconnect _).trans h.size_le
  bound := by
    intro c k d hd hends
    obtain ⟨hd, hkept⟩ := get?_purge.mp hd
    rw [Table.contains, (purged_purge.kept c hkept).1]
    exact h.bound hd hends

/-! ### What leaves the registrations as they are -/

lemma roster_clientHasUnattended : Roster s (s.clientHasUnattended env client).2 := by
  unfold clientHasUnattended
  split
  · exact .of_eq rfl rfl
  · exact .refl s

lemma roster_coversUnattended {secrets : List SecretId} :
    Roster s (s.coversUnattended env client secrets).2 := by
  unfold coversUnattended
  dsimp only
  split
  · exact roster_clientHasUnattended.trans (.of_eq rfl rfl)
  · exact roster_clientHasUnattended

lemma roster_clearPending {approvalId : Uuid} : Roster s (s.clearPending env approvalId) := by
  unfold clearPending
  split
  · exact .of_eq rfl rfl
  · exact .refl s

/-- Details are changed where there are any. -/
lemma roster_updateSession {f : SessionDetails → SessionDetails} :
    Roster s (s.updateSession client f) := by
  unfold updateSession
  split
  · exact .refl s
  · next x hx =>
    refine ⟨rfl, fun c => ?_⟩
    rw [Table.contains, Table.contains, Table.get?_insert]
    split
    · next h => rw [h, hx]; rfl
    · rfl

lemma roster_relabel {label : String} : Roster s (s.relabel env client label) := by
  unfold relabel
  dsimp only
  split
  · exact .of_eq rfl rfl
  · exact .of_eq rfl rfl

lemma roster_enterVaultSession {vault : Uuid} : Roster s (s.enterVaultSession vault) := by
  unfold enterVaultSession
  split
  · exact .of_eq rfl rfl
  · exact .refl s

lemma roster_takeUp {ticket : GrantTicket} {request : PendingApproval} {e : ApprovalDecision} :
    Roster s (takeUp env ticket request s e).2 := by
  cases e with
  | granted => exact .of_eq rfl rfl
  | approve lifetime => exact .of_eq rfl rfl
  | approveUntil deadline => exact .of_eq rfl rfl
  | approveSession =>
    rw [takeUp]
    split
    · exact .refl s
    · exact .of_eq rfl rfl
  | deny => exact .of_eq rfl rfl
  | cancel => exact .of_eq rfl rfl

lemma roster_authorize {request : PendingApproval} {token : Token} :
    Roster (s.purgeDisconnectedClients env) (s.authorize approvalTimeout env request token).2 := by
  unfold authorize
  dsimp only
  split
  · split
    · exact .refl _
    · split
      · exact roster_coversUnattended
      · exact roster_coversUnattended
  · split
    · exact .refl _
    · split
      · exact roster_enterVaultSession.trans (.of_eq rfl rfl)
      · exact roster_enterVaultSession.trans (.of_eq rfl rfl)

lemma roster_poll {w : Waiting} : Roster (s.purgeDisconnectedClients env) (s.poll env w).2 := by
  unfold poll
  dsimp only
  split
  · exact roster_clearPending
  · split
    · have htaken : Roster (s.purgeDisconnectedClients env)
          (s.purgeDisconnectedClients env).takePending := .of_eq rfl rfl
      exact htaken.trans roster_takeUp
    · split
      · exact roster_clearPending
      · exact .refl _

lemma roster_setDecision {approvalId : Uuid} {e : ApprovalDecision} :
    Roster (s.purgeDisconnectedClients env) (s.setDecision env approvalId e).2 := by
  unfold setDecision
  dsimp only
  split
  · exact .refl _
  · split
    · exact .refl _
    · split
      · exact .refl _
      · cases e.approves with
        | true => exact .of_eq rfl rfl
        | false => exact .of_eq rfl rfl

/-- An annotation that is malformed is refused before anything is looked at. -/
lemma roster_annotate {connectionId : Option Uuid} {name note : String} :
    (s.setSessionAnnotationChecked env client connectionId name note).2 = s ∨
      Roster (s.purgeDisconnectedClients env)
          (s.setSessionAnnotationChecked env client connectionId name note).2 ∧
        ((s.purgeDisconnectedClients env).setSessionAnnotationChecked env client connectionId name
          note).2 = (s.setSessionAnnotationChecked env client connectionId name note).2 := by
  unfold setSessionAnnotationChecked
  by_cases h : 64 < name.length ∨ 512 < note.length ∨ name.toList.any isControl ∨
      note.toList.any (fun c => isControl c && c ≠ '\n')
  · rw [if_pos h]
    exact .inl rfl
  · rw [if_neg h, if_neg h, purge_purge]
    refine .inr ⟨?_, rfl⟩
    dsimp only
    split
    · exact .refl _
    · split
      · exact .refl _
      · split
        · exact .refl _
        · exact roster_updateSession

lemma roster_grantIsValid {ticket : GrantTicket} :
    Roster (s.purgeDisconnectedClients env) (s.grantIsValid env ticket).2 := by
  have haccess : Roster (s.purgeDisconnectedClients env)
      ((s.purgeDisconnectedClients env).accessIsValid env ticket).2 := by
    unfold accessIsValid
    split
    · exact .refl _
    · exact roster_coversUnattended
  unfold grantIsValid
  dsimp only
  split
  · exact haccess
  · exact haccess.trans (.of_eq rfl rfl)

lemma roster_requireClientAccess :
    Roster (s.purgeDisconnectedClients env) (s.requireClientAccess env client).2 := by
  unfold requireClientAccess
  dsimp only
  split
  · exact .refl _
  · exact roster_clientHasUnattended

lemma roster_captureUnattended {T : Type} {snapshot : Except LadonError (Uuid × T)} :
    Roster (s.purgeDisconnectedClients env) (s.captureUnattendedWith env client snapshot).2 := by
  unfold captureUnattendedWith
  dsimp only
  split
  · exact .refl _
  · split
    · exact .refl _
    · split
      · exact roster_enterVaultSession
      · exact roster_enterVaultSession

lemma roster_grantUnattended {context : UnattendedContext} {secrets : List SecretId} {deadline : ℤ}
    {validate : Except LadonError Unit} :
    Roster (s.purgeDisconnectedClients env)
      (s.grantUnattended env context secrets deadline validate).2 := by
  unfold grantUnattended
  dsimp only
  split
  · exact .refl _
  · split
    · exact .refl _
    · split
      · exact .refl _
      · split
        · exact .refl _
        · exact .of_eq rfl rfl

lemma roster_cancelPending : Roster s (s.cancelPending env).2 := by
  unfold cancelPending
  split
  · exact .of_eq rfl rfl
  · exact .refl s

lemma roster_beginAppLockWithPolicy {preserve : Bool} :
    Roster s (s.beginAppLockWithPolicy env preserve).2 := by
  unfold beginAppLockWithPolicy
  split
  · exact .refl s
  · split
    · exact .refl s
    · cases preserve with
      | true => exact .of_eq rfl rfl
      | false => exact .of_eq rfl rfl

lemma roster_resetAfterVaultLock : Roster s s.resetAfterVaultLock.2 := by
  unfold resetAfterVaultLock
  split
  · exact .refl s
  · exact .of_eq rfl rfl

lemma roster_revokeAll : Roster s s.revokeAll.2 := by
  unfold revokeAll
  rcases @nextRevision_cases s with ⟨e, h⟩ | ⟨revision, -, h⟩
  · rw [h]
    exact .refl s
  · rw [h]
    exact .of_eq rfl rfl

lemma roster_revokePair {secret : SecretId} : Roster s (s.revokePair env client secret).2 := by
  unfold revokePair
  rcases @nextRevision_cases s with ⟨e, h⟩ | ⟨revision, -, h⟩
  · rw [h]
    exact .refl s
  · rw [h]
    exact .of_eq rfl rfl

lemma roster_revokeClient : Roster s (s.revokeClient env client).2 := by
  unfold revokeClient
  rcases @nextRevision_cases s with ⟨e, h⟩ | ⟨revision, -, h⟩
  · rw [h]
    exact .refl s
  · rw [h]
    exact .of_eq rfl rfl

lemma roster_coordinateSecretMutation {P T : Type} {secret : SecretId}
    {prepare : Except LadonError P} {commit : P → Except LadonError T} :
    Roster s (s.coordinateSecretMutation env secret prepare commit).2 := by
  unfold coordinateSecretMutation
  cases prepare with
  | error e => exact .refl s
  | ok prepared =>
    rcases @nextRevision_cases s with ⟨e, h⟩ | ⟨revision, -, h⟩
    · rw [h]
      exact .refl s
    · rw [h]
      exact .of_eq rfl rfl

/-- The registration of a client that is accepted. -/
structure Registers (env : Env) (s : ApprovalState) (c : Uuid) (token : Token) (s' : ApprovalState) :
    Prop where
  new : (s.purgeDisconnectedClients env).clientSessions.contains c = false
  room : (s.purgeDisconnectedClients env).clientSessions.size < maxTrackedSessions
  grants : s'.grants = (s.purgeDisconnectedClients env).grants.revokeClient c
  pending : s'.pending = (s.purgeDisconnectedClients env).pending
  clients : s'.clientSessions = (s.purgeDisconnectedClients env).clientSessions.insert c token
  sessions : ∃ x, s'.sessions = (s.purgeDisconnectedClients env).sessions.insert c x

lemma registerClientSession_registers {token : Token} {connectionId : Uuid} :
    s.registerClientSession env client token connectionId =
        (.error .busy, s.purgeDisconnectedClients env) ∨
      (s.registerClientSession env client token connectionId).1 = .ok () ∧
        Registers env s client token (s.registerClientSession env client token connectionId).2 := by
  by_cases h : (s.purgeDisconnectedClients env).sessionsClosed ∨
      (s.purgeDisconnectedClients env).clientSessions.contains client ∨
      maxTrackedSessions ≤ (s.purgeDisconnectedClients env).clientSessions.size
  · exact .inl (by rw [registerClientSession, if_pos h])
  · refine .inr ?_
    have heq := h
    rw [not_or, not_or, Bool.not_eq_true, Bool.not_eq_true, Nat.not_le] at h
    refine ⟨?_, h.2.1, h.2.2, ?_, ?_, ?_, ?_⟩
    all_goals rw [registerClientSession, if_neg heq]
    exact ⟨_, rfl⟩

/-- The state that a call works on: as it was, or purged. -/
inductive Based (approvalTimeout : Duration) (env : Env) (s : ApprovalState) (call : Call)
    (s' : ApprovalState) : Prop
  | kept (roster : Roster s s') : Based approvalTimeout env s call s'
  | purged (roster : Roster (s.purgeDisconnectedClients env) s')
      (same : call.after approvalTimeout env (s.purgeDisconnectedClients env) = s') :
      Based approvalTimeout env s call s'
  | registered {c : Uuid} {token : Token} (registers : Registers env s c token s') :
      Based approvalTimeout env s call s'
  | closed (tokens : List Token)
      (same : s' = { s with sessionsClosed := true }.purgeDisconnectedClients
        { env with cancelled := tokens }) : Based approvalTimeout env s call s'

/-- A call that neither registers a client nor closes the sessions works on the registrations as they
were, or purged. -/
lemma Call.roster (call : Call)
    (hr : ∀ client token connectionId, call ≠ .registerClientSession client token connectionId)
    (hc : call ≠ .closeClientSessions) :
    Roster s (call.after approvalTimeout env s) ∨
      Roster (s.purgeDisconnectedClients env) (call.after approvalTimeout env s) ∧
        call.after approvalTimeout env (s.purgeDisconnectedClients env) =
          call.after approvalTimeout env s := by
  cases call with
  | authorize request token =>
    exact .inr ⟨roster_authorize, by simp only [Call.after, ApprovalState.authorize, purge_purge]⟩
  | poll w => exact .inr ⟨roster_poll, by simp only [Call.after, ApprovalState.poll, purge_purge]⟩
  | decide approvalId d =>
    exact .inr ⟨roster_setDecision, by simp only [Call.after, ApprovalState.setDecision, purge_purge]⟩
  | cancelPending => exact .inl roster_cancelPending
  | registerClientSession client token connectionId => exact (hr client token connectionId rfl).elim
  | clientSessionConnected client => exact .inr ⟨.refl _, purge_purge⟩
  | closeClientSessions => exact (hc rfl).elim
  | pending => exact .inr ⟨.refl _, purge_purge⟩
  | observeClient client label =>
    refine .inr ⟨?_, by simp only [Call.after, ApprovalState.observeClient, purge_purge]⟩
    exact (roster_updateSession.trans roster_relabel).trans (.of_eq rfl rfl)
  | observeRun client project action => exact .inl roster_updateSession
  | sessions => exact .inr ⟨.refl _, purge_purge⟩
  | setSessionAnnotation client connectionId name note =>
    rcases @roster_annotate env s client connectionId name note with h | ⟨h, hsame⟩
    · refine .inl ?_
      rw [Call.after, h]
      exact .refl s
    · exact .inr ⟨h, hsame⟩
  | activeGrants =>
    exact .inr ⟨.of_eq rfl rfl, by simp only [Call.after, ApprovalState.activeGrants, purge_purge]⟩
  | beginAppLock => exact .inl roster_beginAppLockWithPolicy
  | beginAutoAppLock => exact .inl roster_beginAppLockWithPolicy
  | finishAppLock epoch =>
    rw [Call.after, ApprovalState.finishAppLock]
    split
    · exact .inl (.refl s)
    · exact .inl (.of_eq rfl rfl)
  | unlockApp epoch =>
    rw [Call.after, ApprovalState.unlockApp]
    split
    · exact .inl (.refl s)
    · exact .inl (.of_eq rfl rfl)
  | resetAfterVaultLock => exact .inl roster_resetAfterVaultLock
  | revokeAll => exact .inl roster_revokeAll
  | revokePair client secret => exact .inl roster_revokePair
  | revokeClient client => exact .inl roster_revokeClient
  | coordinateSecretMutation secret prepare commit => exact .inl roster_coordinateSecretMutation
  | withValidGrant ticket =>
    exact .inr ⟨roster_grantIsValid, by simp only [Call.after, ApprovalState.grantIsValid, purge_purge]⟩
  | requireClientAccess client =>
    exact .inr ⟨roster_requireClientAccess,
      by simp only [Call.after, ApprovalState.requireClientAccess, purge_purge]⟩
  | hasUnattended client =>
    exact .inr ⟨roster_clientHasUnattended,
      by simp only [Call.after, ApprovalState.hasUnattended, purge_purge]⟩
  | unattendedCovers client ids =>
    exact .inr ⟨roster_coversUnattended,
      by simp only [Call.after, ApprovalState.unattendedCovers, purge_purge]⟩
  | captureUnattended client snapshot =>
    exact .inr ⟨roster_captureUnattended,
      by simp only [Call.after, ApprovalState.captureUnattendedWith, purge_purge]⟩
  | grantUnattended context secrets deadline validate =>
    exact .inr ⟨roster_grantUnattended,
      by simp only [Call.after, ApprovalState.grantUnattended, purge_purge]⟩

/-- **What one operation does to the registrations.** -/
lemma Call.based (call : Call) :
    Based approvalTimeout env s call (call.after approvalTimeout env s) := by
  by_cases hr : ∃ client token connectionId, call = .registerClientSession client token connectionId
  · obtain ⟨client, token, connectionId, rfl⟩ := hr
    rcases @registerClientSession_registers env s client token connectionId with h | ⟨-, h⟩
    · refine .purged ?_ (by simp only [Call.after, ApprovalState.registerClientSession, purge_purge])
      rw [Call.after, h]
      exact .refl _
    · exact .registered h
  by_cases hc : call = .closeClientSessions
  · subst hc
    exact .closed _ rfl
  · have hother := fun client token connectionId h => hr ⟨client, token, connectionId, h⟩
    rcases call.roster hother hc with h | ⟨h, hsame⟩
    · exact .kept h
    · exact .purged h hsame

/-! ### Grants that end with their client -/

lemma takeUp_session {ticket t : GrantTicket} {request : PendingApproval}
    (h : (takeUp env ticket request s .approveSession).1 = .ok t) :
    s.clientSessions.contains request.clientSessionId := by
  rw [takeUp] at h
  split at h
  · cases h
  · next hlive =>
    cases hget : s.clientSessions.get? request.clientSessionId with
    | none =>
      rw [hget] at hlive
      exact absurd rfl hlive
    | some token => exact Table.contains_eq_true.mpr ⟨token, hget⟩

/-- A request that is let through for the session is of a client that is registered. -/
lemma poll_session {w : Waiting} {p : PendingState}
    (hp : (s.purgeDisconnectedClients env).pending = some p)
    (hd : p.decision = some .approveSession) {t : GrantTicket}
    (hok : (s.poll env w).1 = some (.ok t)) :
    (s.purgeDisconnectedClients env).clientSessions.contains p.request.clientSessionId := by
  rcases @poll_decided env s w with ⟨-, hne⟩ | ⟨q, e, hq, -, he, h1, -⟩
  · exact absurd hok (hne t)
  · rw [hp] at hq
    cases hq
    rw [hd] at he
    cases he
    rw [h1, Option.some.injEq] at hok
    have hin := takeUp_session hok
    exact hin

lemma contains_of_purge {c : Uuid}
    (h : (s.purgeDisconnectedClients env).clientSessions.contains c) :
    s.clientSessions.contains c := by
  obtain ⟨t, ht⟩ := Table.contains_eq_true.mp h
  exact Table.contains_eq_true.mpr ⟨t, (clientSessions_purge.mp ht).1⟩

/-- A grant that ends with its client was there before, or its client is registered. -/
lemma Change.bound {call : Call} {s' : ApprovalState} (h : Change env s call s') {c : Uuid}
    {k : SecretId} {d : GrantDeadline} (hd : s'.grants.get? c k = some d)
    (hends : endsWithClient d) : s.grants.get? c k = some d ∨ s.clientSessions.contains c := by
  cases h with
  | quiet hq => exact .inl (hq.grants hd)
  | entered _ _ hq => exact .inl (get?_purge.mp (enterVaultSession_old (hq.grants hd))).1
  | requested _ _ hq => exact .inl (get?_purge.mp (enterVaultSession_old (hq.grants hd))).1
  | @granted w p e d' hp _ hdec _ hdl hok =>
    rcases GrantStore.get?_insertAll.mp hd with ⟨rfl, -, rfl⟩ | ⟨-, hold⟩
    · cases e with
      | approveSession => exact .inr (contains_of_purge (poll_session hp hdec hok))
      | approve lifetime =>
        cases hdl
        cases hends
      | approveUntil deadline =>
        cases hdl
        cases hends
      | granted => cases hdl
      | deny => cases hdl
      | cancel => cases hdl
    · exact .inl (get?_purge.mp (GrantStore.get?_purgeExpired.mp hold).1).1
  | decided => exact .inl (get?_purge.mp hd).1
  | connected _ hg =>
    rw [hg] at hd
    exact .inl (get?_purge.mp (GrantStore.get?_revokeClient.mp hd).1).1
  | captured => exact .inl (get?_purge.mp (enterVaultSession_old hd)).1
  | consented _ _ _ hc hg =>
    rw [hg] at hd
    rcases GrantStore.get?_insertAll.mp hd with ⟨rfl, -, -⟩ | ⟨-, hold⟩
    · exact .inr (contains_of_purge hc)
    · exact .inl (get?_purge.mp (GrantStore.get?_purgeExpired.mp hold).1).1
  | locked _ _ hq => exact .inl (hq.grants hd)
  | finished => exact .inl hd
  | unlocked => exact .inl hd
  | reset _ _ hg =>
    rw [hg] at hd
    cases hd

lemma Registry.of_roster {call : Call} {s' : ApprovalState} (h : Registry s) (hr : Roster s s')
    (hc : Change env s call s') : Registry s' where
  keys := fun c => by rw [hr.sessions, hr.clients, h.keys]
  size_le := hr.clients ▸ h.size_le
  bound := by
    intro c k d hd hends
    rw [hr.clients]
    rcases hc.bound hd hends with hold | hin
    · exact h.bound hold hends
    · exact hin

lemma Registry.registers {c : Uuid} {token : Token} {s' : ApprovalState} (h : Registry s)
    (hr : Registers env s c token s') : Registry s' where
  keys := by
    intro a
    obtain ⟨x, hx⟩ := hr.sessions
    have hkeys := (h.purge env).keys a
    rw [hx, hr.clients, Table.contains, Table.contains, Table.get?_insert, Table.get?_insert]
    split
    · rfl
    · exact hkeys
  size_le := by
    have herase : ((s.purgeDisconnectedClients env).clientSessions.erase c).entries.length ≤
        (s.purgeDisconnectedClients env).clientSessions.size := List.length_filter_le _ _
    have hroom := hr.room
    rw [hr.clients, Table.size, Table.insert, List.length_cons]
    omega
  bound := by
    intro a k d hd hends
    rw [hr.grants] at hd
    obtain ⟨t, ht⟩ := Table.contains_eq_true.mp
      ((h.purge env).bound (GrantStore.get?_revokeClient.mp hd).1 hends)
    rw [hr.clients, Table.contains_eq_true]
    refine ⟨t, ?_⟩
    rw [Table.get?_insert, if_neg (GrantStore.get?_revokeClient.mp hd).2]
    exact ht

/-- Every operation keeps the tables together. -/
lemma Registry.call (h : Registry s) (call : Call) :
    Registry (call.after approvalTimeout env s) := by
  cases call.based with
  | kept hr =>
    have hchange : Change env s call (call.after approvalTimeout env s) := call.change
    exact h.of_roster hr hchange
  | purged hr hsame =>
    rw [← hsame] at hr ⊢
    exact (h.purge env).of_roster hr call.change
  | registered hr => exact h.registers hr
  | closed tokens hsame =>
    have hclosed : Registry { s with sessionsClosed := true } := ⟨h.keys, h.size_le, h.bound⟩
    rw [hsame]
    exact hclosed.purge _

/-! ### Approvals of a client that comes back -/

/-- The pending approval is one that was pending, and is cancelled where that was. -/
def From (s : ApprovalState) (p' : PendingState) : Prop :=
  ∃ p, s.pending = some p ∧ p.request.id = p'.request.id ∧
    p.request.clientSessionId = p'.request.clientSessionId ∧
    (p.decision = some .cancel → p'.decision = some .cancel)

lemma From.of_remains {p' : PendingState} (h : Remains s p') : From s p' := by
  obtain ⟨p, hp, hsame, hcancel⟩ := h
  exact ⟨p, hp, hsame.id.symm, hsame.client.symm, hcancel⟩

/-- What is pending behind a call was pending before it, or is what the call asks for. -/
lemma Call.pending_from (call : Call) {p' : PendingState}
    (h : (call.after approvalTimeout env s).pending = some p') :
    From s p' ∨ ∃ request token, call = .authorize request token ∧ p'.request.id = request.id ∧
      p'.request.clientSessionId = request.clientSessionId ∧
      ∃ x, (s.authorize approvalTimeout env request token).1 = .waiting x := by
  by_cases hauth : ∃ request token, call = .authorize request token
  · obtain ⟨request, token, rfl⟩ := hauth
    rcases authorize_remains h with hold | ⟨hnew, x, hx⟩
    · exact .inl (.of_remains hold)
    · exact .inr ⟨request, token, rfl, hnew.id, hnew.client, x, hx⟩
  · push Not at hauth
    exact .inl (.of_remains (Call.remains hauth h))

/-- The client is registered, or its pending approval is cancelled or of a later request. -/
def Settled (c : Uuid) (later : Uuid → Prop) (s : ApprovalState) : Prop :=
  s.clientSessions.contains c ∨ ∀ p, s.pending = some p → p.request.clientSessionId = c →
    p.decision = some .cancel ∨ later p.request.id

/-- A purge that removes a client cancels its approval. -/
lemma Settled.purge {c : Uuid} {later : Uuid → Prop} (h : Settled c later s) (env : Env) :
    Settled c later (s.purgeDisconnectedClients env) := by
  by_cases hgone : Gone env s c
  · exact .inr fun p hp hc => .inl (cancelled_purge hgone hp hc)
  · rcases h with hin | hpending
    · refine .inl ?_
      rw [Table.contains, (purged_purge.kept c hgone).1]
      exact hin
    · refine .inr fun p hp hc => ?_
      have hquiet : Quiet env s (s.purgeDisconnectedClients env) := quiet_purge
      obtain ⟨q, hq, hid, hclient, hcancel⟩ := From.of_remains (.of_quiet hquiet hp)
      rcases hpending q hq (hclient.trans hc) with hd | hl
      · exact .inl (hcancel hd)
      · exact .inr (hid ▸ hl)

end Operations

/-- A request that has to be approved is made for a client that is not registered. -/
def Occurrence.Asks (approvalTimeout : Duration) (o : Occurrence) (c id : Uuid) : Prop :=
  ∃ request token x, o.event = .call (.authorize request token) ∧ request.id = id ∧
    request.clientSessionId = c ∧
    (o.world.state.authorize approvalTimeout o.world.env request token).1 = .waiting x ∧
    (o.world.state.purgeDisconnectedClients o.world.env).clientSessions.contains c = false

/-! ### Runs -/

section Runs

variable {approvalTimeout : Duration} {w w₀ w' : World} {history : List Occurrence} {c : Uuid}

/-- One call, on the state it works on. -/
lemma Settled.call {later later' : Uuid → Prop} {env : Env} {s : ApprovalState}
    (h : Settled c later s) (call : Call) (hmono : ∀ id, later id → later' id)
    (hasks : ∀ request token x, call = .authorize request token → request.clientSessionId = c →
      (s.authorize approvalTimeout env request token).1 = .waiting x →
      s.clientSessions.contains c = false → later' request.id)
    (hroster : Roster s (call.after approvalTimeout env s)) :
    Settled c later' (call.after approvalTimeout env s) := by
  by_cases hin : s.clientSessions.contains c
  · refine .inl ?_
    rw [hroster.clients]
    exact hin
  · refine .inr fun p' hp' hc => ?_
    rcases h with hin' | hpending
    · exact absurd hin' hin
    · rcases call.pending_from hp' with ⟨p, hp, hid, hclient, hcancel⟩ |
        ⟨request, token, hcall, hid, hclient, x, hx⟩
      · rcases hpending p hp (hclient.trans hc) with hd | hl
        · exact .inl (hcancel hd)
        · exact .inr (hid ▸ hmono _ hl)
      · rw [hid]
        exact .inr (hasks request token x hcall (hclient.symm.trans hc) hx (by simpa using hin))

lemma Settled.mono {later later' : Uuid → Prop} {s : ApprovalState} (h : Settled c later s)
    (hmono : ∀ id, later id → later' id) : Settled c later' s := by
  rcases h with hin | hpending
  · exact .inl hin
  · exact .inr fun p hp hc => (hpending p hp hc).imp id (hmono _)

/-- From a state in which a client is registered on, its approvals are cancelled when it is removed,
and only what is asked for it while it is not registered is new. -/
lemma settled_run (hrun : Run (Step approvalTimeout) w₀ history w)
    (hin : w₀.state.clientSessions.contains c) :
    Settled c (fun id => ∃ o ∈ history, o.Asks approvalTimeout c id) w.state := by
  refine hrun.history_invariant (I := fun history w =>
    Settled c (fun id => ∃ o ∈ history, o.Asks approvalTimeout c id) w.state) (.inl hin) ?_
  intro history w o w' h hstep
  cases hstep with
  | @mk e _ =>
    have hmono : ∀ id, (∃ o ∈ history, o.Asks approvalTimeout c id) →
        ∃ o ∈ history ++ [⟨w, e⟩], o.Asks approvalTimeout c id := by
      rintro id ⟨o, ho, hasks⟩
      exact ⟨o, List.mem_append_left _ ho, hasks⟩
    cases e with
    | cancel token => exact h.mono hmono
    | advance clock instant => exact h.mono hmono
    | call call =>
      have hasks : ∀ request token x, call = .authorize request token →
          request.clientSessionId = c →
          (w.state.authorize approvalTimeout w.env request token).1 = .waiting x →
          (w.state.purgeDisconnectedClients w.env).clientSessions.contains c = false →
          ∃ o ∈ history ++ [⟨w, .call call⟩], o.Asks approvalTimeout c request.id := by
        rintro request token x rfl hc hx hout
        exact ⟨_, List.mem_append_right _ (List.mem_singleton.mpr rfl), request, token, x, rfl, rfl,
          hc, hx, hout⟩
      change Settled c _ (call.after approvalTimeout w.env w.state)
      have hbased : Based approvalTimeout w.env w.state call
        (call.after approvalTimeout w.env w.state) := call.based
      cases hbased with
      | kept hr =>
        refine h.call call hmono (fun request token x hcall hc hx hout => ?_) hr
        refine hasks request token x hcall hc hx ?_
        by_contra hin
        rw [Bool.not_eq_false] at hin
        rw [contains_of_purge hin] at hout
        cases hout
      | purged hr hsame =>
        rw [← hsame] at hr ⊢
        refine (h.purge w.env).call call hmono (fun request token x hcall hc hx hout => ?_) hr
        refine hasks request token x hcall hc ?_ hout
        rw [← hx]
        simp only [ApprovalState.authorize, purge_purge]
      | @registered c' token hr =>
        rcases (h.purge w.env).mono hmono with hin | hpending
        · refine .inl ?_
          obtain ⟨t, ht⟩ := Table.contains_eq_true.mp hin
          rw [hr.clients, Table.contains, Table.get?_insert]
          split
          · rfl
          · rw [ht]
            rfl
        · refine .inr fun p hp => hpending p ?_
          rw [← hr.pending]
          exact hp
      | closed tokens hsame =>
        have hclosed : Settled c (fun id => ∃ o ∈ history, o.Asks approvalTimeout c id)
            { w.state with sessionsClosed := true } := h
        rw [hsame]
        exact (hclosed.purge _).mono hmono

lemma registry_run {grantLifetime : Duration} {env : Env}
    (hrun : Run (Step approvalTimeout) (.initial env grantLifetime) history w) :
    Registry w.state := by
  refine hrun.invariant (I := fun w => Registry w.state) ?_ ?_
  · exact ⟨fun _ => rfl, Nat.zero_le _, fun h => by cases h⟩
  · intro w o w' h hstep
    cases hstep with
    | @mk e _ =>
      cases e with
      | call call => exact h.call call
      | cancel token => exact h
      | advance clock instant => exact h

/-- **The registrations are kept together, and a client that comes back finds nothing from before.**
In every state of every run the two tables of registrations have the same clients, at most
thirty-two, and a grant for the session or for unattended use is of one of them. A purge takes
everything from exactly the clients that have gone. A client that is registered is not registered
again; one that is has no grant, and whatever was asked for it while it was registered before is
cancelled. -/
theorem registrations (grantLifetime : Duration) (env : Env) (w : World)
    (history : List Occurrence)
    (hrun : Run (Step approvalTimeout) (.initial env grantLifetime) history w) :
    (Registry w.state ∧ w.state.sessions.size ≤ maxTrackedSessions) ∧
    (∀ env', Purged env' w.state (w.state.purgeDisconnectedClients env')) ∧
    (∀ c token connectionId,
      (w.state.purgeDisconnectedClients w.env).clientSessions.contains c →
      (w.state.registerClientSession w.env c token connectionId).1 = .error .busy) ∧
    ∀ c token connectionId s',
      w.state.registerClientSession w.env c token connectionId = (.ok (), s') →
      (∀ k, s'.grants.get? c k = none) ∧
      ∀ w₀ after, Run (Step approvalTimeout) w₀ after w → w₀.state.clientSessions.contains c →
        ∀ p, s'.pending = some p → p.request.clientSessionId = c →
          p.decision = some .cancel ∨ ∃ o ∈ after, o.Asks approvalTimeout c p.request.id := by
  have hreg := registry_run hrun
  refine ⟨⟨hreg, ?_⟩, fun env' => purged_purge, fun c token connectionId hin => ?_,
    fun c token connectionId s' hok => ?_⟩
  · rw [Table.size_eq_of_contains hreg.keys]
    exact hreg.size_le
  · rw [registerClientSession, if_pos (.inr (.inl hin))]
  · rcases @registerClientSession_registers w.env w.state c token connectionId with h | ⟨-, h⟩
    · rw [h] at hok
      cases hok
    rw [hok] at h
    refine ⟨fun k => ?_, fun w₀ after hafter hin p hp hc => ?_⟩
    · rw [h.grants]
      refine Option.eq_none_iff_forall_ne_some.mpr fun d hd => ?_
      exact (GrantStore.get?_revokeClient.mp hd).2 rfl
    · rcases (settled_run hafter hin).purge w.env with hin | hpending
      · rw [h.new] at hin
        cases hin
      · exact hpending p (h.pending ▸ hp) hc

end Runs

/-! ### A client that comes back -/

section Back

/-- A client that is registered asks for a secret, which is approved, and its connection goes. -/
def departed : List Event :=
  [.call (.authorize request₁ 0), .call (.decide client₁ .approveSession), .cancel 5]

def registered₁ : World :=
  opening.play timeout₁ [.call (.registerClientSession client₁ 5 client₂)]

theorem registrations_back :
    ∃ s', (registered₁.play timeout₁ departed).state.registerClientSession
        (registered₁.play timeout₁ departed).env client₁ 6 client₂ = (.ok (), s') ∧
      (∀ k, s'.grants.get? client₁ k = none) ∧
      ∃ p, s'.pending = some p ∧ p.decision = some .cancel := by
  have hbefore := @run_play timeout₁ opening [.call (.registerClientSession client₁ 5 client₂)]
    (by decide +kernel)
  have hafter : Run (Step timeout₁) registered₁ (registered₁.trace timeout₁ departed)
      (registered₁.play timeout₁ departed) := run_play (by decide +kernel)
  obtain ⟨-, -, -, hback⟩ := registrations _ _ _ _ (hbefore.append hafter)
  have hok : ((registered₁.play timeout₁ departed).state.registerClientSession
      (registered₁.play timeout₁ departed).env client₁ 6 client₂).1 = .ok () := by decide +kernel
  obtain ⟨hgrants, hpending⟩ := hback client₁ 6 client₂ _ (Prod.ext hok rfl)
  refine ⟨_, Prod.ext hok rfl, hgrants, ?_⟩
  have hsome : ((registered₁.play timeout₁ departed).state.registerClientSession
      (registered₁.play timeout₁ departed).env client₁ 6 client₂).2.pending.isSome := by
    decide +kernel
  have hclient : (((registered₁.play timeout₁ departed).state.registerClientSession
      (registered₁.play timeout₁ departed).env client₁ 6 client₂).2.pending.all
        fun p => p.request.clientSessionId = client₁) = true := by decide +kernel
  have hstays : ∀ o ∈ registered₁.trace timeout₁ departed,
      (o.world.state.purgeDisconnectedClients o.world.env).clientSessions.contains client₁ = true := by
    decide +kernel
  obtain ⟨p, hp⟩ := Option.isSome_iff_exists.mp hsome
  rw [hp, Option.all_some, decide_eq_true_eq] at hclient
  refine ⟨p, hp, (hpending registered₁ _ hafter (by decide +kernel) p hp hclient).resolve_right ?_⟩
  rintro ⟨o, ho, request, token, x, -, -, -, -, hout⟩
  rw [hstays o ho] at hout
  cases hout

end Back

end Ladon.Approval

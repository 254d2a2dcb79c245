import Ladon.Approval

/-!
What each operation of the approval coordinator can do.

Almost all of them only take away: grants, the decision of the pending request, connections. This
is said once, as a relation between the states before and behind an operation, and the few
operations that add something are described one by one.
-/

namespace Ladon.Approval

open Ladon.Error Ladon.Model Ladon.Grants Ladon.Lib Ladon.Lib.Word

/-! ### Taking away -/

/-- The connection of a client has gone, and the coordinator has not noticed yet. -/
def Gone (env : Env) (s : ApprovalState) (client : Uuid) : Prop :=
  ∃ t, s.clientSessions.get? client = some t ∧ t ∈ env.cancelled

/-- The same request, apart from the label of its client. -/
structure PendingState.SameRequest (p q : PendingState) : Prop where
  id : p.request.id = q.request.id
  vault : p.request.vaultSessionId = q.request.vaultSessionId
  client : p.request.clientSessionId = q.request.clientSessionId
  secrets : p.request.secrets = q.request.secrets
  executable : p.request.executable = q.request.executable
  arguments : p.request.arguments = q.request.arguments
  workingDirectory : p.request.workingDirectory = q.request.workingDirectory
  requested : p.requestedSecretIds = q.requestedSecretIds

/-- A decision that lets nothing through by itself. -/
def Refuses (d : Option ApprovalDecision) : Prop := ∃ e, d = some e ∧ e.approves = false

/-- The same request, as decided as it was, or cancelled, or now decided without an approval. -/
structure PendingState.Follows (p q : PendingState) : Prop extends p.SameRequest q where
  decision : p.decision = q.decision ∨ p.decision = some .cancel ∨
    q.decision = none ∧ Refuses p.decision

lemma PendingState.SameRequest.refl {p : PendingState} : p.SameRequest p :=
  ⟨rfl, rfl, rfl, rfl, rfl, rfl, rfl, rfl⟩

lemma PendingState.SameRequest.trans {p q r : PendingState} (h : p.SameRequest q)
    (h' : q.SameRequest r) : p.SameRequest r :=
  ⟨h.id.trans h'.id, h.vault.trans h'.vault, h.client.trans h'.client, h.secrets.trans h'.secrets,
    h.executable.trans h'.executable, h.arguments.trans h'.arguments,
    h.workingDirectory.trans h'.workingDirectory, h.requested.trans h'.requested⟩

/-- A decision leaves the request. -/
lemma PendingState.SameRequest.decided {p : PendingState} {decision : Option ApprovalDecision} :
    PendingState.SameRequest { p with decision := decision } p :=
  ⟨rfl, rfl, rfl, rfl, rfl, rfl, rfl, rfl⟩

lemma PendingState.Follows.refl {p : PendingState} : p.Follows p := ⟨.refl, .inl rfl⟩

lemma PendingState.Follows.trans {p q r : PendingState} (h : p.Follows q) (h' : q.Follows r) :
    p.Follows r := by
  refine ⟨h.toSameRequest.trans h'.toSameRequest, ?_⟩
  rcases h.decision with hd | hd | ⟨hnone, hd⟩
  · rw [hd]
    exact h'.decision
  · exact .inr (.inl hd)
  · rcases h'.decision with hd' | hd' | ⟨hr, -⟩
    · exact .inr (.inr ⟨hd' ▸ hnone, hd⟩)
    · rw [hnone] at hd'
      cases hd'
    · exact .inr (.inr ⟨hr, hd⟩)

lemma refuses_cancel : Refuses (some .cancel) := ⟨.cancel, rfl, rfl⟩

lemma Refuses.follows {p q : PendingState} (h : Refuses q.decision) (hf : p.Follows q) :
    Refuses p.decision := by
  rcases hf.decision with hd | hd | ⟨-, hd⟩
  · rwa [hd]
  · rw [hd]
    exact refuses_cancel
  · exact hd

/-- An approval is never new in what follows. -/
lemma PendingState.Follows.approved {p q : PendingState} (hf : p.Follows q) {e : ApprovalDecision}
    (hp : p.decision = some e) (he : e.approves) : q.decision = some e := by
  rcases hf.decision with hd | hd | ⟨-, e', hd, he'⟩
  · rw [← hd, hp]
  · rw [hp] at hd
    cases hd
    cases he
  · rw [hp] at hd
    cases hd
    rw [he] at he'
    cases he'

lemma PendingState.Follows.cancelled {p q : PendingState} (hf : p.Follows q)
    (hq : q.decision = some .cancel) : p.decision = some .cancel := by
  rcases hf.decision with hd | hd | ⟨hnone, -⟩
  · rw [hd, hq]
  · exact hd
  · rw [hq] at hnone
    cases hnone

lemma follows_cancel {p : PendingState} :
    PendingState.Follows { p with decision := some .cancel } p :=
  ⟨.decided, .inr (.inl rfl)⟩

lemma follows_refuse {p : PendingState} {e : ApprovalDecision} (hp : p.decision = none)
    (he : e.approves = false) : PendingState.Follows { p with decision := some e } p :=
  ⟨.decided, .inr (.inr ⟨hp, e, rfl, he⟩)⟩

/-- No grant and no approval of a client is left. -/
def Absent (s : ApprovalState) (client : Uuid) : Prop :=
  (∀ k, s.grants.get? client k = none) ∧
    ∀ p e, s.pending = some p → p.request.clientSessionId = client → p.decision = some e →
      e.approves = false

/-- An operation that only took away. -/
structure Quiet (env : Env) (s s' : ApprovalState) : Prop where
  grants : ∀ {c k d}, s'.grants.get? c k = some d → s.grants.get? c k = some d
  pending : ∀ {p}, s'.pending = some p → ∃ q, s.pending = some q ∧ p.Follows q
  sessions : ∀ {c t}, s'.clientSessions.get? c = some t → s.clientSessions.get? c = some t
  gone : ∀ {c}, Gone env s c → Gone env s' c ∨ Absent s' c
  vault : s'.vaultSessionId = s.vaultSessionId
  access : s'.appAccess = s.appAccess

lemma Absent.quiet {env : Env} {s s' : ApprovalState} {client : Uuid} (h : Absent s client)
    (hq : Quiet env s s') : Absent s' client := by
  refine ⟨fun k => ?_, fun p e hp hc he => ?_⟩
  · by_contra hk
    obtain ⟨d, hd⟩ := Option.ne_none_iff_exists'.mp hk
    have := hq.grants hd
    rw [h.1 k] at this
    cases this
  · obtain ⟨q, hq, hf⟩ := hq.pending hp
    by_contra ha
    rw [Bool.not_eq_false] at ha
    rw [h.2 q e hq (hf.client ▸ hc) (hf.approved he ha)] at ha
    cases ha

namespace Quiet

variable {env : Env} {s s' s'' : ApprovalState}

lemma refl (s : ApprovalState) : Quiet env s s :=
  ⟨fun h => h, fun h => ⟨_, h, .refl⟩, fun h => h, fun h => .inl h, rfl, rfl⟩

lemma trans (h : Quiet env s s') (h' : Quiet env s' s'') : Quiet env s s'' := by
  refine ⟨fun hg => h.grants (h'.grants hg), fun hp => ?_, fun hc => h.sessions (h'.sessions hc),
    fun hgone => ?_, h'.vault.trans h.vault, h'.access.trans h.access⟩
  · obtain ⟨q, hq, hf⟩ := h'.pending hp
    obtain ⟨r, hr, hf'⟩ := h.pending hq
    exact ⟨r, hr, hf.trans hf'⟩
  · rcases h.gone hgone with hg | ha
    · exact h'.gone hg
    · exact .inr (ha.quiet h')

/-- Grants dropped from the store, and nothing else that matters. -/
lemma of_grants (hg : ∀ {c k d}, s'.grants.get? c k = some d → s.grants.get? c k = some d)
    (hp : s'.pending = s.pending) (hc : s'.clientSessions = s.clientSessions)
    (hv : s'.vaultSessionId = s.vaultSessionId) (ha : s'.appAccess = s.appAccess) :
    Quiet env s s' := by
  refine ⟨hg, fun h => ⟨_, hp ▸ h, .refl⟩, fun h => hc ▸ h, fun h => .inl ?_, hv, ha⟩
  obtain ⟨t, ht, hm⟩ := h
  exact ⟨t, hc ▸ ht, hm⟩

/-- The pending approval changed in one that follows it. -/
lemma of_pending {f : PendingState → PendingState}
    (hf : ∀ p, s.pending = some p → (f p).Follows p) :
    Quiet env s { s with pending := s.pending.map f } := by
  refine ⟨fun h => h, fun h => ?_, fun h => h, fun h => .inl h, rfl, rfl⟩
  obtain ⟨r, hr, rfl⟩ := Option.map_eq_some_iff.mp h
  exact ⟨r, hr, hf r hr⟩

lemma takePending : Quiet env s s.takePending :=
  ⟨fun h => h, fun h => (nomatch h), fun h => h, fun h => .inl h, rfl, rfl⟩

end Quiet

/-! ### Connections that have gone -/

namespace ApprovalState

variable {env : Env} {s : ApprovalState} {client : Uuid} {c : Uuid} {k : SecretId}
  {d : GrantDeadline}

lemma get?_foldl_disconnect (l : List Uuid) :
    (l.foldl disconnect s).grants.get? c k = some d ↔ s.grants.get? c k = some d ∧ c ∉ l := by
  induction l generalizing s with
  | nil => simp
  | cons a l ih =>
    have hd : (s.disconnect a).grants.get? c k = some d ↔
        s.grants.get? c k = some d ∧ c ≠ a := GrantStore.get?_revokeClient
    rw [List.foldl_cons, ih, hd, List.mem_cons, not_or, and_assoc]

lemma pending_foldl_disconnect (l : List Uuid) :
    (l.foldl disconnect s).pending = s.pending.map fun p =>
      if p.request.clientSessionId ∈ l then { p with decision := some .cancel } else p := by
  induction l generalizing s with
  | nil => simp
  | cons a l ih =>
    rw [List.foldl_cons, ih]
    cases hp : s.pending with
    | none => simp [disconnect, cancelPendingIf, hp]
    | some p =>
      by_cases ha : p.request.clientSessionId = a
      · simp [disconnect, cancelPendingIf, hp, ha]
      · simp [disconnect, cancelPendingIf, hp, ha]

lemma clientSessions_foldl_disconnect (l : List Uuid) (t : Token) :
    (l.foldl disconnect s).clientSessions.get? c = some t ↔
      s.clientSessions.get? c = some t ∧ c ∉ l := by
  induction l generalizing s with
  | nil => simp
  | cons a l ih =>
    have hd : (s.disconnect a).clientSessions.get? c =
        if c = a then none else s.clientSessions.get? c := Table.get?_erase _ _ _
    rw [List.foldl_cons, ih, hd, List.mem_cons, not_or]
    by_cases ha : c = a
    · simp [ha]
    · simp [ha]

/-- What a fold of disconnections leaves alone. -/
lemma foldl_disconnect_frame (l : List Uuid) :
    let s' := l.foldl disconnect s
    s'.vaultSessionId = s.vaultSessionId ∧ s'.appAccess = s.appAccess ∧
      s'.lockEpoch = s.lockEpoch ∧ s'.revision = s.revision ∧
      s'.grants.lifetimeMillis = s.grants.lifetimeMillis := by
  induction l generalizing s with
  | nil => exact ⟨rfl, rfl, rfl, rfl, rfl⟩
  | cons a l ih => exact ih

lemma mem_disconnected : client ∈ disconnected env s ↔ Gone env s client := by
  rw [disconnected, Table.keys, List.mem_map, Gone]
  constructor
  · rintro ⟨⟨c, t⟩, h, rfl⟩
    have := Table.get?_eq_some_iff.mpr h
    rw [Table.get?_retain, Option.filter_eq_some_iff] at this
    exact ⟨t, this.1, by simpa using this.2⟩
  · rintro ⟨t, h, ht⟩
    refine ⟨(client, t), Table.get?_eq_some_iff.mp ?_, rfl⟩
    rw [Table.get?_retain, Option.filter_eq_some_iff]
    exact ⟨h, by simpa using ht⟩

lemma get?_purge :
    (s.purgeDisconnectedClients env).grants.get? c k = some d ↔
      s.grants.get? c k = some d ∧ ¬ Gone env s c := by
  rw [purgeDisconnectedClients, get?_foldl_disconnect, mem_disconnected]

open Classical in
lemma pending_purge :
    (s.purgeDisconnectedClients env).pending = s.pending.map fun p =>
      if Gone env s p.request.clientSessionId then { p with decision := some .cancel } else p := by
  rw [purgeDisconnectedClients, pending_foldl_disconnect]
  simp only [mem_disconnected]

lemma clientSessions_purge {t : Token} :
    (s.purgeDisconnectedClients env).clientSessions.get? c = some t ↔
      s.clientSessions.get? c = some t ∧ t ∉ env.cancelled := by
  rw [purgeDisconnectedClients, clientSessions_foldl_disconnect, mem_disconnected]
  constructor
  · rintro ⟨h, hg⟩
    exact ⟨h, fun ht => hg ⟨t, h, ht⟩⟩
  · rintro ⟨h, ht⟩
    refine ⟨h, ?_⟩
    rintro ⟨t', h', ht'⟩
    rw [h] at h'
    cases h'
    exact ht ht'

@[simp] lemma vaultSessionId_purge :
    (s.purgeDisconnectedClients env).vaultSessionId = s.vaultSessionId :=
  (foldl_disconnect_frame _).1

@[simp] lemma appAccess_purge : (s.purgeDisconnectedClients env).appAccess = s.appAccess :=
  (foldl_disconnect_frame _).2.1

@[simp] lemma isAppActive_purge : (s.purgeDisconnectedClients env).isAppActive = s.isAppActive := by
  simp [isAppActive]

@[simp] lemma lockEpoch_purge : (s.purgeDisconnectedClients env).lockEpoch = s.lockEpoch :=
  (foldl_disconnect_frame _).2.2.1

@[simp] lemma revision_purge : (s.purgeDisconnectedClients env).revision = s.revision :=
  (foldl_disconnect_frame _).2.2.2.1

@[simp] lemma lifetimeMillis_purge :
    (s.purgeDisconnectedClients env).grants.lifetimeMillis = s.grants.lifetimeMillis :=
  (foldl_disconnect_frame _).2.2.2.2

/-- A purge cancels the request of a client that has gone. -/
lemma cancelled_purge (h : Gone env s client) {p : PendingState}
    (hp : (s.purgeDisconnectedClients env).pending = some p)
    (hc : p.request.clientSessionId = client) : p.decision = some .cancel := by
  classical
  rw [pending_purge] at hp
  obtain ⟨q, hq, rfl⟩ := Option.map_eq_some_iff.mp hp
  by_cases hg : Gone env s q.request.clientSessionId
  · rw [if_pos hg]
  · rw [if_neg hg] at hc
    exact (hg (hc ▸ h)).elim

lemma absent_purge (h : Gone env s client) : Absent (s.purgeDisconnectedClients env) client := by
  refine ⟨fun k => ?_, fun p e hp hc he => ?_⟩
  · by_contra hk
    obtain ⟨d, hd⟩ := Option.ne_none_iff_exists'.mp hk
    exact (get?_purge.mp hd).2 h
  · rw [cancelled_purge h hp hc] at he
    cases he
    rfl

lemma quiet_purge : Quiet env s (s.purgeDisconnectedClients env) := by
  classical
  refine ⟨fun h => (get?_purge.mp h).1, fun hp => ?_, fun h => (clientSessions_purge.mp h).1,
    fun h => .inr (absent_purge h), vaultSessionId_purge, appAccess_purge⟩
  rw [pending_purge] at hp
  obtain ⟨q, hq, rfl⟩ := Option.map_eq_some_iff.mp hp
  refine ⟨q, hq, ?_⟩
  split
  · exact follows_cancel
  · exact .refl

/-! ### Operations that only take away -/

lemma quiet_cancelPendingIf (p : PendingState → Bool) : Quiet env s (s.cancelPendingIf p) := by
  refine Quiet.of_pending fun q _ => ?_
  split
  · exact follows_cancel
  · exact .refl

lemma quiet_purgeExpired :
    Quiet env s { s with grants := s.grants.purgeExpired env.clock } :=
  .of_grants (fun h => (GrantStore.get?_purgeExpired.mp h).1) rfl rfl rfl rfl

lemma quiet_prune : Quiet env s (s.pruneClientLabels env) :=
  .of_grants (fun h => (GrantStore.get?_purgeExpired.mp h).1) rfl rfl rfl rfl

lemma quiet_clientHasUnattended : Quiet env s (s.clientHasUnattended env client).2 := by
  unfold clientHasUnattended
  split
  · exact quiet_purgeExpired
  · exact .refl s

lemma quiet_coversUnattended {secrets : List SecretId} :
    Quiet env s (s.coversUnattended env client secrets).2 := by
  unfold coversUnattended
  dsimp only
  split
  · exact quiet_clientHasUnattended.trans quiet_purgeExpired
  · exact quiet_clientHasUnattended

lemma quiet_clearPending {approvalId : Uuid} : Quiet env s (s.clearPending env approvalId) := by
  unfold clearPending
  split
  · exact Quiet.takePending.trans quiet_prune
  · exact .refl s

lemma quiet_updateSession {f : SessionDetails → SessionDetails} :
    Quiet env s (s.updateSession client f) := by
  unfold updateSession
  split
  · exact .refl s
  · exact .of_grants (fun h => h) rfl rfl rfl rfl

lemma quiet_cancelPending : Quiet env s (s.cancelPending env).2 := by
  unfold cancelPending
  split
  · exact (quiet_cancelPendingIf _).trans quiet_prune
  · exact .refl s

lemma quiet_clientSessionConnected : Quiet env s (s.clientSessionConnected env client).2 :=
  quiet_purge

lemma quiet_pendingRequest : Quiet env s (s.pendingRequest env).2 := quiet_purge

lemma quiet_relabel {label : String} : Quiet env s (s.relabel env client label) := by
  unfold relabel
  dsimp only
  split
  · refine quiet_purgeExpired.trans (Quiet.trans (Quiet.of_pending fun p _ => ?_)
      (.of_grants (fun h => h) rfl rfl rfl rfl))
    split
    · exact ⟨⟨rfl, rfl, rfl, rfl, rfl, rfl, rfl, rfl⟩, .inl rfl⟩
    · exact .refl
  · exact quiet_purgeExpired

lemma quiet_observeClient {label : String} : Quiet env s (s.observeClient env client label).2 :=
  ((quiet_purge.trans quiet_updateSession).trans quiet_relabel).trans quiet_prune

lemma quiet_observeRun {project action : String} :
    Quiet env s (s.observeRun env client project action).2 := quiet_updateSession

lemma quiet_sessionList : Quiet env s (s.sessionList env).2 := quiet_purge

lemma quiet_setSessionAnnotation {connectionId : Option Uuid} {name note : String} :
    Quiet env s (s.setSessionAnnotationChecked env client connectionId name note).2 := by
  unfold setSessionAnnotationChecked
  dsimp only
  split
  · exact .refl s
  · split
    · exact quiet_purge
    · split
      · exact quiet_purge
      · split
        · exact quiet_purge
        · exact quiet_purge.trans quiet_updateSession

lemma quiet_activeGrants : Quiet env s (s.activeGrants env).2 :=
  quiet_purge.trans (.of_grants (fun h => (GrantStore.get?_purgeExpired.mp h).1) rfl rfl rfl rfl)

lemma quiet_requireClientAccess : Quiet env s (s.requireClientAccess env client).2 := by
  unfold requireClientAccess
  dsimp only
  split
  · exact quiet_purge
  · exact quiet_purge.trans quiet_clientHasUnattended

lemma quiet_hasUnattended : Quiet env s (s.hasUnattended env client).2 :=
  quiet_purge.trans quiet_clientHasUnattended

lemma quiet_unattendedCovers {ids : List SecretId} :
    Quiet env s (s.unattendedCovers env client ids).2 :=
  quiet_purge.trans quiet_coversUnattended

lemma quiet_accessIsValid {ticket : GrantTicket} :
    Quiet env s (s.accessIsValid env ticket).2 := by
  unfold accessIsValid
  split
  · exact .refl s
  · exact quiet_coversUnattended

lemma quiet_grantIsValid {ticket : GrantTicket} : Quiet env s (s.grantIsValid env ticket).2 := by
  unfold grantIsValid
  dsimp only
  split
  · exact quiet_purge.trans quiet_accessIsValid
  · exact (quiet_purge.trans quiet_accessIsValid).trans quiet_purgeExpired

/-! ### Decisions, and what they grant -/

/-- The deadline of the grants a decision makes when it is taken up. -/
def decisionDeadline (clock : Clock) (lifetimeMillis : ℕ) : ApprovalDecision → Option GrantDeadline
  | .approve lifetime =>
    some (.elapsed (saturatingAdd clock.nowMillis
      (durationMillis (lifetime.getD (lifetimeMillis * 10 ^ 6)))))
  | .approveUntil deadline => some (.wallClock deadline)
  | .approveSession => some .session
  | .granted | .deny | .cancel => none

/-- The grants of a request that is let through. -/
def granting (env : Env) (request : PendingApproval) (d : GrantDeadline) (s : ApprovalState) :
    ApprovalState :=
  s.grantRequest request ((s.grants.purgeExpired env.clock).insertAll request.clientSessionId
    request.secretIds d)

lemma takeUp_cases {ticket : GrantTicket} {request : PendingApproval} {e : ApprovalDecision} :
    Quiet env s (takeUp env ticket request s e).2 ∧
        (e.approves → ∃ error, (takeUp env ticket request s e).1 = .error error) ∨
      e.approves ∧ ∃ d, decisionDeadline env.clock s.grants.lifetimeMillis e = some d ∧
        takeUp env ticket request s e = (.ok ticket, s.granting env request d) := by
  cases e with
  | granted => exact .inl ⟨quiet_purgeExpired, fun h => nomatch h⟩
  | deny => exact .inl ⟨quiet_prune, fun h => nomatch h⟩
  | cancel => exact .inl ⟨quiet_prune, fun h => nomatch h⟩
  | approve lifetime =>
    refine .inr ⟨rfl, _, rfl, ?_⟩
    cases lifetime <;> rfl
  | approveUntil deadline => exact .inr ⟨rfl, _, rfl, rfl⟩
  | approveSession =>
    rw [takeUp]
    split
    · exact .inl ⟨.refl s, fun _ => ⟨_, rfl⟩⟩
    · exact .inr ⟨rfl, _, rfl, rfl⟩

/-- A turn of a waiting call finds its request decided, or takes nothing but away and fails or goes
on waiting. -/
lemma poll_decided {w : Waiting} :
    (Quiet env s (s.poll env w).2 ∧ ∀ t, (s.poll env w).1 ≠ some (.ok t)) ∨
      ∃ p e, (s.purgeDisconnectedClients env).pending = some p ∧ p.request.id = w.approvalId ∧
        p.decision = some e ∧
        (s.poll env w).1 = some (takeUp env w.ticket p.request
          (s.purgeDisconnectedClients env).takePending e).1 ∧
        (s.poll env w).2 = (takeUp env w.ticket p.request
          (s.purgeDisconnectedClients env).takePending e).2 := by
  unfold poll
  dsimp only
  split
  · exact .inl ⟨quiet_purge.trans quiet_clearPending, fun t h => by cases h⟩
  · split
    · next p e hp hd =>
      have hid : p.request.id = w.approvalId ∧ p.decision = some e := by
        rw [decisionFor, hp] at hd
        simpa using hd
      exact .inr ⟨p, e, hp, hid.1, hid.2, rfl, rfl⟩
    · split
      · exact .inl ⟨quiet_purge.trans quiet_clearPending, fun t h => by cases h⟩
      · exact .inl ⟨quiet_purge, fun t h => by cases h⟩

/-- A turn of a waiting call either takes nothing but away, or finds its request approved and
makes the grants. -/
lemma poll_cases {w : Waiting} :
    Quiet env s (s.poll env w).2 ∧
        (∀ p e, (s.purgeDisconnectedClients env).pending = some p → p.decision = some e →
          e.approves → ∀ t, (s.poll env w).1 ≠ some (.ok t)) ∨
      ∃ p e d, (s.purgeDisconnectedClients env).pending = some p ∧ p.request.id = w.approvalId ∧
        p.decision = some e ∧ e.approves ∧
        decisionDeadline env.clock s.grants.lifetimeMillis e = some d ∧
        (s.poll env w).1 = some (.ok w.ticket) ∧
        (s.poll env w).2 =
          (s.purgeDisconnectedClients env).takePending.granting env p.request d := by
  rcases @poll_decided env s w with ⟨hq, hne⟩ | ⟨p, e, hp, hid, hd, h1, h2⟩
  · exact .inl ⟨hq, fun _ _ _ _ _ => hne⟩
  · have hl : (s.purgeDisconnectedClients env).grants.lifetimeMillis =
      s.grants.lifetimeMillis := lifetimeMillis_purge
    rcases @takeUp_cases env (s.purgeDisconnectedClients env).takePending w.ticket p.request e with ⟨hq, herr⟩ | ⟨ha, d, hdl, htake⟩
    · refine .inl ⟨h2 ▸ (quiet_purge.trans Quiet.takePending).trans hq, ?_⟩
      intro q e' hq' he' ha t ht
      rw [hp] at hq'
      cases hq'
      rw [hd] at he'
      cases he'
      obtain ⟨error, herr⟩ := herr ha
      rw [h1, herr] at ht
      cases ht
    · refine .inr ⟨p, e, d, hp, hid, hd, ha, hl ▸ hdl, ?_, ?_⟩
      · rw [h1, htake]
      · rw [h2, htake]

/-- A decision is recorded once, and only for the request it names. -/
lemma setDecision_cases {approvalId : Uuid} {e : ApprovalDecision} :
    Quiet env s (s.setDecision env approvalId e).2 ∨
      ∃ p, (s.purgeDisconnectedClients env).pending = some p ∧ p.request.id = approvalId ∧
        p.decision = none ∧ e.approves ∧
        s.setDecision env approvalId e = (.ok (), { s.purgeDisconnectedClients env with
          pending := some { p with decision := some e } }) := by
  unfold setDecision
  dsimp only
  split
  · exact .inl quiet_purge
  · next p hp =>
    split
    · exact .inl quiet_purge
    · split
      · exact .inl quiet_purge
      · next hne =>
        rw [not_or, not_not] at hne
        obtain ⟨hid, hd⟩ := hne
        cases ha : e.approves with
        | true =>
          refine .inr ⟨p, hp, hid, by simpa using hd, rfl, ?_⟩
          rw [if_pos rfl]
        | false =>
          have hpend : Quiet env s { s.purgeDisconnectedClients env with
              pending := some { p with decision := some e } } := by
            have := @Quiet.of_pending env (s.purgeDisconnectedClients env)
              (fun q => { q with decision := some e }) fun q hq => by
                rw [hp] at hq
                cases hq
                exact follows_refuse (by simpa using hd) ha
            rw [hp] at this
            exact quiet_purge.trans this
          exact .inl (hpend.trans quiet_prune)

/-! ### Sessions of the vault -/

/-- Entering another session of the vault leaves no grant. -/
lemma enterVaultSession_grants {vault : Uuid} (h : s.vaultSessionId ≠ some vault) :
    (s.enterVaultSession vault).grants.get? c k = none := by
  rw [enterVaultSession, if_pos h]
  exact GrantStore.get?_revokeAll

@[simp] lemma enterVaultSession_vault {vault : Uuid} :
    (s.enterVaultSession vault).vaultSessionId = some vault := by
  unfold enterVaultSession
  split
  · rfl
  · next h => exact not_not.mp h

@[simp] lemma enterVaultSession_pending {vault : Uuid} :
    (s.enterVaultSession vault).pending = s.pending := by
  unfold enterVaultSession
  split <;> rfl

lemma enterVaultSession_old {vault : Uuid}
    (h : (s.enterVaultSession vault).grants.get? c k = some d) : s.grants.get? c k = some d := by
  unfold enterVaultSession at h
  split at h
  · exact (GrantStore.not_revokeAll h).elim
  · exact h

@[simp] lemma enterVaultSession_access {vault : Uuid} :
    (s.enterVaultSession vault).appAccess = s.appAccess := by
  unfold enterVaultSession
  split <;> rfl

lemma quiet_findMissing (request : PendingApproval) : Quiet env s (s.findMissing env request).2 :=
  .of_grants (fun h => (GrantStore.get?_purgeExpired.mp h).1) rfl rfl rfl rfl

/-- A call of `authorize` takes nothing but away, or else enters the session of the vault it is for
while nothing is pending; then its own request may be pending, undecided. -/
lemma authorize_cases {approvalTimeout : Duration} {request : PendingApproval} {token : Token} :
    Quiet env s (s.authorize approvalTimeout env request token).2 ∨
      s.isAppActive ∧ (s.purgeDisconnectedClients env).pending = none ∧
      ∃ s₁, Quiet env ((s.purgeDisconnectedClients env).enterVaultSession request.vaultSessionId) s₁ ∧
        ((s.authorize approvalTimeout env request token).2 = s₁ ∨
          ∃ p : PendingState, (s.authorize approvalTimeout env request token).2 =
              { s₁ with pending := some p } ∧ p.decision = none ∧
            p.request.vaultSessionId = request.vaultSessionId ∧
            ∀ x ∈ p.request.secretIds, x ∈ p.requestedSecretIds) := by
  unfold authorize
  dsimp only
  split
  · split
    · exact .inl quiet_purge
    · split
      · exact .inl (quiet_purge.trans quiet_coversUnattended)
      · exact .inl (quiet_purge.trans quiet_coversUnattended)
  · next hactive =>
    rw [isAppActive_purge, not_not] at hactive
    split
    · exact .inl quiet_purge
    · next hpending =>
      rw [Bool.not_eq_true, Option.isSome_eq_false_iff, Option.isNone_iff_eq_none] at hpending
      refine .inr ⟨hactive, hpending, _, quiet_findMissing request, ?_⟩
      split
      · exact .inl rfl
      · refine .inr ⟨_, rfl, rfl, rfl, fun x hx => ?_⟩
        rw [List.mem_eraseDups]
        obtain ⟨secret, hs, rfl⟩ := List.mem_map.mp hx
        exact List.mem_map_of_mem (List.mem_of_mem_filter hs)

/-! ### Connecting -/

/-- A client that connects has no grants from before. -/
lemma registerClientSession_cases {token : Token} {connectionId : Uuid} :
    Quiet env s (s.registerClientSession env client token connectionId).2 ∨
      let s₀ := s.purgeDisconnectedClients env
      let s' := (s.registerClientSession env client token connectionId).2
      s₀.clientSessions.get? client = none ∧ s'.grants = s₀.grants.revokeClient client ∧
        s'.pending = s₀.pending ∧ s'.clientSessions = s₀.clientSessions.insert client token ∧
        s'.vaultSessionId = s₀.vaultSessionId ∧ s'.appAccess = s₀.appAccess := by
  unfold registerClientSession
  dsimp only
  split
  · exact .inl quiet_purge
  · next h =>
    simp only [not_or, Bool.not_eq_true] at h
    refine .inr ⟨?_, rfl, rfl, rfl, rfl, rfl⟩
    have := h.2.1
    rwa [Table.contains, Option.isSome_eq_false_iff, Option.isNone_iff_eq_none] at this

/-! ### Unattended use -/

lemma captureUnattended_cases {T : Type} {snapshot : Except LadonError (Uuid × T)} :
    Quiet env s (s.captureUnattendedWith env client snapshot).2 ∨
      s.isAppActive ∧ (s.purgeDisconnectedClients env).clientSessions.contains client ∧
        ∃ vault x, snapshot = .ok (vault, x) ∧
        (s.captureUnattendedWith env client snapshot).2 =
          (s.purgeDisconnectedClients env).enterVaultSession vault := by
  unfold captureUnattendedWith
  dsimp only
  split
  · exact .inl quiet_purge
  · next h =>
    rw [not_or, not_not, not_not, isAppActive_purge] at h
    split
    · exact .inl quiet_purge
    · next vault x =>
      refine .inr ⟨h.1, h.2, vault, x, rfl, ?_⟩
      split <;> rfl

lemma grantUnattended_cases {context : UnattendedContext} {secrets : List SecretId} {deadline : ℤ}
    {validate : Except LadonError Unit} :
    Quiet env s (s.grantUnattended env context secrets deadline validate).2 ∧
        (∃ e, (s.grantUnattended env context secrets deadline validate).1 = .error e) ∨
      let s₀ := s.purgeDisconnectedClients env
      let s' := (s.grantUnattended env context secrets deadline validate).2
      (s.grantUnattended env context secrets deadline validate).1 = .ok () ∧ s.isAppActive ∧
        s.vaultSessionId = some context.vault ∧ s₀.clientSessions.contains context.client ∧
        s'.grants = s₀.grants.grantUnattendedUntil env.clock context.client secrets deadline ∧
        Quiet env s₀ { s' with grants := s₀.grants } := by
  unfold grantUnattended
  dsimp only
  split
  · exact .inl ⟨quiet_purge, _, rfl⟩
  · split
    · exact .inl ⟨quiet_purge, _, rfl⟩
    · split
      · exact .inl ⟨quiet_purge, _, rfl⟩
      · next h =>
        simp only [not_or, not_not, isAppActive_purge, vaultSessionId_purge] at h
        split
        · exact .inl ⟨quiet_purge, _, rfl⟩
        · refine .inr ⟨rfl, h.1, h.2.1, h.2.2.2.2.1, rfl, ?_⟩
          refine Quiet.of_pending fun p _ => ?_
          split
          · next hcond => exact follows_refuse hcond.2.1 rfl
          · exact .refl

/-! ### Locks -/

/-- Every pending approval is refused. -/
def AllRefused (s : ApprovalState) : Prop := ∀ p, s.pending = some p → p.decision = some .cancel

lemma allRefused_cancelPendingIf : AllRefused (s.cancelPendingIf fun _ => true) := by
  intro p hp
  obtain ⟨q, -, rfl⟩ := Option.map_eq_some_iff.mp hp
  rfl

lemma beginAppLockWithPolicy_cases {preserve : Bool} :
    (∃ e, s.beginAppLockWithPolicy env preserve = (.error e, s)) ∨
      s.isAppActive ∧ ∃ epoch s', checkedAdd s.lockEpoch 1 = some epoch ∧
        s.beginAppLockWithPolicy env preserve = (.ok epoch, s') ∧
        Quiet env { s with lockEpoch := epoch, appAccess := .locking epoch } s' ∧ AllRefused s' ∧
        ∀ c k d, s'.grants.get? c k = some d → preserve ∧ d.isUnattended := by
  unfold beginAppLockWithPolicy nextEpoch
  dsimp only
  split
  · exact .inl ⟨_, rfl⟩
  · next hactive =>
    rw [not_not] at hactive
    cases hepoch : checkedAdd s.lockEpoch 1 with
    | none => exact .inl ⟨_, rfl⟩
    | some epoch =>
      refine .inr ⟨hactive, epoch, _, rfl, rfl, ?_⟩
      cases preserve with
      | true =>
        refine ⟨?_, allRefused_cancelPendingIf, fun c k d h => ⟨rfl, ?_⟩⟩
        · refine Quiet.trans ?_ quiet_prune
          refine (quiet_cancelPendingIf fun _ => true).trans ?_
          exact .of_grants (fun h => (GrantStore.get?_retainUnattended.mp h).1) rfl rfl rfl rfl
        · have := (GrantStore.get?_purgeExpired.mp h).1
          exact (GrantStore.get?_retainUnattended.mp this).2.2
      | false =>
        refine ⟨?_, allRefused_cancelPendingIf, fun c k d h => ?_⟩
        · refine (quiet_cancelPendingIf fun _ => true).trans ?_
          exact .of_grants (fun h => (GrantStore.not_revokeAll h).elim) rfl rfl rfl rfl
        · exact (GrantStore.not_revokeAll h).elim

lemma resetAfterVaultLock_cases :
    (∃ e, s.resetAfterVaultLock = (.error e, s)) ∨
      ∃ epoch s', checkedAdd s.lockEpoch 1 = some epoch ∧ s.resetAfterVaultLock = (.ok (), s') ∧
        Quiet env { s with lockEpoch := epoch, appAccess := .active, vaultSessionId := none } s' ∧
        AllRefused s' ∧ ∀ c k, s'.grants.get? c k = none := by
  unfold resetAfterVaultLock nextEpoch
  cases hepoch : checkedAdd s.lockEpoch 1 with
  | none => exact .inl ⟨_, rfl⟩
  | some epoch =>
    refine .inr ⟨epoch, _, rfl, rfl, ?_, allRefused_cancelPendingIf,
      fun c k => GrantStore.get?_revokeAll⟩
    refine ⟨fun h => ?_, fun h => ?_, fun h => h, fun h => .inl h, rfl, rfl⟩
    · exact (GrantStore.not_revokeAll h).elim
    · exact (@quiet_cancelPendingIf env s fun _ => true).pending h

/-! ### Revocation -/

lemma nextRevision_cases :
    (∃ e, s.nextRevision = .error e) ∨ ∃ revision, checkedAdd s.revision 1 = some revision ∧
      s.nextRevision = .ok { s with revision := revision } := by
  unfold nextRevision
  cases checkedAdd s.revision 1 with
  | none => exact .inl ⟨_, rfl⟩
  | some revision => exact .inr ⟨revision, rfl, rfl⟩

lemma quiet_revision (revision : ℕ) : Quiet env s { s with revision := revision } :=
  .of_grants (fun h => h) rfl rfl rfl rfl

lemma quiet_revokeAll : Quiet env s s.revokeAll.2 := by
  unfold revokeAll
  rcases @nextRevision_cases s with ⟨e, h⟩ | ⟨revision, -, h⟩
  · rw [h]
    exact .refl s
  · rw [h]
    dsimp only
    exact (quiet_revision revision).trans
      (.of_grants (fun h => (GrantStore.not_revokeAll h).elim) rfl rfl rfl rfl)

/-- The pending approval is refused if it passes the test. -/
lemma refused_cancelPendingIf {p : PendingState → Bool} {q : PendingState}
    (hq : (s.cancelPendingIf p).pending = some q) (hp : p q) : Refuses q.decision := by
  obtain ⟨r, -, rfl⟩ := Option.map_eq_some_iff.mp hq
  by_cases hr : p r
  · rw [if_pos hr]
    exact refuses_cancel
  · rw [if_neg hr] at hp
    exact (hr hp).elim

/-- A revoked pair has no grant, and no approval that could make one. -/
lemma revokePair_cases {secret : SecretId} :
    (∃ e, s.revokePair env client secret = (.error e, s)) ∨
      ∃ revision, checkedAdd s.revision 1 = some revision ∧
      Quiet env s (s.revokePair env client secret).2 ∧
      (s.revokePair env client secret).2.grants.get? client secret = none ∧
      ∀ p, (s.revokePair env client secret).2.pending = some p →
        p.request.clientSessionId = client → secret ∈ p.requestedSecretIds →
          Refuses p.decision := by
  unfold revokePair
  rcases @nextRevision_cases s with ⟨e, h⟩ | ⟨revision, hr, h⟩
  · rw [h]
    exact .inl ⟨e, rfl⟩
  · rw [h]
    dsimp only
    refine .inr ⟨revision, hr, ?_, ?_, fun p hp hc hs => ?_⟩
    · refine (quiet_revision revision).trans ((quiet_cancelPendingIf fun p =>
        p.request.clientSessionId = client && p.requestedSecretIds.contains secret).trans
        (Quiet.trans ?_ quiet_prune))
      exact .of_grants (fun h => (GrantStore.get?_revokePair.mp h).1) rfl rfl rfl rfl
    · by_contra hk
      obtain ⟨d, hd⟩ := Option.ne_none_iff_exists'.mp hk
      have := (GrantStore.get?_purgeExpired.mp hd).1
      exact (GrantStore.get?_revokePair.mp this).2.2 ⟨rfl, rfl⟩
    · exact refused_cancelPendingIf hp (by simp [hc, hs])

lemma revokeClient_cases :
    (∃ e, s.revokeClient env client = (.error e, s)) ∨
      ∃ revision, checkedAdd s.revision 1 = some revision ∧
      Quiet env s (s.revokeClient env client).2 ∧ Absent (s.revokeClient env client).2 client := by
  unfold revokeClient
  rcases @nextRevision_cases s with ⟨e, h⟩ | ⟨revision, hr, h⟩
  · rw [h]
    exact .inl ⟨e, rfl⟩
  · rw [h]
    dsimp only
    refine .inr ⟨revision, hr, ?_, fun k => ?_, fun p e hp hc he => ?_⟩
    · refine (quiet_revision revision).trans (Quiet.trans ?_ quiet_prune)
      refine Quiet.trans ?_ (quiet_cancelPendingIf _)
      exact .of_grants (fun h => (GrantStore.get?_revokeClient.mp h).1) rfl rfl rfl rfl
    · by_contra hk
      obtain ⟨d, hd⟩ := Option.ne_none_iff_exists'.mp hk
      have := (GrantStore.get?_purgeExpired.mp hd).1
      exact (GrantStore.get?_revokeClient.mp this).2 rfl
    · obtain ⟨e', he', hr⟩ := refused_cancelPendingIf hp (by simp [hc])
      rw [he] at he'
      cases he'
      exact hr

/-- A secret that is changed has no grant, and no approval that could make one. -/
lemma coordinateSecretMutation_cases {P T : Type} {secret : SecretId}
    {prepare : Except LadonError P} {commit : P → Except LadonError T} :
    (s.coordinateSecretMutation env secret prepare commit).2 = s ∧
        ((∃ e, prepare = .error e) ∨ checkedAdd s.revision 1 = none) ∨
      ∃ prepared revision, prepare = .ok prepared ∧ checkedAdd s.revision 1 = some revision ∧
      (s.coordinateSecretMutation env secret prepare commit).1 = commit prepared ∧
      Quiet env s (s.coordinateSecretMutation env secret prepare commit).2 ∧
      (∀ c, (s.coordinateSecretMutation env secret prepare commit).2.grants.get? c secret = none) ∧
      ∀ p, (s.coordinateSecretMutation env secret prepare commit).2.pending = some p →
        secret ∈ p.requestedSecretIds → Refuses p.decision := by
  unfold coordinateSecretMutation
  cases prepare with
  | error e => exact .inl ⟨rfl, .inl ⟨e, rfl⟩⟩
  | ok prepared =>
    dsimp only
    cases hr : checkedAdd s.revision 1 with
    | none =>
      rw [nextRevision, hr]
      exact .inl ⟨rfl, .inr rfl⟩
    | some revision =>
      rw [nextRevision, hr]
      dsimp only
      refine .inr ⟨prepared, revision, rfl, rfl, rfl, ?_, fun c => ?_, fun p hp hs => ?_⟩
      · refine (quiet_revision revision).trans ((quiet_cancelPendingIf
          (·.requestedSecretIds.contains secret)).trans (Quiet.trans ?_ quiet_prune))
        exact .of_grants (fun h => (GrantStore.get?_revokeSecret.mp h).1) rfl rfl rfl rfl
      · by_contra hk
        obtain ⟨d, hd⟩ := Option.ne_none_iff_exists'.mp hk
        have := (GrantStore.get?_purgeExpired.mp hd).1
        exact (GrantStore.get?_revokeSecret.mp this).2 rfl
      · exact refused_cancelPendingIf hp (by simpa using hs)

/-! ### Using a grant -/

/-- What it means that a client is covered: it is connected, and has an unattended grant that is
alive for each of the secrets; and it has one even where there are no secrets. -/
lemma coversUnattended_spec {client : Uuid} {ids : List SecretId}
    (h : ((s.purgeDisconnectedClients env).coversUnattended env client ids).1 = true) :
    (∃ t, s.clientSessions.get? client = some t ∧ t ∉ env.cancelled) ∧
      (∀ x ∈ ids, ∃ d, s.grants.get? client x = some d ∧ d.remaining env.clock ≠ 0 ∧
        d.isUnattended) ∧
      ∃ k d, s.grants.get? client k = some d ∧ d.isUnattended := by
  rw [coversUnattended] at h
  dsimp only at h
  split at h
  · next hhas =>
    have hquiet : Quiet env (s.purgeDisconnectedClients env)
      ((s.purgeDisconnectedClients env).clientHasUnattended env client).2 := quiet_clientHasUnattended
    have hcovered : ∀ x ∈ ids, ∃ d, s.grants.get? client x = some d ∧ d.remaining env.clock ≠ 0 ∧
        d.isUnattended := by
      intro x hx
      obtain ⟨d, hd, hr, hu⟩ := GrantStore.missingUnattended_eq_nil (List.isEmpty_iff.mp h) hx
      exact ⟨d, (get?_purge.mp (hquiet.grants hd)).1, hr, hu⟩
    rw [clientHasUnattended] at hhas
    split at hhas
    · next hcontains =>
      obtain ⟨t, ht⟩ := Table.contains_eq_true.mp hcontains
      refine ⟨⟨t, clientSessions_purge.mp ht⟩, hcovered, ?_⟩
      have hany : ((s.purgeDisconnectedClients env).grants.purgeExpired env.clock).deadlines.any
          (fun k deadline => k.1 = client && deadline.isUnattended) = true := hhas
      obtain ⟨⟨client', k⟩, d, hd, hc⟩ := Table.any_eq_true.mp hany
      rw [Bool.and_eq_true, decide_eq_true_eq] at hc
      obtain ⟨rfl, hu⟩ := hc
      exact ⟨k, d, quiet_purge.grants (GrantStore.get?_purgeExpired.mp hd).1, hu⟩
    · cases hhas
  · cases h

/-- While the application is not open, an operation runs under a ticket that is covered. -/
lemma covers_of_valid {ticket : GrantTicket} (hs : s.isAppActive = false)
    (h : (s.grantIsValid env ticket).1 = true) :
    ((s.purgeDisconnectedClients env).coversUnattended env ticket.clientSessionId
      ticket.secretIds).1 = true := by
  unfold grantIsValid at h
  dsimp only at h
  split at h
  · cases h
  · next hok =>
    rw [not_or, not_not] at hok
    have haccess := hok.1
    rwa [accessIsValid, isAppActive_purge, hs, if_neg Bool.false_ne_true] at haccess

/-- What is known when an operation runs under a ticket: nobody who has gone is served, the ticket
is of the current session of the vault, every secret of it has a grant that has not expired, and
while the application is not open each of these is unattended and the client connected. -/
lemma grantIsValid_spec {ticket : GrantTicket} (h : (s.grantIsValid env ticket).1 = true) :
    s.vaultSessionId = some ticket.vaultSessionId ∧
      (∀ x ∈ ticket.secretIds, ∃ d, s.grants.get? ticket.clientSessionId x = some d ∧
        d.remaining env.clock ≠ 0 ∧ ¬ Gone env s ticket.clientSessionId) ∧
      (s.isAppActive = false →
        (∃ t, s.clientSessions.get? ticket.clientSessionId = some t ∧ t ∉ env.cancelled) ∧
        ∀ x ∈ ticket.secretIds, ∃ d, s.grants.get? ticket.clientSessionId x = some d ∧
          d.remaining env.clock ≠ 0 ∧ d.isUnattended) := by
  have hcovered : s.isAppActive = false → _ := fun hs => coversUnattended_spec (covers_of_valid hs h)
  unfold grantIsValid at h
  dsimp only at h
  have hquiet : Quiet env (s.purgeDisconnectedClients env)
    ((s.purgeDisconnectedClients env).accessIsValid env ticket).2 := quiet_accessIsValid
  split at h
  · cases h
  · next hok =>
    rw [not_or, not_not, not_not] at hok
    have hvault := hok.2
    rw [hquiet.vault, vaultSessionId_purge] at hvault
    refine ⟨hvault, fun x hx => ?_, fun hs => ⟨(hcovered hs).1, (hcovered hs).2.1⟩⟩
    obtain ⟨d, hd, hr⟩ := GrantStore.missing_eq_nil (List.isEmpty_iff.mp h) hx
    have hpurge := get?_purge.mp (hquiet.grants hd)
    exact ⟨d, hpurge.1, hr, hpurge.2⟩

end ApprovalState

end Ladon.Approval

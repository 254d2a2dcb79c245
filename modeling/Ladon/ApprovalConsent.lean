import Ladon.ApprovalKept
import Ladon.ApprovalLock

/-!
Consent to unattended use: that it is never given on a stale context, and what becomes of the grants
it makes.

A context is captured before the human authenticates, with the revision, the epoch of the lock and
the connection at that time. Everything that must invalidate it moves one of these on for good: the
counters never come back, and the identifier of a connection is never used again.
-/

namespace Ladon.Approval

open Ladon.Error Ladon.Model Ladon.Grants Ladon.Lib Ladon.Lib.Word ApprovalState

/-! ### What invalidates a context -/

/-- The calls that move the revision on. -/
def Call.Revises : Call → Prop
  | .revokeAll | .revokePair _ _ | .revokeClient _ => True
  | .coordinateSecretMutation _ (.ok _) _ => True
  | _ => False

/-- The calls that move the epoch of the lock on, unless they are refused. -/
def Call.Locks : Call → Prop
  | .beginAppLock | .beginAutoAppLock | .resetAfterVaultLock => True
  | _ => False

/-- The occurrence cancels the connection of a client. -/
def Occurrence.Disconnects (o : Occurrence) (client : Uuid) : Prop :=
  ∃ t, o.world.state.clientSessions.get? client = some t ∧
    (o.event = .cancel t ∨ o.event = .call .closeClientSessions)

/-- The occurrence must invalidate what was captured for a client before it. -/
def Occurrence.Invalidates (o : Occurrence) (client : Uuid) : Prop :=
  (∃ call : Call, o.event = .call call ∧ (call.Revises ∨ call.Locks)) ∨ o.Disconnects client

/-- No two connections have the same identifier. -/
def FreshConnections (history : List Occurrence) : Prop :=
  history.Pairwise fun o o' => ∀ c t i c' t', o.event = .call (.registerClientSession c t i) →
    o'.event ≠ .call (.registerClientSession c' t' i)

section Steps

variable {approvalTimeout : Duration} {env : Env} {s : ApprovalState} {call : Call}

lemma revision_lt_of_revises (h : call.Revises) (hmax : s.revision < u64Max) :
    s.revision < (call.after approvalTimeout env s).revision := by
  have hnext : checkedAdd s.revision 1 = some (s.revision + 1) :=
    checkedAdd_eq_some.mpr ⟨rfl, hmax⟩
  cases call with
  | revokeAll =>
    rw [Call.after, ApprovalState.revokeAll, nextRevision, hnext]
    exact Nat.lt_succ_self _
  | revokePair client secret =>
    rw [Call.after, ApprovalState.revokePair, nextRevision, hnext]
    exact Nat.lt_succ_self _
  | revokeClient client =>
    rw [Call.after, ApprovalState.revokeClient, nextRevision, hnext]
    exact Nat.lt_succ_self _
  | coordinateSecretMutation secret prepare commit =>
    cases prepare with
    | error e => exact h.elim
    | ok u =>
      rw [Call.after, ApprovalState.coordinateSecretMutation, nextRevision, hnext]
      exact Nat.lt_succ_self _
  | _ => exact h.elim

lemma lockEpoch_lt_of_locks (h : call.Locks) (hactive : s.isAppActive)
    (hmax : s.lockEpoch < u64Max) :
    s.lockEpoch < (call.after approvalTimeout env s).lockEpoch := by
  have hnext : checkedAdd s.lockEpoch 1 = some (s.lockEpoch + 1) :=
    checkedAdd_eq_some.mpr ⟨rfl, hmax⟩
  have hbegin : ∀ preserve, s.lockEpoch < (s.beginAppLockWithPolicy env preserve).2.lockEpoch := by
    intro preserve
    rw [beginAppLockWithPolicy, if_neg (not_not.mpr hactive), nextEpoch, hnext]
    cases preserve with
    | true => exact Nat.lt_succ_self _
    | false => exact Nat.lt_succ_self _
  cases call with
  | beginAppLock => exact hbegin false
  | beginAutoAppLock => exact hbegin true
  | resetAfterVaultLock =>
    rw [Call.after, ApprovalState.resetAfterVaultLock, nextEpoch, hnext]
    exact Nat.lt_succ_self _
  | _ => exact h.elim

/-- A call that does not lock leaves an open application open. -/
lemma isAppActive_of_not_locks {s' : ApprovalState} (hactive : s.isAppActive) (hl : ¬ call.Locks)
    (h : Change env s call s') : s'.isAppActive := by
  have hopen : s.appAccess = .active := of_decide_eq_true hactive
  have of_access : ∀ {s'' : ApprovalState}, s''.appAccess = s.appAccess → s''.isAppActive := by
    intro s'' h
    rw [isAppActive, h, hopen]
    rfl
  cases h with
  | quiet h => exact of_access h.access
  | entered _ _ h => exact of_access (h.access.trans (by simp))
  | requested _ _ h => exact of_access (h.access.trans (by simp))
  | granted => exact of_access appAccess_purge
  | decided => exact of_access appAccess_purge
  | connected _ _ _ _ _ ha => exact of_access ha
  | captured => exact of_access (by simp)
  | consented _ _ _ _ _ h => exact of_access (h.access.trans appAccess_purge)
  | locked hcall =>
    rw [hcall] at hl
    split at hl <;> exact (hl trivial).elim
  | finished h =>
    rw [hopen] at h
    cases h
  | unlocked => rfl
  | reset => exact (hl trivial).elim

/-- An application that is open stays open under one epoch. -/
lemma isAppActive_after (hactive : s.isAppActive)
    (hepoch : (call.after approvalTimeout env s).lockEpoch = s.lockEpoch) :
    (call.after approvalTimeout env s).isAppActive := by
  by_cases hl : call.Locks
  · by_cases hmax : s.lockEpoch < u64Max
    · exact absurd hepoch (lockEpoch_lt_of_locks hl hactive hmax).ne'
    · -- The epochs are used up: the lock is refused.
      have hnext : s.nextEpoch = .error .invalidRequest := by
        rw [nextEpoch, checkedAdd, if_neg (by omega)]
      cases call with
      | beginAppLock =>
        rw [Call.after, ApprovalState.beginAppLock, beginAppLockWithPolicy,
          if_neg (not_not.mpr hactive), hnext]
        exact hactive
      | beginAutoAppLock =>
        rw [Call.after, ApprovalState.beginAutoAppLock, beginAppLockWithPolicy,
          if_neg (not_not.mpr hactive), hnext]
        exact hactive
      | resetAfterVaultLock =>
        rw [Call.after, ApprovalState.resetAfterVaultLock, hnext]
        exact hactive
      | _ => exact hl.elim
  · exact isAppActive_of_not_locks hactive hl call.change

/-- What is known where a consent is accepted. -/
lemma grantUnattended_ok {context : UnattendedContext} {secrets : List SecretId} {deadline : ℤ}
    {validate : Except LadonError Unit}
    (h : (s.grantUnattended env context secrets deadline validate).1 = .ok ()) :
    s.isAppActive ∧ secrets ≠ [] ∧ validate = .ok () ∧
      env.clock.wallTime < deadline ∧ deadline ≤ env.clock.wallTime + maxUnattended ∧
      s.lockEpoch = context.epoch ∧ s.revision = context.revision ∧
      ∃ t x, s.clientSessions.get? context.client = some t ∧ t ∉ env.cancelled ∧
        s.sessions.get? context.client = some x ∧ x.connectionId = context.connectionId := by
  unfold grantUnattended at h
  dsimp only at h
  split at h
  · cases h
  next remaining hremaining =>
  split at h
  · cases h
  next hlimits =>
  split at h
  · cases h
  next hcontext =>
  split at h
  · cases h
  simp only [not_or, not_not, isAppActive_purge, vaultSessionId_purge, lockEpoch_purge,
    revision_purge] at hcontext hlimits
  obtain ⟨hpos, hmax, hsecrets⟩ := hlimits
  obtain ⟨hactive, -, hepoch, hrevision, hclient, hsession⟩ := hcontext
  have hle : env.clock.wallTime ≤ deadline ∧ remaining = (deadline - env.clock.wallTime).toNat := by
    unfold durationSince at hremaining
    split at hremaining
    · next hle => exact ⟨hle, (Option.some.inj hremaining).symm⟩
    · cases hremaining
  obtain ⟨t, ht⟩ := Table.contains_eq_true.mp hclient
  obtain ⟨ht, hcancelled⟩ := clientSessions_purge.mp ht
  have hx : ∃ x, (s.purgeDisconnectedClients env).sessions.get? context.client = some x ∧
      x.connectionId = context.connectionId := by
    cases hget : (s.purgeDisconnectedClients env).sessions.get? context.client with
    | none => simp [hget] at hsession
    | some x => exact ⟨x, rfl, by simpa [hget] using hsession⟩
  obtain ⟨x, hx, hid⟩ := hx
  obtain ⟨y, hy, hid', -⟩ := sameSessions_purge context.client x hx
  obtain ⟨hle, rfl⟩ := hle
  have hpos : (deadline - env.clock.wallTime).toNat ≠ 0 := hpos
  have hmax : (deadline - env.clock.wallTime).toNat ≤ (maxUnattended : ℕ) := not_lt.mp hmax
  refine ⟨hactive, hsecrets, rfl, by omega, ?_, hepoch, hrevision, t, y, ht, hcancelled, hy,
    hid'.symm.trans hid⟩
  have hbound := Int.ofNat_le.mpr hmax
  rw [Int.toNat_of_nonneg (sub_nonneg.mpr hle)] at hbound
  exact sub_le_iff_le_add'.mp hbound

/-- What is known behind a capture. -/
lemma captureUnattendedWith_ok {T : Type} {client : Uuid} {snapshot : Except LadonError (Uuid × T)}
    {context : UnattendedContext} {x : T}
    (h : (s.captureUnattendedWith env client snapshot).1 = .ok (context, x)) :
    let s' := (s.captureUnattendedWith env client snapshot).2
    context.client = client ∧ s'.isAppActive ∧ context.revision = s'.revision ∧
      context.epoch = s'.lockEpoch ∧ ∃ t y, s'.clientSessions.get? client = some t ∧
        s'.sessions.get? client = some y ∧ y.connectionId = context.connectionId := by
  unfold captureUnattendedWith at h ⊢
  dsimp only at h ⊢
  split_ifs at h ⊢ with hopen
  rw [not_or, not_not, not_not] at hopen
  split at h
  · cases h
  next vault snapshot =>
  split at h
  · cases h
  next session hsession =>
  dsimp only
  rw [hsession]
  cases h
  obtain ⟨t, ht⟩ := Table.contains_eq_true.mp hopen.2
  have hactive : ((s.purgeDisconnectedClients env).enterVaultSession vault).isAppActive := by
    rw [isAppActive, enterVaultSession_access]
    exact hopen.1
  have hclients : ((s.purgeDisconnectedClients env).enterVaultSession vault).clientSessions =
      (s.purgeDisconnectedClients env).clientSessions := by
    unfold enterVaultSession
    split <;> rfl
  exact ⟨rfl, hactive, rfl, rfl, t, session, hclients ▸ ht, rfl, rfl⟩

end Steps

/-! ### A context stays spoiled -/

section Contexts

variable {approvalTimeout : Duration} {context : UnattendedContext} {t : Token}
  {history middle : List Occurrence} {w w' : World} {o : Occurrence}

/-- The session of the context is not there any longer. -/
def Left (context : UnattendedContext) (w : World) : Prop :=
  ∀ x, w.state.sessions.get? context.client = some x → x.connectionId ≠ context.connectionId

/-- Nothing can be granted on the context. -/
def Spoiled (context : UnattendedContext) (t : Token) (w : World) : Prop :=
  context.revision < w.state.revision ∨ context.epoch < w.state.lockEpoch ∨
    t ∈ w.env.cancelled ∨ Left context w

/-- The identifier of the connection is not used again, and the counters can move on. -/
def Good (context : UnattendedContext) (o : Occurrence) : Prop :=
  (∀ c t, o.event ≠ .call (.registerClientSession c t context.connectionId)) ∧
    o.world.state.revision < u64Max ∧ o.world.state.lockEpoch < u64Max

/-- What holds between a capture and its consent. -/
structure ContextInv (context : UnattendedContext) (t : Token) (middle : List Occurrence)
    (w : World) : Prop where
  revision : context.revision ≤ w.state.revision
  epoch : context.epoch ≤ w.state.lockEpoch
  active : w.state.lockEpoch = context.epoch → w.state.isAppActive
  token : ∀ x, w.state.sessions.get? context.client = some x →
    x.connectionId = context.connectionId → w.state.clientSessions.get? context.client = some t
  seen : ∀ o ∈ middle, o.Invalidates context.client → Spoiled context t w

lemma cancelled_mono (hs : Step approvalTimeout w o w') {t : Token} (h : t ∈ w.env.cancelled) :
    t ∈ w'.env.cancelled := by
  cases hs with
  | @mk e _ =>
    cases e with
    | call c =>
      cases c with
      | closeClientSessions => exact List.mem_append_right _ h
      | _ => exact h
    | cancel token => exact List.mem_cons_of_mem _ h
    | advance clock instant => exact h

/-- The counters move on and sessions stay on their connection in every step. -/
lemma Step.steady (hs : Step approvalTimeout w o w') :
    w.state.revision ≤ w'.state.revision ∧ w.state.lockEpoch ≤ w'.state.lockEpoch ∧
      ∀ c x, w'.state.sessions.get? c = some x →
        (∃ t, o.event = .call (.registerClientSession c t x.connectionId)) ∨
        ∃ y, w.state.sessions.get? c = some y ∧ x.connectionId = y.connectionId ∧
          w'.state.clientSessions.get? c = w.state.clientSessions.get? c := by
  cases hs with
  | @mk e _ =>
    cases e with
    | call call =>
      have hleaves := @Call.leaves approvalTimeout w.env w.state call
      refine ⟨hleaves.revision, hleaves.epoch, fun c x hx => ?_⟩
      rcases hleaves.sessions c x hx with hreg | h
      · cases call with
        | registerClientSession c' t i =>
          obtain ⟨rfl, rfl⟩ := hreg
          exact .inl ⟨t, rfl⟩
        | _ => exact hreg.elim
      · exact .inr h
    | cancel token => exact ⟨Nat.le_refl _, Nat.le_refl _, fun c x hx => .inr ⟨x, hx, rfl, rfl⟩⟩
    | advance clock instant =>
      exact ⟨Nat.le_refl _, Nat.le_refl _, fun c x hx => .inr ⟨x, hx, rfl, rfl⟩⟩

lemma Left.step (h : Left context w) (hs : Step approvalTimeout w o w')
    (hreg : ∀ c t, o.event ≠ .call (.registerClientSession c t context.connectionId)) :
    Left context w' := by
  intro x hx hid
  rcases hs.steady.2.2 _ x hx with ⟨t, he⟩ | ⟨y, hy, hid', -⟩
  · rw [hid] at he
    exact hreg _ _ he
  · exact h y hy (hid'.symm.trans hid)

lemma Spoiled.step (h : Spoiled context t w) (hs : Step approvalTimeout w o w')
    (hreg : ∀ c t, o.event ≠ .call (.registerClientSession c t context.connectionId)) :
    Spoiled context t w' := by
  obtain ⟨hr, he, -⟩ := hs.steady
  rcases h with h | h | h | h
  · exact .inl (h.trans_le hr)
  · exact .inr (.inl (h.trans_le he))
  · exact .inr (.inr (.inl (cancelled_mono hs h)))
  · exact .inr (.inr (.inr (h.step hs hreg)))

/-- An occurrence that must invalidate the context does. -/
lemma ContextInv.spoils (h : ContextInv context t middle w) (hs : Step approvalTimeout w o w')
    (hgood : Good context o) (ho : o.Invalidates context.client) : Spoiled context t w' := by
  have hworld : o.world = w := by cases hs; rfl
  obtain ⟨hreg, hrmax, hemax⟩ := hgood
  rw [hworld] at hrmax hemax
  rcases ho with ⟨call, hcall, hkind⟩ | ⟨t', ht', hevent⟩
  · have hstate : w'.state = call.after approvalTimeout w.env w.state := by
      cases hs with
      | @mk e _ =>
        cases hcall
        rfl
    rcases hkind with hrevises | hlocks
    · refine .inl (h.revision.trans_lt ?_)
      rw [hstate]
      exact revision_lt_of_revises hrevises hrmax
    · rcases h.epoch.eq_or_lt with heq | hlt
      · refine .inr (.inl ?_)
        rw [hstate, heq]
        exact lockEpoch_lt_of_locks hlocks (h.active heq.symm) hemax
      · exact .inr (.inl (hlt.trans_le hs.steady.2.1))
  · rw [hworld] at ht'
    by_cases hleft : Left context w
    · exact .inr (.inr (.inr (hleft.step hs hreg)))
    · -- The connection that is cancelled is the one of the context.
      obtain ⟨x, hx, hid⟩ : ∃ x, w.state.sessions.get? context.client = some x ∧
          x.connectionId = context.connectionId := by
        unfold Left at hleft
        push Not at hleft
        exact hleft
      obtain rfl : t' = t := Option.some.inj (ht'.symm.trans (h.token x hx hid))
      refine .inr (.inr (.inl ?_))
      cases hs with
      | @mk e _ =>
        rcases hevent with he | he
        · cases he
          exact List.mem_cons_self
        · cases he
          refine List.mem_append_left _ (List.mem_map.mpr ⟨(context.client, t'), ?_, rfl⟩)
          exact Table.get?_eq_some_iff.mp ht'

lemma ContextInv.step (h : ContextInv context t middle w) (hs : Step approvalTimeout w o w')
    (hgood : Good context o) : ContextInv context t (middle ++ [o]) w' := by
  obtain ⟨hr, he, hsessions⟩ := hs.steady
  refine ⟨h.revision.trans hr, h.epoch.trans he, fun hepoch => ?_, fun x hx hid => ?_,
    fun o' ho' hinv => ?_⟩
  · have hsame : w.state.lockEpoch = context.epoch :=
      Nat.le_antisymm (hepoch ▸ he) h.epoch
    cases hs with
    | @mk e _ =>
      cases e with
      | call call => exact isAppActive_after (h.active hsame) (hepoch.trans hsame.symm)
      | cancel token => exact h.active hsame
      | advance clock instant => exact h.active hsame
  · rcases hsessions _ x hx with ⟨t', hev⟩ | ⟨y, hy, hid', htoken⟩
    · rw [hid] at hev
      exact (hgood.1 _ _ hev).elim
    · rw [htoken]
      exact h.token y hy (hid'.symm.trans hid)
  · rcases List.mem_append.mp ho' with ho' | ho'
    · exact (h.seen o' ho' hinv).step hs hgood.1
    · rw [List.mem_singleton.mp ho'] at hinv
      exact h.spoils hs hgood hinv

/-! ### Consents -/

/-- The occurrence captures the context. -/
def Occurrence.YieldsContext (o : Occurrence) (context : UnattendedContext) : Prop :=
  ∃ client snapshot, o.event = .call (.captureUnattended client snapshot) ∧
    (o.world.state.captureUnattendedWith o.world.env client
      (snapshot.map fun vault => (vault, ()))).1 = .ok (context, ())

/-- The occurrence is an accepted consent on the context. -/
def Occurrence.Accepts (o : Occurrence) (context : UnattendedContext) (secrets : List SecretId)
    (deadline : ℤ) (validate : Except LadonError Unit) : Prop :=
  o.event = .call (.grantUnattended context secrets deadline validate) ∧
    (o.world.state.grantUnattended o.world.env context secrets deadline validate).1 = .ok ()

lemma Step.world_eq (hs : Step approvalTimeout w o w') : o.world = w := by
  cases hs
  rfl

/-- Every session was registered on its connection. -/
lemma registered_of_run {grantLifetime : Duration} {env : Env}
    (hrun : Run (Step approvalTimeout) (.initial env grantLifetime) history w) :
    ∀ c x, w.state.sessions.get? c = some x →
      ∃ o ∈ history, ∃ t, o.event = .call (.registerClientSession c t x.connectionId) := by
  refine hrun.history_invariant (I := fun history w => ∀ c x, w.state.sessions.get? c = some x →
    ∃ o ∈ history, ∃ t, o.event = .call (.registerClientSession c t x.connectionId))
    (fun _ _ h => (nomatch h)) ?_
  intro history w o w' h hs c x hx
  rcases hs.steady.2.2 c x hx with ⟨t, he⟩ | ⟨y, hy, hid, -⟩
  · exact ⟨o, List.mem_append_right _ List.mem_cons_self, t, he⟩
  · obtain ⟨o', ho', t, he⟩ := h c y hy
    rw [hid]
    exact ⟨o', List.mem_append_left _ ho', t, he⟩

/-- A context that was just captured, on a connection that was there before. -/
lemma contextInv_of_yieldsContext (hs : Step approvalTimeout w o w') (hcapture : o.YieldsContext context) :
    ∃ t, ContextInv context t [] w' ∧
      ∃ x, w.state.sessions.get? context.client = some x ∧
        x.connectionId = context.connectionId := by
  obtain ⟨client, snapshot, hevent, hok⟩ := hcapture
  cases hs with
  | @mk e _ =>
    cases hevent
    obtain ⟨rfl, hactive, hr, he, t, y, ht, hy, hid⟩ := captureUnattendedWith_ok hok
    refine ⟨t, ⟨hr.le, he.le, fun _ => hactive, fun _ _ _ => ht, fun _ ho => (nomatch ho)⟩, ?_⟩
    have hleaves := @Call.leaves approvalTimeout w.env w.state
      (.captureUnattended context.client snapshot)
    rcases hleaves.sessions _ y hy with hreg | ⟨x, hx, hid', -⟩
    · exact hreg.elim
    · exact ⟨x, hx, hid'.symm.trans hid⟩

/-- **No consent on a stale context.** If a consent to unattended use is accepted, then since its
context was captured nothing was revoked, no secret was changed, the application was not locked, the
vault not reset, and the client was connected all the time; and it is accepted only while the
application is open, for some secrets, after validation, and for a day at most. -/
theorem consent_fresh (grantLifetime : Duration) (env : Env) (before middle : List Occurrence)
    (capture consent : Occurrence) (w : World)
    (hrun : Run (Step approvalTimeout) (.initial env grantLifetime)
      (before ++ capture :: (middle ++ [consent])) w)
    (context : UnattendedContext) (hcapture : capture.YieldsContext context)
    (secrets : List SecretId) (deadline : ℤ) (validate : Except LadonError Unit)
    (haccept : consent.Accepts context secrets deadline validate)
    (hfresh : FreshConnections (before ++ capture :: middle))
    (hcounters : ∀ o ∈ middle,
      o.world.state.revision < u64Max ∧ o.world.state.lockEpoch < u64Max) :
    (∀ o ∈ middle, ¬ o.Invalidates context.client) ∧ consent.world.state.isAppActive ∧
      secrets ≠ [] ∧ validate = .ok () ∧ consent.world.env.clock.wallTime < deadline ∧
      deadline ≤ consent.world.env.clock.wallTime + maxUnattended := by
  obtain ⟨w₁, hbefore, hrest⟩ := hrun.split
  obtain ⟨w₂, hcap, hrest⟩ := hrest.cons_inv
  obtain ⟨w₃, hmiddle, hlast⟩ := hrest.snoc_inv
  obtain ⟨t, hinv, x, hx, hid⟩ := contextInv_of_yieldsContext hcap hcapture
  obtain ⟨o₀, ho₀, t₀, he₀⟩ := registered_of_run hbefore _ x hx
  rw [hid] at he₀
  have hgood : ∀ o ∈ middle, Good context o := by
    intro o ho
    refine ⟨fun c t' he => ?_, hcounters o ho⟩
    exact (List.pairwise_append.mp hfresh).2.2 o₀ ho₀ o (List.mem_cons_of_mem _ ho) _ _ _ _ _ he₀ he
  have hfinal : ContextInv context t middle w₃ := by
    refine hmiddle.history_invariant (I := fun as w => (∀ o ∈ as, Good context o) →
      ContextInv context t as w) (fun _ => hinv) ?_ hgood
    intro as w o w' h hs has
    exact (h fun o' ho' => has o' (List.mem_append_left _ ho')).step hs
      (has o (List.mem_append_right _ List.mem_cons_self))
  obtain ⟨-, hok⟩ := haccept
  rw [hlast.world_eq] at hok ⊢
  obtain ⟨hactive, hsecrets, hvalidate, hlt, hle, hepoch, hrevision, t', y, ht', hcancelled, hy,
    hid'⟩ := grantUnattended_ok hok
  refine ⟨fun o ho hspoils => ?_, hactive, hsecrets, hvalidate, hlt, hle⟩
  obtain rfl : t' = t := Option.some.inj (ht'.symm.trans (hfinal.token y hy hid'))
  rcases hfinal.seen o ho hspoils with h | h | h | h
  · exact h.ne hrevision.symm
  · exact h.ne hepoch.symm
  · exact hcancelled h
  · exact h y hy hid'

end Contexts

section Evening

/-- A context is captured, the grants are looked at, and the consent is given. -/
def eveningEvents : List Event :=
  [.call (.registerClientSession nightClient 0 nightClient),
    .call (.captureUnattended nightClient (.ok nightVault)),
    .call .activeGrants,
    .call (.grantUnattended nightContext [nightSecret] (3600 * 10 ^ 9) (.ok ()))]

/-- The world before each of them. -/
def eveningWorld (n : ℕ) : World := nightStart.play 0 (eveningEvents.take n)

theorem consent_fresh_evening :
    ((eveningWorld 3).state.grantUnattended (eveningWorld 3).env nightContext [nightSecret]
      (3600 * 10 ^ 9) (.ok ())).1 = .ok () ∧
    ¬ Occurrence.Invalidates ⟨eveningWorld 2, .call .activeGrants⟩ nightClient := by
  have hok : ((eveningWorld 3).state.grantUnattended (eveningWorld 3).env nightContext
      [nightSecret] (3600 * 10 ^ 9) (.ok ())).1 = .ok () := by decide +kernel
  have hrun : Run (Step 0) nightStart
      ([⟨eveningWorld 0, .call (.registerClientSession nightClient 0 nightClient)⟩] ++
        ⟨eveningWorld 1, .call (.captureUnattended nightClient (.ok nightVault))⟩ ::
        ([⟨eveningWorld 2, .call .activeGrants⟩] ++ [⟨eveningWorld 3,
          .call (.grantUnattended nightContext [nightSecret] (3600 * 10 ^ 9) (.ok ()))⟩]))
      (nightStart.play 0 eveningEvents) := @run_play 0 nightStart eveningEvents (by decide +kernel)
  have hcapture : Occurrence.YieldsContext
      ⟨eveningWorld 1, .call (.captureUnattended nightClient (.ok nightVault))⟩ nightContext :=
    ⟨nightClient, .ok nightVault, rfl, by decide +kernel⟩
  refine ⟨hok, (consent_fresh _ _ _ _ _ _ _ hrun nightContext hcapture [nightSecret] (3600 * 10 ^ 9)
    (.ok ()) ⟨rfl, hok⟩ ?_ ?_).1 _ List.mem_cons_self⟩
  · refine List.Pairwise.cons (fun o ho => ?_) (List.Pairwise.cons (fun o ho => ?_)
      (List.pairwise_singleton _ _))
    · rcases List.mem_cons.mp ho with rfl | ho
      · exact fun _ _ _ _ _ _ h => (nomatch h)
      · rw [List.mem_singleton.mp ho]
        exact fun _ _ _ _ _ _ h => (nomatch h)
    · exact fun _ _ _ _ _ h => (nomatch h)
  · intro o ho
    rw [List.mem_singleton.mp ho]
    decide +kernel

end Evening

end Ladon.Approval

import Ladon.Broker

/-!
What a step of the broker can do.

The steps of a thread that serves a run request are sorted into a dozen moves, those of a lock into
one for each stage; and of every event it is said which call of the approval coordinator it makes.
-/

namespace Ladon.Broker

open Ladon.Error Ladon.Model Ladon.Runner Ladon.Approval Ladon.Grants Ladon.Controller Ladon.Lib
  Ladon.Approval.ApprovalState

/-! ### What a check finds -/

/-- What a check of `with_valid_grant` that passed leaves behind. -/
structure Checked (env : Env) (ticket : GrantTicket) (s : ApprovalState) : Prop where
  vault : s.vaultSessionId = some ticket.vaultSessionId
  connected : s.isAppActive = false →
    ∃ t, s.clientSessions.get? ticket.clientSessionId = some t ∧ t ∉ env.cancelled
  unattended : s.isAppActive = false → ∀ x ∈ ticket.secretIds,
    ∃ d, s.grants.get? ticket.clientSessionId x = some d ∧ d.remaining env.clock ≠ 0 ∧ d.isUnattended

section Checks

variable {env : Env} {s : ApprovalState} {ticket : GrantTicket} {c : Uuid} {k : SecretId}
  {d : GrantDeadline}

lemma coversUnattended_grants {secrets : List SecretId}
    (h : s.grants.get? c k = some d) (hr : d.remaining env.clock ≠ 0) {client : Uuid} :
    (s.coversUnattended env client secrets).2.grants.get? c k = some d := by
  have hkeep : ∀ {g : GrantStore}, g.get? c k = some d → (g.purgeExpired env.clock).get? c k = some d :=
    fun hg => GrantStore.get?_purgeExpired.mpr ⟨hg, hr⟩
  have hhas : (s.clientHasUnattended env client).2.grants.get? c k = some d := by
    unfold clientHasUnattended
    split
    · exact hkeep h
    · exact h
  unfold coversUnattended
  dsimp only
  split
  · exact hkeep hhas
  · exact hhas

lemma coversUnattended_sessions {client : Uuid} {secrets : List SecretId} :
    (s.coversUnattended env client secrets).2.clientSessions = s.clientSessions := by
  have hhas : (s.clientHasUnattended env client).2.clientSessions = s.clientSessions := by
    unfold clientHasUnattended
    split <;> rfl
  unfold coversUnattended
  dsimp only
  split <;> exact hhas

/-- A check keeps the grants that are alive. -/
lemma grantIsValid_grants (h : s.grants.get? c k = some d) (hr : d.remaining env.clock ≠ 0)
    (hgone : ¬ Gone env s c) : (s.grantIsValid env ticket).2.grants.get? c k = some d := by
  have hpurge : (s.purgeDisconnectedClients env).grants.get? c k = some d := get?_purge.mpr ⟨h, hgone⟩
  have haccess : ((s.purgeDisconnectedClients env).accessIsValid env ticket).2.grants.get? c k =
      some d := by
    unfold accessIsValid
    split
    · exact hpurge
    · exact coversUnattended_grants hpurge hr
  unfold grantIsValid
  dsimp only
  split
  · exact haccess
  · exact GrantStore.get?_purgeExpired.mpr ⟨haccess, hr⟩

lemma grantIsValid_sessions {t : Token} (h : s.clientSessions.get? c = some t)
    (ht : t ∉ env.cancelled) : (s.grantIsValid env ticket).2.clientSessions.get? c = some t := by
  have hpurge : (s.purgeDisconnectedClients env).clientSessions.get? c = some t :=
    clientSessions_purge.mpr ⟨h, ht⟩
  have haccess : ((s.purgeDisconnectedClients env).accessIsValid env ticket).2.clientSessions.get? c =
      some t := by
    unfold accessIsValid
    split
    · exact hpurge
    · rw [coversUnattended_sessions]
      exact hpurge
  unfold grantIsValid
  dsimp only
  split <;> exact haccess

lemma checked_of_valid (h : (s.grantIsValid env ticket).1 = true) :
    Checked env ticket (s.grantIsValid env ticket).2 := by
  obtain ⟨hvault, hgrants, hinactive⟩ := grantIsValid_spec h
  have hquiet : Quiet env s (s.grantIsValid env ticket).2 := quiet_grantIsValid
  have hactive : (s.grantIsValid env ticket).2.isAppActive = s.isAppActive := by
    rw [isAppActive, isAppActive, hquiet.access]
  refine ⟨hquiet.vault.trans hvault, fun hn => ?_, fun hn x hx => ?_⟩
  · obtain ⟨t, ht, hc⟩ := (hinactive (hactive ▸ hn)).1
    exact ⟨t, grantIsValid_sessions ht hc, hc⟩
  · obtain ⟨d, hd, hr, hu⟩ := (hinactive (hactive ▸ hn)).2 x hx
    obtain ⟨-, -, -, hgone⟩ := hgrants x hx
    exact ⟨d, grantIsValid_grants hd hr hgone, hr, hu⟩

end Checks

/-! ### Stages -/

namespace RunStage

def plan? : RunStage → Option ApprovalPlan
  | .planned plan | .prepared plan | .waiting plan _ | .ticketed plan _ | .resolving plan _ _
  | .resolved plan _ | .spawning plan _ _ | .running plan => some plan
  | _ => none

/-- The ticket a thread has, or waits for. -/
def ticket? : RunStage → Option GrantTicket
  | .waiting _ w => some w.ticket
  | .ticketed _ ticket | .resolving _ ticket _ | .resolved _ ticket | .spawning _ ticket _ =>
    some ticket
  | _ => none

/-- The ticket that was checked, with what the check read, while the approval coordinator is held. -/
def held? : RunStage → Option (GrantTicket × Env)
  | .resolving _ ticket checked | .spawning _ ticket checked => some (ticket, checked)
  | _ => none

def leased : RunStage → Bool
  | .requested | .refused | .ended => false
  | _ => true

/-- The plan whose secrets the run coordinator knows. -/
def context? : RunStage → Option ApprovalPlan
  | .planned _ => none
  | s => s.plan?

/-- A thread that has seen plaintext, or whose child has. -/
def exposed : RunStage → Bool
  | .resolved _ _ | .spawning _ _ _ | .running _ => true
  | _ => false

/-- The plan of a run that has not resolved it yet. -/
def unresolved? : RunStage → Option ApprovalPlan
  | .planned plan | .prepared plan | .waiting plan _ | .ticketed plan _ | .resolving plan _ _ =>
    some plan
  | _ => none

/-- The run has asked for approval. -/
def asked : RunStage → Bool
  | .waiting _ _ | .ticketed _ _ | .resolving _ _ _ => true
  | _ => false

/-- No plan, ticket or lease that was not there. -/
structure Weaker (s' s : RunStage) : Prop where
  plan : ∀ p, s'.plan? = some p → s.plan? = some p
  ticket : ∀ k, s'.ticket? = some k → s.ticket? = some k
  context : ∀ p, s'.context? = some p → s.context? = some p
  held : s'.held? = none
  leased : s'.leased → s.leased
  unresolved : ∀ p, s'.unresolved? = some p → s.unresolved? = some p ∧ (s.asked → s'.asked)

/-- And no plaintext. -/
structure Milder (s' s : RunStage) : Prop extends s'.Weaker s where
  exposed : s'.exposed → s.exposed

lemma milder_failed {s : RunStage} {e : LadonError} (h : s.leased) : (RunStage.failed e).Milder s :=
  ⟨⟨fun _ h => (nomatch h), fun _ h => (nomatch h), fun _ h => (nomatch h), rfl, fun _ => h,
    fun _ h => (nomatch h)⟩, fun h => (nomatch h)⟩

/-- A stage of its own, without a plan. -/
lemma milder_of_plain {s s' : RunStage} (hp : s'.plan? = none) (ht : s'.ticket? = none)
    (hl : s'.leased → s.leased) : s'.Milder s := by
  refine ⟨⟨?_, ?_, ?_, ?_, hl, ?_⟩, ?_⟩
  · simp [hp]
  · simp [ht]
  · cases s' <;> simp_all [plan?, context?]
  · cases s' <;> simp_all [plan?, held?]
  · cases s' <;> simp_all [plan?, unresolved?]
  · cases s' <;> simp_all [plan?, exposed]

lemma milder_self {s : RunStage} (h : s.held? = none) : s.Milder s :=
  ⟨⟨fun _ h => h, fun _ h => h, fun _ h => h, h, fun h => h, fun _ h => ⟨h, fun h => h⟩⟩, fun h => h⟩

end RunStage

lemma stageOf_cases {α : Type} {result : Except LadonError α} {next : α → RunStage} :
    (∃ e, State.stageOf result next = .failed e) ∨
      ∃ a, result = .ok a ∧ State.stageOf result next = next a := by
  cases result with
  | error e => exact .inl ⟨e, rfl⟩
  | ok a => exact .inr ⟨a, rfl, rfl⟩

/-- A result that leads on or to a failure. -/
lemma milder_stageOf {α : Type} {s : RunStage} {result : Except LadonError α} {next : α → RunStage}
    (hl : s.leased) (hnext : ∀ a, (next a).Milder s) : (State.stageOf result next).Milder s := by
  cases result with
  | error e => exact RunStage.milder_failed hl
  | ok a => exact hnext a

lemma tryStart_cases {runs : RunCoordinator} {token : Token} {client : Uuid} :
    runs.tryStart token client = (.error .busy, runs) ∨
      runs.active = none ∧ runs.blockNew = false ∧ runs.tryStart token client =
        (.ok (), { runs with active := some ⟨token, client, none, false⟩ }) := by
  unfold RunCoordinator.tryStart
  split
  · exact .inl rfl
  · next h =>
    rw [not_or, Bool.not_eq_true, Bool.not_eq_true, Option.isSome_eq_false_iff,
      Option.isNone_iff_eq_none] at h
    exact .inr ⟨h.2, h.1, rfl⟩

lemma setSecretContext_cases {runs : RunCoordinator} {ids : List SecretId} :
    (∃ e, runs.setSecretContext ids = (.error e, runs)) ∨
      ∃ a, runs.active = some a ∧ a.secretIds = none ∧ runs.setSecretContext ids =
        (.ok (), { runs with active := some { a with secretIds := some ids } }) := by
  unfold RunCoordinator.setSecretContext
  split
  · exact .inl ⟨_, rfl⟩
  · next a ha =>
    split
    · exact .inl ⟨_, rfl⟩
    · next hnone => exact .inr ⟨a, ha, by simpa using hnone, rfl⟩

lemma poll_ticket {env : Env} {s : ApprovalState} {w : Waiting} {ticket : GrantTicket}
    (h : (s.poll env w).1 = some (.ok ticket)) : ticket = w.ticket := by
  have htake : ∀ {request : PendingApproval} {s : ApprovalState} {d : ApprovalDecision},
      (takeUp env w.ticket request s d).1 = .ok ticket → ticket = w.ticket := by
    intro request s d h
    cases d with
    | approve lifetime => cases h; rfl
    | approveUntil deadline => cases h; rfl
    | approveSession =>
      rw [takeUp] at h
      split at h
      · cases h
      · cases h; rfl
    | granted =>
      rw [takeUp] at h
      dsimp only at h
      split at h
      · cases h; rfl
      · cases h
    | deny => cases h
    | cancel => cases h
  unfold poll at h
  dsimp only at h
  split at h
  · cases h
  · split at h
    · exact htake (Option.some.inj h)
    · split at h <;> cases h

section Machine

variable [UnicodeNormalization] {approvalTimeout : Duration}

/-! ### What a step of a thread can do -/

/-- A ticket that is what a client asked for. -/
structure AskedFor (client : Uuid) (plan : ApprovalPlan) (ticket : GrantTicket) : Prop where
  vault : ticket.vaultSessionId = plan.vaultSessionId
  client : ticket.clientSessionId = client
  secrets : ∀ k ∈ plan.secrets.map ApprovalSecret.id, k ∈ ticket.secretIds

lemma authorize_asked {env : Env} {s : ApprovalState} {t : RunThread} {plan : ApprovalPlan}
    {id : Uuid} {token : Token} :
    (∀ ticket, (s.authorize approvalTimeout env (State.request t plan id) token).1 =
      .done (.ok ticket) → AskedFor t.client plan ticket) ∧
    ∀ w, (s.authorize approvalTimeout env (State.request t plan id) token).1 = .waiting w →
      AskedFor t.client plan w.ticket := by
  unfold authorize
  dsimp only
  split
  · split
    · exact ⟨fun _ h => (nomatch h), fun _ h => (nomatch h)⟩
    · split
      · refine ⟨fun _ h => ?_, fun _ h => (nomatch h)⟩
        cases h
        exact ⟨rfl, rfl, fun k hk => hk⟩
      · exact ⟨fun _ h => (nomatch h), fun _ h => (nomatch h)⟩
  · split
    · exact ⟨fun _ h => (nomatch h), fun _ h => (nomatch h)⟩
    · split
      · refine ⟨fun _ h => ?_, fun _ h => (nomatch h)⟩
        cases h
        exact ⟨rfl, rfl, fun k hk => List.mem_eraseDups.mpr hk⟩
      · refine ⟨fun _ h => (nomatch h), fun _ h => ?_⟩
        cases h
        exact ⟨rfl, rfl, fun k hk => List.mem_eraseDups.mpr hk⟩

/-- The calls of a thread but for `authorize`. -/
def isRunCall : Call → Bool
  | .requireClientAccess _ | .observeRun _ _ _ | .poll _ | .withValidGrant _ => true
  | _ => false

/-- What a step of a thread can do. -/
inductive Move (approvalTimeout : Duration) (b : State) (r : ℕ) (t : RunThread) : State → Prop
  | start (stage : t.stage = .requested) (idle : b.runs.active = none)
      (unblocked : b.runs.blockNew = false) :
      Move approvalTimeout b r t ({ b with
        runs := { b.runs with active := some ⟨t.cancellation, t.client, none, false⟩ } }.setThread r t
          .reserved)
  | milder {s' : RunStage} (h : s'.Milder t.stage) (unheld : t.stage.held? = none) :
      Move approvalTimeout b r t (b.setThread r t s')
  | call {call : Call} {s' : RunStage} (free : b.holder = none) (h : s'.Milder t.stage)
      (unheld : t.stage.held? = none) (kind : isRunCall call) :
      Move approvalTimeout b r t (b.callFor approvalTimeout r t call s')
  | plan {plan : ApprovalPlan} (stage : t.stage = .observed)
      (h : b.controller.approvalPlan t.request.bindings = .ok plan) :
      Move approvalTimeout b r t (b.setThread r t (.planned plan))
  | context {a : ActiveRun} {ids : List SecretId} {s' : RunStage} (active : b.runs.active = some a)
      (stage : t.stage = .observed ∧ s' = .plain ∨
        ∃ plan, t.stage = .planned plan ∧ s' = .prepared plan ∧ ids = plan.bindingSecretIds) :
      Move approvalTimeout b r t ({ b with
        runs := { b.runs with active := some { a with secretIds := some ids } } }.setThread r t s')
  | authorize {plan : ApprovalPlan} {approvalId : Uuid} {s' : RunStage} (free : b.holder = none)
      (stage : t.stage = .prepared plan)
      (next : (∃ e, s' = .failed e) ∨ (∃ w, s' = .waiting plan w ∧ AskedFor t.client plan w.ticket) ∨
        ∃ k, s' = .ticketed plan k ∧ AskedFor t.client plan k) :
      Move approvalTimeout b r t (b.callFor approvalTimeout r t
        (.authorize (State.request t plan approvalId) t.cancellation) s')
  | check {plan : ApprovalPlan} {ticket : GrantTicket} {s' : RunStage} (free : b.holder = none)
      (valid : (b.approval.grantIsValid b.env ticket).1 = true)
      (stage : t.stage = .ticketed plan ticket ∧ s' = .resolving plan ticket b.env ∨
        t.stage = .resolved plan ticket ∧ s' = .spawning plan ticket b.env) :
      Move approvalTimeout b r t { b.callFor approvalTimeout r t (.withValidGrant ticket) s' with
        holder := some (.run r) }
  | resolve {amb : Ambient} {plan : ApprovalPlan} {ticket : GrantTicket} {checked : Env}
      {s' : RunStage} (stage : t.stage = .resolving plan ticket checked)
      (next : (∃ e, s' = .failed e) ∨ s' = .resolved plan ticket ∧
        ∃ values, (b.controller.resolveBindingsForIds amb t.request.bindings
          plan.bindingSecretIds).1 = .ok values) :
      Move approvalTimeout b r t ({ b with
        controller := (b.controller.resolveBindingsForIds amb t.request.bindings
          plan.bindingSecretIds).2
        holder := none }.setThread r t s')
  | spawn {launched : Except LadonError Unit} {plan : ApprovalPlan} {ticket : GrantTicket}
      {checked : Env} {s' : RunStage} (stage : t.stage = .spawning plan ticket checked)
      (next : (∃ e, s' = .failed e) ∨ s' = .running plan) :
      Move approvalTimeout b r t ({ b with
        runs := (b.runs.spawnChild b.env.cancelled launched).2, holder := none }.setThread r t s')
  | plainResolve {amb : Ambient} {s' : RunStage} (h : s'.Milder t.stage)
      (unheld : t.stage.held? = none) :
      Move approvalTimeout b r t ({ b with
        controller := (b.controller.resolveBindings amb t.request.bindings).2 }.setThread r t s')
  | plainSpawn {launched : Except LadonError Unit} {s' : RunStage} (leased : t.stage.leased)
      (h : s'.Milder t.stage) (unheld : t.stage.held? = none) :
      Move approvalTimeout b r t ({ b with
        runs := (b.runs.spawnChild b.env.cancelled launched).2 }.setThread r t s')
  | drop (stage : t.stage.leased) (unheld : t.stage.held? = none) :
      Move approvalTimeout b r t ({ b with runs := b.runs.dropLease }.setThread r t .ended)

/-- Waiting is over, or goes on. -/
lemma milder_poll {b : State} {plan : ApprovalPlan} {w : Waiting} :
    (match (b.approval.poll b.env w).1 with
      | none => RunStage.waiting plan w
      | some result => State.stageOf result (.ticketed plan)).Milder (.waiting plan w) := by
  cases hpoll : (b.approval.poll b.env w).1 with
  | none => exact RunStage.milder_self rfl
  | some result =>
    cases result with
    | error e => exact RunStage.milder_failed rfl
    | ok ticket =>
      rw [poll_ticket hpoll]
      exact ⟨⟨fun _ h => h, fun _ h => h, fun _ h => h, rfl, fun _ => rfl, fun _ h => ⟨h, fun _ => rfl⟩⟩,
        fun h => (nomatch h)⟩

/-- A check that does not pass. -/
lemma callFor_of_invalid {b : State} {r : ℕ} {t : RunThread} {ticket : GrantTicket}
    {next : RunStage} (hfree : b.holder = none) (h : ¬ (b.approval.grantIsValid b.env ticket).1) :
    b.check approvalTimeout r t ticket next =
      b.callFor approvalTimeout r t (.withValidGrant ticket) (.failed .approvalCancelled) := by
  rw [State.check, State.checkStage, if_neg h, if_neg h, ← hfree]
  rfl

lemma callFor_of_valid {b : State} {r : ℕ} {t : RunThread} {ticket : GrantTicket}
    {next : RunStage} (h : (b.approval.grantIsValid b.env ticket).1) :
    b.check approvalTimeout r t ticket next =
      { b.callFor approvalTimeout r t (.withValidGrant ticket) next with holder := some (.run r) } := by
  rw [State.check, State.checkStage, if_pos h, if_pos h]

/-- A step that needs the approval coordinator. -/
lemma of_free {b b' x : State} (h : (if b.holder.isSome then none else some x) = some b') :
    b.holder = none ∧ b' = x := by
  split at h
  · cases h
  · next hfree =>
    cases h
    rw [Bool.not_eq_true, Option.isSome_eq_false_iff, Option.isNone_iff_eq_none] at hfree
    exact ⟨hfree, rfl⟩

/-- **Every step of a thread is one of the moves.** -/
theorem stepRun_move {b b' : State} {r : ℕ} {c : Choice}
    (h : b.stepRun approvalTimeout r c = some b') :
    ∃ t, b.threads r = some t ∧ Move approvalTimeout b r t b' := by
  unfold State.stepRun at h
  split at h
  · cases h
  · next t ht =>
    refine ⟨t, ht, ?_⟩
    cases hs : t.stage with
    | requested =>
      rw [hs] at h
      rcases @tryStart_cases b.runs t.cancellation t.client with hstart | ⟨hidle, hblock, hstart⟩
      · rw [hstart] at h
        cases h
        refine .milder ?_ (by rw [hs]; rfl)
        exact RunStage.milder_of_plain rfl rfl (fun h => (nomatch h))
      · rw [hstart] at h
        cases h
        exact .start hs hidle hblock
    | reserved =>
      rw [hs] at h
      obtain ⟨hfree, rfl⟩ := of_free h
      refine .call hfree ?_ (by rw [hs]; rfl) rfl
      rw [hs]
      exact milder_stageOf rfl fun _ => RunStage.milder_of_plain rfl rfl fun _ => rfl
    | admitted =>
      rw [hs] at h
      obtain ⟨hfree, rfl⟩ := of_free h
      refine .call hfree ?_ (by rw [hs]; rfl) rfl
      rw [hs]
      exact RunStage.milder_of_plain rfl rfl fun _ => rfl
    | observed =>
      rw [hs] at h
      dsimp only at h
      split at h
      · rcases @setSecretContext_cases b.runs [] with ⟨e, hc⟩ | ⟨a, ha, -, hc⟩
        · rw [hc] at h
          cases h
          refine .milder ?_ (by rw [hs]; rfl)
          rw [hs]
          exact RunStage.milder_failed rfl
        · rw [hc] at h
          cases h
          exact .context ha (.inl ⟨hs, rfl⟩)
      · cases h
        cases hplan : b.controller.approvalPlan t.request.bindings with
        | error e =>
          refine .milder ?_ (by rw [hs]; rfl)
          rw [hs]
          exact RunStage.milder_failed rfl
        | ok plan => exact .plan hs hplan
    | planned plan =>
      rw [hs] at h
      dsimp only at h
      rcases @setSecretContext_cases b.runs plan.bindingSecretIds with ⟨e, hc⟩ | ⟨a, ha, -, hc⟩
      · rw [hc] at h
        cases h
        refine .milder ?_ (by rw [hs]; rfl)
        rw [hs]
        exact RunStage.milder_failed rfl
      · rw [hc] at h
        cases h
        exact .context ha (.inr ⟨plan, hs, rfl, rfl⟩)
    | prepared plan =>
      rw [hs] at h
      obtain ⟨hfree, rfl⟩ := of_free h
      obtain ⟨hdone, hwaiting⟩ := @authorize_asked _ approvalTimeout b.env b.approval t plan
        c.approvalId t.cancellation
      refine .authorize hfree hs ?_
      cases ha : (b.approval.authorize approvalTimeout b.env (State.request t plan c.approvalId)
          t.cancellation).1 with
      | done result =>
        cases result with
        | error e => exact .inl ⟨e, rfl⟩
        | ok ticket => exact .inr (.inr ⟨ticket, rfl, hdone ticket ha⟩)
      | waiting w => exact .inr (.inl ⟨w, rfl, hwaiting w ha⟩)
    | waiting plan w =>
      rw [hs] at h
      obtain ⟨hfree, rfl⟩ := of_free h
      refine .call hfree ?_ (by rw [hs]; rfl) rfl
      rw [hs]
      exact milder_poll
    | ticketed plan ticket =>
      rw [hs] at h
      obtain ⟨hfree, rfl⟩ := of_free h
      by_cases hv : (b.approval.grantIsValid b.env ticket).1
      · rw [callFor_of_valid hv]
        exact .check hfree hv (.inl ⟨hs, rfl⟩)
      · rw [callFor_of_invalid hfree hv]
        refine .call hfree ?_ (by rw [hs]; rfl) rfl
        rw [hs]
        exact RunStage.milder_failed rfl
    | resolving plan ticket checked =>
      rw [hs] at h
      change some ({ b with
        controller := (b.controller.resolveBindingsForIds c.ambient t.request.bindings
          plan.bindingSecretIds).2
        holder := none }.setThread r t (State.stageOf (b.controller.resolveBindingsForIds c.ambient
          t.request.bindings plan.bindingSecretIds).1 fun _ => .resolved plan ticket)) = some b' at h
      obtain rfl := Option.some.inj h
      refine .resolve hs ?_
      rcases stageOf_cases with ⟨e, he⟩ | ⟨values, hv, he⟩
      · exact .inl ⟨e, he⟩
      · exact .inr ⟨he, values, hv⟩
    | resolved plan ticket =>
      rw [hs] at h
      obtain ⟨hfree, rfl⟩ := of_free h
      by_cases hv : (b.approval.grantIsValid b.env ticket).1
      · rw [callFor_of_valid hv]
        exact .check hfree hv (.inr ⟨hs, rfl⟩)
      · rw [callFor_of_invalid hfree hv]
        refine .call hfree ?_ (by rw [hs]; rfl) rfl
        rw [hs]
        exact RunStage.milder_failed rfl
    | spawning plan ticket checked =>
      rw [hs] at h
      change some ({ b with
        runs := (b.runs.spawnChild b.env.cancelled c.launched).2, holder := none }.setThread r t
          (State.stageOf (b.runs.spawnChild b.env.cancelled c.launched).1 fun _ =>
            .running plan)) = some b' at h
      obtain rfl := Option.some.inj h
      refine .spawn hs ?_
      rcases stageOf_cases with ⟨e, he⟩ | ⟨_, _, he⟩
      · exact .inl ⟨e, he⟩
      · exact .inr he
    | plain =>
      rw [hs] at h
      obtain rfl := Option.some.inj h
      refine .plainResolve ?_ (by rw [hs]; rfl)
      rw [hs]
      exact milder_stageOf rfl fun _ => RunStage.milder_of_plain rfl rfl fun _ => rfl
    | plainResolved =>
      rw [hs] at h
      obtain ⟨hfree, rfl⟩ := of_free h
      refine .call hfree ?_ (by rw [hs]; rfl) rfl
      rw [hs]
      exact milder_stageOf rfl fun _ => RunStage.milder_of_plain rfl rfl fun _ => rfl
    | plainAdmitted =>
      rw [hs] at h
      obtain rfl := Option.some.inj h
      refine .plainSpawn (by rw [hs]; rfl) ?_ (by rw [hs]; rfl)
      rw [hs]
      exact milder_stageOf rfl fun _ => RunStage.milder_of_plain rfl rfl fun _ => rfl
    | running plan | plainRunning | failed e =>
      rw [hs] at h
      cases h
      exact .drop (by rw [hs]; rfl) (by rw [hs]; rfl)
    | refused | ended =>
      rw [hs] at h
      cases h

lemma abandon_cases {b b' : State} {r : ℕ} {e : LadonError} (h : b.abandon r e = some b') :
    ∃ t, b.threads r = some t ∧ (RunStage.failed e).Milder t.stage ∧ t.stage.held? = none ∧
      b' = b.setThread r t (.failed e) := by
  unfold State.abandon at h
  split at h
  · cases h
  · next t ht =>
    refine ⟨t, ht, ?_⟩
    cases hs : t.stage with
    | reserved | admitted | observed | planned _ | prepared _ | ticketed _ _ | resolved _ _ | plain
    | plainResolved | plainAdmitted =>
      rw [hs] at h
      cases h
      exact ⟨RunStage.milder_failed rfl, rfl, rfl⟩
    | _ =>
      rw [hs] at h
      cases h

/-! ### What a step of a lock can do -/

inductive LockMove (approvalTimeout : Duration) (b : State) (l : ℕ) : State → Prop
  | cancelActive {epoch : ℕ} (stage : b.locks l = some (.begun epoch)) :
      LockMove approvalTimeout b l ((b.cancelTokens b.runs.activeToken).setLock l (.cancelled epoch))
  | block {epoch : ℕ} (stage : b.locks l = some (.cancelled epoch))
      (unblocked : b.runs.blockNew = false) :
      LockMove approvalTimeout b l (({ b with runs := b.runs.block }.cancelTokens
        b.runs.activeToken).setLock l (.draining epoch))
  | drained {epoch : ℕ} (stage : b.locks l = some (.draining epoch)) (idle : b.runs.active = none) :
      LockMove approvalTimeout b l (b.setLock l (.blocked epoch))
  | finish {epoch : ℕ} (stage : b.locks l = some (.blocked epoch)) (free : b.holder = none) :
      LockMove approvalTimeout b l ({ b with
        approval := (Call.finishAppLock epoch).after approvalTimeout b.env b.approval }.setLock l
          .releasing)
  | release (stage : b.locks l = some .releasing) :
      LockMove approvalTimeout b l ({ b with runs := b.runs.dropBlock }.setLock l .ended)
  | snapshot {epoch : ℕ} (stage : b.locks l = some (.autoBegun epoch)) :
      LockMove approvalTimeout b l (b.setLock l (.snapshot epoch b.runs.active))
  | pass {epoch : ℕ} (stage : b.locks l = some (.snapshot epoch none)) :
      LockMove approvalTimeout b l (b.setLock l (.judged epoch none))
  | judge {epoch : ℕ} {active : ActiveRun} {uncovered : Option Token}
      (stage : b.locks l = some (.snapshot epoch (some active))) (free : b.holder = none)
      (verdict : uncovered = none ∧ (b.approval.unattendedCovers b.env active.clientSessionId
          (State.contextIds active)).1 = .ok true ∨ uncovered = some active.cancellation) :
      LockMove approvalTimeout b l ({ b with
        approval := (Call.unattendedCovers active.clientSessionId
          (State.contextIds active)).after approvalTimeout b.env b.approval }.setLock l
            (.judged epoch uncovered))
  | cancelUncovered {epoch : ℕ} {uncovered : Option Token}
      (stage : b.locks l = some (.judged epoch uncovered)) :
      LockMove approvalTimeout b l ((b.cancelTokens uncovered.toList).setLock l (.watching epoch))
  | clear {epoch : ℕ} (stage : b.locks l = some (.watching epoch))
      (settled : b.activeCancelled = false) :
      LockMove approvalTimeout b l (b.setLock l (.clear epoch))
  | finishAuto {epoch : ℕ} (stage : b.locks l = some (.clear epoch)) (free : b.holder = none) :
      LockMove approvalTimeout b l ({ b with
        approval := (Call.finishAppLock epoch).after approvalTimeout b.env b.approval }.setLock l
          .ended)

  | vaultCall {call : Call} {stage' : LockStage} (free : b.holder = none)
      (step : b.locks l = some .vaultBegun ∧ call = .cancelPending ∧ stage' = .vaultCancelled ∨
        b.locks l = some .vaultCancelled ∧ call = .revokeAll ∧ (∃ ok, stage' = .vaultRevoked ok) ∨
        ∃ ok, b.locks l = some (.vaultClosed ok) ∧ call = .resetAfterVaultLock ∧
          ∃ ok', stage' = .vaultReset ok') :
      LockMove approvalTimeout b l ({ b with
        approval := call.after approvalTimeout b.env b.approval }.setLock l stage')
  | vaultBlock {ok : Bool} (stage : b.locks l = some (.vaultRevoked ok))
      (unblocked : b.runs.blockNew = false) :
      LockMove approvalTimeout b l (({ b with runs := b.runs.block }.cancelTokens
        b.runs.activeToken).setLock l (.vaultDraining ok))
  | vaultDrained {ok : Bool} (stage : b.locks l = some (.vaultDraining ok))
      (idle : b.runs.active = none) :
      LockMove approvalTimeout b l (b.setLock l (.vaultBlocked ok))
  | vaultClose {ok : Bool} (stage : b.locks l = some (.vaultBlocked ok)) :
      LockMove approvalTimeout b l ({ b with controller := b.controller.lock }.setLock l
        (.vaultClosed ok))
  | vaultRelease {ok : Bool} (stage : b.locks l = some (.vaultReset ok)) :
      LockMove approvalTimeout b l ({ b with runs := b.runs.dropBlock }.setLock l .ended)

theorem stepLock_move {b b' : State} {l : ℕ} (h : b.stepLock approvalTimeout l = some b') :
    LockMove approvalTimeout b l b' := by
  unfold State.stepLock at h
  cases hs : b.locks l with
  | none =>
    rw [hs] at h
    cases h
  | some stage =>
    rw [hs] at h
    cases stage with
    | begun epoch =>
      cases h
      exact .cancelActive hs
    | cancelled epoch =>
      dsimp only at h
      split at h
      · cases h
      · next hb =>
        cases h
        exact .block hs (Bool.not_eq_true _ ▸ hb)
    | draining epoch =>
      dsimp only at h
      split at h
      · cases h
      · next ha =>
        cases h
        rw [Bool.not_eq_true, Option.isSome_eq_false_iff, Option.isNone_iff_eq_none] at ha
        exact .drained hs ha
    | blocked epoch =>
      obtain ⟨hfree, rfl⟩ := of_free h
      exact .finish hs hfree
    | releasing =>
      cases h
      exact .release hs
    | autoBegun epoch =>
      cases h
      exact .snapshot hs
    | snapshot epoch active =>
      cases active with
      | none =>
        cases h
        exact .pass hs
      | some active =>
        obtain ⟨hfree, rfl⟩ := of_free h
        refine .judge hs hfree ?_
        split
        · next hok => exact .inl ⟨rfl, hok⟩
        · exact .inr rfl
    | judged epoch uncovered =>
      cases h
      exact .cancelUncovered hs
    | watching epoch =>
      dsimp only at h
      split at h
      · cases h
      · next ha =>
        cases h
        exact .clear hs (Bool.not_eq_true _ ▸ ha)
    | clear epoch =>
      obtain ⟨hfree, rfl⟩ := of_free h
      exact .finishAuto hs hfree
    | vaultBegun =>
      obtain ⟨hfree, rfl⟩ := of_free h
      exact .vaultCall hfree (.inl ⟨hs, rfl, rfl⟩)
    | vaultCancelled =>
      obtain ⟨hfree, rfl⟩ := of_free h
      exact .vaultCall hfree (.inr (.inl ⟨hs, rfl, _, rfl⟩))
    | vaultRevoked ok =>
      dsimp only at h
      split at h
      · cases h
      · next hb =>
        cases h
        exact .vaultBlock hs (Bool.not_eq_true _ ▸ hb)
    | vaultDraining ok =>
      dsimp only at h
      split at h
      · cases h
      · next ha =>
        cases h
        rw [Bool.not_eq_true, Option.isSome_eq_false_iff, Option.isNone_iff_eq_none] at ha
        exact .vaultDrained hs ha
    | vaultBlocked ok =>
      cases h
      exact .vaultClose hs
    | vaultClosed ok =>
      obtain ⟨hfree, rfl⟩ := of_free h
      exact .vaultCall hfree (.inr (.inr ⟨ok, hs, rfl, _, rfl⟩))
    | vaultReset ok =>
      cases h
      exact .vaultRelease hs
    | ended => cases h

/-- The threads do not notice a lock. -/
lemma LockMove.frame {b b' : State} {l : ℕ} (h : LockMove approvalTimeout b l b') :
    b'.threads = b.threads ∧ (b'.controller = b.controller ∨ b'.controller = b.controller.lock) ∧
      b'.runs.active = b.runs.active ∧
      b'.holder = b.holder ∧ (b'.approval = b.approval ∨ b.holder = none) := by
  cases h with
  | finish _ hfree | judge _ hfree | finishAuto _ hfree | vaultCall hfree =>
    exact ⟨rfl, .inl rfl, rfl, rfl, .inr hfree⟩
  | vaultClose => exact ⟨rfl, .inr rfl, rfl, rfl, .inl rfl⟩
  | _ => exact ⟨rfl, .inl rfl, rfl, rfl, .inl rfl⟩

/-! ### What an event does to the approval coordinator -/

/-- The call of the approval coordinator that an event makes. -/
inductive CallOf (b : State) : Event → Call → Prop
  | plain {call : Call} (h : isPlainCall call) : CallOf b (.call call) call
  | capture {client : Uuid} {snapshot : Except LadonError Uuid}
      (h : snapshot = State.sessionSnapshot b.controller) :
      CallOf b (.capture client) (.captureUnattended client snapshot)
  | mutate {m : Mutation} :
      CallOf b (.mutate m) (.coordinateSecretMutation m.secret (.ok ()) (.ok ()))
  | authorize {r : ℕ} {c : Choice} {t : RunThread} {plan : ApprovalPlan} {id : Uuid}
      (ht : b.threads r = some t) (hs : t.stage = .prepared plan) :
      CallOf b (.run r c) (.authorize (State.request t plan id) t.cancellation)
  | run {r : ℕ} {c : Choice} {call : Call} (h : isRunCall call) : CallOf b (.run r c) call
  | beginLock {l : ℕ} {preserve : Bool} {call : Call}
      (h : call = if preserve then .beginAutoAppLock else .beginAppLock) :
      CallOf b (.beginLock l preserve) call
  | finishLock {l epoch : ℕ} : CallOf b (.lock l) (.finishAppLock epoch)
  | covers {l : ℕ} {client : Uuid} {ids : List SecretId} :
      CallOf b (.lock l) (.unattendedCovers client ids)
  | vaultLock {l : ℕ} {call : Call} (h : call = .cancelPending ∨ call = .revokeAll ∨
        call = .resetAfterVaultLock ∧ ∃ ok, b.locks l = some (.vaultClosed ok)) :
      CallOf b (.lock l) call

/-- What has become of the approval coordinator: nothing, or, where nobody held it, what a call
does. -/
def ApprovalMoves (approvalTimeout : Duration) (b : State) (e : Event) (b' : State) : Prop :=
  b'.approval = b.approval ∨
    b.holder = none ∧ ∃ call, CallOf b e call ∧ b'.approval = call.after approvalTimeout b.env b.approval

lemma Move.approval {b b' : State} {r : ℕ} {t : RunThread} {c : Choice}
    (ht : b.threads r = some t) (h : Move approvalTimeout b r t b') :
    ApprovalMoves approvalTimeout b (.run r c) b' := by
  cases h with
  | call hfree _ _ hkind => exact .inr ⟨hfree, _, .run hkind, rfl⟩
  | authorize hfree hs _ => exact .inr ⟨hfree, _, .authorize ht hs, rfl⟩
  | @check _ ticket _ hfree _ _ => exact .inr ⟨hfree, .withValidGrant ticket, .run rfl, rfl⟩
  | _ => exact .inl rfl

lemma LockMove.approval {b b' : State} {l : ℕ} (h : LockMove approvalTimeout b l b') :
    ApprovalMoves approvalTimeout b (.lock l) b' := by
  cases h with
  | finish _ hfree => exact .inr ⟨hfree, _, .finishLock, rfl⟩
  | judge _ hfree _ => exact .inr ⟨hfree, _, .covers, rfl⟩
  | finishAuto _ hfree => exact .inr ⟨hfree, _, .finishLock, rfl⟩
  | @vaultCall call stage' hfree hstep =>
    refine .inr ⟨hfree, call, .vaultLock ?_, rfl⟩
    rcases hstep with ⟨-, h, -⟩ | ⟨-, h, -⟩ | ⟨ok, hs, h, -⟩
    · exact .inl h
    · exact .inr (.inl h)
    · exact .inr (.inr ⟨h, ok, hs⟩)
  | _ => exact .inl rfl

/-- **What an event does to the approval coordinator.** -/
theorem apply_approval {b b' : State} {e : Event} (h : b.apply approvalTimeout e = some b') :
    ApprovalMoves approvalTimeout b e b' := by
  cases e with
  | cancel token =>
    cases h
    exact .inl rfl
  | advance clock instant =>
    rw [State.apply] at h
    split at h
    · cases h
      exact .inl rfl
    · cases h
  | call call =>
    rw [State.apply] at h
    split at h
    · cases h
    · next hc =>
      cases h
      rw [not_or, Bool.not_eq_true, Option.isSome_eq_false_iff, Option.isNone_iff_eq_none,
        not_not] at hc
      exact .inr ⟨hc.1, call, .plain hc.2, rfl⟩
  | controller amb op =>
    cases h
    exact .inl rfl
  | capture client =>
    obtain ⟨hfree, rfl⟩ := of_free h
    exact .inr ⟨hfree, _, .capture rfl, rfl⟩
  | mutate m =>
    rw [State.apply, State.mutate] at h
    split at h
    · cases h
    · next hfree =>
      rw [Bool.not_eq_true, Option.isSome_eq_false_iff, Option.isNone_iff_eq_none] at hfree
      split at h
      · cases h
        exact .inl rfl
      · cases h
        exact .inr ⟨hfree, _, .mutate, rfl⟩
  | commit amb storage =>
    rw [State.apply, State.commit] at h
    split at h
    · cases h
      exact .inl rfl
    · cases h
  | request r t =>
    rw [State.apply] at h
    split at h
    · cases h
    · cases h
      exact .inl rfl
  | run r c =>
    obtain ⟨t, ht, hmove⟩ := stepRun_move h
    exact hmove.approval ht
  | abandon r e =>
    obtain ⟨t, -, -, -, rfl⟩ := abandon_cases h
    exact .inl rfl
  | beginLock l preserve =>
    rw [State.apply, State.beginLock] at h
    split at h
    · cases h
    · next hc =>
      cases h
      rw [not_or, Bool.not_eq_true, Option.isSome_eq_false_iff, Option.isNone_iff_eq_none] at hc
      exact .inr ⟨hc.1, _, .beginLock rfl, rfl⟩
  | beginVaultLock l =>
    rw [State.apply, State.beginVaultLock] at h
    split at h
    · cases h
    · cases h
      exact .inl rfl
  | lock l => exact (stepLock_move h).approval
  | status =>
    cases h
    exact .inl rfl

/-! ### What an event can do -/

/-- An event as the threads, the locks and the controller see it. -/
inductive EventMove (approvalTimeout : Duration) (b : State) : Event → State → Prop
  | run {r : ℕ} {c : Choice} {t : RunThread} {b' : State} (ht : b.threads r = some t)
      (h : Move approvalTimeout b r t b') : EventMove approvalTimeout b (.run r c) b'
  | abandon {r : ℕ} {e : LadonError} {t : RunThread} (ht : b.threads r = some t)
      (h : (RunStage.failed e).Milder t.stage) (unheld : t.stage.held? = none) :
      EventMove approvalTimeout b (.abandon r e) (b.setThread r t (.failed e))
  | lock {l : ℕ} {b' : State} (h : LockMove approvalTimeout b l b') :
      EventMove approvalTimeout b (.lock l) b'
  | request {r : ℕ} {t : RunThread} (new : b.threads r = none) :
      EventMove approvalTimeout b (.request r t) (b.setThread r t .requested)
  | beginLock {l : ℕ} {preserve : Bool} {call : Call} {stage : LockStage} (free : b.holder = none)
      (new : b.locks l = none) (hcall : call = if preserve then .beginAutoAppLock else .beginAppLock)
      (hstage : stage = .ended ∨
        ∃ epoch, (b.approval.beginAppLockWithPolicy b.env preserve).1 = .ok epoch ∧
          stage = if preserve then .autoBegun epoch else .begun epoch) :
      EventMove approvalTimeout b (.beginLock l preserve)
        ({ b with approval := call.after approvalTimeout b.env b.approval }.setLock l stage)
  | beginVaultLock {l : ℕ} (new : b.locks l = none) :
      EventMove approvalTimeout b (.beginVaultLock l) (b.setLock l .vaultBegun)
  | controller {amb : Ambient} {op : ControllerOp} :
      EventMove approvalTimeout b (.controller amb op)
        { b with controller := op.after amb b.controller }
  | commit {amb : Ambient} {storage : Storage} {prepared : PreparedMutation}
      (held : b.holder = some (.mutation prepared)) :
      EventMove approvalTimeout b (.commit amb storage)
        { b with controller := prepared.commit amb storage b.controller, holder := none }
  | other {e : Event} {b' : State} (threads : b'.threads = b.threads) (locks : b'.locks = b.locks)
      (runs : b'.runs = b.runs) (controller : b'.controller = b.controller)
      (held : b.holder = none ∨ b'.holder = b.holder ∧ b'.approval = b.approval)
      (cancelled : ∀ k ∈ b.env.cancelled, k ∈ b'.env.cancelled) :
      EventMove approvalTimeout b e b'

/-- **Every event is one of the moves.** -/
theorem apply_move {b b' : State} {e : Event} (h : b.apply approvalTimeout e = some b') :
    EventMove approvalTimeout b e b' := by
  cases e with
  | cancel token =>
    cases h
    exact .other rfl rfl rfl rfl (.inr ⟨rfl, rfl⟩) fun k hk => List.mem_cons_of_mem _ hk
  | advance clock instant =>
    rw [State.apply] at h
    split at h <;> cases h
    exact .other rfl rfl rfl rfl (.inr ⟨rfl, rfl⟩) fun _ hk => hk
  | call call =>
    rw [State.apply] at h
    split at h
    · cases h
    · next hc =>
      cases h
      rw [not_or, Bool.not_eq_true, Option.isSome_eq_false_iff, Option.isNone_iff_eq_none] at hc
      refine .other rfl rfl rfl rfl (.inl hc.1) fun k hk => ?_
      dsimp only
      cases call with
      | closeClientSessions => exact List.mem_append_right _ hk
      | _ => exact hk
  | controller amb op =>
    cases h
    exact .controller
  | capture client =>
    obtain ⟨hfree, rfl⟩ := of_free h
    exact .other rfl rfl rfl rfl (.inl hfree) fun _ hk => hk
  | mutate m =>
    rw [State.apply, State.mutate] at h
    split at h
    · cases h
    · next hfree =>
      rw [Bool.not_eq_true, Option.isSome_eq_false_iff, Option.isNone_iff_eq_none] at hfree
      split at h
      · cases h
        exact .other rfl rfl rfl rfl (.inr ⟨rfl, rfl⟩) fun _ hk => hk
      · cases h
        exact .other rfl rfl rfl rfl (.inl hfree) fun _ hk => hk
  | commit amb storage =>
    rw [State.apply, State.commit] at h
    split at h
    · next hh =>
      cases h
      exact .commit hh
    · cases h
  | request r t =>
    rw [State.apply] at h
    split at h
    · cases h
    · next hn =>
      cases h
      rw [Bool.not_eq_true, Option.isSome_eq_false_iff, Option.isNone_iff_eq_none] at hn
      exact .request hn
  | run r c =>
    obtain ⟨t, ht, hmove⟩ := stepRun_move h
    exact .run ht hmove
  | abandon r e =>
    obtain ⟨t, ht, hm, hunheld, rfl⟩ := abandon_cases h
    exact .abandon ht hm hunheld
  | beginLock l preserve =>
    rw [State.apply, State.beginLock] at h
    split at h
    · cases h
    · next hc =>
      cases h
      rw [not_or, Bool.not_eq_true, Bool.not_eq_true, Option.isSome_eq_false_iff,
        Option.isSome_eq_false_iff, Option.isNone_iff_eq_none, Option.isNone_iff_eq_none] at hc
      refine .beginLock hc.1 hc.2 rfl ?_
      cases hb : (b.approval.beginAppLockWithPolicy b.env preserve).1 with
      | error e => exact .inl rfl
      | ok epoch => exact .inr ⟨epoch, rfl, rfl⟩
  | beginVaultLock l =>
    rw [State.apply, State.beginVaultLock] at h
    split at h
    · cases h
    · next hn =>
      cases h
      rw [Bool.not_eq_true, Option.isSome_eq_false_iff, Option.isNone_iff_eq_none] at hn
      exact .beginVaultLock hn
  | lock l => exact .lock (stepLock_move h)
  | status =>
    cases h
    exact .other rfl rfl rfl rfl (.inr ⟨rfl, rfl⟩) fun _ hk => hk

end Machine

end Ladon.Broker

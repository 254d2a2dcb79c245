import Ladon.ApprovalConsent
import Ladon.ApprovalStale
import Ladon.BrokerRevoke

/-!
A revocation is complete and exact.

When it takes the grants away, no run that could use them is active and no request for them is
pending. The grants of other pairs stay as they are. Whatever grant there is later comes of a request
that was made, or a context that was captured, after that step: an older request has ended, and an
older context carries an older revision.
-/

namespace Ladon.BrokerRevoke

open Ladon.Error Ladon.Model Ladon.Approval Ladon.Grants Ladon.Controller Ladon.Broker
  Ladon.RunAdmission Ladon.Lib Ladon.Lib.Word Ladon.Lib.Machine Ladon.Approval.ApprovalState

section Runs

variable [UnicodeNormalization] {approvalTimeout : Duration}

/-! ### What always holds -/

/-- A revocation does not touch the threads or the active run, and makes silent calls only. -/
lemma RevokeMove.frame {s s' : State} {v : ℕ} {t : RevokeThread}
    (h : RevokeMove approvalTimeout s v t s') :
    s'.broker.threads = s.broker.threads ∧ s'.broker.runs.active = s.broker.runs.active ∧
      s'.contexts = s.contexts ∧ s'.broker.holder = s.broker.holder ∧
      (∀ k ∈ s.broker.env.cancelled, k ∈ s'.broker.env.cancelled) ∧
      (s'.broker.approval = s.broker.approval ∨ s.broker.holder = none ∧ ∃ call, isSilent call ∧
        s'.broker.approval = call.after approvalTimeout s.broker.env s.broker.approval) := by
  have hsame : ∀ k ∈ s.broker.env.cancelled, k ∈ s.broker.env.cancelled := fun _ hk => hk
  cases h with
  | @outside call _ hfree hkind _ _ _ =>
    refine ⟨rfl, rfl, rfl, rfl, hsame, .inr ⟨hfree, call, ?_, rfl⟩⟩
    rcases hkind with rfl | rfl <;> rfl
  | cancel _ => exact ⟨rfl, rfl, rfl, rfl, fun _ hk => List.mem_append_right _ hk, .inl rfl⟩
  | operation _ _ _ _ => exact ⟨rfl, rfl, rfl, rfl, hsame, .inl rfl⟩
  | block _ _ _ _ _ => exact ⟨rfl, rfl, rfl, rfl, fun _ hk => List.mem_append_right _ hk, .inl rfl⟩
  | drained _ _ => exact ⟨rfl, rfl, rfl, rfl, hsame, .inl rfl⟩
  | revoke _ hfree =>
    refine ⟨rfl, rfl, rfl, rfl, hsame, .inr ⟨hfree, t.revocation.call, ?_, rfl⟩⟩
    cases t.revocation <;> rfl
  | release _ => exact ⟨rfl, rfl, rfl, rfl, hsame, .inl rfl⟩

/-- What an event has to do with approvals. -/
inductive Cause (s : State) : Event → Call → Prop
  | broker {e : Broker.Event} {call : Call} (h : Broker.Cause s.broker e call) (consents : s.consents e) :
      Cause s (.broker e) call
  | revoke {v : ℕ} {operation : Except LadonError Bool} {call : Call} (h : isSilent call) :
      Cause s (.revoke v operation) call

lemma apply_broker {s s' : State} {e : Broker.Event}
    (h : s.apply approvalTimeout (.broker e) = some s') :
    s.consents e ∧ ∃ b, s.broker.apply approvalTimeout e = some b ∧ s' = { s with
      broker := b, contexts := (State.captured s.broker e).toList ++ s.contexts } := by
  rw [State.apply] at h
  split at h
  · next hconsents =>
    obtain ⟨b, hb, rfl⟩ := Option.map_eq_some_iff.mp h
    exact ⟨hconsents, b, hb, rfl⟩
  · cases h

lemma apply_begin {s s' : State} {v : ℕ} {revocation : Revocation}
    (h : s.apply approvalTimeout (.begin v revocation) = some s') :
    s.revokes v = none ∧ ∃ stage : RevokeStage, stage.blocks = false ∧ stage.result? = none ∧
      (stage.isOutside → revocation = .grants) ∧ s' = s.setRevoke v ⟨revocation, stage⟩ stage := by
  rw [State.apply] at h
  unfold State.begin at h
  split at h
  · cases h
  · next hnew =>
    cases h
    rw [Bool.not_eq_true, Option.isSome_eq_false_iff, Option.isNone_iff_eq_none] at hnew
    refine ⟨hnew, _, ?_, ?_, ?_, rfl⟩
    · cases revocation <;> rfl
    · cases revocation <;> rfl
    · cases revocation with
      | grants => exact fun _ => rfl
      | _ => exact fun h => (by cases h)

theorem apply_cause {s s' : State} {e : Event} (h : s.apply approvalTimeout e = some s') :
    s'.broker.approval = s.broker.approval ∨ ∃ call, Cause s e call ∧
      s'.broker.approval = call.after approvalTimeout s.broker.env s.broker.approval := by
  cases e with
  | broker e =>
    obtain ⟨hconsents, b, hb, rfl⟩ := apply_broker h
    rcases Broker.apply_cause hb with hsame | ⟨call, hcause, hafter⟩
    · exact .inl hsame
    · exact .inr ⟨call, .broker hcause hconsents, hafter⟩
  | begin v revocation =>
    obtain ⟨-, stage, -, -, -, rfl⟩ := apply_begin h
    exact .inl rfl
  | revoke v operation =>
    obtain ⟨t, -, hmove⟩ := stepRevoke_move h
    rcases hmove.frame.2.2.2.2.2 with hsame | ⟨-, call, hsilent, hafter⟩
    · exact .inl hsame
    · exact .inr ⟨call, .revoke hsilent, hafter⟩

lemma apply_cancelled {s s' : State} {e : Event} (h : s.apply approvalTimeout e = some s') :
    ∀ k ∈ s.broker.env.cancelled, k ∈ s'.broker.env.cancelled := by
  cases e with
  | broker e =>
    obtain ⟨-, b, hb, rfl⟩ := apply_broker h
    exact Broker.cancelled_mono hb
  | begin v revocation =>
    obtain ⟨-, stage, -, -, -, rfl⟩ := apply_begin h
    exact fun _ hk => hk
  | revoke v operation =>
    obtain ⟨t, -, hmove⟩ := stepRevoke_move h
    exact hmove.frame.2.2.2.2.1

lemma apply_revision {s s' : State} {e : Event} (h : s.apply approvalTimeout e = some s') :
    s.broker.approval.revision ≤ s'.broker.approval.revision := by
  rcases apply_cause h with hsame | ⟨call, -, hafter⟩
  · rw [hsame]
  · rw [hafter]
    exact (@Call.leaves approvalTimeout s.broker.env s.broker.approval call).revision

/-! ### A revocation goes on -/

omit [UnicodeNormalization] in
lemma RevokeStage.of_isOutside {stage : RevokeStage} (h : stage.isOutside) :
    stage.result? = none ∧ stage.blocks = false := by
  cases stage <;> first | exact ⟨rfl, rfl⟩ | cases h

lemma RevokeMove.thread {s s' : State} {v : ℕ} {t : RevokeThread}
    (h : RevokeMove approvalTimeout s v t s') :
    ∃ stage, s'.revokes = Function.update s.revokes v (some { t with stage := stage }) ∧
      (t.stage.result?.isSome → stage.result?.isSome) ∧
      (stage.isOutside → t.stage.isOutside ∨ t.revocation = .grants) := by
  cases h with
  | @outside _ stage _ _ hown _ _ =>
    refine ⟨stage, rfl, fun hr => ?_, fun _ => .inl hown⟩
    rw [(RevokeStage.of_isOutside hown).1] at hr
    cases hr
  | cancel hown =>
    refine ⟨_, rfl, fun hr => ?_, fun ho => (by cases ho)⟩
    rw [(RevokeStage.of_isOutside hown).1] at hr
    cases hr
  | @operation stage hs _ _ hgrants =>
    exact ⟨stage, rfl, fun hr => (by rw [hs] at hr; cases hr), fun ho => .inr (hgrants ho)⟩
  | @block stage hs _ hblocks _ _ =>
    refine ⟨stage, rfl, fun hr => (by rw [hs] at hr; cases hr), fun ho => ?_⟩
    rw [(RevokeStage.of_isOutside ho).2] at hblocks
    cases hblocks
  | drained hs _ =>
    exact ⟨_, rfl, fun hr => (by rw [hs] at hr; cases hr), fun ho => (by cases ho)⟩
  | revoke hs _ => exact ⟨_, rfl, fun _ => rfl, fun ho => (by cases ho)⟩
  | release hs => exact ⟨_, rfl, fun _ => rfl, fun ho => (by cases ho)⟩

/-- Only `revoke_grants` takes something away before it has the block. -/
def Scoped (s : State) : Prop :=
  ∀ v t, s.revokes v = some t → t.stage.isOutside → t.revocation = .grants

lemma Scoped.apply {s s' : State} {e : Event} (h : Scoped s)
    (happly : s.apply approvalTimeout e = some s') : Scoped s' := by
  intro v t hv ho
  cases e with
  | broker e =>
    obtain ⟨-, b, -, rfl⟩ := apply_broker happly
    exact h v t hv ho
  | begin v' revocation =>
    obtain ⟨-, stage, -, -, hgrants, rfl⟩ := apply_begin happly
    rcases revokes_update (s := s) (t := ⟨revocation, stage⟩) rfl hv with ⟨-, rfl⟩ | ⟨-, hv⟩
    · exact hgrants ho
    · exact h v t hv ho
  | revoke v' operation =>
    obtain ⟨t', hv', hmove⟩ := stepRevoke_move happly
    obtain ⟨stage, hrevokes, -, hown⟩ := hmove.thread
    rcases revokes_update hrevokes hv with ⟨-, rfl⟩ | ⟨-, hv⟩
    · exact (hown ho).elim (h v' t' hv') id
    · exact h v t hv ho

/-- A revocation that has begun, and has taken its step if it is past. -/
def Under (v : ℕ) (revocation : Revocation) (past : Prop) (s : State) : Prop :=
  ∃ stage, s.revokes v = some ⟨revocation, stage⟩ ∧ (past → stage.result?.isSome)

lemma Under.apply {s s' : State} {e : Event} {v : ℕ} {revocation : Revocation} {past : Prop}
    (h : Under v revocation past s) (happly : s.apply approvalTimeout e = some s') :
    Under v revocation past s' := by
  obtain ⟨stage, hv, hpast⟩ := h
  cases e with
  | broker e =>
    obtain ⟨-, b, -, rfl⟩ := apply_broker happly
    exact ⟨stage, hv, hpast⟩
  | begin v' revocation' =>
    obtain ⟨hnew, stage', -, -, -, rfl⟩ := apply_begin happly
    have hne : v ≠ v' := fun heq => by rw [heq, hnew] at hv; cases hv
    exact ⟨stage, (Function.update_of_ne hne _ _).trans hv, hpast⟩
  | revoke v' operation =>
    obtain ⟨t', hv', hmove⟩ := stepRevoke_move happly
    obtain ⟨stage', hrevokes, hresult, -⟩ := hmove.thread
    rw [Under, hrevokes]
    by_cases hne : v = v'
    · subst hne
      rw [hv] at hv'
      cases hv'
      exact ⟨stage', Function.update_self .., fun h => hresult (hpast h)⟩
    · exact ⟨stage, (Function.update_of_ne hne _ _).trans hv, hpast⟩

lemma Under.run {s s' : State} {v : ℕ} {revocation : Revocation} {past : Prop}
    {rest : List Occurrence} (h : Under v revocation past s)
    (hrun : Run (Step approvalTimeout) s rest s') : Under v revocation past s' := by
  refine hrun.invariant h ?_
  rintro s o s' h ⟨happly⟩
  exact h.apply happly

/-- Of the steps of `revoke_session` and `revoke_grant` one has to do with approvals. -/
lemma approval_of_under {s s' : State} {v : ℕ} {revocation : Revocation}
    {operation : Except LadonError Bool} (h : Under v revocation False s) (hscoped : Scoped s)
    (hgrants : revocation ≠ .grants) (happly : s.apply approvalTimeout (.revoke v operation) = some s') :
    s'.broker.approval = s.broker.approval ∨
      s.revokes v = some ⟨revocation, .blocked⟩ ∧ Under v revocation True s' := by
  obtain ⟨stage, hv, -⟩ := h
  obtain ⟨t, hv', hmove⟩ := stepRevoke_move happly
  rw [hv] at hv'
  cases hv'
  cases hmove with
  | outside _ _ hown _ _ => exact (hgrants (hscoped v _ hv hown)).elim
  | revoke hs _ =>
    refine .inr ⟨hs ▸ hv, _, Function.update_self .., fun _ => rfl⟩
  | _ => exact .inl rfl

/-- The threads, the coordinators and the revocations agree; no context is from the future. -/
structure SystemInv (s : State) : Prop where
  inv : Broker.Inv s.broker
  wait : WaitInv s.broker
  plans : Exact s.broker
  requested : Requested s.broker.approval
  gate : GateInv s
  outside : Scoped s
  contexts : ∀ context ∈ s.contexts, context.revision ≤ s.broker.approval.revision

lemma systemInv_initial {env : Env} {grantLifetime : Duration} {fileExists : Bool} :
    SystemInv (State.initial env grantLifetime fileExists) :=
  ⟨inv_initial, waitInv_initial, fun _ _ _ h => (by cases h), fun _ _ h => (by cases h),
    gateInv_initial, fun _ _ h => (by cases h), fun _ h => (by cases h)⟩

/-- A context is captured with the revision of its time. -/
lemma captured_revision {b b' : Broker.State} {e : Broker.Event} {context : UnattendedContext}
    (h : b.apply approvalTimeout e = some b') (hcaptured : State.captured b e = some context) :
    context.revision = b'.approval.revision := by
  cases e with
  | capture client =>
    simp only [State.captured] at hcaptured
    split at hcaptured
    · next captured u hok =>
      cases hcaptured
      obtain ⟨-, rfl⟩ := of_free h
      exact (captureUnattendedWith_ok hok).2.2.1
    · cases hcaptured
  | _ => cases hcaptured

lemma SystemInv.apply {s s' : State} {e : Event} (h : SystemInv s)
    (happly : s.apply approvalTimeout e = some s') : SystemInv s' := by
  have hrequested : Requested s'.broker.approval := by
    rcases apply_cause happly with hsame | ⟨call, -, hafter⟩
    · rw [hsame]
      exact h.requested
    · rw [hafter]
      exact h.requested.change call.change
  have hold : ∀ context ∈ s.contexts, context.revision ≤ s'.broker.approval.revision :=
    fun context hc => (h.contexts context hc).trans (apply_revision happly)
  cases e with
  | broker e =>
    obtain ⟨-, b, hb, rfl⟩ := apply_broker happly
    refine ⟨h.inv.apply hb, h.wait.apply hb, h.plans.apply hb, hrequested, h.gate.broker hb,
      h.outside.apply happly, fun context hc => ?_⟩
    rcases List.mem_append.mp hc with hc | hc
    · rw [Option.mem_toList] at hc
      exact (captured_revision hb hc).le
    · exact hold context hc
  | begin v revocation =>
    obtain ⟨-, stage, hstage, -, -, rfl⟩ := apply_begin happly
    exact ⟨h.inv, h.wait, h.plans, h.requested,
      h.gate.unblocked (t := ⟨revocation, stage⟩) rfl rfl rfl (fun _ hk => hk) hstage,
      h.outside.apply happly, h.contexts⟩
  | revoke v operation =>
    obtain ⟨t, hv, hmove⟩ := stepRevoke_move happly
    obtain ⟨hthreads, hactive, hcontexts, hholder, -, happroval⟩ := hmove.frame
    refine ⟨h.inv.frame hthreads hactive ?_, h.wait.frame hthreads fun p hp => ?_, ?_, hrequested,
      h.gate.revoke hv hmove, h.outside.apply happly, fun context hc => hold context (hcontexts ▸ hc)⟩
    · rcases happroval with hsame | ⟨hfree, -⟩
      · exact .inr ⟨hholder, hsame⟩
      · exact .inl fun r hr => by rw [hfree] at hr; cases hr
    · rcases happroval with hsame | ⟨-, call, hsilent, hafter⟩
      · exact ⟨p, hsame ▸ hp, .refl, fun hd => hd⟩
      · rw [hafter] at hp
        exact Call.remains (fun _ _ heq => by rw [heq] at hsilent; cases hsilent) hp
    · intro r t' plan ht'
      rw [hthreads] at ht'
      exact h.plans r t' plan ht'

lemma SystemInv.run {s s' : State} {rest : List Occurrence} (h : SystemInv s)
    (hrun : Run (Step approvalTimeout) s rest s') : SystemInv s' := by
  refine hrun.invariant h ?_
  rintro s o s' h ⟨happly⟩
  exact h.apply happly

/-! ### Under the block -/

/-- A pending approval that is to go is of a run that has to be stopped. -/
lemma SystemInv.stops {s : State} (h : SystemInv s) {revocation : Revocation} {p : PendingState}
    (hp : s.broker.approval.pending = some p) (hconcerns : revocation.Concerns p) :
    ∃ r t plan w a, WaitsFor s.broker r t plan w p ∧ s.broker.runs.active = some a ∧
      a.cancellation = t.cancellation ∧ revocation.kind.stops a ∧
      ¬ revocation.kind.Clear s.broker.runs.active := by
  obtain ⟨r, t, plan, w, hw⟩ := h.wait.waiting hp
  obtain ⟨a, ha, htoken, hclient, hids⟩ := h.inv.lease hw.thread (by rw [hw.stage]; rfl)
  have hids := hids plan (by rw [hw.stage]; rfl)
  have hc : p.request.clientSessionId = a.clientSessionId := hw.client.trans hclient.symm
  refine ⟨r, t, plan, w, a, hw, ha, htoken, ?_⟩
  rw [ha]
  cases revocation with
  | grants => exact ⟨rfl, fun h => (by cases h)⟩
  | session client =>
    have heq : a.clientSessionId = client := hc.symm.trans hconcerns
    exact ⟨by simpa [Revocation.kind, BlockKind.stops] using heq, fun hclear => hclear a rfl heq⟩
  | grant client secret =>
    obtain ⟨hclient', hsecret⟩ := hconcerns
    have heq : a.clientSessionId = client := hc.symm.trans hclient'
    have hmem : secret ∈ plan.bindingSecretIds :=
      h.plans r t plan hw.thread (by rw [hw.stage]; rfl) secret (hw.requested secret hsecret)
    refine ⟨by simp [Revocation.kind, BlockKind.stops, heq, hids, hmem], fun hclear => ?_⟩
    obtain ⟨ids, hids', hnot⟩ := hclear a rfl heq
    rw [hids] at hids'
    cases hids'
    exact hnot hmem

/-! ### Occurrences -/

namespace Occurrence

/-- The approval coordinator at that time. -/
def world (o : Occurrence) : World where
  env := o.before.broker.env
  state := o.before.broker.approval

/-- A thread asks for approval of a request, and has to wait. -/
def Asks (approvalTimeout : Duration) (o : Occurrence) (request : PendingApproval) : Prop :=
  ∃ r c t plan w, o.event = .broker (.run r c) ∧ o.before.broker.threads r = some t ∧
    t.stage = .prepared plan ∧ request = Broker.State.request t plan c.approvalId ∧
    (o.before.broker.approval.authorize approvalTimeout o.before.broker.env request
      t.cancellation).1 = .waiting w

/-- The pending request of this identifier is approved. -/
def Approves (o : Occurrence) (id : Uuid) : Prop :=
  ∃ decision : HumanDecision, o.event = .broker (.call (.decide id decision)) ∧
    decision.decision.approves ∧ (o.before.broker.approval.setDecision o.before.broker.env id
      decision.decision).1 = .ok ()

/-- The thread that waits for this request takes up its approval, which makes a grant. -/
def TakesUp (o : Occurrence) (id c : Uuid) (k : SecretId) (d : GrantDeadline) : Prop :=
  ∃ r choice t plan w p e, o.event = .broker (.run r choice) ∧ o.before.broker.threads r = some t ∧
    t.stage = .waiting plan w ∧ Approval.Occurrence.TakesUp ⟨o.world, .call (.poll w)⟩ p e d ∧
    p.request.id = id ∧ p.request.clientSessionId = c ∧ k ∈ p.request.secretIds

/-- A context for unattended use is captured. -/
def Captures (o : Occurrence) (context : UnattendedContext) : Prop :=
  ∃ e, o.event = .broker e ∧ State.captured o.before.broker e = some context

/-- Unattended use is consented to on a context, which makes a grant. -/
def Consents (o : Occurrence) (context : UnattendedContext) (k : SecretId) (d : GrantDeadline) :
    Prop :=
  ∃ secrets call, o.event = .broker (.call call) ∧ k ∈ secrets ∧
    Approval.Occurrence.Consents ⟨o.world, .call call⟩ context secrets d

/-- A thread that waits has its answer. -/
def Answers (o : Occurrence) (r : ℕ) (result : Except LadonError GrantTicket) : Prop :=
  ∃ c t plan w, o.event = .broker (.run r c) ∧ o.before.broker.threads r = some t ∧
    t.stage = .waiting plan w ∧
    (o.before.broker.approval.poll o.before.broker.env w).1 = some result

/-- The step of a revocation that takes the grants away. -/
def Revokes (o : Occurrence) (v : ℕ) (revocation : Revocation) : Prop :=
  (∃ operation, o.event = .revoke v operation) ∧ o.before.revokes v = some ⟨revocation, .blocked⟩ ∧
    revocation.result o.before.broker.env o.before.broker.approval = .ok ()

end Occurrence

/-- A grant is made by what happened, from the first step to the last: a request was made, approved
and the approval taken up, or a context was captured and consented to. -/
inductive Made (approvalTimeout : Duration) (history : List Occurrence) (c : Uuid) (k : SecretId)
    (d : GrantDeadline) : Prop
  | approval {asked approved taken : Occurrence} {request : PendingApproval}
      (order : [asked, approved, taken].Sublist history) (asks : asked.Asks approvalTimeout request)
      (client : request.clientSessionId = c) (secret : k ∈ request.secretIds)
      (approves : approved.Approves request.id) (takes : taken.TakesUp request.id c k d)
  | consent {capture consent : Occurrence} {context : UnattendedContext}
      (order : [capture, consent].Sublist history) (captures : capture.Captures context)
      (client : context.client = c) (consents : consent.Consents context k d)

/-! ### What waits under a revocation -/

/-- A thread of a run that has been cancelled. -/
def Doomed (r : ℕ) (token : Token) (s : State) : Prop :=
  (∃ t, s.broker.threads r = some t ∧ t.cancellation = token) ∧ token ∈ s.broker.env.cancelled

lemma Doomed.apply {s s' : State} {e : Event} {r : ℕ} {token : Token} (h : Doomed r token s)
    (happly : s.apply approvalTimeout e = some s') : Doomed r token s' := by
  refine ⟨?_, apply_cancelled happly _ h.2⟩
  obtain ⟨t, ht, htoken⟩ := h.1
  cases e with
  | broker e =>
    obtain ⟨-, b, hb, rfl⟩ := apply_broker happly
    have hmoved : ∀ {r₀ : ℕ} {t₀ : RunThread} {stage : RunStage},
        (r = r₀ → t₀.cancellation = t.cancellation) →
        b.threads = Function.update s.broker.threads r₀ (some { t₀ with stage := stage }) →
        ∃ t, b.threads r = some t ∧ t.cancellation = token := by
      intro r₀ t₀ stage hsame hthreads
      by_cases hr : r = r₀
      · refine ⟨{ t₀ with stage := stage }, ?_, (hsame hr).trans htoken⟩
        rw [hthreads, hr, Function.update_self]
      · exact ⟨t, by rw [hthreads, Function.update_of_ne hr, ht], htoken⟩
    rcases apply_slot hb with ⟨hthreads, -⟩ | ⟨r₀, t₀, hnew, -, hthreads⟩ |
      ⟨r₀, t₀, stage, ht₀, hthreads, -⟩
    · exact ⟨t, by rw [hthreads]; exact ht, htoken⟩
    · refine hmoved (fun hr => ?_) hthreads
      rw [← hr, ht] at hnew
      cases hnew
    · refine hmoved (fun hr => ?_) hthreads
      rw [← hr, ht] at ht₀
      cases ht₀
      rfl
  | begin v revocation =>
    obtain ⟨-, stage, -, -, -, rfl⟩ := apply_begin happly
    exact ⟨t, ht, htoken⟩
  | revoke v operation =>
    obtain ⟨t', -, hmove⟩ := stepRevoke_move happly
    exact ⟨t, by rw [hmove.frame.1]; exact ht, htoken⟩

/-- Such a thread can only be told that it was cancelled. -/
lemma Doomed.answer {s s' : State} {o : Occurrence} {r : ℕ} {token : Token}
    {result : Except LadonError GrantTicket} (h : Doomed r token s) (hinv : SystemInv s)
    (hstep : Step approvalTimeout s o s') (hanswer : o.Answers r result) :
    result = .error .approvalCancelled := by
  obtain ⟨rfl, -⟩ := hstep.inv
  obtain ⟨c, t, plan, w, -, ht, hs, hresult⟩ := hanswer
  obtain ⟨⟨t', ht', htoken⟩, hcancelled⟩ := h
  rw [ht] at ht'
  cases ht'
  rw [← htoken, ← hinv.wait.token ht hs] at hcancelled
  rw [poll_cancelled hcancelled] at hresult
  exact (Option.some.inj hresult).symm

lemma Doomed.run {s s' : State} {r : ℕ} {token : Token} {rest : List Occurrence}
    (h : Doomed r token s) (hinv : SystemInv s) (hrun : Run (Step approvalTimeout) s rest s') :
    ∀ o ∈ rest, ∀ result, o.Answers r result → result = .error .approvalCancelled := by
  have hall : (Doomed r token s' ∧ SystemInv s') ∧ ∀ o ∈ rest, ∀ result, o.Answers r result →
      result = .error .approvalCancelled := by
    refine hrun.history_invariant (I := fun (rest : List Occurrence) s' =>
      (Doomed r token s' ∧ SystemInv s') ∧
        ∀ o ∈ rest, ∀ result, o.Answers r result → result = .error .approvalCancelled)
      ⟨⟨h, hinv⟩, fun _ ho => (by cases ho)⟩ ?_
    rintro rest s o s' ⟨⟨hdoomed, hinv⟩, hrest⟩ hstep
    obtain ⟨rfl, happly⟩ := hstep.inv
    exact ⟨⟨hdoomed.apply happly, hinv.apply happly⟩,
      forall_mem_snoc hrest fun result hanswer => hdoomed.answer hinv hstep hanswer⟩
  exact hall.2

/-! ### What is granted after a revocation -/

lemma Made.snoc {history : List Occurrence} {c : Uuid} {k : SecretId} {d : GrantDeadline}
    (h : Made approvalTimeout history c k d) (o : Occurrence) :
    Made approvalTimeout (history ++ [o]) c k d := by
  cases h with
  | approval order asks client secret approves takes =>
    exact .approval (order.trans (List.sublist_append_left ..)) asks client secret approves takes
  | consent order captures client consents =>
    exact .consent (order.trans (List.sublist_append_left ..)) captures client consents

/-- The request was made in this history. -/
def AskedIn (approvalTimeout : Duration) (history : List Occurrence) (p : PendingApproval)
    (k : SecretId) : Prop :=
  ∃ asked ∈ history, ∃ request, asked.Asks approvalTimeout request ∧ request.id = p.id ∧
    request.clientSessionId = p.clientSessionId ∧ k ∈ request.secretIds

/-- And then it was approved. -/
def ApprovedIn (approvalTimeout : Duration) (history : List Occurrence) (p : PendingApproval)
    (k : SecretId) : Prop :=
  ∃ asked approved request, [asked, approved].Sublist history ∧ asked.Asks approvalTimeout request ∧
    request.id = p.id ∧ request.clientSessionId = p.clientSessionId ∧ k ∈ request.secretIds ∧
    approved.Approves request.id

section Histories

variable {history : List Occurrence} {o : Occurrence} {p q : PendingState} {k : SecretId}

lemma AskedIn.snoc (h : AskedIn approvalTimeout history q.request k) (hsame : p.SameRequest q)
    (o : Occurrence) : AskedIn approvalTimeout (history ++ [o]) p.request k := by
  obtain ⟨asked, hasked, request, hasks, hid, hclient, hk⟩ := h
  exact ⟨asked, List.mem_append_left _ hasked, request, hasks, hid.trans hsame.id.symm,
    hclient.trans hsame.client.symm, hk⟩

lemma ApprovedIn.snoc (h : ApprovedIn approvalTimeout history q.request k) (hsame : p.SameRequest q)
    (o : Occurrence) : ApprovedIn approvalTimeout (history ++ [o]) p.request k := by
  obtain ⟨asked, approved, request, horder, hasks, hid, hclient, hk, happroves⟩ := h
  exact ⟨asked, approved, request, horder.trans (List.sublist_append_left ..), hasks,
    hid.trans hsame.id.symm, hclient.trans hsame.client.symm, hk, happroves⟩

/-- A request that was made is approved. -/
lemma AskedIn.approved (h : AskedIn approvalTimeout history q.request k) (hsame : p.SameRequest q)
    (ho : o.Approves q.request.id) : ApprovedIn approvalTimeout (history ++ [o]) p.request k := by
  obtain ⟨asked, hasked, request, hasks, hid, hclient, hk⟩ := h
  exact ⟨asked, o, request, (List.singleton_sublist.mpr hasked).append (.refl [o]), hasks,
    hid.trans hsame.id.symm, hclient.trans hsame.client.symm, hk, by rw [hid]; exact ho⟩

/-- An approval is taken up. -/
lemma ApprovedIn.made {d : GrantDeadline} (h : ApprovedIn approvalTimeout history p.request k)
    (ho : o.TakesUp p.request.id p.request.clientSessionId k d) :
    Made approvalTimeout (history ++ [o]) p.request.clientSessionId k d := by
  obtain ⟨asked, approved, request, horder, hasks, hid, hclient, hk, happroves⟩ := h
  exact .approval (horder.append (.refl [o])) hasks hclient hk happroves (by rw [hid]; exact ho)

end Histories

/-- Since a revocation, whatever covers its pairs is new. -/
structure Fresh (approvalTimeout : Duration) (revocation : Revocation) (history : List Occurrence)
    (s : State) : Prop where
  grants : ∀ {c k d}, revocation.Covers c k → s.broker.approval.grants.get? c k = some d →
    Made approvalTimeout history c k d
  asked : ∀ {p k}, s.broker.approval.pending = some p →
    revocation.Covers p.request.clientSessionId k → k ∈ p.request.secretIds →
    AskedIn approvalTimeout history p.request k
  approved : ∀ {p k e}, s.broker.approval.pending = some p →
    revocation.Covers p.request.clientSessionId k → k ∈ p.request.secretIds → p.decision = some e →
    e.approves → ApprovedIn approvalTimeout history p.request k
  contexts : ∀ context ∈ s.contexts,
    (∃ o ∈ history, o.Captures context) ∨ context.revision < s.broker.approval.revision

section Steps

variable {revocation : Revocation} {history : List Occurrence} {s s' : State} {e : Event}

/-- What is pending under a new call was pending, or the call has just asked for it. -/
lemma Fresh.asks (h : Fresh approvalTimeout revocation history s) {call : Call} {p : PendingState}
    {k : SecretId} (hcause : Cause s e call)
    (hp : (call.after approvalTimeout s.broker.env s.broker.approval).pending = some p)
    (hcovers : revocation.Covers p.request.clientSessionId k) (hk : k ∈ p.request.secretIds) :
    AskedIn approvalTimeout (history ++ [⟨s, e⟩]) p.request k := by
  have hkept : Remains s.broker.approval p →
      AskedIn approvalTimeout (history ++ [⟨s, e⟩]) p.request k := by
    rintro ⟨q, hq, hsame, -⟩
    exact (h.asked hq (hsame.client ▸ hcovers) (hsame.secretIds ▸ hk)).snoc hsame _
  by_cases hask : ∃ request token, call = .authorize request token
  · obtain ⟨request, token, rfl⟩ := hask
    rcases authorize_remains hp with hold | ⟨hnew, w, hw⟩
    · exact hkept hold
    · cases hcause with
      | revoke hsilent => cases hsilent
      | broker hcause _ =>
        cases hcause with
        | plain hplain => cases hplain
        | silent hsilent => cases hsilent
        | ask ht hs =>
          exact ⟨_, List.mem_append_right _ List.mem_cons_self, _,
            ⟨_, _, _, _, w, rfl, ht, hs, rfl, hw⟩, hnew.id.symm, hnew.client.symm,
            hnew.secrets k hk⟩
  · push Not at hask
    exact hkept (Call.remains hask hp)

/-- A grant that a call makes is new. -/
lemma Fresh.grant (h : Fresh approvalTimeout revocation history s) {call : Call} {c v : Uuid}
    {k : SecretId} {d : GrantDeadline} (hcause : Cause s e call) (hcovers : revocation.Covers c k)
    (hgrants : Approval.Occurrence.Grants ⟨Occurrence.world ⟨s, e⟩, .call call⟩ c k d v) :
    Made approvalTimeout (history ++ [⟨s, e⟩]) c k d := by
  cases hgrants with
  | @approval p decision _ _ htakes hk =>
    obtain ⟨w, hw, -⟩ := htakes.event
    cases hw
    obtain ⟨q, hq, hf⟩ := quiet_purge.pending htakes.pending
    have happroved : ApprovedIn approvalTimeout history p.request k := by
      have hold := h.approved hq (hf.client ▸ hcovers) (hf.toSameRequest.secretIds ▸ hk)
        (hf.approved htakes.decision htakes.approves) htakes.approves
      obtain ⟨asked, approved, request, horder, hasks, hid, hclient, hrest⟩ := hold
      exact ⟨asked, approved, request, horder, hasks, hid.trans hf.id.symm,
        hclient.trans hf.client.symm, hrest⟩
    cases hcause with
    | revoke hsilent => cases hsilent
    | broker hcause _ =>
      cases hcause with
      | plain hplain => cases hplain
      | silent hsilent => cases hsilent
      | poll ht hs =>
        exact happroved.made ⟨_, _, _, _, w, p, decision, rfl, ht, hs, htakes, rfl, rfl, hk⟩
  | @consent context secrets _ _ hconsents hk =>
    obtain ⟨deadline, validate, hevent, hok, -⟩ := hconsents.event
    cases hevent
    cases hcause with
    | revoke hsilent => cases hsilent
    | broker hcause hknown =>
      cases hcause with
      | silent hsilent => cases hsilent
      | plain _ =>
        have hmem : context ∈ s.contexts := of_decide_eq_true hknown
        rcases h.contexts context hmem with ⟨capture, hcapture, hcaptures⟩ | hstale
        · exact .consent ((List.singleton_sublist.mpr hcapture).append (.refl [_])) hcaptures rfl
            ⟨secrets, _, rfl, hk, hconsents⟩
        · -- the context is older than the revocation
          obtain ⟨-, -, -, -, -, -, hrevision, -⟩ := grantUnattended_ok hok
          exact absurd hrevision.symm hstale.ne

/-- A context is captured now, or was there. -/
lemma contexts_of_apply {context : UnattendedContext} (happly : s.apply approvalTimeout e = some s')
    (hc : context ∈ s'.contexts) : Occurrence.Captures ⟨s, e⟩ context ∨ context ∈ s.contexts := by
  cases e with
  | broker e =>
    obtain ⟨-, b, -, rfl⟩ := apply_broker happly
    rcases List.mem_append.mp hc with hc | hc
    · exact .inl ⟨e, rfl, Option.mem_toList.mp hc⟩
    · exact .inr hc
  | begin v revocation =>
    obtain ⟨-, stage, -, -, -, rfl⟩ := apply_begin happly
    exact .inr hc
  | revoke v operation =>
    obtain ⟨t, -, hmove⟩ := stepRevoke_move happly
    exact .inr (hmove.frame.2.2.1 ▸ hc)

lemma Fresh.apply (h : Fresh approvalTimeout revocation history s)
    (happly : s.apply approvalTimeout e = some s') :
    Fresh approvalTimeout revocation (history ++ [⟨s, e⟩]) s' := by
  have hcontexts : ∀ context ∈ s'.contexts, (∃ o ∈ history ++ [⟨s, e⟩], o.Captures context) ∨
      context.revision < s'.broker.approval.revision := by
    intro context hc
    rcases contexts_of_apply happly hc with hnew | hold
    · exact .inl ⟨_, List.mem_append_right _ List.mem_cons_self, hnew⟩
    · rcases h.contexts context hold with ⟨o, ho, hcaptures⟩ | hstale
      · exact .inl ⟨o, List.mem_append_left _ ho, hcaptures⟩
      · exact .inr (hstale.trans_le (apply_revision happly))
  rcases apply_cause happly with hsame | ⟨call, hcause, hafter⟩
  · refine ⟨fun hcovers hg => ?_, fun hp hcovers hk => ?_, fun hp hcovers hk he ha => ?_, hcontexts⟩
    · exact (h.grants hcovers (hsame ▸ hg)).snoc _
    · exact (h.asked (hsame ▸ hp) hcovers hk).snoc .refl _
    · exact (h.approved (hsame ▸ hp) hcovers hk he ha).snoc .refl _
  · have hchange : Change s.broker.env s.broker.approval call s'.broker.approval :=
      hafter ▸ call.change
    refine ⟨fun hcovers hg => ?_, fun hp hcovers hk => ?_, fun hp hcovers hk he ha => ?_, hcontexts⟩
    · rcases hchange.grants (w := Occurrence.world ⟨s, e⟩) hg with hold | ⟨v, hnew⟩
      · exact (h.grants hcovers hold).snoc _
      · exact h.grant hcause hcovers hnew
    · rw [hafter] at hp
      exact h.asks hcause hp hcovers hk
    · rcases hchange.approved hp he ha with
        ⟨q, hq, hsame, hqe⟩ | ⟨q, decision, rfl, rfl, hsame, hq, -, hok⟩
      · exact (h.approved hq (hsame.client ▸ hcovers) (hsame.secretIds ▸ hk) hqe ha).snoc hsame _
      · obtain ⟨q', hq', hf⟩ := quiet_purge.pending hq
        have hall := hsame.trans hf.toSameRequest
        have hasked := h.asked hq' (hall.client ▸ hcovers) (hall.secretIds ▸ hk)
        cases hcause with
        | revoke hsilent => cases hsilent
        | broker hcause _ =>
          cases hcause with
          | silent hsilent => cases hsilent
          | plain _ =>
            refine hasked.approved hall ?_
            rw [← hf.id]
            exact ⟨decision, rfl, ha, hok⟩

end Steps

/-! ### The step that takes the grants away -/

section Step

variable {env : Env} {a : ApprovalState} {revocation : Revocation}

omit [UnicodeNormalization] in
/-- Exactly the grants of its pairs go, and what has expired. -/
lemma get?_of_result {c : Uuid} {k : SecretId} {d : GrantDeadline}
    (h : revocation.result env a = .ok ()) :
    (revocation.call.after approvalTimeout env a).grants.get? c k = some d ↔
      ¬ revocation.Covers c k ∧ a.grants.get? c k = some d ∧ d.remaining env.clock ≠ 0 := by
  cases revocation with
  | grants =>
    have hnone : a.revokeAll.2.grants.get? c k = none := get?_revokeAll_of_ok h c k
    exact ⟨fun hg => (by cases hg.symm.trans hnone), fun hg => (hg.1 trivial).elim⟩
  | session client => exact get?_revokeClient_of_ok h
  | grant client secret =>
    cases hresult : (a.revokePair env client secret).1 with
    | error e =>
      rw [Revocation.result, hresult] at h
      cases h
    | ok revoked => exact get?_revokePair_of_ok hresult

omit [UnicodeNormalization] in
/-- Every context from before is stale. -/
lemma revision_lt_of_result (h : revocation.result env a = .ok ()) :
    a.revision < (revocation.call.after approvalTimeout env a).revision := by
  have hroom : a.revision < u64Max := by
    rcases @nextRevision_cases a with ⟨e, he⟩ | ⟨revision, hnext, -⟩
    · cases revocation with
      | grants =>
        rw [Revocation.result, revokeAll, he] at h
        cases h
      | session client =>
        rw [Revocation.result, revokeClient, he] at h
        cases h
      | grant client secret =>
        rw [Revocation.result, revokePair, he] at h
        cases h
    · obtain ⟨rfl, hmax⟩ := checkedAdd_eq_some.mp hnext
      omega
  refine revision_lt_of_revises ?_ hroom
  cases revocation <;> exact trivial

end Step

/-- What a revocation takes away is gone behind its step, and nothing that could bring it back was
there: what waits is of other runs, and what was captured is stale. -/
lemma fresh_of_revokes {o : Occurrence} {s' : State} {v : ℕ} {revocation : Revocation}
    (hinv : SystemInv o.before) (ho : o.Revokes v revocation)
    (happly : o.before.apply approvalTimeout o.event = some s') :
    s'.broker.approval = revocation.call.after approvalTimeout o.before.broker.env
        o.before.broker.approval ∧
      s'.broker.runs.active = o.before.broker.runs.active ∧
      (∀ p, s'.broker.approval.pending = some p → ¬ revocation.Concerns p) ∧
      Fresh approvalTimeout revocation [] s' := by
  obtain ⟨⟨operation, he⟩, hv, hok⟩ := ho
  have hclear : revocation.kind.Clear o.before.broker.runs.active := hinv.gate.clear hv rfl
  rw [he] at happly
  have hrequested := (hinv.apply happly).requested
  rw [State.apply, State.stepRevoke, hv] at happly
  obtain ⟨hfree, rfl⟩ := of_callIn happly
  have hgrants : ∀ {c k d}, revocation.Covers c k →
      (revocation.call.after approvalTimeout o.before.broker.env
        o.before.broker.approval).grants.get? c k ≠ some d :=
    fun hc hg => ((get?_of_result hok).mp hg).1 hc
  have hpending : ∀ p, (revocation.call.after approvalTimeout o.before.broker.env
      o.before.broker.approval).pending = some p → ¬ revocation.Concerns p := by
    intro p hp hconcerns
    obtain ⟨q, hq, hsame, -⟩ := Call.remains (fun request token heq => by
      cases revocation <;> cases heq) hp
    have hq' : revocation.Concerns q := by
      cases revocation with
      | grants => trivial
      | session client => exact hsame.client.symm.trans hconcerns
      | grant client secret =>
        exact ⟨hsame.client.symm.trans hconcerns.1, hsame.requested ▸ hconcerns.2⟩
    obtain ⟨_, _, _, _, _, -, -, -, -, hnot⟩ := hinv.stops hq hq'
    exact hnot hclear
  have hcovers : ∀ {p k}, (revocation.call.after approvalTimeout o.before.broker.env
      o.before.broker.approval).pending = some p → k ∈ p.request.secretIds →
      ¬ revocation.Covers p.request.clientSessionId k := by
    intro p k hp hk hc
    refine hpending p hp ?_
    cases revocation with
    | grants => trivial
    | session client => exact hc
    | grant client secret => exact ⟨hc.1, hc.2 ▸ hrequested p k hp hk⟩
  refine ⟨rfl, rfl, hpending, ⟨fun hc hg => (hgrants hc hg).elim,
    fun hp hc hk => (hcovers hp hk hc).elim, fun hp hc hk => (hcovers hp hk hc).elim,
    fun context hcontext => .inr ?_⟩⟩
  exact (hinv.contexts context hcontext).trans_lt (revision_lt_of_result hok)

/-- A revocation that has returned, or will, has taken its step. -/
lemma revokes_of_returned {env : Env} {grantLifetime : Duration} {fileExists : Bool} {s : State}
    {history : List Occurrence}
    (hrun : Run (Step approvalTimeout) (.initial env grantLifetime fileExists) history s) :
    ∀ v t, s.revokes v = some t → t.stage.result? = some (.ok ()) →
      ∃ o ∈ history, o.Revokes v t.revocation := by
  refine hrun.history_invariant (I := fun (history : List Occurrence) s => ∀ v t,
    s.revokes v = some t → t.stage.result? = some (.ok ()) →
      ∃ o ∈ history, Occurrence.Revokes o v t.revocation)
    (fun _ _ h => (by cases h)) ?_
  rintro history s ⟨s₀, e⟩ s' h hstep
  obtain ⟨rfl, happly⟩ := hstep.inv
  have hold : ∀ {v t}, s₀.revokes v = some t → t.stage.result? = some (.ok ()) →
      ∃ o ∈ history ++ [⟨s₀, e⟩], Occurrence.Revokes o v t.revocation := by
    intro v t hv hr
    obtain ⟨o, ho, hrevokes⟩ := h v t hv hr
    exact ⟨o, List.mem_append_left _ ho, hrevokes⟩
  intro v t hv hr
  cases e with
  | broker e =>
    obtain ⟨-, b, -, rfl⟩ := apply_broker happly
    exact hold hv hr
  | begin v' revocation =>
    obtain ⟨-, stage, -, hnone, -, rfl⟩ := apply_begin happly
    rcases revokes_update (s := s₀) (t := ⟨revocation, stage⟩) rfl hv with ⟨-, rfl⟩ | ⟨-, hv⟩
    · rw [hnone] at hr
      cases hr
    · exact hold hv hr
  | revoke v' operation =>
    obtain ⟨t', hv', hmove⟩ := stepRevoke_move happly
    have hmoved : ∀ {stage : RevokeStage},
        s'.revokes = Function.update s₀.revokes v' (some { t' with stage := stage }) →
        (stage.result? = some (.ok ()) →
          ∃ o ∈ history ++ [⟨s₀, .revoke v' operation⟩], Occurrence.Revokes o v' t'.revocation) →
        ∃ o ∈ history ++ [⟨s₀, .revoke v' operation⟩], Occurrence.Revokes o v t.revocation := by
      intro stage hrevokes hnew
      rcases revokes_update hrevokes hv with ⟨rfl, rfl⟩ | ⟨-, hv⟩
      · exact hnew hr
      · exact hold hv hr
    cases hmove with
    | outside _ _ _ _ hfailed => exact hmoved rfl fun hr => (hfailed hr).elim
    | cancel _ => exact hmoved rfl fun hr => (by cases hr)
    | operation _ _ hfailed _ => exact hmoved rfl fun hr => (hfailed hr).elim
    | block _ _ _ hnone _ => exact hmoved rfl fun hr => (by rw [hnone] at hr; cases hr)
    | drained _ _ => exact hmoved rfl fun hr => (by cases hr)
    | revoke hs _ =>
      refine hmoved rfl fun hr => ⟨_, List.mem_append_right _ List.mem_cons_self, ⟨operation, rfl⟩, ?_,
        Option.some.inj hr⟩
      rw [hv', ← hs]
    | release hs =>
      refine hmoved rfl fun hr => hold hv' ?_
      rw [hs]
      exact hr

/-- A thread is of the same revocation all along. -/
lemma revocation_of_run {s s' : State} {rest : List Occurrence} {v : ℕ} {t : RevokeThread}
    {revocation : Revocation} {stage : RevokeStage} (hv : s.revokes v = some t)
    (hrun : Run (Step approvalTimeout) s rest s')
    (hv' : s'.revokes v = some ⟨revocation, stage⟩) : Under v revocation False s := by
  have hunder : Under v t.revocation False s := ⟨t.stage, hv, False.elim⟩
  obtain ⟨stage', h, -⟩ := hunder.run hrun
  rw [hv'] at h
  cases h
  exact hunder

/-- Behind its step a revocation is past it. -/
lemma under_of_revokes {o : Occurrence} {s' : State} {v : ℕ} {revocation : Revocation}
    (ho : o.Revokes v revocation) (happly : o.before.apply approvalTimeout o.event = some s') :
    Under v revocation True s' := by
  obtain ⟨⟨operation, he⟩, hv, -⟩ := ho
  rw [he, State.apply, State.stepRevoke, hv] at happly
  obtain ⟨-, rfl⟩ := of_callIn happly
  exact ⟨_, Function.update_self .., fun _ => rfl⟩

/-- The steps of `revoke_session` and `revoke_grant` before and after theirs leave the approvals
alone. -/
lemma others_quiet {env : Env} {grantLifetime : Duration} {fileExists : Bool} {s behind : State}
    {before after : List Occurrence} {o : Occurrence} {v : ℕ} {revocation : Revocation}
    (hbefore : Run (Step approvalTimeout) (.initial env grantLifetime fileExists) before o.before)
    (hrevokes : o.Revokes v revocation)
    (happly : o.before.apply approvalTimeout o.event = some behind)
    (hafter : Run (Step approvalTimeout) behind after s) :
    ∀ o' ∈ before ++ after, ∀ operation s', o'.event = .revoke v operation →
      o'.before.apply approvalTimeout o'.event = some s' → revocation ≠ .grants →
        s'.broker.approval = o'.before.broker.approval := by
  intro o' ho' operation s' he happly' hgrants
  rw [he] at happly'
  obtain ⟨t, ht, -⟩ := stepRevoke_move happly'
  rcases List.mem_append.mp ho' with ho' | ho'
  · obtain ⟨first, rest, rfl⟩ := List.append_of_mem ho'
    obtain ⟨u, hfirst, hu, hrest⟩ := cut hbefore
    rw [he, happly'] at hu
    cases hu
    have hunder := revocation_of_run ht (.cons (.mk (he ▸ happly')) hrest) hrevokes.2.1
    rcases approval_of_under hunder (systemInv_initial.run hfirst).outside hgrants happly' with
      hsame | ⟨-, hpast⟩
    · exact hsame
    · -- it would be past its step when it takes it
      obtain ⟨stage', hv', hresult⟩ := hpast.run hrest
      rw [hrevokes.2.1] at hv'
      cases hv'
      cases hresult trivial
  · obtain ⟨first, rest, rfl⟩ := List.append_of_mem ho'
    obtain ⟨u, hfirst, -⟩ := cut hafter
    have hinv : SystemInv o.before := systemInv_initial.run hbefore
    obtain ⟨stage', hv', hresult⟩ := (under_of_revokes hrevokes happly).run hfirst
    rcases approval_of_under ⟨stage', hv', False.elim⟩ ((hinv.apply happly).run hfirst).outside hgrants
      happly' with hsame | ⟨hblocked, -⟩
    · exact hsame
    · rw [hblocked] at hv'
      cases hv'
      cases hresult trivial

/-- **A revocation is complete and exact.** Where `revoke_grants` (not finding a lock from outside in
progress), `revoke_session` or `revoke_grant` has returned without an error, it has taken a step that
takes the grants away. At that step no run is active that it has to stop, no request it concerns is
pending behind it, and of the grants exactly those of its pairs are gone, and what has expired; no
other step that `revoke_session` or `revoke_grant` takes touches grants or requests at all. A grant
of its pairs that exists later comes of a request that was made, and approved, after that step, or of
a consent on a context that was captured after it. And a request it concerns that is pending while it
keeps new runs out, at that step for instance, has a thread that waits and can only be told that the
approval was cancelled. -/
theorem revocation_complete (grantLifetime : Duration) (env : Env) (fileExists : Bool) (s : State)
    (history : List Occurrence)
    (hrun : Run (Step approvalTimeout) (.initial env grantLifetime fileExists) history s) (v : ℕ)
    (revocation : Revocation) (hreturned : s.revokes v = some ⟨revocation, .returned (.ok ())⟩) :
    (∃ (before : List Occurrence) (o : Occurrence) (after : List Occurrence) (behind : State),
      history = before ++ o :: after ∧ o.Revokes v revocation ∧
      o.before.apply approvalTimeout o.event = some behind ∧
      Run (Step approvalTimeout) behind after s ∧
      revocation.kind.Clear o.before.broker.runs.active ∧
      behind.broker.runs.active = o.before.broker.runs.active ∧
      (∀ p, behind.broker.approval.pending = some p → ¬ revocation.Concerns p) ∧
      (∀ c k d, behind.broker.approval.grants.get? c k = some d ↔ ¬ revocation.Covers c k ∧
        o.before.broker.approval.grants.get? c k = some d ∧
          d.remaining o.before.broker.env.clock ≠ 0) ∧
      (∀ o' ∈ before ++ after, ∀ operation s', o'.event = .revoke v operation →
        o'.before.apply approvalTimeout o'.event = some s' → revocation ≠ .grants →
          s'.broker.approval = o'.before.broker.approval) ∧
      ∀ c k d, revocation.Covers c k → s.broker.approval.grants.get? c k = some d →
        Made approvalTimeout after c k d) ∧
    ∀ (before : List Occurrence) (o : Occurrence) (after : List Occurrence) stage p,
      history = before ++ o :: after →
      o.before.revokes v = some ⟨revocation, stage⟩ → stage.blocks →
      o.before.broker.approval.pending = some p → revocation.Concerns p →
      ∃ r t plan w, WaitsFor o.before.broker r t plan w p ∧
        ∀ o' ∈ o :: after, ∀ result, o'.Answers r result → result = .error .approvalCancelled := by
  constructor
  · obtain ⟨o, ho, hrevokes⟩ := revokes_of_returned hrun v _ hreturned rfl
    obtain ⟨before, after, rfl⟩ := List.append_of_mem ho
    obtain ⟨behind, hbefore, happly, hafter⟩ := cut hrun
    have hinv : SystemInv o.before := systemInv_initial.run hbefore
    obtain ⟨happroval, hactive, hpending, hfresh⟩ := fresh_of_revokes hinv hrevokes happly
    have hlater : Fresh approvalTimeout revocation after s := by
      refine hafter.history_invariant (I := Fresh approvalTimeout revocation) hfresh ?_
      rintro after s o s' h ⟨happly⟩
      exact h.apply happly
    refine ⟨before, o, after, behind, rfl, hrevokes, happly, hafter,
      hinv.gate.clear hrevokes.2.1 rfl, hactive, hpending, fun c k d => ?_, ?_,
      fun c k d => hlater.grants⟩
    · rw [happroval]
      exact get?_of_result hrevokes.2.2
    · exact others_quiet hbefore hrevokes happly hafter
  · rintro before o after stage p rfl hv hblocks hp hconcerns
    obtain ⟨behind, hbefore, happly, hafter⟩ := cut hrun
    have hinv : SystemInv o.before := systemInv_initial.run hbefore
    obtain ⟨r, t, plan, w, a, hwaits, ha, htoken, hstops, -⟩ := hinv.stops hp hconcerns
    have hdoomed : Doomed r t.cancellation o.before :=
      ⟨⟨t, hwaits.thread, rfl⟩, htoken ▸ hinv.gate.stopped hv hblocks ha hstops⟩
    exact ⟨r, t, plan, w, hwaits, hdoomed.run hinv (.cons (.mk happly) hafter)⟩

end Runs

/-! ### A grant that is revoked while its run is under way -/

section Dismissal

local instance dismissalText : UnicodeNormalization := asciiNormalization

def dismissal : Revocation := .grant deskThread.client ⟨.filled 2⟩

/-- A client that may work unattended has started a child; its grant is revoked, the child ends, and
the revocation goes on. -/
def dismissalEvents : List Event :=
  shiftEvents.map .broker ++
    [.begin 0 dismissal, .revoke 0 (.ok true), .revoke 0 (.ok true), .broker (.run 0 deskChoice),
      .revoke 0 (.ok true), .revoke 0 (.ok true), .revoke 0 (.ok true)]

def dismissalStart : State where
  broker := deskStart

def RevokeStage.hasReturned : RevokeStage → Bool
  | .returned (.ok ()) => true
  | _ => false

theorem revocation_complete_dismissal : ∃ s history,
    Run (Step deskTimeout) dismissalStart history s ∧
    s.revokes 0 = some ⟨dismissal, .returned (.ok ())⟩ ∧
    ∃ (o : Occurrence), o ∈ history ∧ o.Revokes 0 dismissal ∧
      dismissal.kind.Clear o.before.broker.runs.active := by
  have hplay : ((play (State.apply deskTimeout) dismissalStart dismissalEvents).any fun q =>
      (q.2.revokes 0).any fun t => t.revocation = dismissal ∧ t.stage.hasReturned) = true := by
    decide +kernel
  obtain ⟨⟨history, s⟩, hq, hs⟩ := (Option.any_eq_true _ _).mp hplay
  obtain ⟨⟨revocation, stage⟩, hv, ht⟩ := (Option.any_eq_true _ _).mp hs
  obtain ⟨rfl, hstage⟩ := of_decide_eq_true ht
  have hreturned : s.revokes 0 = some ⟨dismissal, .returned (.ok ())⟩ := by
    rw [hv]
    cases stage with
    | returned result =>
      cases result with
      | error e => cases hstage
      | ok u => rfl
    | _ => cases hstage
  have hrun : Run (Step deskTimeout) dismissalStart history s := run_of_play hq
  obtain ⟨⟨before, o, after, -, hhistory, hrevokes, -, -, hclear, -⟩, -⟩ :=
    revocation_complete _ _ _ s history hrun 0 dismissal hreturned
  refine ⟨s, history, hrun, hreturned, o, ?_, hrevokes, hclear⟩
  rw [hhistory]
  exact List.mem_append_right _ List.mem_cons_self

end Dismissal

end Ladon.BrokerRevoke

import Ladon.ApprovalRevoke
import Ladon.BrokerLock

/-!
Who waits for the approval that is pending.

A request is pending only as long as the thread that asked waits for the answer. So the run of a
pending approval is the active one, it asks for the secrets the run coordinator knows of, and the
thread gives up once its run is cancelled.
-/

namespace Ladon.Broker

open Ladon.Error Ladon.Model Ladon.Runner Ladon.Approval Ladon.Grants Ladon.Controller Ladon.Lib
  Ladon.Approval.ApprovalState

namespace RunStage

/-- The thread waits for an answer. -/
def waits : RunStage → Bool
  | .waiting _ _ => true
  | _ => false

end RunStage

lemma waits_stageOf {α : Type} {result : Except LadonError α} {next : α → RunStage}
    (h : ∀ a, (next a).waits = false) : (State.stageOf result next).waits = false := by
  cases result with
  | error e => rfl
  | ok a => exact h a

section Machine

variable [UnicodeNormalization] {approvalTimeout : Duration}

/-! ### Asking and waiting -/

/-- A call that neither asks for approval, answers, decides nor consents. -/
def isSilent : Call → Bool
  | .authorize _ _ | .poll _ | .decide _ _ | .grantUnattended _ _ _ _ => false
  | _ => true

/-- A thread asks for approval, or turns to see whether it has its answer, or does not wait. -/
inductive WaitMove (approvalTimeout : Duration) (b : State) (r : ℕ) (c : Choice) (t : RunThread) :
    State → Prop
  | ask {plan : ApprovalPlan} {s' : RunStage} (stage : t.stage = .prepared plan)
      (waits : ∀ plan' w, s' = .waiting plan' w → plan' = plan ∧ w.approvalId = c.approvalId ∧
        w.cancellation = t.cancellation)
      (waiting : ∀ w, (b.approval.authorize approvalTimeout b.env (State.request t plan c.approvalId)
        t.cancellation).1 = .waiting w → s' = .waiting plan w) :
      WaitMove approvalTimeout b r c t (b.callFor approvalTimeout r t
        (.authorize (State.request t plan c.approvalId) t.cancellation) s')
  | again {plan : ApprovalPlan} {w : Waiting} (stage : t.stage = .waiting plan w) :
      WaitMove approvalTimeout b r c t (b.callFor approvalTimeout r t (.poll w) (.waiting plan w))
  | answered {plan : ApprovalPlan} {w : Waiting} {result : Except LadonError GrantTicket}
      {s' : RunStage} (stage : t.stage = .waiting plan w)
      (answer : (b.approval.poll b.env w).1 = some result) (waitless : s'.waits = false) :
      WaitMove approvalTimeout b r c t (b.callFor approvalTimeout r t (.poll w) s')
  | other {b' : State} {s' : RunStage} (stage : t.stage.waits = false)
      (threads : b'.threads = Function.update b.threads r (some { t with stage := s' }))
      (waitless : s'.waits = false)
      (approval : b'.approval = b.approval ∨
        ∃ call, isSilent call ∧ b'.approval = call.after approvalTimeout b.env b.approval) :
      WaitMove approvalTimeout b r c t b'

lemma stepRun_wait {b b' : State} {r : ℕ} {c : Choice} {t : RunThread} (ht : b.threads r = some t)
    (h : b.stepRun approvalTimeout r c = some b') : WaitMove approvalTimeout b r c t b' := by
  -- a thread that works, or makes a call that is silent
  have work : t.stage.waits = false → ∀ {s'},
      b'.threads = Function.update b.threads r (some { t with stage := s' }) → s'.waits = false →
      b'.approval = b.approval → WaitMove approvalTimeout b r c t b' :=
    fun hstage _ hthreads hover hsame => .other hstage hthreads hover (.inl hsame)
  have call : t.stage.waits = false → ∀ {s'},
      b'.threads = Function.update b.threads r (some { t with stage := s' }) → s'.waits = false →
      ∀ call, isSilent call → b'.approval = call.after approvalTimeout b.env b.approval →
      WaitMove approvalTimeout b r c t b' :=
    fun hstage _ hthreads hover call hsilent hafter =>
      .other hstage hthreads hover (.inr ⟨call, hsilent, hafter⟩)
  unfold State.stepRun at h
  rw [ht] at h
  dsimp only at h
  cases hs : t.stage with
  | requested =>
    rw [hs] at h
    cases h
    refine work (by rw [hs]; rfl) rfl ?_ rfl
    cases (b.runs.tryStart t.cancellation t.client).1 <;> rfl
  | reserved =>
    rw [hs] at h
    obtain ⟨-, rfl⟩ := of_free h
    exact call (by rw [hs]; rfl) rfl (waits_stageOf fun _ => rfl)
      (.requireClientAccess t.client) rfl rfl
  | admitted =>
    rw [hs] at h
    obtain ⟨-, rfl⟩ := of_free h
    exact call (by rw [hs]; rfl) rfl rfl (.observeRun _ _ _) rfl rfl
  | observed =>
    rw [hs] at h
    dsimp only at h
    split at h
    · cases h
      exact work (by rw [hs]; rfl) rfl (waits_stageOf fun _ => rfl) rfl
    · cases h
      exact work (by rw [hs]; rfl) rfl (waits_stageOf fun _ => rfl) rfl
  | prepared plan =>
    rw [hs] at h
    obtain ⟨-, rfl⟩ := of_free h
    cases ha : (b.approval.authorize approvalTimeout b.env (State.request t plan c.approvalId)
        t.cancellation).1 with
    | done result =>
      refine .ask hs (fun plan' w hw => ?_) fun w hw => ?_
      · cases result <;> cases hw
      · rw [ha] at hw
        cases hw
    | waiting w =>
      obtain ⟨hid, htoken⟩ := authorize_waiting ha
      refine .ask hs (fun plan' w' hw => ?_) fun w' hw => ?_
      · cases hw
        exact ⟨rfl, hid, htoken⟩
      · rw [ha] at hw
        cases hw
        rfl
  | waiting plan w =>
    rw [hs] at h
    obtain ⟨-, rfl⟩ := of_free h
    cases hp : (b.approval.poll b.env w).1 with
    | none => exact .again hs
    | some result => exact .answered hs hp (waits_stageOf fun _ => rfl)
  | ticketed plan ticket | resolved plan ticket =>
    rw [hs] at h
    obtain ⟨-, rfl⟩ := of_free h
    refine call (by rw [hs]; rfl) rfl ?_ (.withValidGrant ticket) rfl rfl
    unfold State.checkStage
    split <;> rfl
  | planned _ | resolving _ _ _ | spawning _ _ _ | plain | plainAdmitted =>
    rw [hs] at h
    cases h
    exact work (by rw [hs]; rfl) rfl (waits_stageOf fun _ => rfl) rfl
  | plainResolved =>
    rw [hs] at h
    obtain ⟨-, rfl⟩ := of_free h
    exact call (by rw [hs]; rfl) rfl (waits_stageOf fun _ => rfl)
      (.requireClientAccess t.client) rfl rfl
  | running plan | plainRunning | failed e =>
    rw [hs] at h
    cases h
    exact work (by rw [hs]; rfl) rfl rfl rfl
  | refused | ended =>
    rw [hs] at h
    cases h

/-- What an event has to do with approvals: a thread asks or looks for its answer, a call is made from
elsewhere, or nothing. -/
inductive Cause (b : State) : Event → Call → Prop
  | ask {r : ℕ} {c : Choice} {t : RunThread} {plan : ApprovalPlan} (thread : b.threads r = some t)
      (stage : t.stage = .prepared plan) :
      Cause b (.run r c) (.authorize (State.request t plan c.approvalId) t.cancellation)
  | poll {r : ℕ} {c : Choice} {t : RunThread} {plan : ApprovalPlan} {w : Waiting}
      (thread : b.threads r = some t) (stage : t.stage = .waiting plan w) :
      Cause b (.run r c) (.poll w)
  | plain {call : Call} (h : isPlainCall call) : Cause b (.call call) call
  | silent {e : Event} {call : Call} (h : isSilent call) : Cause b e call

/-- **What an event has to do with approvals.** -/
theorem apply_cause {b b' : State} {e : Event} (h : b.apply approvalTimeout e = some b') :
    b'.approval = b.approval ∨
      ∃ call, Cause b e call ∧ b'.approval = call.after approvalTimeout b.env b.approval := by
  by_cases hrun : ∃ r c, e = .run r c
  · obtain ⟨r, c, rfl⟩ := hrun
    obtain ⟨t, ht, -⟩ := stepRun_move h
    cases stepRun_wait ht h with
    | ask hs _ _ => exact .inr ⟨_, .ask ht hs, rfl⟩
    | again hs => exact .inr ⟨_, .poll ht hs, rfl⟩
    | answered hs _ _ => exact .inr ⟨_, .poll ht hs, rfl⟩
    | other _ _ _ happroval =>
      rcases happroval with hsame | ⟨call, hsilent, hafter⟩
      · exact .inl hsame
      · exact .inr ⟨call, .silent hsilent, hafter⟩
  · rcases apply_approval h with hsame | ⟨-, call, hcall, hafter⟩
    · exact .inl hsame
    · refine .inr ⟨call, ?_, hafter⟩
      cases hcall with
      | plain hplain => exact .plain hplain
      | authorize _ _ | run _ => exact (hrun ⟨_, _, rfl⟩).elim
      | @beginLock l preserve _ hcall =>
        rw [hcall]
        cases preserve <;> exact .silent rfl
      | vaultLock hcall => rcases hcall with rfl | rfl | ⟨rfl, -⟩ <;> exact .silent rfl
      | _ => exact .silent rfl

/-- Every event but the step of a thread leaves those that wait waiting, and lets no others wait. -/
lemma threads_of_not_run {b b' : State} {e : Event} (h : b.apply approvalTimeout e = some b')
    (he : ∀ r c, e ≠ .run r c) {r : ℕ} {t : RunThread} (hw : t.stage.waits) :
    b'.threads r = some t ↔ b.threads r = some t := by
  have hupdate : ∀ {r₀ : ℕ} {t₀ : RunThread}, t₀.stage.waits = false →
      (∀ t₁, b.threads r₀ = some t₁ → t₁.stage.waits = false) →
      b'.threads = Function.update b.threads r₀ (some t₀) →
      (b'.threads r = some t ↔ b.threads r = some t) := by
    intro r₀ t₀ hnew hold hthreads
    by_cases hr : r = r₀
    · subst hr
      rw [hthreads, Function.update_self]
      refine ⟨fun ht => ?_, fun ht => ?_⟩
      · cases ht
        rw [hnew] at hw
        cases hw
      · rw [hold t ht] at hw
        cases hw
    · rw [hthreads, Function.update_of_ne hr]
  cases apply_move h with
  | @run r c => exact (he r c rfl).elim
  | @abandon r₀ err t₀ ht₀ _ _ =>
    refine @hupdate r₀ { t₀ with stage := .failed err } rfl (fun t₁ ht₁ => ?_) rfl
    rw [ht₀] at ht₁
    cases ht₁
    rw [State.apply, State.abandon, ht₀] at h
    dsimp only at h
    cases hs : t₀.stage with
    | waiting plan w =>
      rw [hs] at h
      cases h
    | _ => rfl
  | lock hmove => rw [hmove.frame.1]
  | @request r₀ t₀ hnew =>
    refine @hupdate r₀ { t₀ with stage := .requested } rfl (fun t₁ ht₁ => ?_) rfl
    rw [hnew] at ht₁
    cases ht₁
  | other hthreads _ _ _ _ _ => rw [hthreads]
  | _ => exact Iff.rfl

/-! ### Who waits -/

/-- The thread waits for the answer to this request. -/
structure WaitsFor (b : State) (r : ℕ) (t : RunThread) (plan : ApprovalPlan) (w : Waiting)
    (p : PendingState) : Prop where
  thread : b.threads r = some t
  stage : t.stage = .waiting plan w
  id : w.approvalId = p.request.id
  client : p.request.clientSessionId = t.client
  requested : ∀ k ∈ p.requestedSecretIds, k ∈ plan.secrets.map ApprovalSecret.id

lemma WaitsFor.same {b b' : State} {r : ℕ} {t : RunThread} {plan : ApprovalPlan} {w : Waiting}
    {p q : PendingState} (h : WaitsFor b r t plan w q) (hthread : b'.threads r = some t)
    (hsame : p.SameRequest q) : WaitsFor b' r t plan w p :=
  ⟨hthread, h.stage, h.id.trans hsame.id.symm, hsame.client.trans h.client,
    fun k hk => h.requested k (hsame.requested ▸ hk)⟩

/-- What is pending is waited for, and who waits gives up with its own run. -/
structure WaitInv (b : State) : Prop where
  waiting : ∀ {p}, b.approval.pending = some p → ∃ r t plan w, WaitsFor b r t plan w p
  token : ∀ {r t plan w}, b.threads r = some t → t.stage = .waiting plan w →
    w.cancellation = t.cancellation

lemma waitInv_initial {env : Env} {grantLifetime : Duration} {fileExists : Bool} :
    WaitInv (State.initial env grantLifetime fileExists) :=
  ⟨fun h => (by cases h), fun h => (by cases h)⟩

/-- What was pending is waited for still, where its thread has not moved. -/
lemma WaitInv.kept {b b' : State} {p : PendingState} (h : WaitInv b) (hp : Remains b.approval p)
    (hthreads : ∀ r t, b.threads r = some t → (∃ plan w, t.stage = .waiting plan w ∧
      w.approvalId = p.request.id) → b'.threads r = some t) :
    ∃ r t plan w, WaitsFor b' r t plan w p := by
  obtain ⟨q, hq, hsame, -⟩ := hp
  obtain ⟨r, t, plan, w, hw⟩ := h.waiting hq
  exact ⟨r, t, plan, w, hw.same (hthreads r t hw.thread
    ⟨plan, w, hw.stage, hw.id.trans hsame.id.symm⟩) hsame⟩

lemma WaitInv.ask {b b' : State} {r : ℕ} {t : RunThread} (h : WaitInv b) (ht : b.threads r = some t)
    {c : Choice} (hmove : WaitMove approvalTimeout b r c t b') : WaitInv b' := by
  have hother : ∀ {s' : RunStage} {r' : ℕ} {t' : RunThread}, r' ≠ r → b.threads r' = some t' →
      b'.threads = Function.update b.threads r (some { t with stage := s' }) →
      b'.threads r' = some t' := by
    intro s' r' t' hne ht' hthreads
    rw [hthreads, Function.update_of_ne hne, ht']
  have htoken : ∀ {s' : RunStage}, (∀ plan w, s' = .waiting plan w → w.cancellation = t.cancellation) →
      b'.threads = Function.update b.threads r (some { t with stage := s' }) →
      ∀ {r' t' plan w}, b'.threads r' = some t' → t'.stage = .waiting plan w →
        w.cancellation = t'.cancellation := by
    intro s' hs' hthreads r' t' plan w ht' hw
    rcases threads_update hthreads ht' with ⟨-, rfl⟩ | ⟨-, ht'⟩
    · exact hs' plan w hw
    · exact h.token ht' hw
  cases hmove with
  | @ask plan s' hs hwaits hwaiting =>
    refine ⟨fun hp => ?_, htoken (fun plan' w hw => (hwaits plan' w hw).2.2) rfl⟩
    rcases authorize_remains hp with hold | ⟨hnew, w, hw⟩
    · refine h.kept hold fun r' t' ht' ⟨plan', w, hs', _⟩ => hother ?_ ht' rfl
      rintro rfl
      rw [ht] at ht'
      cases ht'
      rw [hs] at hs'
      cases hs'
    · have hs' := hwaiting w hw
      refine ⟨r, { t with stage := s' }, plan, w, ⟨(Function.update_self ..), hs', ?_, hnew.client, ?_⟩⟩
      · exact (hwaits plan w hs').2.1.trans hnew.id.symm
      · exact hnew.requested
  | @again plan w hs =>
    refine ⟨fun hp => ?_, htoken (fun plan' w' hw => ?_) rfl⟩
    · have hold : Remains b.approval _ := Call.remains (fun _ _ h => (by cases h)) hp
      refine h.kept hold fun r' t' ht' _ => ?_
      by_cases hr : r' = r
      · subst hr
        rw [ht] at ht'
        cases ht'
        refine (Function.update_self ..).trans ?_
        rw [← hs]
      · exact hother hr ht' rfl
    · cases hw
      exact h.token ht hs
  | @answered plan w result s' hs hanswer hover =>
    refine ⟨fun hp => ?_, htoken (fun plan' w' hw => ?_) rfl⟩
    · have hold : Remains b.approval _ := Call.remains (fun _ _ h => (by cases h)) hp
      refine h.kept hold fun r' t' ht' ⟨plan', w', hs', hid⟩ => hother ?_ ht' rfl
      rintro rfl
      rw [ht] at ht'
      cases ht'
      rw [hs] at hs'
      cases hs'
      exact poll_answered hanswer hp hid.symm
    · rw [hw] at hover
      cases hover
  | @other b' s' hs hthreads hover happroval =>
    refine ⟨@fun p hp => ?_, htoken (fun plan' w' hw => ?_) hthreads⟩
    · have hold : Remains b.approval p := by
        rcases happroval with hsame | ⟨call, hsilent, hafter⟩
        · exact ⟨_, hsame ▸ hp, .refl, fun hd => hd⟩
        · rw [hafter] at hp
          exact Call.remains (fun _ _ heq => by rw [heq] at hsilent; cases hsilent) hp
      refine h.kept hold fun r' t' ht' ⟨plan', w', hs', _⟩ =>
        hother ?_ ht' hthreads
      rintro rfl
      rw [ht] at ht'
      cases ht'
      rw [hs'] at hs
      cases hs
    · rw [hw] at hover
      cases hover

lemma WaitInv.apply {b b' : State} {e : Event} (h : WaitInv b)
    (happly : b.apply approvalTimeout e = some b') : WaitInv b' := by
  by_cases hrun : ∃ r c, e = .run r c
  · obtain ⟨r, c, rfl⟩ := hrun
    obtain ⟨t, ht, -⟩ := stepRun_move happly
    exact h.ask ht (stepRun_wait ht happly)
  · push Not at hrun
    have hthreads : ∀ {r t plan w}, t.stage = .waiting plan w →
        (b'.threads r = some t ↔ b.threads r = some t) := by
      intro r t plan w hs
      exact threads_of_not_run happly hrun (by rw [hs]; rfl)
    refine ⟨@fun p hp => ?_, fun ht hs => h.token ((hthreads hs).mp ht) hs⟩
    have hold : Remains b.approval p := by
      rcases apply_cause happly with hsame | ⟨call, hcause, hafter⟩
      · exact ⟨_, hsame ▸ hp, .refl, fun hd => hd⟩
      · rw [hafter] at hp
        refine Call.remains (fun request token heq => ?_) hp
        subst heq
        cases hcause with
        | ask => exact hrun _ _ rfl
        | plain hplain => cases hplain
        | silent hsilent => cases hsilent
    refine h.kept hold ?_
    rintro r t ht ⟨plan, w, hs, -⟩
    exact (hthreads hs).mpr ht

/-- The waiting goes on where the threads are as they were and nothing new is pending. -/
lemma WaitInv.frame {b b' : State} (h : WaitInv b) (hthreads : b'.threads = b.threads)
    (hpending : ∀ p, b'.approval.pending = some p → Remains b.approval p) : WaitInv b' := by
  refine ⟨fun hp => h.kept (hpending _ hp) fun r t ht _ => ?_, fun ht hs => ?_⟩
  · rw [hthreads]
    exact ht
  · rw [hthreads] at ht
    exact h.token ht hs

/-! ### What is asked for -/

/-- A plan asks for no secrets but those that the run coordinator is told of. -/
def Exact (b : State) : Prop :=
  ∀ r t plan, b.threads r = some t → t.stage.plan? = some plan →
    ∀ k ∈ plan.secrets.map ApprovalSecret.id, k ∈ plan.bindingSecretIds

lemma Exact.update {b b' : State} {r : ℕ} {t : RunThread} {s' : RunStage} (h : Exact b)
    (ht : b.threads r = some t)
    (hthreads : b'.threads = Function.update b.threads r (some { t with stage := s' }))
    (hplan : ∀ plan, s'.plan? = some plan → t.stage.plan? = some plan ∨
      ∃ bindings, b.controller.approvalPlan bindings = .ok plan) : Exact b' := by
  intro r' t' plan ht' hp
  rcases threads_update hthreads ht' with ⟨-, rfl⟩ | ⟨-, ht'⟩
  · rcases hplan plan hp with hold | ⟨bindings, hnew⟩
    · exact h r t plan ht hold
    · exact approvalPlan_exact hnew
  · exact h r' t' plan ht' hp

lemma Exact.move {b b' : State} {r : ℕ} {t : RunThread} (h : Exact b) (ht : b.threads r = some t)
    (hmove : Move approvalTimeout b r t b') : Exact b' := by
  have hsame : ∀ {s' : RunStage}, (∀ plan, s'.plan? = some plan → t.stage.plan? = some plan) →
      b'.threads = Function.update b.threads r (some { t with stage := s' }) → Exact b' :=
    fun hs hthreads => h.update ht hthreads fun plan hp => .inl (hs plan hp)
  cases hmove with
  | start _ _ _ => exact hsame (fun _ hp => (by cases hp)) rfl
  | milder hm _ => exact hsame hm.plan rfl
  | call _ hm _ _ => exact hsame hm.plan rfl
  | plan _ hplan =>
    refine h.update ht rfl fun plan' hp => .inr ?_
    cases hp
    exact ⟨_, hplan⟩
  | context _ hstage =>
    rcases hstage with ⟨-, rfl⟩ | ⟨plan, hs, rfl, -⟩
    · exact hsame (fun _ hp => (by cases hp)) rfl
    · exact hsame (fun _ hp => by rw [hs]; exact hp) rfl
  | authorize _ hs hnext =>
    rcases hnext with ⟨e, rfl⟩ | ⟨w, rfl, -⟩ | ⟨k, rfl, -⟩
    · exact hsame (fun _ hp => (by cases hp)) rfl
    · exact hsame (fun _ hp => by rw [hs]; exact hp) rfl
    · exact hsame (fun _ hp => by rw [hs]; exact hp) rfl
  | check _ _ hstage =>
    rcases hstage with ⟨hs, rfl⟩ | ⟨hs, rfl⟩
    · exact hsame (fun _ hp => by rw [hs]; exact hp) rfl
    · exact hsame (fun _ hp => by rw [hs]; exact hp) rfl
  | resolve hs hnext =>
    rcases hnext with ⟨e, rfl⟩ | ⟨rfl, -⟩
    · exact hsame (fun _ hp => (by cases hp)) rfl
    · exact hsame (fun _ hp => by rw [hs]; exact hp) rfl
  | spawn hs hnext =>
    rcases hnext with ⟨e, rfl⟩ | rfl
    · exact hsame (fun _ hp => (by cases hp)) rfl
    · exact hsame (fun _ hp => by rw [hs]; exact hp) rfl
  | plainResolve hm _ => exact hsame hm.plan rfl
  | plainSpawn _ hm _ => exact hsame hm.plan rfl
  | drop _ _ => exact hsame (fun _ hp => (by cases hp)) rfl

lemma Exact.apply {b b' : State} {e : Event} (h : Exact b)
    (happly : b.apply approvalTimeout e = some b') : Exact b' := by
  cases apply_move happly with
  | run ht hmove => exact h.move ht hmove
  | abandon ht _ _ => exact h.update ht rfl fun _ hp => (by cases hp)
  | lock hmove =>
    intro r t plan ht
    rw [hmove.frame.1] at ht
    exact h r t plan ht
  | @request r t _ =>
    intro r' t' plan ht' hp
    rcases threads_update rfl ht' with ⟨-, rfl⟩ | ⟨-, ht'⟩
    · cases hp
    · exact h r' t' plan ht' hp
  | other hthreads _ _ _ _ _ =>
    intro r t plan ht
    rw [hthreads] at ht
    exact h r t plan ht
  | _ => exact h

end Machine

end Ladon.Broker

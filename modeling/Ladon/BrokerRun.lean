import Ladon.BrokerSpec

/-!
What always holds in the broker: the thread that has a lease is the active run, a ticket is the one
its plan asked for, and as long as the approval coordinator is held, what the check found stands.
-/

namespace Ladon.Broker

open Ladon.Error Ladon.Model Ladon.Runner Ladon.Approval Ladon.Grants Ladon.Controller Ladon.Lib
  Ladon.Approval.ApprovalState

variable [UnicodeNormalization] {approvalTimeout : Duration}

/-- The threads agree with the coordinators. -/
structure Inv (b : State) : Prop where
  asked : ∀ {r t plan ticket}, b.threads r = some t → t.stage.plan? = some plan →
    t.stage.ticket? = some ticket → AskedFor t.client plan ticket
  covered : ∀ {r t plan}, b.threads r = some t → t.stage.plan? = some plan →
    ∀ k ∈ plan.bindingSecretIds, k ∈ plan.secrets.map ApprovalSecret.id
  held : ∀ {r t ticket checked}, b.threads r = some t → t.stage.held? = some (ticket, checked) →
    b.holder = some (.run r) ∧ Checked checked ticket b.approval
  lease : ∀ {r t}, b.threads r = some t → t.stage.leased →
    ∃ a, b.runs.active = some a ∧ a.cancellation = t.cancellation ∧ a.clientSessionId = t.client ∧
      ∀ plan, t.stage.context? = some plan → a.secretIds = some plan.bindingSecretIds
  unique : ∀ {r r' t t'}, b.threads r = some t → b.threads r' = some t' → t.stage.leased →
    t'.stage.leased → r = r'

lemma inv_initial {env : Env} {grantLifetime : Duration} {fileExists : Bool} :
    Inv (State.initial env grantLifetime fileExists) := by
  constructor <;> intro _ _ <;> intros <;> contradiction

/-- What is changed for one thread is seen by this one only. -/
lemma threads_update {b b' : State} {r r' : ℕ} {t t' : RunThread} {s' : RunStage}
    (hthreads : b'.threads = Function.update b.threads r (some { t with stage := s' }))
    (h : b'.threads r' = some t') :
    r' = r ∧ t' = { t with stage := s' } ∨ r' ≠ r ∧ b.threads r' = some t' := by
  rw [hthreads] at h
  by_cases hr : r' = r
  · subst hr
    rw [Function.update_self] at h
    exact .inl ⟨rfl, (Option.some.inj h).symm⟩
  · rw [Function.update_of_ne hr] at h
    exact .inr ⟨hr, h⟩

/-- Nothing that concerns the threads has changed. -/
lemma Inv.frame {b b' : State} (h : Inv b) (hthreads : b'.threads = b.threads)
    (hactive : b'.runs.active = b.runs.active)
    (hheld : (∀ r, b.holder ≠ some (.run r)) ∨ b'.holder = b.holder ∧ b'.approval = b.approval) :
    Inv b' := by
  constructor
  · intro r t plan ticket ht
    exact h.asked (hthreads ▸ ht)
  · intro r t plan ht
    exact h.covered (hthreads ▸ ht)
  · intro r t ticket checked ht hs
    obtain ⟨hh, hc⟩ := h.held (hthreads ▸ ht) hs
    rcases hheld with hfree | ⟨hholder, happroval⟩
    · exact (hfree r hh).elim
    · exact ⟨hholder.trans hh, happroval ▸ hc⟩
  · intro r t ht hs
    rw [hactive]
    exact h.lease (hthreads ▸ ht) hs
  · intro r r' t t' ht ht'
    exact h.unique (hthreads ▸ ht) (hthreads ▸ ht')

/-- One thread has moved on. -/
lemma Inv.update {b b' : State} {r : ℕ} {t : RunThread} {s' : RunStage} (h : Inv b)
    (ht : b.threads r = some t)
    (hthreads : b'.threads = Function.update b.threads r (some { t with stage := s' }))
    (hasked : ∀ plan ticket, s'.plan? = some plan → s'.ticket? = some ticket →
      AskedFor t.client plan ticket)
    (hcovered : ∀ plan, s'.plan? = some plan →
      ∀ k ∈ plan.bindingSecretIds, k ∈ plan.secrets.map ApprovalSecret.id)
    (hheld : ∀ ticket checked, s'.held? = some (ticket, checked) →
      b'.holder = some (.run r) ∧ Checked checked ticket b'.approval)
    (hothers : b.holder = none ∨ t.stage.held?.isSome ∨
      b'.holder = b.holder ∧ b'.approval = b.approval)
    (hlease : s'.leased → ∃ a, b'.runs.active = some a ∧ a.cancellation = t.cancellation ∧
      a.clientSessionId = t.client ∧
      ∀ plan, s'.context? = some plan → a.secretIds = some plan.bindingSecretIds)
    (hruns : t.stage.leased ∨ b.runs.active = none ∨
      b'.runs.active = b.runs.active ∧ ¬ s'.leased) : Inv b' := by
  -- no other thread has a lease where this one takes, keeps or drops its own
  have hother : ∀ {r' t'}, r' ≠ r → b.threads r' = some t' → t'.stage.leased →
      b'.runs.active = b.runs.active ∧ ¬ s'.leased := by
    intro r' t' hne ht' hl
    rcases hruns with hr | hr | hr
    · exact (hne (h.unique ht' ht hl hr)).elim
    · obtain ⟨a, ha, -⟩ := h.lease ht' hl
      rw [hr] at ha
      cases ha
    · exact hr
  constructor
  · intro r' t' plan ticket ht'
    rcases threads_update hthreads ht' with ⟨-, rfl⟩ | ⟨-, ht'⟩
    · exact hasked plan ticket
    · exact h.asked ht'
  · intro r' t' plan ht'
    rcases threads_update hthreads ht' with ⟨-, rfl⟩ | ⟨-, ht'⟩
    · exact hcovered plan
    · exact h.covered ht'
  · intro r' t' ticket checked ht' hs
    rcases threads_update hthreads ht' with ⟨rfl, rfl⟩ | ⟨hne, ht'⟩
    · exact hheld ticket checked hs
    · obtain ⟨hh, hc⟩ := h.held ht' hs
      rcases hothers with hfree | hself | ⟨hholder, happroval⟩
      · rw [hfree] at hh
        cases hh
      · obtain ⟨⟨ticket', checked'⟩, hself⟩ := Option.isSome_iff_exists.mp hself
        rw [(h.held ht hself).1] at hh
        cases hh
        exact (hne rfl).elim
      · exact ⟨hholder.trans hh, happroval ▸ hc⟩
  · intro r' t' ht' hs
    rcases threads_update hthreads ht' with ⟨rfl, rfl⟩ | ⟨hne, ht'⟩
    · exact hlease hs
    · rw [(hother hne ht' hs).1]
      exact h.lease ht' hs
  · intro r₁ r₂ t₁ t₂ ht₁ ht₂ hl₁ hl₂
    rcases threads_update hthreads ht₁ with ⟨rfl, rfl⟩ | ⟨hne₁, ht₁⟩
    · rcases threads_update hthreads ht₂ with ⟨rfl, rfl⟩ | ⟨hne₂, ht₂⟩
      · rfl
      · exact ((hother hne₂ ht₂ hl₂).2 hl₁).elim
    · rcases threads_update hthreads ht₂ with ⟨rfl, rfl⟩ | ⟨hne₂, ht₂⟩
      · exact ((hother hne₁ ht₁ hl₁).2 hl₂).elim
      · exact h.unique ht₁ ht₂ hl₁ hl₂

omit [UnicodeNormalization] in
/-- Starting a child changes nothing the lock looks at. -/
lemma spawnChild_active {runs : RunCoordinator} {cancelled : List Token}
    {launched : Except LadonError Unit} {a : ActiveRun} (h : runs.active = some a) :
    ∃ running, (runs.spawnChild cancelled launched).2.active =
      some { a with running := running } := by
  unfold RunCoordinator.spawnChild
  rw [h]
  dsimp only
  split_ifs
  · exact ⟨a.running, h⟩
  · exact ⟨a.running, h⟩
  · cases launched with
    | error e => exact ⟨a.running, h⟩
    | ok u => exact ⟨true, rfl⟩

/-- A thread that goes on with a weaker stage and the same lease. -/
lemma Inv.weaker {b b' : State} {r : ℕ} {t : RunThread} {s' : RunStage} (h : Inv b)
    (ht : b.threads r = some t) (hm : s'.Weaker t.stage)
    (hthreads : b'.threads = Function.update b.threads r (some { t with stage := s' }))
    (hothers : b.holder = none ∨ t.stage.held?.isSome ∨
      b'.holder = b.holder ∧ b'.approval = b.approval)
    (hactive : ∀ a, b.runs.active = some a →
      ∃ running, b'.runs.active = some { a with running := running })
    (hruns : t.stage.leased ∨ b'.runs.active = b.runs.active) : Inv b' := by
  refine h.update ht hthreads (fun plan ticket hp hk => h.asked ht (hm.plan _ hp) (hm.ticket _ hk))
    (fun plan hp => h.covered ht (hm.plan _ hp)) ?_ hothers ?_ ?_
  · intro ticket checked hs
    rw [hm.held] at hs
    cases hs
  · intro hl
    obtain ⟨a, ha, htoken, hclient, hcontext⟩ := h.lease ht (hm.leased hl)
    obtain ⟨running, ha'⟩ := hactive a ha
    exact ⟨_, ha', htoken, hclient, fun plan hp => hcontext plan (hm.context _ hp)⟩
  · rcases hruns with hl | hsame
    · exact .inl hl
    · by_cases hl : s'.leased
      · exact .inl (hm.leased hl)
      · exact .inr (.inr ⟨hsame, hl⟩)

lemma Inv.move {b b' : State} {r : ℕ} {t : RunThread} (h : Inv b) (ht : b.threads r = some t)
    (hmove : Move approvalTimeout b r t b') : Inv b' := by
  cases hmove with
  | start hs hidle _ =>
    refine h.update ht rfl (fun _ _ hp => (nomatch hp)) (fun _ hp => (nomatch hp))
      (fun _ _ hh => (nomatch hh)) (.inr (.inr ⟨rfl, rfl⟩)) (fun _ => ?_) (.inr (.inl hidle))
    exact ⟨_, rfl, rfl, rfl, fun _ hp => (nomatch hp)⟩
  | milder hm _ =>
    exact h.weaker ht hm.toWeaker rfl (.inr (.inr ⟨rfl, rfl⟩)) (fun a ha => ⟨a.running, ha⟩) (.inr rfl)
  | call hfree hm _ =>
    exact h.weaker ht hm.toWeaker rfl (.inl hfree) (fun a ha => ⟨a.running, ha⟩) (.inr rfl)
  | plan hs hplan =>
    refine h.update ht rfl (fun _ _ _ hk => (nomatch hk)) ?_ (fun _ _ hh => (nomatch hh))
      (.inr (.inr ⟨rfl, rfl⟩)) (fun _ => ?_) (.inl (by rw [hs]; rfl))
    · intro plan' hp
      cases hp
      exact approvalPlan_covered hplan
    · obtain ⟨a, ha, htoken, hclient, -⟩ := h.lease ht (by rw [hs]; rfl)
      exact ⟨a, ha, htoken, hclient, fun _ hp => (nomatch hp)⟩
  | @context a ids s' hactive hstage =>
    have hleased : t.stage.leased := by
      rcases hstage with ⟨hs, -⟩ | ⟨plan, hs, -⟩ <;> rw [hs] <;> rfl
    obtain ⟨a', ha', htoken, hclient, -⟩ := h.lease ht hleased
    obtain rfl := Option.some.inj (hactive.symm.trans ha')
    rcases hstage with ⟨hs, rfl⟩ | ⟨plan, hs, rfl, rfl⟩
    · refine h.update ht rfl (fun _ _ hp => (nomatch hp)) (fun _ hp => (nomatch hp))
        (fun _ _ hh => (nomatch hh)) (.inr (.inr ⟨rfl, rfl⟩)) (fun _ => ?_) (.inl hleased)
      exact ⟨_, rfl, htoken, hclient, fun _ hp => (nomatch hp)⟩
    · refine h.update ht rfl (fun _ _ _ hk => (nomatch hk)) (fun plan' hp => ?_)
        (fun _ _ hh => (nomatch hh)) (.inr (.inr ⟨rfl, rfl⟩)) (fun _ => ?_) (.inl hleased)
      · exact h.covered ht (hs ▸ hp)
      · refine ⟨_, rfl, htoken, hclient, fun plan' hp => ?_⟩
        cases hp
        rfl
  | @authorize plan approvalId s' hfree hs hnext =>
    have hleased : t.stage.leased := by rw [hs]; rfl
    have hplan : t.stage.plan? = some plan := by rw [hs]; rfl
    obtain ⟨a, ha, htoken, hclient, hcontext⟩ := h.lease ht hleased
    have hids : a.secretIds = some plan.bindingSecretIds := hcontext plan (by rw [hs]; rfl)
    rcases hnext with ⟨e, rfl⟩ | ⟨w, rfl, hasked⟩ | ⟨ticket, rfl, hasked⟩
    · exact h.weaker ht (RunStage.milder_failed hleased).toWeaker rfl (.inl hfree)
        (fun a ha => ⟨a.running, ha⟩) (.inl hleased)
    · refine h.update ht rfl (fun plan' ticket hp hk => ?_) (fun plan' hp => ?_)
        (fun _ _ hh => (nomatch hh)) (.inl hfree) (fun _ => ⟨a, ha, htoken, hclient, ?_⟩)
        (.inl hleased)
      · cases hp
        cases hk
        exact hasked
      · cases hp
        exact h.covered ht hplan
      · intro plan' hp
        cases hp
        exact hids
    · refine h.update ht rfl (fun plan' ticket hp hk => ?_) (fun plan' hp => ?_)
        (fun _ _ hh => (nomatch hh)) (.inl hfree) (fun _ => ⟨a, ha, htoken, hclient, ?_⟩)
        (.inl hleased)
      · cases hp
        cases hk
        exact hasked
      · cases hp
        exact h.covered ht hplan
      · intro plan' hp
        cases hp
        exact hids
  | @check plan ticket s' hfree hvalid hstage =>
    have hchecked := checked_of_valid hvalid
    have hsame : s'.plan? = t.stage.plan? ∧ s'.ticket? = t.stage.ticket? ∧
        s'.context? = t.stage.context? ∧ t.stage.leased ∧ s'.held? = some (ticket, b.env) := by
      rcases hstage with ⟨hs, rfl⟩ | ⟨hs, rfl⟩ <;> rw [hs] <;> exact ⟨rfl, rfl, rfl, rfl, rfl⟩
    obtain ⟨hplan, hticket, hcontext, hleased, hheld⟩ := hsame
    obtain ⟨a, ha, htoken, hclient, hids⟩ := h.lease ht hleased
    refine h.update ht rfl (fun plan' ticket' hp hk => h.asked ht (hplan ▸ hp) (hticket ▸ hk))
      (fun plan' hp => h.covered ht (hplan ▸ hp)) ?_ (.inl hfree)
      (fun _ => ⟨a, ha, htoken, hclient, fun plan' hp => hids plan' (hcontext ▸ hp)⟩) (.inl hleased)
    intro ticket' checked' hh
    rw [hheld] at hh
    cases hh
    exact ⟨rfl, hchecked⟩
  | @resolve amb plan ticket checked s' hs hnext =>
    have hweaker : s'.Weaker t.stage := by
      rw [hs]
      rcases hnext with ⟨e, rfl⟩ | ⟨rfl, -⟩
      · exact (RunStage.milder_failed rfl).toWeaker
      · exact ⟨fun _ h => h, fun _ h => h, fun _ h => h, rfl, fun _ => rfl, fun _ h => (nomatch h)⟩
    exact h.weaker ht hweaker rfl (.inr (.inl (by rw [hs]; rfl))) (fun a ha => ⟨a.running, ha⟩)
      (.inr rfl)
  | @spawn launched plan ticket checked s' hs hnext =>
    have hweaker : s'.Weaker t.stage := by
      rw [hs]
      rcases hnext with ⟨e, rfl⟩ | rfl
      · exact (RunStage.milder_failed rfl).toWeaker
      · exact ⟨fun _ h => h, fun _ h => (nomatch h), fun _ h => h, rfl, fun _ => rfl,
        fun _ h => (nomatch h)⟩
    exact h.weaker ht hweaker rfl (.inr (.inl (by rw [hs]; rfl))) (fun a ha => spawnChild_active ha)
      (.inl (by rw [hs]; rfl))
  | plainResolve hm _ =>
    exact h.weaker ht hm.toWeaker rfl (.inr (.inr ⟨rfl, rfl⟩)) (fun a ha => ⟨a.running, ha⟩) (.inr rfl)
  | plainSpawn hl hm _ =>
    exact h.weaker ht hm.toWeaker rfl (.inr (.inr ⟨rfl, rfl⟩)) (fun a ha => spawnChild_active ha)
      (.inl hl)
  | drop hl _ =>
    refine h.update ht rfl (fun _ _ hp => (nomatch hp)) (fun _ hp => (nomatch hp))
      (fun _ _ hh => (nomatch hh)) (.inr (.inr ⟨rfl, rfl⟩)) (fun hl => (nomatch hl)) (.inl hl)

/-! ### Whole runs -/

/-- A thread that begins has nothing yet. -/
lemma Inv.request {b : State} {r : ℕ} {t : RunThread} (h : Inv b) :
    Inv (b.setThread r t .requested) := by
  have hcases : ∀ {r' t'}, (b.setThread r t .requested).threads r' = some t' →
      t' = { t with stage := .requested } ∨ b.threads r' = some t' := by
    intro r' t' ht'
    rcases threads_update rfl ht' with ⟨-, h⟩ | ⟨-, h⟩
    · exact .inl h
    · exact .inr h
  constructor
  · intro r' t' plan ticket ht' hp
    rcases hcases ht' with rfl | ht'
    · cases hp
    · exact h.asked ht' hp
  · intro r' t' plan ht' hp
    rcases hcases ht' with rfl | ht'
    · cases hp
    · exact h.covered ht' hp
  · intro r' t' ticket checked ht' hh
    rcases hcases ht' with rfl | ht'
    · cases hh
    · exact h.held ht' hh
  · intro r' t' ht' hl
    rcases hcases ht' with rfl | ht'
    · cases hl
    · exact h.lease ht' hl
  · intro r₁ r₂ t₁ t₂ ht₁ ht₂ hl₁ hl₂
    rcases hcases ht₁ with rfl | ht₁
    · cases hl₁
    · rcases hcases ht₂ with rfl | ht₂
      · cases hl₂
      · exact h.unique ht₁ ht₂ hl₁ hl₂

lemma Inv.apply {b b' : State} {e : Event} (hinv : Inv b)
    (h : b.apply approvalTimeout e = some b') : Inv b' := by
  have hfree : b.holder = none → ∀ r, b.holder ≠ some (.run r) := by
    intro hn r hr
    rw [hn] at hr
    cases hr
  cases apply_move h with
  | run ht hmove => exact hinv.move ht hmove
  | abandon ht hm hunheld => exact hinv.move ht (@Move.milder _ approvalTimeout _ _ _ _ hm hunheld)
  | lock hmove =>
    obtain ⟨hthreads, -, hactive, hholder, happroval⟩ := hmove.frame
    refine hinv.frame hthreads hactive ?_
    rcases happroval with happroval | hn
    · exact .inr ⟨hholder, happroval⟩
    · exact .inl (hfree hn)
  | request _ => exact hinv.request
  | beginLock hn _ _ _ => exact hinv.frame rfl rfl (.inl (hfree hn))
  | beginVaultLock _ => exact hinv.frame rfl rfl (.inr ⟨rfl, rfl⟩)
  | controller => exact hinv.frame rfl rfl (.inr ⟨rfl, rfl⟩)
  | commit hh =>
    refine hinv.frame rfl rfl (.inl fun r hr => ?_)
    rw [hh] at hr
    cases hr
  | other hthreads _ hruns _ hheld _ =>
    refine hinv.frame hthreads (by rw [hruns]) ?_
    rcases hheld with hn | hsame
    · exact .inl (hfree hn)
    · exact .inr hsame

lemma inv_run {env : Env} {grantLifetime : Duration} {fileExists : Bool} {b : State}
    {history : List Occurrence}
    (hrun : Run (Step approvalTimeout) (.initial env grantLifetime fileExists) history b) : Inv b := by
  refine hrun.invariant inv_initial ?_
  rintro b o b' hinv ⟨h⟩
  exact hinv.apply h

end Ladon.Broker

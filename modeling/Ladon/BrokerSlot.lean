import Ladon.BrokerRun

/-!
The active run and the thread it belongs to.

The run coordinator says of the active run which secrets it has and whether its child has been
started. Both are the work of the thread that has the lease: a child is under way only as long as
its thread waits for it.
-/

namespace Ladon.Broker

open Ladon.Error Ladon.Model Ladon.Runner Ladon.Approval Ladon.Grants Ladon.Controller Ladon.Lib
  Ladon.Approval.ApprovalState

/-! ### Stages -/

namespace RunStage

/-- The child of the run has been started. -/
def launched : RunStage → Bool
  | .running _ | .plainRunning => true
  | _ => false

/-- The run has no secrets, and the coordinator knows. -/
def bare : RunStage → Bool
  | .plain | .plainResolved | .plainAdmitted | .plainRunning => true
  | _ => false

/-- Neither a child nor plaintext that was not there. -/
structure Calm (s' s : RunStage) : Prop where
  before : s.launched = false
  after : s'.launched = false
  bare : s'.bare → s.bare
  exposed : s'.exposed → s.exposed ∧ s'.plan? = s.plan?

lemma calm_failed {s : RunStage} {e : LadonError} (h : s.launched = false) :
    (RunStage.failed e).Calm s :=
  ⟨h, rfl, fun h => (by cases h), fun h => (by cases h)⟩

lemma leased_of_bare {s : RunStage} (h : s.bare) : s.leased := by
  cases s <;> first | rfl | cases h

lemma leased_of_exposed {s : RunStage} (h : s.exposed) : s.leased := by
  cases s <;> first | rfl | cases h

lemma exists_plan_of_exposed {s : RunStage} (h : s.exposed) :
    ∃ plan, s.plan? = some plan ∧ s.context? = some plan := by
  cases s with
  | resolved plan _ | spawning plan _ _ | running plan => exact ⟨plan, rfl, rfl⟩
  | _ => cases h

end RunStage

lemma calm_stageOf {α : Type} {s : RunStage} {result : Except LadonError α} {next : α → RunStage}
    (hs : s.launched = false) (hnext : ∀ a, (next a).Calm s) : (State.stageOf result next).Calm s := by
  cases result with
  | error e => exact RunStage.calm_failed hs
  | ok a => exact hnext a

lemma spawnChild_cases {runs : RunCoordinator} {cancelled : List Token}
    {launched : Except LadonError Unit} :
    (∃ e, runs.spawnChild cancelled launched = (.error e, runs)) ∨
      ∃ a, runs.active = some a ∧ (a.secretIds.isSome ∧ a.cancellation ∉ cancelled) ∧
        runs.spawnChild cancelled launched =
          (.ok (), { runs with active := some { a with running := true } }) := by
  unfold RunCoordinator.spawnChild
  split
  · exact .inl ⟨_, rfl⟩
  · next a ha =>
    split_ifs with hnone hcancelled
    · exact .inl ⟨_, rfl⟩
    · exact .inl ⟨_, rfl⟩
    · cases launched with
      | error e => exact .inl ⟨e, rfl⟩
      | ok u =>
        have hsome : a.secretIds.isSome := by simpa [Option.isSome_iff_ne_none] using hnone
        exact .inr ⟨a, ha, ⟨hsome, hcancelled⟩, rfl⟩

section Machine

variable [UnicodeNormalization] {approvalTimeout : Duration}

/-! ### What a step does to the active run -/

/-- What an event makes of the stage of a thread and of the active run. -/
inductive SlotMove (b : State) (r : ℕ) (e : Event) (t : RunThread) :
    RunStage → Option ActiveRun → Prop
  | start (stage : t.stage = .requested) (idle : b.runs.active = none) :
      SlotMove b r e t .reserved (some ⟨t.cancellation, t.client, none, false⟩)
  | stay {s' : RunStage} (calm : s'.Calm t.stage) : SlotMove b r e t s' b.runs.active
  | context {a : ActiveRun} {ids : List SecretId} {s' : RunStage} (active : b.runs.active = some a)
      (stage : t.stage = .observed ∧ s' = .plain ∧ ids = [] ∨
        ∃ plan, t.stage = .planned plan ∧ s' = .prepared plan) :
      SlotMove b r e t s' (some { a with secretIds := some ids })
  | read {c : Choice} {plan : ApprovalPlan} {ticket : GrantTicket} {checked : Env}
      {values : List ResolvedSecretBinding} (event : e = .run r c)
      (stage : t.stage = .resolving plan ticket checked)
      (resolved : (b.controller.resolveBindingsForIds c.ambient t.request.bindings
        plan.bindingSecretIds).1 = .ok values) :
      SlotMove b r e t (.resolved plan ticket) b.runs.active
  | launch {c : Choice} {plan : ApprovalPlan} {ticket : GrantTicket} {checked : Env} {a : ActiveRun}
      (event : e = .run r c) (stage : t.stage = .spawning plan ticket checked)
      (active : b.runs.active = some a)
      (spawned : (b.runs.spawnChild b.env.cancelled c.launched).1 = .ok ()) :
      SlotMove b r e t (.running plan) (some { a with running := true })
  | bareLaunch {a : ActiveRun} (stage : t.stage = .plainAdmitted) (active : b.runs.active = some a) :
      SlotMove b r e t .plainRunning (some { a with running := true })
  | drop (leased : t.stage.leased) : SlotMove b r e t .ended none

/-- **What a step of a thread does to the active run.** -/
theorem stepRun_slot {b b' : State} {r : ℕ} {c : Choice} {t : RunThread}
    (ht : b.threads r = some t) (h : b.stepRun approvalTimeout r c = some b') :
    ∃ s', b'.threads = Function.update b.threads r (some { t with stage := s' }) ∧
      SlotMove b r (.run r c) t s' b'.runs.active := by
  unfold State.stepRun at h
  rw [ht] at h
  dsimp only at h
  cases hs : t.stage with
  | requested =>
    rw [hs] at h
    rcases @tryStart_cases b.runs t.cancellation t.client with hstart | ⟨hidle, -, hstart⟩
    · rw [hstart] at h
      cases h
      refine ⟨_, rfl, .stay ?_⟩
      rw [hs]
      exact ⟨rfl, rfl, fun h => (by cases h), fun h => (by cases h)⟩
    · rw [hstart] at h
      cases h
      exact ⟨_, rfl, .start hs hidle⟩
  | reserved =>
    rw [hs] at h
    obtain ⟨-, rfl⟩ := of_free h
    refine ⟨_, rfl, .stay ?_⟩
    rw [hs]
    exact calm_stageOf rfl fun _ => ⟨rfl, rfl, fun h => (by cases h), fun h => (by cases h)⟩
  | admitted =>
    rw [hs] at h
    obtain ⟨-, rfl⟩ := of_free h
    refine ⟨_, rfl, .stay ?_⟩
    rw [hs]
    exact ⟨rfl, rfl, fun h => (by cases h), fun h => (by cases h)⟩
  | observed =>
    rw [hs] at h
    dsimp only at h
    split at h
    · rcases @setSecretContext_cases b.runs [] with ⟨e, hc⟩ | ⟨a, ha, -, hc⟩
      · rw [hc] at h
        cases h
        refine ⟨_, rfl, .stay ?_⟩
        rw [hs]
        exact RunStage.calm_failed rfl
      · rw [hc] at h
        cases h
        exact ⟨_, rfl, .context ha (.inl ⟨hs, rfl, rfl⟩)⟩
    · cases h
      refine ⟨_, rfl, .stay ?_⟩
      rw [hs]
      exact calm_stageOf rfl fun _ => ⟨rfl, rfl, fun h => (by cases h), fun h => (by cases h)⟩
  | planned plan =>
    rw [hs] at h
    dsimp only at h
    rcases @setSecretContext_cases b.runs plan.bindingSecretIds with ⟨e, hc⟩ | ⟨a, ha, -, hc⟩
    · rw [hc] at h
      cases h
      refine ⟨_, rfl, .stay ?_⟩
      rw [hs]
      exact RunStage.calm_failed rfl
    · rw [hc] at h
      cases h
      exact ⟨_, rfl, .context ha (.inr ⟨plan, hs, rfl⟩)⟩
  | prepared plan =>
    rw [hs] at h
    obtain ⟨-, rfl⟩ := of_free h
    refine ⟨_, rfl, .stay ?_⟩
    rw [hs]
    split
    · exact calm_stageOf rfl fun _ => ⟨rfl, rfl, fun h => (by cases h), fun h => (by cases h)⟩
    · exact ⟨rfl, rfl, fun h => (by cases h), fun h => (by cases h)⟩
  | waiting plan w =>
    rw [hs] at h
    obtain ⟨-, rfl⟩ := of_free h
    refine ⟨_, rfl, .stay ?_⟩
    rw [hs]
    split
    · exact ⟨rfl, rfl, fun h => (by cases h), fun h => (by cases h)⟩
    · exact calm_stageOf rfl fun _ => ⟨rfl, rfl, fun h => (by cases h), fun h => (by cases h)⟩
  | ticketed plan ticket =>
    rw [hs] at h
    obtain ⟨-, rfl⟩ := of_free h
    refine ⟨_, rfl, .stay ?_⟩
    rw [hs, State.checkStage]
    split
    · exact ⟨rfl, rfl, fun h => (by cases h), fun h => (by cases h)⟩
    · exact RunStage.calm_failed rfl
  | resolving plan ticket checked =>
    rw [hs] at h
    change some ({ b with
      controller := (b.controller.resolveBindingsForIds c.ambient t.request.bindings
        plan.bindingSecretIds).2
      holder := none }.setThread r t (State.stageOf (b.controller.resolveBindingsForIds c.ambient
        t.request.bindings plan.bindingSecretIds).1 fun _ => .resolved plan ticket)) = some b' at h
    obtain rfl := Option.some.inj h
    cases hv : (b.controller.resolveBindingsForIds c.ambient t.request.bindings
        plan.bindingSecretIds).1 with
    | error e =>
      refine ⟨_, rfl, .stay ?_⟩
      rw [hs]
      exact RunStage.calm_failed rfl
    | ok values => exact ⟨_, rfl, .read rfl hs hv⟩
  | resolved plan ticket =>
    rw [hs] at h
    obtain ⟨-, rfl⟩ := of_free h
    refine ⟨_, rfl, .stay ?_⟩
    rw [hs, State.checkStage]
    split
    · exact ⟨rfl, rfl, fun h => (by cases h), fun _ => ⟨rfl, rfl⟩⟩
    · exact RunStage.calm_failed rfl
  | spawning plan ticket checked =>
    rw [hs] at h
    dsimp only at h
    rcases @spawnChild_cases b.runs b.env.cancelled c.launched with ⟨e, hc⟩ | ⟨a, ha, -, hc⟩
    · rw [hc] at h
      cases h
      refine ⟨_, rfl, .stay ?_⟩
      rw [hs]
      exact RunStage.calm_failed rfl
    · rw [hc] at h
      cases h
      exact ⟨_, rfl, .launch rfl hs ha (congrArg Prod.fst hc)⟩
  | plain =>
    rw [hs] at h
    obtain rfl := Option.some.inj h
    refine ⟨_, rfl, .stay ?_⟩
    rw [hs]
    exact calm_stageOf rfl fun _ => ⟨rfl, rfl, fun _ => rfl, fun h => (by cases h)⟩
  | plainResolved =>
    rw [hs] at h
    obtain ⟨-, rfl⟩ := of_free h
    refine ⟨_, rfl, .stay ?_⟩
    rw [hs]
    exact calm_stageOf rfl fun _ => ⟨rfl, rfl, fun _ => rfl, fun h => (by cases h)⟩
  | plainAdmitted =>
    rw [hs] at h
    dsimp only at h
    rcases @spawnChild_cases b.runs b.env.cancelled c.launched with ⟨e, hc⟩ | ⟨a, ha, -, hc⟩
    · rw [hc] at h
      cases h
      refine ⟨_, rfl, .stay ?_⟩
      rw [hs]
      exact RunStage.calm_failed rfl
    · rw [hc] at h
      cases h
      exact ⟨_, rfl, .bareLaunch hs ha⟩
  | running plan | plainRunning | failed e =>
    rw [hs] at h
    cases h
    exact ⟨_, rfl, .drop (by rw [hs]; rfl)⟩
  | refused | ended =>
    rw [hs] at h
    cases h

/-- A thread that gives up has started no child. -/
lemma abandon_calm {b b' : State} {r : ℕ} {t : RunThread} {e : LadonError}
    (ht : b.threads r = some t) (h : b.abandon r e = some b') : t.stage.launched = false := by
  unfold State.abandon at h
  rw [ht] at h
  dsimp only at h
  cases hs : t.stage with
  | running plan | plainRunning =>
    rw [hs] at h
    cases h
  | _ => rfl

/-- **What an event does to the threads and the active run.** Nothing, or it brings a new thread, or
one thread moves. -/
theorem apply_slot {b b' : State} {e : Event} (h : b.apply approvalTimeout e = some b') :
    b'.threads = b.threads ∧ b'.runs.active = b.runs.active ∨
      (∃ (r : ℕ) (t : RunThread), b.threads r = none ∧ b'.runs.active = b.runs.active ∧
        b'.threads = Function.update b.threads r (some { t with stage := .requested })) ∨
      ∃ r t s', b.threads r = some t ∧
        b'.threads = Function.update b.threads r (some { t with stage := s' }) ∧
        SlotMove b r e t s' b'.runs.active := by
  cases apply_move h with
  | @run r c t b' ht hmove =>
    obtain ⟨s', hthreads, hslot⟩ := stepRun_slot ht h
    exact .inr (.inr ⟨r, t, s', ht, hthreads, hslot⟩)
  | @abandon r e t ht hm _ =>
    exact .inr (.inr ⟨r, t, _, ht, rfl, .stay (RunStage.calm_failed (abandon_calm ht h))⟩)
  | lock hmove =>
    obtain ⟨hthreads, -, hactive, -⟩ := hmove.frame
    exact .inl ⟨hthreads, hactive⟩
  | @request r t hnew => exact .inr (.inl ⟨r, t, hnew, rfl, rfl⟩)
  | beginLock _ _ _ _ | beginVaultLock _ | controller | commit _ => exact .inl ⟨rfl, rfl⟩
  | other hthreads _ hruns _ _ _ => exact .inl ⟨hthreads, by rw [hruns]⟩

/-! ### The child and its thread -/

/-- A child that is under way has a thread that waits for it, and a run without secrets is known to
have none. -/
structure SlotInv (b : State) : Prop where
  launched : ∀ {a}, b.runs.active = some a → a.running = true →
    ∃ r t, b.threads r = some t ∧ t.stage.launched
  bare : ∀ {r t}, b.threads r = some t → t.stage.bare →
    ∃ a, b.runs.active = some a ∧ a.secretIds = some []

lemma slotInv_initial {env : Env} {grantLifetime : Duration} {fileExists : Bool} :
    SlotInv (State.initial env grantLifetime fileExists) := by
  constructor <;> intro _ <;> intros <;> contradiction

/-- One thread has moved on, to a stage that agrees with the active run. -/
lemma SlotInv.update {b b' : State} {r : ℕ} {s' : RunStage} {t : RunThread} (h : SlotInv b)
    (hthreads : b'.threads = Function.update b.threads r (some { t with stage := s' }))
    (hlaunched : ∀ a, b'.runs.active = some a → a.running = true →
      s'.launched ∨ ∃ r₀ t₀, b.threads r₀ = some t₀ ∧ t₀.stage.launched ∧ r₀ ≠ r)
    (hbare : s'.bare → ∃ a, b'.runs.active = some a ∧ a.secretIds = some [])
    (hothers : ∀ {r₀ t₀}, b.threads r₀ = some t₀ → t₀.stage.bare → r₀ ≠ r →
      b'.runs.active = b.runs.active) : SlotInv b' := by
  constructor
  · intro a ha hrunning
    rcases hlaunched a ha hrunning with hs | ⟨r₀, t₀, ht₀, hl, hne⟩
    · exact ⟨r, _, by rw [hthreads, Function.update_self], hs⟩
    · exact ⟨r₀, t₀, by rw [hthreads, Function.update_of_ne hne, ht₀], hl⟩
  · intro r₀ t₀ ht₀ hb
    rcases threads_update hthreads ht₀ with ⟨rfl, rfl⟩ | ⟨hne, ht₀⟩
    · exact hbare hb
    · rw [hothers ht₀ hb hne]
      exact h.bare ht₀ hb

lemma SlotInv.apply {b b' : State} {e : Event} (h : SlotInv b) (hinv : Inv b)
    (happly : b.apply approvalTimeout e = some b') : SlotInv b' := by
  rcases apply_slot happly with ⟨hthreads, hactive⟩ | ⟨r, t, hnew, hactive, hthreads⟩ |
    ⟨r, t, s', ht, hthreads, hslot⟩
  · constructor
    · rw [hactive, hthreads]
      exact h.launched
    · rw [hactive, hthreads]
      exact h.bare
  · refine h.update hthreads (fun a ha hrunning => .inr ?_) (fun hb => (by cases hb)) fun _ _ _ => hactive
    obtain ⟨r₀, t₀, ht₀, hl⟩ := h.launched (hactive ▸ ha) hrunning
    refine ⟨r₀, t₀, ht₀, hl, ?_⟩
    rintro rfl
    rw [hnew] at ht₀
    cases ht₀
  · -- where this thread has the lease, no other is launched or bare
    have halone : t.stage.leased → ∀ {r₀ t₀}, b.threads r₀ = some t₀ → t₀.stage.bare → r₀ ≠ r →
        b'.runs.active = b.runs.active := fun hl r₀ t₀ ht₀ hb hne =>
      (hne (hinv.unique ht₀ ht (RunStage.leased_of_bare hb) hl)).elim
    have hstill : t.stage.launched = false → ∀ {a}, b.runs.active = some a → a.running = true →
        ∃ r₀ t₀, b.threads r₀ = some t₀ ∧ t₀.stage.launched ∧ r₀ ≠ r := by
      intro hcalm a ha hrunning
      obtain ⟨r₀, t₀, ht₀, hl⟩ := h.launched ha hrunning
      refine ⟨r₀, t₀, ht₀, hl, ?_⟩
      rintro rfl
      rw [ht] at ht₀
      cases ht₀
      rw [hcalm] at hl
      cases hl
    generalize hactive : b'.runs.active = active at hslot
    cases hslot with
    | start hs hidle =>
      refine h.update hthreads (fun a ha hrunning => ?_) (fun hb => (by cases hb)) ?_
      · rw [hactive] at ha
        cases ha
        cases hrunning
      · intro r₀ t₀ ht₀ hb _
        obtain ⟨a, ha, -⟩ := h.bare ht₀ hb
        rw [hidle] at ha
        cases ha
    | stay hcalm =>
      refine h.update hthreads (fun a ha hrunning => .inr ?_) (fun hb => ?_) fun _ _ _ => hactive
      · exact hstill hcalm.before (hactive ▸ ha) hrunning
      · rw [hactive]
        exact h.bare ht (hcalm.bare hb)
    | @context a ids s' ha hstage =>
      have hstages : t.stage.leased ∧ t.stage.launched = false ∧ (s'.bare → ids = []) := by
        rcases hstage with ⟨hs, rfl, rfl⟩ | ⟨plan, hs, rfl⟩
        · exact ⟨by rw [hs]; rfl, by rw [hs]; rfl, fun _ => rfl⟩
        · exact ⟨by rw [hs]; rfl, by rw [hs]; rfl, fun hb => (by cases hb)⟩
      obtain ⟨hleased, hcalm, hids⟩ := hstages
      refine h.update hthreads (fun a' ha' hrunning => .inr ?_) (fun hb => ?_) (halone hleased)
      · rw [hactive] at ha'
        cases ha'
        exact hstill hcalm ha hrunning
      · exact ⟨_, hactive, congrArg some (hids hb)⟩
    | read _ hs _ =>
      refine h.update hthreads (fun a ha hrunning => .inr ?_) (fun hb => (by cases hb))
        fun _ _ _ => hactive
      exact hstill (by rw [hs]; rfl) (hactive ▸ ha) hrunning
    | launch _ hs _ _ =>
      exact h.update hthreads (fun _ _ _ => .inl rfl) (fun hb => (by cases hb))
        (halone (by rw [hs]; rfl))
    | bareLaunch hs ha =>
      refine h.update hthreads (fun _ _ _ => .inl rfl) (fun _ => ?_) (halone (by rw [hs]; rfl))
      obtain ⟨a', ha', hids⟩ := h.bare ht (by rw [hs]; rfl)
      rw [ha] at ha'
      cases ha'
      exact ⟨_, hactive, hids⟩
    | drop hleased =>
      refine h.update hthreads (fun a ha _ => ?_) (fun hb => (by cases hb)) (halone hleased)
      rw [hactive] at ha
      cases ha

end Machine

end Ladon.Broker

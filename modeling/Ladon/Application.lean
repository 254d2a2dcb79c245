import Ladon.DesktopAuth
import Ladon.GrantOrigin

/-!
The application: the broker that agents are connected to, and the desktop that the human sits at.

The desktop reads the request that is pending from the broker, and what the human confirmed it has
the broker do; the results are those of the broker. What else the desktop asks for (denials,
revocations, locks) are events of the broker, which may come at any time.
-/

namespace Ladon.Application

open Ladon.Error Ladon.Model Ladon.Vault Ladon.Approval Ladon.Grants Ladon.Controller
  Ladon.ApprovalLifetime Ladon.Desktop Ladon.Lib Ladon.Lib.Machine

variable [UnicodeNormalization]

/-! ### The system -/

structure System where
  agents : BrokerRevoke.State
  ui : Ui

inductive Event
  | agents (e : BrokerRevoke.Event)
  | desktop (e : Desktop.Event)

/-- What no agent and no connection can call: it needs the human. -/
def needsHuman : BrokerRevoke.Event → Bool
  | .broker (.call (.decide _ decision)) => decision.decision.approves
  | .broker (.call (.grantUnattended _ _ _ _)) | .broker (.call (.unlockApp _)) => true
  | _ => false

/-- The vault is of the session that was consented to, and still has the secrets. -/
def validateConsent (c : VaultController) (consent : UnattendedConsent) : Except LadonError Unit :=
  if c.sessionId ≠ some consent.context.vault ∨
      ¬ consent.secrets.all fun s => c.secrets.any fun current => current.id = s.id then
    .error .approvalCancelled
  else .ok ()

/-- The call of the broker behind an effect, and whether it has the result that the desktop saw. -/
def called (b : Broker.State) : Effect → Option (Call × Bool)
  | .approve id decision result => some (.decide id decision,
      (b.approval.setDecision b.env id decision.decision).1 = result)
  | .grantUnattended consent deadline result =>
    let secrets := consent.secrets.map SecretMetadata.id
    let validate := validateConsent b.controller consent
    some (.grantUnattended consent.context secrets deadline validate,
      (b.approval.grantUnattended b.env consent.context secrets deadline validate).1 = result)
  | .unlockApp epoch result => some (.unlockApp epoch, (b.approval.unlockApp epoch).1 = result)
  | _ => none

namespace System

/-- What an event of the desktop reads of the broker, and whether it is told what there is. -/
def read (s : System) : Desktop.Event → Option (Call × Bool)
  | .observe a =>
    if s.ui.desktop.unattendedConfirmation.isSome then none
    else some (.pending, a.pendingApproval =
      (s.agents.broker.approval.pendingRequest s.agents.broker.env).1)
  | _ => none

/-- A call of the broker that answers what the desktop saw. -/
def ask (approvalTimeout : Duration) (agents : BrokerRevoke.State) :
    Option (Call × Bool) → Option BrokerRevoke.State
  | none => some agents
  | some (call, agrees) => if agrees then agents.apply approvalTimeout (.broker (.call call)) else none

def carryOut (approvalTimeout : Duration) (agents : BrokerRevoke.State) (effects : List Effect) :
    Option BrokerRevoke.State :=
  effects.foldlM (fun agents effect => ask approvalTimeout agents (called agents.broker effect)) agents

def apply (platform : Platform) (approvalTimeout : Duration) (s : System) : Event → Option System
  | .agents e =>
    if needsHuman e then none
    else (s.agents.apply approvalTimeout e).map fun agents => { s with agents := agents }
  | .desktop e => do
    let (effects, ui) ← perform platform s.ui e
    let agents ← ask approvalTimeout s.agents (s.read e)
    let agents ← carryOut approvalTimeout agents effects
    return ⟨agents, ui⟩

def initial (env : Env) (grantLifetime : Duration) (fileExists : Bool) (phase : VaultUiPhase) :
    System where
  agents := .initial env grantLifetime fileExists
  ui := .initial phase

end System

abbrev Occurrence := Machine.Occurrence System Event

abbrev Step (platform : Platform) (approvalTimeout : Duration) :=
  Machine.Step (System.apply platform approvalTimeout)

/-! ### Its parts -/

/-- The event of the desktop. -/
def desktopEvent (_ : System) : Event → Option Desktop.Event
  | .agents _ => none
  | .desktop e => some e

/-- The event of the broker: its own, or the call that the desktop makes. -/
def brokerEvent (platform : Platform) (s : System) : Event → Option BrokerRevoke.Event
  | .agents e => some e
  | .desktop e => (((s.read e).or
      ((effects platform ⟨s.ui, e⟩).findSome? (called s.agents.broker))).map
        fun (call, _) => .broker (.call call))

/-- What happened at the desktop. -/
def atDesktop (history : List Occurrence) : List Desktop.Occurrence :=
  history.filterMap (part System.ui desktopEvent)

/-- What happened at the broker. -/
def atBroker (platform : Platform) (history : List Occurrence) : List BrokerRevoke.Occurrence :=
  history.filterMap (part System.agents (brokerEvent platform))

section Apply

variable {platform : Platform} {approvalTimeout : Duration} {s s' : System}
  {agents agents' : BrokerRevoke.State}

lemma apply_agents {e : BrokerRevoke.Event}
    (h : s.apply platform approvalTimeout (.agents e) = some s') :
    needsHuman e = false ∧ s.agents.apply approvalTimeout e = some s'.agents ∧ s'.ui = s.ui := by
  rw [System.apply] at h
  split_ifs at h with hhuman
  obtain ⟨agents, hagents, rfl⟩ := Option.map_eq_some_iff.mp h
  exact ⟨by simpa using hhuman, hagents, rfl⟩

lemma apply_desktop {e : Desktop.Event}
    (h : s.apply platform approvalTimeout (.desktop e) = some s') :
    perform platform s.ui e = some (effects platform ⟨s.ui, e⟩, s'.ui) ∧ ∃ agents,
      System.ask approvalTimeout s.agents (s.read e) = some agents ∧
      System.carryOut approvalTimeout agents (effects platform ⟨s.ui, e⟩) = some s'.agents := by
  simp only [System.apply, Option.bind_eq_bind, Option.bind_eq_some_iff] at h
  obtain ⟨⟨es, ui⟩, hperform, agents, hask, agents', hcarry, h⟩ := h
  cases h
  have hes : effects platform ⟨s.ui, e⟩ = es := effects_eq hperform
  rw [hes]
  exact ⟨hperform, agents, hask, hcarry⟩

lemma called_of_plain {b : Broker.State} {effect : Effect} (h : effect.privileged = false) :
    called b effect = none := by
  cases effect <;> first | rfl | cases h

lemma called_decide {b : Broker.State} {effect : Effect} {id : Uuid} {decision : HumanDecision}
    (h : called b effect = some (.decide id decision, true)) :
    effect = .approve id decision (b.approval.setDecision b.env id decision.decision).1 := by
  cases effect with
  | approve id' decision' result =>
    obtain ⟨hcall, hresult⟩ := Prod.ext_iff.mp (Option.some.inj h)
    cases hcall
    rw [of_decide_eq_true hresult]
  | _ => cases h

lemma called_grantUnattended {b : Broker.State} {effect : Effect} {context : UnattendedContext}
    {secrets : List SecretId} {deadline : ℤ} {validate : Except LadonError Unit}
    (h : called b effect = some (.grantUnattended context secrets deadline validate, true)) :
    ∃ consent, context = consent.context ∧ secrets = consent.secrets.map SecretMetadata.id ∧
      validate = validateConsent b.controller consent ∧ effect = .grantUnattended consent deadline
        (b.approval.grantUnattended b.env context secrets deadline validate).1 := by
  cases effect with
  | grantUnattended consent deadline' result =>
    obtain ⟨hcall, hresult⟩ := Prod.ext_iff.mp (Option.some.inj h)
    cases hcall
    exact ⟨consent, rfl, rfl, rfl, by rw [of_decide_eq_true hresult]⟩
  | _ => cases h

lemma carryOut_cons {effect : Effect} {es : List Effect} :
    System.carryOut approvalTimeout agents (effect :: es) =
      (System.ask approvalTimeout agents (called agents.broker effect)).bind
        fun agents => System.carryOut approvalTimeout agents es :=
  List.foldlM_cons

lemma carryOut_of_plain {es : List Effect} (h : es.countP Effect.privileged = 0) :
    System.carryOut approvalTimeout agents es = some agents := by
  induction es with
  | nil => rfl
  | cons effect es ih =>
    have hplain := List.countP_eq_zero.mp h
    have heffect : effect.privileged = false := by
      simpa using hplain effect List.mem_cons_self
    have hes : es.countP Effect.privileged = 0 :=
      List.countP_eq_zero.mpr fun e he => hplain e (List.mem_cons_of_mem _ he)
    rw [carryOut_cons, called_of_plain heffect]
    exact ih hes

/-- Of what is done once, the call is the first that is made. -/
lemma ask_of_carryOut {es : List Effect} (honce : es.countP Effect.privileged ≤ 1)
    (h : System.carryOut approvalTimeout agents es = some agents') :
    System.ask approvalTimeout agents (es.findSome? (called agents.broker)) = some agents' := by
  induction es with
  | nil => exact h
  | cons effect es ih =>
    rw [carryOut_cons] at h
    cases hprivileged : effect.privileged with
    | false =>
      rw [List.countP_cons_of_neg (by simp [hprivileged])] at honce
      rw [called_of_plain hprivileged] at h
      rw [List.findSome?_cons, called_of_plain hprivileged]
      exact ih honce h
    | true =>
      rw [List.countP_cons_of_pos hprivileged] at honce
      have hplain : es.countP Effect.privileged = 0 := by omega
      obtain ⟨behind, hask, hrest⟩ := Option.bind_eq_some_iff.mp h
      rw [carryOut_of_plain hplain] at hrest
      cases hrest
      rw [List.findSome?_cons]
      cases hcalled : called agents.broker effect with
      | some q =>
        rw [hcalled] at hask
        exact hask
      | none =>
        rw [hcalled] at hask
        have hnone : es.findSome? (called agents.broker) = none :=
          List.findSome?_eq_none_iff.mpr fun e he => called_of_plain
            (by simpa using List.countP_eq_zero.mp hplain e he)
        rw [hnone]
        exact hask

lemma of_read {e : Desktop.Event} {q : Call × Bool} (h : s.read e = some q) :
    q.1 = .pending ∧ effects platform ⟨s.ui, e⟩ = [] := by
  cases e with
  | observe a =>
    constructor
    · rw [System.read] at h
      split_ifs at h
      cases h
      rfl
    · simp only [effects, perform]
      split_ifs <;> rfl
  | _ => cases h

/-- What an event of the desktop has the broker do: one call at most, with the answer it saw. -/
lemma ask_of_desktop {e : Desktop.Event} (hinv : UiInv s.ui)
    (h : s.apply platform approvalTimeout (.desktop e) = some s') :
    System.ask approvalTimeout s.agents ((s.read e).or
      ((effects platform ⟨s.ui, e⟩).findSome? (called s.agents.broker))) = some s'.agents := by
  obtain ⟨hperform, agents, hask, hcarry⟩ := apply_desktop h
  cases hread : s.read e with
  | some q =>
    rw [(of_read hread).2] at hcarry
    cases hcarry
    rw [Option.some_or, ← hread]
    exact hask
  | none =>
    rw [hread] at hask
    cases hask
    have hkind := (perform_kind hinv hperform).1
    exact ask_of_carryOut hkind.once hcarry

lemma of_ask {call : Call} {agrees : Bool}
    (h : System.ask approvalTimeout agents (some (call, agrees)) = some agents') :
    agrees = true ∧ agents.apply approvalTimeout (.broker (.call call)) = some agents' := by
  rw [System.ask] at h
  split_ifs at h with hagrees
  exact ⟨hagrees, h⟩

/-- What an event does to the broker: nothing, or its event there. -/
lemma broker_of_apply {e : Event} (hinv : UiInv s.ui)
    (h : s.apply platform approvalTimeout e = some s') :
    (brokerEvent platform s e = none ∧ s'.agents = s.agents) ∨
      ∃ e', brokerEvent platform s e = some e' ∧ s.agents.apply approvalTimeout e' = some s'.agents := by
  cases e with
  | agents e => exact Or.inr ⟨e, rfl, (apply_agents h).2.1⟩
  | desktop e =>
    have hask := ask_of_desktop hinv h
    rw [brokerEvent]
    cases hcall : (s.read e).or
        ((effects platform ⟨s.ui, e⟩).findSome? (called s.agents.broker)) with
    | none =>
      rw [hcall] at hask
      exact Or.inl ⟨rfl, (Option.some.inj hask).symm⟩
    | some q =>
      rw [hcall] at hask
      exact Or.inr ⟨_, rfl, (of_ask hask).2⟩

end Apply

/-! ### Runs -/

variable {platform : Platform} {approvalTimeout grantLifetime : Duration} {env : Env}
  {fileExists : Bool} {phase : VaultUiPhase} {s s' : System} {o : Occurrence}
  {history before after : List Occurrence}

/-- A run of the application is a run of the desktop and a run of the broker. -/
theorem run_parts (run : Run (Step platform approvalTimeout)
      (System.initial env grantLifetime fileExists phase) history s) :
    Run (Machine.Step (Desktop.apply platform)) (Ui.initial phase) (atDesktop history) s.ui ∧
    Run (BrokerRevoke.Step approvalTimeout) (.initial env grantLifetime fileExists)
      (atBroker platform history) s.agents := by
  have hui {u v : System} {e : Desktop.Event}
      (h : u.apply platform approvalTimeout (.desktop e) = some v) :
      Desktop.apply platform u.ui e = some v.ui := by
    rw [Desktop.apply, (apply_desktop h).1]
    rfl
  have hinv : ∀ u e v, UiInv u.ui → System.apply platform approvalTimeout u e = some v →
      UiInv v.ui := by
    intro u e v hu h
    cases e with
    | agents e =>
      rw [(apply_agents h).2.2]
      exact hu
    | desktop e => exact (perform_kind hu (apply_desktop h).1).2
  have h0 : UiInv (System.initial env grantLifetime fileExists phase).ui := uiInv_initial phase
  constructor
  · refine (run_part (p := System.ui) (f := desktopEvent) (I := fun u => UiInv u.ui)
      run h0 hinv ?_ ?_).2
    · intro u e v _ h hnone
      cases e with
      | agents e => exact (apply_agents h).2.2
      | desktop e => cases hnone
    · intro u e v e' _ h hsome
      cases e with
      | agents e => cases hsome
      | desktop e =>
        cases hsome
        exact hui h
  · refine (run_part (p := System.agents) (f := brokerEvent platform) (I := fun u => UiInv u.ui)
      run h0 hinv ?_ ?_).2
    · intro u e v hu h hnone
      rcases broker_of_apply hu h with ⟨-, hsame⟩ | ⟨e', he, -⟩
      · exact hsame
      · cases hnone.symm.trans he
    · intro u e v e' hu h hsome
      rcases broker_of_apply hu h with ⟨hnone, -⟩ | ⟨e'', he, hbroker⟩
      · cases hsome.symm.trans hnone
      · obtain rfl := Option.some.inj (hsome.symm.trans he)
        exact hbroker

/-- The call that an event makes of the broker is the agents', or what the human confirmed. -/
lemma call_of_brokerEvent {call : Call} (hinv : UiInv o.before.ui)
    (happly : o.before.apply platform approvalTimeout o.event = some s')
    (hevent : brokerEvent platform o.before o.event = some (.broker (.call call)))
    (hhuman : needsHuman (.broker (.call call)) = true) :
    ∃ e effect, o.event = .desktop e ∧ effect ∈ effects platform ⟨o.before.ui, e⟩ ∧
      called o.before.agents.broker effect = some (call, true) := by
  cases he : o.event with
  | agents e =>
    rw [he] at happly hevent
    cases hevent
    cases hhuman.symm.trans (apply_agents happly).1
  | desktop e =>
    rw [he] at happly hevent
    have hask := ask_of_desktop hinv happly
    obtain ⟨⟨call', agrees⟩, hcall, hbroker⟩ := Option.map_eq_some_iff.mp hevent
    cases hbroker
    rw [hcall] at hask
    obtain ⟨rfl, -⟩ := of_ask hask
    cases hread : o.before.read e with
    | some q =>
      rw [hread, Option.some_or] at hcall
      obtain rfl := Option.some.inj hcall
      obtain ⟨hpending, -⟩ : call = .pending ∧ effects platform ⟨o.before.ui, e⟩ = [] :=
        of_read hread
      rw [hpending] at hhuman
      cases hhuman
    | none =>
      rw [hread, Option.none_or] at hcall
      obtain ⟨effect, heffect, hcalled⟩ := List.exists_of_findSome?_eq_some hcall
      exact ⟨e, effect, rfl, heffect, hcalled⟩

/-- Only the desktop has calls made of the broker that are not its own. -/
lemma agents_of_run {r : ℕ} {c : Broker.Choice}
    (h : brokerEvent platform o.before o.event = some (.broker (.run r c))) :
    o.event = .agents (.broker (.run r c)) := by
  cases he : o.event with
  | agents e =>
    rw [he] at h
    cases h
    rfl
  | desktop e =>
    rw [he] at h
    obtain ⟨q, -, hq⟩ := Option.map_eq_some_iff.mp h
    cases hq

/-! ### What is put before the human -/

/-- The dialog for agents is given the request that is pending at the broker. -/
def Shows (o : Occurrence) (pending : PendingApproval) : Prop :=
  ∃ a, o.event = .desktop (.observe a) ∧
    (o.before.agents.broker.approval.pendingRequest o.before.agents.broker.env).1 =
      .ok (some pending)

/-- What the human has before them was pending at the broker when it was put there. -/
lemma shows_run (run : Run (Step platform approvalTimeout)
      (System.initial env grantLifetime fileExists phase) history s) {pending : PendingApproval}
    (hshown : s.ui.shown = some pending) : ∃ o ∈ history, Shows o pending := by
  have hall : ∀ pending, s.ui.shown = some pending → ∃ o ∈ history, Shows o pending := by
    refine run.history_invariant (I := fun (history : List Occurrence) s => ∀ pending,
      s.ui.shown = some pending → ∃ o ∈ history, Shows o pending) (fun _ h => by cases h) ?_
    rintro history u ⟨_, e⟩ v ih ⟨happly⟩ pending hshown
    have hold (h : u.ui.shown = some pending) : ∃ o ∈ history ++ [⟨u, e⟩], Shows o pending := by
      obtain ⟨o, ho, hshows⟩ := ih pending h
      exact ⟨o, List.mem_append_left _ ho, hshows⟩
    cases e with
    | agents e =>
      rw [(apply_agents happly).2.2] at hshown
      exact hold hshown
    | desktop e =>
      obtain ⟨hperform, agents, hask, -⟩ := apply_desktop happly
      rcases perform_shown hperform hshown with hshown | ⟨a, rfl, hasking, hpending⟩
      · exact hold hshown
      · refine ⟨_, List.mem_append_right _ List.mem_cons_self, a, rfl, ?_⟩
        simp only [System.read, hasking] at hask
        obtain ⟨hagrees, -⟩ := of_ask hask
        exact (of_decide_eq_true hagrees).symm.trans hpending
  exact hall pending hshown

/-- What was shown was put there by a thread that asked. -/
lemma put_of_shows (run : Run (Step platform approvalTimeout)
      (System.initial env grantLifetime fileExists phase) history o.before) {pending : PendingApproval}
    (h : Shows o pending) : ∃ p, p.request = pending ∧
      BrokerRevoke.Put approvalTimeout (atBroker platform history) p := by
  obtain ⟨a, -, hpending⟩ := h
  rw [ApprovalState.pendingRequest] at hpending
  obtain ⟨p, hp, rfl⟩ := Option.map_eq_some_iff.mp (Except.ok.inj hpending)
  have hpurged := (Option.filter_eq_some_iff.mp hp).1
  obtain ⟨q, hq, hfollows⟩ := ApprovalState.quiet_purge.pending hpurged
  obtain ⟨put, hput, p₀, hputs, hsame⟩ := (BrokerRevoke.Sourced.run (run_parts run).2).pending hq
  exact ⟨p, rfl, put, hput, p₀, hputs, hfollows.toSameRequest.trans hsame⟩

end Ladon.Application

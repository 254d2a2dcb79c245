import Ladon.ApplicationAuth

/-!
The lock of the application, as agents and the human see it.

While it is on, agents use only what the human consented to for unattended use; and it is the human
who takes it off, unless the vault itself has been locked.
-/

namespace Ladon.Application

open Ladon.Error Ladon.Model Ladon.Vault Ladon.Approval Ladon.Grants Ladon.Controller
  Ladon.ApprovalLifetime Ladon.Desktop Ladon.Lib Ladon.Lib.Machine

section Locks

variable [UnicodeNormalization] {platform : Platform} {approvalTimeout grantLifetime : Duration}
  {env : Env} {fileExists : Bool} {phase : VaultUiPhase} {s next : System} {o : Occurrence}
  {history before after : List Occurrence}

/-! ### Taking the lock off -/

/-- Nothing is left of the session of the vault. -/
def Emptied (a : ApprovalState) : Prop := a.vaultSessionId = none ∧ ∀ c k, a.grants.get? c k = none

omit [UnicodeNormalization] in
/-- How a call opens an application that is not open. -/
lemma opened_of_call {a : ApprovalState} {call : Call} (hlocked : a.isAppActive = false)
    (hopen : (call.after approvalTimeout env a).isAppActive = true) :
    (∃ epoch, call = .unlockApp epoch ∧ a.appAccess = .locked epoch) ∨
      call = .resetAfterVaultLock ∧ Emptied (call.after approvalTimeout env a) := by
  have hchange : Change env a call (call.after approvalTimeout env a) := call.change
  have hmoved (h : (call.after approvalTimeout env a).appAccess = a.appAccess) : False := by
    rw [isAppActive_of_access h, hlocked] at hopen
    cases hopen
  rcases access_of_inactive hlocked hchange with hsame | ⟨epoch, rfl, -, hafter⟩ | hunlock | rfl
  · exact (hmoved hsame).elim
  · rw [ApprovalState.isAppActive, hafter] at hopen
    cases hopen
  · exact Or.inl hunlock
  · refine Or.inr ⟨rfl, ?_⟩
    rcases @ApprovalState.resetAfterVaultLock_cases env a with ⟨e, h⟩ | ⟨epoch, s', -, h, hq, -, hg⟩
    · have hsame : (Call.resetAfterVaultLock.after approvalTimeout env a) = a := by
        rw [Call.after, h]
      exact (hmoved (by rw [hsame])).elim
    · rw [Call.after, h]
      exact ⟨hq.vault, hg⟩

/-- How an event of the broker opens an application that is not open. -/
lemma opened_of_apply {b b' : BrokerRevoke.State} {e : BrokerRevoke.Event}
    (h : b.apply approvalTimeout e = some b') (hlocked : b.broker.approval.isAppActive = false)
    (hopen : b'.broker.approval.isAppActive = true) :
    (∃ epoch, e = .broker (.call (.unlockApp epoch)) ∧
      b.broker.approval.appAccess = .locked epoch) ∨ Emptied b'.broker.approval := by
  have hmoved (h : b'.broker.approval = b.broker.approval) : False := by
    rw [h, hlocked] at hopen
    cases hopen
  have hcalled {call : Call} (hafter : b'.broker.approval =
      call.after approvalTimeout b.broker.env b.broker.approval) :
      (∃ epoch, call = .unlockApp epoch ∧ b.broker.approval.appAccess = .locked epoch) ∨
        Emptied b'.broker.approval := by
    rw [hafter] at hopen ⊢
    exact (opened_of_call hlocked hopen).imp_right And.right
  cases e with
  | broker e =>
    obtain ⟨-, b', hb, rfl⟩ := BrokerRevoke.apply_broker h
    rcases Broker.apply_approval hb with hsame | ⟨-, call, hcall, hafter⟩
    · exact (hmoved hsame).elim
    · rcases hcalled hafter with ⟨epoch, rfl, haccess⟩ | hempty
      · cases hcall with
        | plain hplain => exact Or.inl ⟨epoch, rfl, haccess⟩
        | run hrun => cases hrun
        | beginLock hcall => split at hcall <;> cases hcall
        | vaultLock hcall => rcases hcall with h | h | ⟨h, -⟩ <;> cases h
      · exact Or.inr hempty
  | begin v revocation =>
    obtain ⟨-, stage, -, -, -, rfl⟩ := BrokerRevoke.apply_begin h
    exact (hmoved rfl).elim
  | revoke v operation =>
    obtain ⟨t, -, hmove⟩ := BrokerRevoke.stepRevoke_move h
    cases hmove with
    | @outside call stage hfree hkind _ _ _ =>
      rcases hcalled rfl with ⟨epoch, hcall, -⟩ | hempty
      · rw [hcall] at hkind
        rcases hkind with hkind | hkind <;> cases hkind
      · exact Or.inr hempty
    | revoke _ _ =>
      rcases hcalled rfl with ⟨epoch, hcall, -⟩ | hempty
      · cases hrevocation : t.revocation <;> rw [hrevocation] at hcall <;> cases hcall
      · exact Or.inr hempty
    | _ => exact (hmoved rfl).elim

lemma called_unlockApp {b : Broker.State} {effect : Effect} {epoch : ℕ}
    (h : called b effect = some (.unlockApp epoch, true)) :
    effect = .unlockApp epoch (b.approval.unlockApp epoch).1 := by
  cases effect with
  | unlockApp epoch' result =>
    obtain ⟨hcall, hresult⟩ := Prod.ext_iff.mp (Option.some.inj h)
    cases hcall
    rw [of_decide_eq_true hresult]
  | _ => cases h

/-- Whoever takes the lock off is the human, or the vault has been locked. -/
lemma opened_by_human
    (run : Run (Step platform approvalTimeout) (System.initial env grantLifetime fileExists phase)
      before o.before)
    (happly : o.before.apply platform approvalTimeout o.event = some next)
    (hlocked : o.before.agents.broker.approval.isAppActive = false)
    (hopen : next.agents.broker.approval.isAppActive = true) :
    (∃ session epoch, o.before.agents.broker.approval.appAccess = .locked epoch ∧
      Does platform before o (.appUnlock session epoch) (.unlockApp epoch (.ok ()))) ∨
      Emptied next.agents.broker.approval := by
  have hinv : UiInv o.before.ui := uiInv_run (run_parts run).1
  rcases broker_of_apply hinv happly with ⟨-, hsame⟩ | ⟨e, hevent, hbroker⟩
  · rw [hsame, hlocked] at hopen
    cases hopen
  · rcases opened_of_apply hbroker hlocked hopen with ⟨epoch, rfl, haccess⟩ | hempty
    · obtain ⟨e, effect, hdesktop, heffect, hcalled⟩ :=
        call_of_brokerEvent hinv happly hevent rfl
      have hresult : (o.before.agents.broker.approval.unlockApp epoch).1 = .ok () := by
        rw [ApprovalState.unlockApp, if_neg (not_not.mpr haccess)]
      have heq := called_unlockApp hcalled
      rw [hresult] at heq
      subst heq
      obtain ⟨target, hgrants, hdoes⟩ := does_of_run run happly hdesktop heffect rfl
      cases hgrants
      exact Or.inl ⟨_, epoch, haccess, hdoes⟩
    · exact Or.inr hempty

/-! ### What is used under the lock -/

/-- An unattended grant is of a consent. -/
lemma consented_of_unattended
    (run : Run (Step platform approvalTimeout) (System.initial env grantLifetime fileExists phase)
      history s)
    {c : Uuid} {k : SecretId} {d : GrantDeadline}
    (grant : s.agents.broker.approval.grants.get? c k = some d) (unattended : d.isUnattended) :
    Consented platform history c k d := by
  cases (BrokerRevoke.Sourced.run (run_parts run).2).grants grant with
  | approval order puts decides takes same client secret =>
    obtain ⟨r, choice, t, plan, w, -, -, -, htakes⟩ := takes
    rw [decisionDeadline_attended htakes.deadline] at unattended
    cases unattended
  | consent order captures client consents =>
    exact consented_of_consents run order captures client consents

/-- **Under the lock of the application**, in every run with agents, connections and the desktop in
any order: wherever plaintext is read for an agent, or a child is started with it, the human has
consented to unattended use of every secret of the plan, and the time they chose is not over; and the
event behind which the lock is off is the human's, who confirmed just that with their PIN or Touch ID,
or it leaves nothing of the session of the vault. -/
theorem lock_keeps_consent
    (run : Run (Step platform approvalTimeout) (System.initial env grantLifetime fileExists phase)
      (before ++ o :: after) s)
    (locked : o.before.agents.broker.approval.isAppActive = false) :
    (∀ e r t plan checked, o.event = .agents (.broker e) →
      Broker.Occurrence.Uses ⟨o.before.agents.broker, e⟩ r t plan checked →
      ∀ k ∈ plan.bindingSecretIds, ∃ d, Consented platform before t.client k d ∧
        d.remaining checked.clock ≠ 0) ∧
    ∀ next, o.before.apply platform approvalTimeout o.event = some next →
      next.agents.broker.approval.isAppActive = true →
      (∃ session epoch, o.before.agents.broker.approval.appAccess = .locked epoch ∧
        Does platform before o (.appUnlock session epoch) (.unlockApp epoch (.ok ()))) ∨
      Emptied next.agents.broker.approval := by
  obtain ⟨u, hbefore, -⟩ := cut run
  constructor
  · rintro e r t plan checked - huses k hk
    have hinv : BrokerRevoke.SystemInv o.before.agents :=
      BrokerRevoke.systemInv_initial.run (run_parts hbefore).2
    have hcovered := Broker.coveredBy_of_uses hinv.inv locked huses
    obtain ⟨d, hd, hremaining, hunattended⟩ := hcovered.unattended k hk
    exact ⟨d, consented_of_unattended hbefore hd hunattended, hremaining⟩
  · intro next happly hopen
    exact opened_by_human hbefore happly locked hopen

end Locks

/-! ### An agent that works at night -/

section Night

local instance nightText : UnicodeNormalization := asciiNormalization

def nightConsent : UnattendedConsent :=
  ⟨Broker.shiftContext, [⟨⟨.filled 2⟩, "git", ["value"]⟩]⟩

def nightAnswers : Answers := { pushAnswers with
  pendingApproval := .ok none
  currentPending := .ok none
  consent := .ok nightConsent }

def nightAct (action : Action) : Event := .desktop (.act action nightAnswers)

/-- The human consents to unattended use, an agent asks, and the application locks on its own. -/
def nightEvents : List Event :=
  [.agents (.broker (Broker.deskUnlock 7)),
    .agents (.broker (.call (.registerClientSession Broker.deskThread.client 1
      Broker.deskThread.client))),
    .desktop (.draw nightAnswers), nightAct (.type .sessionPin "1234"),
    nightAct (.type .sessionPinConfirmation "1234"), nightAct .setSessionPin,
    .desktop (.draw nightAnswers), .agents (.broker (.capture Broker.deskThread.client)),
    nightAct .beginUnattended, .desktop (.drawn nightAnswers), nightAct (.type .localPin "1234"),
    nightAct (.confirmUnattended .pin), .agents (.broker (.request 0 Broker.deskThread))] ++
  List.replicate 6 (.agents (.broker (.run 0 Broker.deskChoice))) ++
  [.agents (.broker (.beginLock 0 true)), .agents (.broker (.run 0 Broker.deskChoice))]

/-- The plan that the thread is about to resolve, where it can. -/
def resolvable (b : Broker.State) (r : ℕ) (c : Broker.Choice) :
    Option (Broker.RunThread × ApprovalPlan × Env) :=
  match b.threads r with
  | some t =>
    match t.stage with
    | .resolving plan _ checked =>
      match (b.controller.resolveBindingsForIds c.ambient t.request.bindings
        plan.bindingSecretIds).1 with
      | .ok _ => some (t, plan, checked)
      | .error _ => none
    | _ => none
  | none => none

lemma uses_of_resolvable {b : Broker.State} {r : ℕ} {c : Broker.Choice} {t : Broker.RunThread}
    {plan : ApprovalPlan} {checked : Env} (h : resolvable b r c = some (t, plan, checked)) :
    Broker.Occurrence.Uses ⟨b, .run r c⟩ r t plan checked := by
  unfold resolvable at h
  split at h
  · next t' ht =>
    split at h
    · next plan' ticket checked' hs =>
      split at h
      · next values hvalues =>
        cases h
        exact Or.inl ⟨c, ticket, values, rfl, ht, hs, hvalues⟩
      · cases h
    · cases h
  · cases h

theorem lock_keeps_consent_night : ∃ before o s d, Run (Step plainPlatform Broker.deskTimeout)
    pushStart (before ++ [o]) s ∧ o.before.agents.broker.approval.isAppActive = false ∧
    Consented plainPlatform before Broker.deskThread.client ⟨.filled 2⟩ d := by
  have hplay : ((play (System.apply plainPlatform Broker.deskTimeout) pushStart nightEvents).any
      fun q => q.2.agents.broker.approval.isAppActive == false &&
        (System.apply plainPlatform Broker.deskTimeout q.2
          (.agents (.broker (.run 0 Broker.deskChoice)))).isSome &&
        (resolvable q.2.agents.broker 0 Broker.deskChoice).any fun p =>
          p.1.client = Broker.deskThread.client ∧ p.2.1.bindingSecretIds = [⟨.filled 2⟩]) = true := by
    decide +kernel
  obtain ⟨⟨before, last⟩, hq, hs⟩ := (Option.any_eq_true _ _).mp hplay
  simp only [Bool.and_eq_true, beq_iff_eq] at hs
  obtain ⟨⟨hlocked, hnext⟩, hresolvable⟩ := hs
  obtain ⟨s, hnext⟩ := Option.isSome_iff_exists.mp hnext
  obtain ⟨⟨t, plan, checked⟩, hp, hplan⟩ := (Option.any_eq_true _ _).mp hresolvable
  obtain ⟨hclient, hids⟩ := of_decide_eq_true hplan
  have hrun := (run_of_play hq).snoc (.mk hnext)
  obtain ⟨d, hconsented, -⟩ := (lock_keeps_consent hrun hlocked).1 _ 0 t plan checked rfl
    (uses_of_resolvable hp) ⟨.filled 2⟩ (by rw [hids]; exact List.mem_cons_self)
  exact ⟨before, _, s, d, hrun, hlocked, hclient ▸ hconsented⟩

end Night

end Ladon.Application

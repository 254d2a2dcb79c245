import Ladon.ApprovalHistory
import Ladon.BrokerRun
import Ladon.ControllerLaw

/-!
The session of the vault in which plaintext is resolved.

The approval coordinator remembers a session of its own, and the controller locks and opens the
vault without telling it. What a run resolves is of the session it was approved in, where no session
is opened while a run could still be served under an earlier one.
-/

namespace Ladon.Broker

open Ladon.Error Ladon.Model Ladon.Vault Ladon.Crypto Ladon.Store Ladon.Runner Ladon.SecretEditor
  Ladon.Approval Ladon.Grants Ladon.Controller Ladon.Lib Ladon.Lib.Utf8 Ladon.Approval.ApprovalState

section Sessions

variable [UnicodeNormalization] {approvalTimeout : Duration}

/-! ### The controller -/

lemma keepsSession_commit {amb : Ambient} {storage : Storage} {c : VaultController}
    {prepared : PreparedMutation} : KeepsSession c (prepared.commit amb storage c) := by
  cases prepared with
  | update prepared => exact keepsSession_editAndCommit
  | delete id => exact keepsSession_editAndCommit

/-- A plan is of the session the vault is open under. -/
lemma approvalPlan_session {c : VaultController} {bindings : List ValidatedSecretBinding}
    {plan : ApprovalPlan} (h : c.approvalPlan bindings = .ok plan) :
    c.sessionId = some plan.vaultSessionId := by
  unfold VaultController.approvalPlan at h
  rw [bind_eq_ok] at h
  obtain ⟨ids, -, h⟩ := h
  split at h
  · rw [bind_eq_ok] at h
    obtain ⟨requested, -, h⟩ := h
    split at h
    · next hsession =>
      cases h
      exact hsession
    · cases h
  · cases h

/-- Values come from an open vault only. -/
lemma phase_of_resolved {c : VaultController} {amb : Ambient}
    {bindings : List ValidatedSecretBinding} {ids : List SecretId}
    {values : List ResolvedSecretBinding}
    (h : (c.resolveBindingsForIds amb bindings ids).1 = .ok values) : c.phase = .unlocked := by
  unfold VaultController.resolveBindingsForIds at h
  split at h
  · cases h
  · split at h
    · next hs => exact phase_of_unlocked hs
    · cases h

/-! ### What is resolved -/

/-- A session is opened only where no run can be served under an earlier one: every run that has its
plan and has not resolved it has asked for approval, and the coordinator has left its session. -/
def Occurrence.Orderly (o : Occurrence) : Prop :=
  ∀ amb op, o.event = .controller amb op → op.Opens amb o.before.controller →
    ∀ r t plan, o.before.threads r = some t → t.stage.unresolved? = some plan →
      t.stage.asked ∧ o.before.approval.vaultSessionId ≠ some plan.vaultSessionId

/-- The values of a plan are read from the vault, under the grants of its ticket. -/
def Occurrence.Resolves (o : Occurrence) (plan : ApprovalPlan) : Prop :=
  ∃ r c t ticket checked values, o.event = .run r c ∧ o.before.threads r = some t ∧
    t.stage = .resolving plan ticket checked ∧
    (o.before.controller.resolveBindingsForIds c.ambient t.request.bindings
      plan.bindingSecretIds).1 = .ok values

/-- A run that is still to be served is of the session the vault is open under, or the coordinator
will refuse it. -/
def SessionInv (b : State) : Prop :=
  ∀ r t plan, b.threads r = some t → t.stage.unresolved? = some plan →
    (b.controller.phase = .unlocked → b.controller.sessionId = some plan.vaultSessionId) ∨
      t.stage.asked ∧ b.approval.vaultSessionId ≠ some plan.vaultSessionId

/-- Another session of the vault is entered only under the one it is open under. -/
lemma SessionInv.frame {b b' : State} {e : Event} (h : SessionInv b)
    (happroval : ApprovalMoves approvalTimeout b e b')
    (hcontroller : KeepsSession b.controller b'.controller)
    (hthreads : ∀ r t plan, b'.threads r = some t → t.stage.unresolved? = some plan →
      (∃ t₀, b.threads r = some t₀ ∧ t₀.stage.unresolved? = some plan ∧
        (t₀.stage.asked → t.stage.asked)) ∨ b'.controller.sessionId = some plan.vaultSessionId) :
    SessionInv b' := by
  have hkeep : ∀ {vault : Uuid},
      (b.controller.phase = .unlocked → b.controller.sessionId = some vault) →
      b'.controller.phase = .unlocked → b'.controller.sessionId = some vault := by
    intro vault hv hu
    obtain ⟨hu', hs⟩ := hcontroller hu
    rw [hs, hv hu']
  intro r t plan ht hp
  rcases hthreads r t plan ht hp with ⟨t₀, ht₀, hp₀, hasked⟩ | hsession
  · rcases h r t₀ plan ht₀ hp₀ with hleft | ⟨ha, hv⟩
    · exact .inl (hkeep hleft)
    · rcases happroval with hsame | ⟨-, call, hcall, hafter⟩
      · exact .inr ⟨hasked ha, hsame ▸ hv⟩
      · have hchange : Change b.env b.approval call b'.approval := hafter ▸ call.change
        rcases hchange.vault_eq with hsame | hnone | ⟨request, token, rfl, hvault⟩ |
          ⟨client, vault, rfl, hvault⟩
        · exact .inr ⟨hasked ha, hsame ▸ hv⟩
        · refine .inr ⟨hasked ha, ?_⟩
          rw [hnone]
          exact fun h => (nomatch h)
        · -- the run that asks now has not asked before, so the vault is open under its session
          by_cases heq : request.vaultSessionId = plan.vaultSessionId
          · cases hcall with
            | plain hplain => cases hplain
            | run hrun => cases hrun
            | beginLock hcall => split at hcall <;> cases hcall
            | vaultLock hcall => rcases hcall with h | h | ⟨h, -⟩ <;> cases h
            | @authorize r₂ c t₂ plan₂ id ht₂ hs₂ =>
              rcases h r₂ t₂ plan₂ ht₂ (by rw [hs₂]; rfl) with hleft | ⟨ha₂, -⟩
              · exact .inl (hkeep fun hu => (hleft hu).trans (congrArg some heq))
              · rw [hs₂] at ha₂
                cases ha₂
          · refine .inr ⟨hasked ha, ?_⟩
            rw [hvault]
            exact fun h => heq (Option.some.inj h)
        · by_cases heq : vault = plan.vaultSessionId
          · cases hcall with
            | plain hplain => cases hplain
            | run hrun => cases hrun
            | beginLock hcall => split at hcall <;> cases hcall
            | vaultLock hcall => rcases hcall with h | h | ⟨h, -⟩ <;> cases h
            | capture hsnapshot =>
              refine .inl (hkeep fun _ => ?_)
              unfold State.sessionSnapshot at hsnapshot
              split at hsnapshot
              · next hsession =>
                cases hsnapshot
                rw [hsession, heq]
              · cases hsnapshot
          · refine .inr ⟨hasked ha, ?_⟩
            rw [hvault]
            exact fun h => heq (Option.some.inj h)
  · exact .inl fun _ => hsession

/-- A thread that moves keeps its plan, or reads one of the session the vault is open under. -/
lemma Move.unresolved {b b' : State} {r r' : ℕ} {t t' : RunThread} {plan : ApprovalPlan}
    (ht : b.threads r = some t) (h : Move approvalTimeout b r t b') (ht' : b'.threads r' = some t')
    (hp : t'.stage.unresolved? = some plan) :
    (∃ t₀, b.threads r' = some t₀ ∧ t₀.stage.unresolved? = some plan ∧
      (t₀.stage.asked → t'.stage.asked)) ∨ b'.controller.sessionId = some plan.vaultSessionId := by
  have hweaker : ∀ {s' : RunStage}, s'.Weaker t.stage →
      b'.threads = Function.update b.threads r (some { t with stage := s' }) →
      ∃ t₀, b.threads r' = some t₀ ∧ t₀.stage.unresolved? = some plan ∧
        (t₀.stage.asked → t'.stage.asked) := by
    intro s' hw hthreads
    rcases threads_update hthreads ht' with ⟨rfl, rfl⟩ | ⟨-, h₀⟩
    · exact ⟨t, ht, hw.unresolved plan hp⟩
    · exact ⟨t', h₀, hp, fun h => h⟩
  have hother : ∀ {s' : RunStage}, s'.unresolved? = none ∨ s'.unresolved? = t.stage.unresolved? ∧
      (t.stage.asked → s'.asked) →
      b'.threads = Function.update b.threads r (some { t with stage := s' }) →
      ∃ t₀, b.threads r' = some t₀ ∧ t₀.stage.unresolved? = some plan ∧
        (t₀.stage.asked → t'.stage.asked) := by
    intro s' hs hthreads
    rcases threads_update hthreads ht' with ⟨rfl, rfl⟩ | ⟨-, h₀⟩
    · rcases hs with hs | ⟨hs, ha⟩
      · rw [hs] at hp
        cases hp
      · exact ⟨t, ht, hs ▸ hp, ha⟩
    · exact ⟨t', h₀, hp, fun h => h⟩
  cases h with
  | start _ _ _ => exact .inl (hother (.inl rfl) rfl)
  | milder hm _ => exact .inl (hweaker hm.toWeaker rfl)
  | call _ hm _ _ => exact .inl (hweaker hm.toWeaker rfl)
  | @plan plan' hs hplan =>
    rcases threads_update rfl ht' with ⟨-, rfl⟩ | ⟨-, h₀⟩
    · cases hp
      exact .inr (approvalPlan_session hplan)
    · exact .inl ⟨t', h₀, hp, fun h => h⟩
  | context _ hstage =>
    rcases hstage with ⟨_, rfl⟩ | ⟨plan', hs, rfl, _⟩
    · exact .inl (hother (.inl rfl) rfl)
    · exact .inl (hother (.inr (by rw [hs]; exact ⟨rfl, fun h => (nomatch h)⟩)) rfl)
  | authorize _ hs hnext =>
    rcases hnext with ⟨e, rfl⟩ | ⟨w, rfl, _⟩ | ⟨k, rfl, _⟩
    · exact .inl (hother (.inl rfl) rfl)
    · exact .inl (hother (.inr (by rw [hs]; exact ⟨rfl, fun _ => rfl⟩)) rfl)
    · exact .inl (hother (.inr (by rw [hs]; exact ⟨rfl, fun _ => rfl⟩)) rfl)
  | check _ _ hstage =>
    rcases hstage with ⟨hs, rfl⟩ | ⟨_, rfl⟩
    · exact .inl (hother (.inr (by rw [hs]; exact ⟨rfl, fun _ => rfl⟩)) rfl)
    · exact .inl (hother (.inl rfl) rfl)
  | resolve _ hnext =>
    rcases hnext with ⟨e, rfl⟩ | ⟨rfl, _⟩
    · exact .inl (hother (.inl rfl) rfl)
    · exact .inl (hother (.inl rfl) rfl)
  | spawn _ hnext =>
    rcases hnext with ⟨e, rfl⟩ | rfl
    · exact .inl (hother (.inl rfl) rfl)
    · exact .inl (hother (.inl rfl) rfl)
  | plainResolve hm _ => exact .inl (hweaker hm.toWeaker rfl)
  | plainSpawn _ hm _ => exact .inl (hweaker hm.toWeaker rfl)
  | drop _ _ => exact .inl (hother (.inl rfl) rfl)

lemma Move.keepsSession {b b' : State} {r : ℕ} {t : RunThread}
    (h : Move approvalTimeout b r t b') : KeepsSession b.controller b'.controller := by
  cases h with
  | resolve _ _ => exact (untouched_resolveBindingsForIds _ _).keepsSession
  | plainResolve _ _ => exact (untouched_resolveBindings _).keepsSession
  | _ => exact .refl _

/-- The threads and the controller are as they were. -/
lemma SessionInv.untouched {b b' : State} {e : Event} (h : SessionInv b)
    (happly : b.apply approvalTimeout e = some b') (hthreads : b'.threads = b.threads)
    (hcontroller : KeepsSession b.controller b'.controller) : SessionInv b' :=
  h.frame (apply_approval happly) hcontroller fun _ t _ ht hp =>
    .inl ⟨t, hthreads ▸ ht, hp, fun h => h⟩

lemma SessionInv.apply {b b' : State} {e : Event} (h : SessionInv b)
    (happly : b.apply approvalTimeout e = some b') (horderly : Occurrence.Orderly ⟨b, e⟩) :
    SessionInv b' := by
  have hmoves := apply_approval happly
  cases apply_move happly with
  | run ht hmove =>
    exact h.frame hmoves hmove.keepsSession fun _ _ _ ht' hp => hmove.unresolved ht ht' hp
  | abandon ht hm hunheld =>
    exact h.frame hmoves (.refl _) fun _ _ _ ht' hp =>
      (@Move.milder _ approvalTimeout _ _ _ _ hm hunheld).unresolved ht ht' hp
  | lock hmove =>
    obtain ⟨hthreads, hcontroller, -⟩ := hmove.frame
    refine h.untouched happly hthreads ?_
    rcases hcontroller with hsame | hlock
    · rw [hsame]
      exact .refl _
    · rw [hlock]
      exact keepsSession_of_closed phase_lock
  | request _ =>
    refine h.frame hmoves (.refl _) fun r' t' plan ht' hp => .inl ?_
    rcases threads_update rfl ht' with ⟨-, rfl⟩ | ⟨-, ht'⟩
    · cases hp
    · exact ⟨t', ht', hp, fun h => h⟩
  | beginLock _ _ _ _ => exact h.untouched happly rfl (.refl _)
  | beginVaultLock _ => exact h.untouched happly rfl (.refl _)
  | @controller amb op =>
    by_cases hopens : op.Opens amb b.controller
    · intro r t plan ht hp
      exact .inr (horderly amb op rfl hopens r t plan ht hp)
    · exact h.untouched happly rfl (op.keepsSession hopens)
  | commit _ => exact h.untouched happly rfl keepsSession_commit
  | other hthreads _ _ hcontroller _ _ =>
    refine h.untouched happly hthreads ?_
    rw [hcontroller]
    exact .refl _

/-- **What is resolved is of the session it was approved in.** In every run in which no session of
the vault is opened while a run request could still be served under an earlier one, plaintext is
resolved under the session of the plan that was approved. -/
theorem resolved_in_session (env : Env) (grantLifetime : Duration) (fileExists : Bool) (b : State)
    (history : List Occurrence)
    (hrun : Run (Step approvalTimeout) (.initial env grantLifetime fileExists) history b)
    (horderly : ∀ o ∈ history, o.Orderly) :
    ∀ o ∈ history, ∀ plan, o.Resolves plan →
      o.before.controller.sessionId = some plan.vaultSessionId := by
  suffices hall : Inv b ∧ ((∀ o ∈ history, o.Orderly) → SessionInv b ∧
      ∀ o ∈ history, ∀ plan, o.Resolves plan →
        o.before.controller.sessionId = some plan.vaultSessionId) from (hall.2 horderly).2
  clear horderly
  refine hrun.history_invariant (I := fun history b => Inv b ∧ ((∀ o ∈ history, o.Orderly) →
    SessionInv b ∧ ∀ o ∈ history, ∀ plan, o.Resolves plan →
      o.before.controller.sessionId = some plan.vaultSessionId)) ?_ ?_
  · refine ⟨inv_initial, fun _ => ⟨fun r t plan ht => ?_, fun o ho => (nomatch ho)⟩⟩
    cases ht
  · rintro history b o b' ⟨hinv, hsession⟩ ⟨happly⟩
    refine ⟨hinv.apply happly, fun horderly => ?_⟩
    obtain ⟨hs, hpast⟩ := hsession fun o ho => horderly o (List.mem_append_left _ ho)
    refine ⟨hs.apply happly (horderly _ (by simp)), fun o ho plan hresolves => ?_⟩
    rcases List.mem_append.mp ho with ho | ho
    · exact hpast o ho plan hresolves
    · rw [List.mem_singleton] at ho
      subst ho
      obtain ⟨r, c, t, ticket, checked, values, -, ht, hstage, hvalues⟩ := hresolves
      rcases hs r t plan ht (by rw [hstage]; rfl) with hleft | ⟨-, hv⟩
      · exact hleft (phase_of_resolved hvalues)
      · obtain ⟨-, hchecked⟩ := hinv.held ht (by rw [hstage]; rfl)
        have hasked : AskedFor t.client plan ticket :=
          hinv.asked ht (by rw [hstage]; rfl) (by rw [hstage]; rfl)
        exact (hv (hchecked.vault.trans (congrArg some hasked.vault))).elim

/-! ### Plays -/

lemma play_events {b last : State} {events : List Event} {history : List Occurrence}
    (h : b.play approvalTimeout events = some (history, last)) :
    history.map Occurrence.event = events := by
  induction events generalizing b history with
  | nil =>
    cases h
    rfl
  | cons e events ih =>
    obtain ⟨b', rest, rfl, -, hrest⟩ := play_cons h
    rw [List.map_cons, ih hrest]

def Event.isController : Event → Bool
  | .controller _ _ => true
  | _ => false

lemma orderly_of_not_controller {o : Occurrence} (h : o.event.isController = false) : o.Orderly := by
  intro amb op he
  rw [he] at h
  cases h

/-- A session that is opened before there is any run. -/
lemma orderly_of_no_thread {o : Occurrence} (h : ∀ r, o.before.threads r = none) : o.Orderly := by
  intro amb op _ _ r t plan ht
  rw [h r] at ht
  cases ht

/-- Where the next step of a thread reads the values of its plan: the session the vault is open
under, and that of the plan. -/
def State.resolution (b : State) (r : ℕ) (c : Choice) : Option (Option Uuid × Uuid) :=
  match b.threads r with
  | some t =>
    match t.stage with
    | .resolving plan _ _ =>
      if (b.controller.resolveBindingsForIds c.ambient t.request.bindings
          plan.bindingSecretIds).1.toBool then
        some (b.controller.sessionId, plan.vaultSessionId)
      else none
    | _ => none
  | none => none

lemma resolves_of_resolution {b : State} {r : ℕ} {c : Choice} {p : Option Uuid × Uuid}
    (h : b.resolution r c = some p) :
    ∃ plan, Occurrence.Resolves ⟨b, .run r c⟩ plan ∧
      p = (b.controller.sessionId, plan.vaultSessionId) := by
  unfold State.resolution at h
  split at h
  · next t ht =>
    split at h
    · next plan ticket checked hs =>
      split at h
      · next hok =>
        refine ⟨plan, ⟨r, c, t, ticket, checked, ?_⟩, (Option.some.inj h).symm⟩
        cases hv : (b.controller.resolveBindingsForIds c.ambient t.request.bindings
            plan.bindingSecretIds).1 with
        | error e =>
          rw [hv] at hok
          cases hok
        | ok values => exact ⟨values, rfl, ht, hs, rfl⟩
      · cases h
    · cases h
  · cases h

/-- What is resolved last in a play. -/
lemma resolves_of_play {b : State} {events : List Event} {r : ℕ} {c : Choice}
    {p : Option Uuid × Uuid}
    (h : ((b.play approvalTimeout events).bind fun q => (q.2.apply approvalTimeout (.run r c)).bind
      fun _ => q.2.resolution r c) = some p) :
    ∃ history last last' plan, b.play approvalTimeout events = some (history, last) ∧
      Run (Step approvalTimeout) b (history ++ [⟨last, .run r c⟩]) last' ∧
      Occurrence.Resolves ⟨last, .run r c⟩ plan ∧
      p = (last.controller.sessionId, plan.vaultSessionId) := by
  obtain ⟨⟨history, last⟩, hplay, h⟩ := Option.bind_eq_some_iff.mp h
  obtain ⟨last', hnext, h⟩ := Option.bind_eq_some_iff.mp h
  obtain ⟨plan, hresolves, hp⟩ := resolves_of_resolution h
  exact ⟨history, last, last', plan, hplay, (run_of_play hplay).snoc (.mk hnext), hresolves, hp⟩

end Sessions

/-! ### A failed save and a new session under a run -/

section Reopen

local instance deskText : UnicodeNormalization := asciiNormalization

def deskSecret (n : UInt8) (name : String) (h : validSecretName name) : SecretRecord where
  id := ⟨.filled n⟩
  name := ⟨name, h, rfl⟩
  fields := [⟨.value, ofString "open sesame", .text, by decide⟩]
  fields_ne_nil := by decide
  fields_le := by decide
  fields_nodup := by decide

/-- A vault with two secrets. -/
def deskVault : UnlockedVault where
  payload := ⟨⟨.filled 9⟩, 1,
    [deskSecret 1 "post" (by decide), deskSecret 2 "git" (by decide)], 1800, .empty⟩
  keyMaterial := .blank

/-- A disk that opens, and on which a commit ends as it is told. -/
def deskStorage (commit : Except LadonError Unit) : Storage where
  ensurePrivateParent := .ok ()
  createVault := fun payload _ => .ok ⟨payload, .blank⟩
  openVault := fun _ => .ok (.primary deskVault none)
  commit := fun _ => commit

def deskSession (n : UInt8) : Ambient := ⟨0, .filled n, ⟨.filled 9⟩⟩

/-- A run that needs the second secret. -/
def deskThread : RunThread where
  client := .filled 5
  label := "agent"
  cancellation := 0
  request := ⟨"/usr/bin/git", [], "/", [⟨.id ⟨.filled 2⟩, .value,
    .environment "TOKEN"⟩], 1000, 128⟩

def deskChoice : Choice := ⟨.filled 6, deskSession 7, .ok ()⟩

def deskTimeout : Duration := 120 * 10 ^ 9

def deskStart : State := .initial ⟨⟨0, 0⟩, 0, []⟩ (30 * 60 * 10 ^ 9) true

def deskUnlock (n : UInt8) : Event := .controller (deskSession n) (.unlock (deskStorage (.ok ())) "")

/-- The run is approved, and has its ticket. -/
def deskApproved : List Event :=
  [.request 0 deskThread] ++ List.replicate 6 (.run 0 deskChoice) ++
    [.call (.decide deskChoice.approvalId .approve), .run 0 deskChoice]

/-- The first secret is deleted; this cannot be saved, and the vault is locked and unlocked. -/
def deskReopened : List Event :=
  [.mutate (.delete ⟨.filled 1⟩),
    .commit (deskSession 7) (deskStorage (.error .storageFailure)), deskUnlock 8]

/-- **Plaintext is resolved in a session it was not approved in**, after a change of another secret
could not be saved and the vault was opened again. -/
theorem resolved_across_sessions : ¬ ∀ (approvalTimeout : Duration) (env : Env)
    (grantLifetime : Duration) (fileExists : Bool) (b : State) (history : List Occurrence),
    Run (Step approvalTimeout) (.initial env grantLifetime fileExists) history b →
      ∀ o ∈ history, ∀ plan, o.Resolves plan →
        o.before.controller.sessionId = some plan.vaultSessionId := by
  intro hall
  have hcross : ((deskStart.play deskTimeout ([deskUnlock 7] ++ deskApproved ++ deskReopened ++
      [.run 0 deskChoice])).bind fun q => (q.2.apply deskTimeout (.run 0 deskChoice)).bind
        fun _ => q.2.resolution 0 deskChoice) =
      some (some (deskSession 8).sessionId, (deskSession 7).sessionId) := by decide +kernel
  obtain ⟨history, last, last', plan, -, hrun, hresolves, hp⟩ := resolves_of_play hcross
  have hsame := hall _ _ _ _ _ _ hrun _ (List.mem_append_right _ List.mem_cons_self) plan hresolves
  obtain ⟨h8, h7⟩ := Prod.mk.inj hp
  rw [← h8, ← h7] at hsame
  exact absurd hsame (by decide)

/-- A run that is served in the session it was approved in. -/
theorem resolved_in_session_desk : ∃ history b,
    Run (Step deskTimeout) deskStart history b ∧ ∃ o ∈ history, ∃ plan, o.Resolves plan ∧
      o.before.controller.sessionId = some plan.vaultSessionId := by
  have hserved : ((deskStart.play deskTimeout (deskUnlock 7 :: (deskApproved ++
      [.run 0 deskChoice]))).bind fun q => (q.2.apply deskTimeout (.run 0 deskChoice)).bind
        fun _ => q.2.resolution 0 deskChoice) =
      some (some (deskSession 7).sessionId, (deskSession 7).sessionId) := by decide +kernel
  obtain ⟨history, last, last', plan, hplay, hrun, hresolves, -⟩ := resolves_of_play hserved
  obtain ⟨b', rest, rfl, -, hrest⟩ := play_cons hplay
  have hno : ∀ e ∈ deskApproved ++ [Event.run 0 deskChoice], e.isController = false := by
    intro e he
    have hall : (deskApproved ++ [Event.run 0 deskChoice]).all fun e => !e.isController := by decide
    simpa using List.all_eq_true.mp hall e he
  refine ⟨_, _, hrun, _, List.mem_append_right _ List.mem_cons_self, plan, hresolves, ?_⟩
  refine resolved_in_session _ _ _ _ _ hrun (fun o ho => ?_) _
    (List.mem_append_right _ List.mem_cons_self) plan hresolves
  rcases List.mem_append.mp ho with ho | ho
  · rcases List.mem_cons.mp ho with rfl | ho
    · exact orderly_of_no_thread fun _ => rfl
    · refine orderly_of_not_controller (hno _ ?_)
      rw [← play_events hrest]
      exact List.mem_map_of_mem ho
  · rw [List.mem_singleton.mp ho]
    exact orderly_of_not_controller rfl

end Reopen

end Ladon.Broker

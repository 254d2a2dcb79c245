import Ladon.ApprovalLock
import Ladon.BrokerSession
import Ladon.BrokerSlot

/-!
A lock of the application and the runs that are under way.

A lock on a human's wish takes every grant away and waits until no run is active. A lock the
application makes on its own leaves the unattended grants, and waits for those runs only that are
not covered by them.
-/

namespace Ladon.Broker

open Ladon.Error Ladon.Model Ladon.Runner Ladon.Approval Ladon.Grants Ladon.Controller Ladon.Lib
  Ladon.Approval.ApprovalState

section Locks

variable [UnicodeNormalization] {approvalTimeout : Duration}

/-! ### A lock that blocks new runs -/

namespace LockStage

/-- The lock keeps new runs from starting. -/
def blocks : LockStage → Bool
  | .draining _ | .blocked _ | .releasing | .vaultDraining _ | .vaultBlocked _ | .vaultClosed _
  | .vaultReset _ => true
  | _ => false

/-- The lock has seen that no run is active. -/
def drained : LockStage → Bool
  | .blocked _ | .releasing | .vaultBlocked _ | .vaultClosed _ | .vaultReset _ => true
  | _ => false

end LockStage

/-- At most one lock blocks new runs, and once it has seen the active run go none comes back. -/
structure BlockInv (b : State) : Prop where
  blocked : ∀ {l stage}, b.locks l = some stage → stage.blocks → b.runs.blockNew = true
  single : ∀ {l l' stage stage'}, b.locks l = some stage → b.locks l' = some stage' →
    stage.blocks → stage'.blocks → l = l'
  idle : ∀ {l stage}, b.locks l = some stage → stage.drained → b.runs.active = none

omit [UnicodeNormalization] in
lemma LockStage.blocks_of_drained {stage : LockStage} (h : stage.drained) : stage.blocks := by
  cases stage <;> first | rfl | cases h

lemma blockInv_initial {env : Env} {grantLifetime : Duration} {fileExists : Bool} :
    BlockInv (State.initial env grantLifetime fileExists) := by
  constructor <;> intro _ _ <;> intros <;> contradiction

/-- The locks are as they were, and the active run, if none, still is. -/
lemma BlockInv.frame {b b' : State} (h : BlockInv b) (hlocks : b'.locks = b.locks)
    (hblock : b'.runs.blockNew = b.runs.blockNew)
    (hidle : b.runs.blockNew = true → b.runs.active = none → b'.runs.active = none) :
    BlockInv b' := by
  constructor
  · intro l stage hl hs
    rw [hblock]
    exact h.blocked (hlocks ▸ hl) hs
  · intro l l' stage stage' hl hl'
    exact h.single (hlocks ▸ hl) (hlocks ▸ hl')
  · intro l stage hl hs
    have hl' : b.locks l = some stage := hlocks ▸ hl
    exact hidle (h.blocked hl' (LockStage.blocks_of_drained hs)) (h.idle hl' hs)

lemma locks_update {b b' : State} {l l' : ℕ} {stage stage' : LockStage}
    (hlocks : b'.locks = Function.update b.locks l (some stage)) (h : b'.locks l' = some stage') :
    l' = l ∧ stage' = stage ∨ l' ≠ l ∧ b.locks l' = some stage' := by
  rw [hlocks] at h
  by_cases hl : l' = l
  · subst hl
    rw [Function.update_self] at h
    exact .inl ⟨rfl, (Option.some.inj h).symm⟩
  · rw [Function.update_of_ne hl] at h
    exact .inr ⟨hl, h⟩

/-- One lock has moved on: it begins to block, goes on blocking, or lets go. -/
lemma BlockInv.update {b b' : State} {l : ℕ} {stage : LockStage} (h : BlockInv b)
    (hlocks : b'.locks = Function.update b.locks l (some stage))
    (hblocks : stage.blocks → b'.runs.blockNew = true)
    (hothers : (∃ old, b.locks l = some old ∧ old.blocks) ∨ b.runs.blockNew = false ∨
      b'.runs.blockNew = b.runs.blockNew ∧ ¬ stage.blocks)
    (hidle : stage.drained → b'.runs.active = none)
    (hactive : b.runs.active = none → b'.runs.active = none) : BlockInv b' := by
  have hother : ∀ {l' stage'}, l' ≠ l → b.locks l' = some stage' → stage'.blocks →
      b'.runs.blockNew = true ∧ ¬ stage.blocks := by
    intro l' stage' hne hl' hs'
    rcases hothers with ⟨old, ho, hb⟩ | hb | ⟨hb, hn⟩
    · exact (hne (h.single hl' ho hs' hb)).elim
    · rw [h.blocked hl' hs'] at hb
      cases hb
    · exact ⟨hb.trans (h.blocked hl' hs'), hn⟩
  constructor
  · intro l' stage' hl' hs'
    rcases locks_update hlocks hl' with ⟨-, rfl⟩ | ⟨hne, hl'⟩
    · exact hblocks hs'
    · exact (hother hne hl' hs').1
  · intro l₁ l₂ stage₁ stage₂ hl₁ hl₂ hs₁ hs₂
    rcases locks_update hlocks hl₁ with ⟨rfl, rfl⟩ | ⟨hne₁, hl₁⟩
    · rcases locks_update hlocks hl₂ with ⟨rfl, rfl⟩ | ⟨hne₂, hl₂⟩
      · rfl
      · exact ((hother hne₂ hl₂ hs₂).2 hs₁).elim
    · rcases locks_update hlocks hl₂ with ⟨rfl, rfl⟩ | ⟨hne₂, hl₂⟩
      · exact ((hother hne₁ hl₁ hs₁).2 hs₂).elim
      · exact h.single hl₁ hl₂ hs₁ hs₂
  · intro l' stage' hl' hs'
    rcases locks_update hlocks hl' with ⟨-, rfl⟩ | ⟨-, hl'⟩
    · exact hidle hs'
    · exact hactive (h.idle hl' hs')

/-- A thread that moves neither blocks nor starts where new runs are blocked. -/
lemma Move.runs {b b' : State} {r : ℕ} {t : RunThread} (h : Move approvalTimeout b r t b') :
    b'.locks = b.locks ∧ b'.runs.blockNew = b.runs.blockNew ∧
      (b.runs.blockNew = true → b.runs.active = none → b'.runs.active = none) := by
  have hspawn : ∀ {cancelled launched},
      (b.runs.spawnChild cancelled launched).2.blockNew = b.runs.blockNew ∧
      (b.runs.active = none → (b.runs.spawnChild cancelled launched).2.active = none) := by
    intro cancelled launched
    unfold RunCoordinator.spawnChild
    cases ha : b.runs.active with
    | none => exact ⟨rfl, fun _ => ha⟩
    | some a =>
      dsimp only
      split_ifs
      · exact ⟨rfl, fun h => (nomatch h)⟩
      · exact ⟨rfl, fun h => (nomatch h)⟩
      · cases launched <;> exact ⟨rfl, fun h => (nomatch h)⟩
  cases h with
  | start _ _ hb =>
    refine ⟨rfl, rfl, fun h => ?_⟩
    rw [hb] at h
    cases h
  | context ha _ =>
    refine ⟨rfl, rfl, fun _ h => ?_⟩
    rw [ha] at h
    cases h
  | spawn _ _ => exact ⟨rfl, hspawn.1, fun _ h => hspawn.2 h⟩
  | plainSpawn _ _ _ => exact ⟨rfl, hspawn.1, fun _ h => hspawn.2 h⟩
  | drop _ _ => exact ⟨rfl, rfl, fun _ _ => rfl⟩
  | _ => exact ⟨rfl, rfl, fun _ h => h⟩

lemma BlockInv.lock {b b' : State} {l : ℕ} (h : BlockInv b)
    (hmove : LockMove approvalTimeout b l b') : BlockInv b' := by
  cases hmove with
  | cancelActive hs =>
    exact h.update rfl (fun hb => (nomatch hb)) (.inr (.inr ⟨rfl, fun hb => (nomatch hb)⟩))
      (fun hd => (nomatch hd)) fun ha => ha
  | block hs hb =>
    exact h.update rfl (fun _ => rfl) (.inr (.inl hb)) (fun hd => (nomatch hd)) fun ha => ha
  | drained hs ha =>
    exact h.update rfl (fun _ => h.blocked hs rfl) (.inl ⟨_, hs, rfl⟩) (fun _ => ha) fun ha => ha
  | finish hs _ =>
    exact h.update rfl (fun _ => h.blocked hs rfl) (.inl ⟨_, hs, rfl⟩) (fun _ => h.idle hs rfl)
      fun ha => ha
  | release hs =>
    exact h.update rfl (fun hb => (nomatch hb)) (.inl ⟨_, hs, rfl⟩) (fun hd => (nomatch hd))
      fun ha => ha
  | snapshot hs | pass hs | judge hs _ _ | cancelUncovered hs | clear hs _ | finishAuto hs _ =>
    exact h.update rfl (fun hb => (nomatch hb)) (.inr (.inr ⟨rfl, fun hb => (nomatch hb)⟩))
      (fun hd => (nomatch hd)) fun ha => ha
  | vaultCall _ hstep =>
    rcases hstep with ⟨hs, -, rfl⟩ | ⟨hs, -, ok, rfl⟩ | ⟨ok, hs, -, ok', rfl⟩
    · exact h.update rfl (fun hb => (nomatch hb)) (.inr (.inr ⟨rfl, fun hb => (nomatch hb)⟩))
        (fun hd => (nomatch hd)) fun ha => ha
    · exact h.update rfl (fun hb => (nomatch hb)) (.inr (.inr ⟨rfl, fun hb => (nomatch hb)⟩))
        (fun hd => (nomatch hd)) fun ha => ha
    · exact h.update rfl (fun _ => h.blocked hs rfl) (.inl ⟨_, hs, rfl⟩) (fun _ => h.idle hs rfl)
        fun ha => ha
  | vaultBlock hs hb =>
    exact h.update rfl (fun _ => rfl) (.inr (.inl hb)) (fun hd => (nomatch hd)) fun ha => ha
  | vaultDrained hs ha =>
    exact h.update rfl (fun _ => h.blocked hs rfl) (.inl ⟨_, hs, rfl⟩) (fun _ => ha) fun ha => ha
  | vaultClose hs =>
    exact h.update rfl (fun _ => h.blocked hs rfl) (.inl ⟨_, hs, rfl⟩) (fun _ => h.idle hs rfl)
      fun ha => ha
  | vaultRelease hs =>
    exact h.update rfl (fun hb => (nomatch hb)) (.inl ⟨_, hs, rfl⟩) (fun hd => (nomatch hd))
      fun ha => ha

lemma BlockInv.apply {b b' : State} {e : Event} (h : BlockInv b)
    (happly : b.apply approvalTimeout e = some b') : BlockInv b' := by
  have hstart : ∀ {b'' : State} {l : ℕ} {stage : LockStage}, stage.blocks = false →
      stage.drained = false → b''.locks = Function.update b.locks l (some stage) →
      b''.runs = b.runs → BlockInv b'' := by
    intro b'' l stage hblocks hdrained hlocks hruns
    refine h.update hlocks ?_ (.inr (.inr ⟨by rw [hruns], by simp [hblocks]⟩)) ?_ ?_
    · simp [hblocks]
    · simp [hdrained]
    · intro ha
      rw [hruns]
      exact ha
  cases apply_move happly with
  | run _ hmove =>
    obtain ⟨hlocks, hblock, hidle⟩ := hmove.runs
    exact h.frame hlocks hblock hidle
  | abandon _ _ _ => exact h.frame rfl rfl fun _ ha => ha
  | lock hmove => exact h.lock hmove
  | request _ => exact h.frame rfl rfl fun _ ha => ha
  | @beginLock l preserve _ stage _ _ _ hstage =>
    rcases hstage with rfl | ⟨epoch, -, rfl⟩
    · exact hstart rfl rfl rfl rfl
    · cases preserve
      · exact hstart rfl rfl rfl rfl
      · exact hstart rfl rfl rfl rfl
  | beginVaultLock _ => exact hstart rfl rfl rfl rfl
  | controller => exact h.frame rfl rfl fun _ ha => ha
  | commit _ => exact h.frame rfl rfl fun _ ha => ha
  | other _ hlocks hruns _ _ _ =>
    refine h.frame hlocks (by rw [hruns]) fun _ ha => ?_
    rw [hruns]
    exact ha

lemma blockInv_run {env : Env} {grantLifetime : Duration} {fileExists : Bool} {b : State}
    {history : List Occurrence}
    (hrun : Run (Step approvalTimeout) (.initial env grantLifetime fileExists) history b) :
    BlockInv b := by
  refine hrun.invariant blockInv_initial ?_
  rintro b o b' h ⟨happly⟩
  exact h.apply happly

/-! ### What happens under a lock -/

/-- A lock of the application begins. -/
def Occurrence.Locks (o : Occurrence) (l : ℕ) (preserve : Bool) (epoch : ℕ) : Prop :=
  o.event = .beginLock l preserve ∧
    (o.before.approval.beginAppLockWithPolicy o.before.env preserve).1 = .ok epoch

/-- The application is unlocked, or the vault has been locked, which takes the lock of the
application with it. -/
def Occurrence.Reopens (o : Occurrence) (epoch : ℕ) : Prop :=
  o.event = .call (.unlockApp epoch) ∨ o.event = .call .resetAfterVaultLock ∨
    ∃ l ok, o.event = .lock l ∧ o.before.locks l = some (.vaultClosed ok)

/-- Plaintext is resolved for a run. -/
def Occurrence.Reads (o : Occurrence) (r : ℕ) (t : RunThread) (plan : ApprovalPlan) (checked : Env) :
    Prop :=
  ∃ c ticket values, o.event = .run r c ∧ o.before.threads r = some t ∧
    t.stage = .resolving plan ticket checked ∧
    (o.before.controller.resolveBindingsForIds c.ambient t.request.bindings
      plan.bindingSecretIds).1 = .ok values

/-- The child of a run is started with what was resolved. -/
def Occurrence.Spawns (o : Occurrence) (r : ℕ) (t : RunThread) (plan : ApprovalPlan) (checked : Env) :
    Prop :=
  ∃ c ticket, o.event = .run r c ∧ o.before.threads r = some t ∧
    t.stage = .spawning plan ticket checked ∧
    (o.before.runs.spawnChild o.before.env.cancelled c.launched).1 = .ok ()

def Occurrence.Uses (o : Occurrence) (r : ℕ) (t : RunThread) (plan : ApprovalPlan) (checked : Env) :
    Prop :=
  o.Reads r t plan checked ∨ o.Spawns r t plan checked

/-- Who has seen plaintext had before, or reads it now; and a child has run before, or starts now. -/
lemma exposed_before {b b' : State} {e : Event} {r : ℕ} {t : RunThread}
    (happly : b.apply approvalTimeout e = some b') (ht : b'.threads r = some t)
    (hexposed : t.stage.exposed) :
    (∃ t₀, b.threads r = some t₀ ∧ t₀.stage.exposed ∧ t.stage.plan? = t₀.stage.plan? ∧
      t.client = t₀.client ∧ t.cancellation = t₀.cancellation ∧
      ∀ plan, t.stage = .running plan → t₀.stage = .running plan ∨
        ∃ checked, Occurrence.Spawns ⟨b, e⟩ r t₀ plan checked) ∨
      ∃ t₀ plan checked, Occurrence.Reads ⟨b, e⟩ r t₀ plan checked ∧ t.stage.plan? = some plan ∧
        t.stage.launched = false := by
  have hsame : b.threads r = some t → ∃ t₀, b.threads r = some t₀ ∧ t₀.stage.exposed ∧
      t.stage.plan? = t₀.stage.plan? ∧ t.client = t₀.client ∧ t.cancellation = t₀.cancellation ∧
      ∀ plan, t.stage = .running plan → t₀.stage = .running plan ∨
        ∃ checked, Occurrence.Spawns ⟨b, e⟩ r t₀ plan checked :=
    fun ht => ⟨t, ht, hexposed, rfl, rfl, rfl, fun _ hs => .inl hs⟩
  rcases apply_slot happly with ⟨hthreads, -⟩ | ⟨r', t', -, -, hthreads⟩ |
    ⟨r', t', s', ht', hthreads, hslot⟩
  · exact .inl (hsame (hthreads ▸ ht))
  · rcases threads_update hthreads ht with ⟨-, rfl⟩ | ⟨-, ht⟩
    · cases hexposed
    · exact .inl (hsame ht)
  · rcases threads_update hthreads ht with ⟨rfl, rfl⟩ | ⟨-, ht⟩
    · generalize b'.runs.active = active at hslot
      cases hslot with
      | start _ _ => cases hexposed
      | stay hcalm =>
        obtain ⟨hexposed', hplan⟩ := hcalm.exposed hexposed
        refine .inl ⟨t', ht', hexposed', hplan, rfl, rfl, fun plan hs => ?_⟩
        have hcalm' := hcalm.after
        rw [show s' = .running plan from hs] at hcalm'
        cases hcalm'
      | context _ hstage =>
        rcases hstage with ⟨-, rfl, -⟩ | ⟨plan, -, rfl⟩ <;> cases hexposed
      | @read c plan ticket checked values he hs hv =>
        exact .inr ⟨t', plan, checked, ⟨c, ticket, values, he, ht', hs, hv⟩, rfl, rfl⟩
      | @launch c plan ticket checked a he hs ha hv =>
        refine .inl ⟨t', ht', by rw [hs]; rfl, by rw [hs]; rfl, rfl, rfl, fun plan' hs' => ?_⟩
        cases hs'
        exact .inr ⟨checked, c, ticket, he, ht', hs, hv⟩
      | bareLaunch _ _ => cases hexposed
      | drop _ => cases hexposed
    · exact .inl (hsame ht)

/-- The client is connected, and has an unattended grant that is alive for each of the secrets. -/
structure CoveredBy (env : Env) (s : ApprovalState) (client : Uuid) (ids : List SecretId) : Prop where
  connected : ∃ token, s.clientSessions.get? client = some token ∧ token ∉ env.cancelled
  unattended : ∀ k ∈ ids, ∃ d, s.grants.get? client k = some d ∧ d.remaining env.clock ≠ 0 ∧
    d.isUnattended

/-- The application is locked or being locked, and what waited has been refused. -/
structure Shut (epoch : ℕ) (b : State) : Prop where
  access : b.approval.appAccess = .locking epoch ∨ b.approval.appAccess = .locked epoch
  refused : AllRefused b.approval

lemma Shut.inactive {epoch : ℕ} {b : State} (h : Shut epoch b) : b.approval.isAppActive = false := by
  rcases h.access with ha | ha <;> simp [isAppActive, ha]

/-- Under a lock nothing is added, and the lock stays. -/
lemma Shut.apply {epoch : ℕ} {b b' : State} {e : Event} (h : Shut epoch b)
    (happly : b.apply approvalTimeout e = some b') (hopen : ¬ Occurrence.Reopens ⟨b, e⟩ epoch) :
    Shut epoch b' ∧ AddsNothing b.approval b'.approval := by
  rcases apply_approval happly with hsame | ⟨-, call, hcall, hafter⟩
  · rw [hsame]
    exact ⟨⟨hsame ▸ h.access, hsame ▸ h.refused⟩, ⟨fun h => h, fun h => ⟨_, h, .refl⟩⟩⟩
  · have hchange : Change b.env b.approval call b'.approval := hafter ▸ call.change
    have hadd := addsNothing_of_inactive h.inactive h.refused hchange
    refine ⟨⟨?_, h.refused.addsNothing hadd⟩, hadd⟩
    rcases access_of_inactive h.inactive hchange with hsame | ⟨e, -, hlocking, hlocked⟩ |
      ⟨e, rfl, hlocked⟩ | rfl
    · rw [hsame]
      exact h.access
    · refine .inr ?_
      rcases h.access with ha | ha
      · rw [ha] at hlocking
        cases hlocking
        exact hlocked
      · rw [ha] at hlocking
        cases hlocking
    · refine (hopen (.inl ?_)).elim
      have hepoch : e = epoch := by
        rcases h.access with ha | ha
        · rw [ha] at hlocked
          cases hlocked
        · rw [ha] at hlocked
          cases hlocked
          rfl
      subst hepoch
      cases hcall with
      | plain => rfl
      | run hrun => cases hrun
      | beginLock hcall => split at hcall <;> cases hcall
      | vaultLock hcall => rcases hcall with h | h | ⟨h, -⟩ <;> cases h
    · refine (hopen (.inr ?_)).elim
      cases hcall with
      | plain => exact .inl rfl
      | run hrun => cases hrun
      | beginLock hcall => split at hcall <;> cases hcall
      | vaultLock hcall =>
        rcases hcall with h | h | ⟨-, ok, hs⟩
        · cases h
        · cases h
        · exact .inr ⟨_, ok, rfl, hs⟩

/-- What a lock that begins leaves behind. -/
lemma shut_of_locks {o : Occurrence} {b' : State} {l epoch : ℕ} {preserve : Bool}
    (hlocks : o.Locks l preserve epoch) (hstep : Step approvalTimeout o.before o b') :
    Shut epoch b' ∧ b'.threads = o.before.threads ∧ o.before.holder = none ∧
      b'.locks l = some (if preserve then .autoBegun epoch else .begun epoch) ∧
      ∀ c k d, b'.approval.grants.get? c k = some d → preserve := by
  obtain ⟨before, event⟩ := o
  obtain ⟨rfl, hok⟩ := hlocks
  obtain ⟨happly⟩ := hstep
  rcases @beginAppLockWithPolicy_cases before.env before.approval preserve with
    ⟨e, he⟩ | ⟨-, epoch', s', -, hbegin, hquiet, hrefused, hgrants⟩
  · rw [he] at hok
    cases hok
  · rw [hbegin] at hok
    cases hok
    rw [State.apply, State.beginLock] at happly
    split at happly
    · cases happly
    · next hc =>
      cases happly
      rw [not_or, Bool.not_eq_true, Option.isSome_eq_false_iff, Option.isNone_iff_eq_none] at hc
      have hafter : (if preserve then Call.beginAutoAppLock else .beginAppLock).after approvalTimeout
          before.env before.approval = s' := by
        cases preserve with
        | false => exact congrArg Prod.snd hbegin
        | true => exact congrArg Prod.snd hbegin
      refine ⟨⟨.inl ?_, ?_⟩, rfl, hc.1, ?_, ?_⟩
      · exact (congrArg ApprovalState.appAccess hafter).trans hquiet.access
      · rw [State.setLock, hafter]
        exact hrefused
      · rw [hbegin]
        exact Function.update_self ..
      · intro c k d hd
        rw [State.setLock, hafter] at hd
        exact (hgrants c k d hd).1

/-! ### A lock on a human's wish -/

/-- Who holds the approval coordinator held it before, or has just been checked. -/
lemma Move.held {b b' : State} {r r' : ℕ} {t t' : RunThread} (h : Move approvalTimeout b r t b')
    (ht' : b'.threads r' = some t') (hheld : t'.stage.held? ≠ none) :
    b.threads r' = some t' ∨ ∃ ticket, (b.approval.grantIsValid b.env ticket).1 = true := by
  have hunheld : ∀ {s' : RunStage}, s'.held? = none →
      b'.threads = Function.update b.threads r (some { t with stage := s' }) →
      b.threads r' = some t' ∨ ∃ ticket, (b.approval.grantIsValid b.env ticket).1 = true := by
    intro s' hs' hthreads
    rcases threads_update hthreads ht' with ⟨-, rfl⟩ | ⟨-, h⟩
    · exact (hheld hs').elim
    · exact .inl h
  cases h with
  | start _ _ _ => exact hunheld rfl rfl
  | milder hm _ => exact hunheld hm.held rfl
  | call _ hm _ _ => exact hunheld hm.held rfl
  | plan _ _ => exact hunheld rfl rfl
  | context _ hstage =>
    rcases hstage with ⟨_, rfl⟩ | ⟨plan, _, rfl, _⟩
    · exact hunheld rfl rfl
    · exact hunheld rfl rfl
  | authorize _ _ hnext =>
    rcases hnext with ⟨e, rfl⟩ | ⟨w, rfl, _⟩ | ⟨k, rfl, _⟩
    · exact hunheld rfl rfl
    · exact hunheld rfl rfl
    · exact hunheld rfl rfl
  | check _ hvalid _ => exact .inr ⟨_, hvalid⟩
  | resolve _ hnext =>
    rcases hnext with ⟨e, rfl⟩ | ⟨rfl, _⟩
    · exact hunheld rfl rfl
    · exact hunheld rfl rfl
  | spawn _ hnext =>
    rcases hnext with ⟨e, rfl⟩ | rfl
    · exact hunheld rfl rfl
    · exact hunheld rfl rfl
  | plainResolve hm _ => exact hunheld hm.held rfl
  | plainSpawn _ hm _ => exact hunheld hm.held rfl
  | drop _ _ => exact hunheld rfl rfl

/-- A lock on a human's wish: no grant is left, and no thread is about to use one. -/
structure Dark (epoch : ℕ) (b : State) : Prop extends Shut epoch b where
  grants : ∀ c k, b.approval.grants.get? c k = none
  unheld : ∀ {r t}, b.threads r = some t → t.stage.held? = none

lemma Dark.apply {epoch : ℕ} {b b' : State} {e : Event} (h : Dark epoch b)
    (happly : b.apply approvalTimeout e = some b') (hopen : ¬ Occurrence.Reopens ⟨b, e⟩ epoch) :
    Dark epoch b' := by
  obtain ⟨hshut, hadd⟩ := h.toShut.apply happly hopen
  refine ⟨hshut, fun c k => ?_, fun {r' t'} ht' => ?_⟩
  · by_contra hne
    obtain ⟨d, hd⟩ := Option.ne_none_iff_exists'.mp hne
    have := hadd.grants hd
    rw [h.grants c k] at this
    cases this
  · by_contra hheld
    cases apply_move happly with
    | abandon _ _ _ =>
      rcases threads_update rfl ht' with ⟨-, rfl⟩ | ⟨-, ht⟩
      · exact hheld rfl
      · exact hheld (h.unheld ht)
    | run _ hmove =>
      rcases hmove.held ht' hheld with ht | ⟨ticket, hvalid⟩
      · exact hheld (h.unheld ht)
      · obtain ⟨-, -, k, d, hd, -⟩ := coversUnattended_spec (covers_of_valid h.inactive hvalid)
        rw [h.grants _ k] at hd
        cases hd
    | lock hmove => exact hheld (h.unheld (hmove.frame.1 ▸ ht'))
    | request _ =>
      rcases threads_update rfl ht' with ⟨-, rfl⟩ | ⟨-, ht⟩
      · exact hheld rfl
      · exact hheld (h.unheld ht)
    | other hthreads _ _ _ _ _ => exact hheld (h.unheld (hthreads ▸ ht'))
    | beginLock _ _ _ _ | beginVaultLock _ | controller | commit _ => exact hheld (h.unheld ht')

lemma Step.happened {b b' : State} {o : Occurrence} (h : Step approvalTimeout b o b') :
    b.apply approvalTimeout o.event = some b' := by
  obtain ⟨happly⟩ := h
  exact happly

/-- A run cut at one of its steps. -/
lemma run_cut {b₀ b : State} {before middle : List Occurrence} {o : Occurrence}
    (hrun : Run (Step approvalTimeout) b₀ (before ++ o :: middle) b) :
    ∃ b', Run (Step approvalTimeout) b₀ before o.before ∧ Step approvalTimeout o.before o b' ∧
      Run (Step approvalTimeout) b' middle b := by
  have hsplit : before ++ o :: middle = (before ++ [o]) ++ middle := by simp
  rw [hsplit] at hrun
  obtain ⟨b', hrun, hmiddle⟩ := hrun.split
  obtain ⟨b₁, hbefore, hstep⟩ := hrun.snoc_inv
  obtain ⟨happly⟩ := hstep
  exact ⟨b', hbefore, .mk happly, hmiddle⟩

/-- What holds behind a lock holds until it is lifted, at every step in between. -/
lemma under_lock {I : State → Prop} {epoch : ℕ} {b b' : State} {middle : List Occurrence}
    (hrun : Run (Step approvalTimeout) b middle b') (h₀ : I b)
    (hstep : ∀ {b b' e}, I b → b.apply approvalTimeout e = some b' →
      ¬ Occurrence.Reopens ⟨b, e⟩ epoch → I b')
    (hopen : ∀ o ∈ middle, ¬ o.Reopens epoch) : I b' ∧ ∀ o ∈ middle, I o.before := by
  suffices hall : (∀ o ∈ middle, ¬ o.Reopens epoch) → I b' ∧ ∀ o ∈ middle, I o.before from hall hopen
  clear hopen
  refine hrun.history_invariant
    (I := fun middle b' => (∀ o ∈ middle, ¬ o.Reopens epoch) → I b' ∧ ∀ o ∈ middle, I o.before)
    (fun _ => ⟨h₀, fun _ ho => (nomatch ho)⟩) ?_
  rintro middle t o u ih ⟨happly⟩ hopen
  obtain ⟨ht, hpast⟩ := ih fun o ho => hopen o (List.mem_append_left _ ho)
  refine ⟨hstep ht happly (hopen _ (by simp)), fun o ho => ?_⟩
  rcases List.mem_append.mp ho with ho | ho
  · exact hpast o ho
  · rw [List.mem_singleton.mp ho]
    exact ht

/-! ### Runs that have seen plaintext -/

/-- Plaintext was resolved for the run of this plan. -/
def HasRead (history : List Occurrence) (r : ℕ) (plan : ApprovalPlan) : Prop :=
  ∃ o ∈ history, ∃ t checked, o.Reads r t plan checked

/-- How far a thread may have come since it saw what the plan asks for. -/
def RunStage.Past (plan : ApprovalPlan) : RunStage → Prop
  | .resolved p _ | .spawning p _ _ | .running p => p = plan
  | .failed _ | .ended => True
  | _ => False

/-- The run coordinator has the secrets of the plan on record. -/
def State.OnRecord (b : State) (plan : ApprovalPlan) : Prop :=
  ∃ a, b.runs.active = some a ∧ a.secretIds = some plan.bindingSecretIds

/-- What becomes of a thread that has seen plaintext: it goes on, with its secrets on record for as
long as it has its lease, and starts its child at most once. -/
structure GoesOn (b b' : State) (e : Event) (r : ℕ) (plan : ApprovalPlan) (t t' : RunThread) :
    Prop where
  client : t'.client = t.client
  cancellation : t'.cancellation = t.cancellation
  past : t'.stage.Past plan
  leased : t'.stage.leased → t.stage.leased
  onRecord : t'.stage.leased → b.OnRecord plan → b'.OnRecord plan
  running : t'.stage = .running plan →
    t.stage = .running plan ∨ ∃ checked, Occurrence.Spawns ⟨b, e⟩ r t plan checked

/-- A step of the thread itself. -/
lemma stepRun_past {b b' : State} {r : ℕ} {c : Choice} {t : RunThread} {plan : ApprovalPlan}
    (ht : b.threads r = some t) (hpast : t.stage.Past plan)
    (h : b.stepRun approvalTimeout r c = some b') :
    ∃ t', b'.threads r = some t' ∧ GoesOn b b' (.run r c) r plan t t' := by
  unfold State.stepRun at h
  rw [ht] at h
  dsimp only at h
  cases hs : t.stage with
  | resolved p ticket =>
    rw [hs] at h hpast
    cases hpast
    obtain ⟨-, rfl⟩ := of_free h
    refine ⟨_, Function.update_self .., rfl, rfl, ?_, fun _ => (by rw [hs]; rfl), fun _ => id, ?_⟩
    · simp only [State.checkStage]
      split
      · rfl
      · trivial
    · simp only [State.checkStage]
      split <;> exact fun h => by cases h
  | spawning p ticket checked =>
    rw [hs] at h hpast
    cases hpast
    dsimp only at h
    rcases @spawnChild_cases b.runs b.env.cancelled c.launched with ⟨e, hc⟩ | ⟨a, ha, -, hc⟩
    · rw [hc] at h
      cases h
      exact ⟨_, Function.update_self .., rfl, rfl, trivial, fun _ => (by rw [hs]; rfl), fun _ => id,
        fun h => (by cases h)⟩
    · rw [hc] at h
      cases h
      refine ⟨_, Function.update_self .., rfl, rfl, rfl, fun _ => (by rw [hs]; rfl), ?_, fun _ => ?_⟩
      · rintro - ⟨a', ha', hids⟩
        rw [ha] at ha'
        cases ha'
        exact ⟨_, rfl, hids⟩
      · exact .inr ⟨checked, c, ticket, rfl, ht, hs, congrArg Prod.fst hc⟩
  | running p | failed e =>
    rw [hs] at h
    cases h
    exact ⟨_, Function.update_self .., rfl, rfl, trivial, fun h => (by cases h), fun h => (by cases h),
      fun h => (by cases h)⟩
  | ended =>
    rw [hs] at h
    cases h
  | _ =>
    rw [hs] at hpast
    exact hpast.elim

/-- A thread that nothing happens to. -/
lemma GoesOn.still {b b' : State} {e : Event} {r : ℕ} {t : RunThread} {plan : ApprovalPlan}
    (hpast : t.stage.Past plan) (hactive : t.stage.leased → b.OnRecord plan → b'.OnRecord plan) :
    GoesOn b b' e r plan t t :=
  ⟨rfl, rfl, hpast, id, hactive, fun h => .inl h⟩

/-- A step of another thread leaves the record of one that has the lease. -/
lemma onRecord_of_slot {b b' : State} {e : Event} {r r' : ℕ} {t t' : RunThread} {s' : RunStage}
    {plan : ApprovalPlan} (hinv : Inv b) (ht : b.threads r = some t) (ht' : b.threads r' = some t')
    (hne : r' ≠ r) (hslot : SlotMove b r' e t' s' b'.runs.active) (hleased : t.stage.leased)
    (h : b.OnRecord plan) : b'.OnRecord plan := by
  have halone : t'.stage.leased = false := by
    by_contra hl
    exact hne (hinv.unique ht' ht (by simpa using hl) hleased)
  obtain ⟨a, ha, hids⟩ := h
  generalize hactive : b'.runs.active = active at hslot
  cases hslot with
  | start _ hidle =>
    rw [ha] at hidle
    cases hidle
  | stay _ => exact ⟨a, hactive.trans ha, hids⟩
  | context _ hstage =>
    rcases hstage with ⟨hs, -⟩ | ⟨p, hs, -⟩
    · rw [hs] at halone
      cases halone
    · rw [hs] at halone
      cases halone
  | read _ _ _ => exact ⟨a, hactive.trans ha, hids⟩
  | launch _ hs _ _ =>
    rw [hs] at halone
    cases halone
  | bareLaunch hs _ =>
    rw [hs] at halone
    cases halone
  | drop hl =>
    rw [hl] at halone
    cases halone

/-- **What a run has seen stays on record** while it has its lease. -/
lemma past_before {b b' : State} {e : Event} {r : ℕ} {t : RunThread} {plan : ApprovalPlan}
    (hinv : Inv b) (ht : b.threads r = some t) (hpast : t.stage.Past plan)
    (happly : b.apply approvalTimeout e = some b') :
    ∃ t', b'.threads r = some t' ∧ GoesOn b b' e r plan t t' := by
  have hsame (hthreads : b'.threads = b.threads) (hactive : b'.runs.active = b.runs.active) :
      ∃ t', b'.threads r = some t' ∧ GoesOn b b' e r plan t t' :=
    ⟨t, hthreads ▸ ht, .still hpast fun _ ⟨a, ha, hids⟩ => ⟨a, hactive.trans ha, hids⟩⟩
  cases apply_move happly with
  | @run r' c t' _ ht' _ =>
    by_cases hr : r' = r
    · subst hr
      exact stepRun_past ht hpast happly
    · obtain ⟨s', hthreads, hslot⟩ := stepRun_slot ht' happly
      refine ⟨t, ?_, .still hpast (onRecord_of_slot hinv ht ht' hr hslot)⟩
      rw [hthreads, Function.update_of_ne (Ne.symm hr), ht]
  | @abandon r' e t' ht' hm _ =>
    by_cases hr : r' = r
    · subst hr
      rw [ht] at ht'
      cases ht'
      exact ⟨_, Function.update_self .., rfl, rfl, trivial, fun _ => hm.leased rfl, fun _ => id,
        fun h => (by cases h)⟩
    · refine ⟨t, ?_, .still hpast fun _ => id⟩
      exact (Function.update_of_ne (Ne.symm hr) _ _).trans ht
  | lock hmove =>
    obtain ⟨hthreads, -, hactive, -⟩ := hmove.frame
    exact hsame hthreads hactive
  | @request r' t' hnew =>
    have hr : r ≠ r' := by
      rintro rfl
      rw [hnew] at ht
      cases ht
    exact ⟨t, (Function.update_of_ne hr _ _).trans ht, .still hpast fun _ => id⟩
  | beginLock _ _ _ _ | beginVaultLock _ | controller | commit _ => exact hsame rfl rfl
  | other hthreads _ hruns _ _ _ => exact hsame hthreads (by rw [hruns])

/-- A thread that reads plaintext has it, and its secrets are on record. -/
lemma past_of_reads {b b' : State} {e : Event} {r : ℕ} {t : RunThread} {plan : ApprovalPlan}
    {checked : Env} (hinv : Inv b) (hreads : Occurrence.Reads ⟨b, e⟩ r t plan checked)
    (happly : b.apply approvalTimeout e = some b') :
    ∃ ticket, b'.threads r = some { t with stage := .resolved plan ticket } ∧ b'.OnRecord plan := by
  obtain ⟨c, ticket, values, rfl, ht, hs, hvalues⟩ := hreads
  obtain ⟨a, ha, -, -, hids⟩ := hinv.lease ht (by rw [hs]; rfl)
  rw [State.apply, State.stepRun, ht] at happly
  dsimp only at happly hvalues ht
  rw [hs] at happly
  obtain rfl := Option.some.inj happly
  refine ⟨ticket, ?_, a, ha, hids plan (by rw [hs]; rfl)⟩
  refine (Function.update_self ..).trans ?_
  rw [hvalues]
  rfl

/-- Every run that has read plaintext has gone on from there, and is on record. -/
def ReadInv (history : List Occurrence) (b : State) : Prop :=
  ∀ r plan, HasRead history r plan →
    ∃ t, b.threads r = some t ∧ t.stage.Past plan ∧ (t.stage.leased → b.OnRecord plan)

lemma ReadInv.apply {history : List Occurrence} {b b' : State} {e : Event} (h : ReadInv history b)
    (hinv : Inv b) (happly : b.apply approvalTimeout e = some b') :
    ReadInv (history ++ [⟨b, e⟩]) b' := by
  rintro r plan ⟨o, ho, t, checked, hreads⟩
  rcases List.mem_append.mp ho with ho | ho
  · obtain ⟨t, ht, hpast, hrecord⟩ := h r plan ⟨o, ho, t, checked, hreads⟩
    obtain ⟨t', ht', hgoes⟩ := past_before hinv ht hpast happly
    exact ⟨t', ht', hgoes.past, fun hl => hgoes.onRecord hl (hrecord (hgoes.leased hl))⟩
  · obtain rfl := List.mem_singleton.mp ho
    obtain ⟨ticket, ht, hrecord⟩ := past_of_reads hinv hreads happly
    exact ⟨_, ht, rfl, fun _ => hrecord⟩

lemma readInv_run {env : Env} {grantLifetime : Duration} {fileExists : Bool} {b : State}
    {history : List Occurrence}
    (hrun : Run (Step approvalTimeout) (.initial env grantLifetime fileExists) history b) :
    ReadInv history b := by
  suffices hall : Inv b ∧ ReadInv history b from hall.2
  refine hrun.history_invariant (I := fun history b => Inv b ∧ ReadInv history b)
    ⟨inv_initial, fun r plan ⟨o, ho, _⟩ => (nomatch ho)⟩ ?_
  rintro history b o b' ⟨hinv, hread⟩ ⟨happly⟩
  exact ⟨hinv.apply happly, hread.apply hinv happly⟩

/-- A run that holds plaintext, or whose child does, has read it. -/
theorem hasRead_of_exposed {env : Env} {grantLifetime : Duration} {fileExists : Bool} {b : State}
    {history : List Occurrence}
    (hrun : Run (Step approvalTimeout) (.initial env grantLifetime fileExists) history b) {r : ℕ}
    {t : RunThread} {plan : ApprovalPlan} (ht : b.threads r = some t) (hexposed : t.stage.exposed)
    (hplan : t.stage.plan? = some plan) : HasRead history r plan := by
  suffices hall : ∀ t, b.threads r = some t → t.stage.exposed → t.stage.plan? = some plan →
      HasRead history r plan from hall t ht hexposed hplan
  refine hrun.history_invariant (I := fun history b => ∀ t, b.threads r = some t → t.stage.exposed →
    t.stage.plan? = some plan → HasRead history r plan) (fun _ h => by cases h) ?_
  rintro history b ⟨_, e⟩ b' ih ⟨happly⟩ t ht hexposed hplan
  rcases exposed_before happly ht hexposed with
    ⟨t₀, ht₀, hexposed₀, hsame, -⟩ | ⟨t₀, plan', checked, hreads, hplan', -⟩
  · obtain ⟨o, ho, hreads⟩ := ih t₀ ht₀ hexposed₀ (hsame ▸ hplan)
    exact ⟨o, List.mem_append_left _ ho, hreads⟩
  · rw [hplan] at hplan'
    cases hplan'
    exact ⟨_, List.mem_append_right _ List.mem_cons_self, t₀, checked, hreads⟩

/-! ### A lock the application makes on its own -/

/-- While the application is not open, what is used is covered by unattended grants. -/
lemma coveredBy_of_uses {o : Occurrence} {r : ℕ} {t : RunThread} {plan : ApprovalPlan} {checked : Env}
    (hinv : Inv o.before) (hlocked : o.before.approval.isAppActive = false)
    (huses : o.Uses r t plan checked) :
    CoveredBy checked o.before.approval t.client plan.bindingSecretIds := by
  have hstage : ∃ ticket, o.before.threads r = some t ∧ t.stage.plan? = some plan ∧
      t.stage.ticket? = some ticket ∧ t.stage.held? = some (ticket, checked) := by
    rcases huses with ⟨c, ticket, values, -, ht, hs, -⟩ | ⟨c, ticket, -, ht, hs, -⟩
    · exact ⟨ticket, ht, by rw [hs]; rfl, by rw [hs]; rfl, by rw [hs]; rfl⟩
    · exact ⟨ticket, ht, by rw [hs]; rfl, by rw [hs]; rfl, by rw [hs]; rfl⟩
  obtain ⟨ticket, ht, hplan, hticket, hheld⟩ := hstage
  have hasked := hinv.asked ht hplan hticket
  obtain ⟨-, hchecked⟩ := hinv.held ht hheld
  constructor
  · rw [← hasked.client]
    exact hchecked.connected hlocked
  · intro k hk
    rw [← hasked.client]
    exact hchecked.unattended hlocked k (hasked.secrets k (hinv.covered ht hplan k hk))

/-- The lock finds the active run covered by unattended grants for all its secrets. -/
def Occurrence.FindsCovered (o : Occurrence) (l : ℕ) (client : Uuid) (ids : List SecretId) : Prop :=
  ∃ epoch a, o.event = .lock l ∧ o.before.locks l = some (.snapshot epoch (some a)) ∧
    a.clientSessionId = client ∧ a.secretIds = some ids ∧
    (o.before.approval.unattendedCovers o.before.env client ids).1 = .ok true

omit [UnicodeNormalization] in
lemma coveredBy_of_covers {env : Env} {s : ApprovalState} {client : Uuid} {ids : List SecretId}
    (h : (s.unattendedCovers env client ids).1 = .ok true) : CoveredBy env s client ids := by
  have hcovers : ((s.purgeDisconnectedClients env).coversUnattended env client ids).1 = true :=
    Except.ok.inj h
  obtain ⟨hconnected, hunattended, -⟩ := coversUnattended_spec hcovers
  exact ⟨hconnected, hunattended⟩

/-- A run that had seen plaintext when the lock began, by how far the lock has come: it is noted,
found covered or cancelled, and gone or covered in the end. -/
def Accounted (found : Prop) (cancelled : List Token) (token : Token) (client : Uuid)
    (ids : List SecretId) : LockStage → Prop
  | .autoBegun _ => True
  | .snapshot _ active => ∃ a, active = some a ∧ a.cancellation = token ∧
      a.clientSessionId = client ∧ a.secretIds = some ids
  | .judged _ uncovered => found ∨ uncovered = some token
  | .watching _ => found ∨ token ∈ cancelled
  | .clear _ | .ended => found
  | _ => False

omit [UnicodeNormalization] in
lemma Accounted.mono {found found' : Prop} {cancelled cancelled' : List Token} {token : Token}
    {client : Uuid} {ids : List SecretId} {stage : LockStage}
    (h : Accounted found cancelled token client ids stage) (hfound : found → found')
    (hcancelled : ∀ k ∈ cancelled, k ∈ cancelled') :
    Accounted found' cancelled' token client ids stage := by
  cases stage with
  | judged epoch uncovered => exact h.imp_left hfound
  | watching epoch => exact h.imp hfound (hcancelled _)
  | clear epoch => exact hfound h
  | ended => exact hfound h
  | _ => exact h

lemma LockMove.locks {b b' : State} {l : ℕ} (h : LockMove approvalTimeout b l b') :
    ∃ stage, b'.locks = Function.update b.locks l (some stage) := by
  cases h <;> exact ⟨_, rfl⟩

/-- What has been cancelled stays so. -/
lemma cancelled_mono {b b' : State} {e : Event} (h : b.apply approvalTimeout e = some b') :
    ∀ k ∈ b.env.cancelled, k ∈ b'.env.cancelled := by
  cases apply_move h with
  | run _ hmove => cases hmove <;> exact fun _ hk => hk
  | lock hmove =>
    cases hmove with
    | cancelActive _ | block _ _ | cancelUncovered _ | vaultBlock _ _ =>
      exact fun _ hk => List.mem_append_right _ hk
    | _ => exact fun _ hk => hk
  | other _ _ _ _ _ hcancelled => exact hcancelled
  | _ => exact fun _ hk => hk

/-- A run that is accounted for stays so when the lock takes a step. -/
lemma Accounted.lock {b b' : State} {l r : ℕ} {t : RunThread} {plan : ApprovalPlan}
    {stage : LockStage} {found : Prop} (hinv : Inv b) (ht : b.threads r = some t)
    (hleased : t.stage.leased) (hrecord : b.OnRecord plan) (hl : b.locks l = some stage)
    (h : Accounted found b.env.cancelled t.cancellation t.client plan.bindingSecretIds stage)
    (hmove : LockMove approvalTimeout b l b') :
    ∃ stage', b'.locks l = some stage' ∧
      Accounted (found ∨ Occurrence.FindsCovered ⟨b, .lock l⟩ l t.client plan.bindingSecretIds)
        b'.env.cancelled t.cancellation t.client plan.bindingSecretIds stage' := by
  obtain ⟨a, ha, htoken, hclient, -⟩ := hinv.lease ht hleased
  have hids : a.secretIds = some plan.bindingSecretIds := by
    obtain ⟨a', ha', hids⟩ := hrecord
    rw [ha] at ha'
    cases ha'
    exact hids
  have hself : ∀ stage' : LockStage, Function.update b.locks l (some stage') l = some stage' :=
    fun stage' => Function.update_self ..
  cases hmove with
  | snapshot hs => exact ⟨_, hself _, a, ha, htoken, hclient, hids⟩
  | pass hs =>
    rw [hs] at hl
    cases hl
    obtain ⟨a, ha, -⟩ := h
    cases ha
  | @judge epoch a' uncovered hs _ hverdict =>
    rw [hs] at hl
    cases hl
    obtain ⟨a'', ha'', htoken', hclient', hids'⟩ := h
    cases ha''
    refine ⟨_, hself _, ?_⟩
    rcases hverdict with ⟨rfl, hcovers⟩ | rfl
    · rw [State.contextIds, hids', hclient'] at hcovers
      exact .inl (.inr ⟨epoch, a', rfl, hs, hclient', hids', hcovers⟩)
    · exact .inr (congrArg some htoken')
  | cancelUncovered hs =>
    rw [hs] at hl
    cases hl
    refine ⟨_, hself _, ?_⟩
    rcases h with hfound | rfl
    · exact .inl (.inl hfound)
    · exact .inr List.mem_cons_self
  | clear hs hsettled =>
    rw [hs] at hl
    cases hl
    refine ⟨_, hself _, ?_⟩
    rcases h with hfound | hcancelled
    · exact .inl hfound
    · -- the run is still the active one, so the lock would wait for it
      rw [State.activeCancelled, ha, Option.any_some, htoken, decide_eq_false_iff_not] at hsettled
      exact (hsettled hcancelled).elim
  | finishAuto hs _ =>
    rw [hs] at hl
    cases hl
    exact ⟨_, hself _, .inl h⟩
  | vaultCall _ hstep =>
    rcases hstep with ⟨hs, -⟩ | ⟨hs, -⟩ | ⟨ok, hs, -⟩ <;> rw [hs] at hl <;> cases hl <;> exact h.elim
  | cancelActive hs | block hs _ | drained hs _ | finish hs _ | release hs | vaultBlock hs _
  | vaultDrained hs _ | vaultClose hs | vaultRelease hs =>
    rw [hs] at hl
    cases hl
    exact h.elim

/-- Under the lock plaintext was read, and the child, if there is one, started. -/
def UsedSince (middle : List Occurrence) (r : ℕ) (t : RunThread) (plan : ApprovalPlan) : Prop :=
  (∃ o ∈ middle, ∃ t₀ checked, o.Reads r t₀ plan checked) ∧
    (t.stage = .running plan → ∃ o ∈ middle, ∃ t₀ checked, o.Spawns r t₀ plan checked)

/-- Every run that has seen plaintext, and has its lease, did so under the lock or is accounted for. -/
def AutoInv (l : ℕ) (before middle : List Occurrence) (b : State) : Prop :=
  ∀ r t plan, b.threads r = some t → t.stage.leased → HasRead (before ++ middle) r plan →
    UsedSince middle r t plan ∨ ∃ stage, b.locks l = some stage ∧
      Accounted (∃ o ∈ middle, o.FindsCovered l t.client plan.bindingSecretIds) b.env.cancelled
        t.cancellation t.client plan.bindingSecretIds stage

/-- What was found stays found, and what the last step finds is found. -/
lemma exists_mem_snoc {P : Occurrence → Prop} {middle : List Occurrence} {o : Occurrence}
    (h : (∃ o ∈ middle, P o) ∨ P o) : ∃ o' ∈ middle ++ [o], P o' := by
  rcases h with ⟨o', ho', hp⟩ | hp
  · exact ⟨o', List.mem_append_left _ ho', hp⟩
  · exact ⟨o, List.mem_append_right _ List.mem_cons_self, hp⟩

/-- The lock's own stage is changed by its own steps only. -/
lemma locks_of_other {b b' : State} {e : Event} {l : ℕ} {stage : LockStage}
    (happly : b.apply approvalTimeout e = some b') (hl : b.locks l = some stage)
    (hother : e ≠ .lock l) : b'.locks l = some stage := by
  have hupdate : ∀ {l' : ℕ} {stage' : LockStage}, l ≠ l' →
      b'.locks = Function.update b.locks l' (some stage') → b'.locks l = some stage := by
    intro l' stage' hne hlocks
    rw [hlocks, Function.update_of_ne hne, hl]
  have hnew : ∀ {l' : ℕ}, b.locks l' = none → l ≠ l' := by
    rintro l' hl' rfl
    rw [hl'] at hl
    cases hl
  cases apply_move happly with
  | run _ hmove =>
    rw [hmove.runs.1]
    exact hl
  | @lock l' _ hmove =>
    obtain ⟨stage', hlocks⟩ := hmove.locks
    refine hupdate (fun h => hother ?_) hlocks
    rw [h]
  | beginLock _ hn _ _ => exact hupdate (hnew hn) rfl
  | beginVaultLock hn => exact hupdate (hnew hn) rfl
  | other _ hlocks _ _ _ _ =>
    rw [hlocks]
    exact hl
  | abandon _ _ _ | request _ | controller | commit _ => exact hl

lemma AutoInv.apply {l : ℕ} {before middle : List Occurrence} {b b' : State} {e : Event}
    (h : AutoInv l before middle b) (hinv : Inv b) (hread : ReadInv (before ++ middle) b)
    (happly : b.apply approvalTimeout e = some b') : AutoInv l before (middle ++ [⟨b, e⟩]) b' := by
  rintro r t plan ht hleased ⟨o, ho, t₀, checked, hreads⟩
  rw [← List.append_assoc] at ho
  rcases List.mem_append.mp ho with ho | ho
  · have hold : HasRead (before ++ middle) r plan := ⟨o, ho, t₀, checked, hreads⟩
    obtain ⟨t₀, ht₀, hpast, hrecord⟩ := hread r plan hold
    obtain ⟨t', ht', hgoes⟩ := past_before hinv ht₀ hpast happly
    obtain rfl : t = t' := Option.some.inj (ht.symm.trans ht')
    have hleased₀ := hgoes.leased hleased
    rcases h r t₀ plan ht₀ hleased₀ hold with ⟨hused, hspawned⟩ | ⟨stage, hl, hacc⟩
    · refine .inl ⟨exists_mem_snoc (.inl hused), fun hs => exists_mem_snoc ?_⟩
      rcases hgoes.running hs with hs₀ | ⟨checked, hspawns⟩
      · exact .inl (hspawned hs₀)
      · exact .inr ⟨t₀, checked, hspawns⟩
    · refine .inr ?_
      rw [hgoes.client, hgoes.cancellation]
      by_cases hlock : e = .lock l
      · subst hlock
        obtain ⟨stage', hl', hacc'⟩ := Accounted.lock hinv ht₀ hleased₀ (hrecord hleased₀) hl hacc
          (stepLock_move happly)
        exact ⟨stage', hl', hacc'.mono exists_mem_snoc fun _ hk => hk⟩
      · exact ⟨stage, locks_of_other happly hl hlock,
          hacc.mono (fun hfound => exists_mem_snoc (.inl hfound)) (cancelled_mono happly)⟩
  · obtain rfl := List.mem_singleton.mp ho
    refine .inl ⟨exists_mem_snoc (.inr ⟨t₀, checked, hreads⟩), fun hs => ?_⟩
    obtain ⟨ticket, ht', -⟩ := past_of_reads hinv hreads happly
    rw [ht] at ht'
    cases ht'
    cases hs

/-- Nothing is used where nobody holds the approval coordinator. -/
lemma Dark.no_use {epoch : ℕ} {o : Occurrence} (h : Dark epoch o.before) {r : ℕ} {t : RunThread}
    {plan : ApprovalPlan} {checked : Env} : ¬ o.Uses r t plan checked := by
  rintro (⟨c, ticket, values, -, ht, hs, -⟩ | ⟨c, ticket, -, ht, hs, -⟩)
  · have hunheld := h.unheld ht
    rw [hs] at hunheld
    cases hunheld
  · have hunheld := h.unheld ht
    rw [hs] at hunheld
    cases hunheld

/-- A lock on a human's wish leaves nothing to be used. -/
lemma dark_of_locks {o : Occurrence} {b' : State} {l epoch : ℕ} (hinv : Inv o.before)
    (hlocks : o.Locks l false epoch) (hstep : Step approvalTimeout o.before o b') : Dark epoch b' := by
  obtain ⟨hshut, hthreads, hfree, -, hgrants⟩ := shut_of_locks hlocks hstep
  refine ⟨hshut, fun c k => ?_, fun {r t} ht => ?_⟩
  · by_contra hne
    obtain ⟨d, hd⟩ := Option.ne_none_iff_exists'.mp hne
    exact Bool.false_ne_true (hgrants c k d hd)
  · by_contra hne
    obtain ⟨⟨ticket, checked⟩, hs⟩ := Option.ne_none_iff_exists'.mp hne
    have hholder := (hinv.held (hthreads ▸ ht) hs).1
    rw [hfree] at hholder
    cases hholder

/-- **A lock of the application keeps secrets from being used.** Between a lock and the unlocking
that belongs to it: if a human wished it, nothing is used, and no run is active when the lock is
complete. If the application made it on its own, what is used is covered by unattended grants of a
client that is connected; and when it is complete, every run that has read plaintext, and has not let
go of its lease, has either been found covered by the lock, or has read it, and started its child,
under the lock. -/
theorem lock_excludes_use (env : Env) (grantLifetime : Duration) (fileExists : Bool)
    (before middle : List Occurrence) (o : Occurrence) (b : State) (l : ℕ) (preserve : Bool)
    (epoch : ℕ)
    (hrun : Run (Step approvalTimeout) (.initial env grantLifetime fileExists)
      (before ++ o :: middle) b)
    (hlocks : o.Locks l preserve epoch) (hopen : ∀ o' ∈ middle, ¬ o'.Reopens epoch) :
    (preserve = false →
      (∀ o' ∈ middle, ∀ r t plan checked, ¬ o'.Uses r t plan checked) ∧
      ∀ o' ∈ middle, o'.event = .lock l → o'.before.locks l = some (.blocked epoch) →
        o'.before.runs.active = none) ∧
    (preserve = true →
      (∀ o' ∈ middle, ∀ r t plan checked, o'.Uses r t plan checked →
        CoveredBy checked o'.before.approval t.client plan.bindingSecretIds) ∧
      (b.locks l = some (.clear epoch) → ∀ r t plan, b.threads r = some t → t.stage.leased →
        HasRead (before ++ o :: middle) r plan →
        UsedSince middle r t plan ∨ ∃ o' ∈ middle, o'.FindsCovered l t.client plan.bindingSecretIds ∧
          CoveredBy o'.before.env o'.before.approval t.client plan.bindingSecretIds)) := by
  obtain ⟨b₁, hbefore, hstep, hmiddle⟩ := run_cut hrun
  have hinv : Inv o.before := inv_run hbefore
  have hinv₁ : Inv b₁ := hinv.apply hstep.happened
  have hblock₁ : BlockInv b₁ := (blockInv_run hbefore).apply hstep.happened
  constructor
  · rintro rfl
    have hdark := under_lock (I := fun b => Dark epoch b ∧ BlockInv b) hmiddle
      ⟨dark_of_locks hinv hlocks hstep, hblock₁⟩
      (fun h happly hopen => ⟨h.1.apply happly hopen, h.2.apply happly⟩) hopen
    refine ⟨fun o' ho' r t plan checked => (hdark.2 o' ho').1.no_use, fun o' ho' _ hs => ?_⟩
    exact (hdark.2 o' ho').2.idle hs rfl
  · rintro rfl
    obtain ⟨hshut₁, hthreads, -, hl, -⟩ := shut_of_locks hlocks hstep
    have hshut := under_lock (I := fun b => Shut epoch b ∧ Inv b) hmiddle ⟨hshut₁, hinv₁⟩
      (fun h happly hopen => ⟨(h.1.apply happly hopen).1, h.2.apply happly⟩) hopen
    refine ⟨fun o' ho' r t plan checked huses => ?_, fun hclear r t plan ht hleased hread => ?_⟩
    · obtain ⟨hs, hi⟩ := hshut.2 o' ho'
      exact coveredBy_of_uses hi hs.inactive huses
    · obtain ⟨earlier, hearlier⟩ : ∃ earlier, earlier = before ++ [o] := ⟨_, rfl⟩
      have hread₁ : ReadInv earlier b₁ := hearlier ▸ readInv_run (hbefore.snoc hstep)
      have hauto : Inv b ∧ ReadInv (earlier ++ middle) b ∧ AutoInv l earlier middle b := by
        refine hmiddle.history_invariant (I := fun middle b => Inv b ∧
          ReadInv (earlier ++ middle) b ∧ AutoInv l earlier middle b)
          ⟨hinv₁, (List.append_nil earlier).symm ▸ hread₁,
            fun r t plan _ _ _ => .inr ⟨_, hl, trivial⟩⟩ ?_
        rintro middle b o b' ⟨hi, hr, ha⟩ ⟨happly⟩
        exact ⟨hi.apply happly, List.append_assoc earlier middle _ ▸ hr.apply hi happly,
          ha.apply hi hr happly⟩
      rw [List.append_cons, ← hearlier] at hread
      rcases hauto.2.2 r t plan ht hleased hread with hused | ⟨stage, hstage, hacc⟩
      · exact .inl hused
      · rw [hclear] at hstage
        cases hstage
        obtain ⟨o', ho', hfinds⟩ := hacc
        refine .inr ⟨o', ho', hfinds, ?_⟩
        obtain ⟨-, -, -, -, -, -, hcovers⟩ := hfinds
        exact coveredBy_of_covers hcovers

end Locks

/-! ### Locks with a run under way -/

section Shift

local instance shiftText : UnicodeNormalization := asciiNormalization

def shiftContext : UnattendedContext :=
  ⟨deskThread.client, (deskSession 7).sessionId, 0, 0, deskThread.client, "MCP client"⟩

/-- A client is allowed to work unattended for an hour, and starts a child. -/
def shiftEvents : List Event :=
  [deskUnlock 7, .call (.registerClientSession deskThread.client 1 deskThread.client),
    .capture deskThread.client, .call (.grantUnattended shiftContext
      [⟨.filled 2⟩] (3600 * 10 ^ 9) (.ok ())), .request 0 deskThread] ++
    List.replicate 10 (.run 0 deskChoice)

def LockStage.clearAt? : LockStage → Option ℕ
  | .clear epoch => some epoch
  | _ => none

def LockStage.blockedAt? : LockStage → Option ℕ
  | .blocked epoch => some epoch
  | _ => none

lemma LockStage.eq_of_clearAt {s : LockStage} {epoch : ℕ} (h : s.clearAt? = some epoch) :
    s = .clear epoch := by
  cases s <;> cases h
  rfl

lemma LockStage.eq_of_blockedAt {s : LockStage} {epoch : ℕ} (h : s.blockedAt? = some epoch) :
    s = .blocked epoch := by
  cases s <;> cases h
  rfl

/-- Nothing is called, and no lock is of the vault. -/
def Occurrence.quiet? (o : Occurrence) : Bool :=
  match o.event with
  | .call _ => false
  | .lock l => match o.before.locks l with
    | some (.vaultClosed _) => false
    | _ => true
  | _ => true

/-- A lock has seen that no run is active. -/
def Occurrence.completes? (o : Occurrence) (l epoch : ℕ) : Bool :=
  match o.event with
  | .lock l' => l' = l && (o.before.locks l').any fun stage => stage.blockedAt? = some epoch
  | _ => false

lemma not_reopens_of_quiet {o : Occurrence} {epoch : ℕ} (h : o.quiet? = true) : ¬ o.Reopens epoch := by
  unfold Occurrence.quiet? at h
  rintro (hevent | hevent | ⟨l, ok, hevent, hclosed⟩)
  · rw [hevent] at h
    cases h
  · rw [hevent] at h
    cases h
  · rw [hevent] at h
    dsimp only at h
    rw [hclosed] at h
    cases h

lemma locks_of_check {b : State} {l epoch : ℕ} {preserve : Bool}
    (h : (b.approval.beginAppLockWithPolicy b.env preserve).1.toOption = some epoch) :
    Occurrence.Locks ⟨b, .beginLock l preserve⟩ l preserve epoch := by
  refine ⟨rfl, ?_⟩
  cases hok : (b.approval.beginAppLockWithPolicy b.env preserve).1 with
  | ok epoch' =>
    rw [hok] at h
    cases h
    rfl
  | error e =>
    rw [hok] at h
    cases h

lemma completes_of_check {o : Occurrence} {l epoch : ℕ} (h : o.completes? l epoch = true) :
    o.event = .lock l ∧ o.before.locks l = some (.blocked epoch) := by
  unfold Occurrence.completes? at h
  split at h
  · next l' hevent =>
    obtain ⟨hl, hany⟩ := Bool.and_eq_true_iff.mp h
    obtain rfl : l' = l := of_decide_eq_true hl
    obtain ⟨stage, hstage, hat⟩ := (Option.any_eq_true _ _).mp hany
    exact ⟨hevent, by rw [hstage, LockStage.eq_of_blockedAt (of_decide_eq_true hat)]⟩
  · cases h

/-- A human locks the application, and the child is waited for; or the application locks on its own,
and finds the run covered. -/
theorem lock_excludes_use_shift :
    (∃ before middle o b, Run (Step deskTimeout) deskStart (before ++ o :: middle) b ∧
      o.Locks 0 false 1 ∧ o.before.runs.active ≠ none ∧
      (∀ o' ∈ middle, ∀ r t plan checked, ¬ o'.Uses r t plan checked) ∧
      ∃ o' ∈ middle, o'.event = .lock 0 ∧ o'.before.locks 0 = some (.blocked 1) ∧
        o'.before.runs.active = none) ∧
    ∃ before middle o b, Run (Step deskTimeout) deskStart (before ++ o :: middle) b ∧
      o.Locks 0 true 1 ∧ ∃ t plan, b.threads 0 = some t ∧ t.stage.exposed ∧
        (UsedSince middle 0 t plan ∨
          ∃ o' ∈ middle, o'.FindsCovered 0 t.client plan.bindingSecretIds ∧
            CoveredBy o'.before.env o'.before.approval t.client plan.bindingSecretIds) := by
  constructor
  · have hplay : ((deskStart.play deskTimeout shiftEvents).any fun q =>
        (q.2.apply deskTimeout (.beginLock 0 false)).any fun b =>
        (b.play deskTimeout [.lock 0, .lock 0, .run 0 deskChoice, .lock 0, .lock 0]).any fun q' =>
          (q.2.approval.beginAppLockWithPolicy q.2.env false).1.toOption = some 1 &&
          q.2.runs.active.isSome && q'.1.all Occurrence.quiet? &&
          q'.1.any (·.completes? 0 1)) = true := by
      decide +kernel
    obtain ⟨⟨before, last⟩, hbefore, h⟩ := (Option.any_eq_true _ _).mp hplay
    obtain ⟨b, hnext, h⟩ := (Option.any_eq_true _ _).mp h
    obtain ⟨⟨middle, b'⟩, hmiddle, h⟩ := (Option.any_eq_true _ _).mp h
    simp only [Bool.and_eq_true, decide_eq_true_eq] at h
    obtain ⟨⟨⟨hepoch, hactive⟩, hquiet⟩, hdone⟩ := h
    have hrun : Run (Step deskTimeout) deskStart
        (before ++ ⟨last, .beginLock 0 false⟩ :: middle) b' :=
      (run_of_play hbefore).append (.cons (.mk hnext) (run_of_play hmiddle))
    have hlocks : Occurrence.Locks ⟨last, .beginLock 0 false⟩ 0 false 1 := locks_of_check hepoch
    have hopen : ∀ o ∈ middle, ¬ o.Reopens 1 :=
      fun o ho => not_reopens_of_quiet (List.all_eq_true.mp hquiet o ho)
    obtain ⟨hunused, hidle⟩ := (lock_excludes_use _ _ _ _ _ _ _ _ _ _ hrun hlocks hopen).1 rfl
    obtain ⟨o', ho', hdone⟩ := List.any_eq_true.mp hdone
    obtain ⟨hevent, hblocked⟩ := completes_of_check hdone
    exact ⟨before, middle, _, b', hrun, hlocks, Option.isSome_iff_ne_none.mp hactive, hunused, o', ho',
      hevent, hblocked, hidle o' ho' hevent hblocked⟩
  · have hplay : ((deskStart.play deskTimeout shiftEvents).any fun q =>
        (q.2.apply deskTimeout (.beginLock 0 true)).any fun b =>
        (b.play deskTimeout (List.replicate 4 (.lock 0))).any fun q' =>
          (q.2.approval.beginAppLockWithPolicy q.2.env true).1.toOption = some 1 &&
          (q'.2.locks 0).any (·.clearAt? = some 1) && q'.1.all Occurrence.quiet? &&
          (q'.2.threads 0).any (·.stage.exposed)) = true := by
      decide +kernel
    obtain ⟨⟨before, last⟩, hbefore, h⟩ := (Option.any_eq_true _ _).mp hplay
    obtain ⟨b, hnext, h⟩ := (Option.any_eq_true _ _).mp h
    obtain ⟨⟨middle, b'⟩, hmiddle, h⟩ := (Option.any_eq_true _ _).mp h
    simp only [Bool.and_eq_true, decide_eq_true_eq] at h
    obtain ⟨⟨⟨hepoch, hclear⟩, hquiet⟩, hexposed⟩ := h
    have hrun : Run (Step deskTimeout) deskStart
        (before ++ ⟨last, .beginLock 0 true⟩ :: middle) b' :=
      (run_of_play hbefore).append (.cons (.mk hnext) (run_of_play hmiddle))
    have hlocks : Occurrence.Locks ⟨last, .beginLock 0 true⟩ 0 true 1 := locks_of_check hepoch
    have hopen : ∀ o ∈ middle, ¬ o.Reopens 1 :=
      fun o ho => not_reopens_of_quiet (List.all_eq_true.mp hquiet o ho)
    have hclear' : b'.locks 0 = some (.clear 1) := by
      obtain ⟨stage, hstage, hat⟩ := (Option.any_eq_true _ _).mp hclear
      rw [hstage, LockStage.eq_of_clearAt (of_decide_eq_true hat)]
    obtain ⟨t, ht, hexposed⟩ := (Option.any_eq_true _ _).mp hexposed
    obtain ⟨plan, hplan, -⟩ := RunStage.exists_plan_of_exposed hexposed
    refine ⟨before, middle, _, b', hrun, hlocks, t, plan, ht, hexposed, ?_⟩
    exact ((lock_excludes_use _ _ _ _ _ _ _ _ _ _ hrun hlocks hopen).2 rfl).2 hclear' 0 t plan ht
      (RunStage.leased_of_exposed hexposed) (hasRead_of_exposed hrun ht hexposed hplan)

end Shift

end Ladon.Broker

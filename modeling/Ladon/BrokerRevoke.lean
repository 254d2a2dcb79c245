import Ladon.BrokerWait
import Ladon.RunAdmission

/-!
Revocations at the desktop, in a broker at work: of everything, of what one client may do, or of one
secret of a client.

A revocation is a sequence of steps over the approval coordinator and the run coordinator, and
between two of them anything can happen. It takes the grants away under a block that keeps new runs
out, once the runs it has to stop have ended.
-/

namespace Ladon.BrokerRevoke

open Ladon.Error Ladon.Model Ladon.Approval Ladon.Grants Ladon.Controller Ladon.Broker
  Ladon.RunAdmission Ladon.Lib Ladon.Lib.Machine Ladon.Approval.ApprovalState

/-! ### Revocations -/

/-- What is revoked by `revoke_grants`, `revoke_session` and `revoke_grant`. -/
inductive Revocation
  | grants
  | session (client : Uuid)
  | grant (client : Uuid) (secret : SecretId)
  deriving DecidableEq

namespace Revocation

/-- The block it takes: `block_new_runs`, `block_for_client_revoke` or `block_for_revoke`. -/
def kind : Revocation → BlockKind
  | .grants => .newRuns
  | .session client => .clientRevoke client
  | .grant client secret => .revoke client secret

/-- The call under the block: `revoke_all`, `revoke_client` or `revoke_pair`. -/
def call : Revocation → Call
  | .grants => .revokeAll
  | .session client => .revokeClient client
  | .grant client secret => .revokePair client secret

/-- What that call returns. -/
def result (env : Env) (s : ApprovalState) : Revocation → Except LadonError Unit
  | .grants => s.revokeAll.1
  | .session client => (s.revokeClient env client).1
  | .grant client secret => (s.revokePair env client secret).1.map fun _ => ()

/-- The pairs whose grants are to go. -/
def Covers : Revocation → Uuid → SecretId → Prop
  | .grants, _, _ => True
  | .session client, c, _ => c = client
  | .grant client secret, c, k => c = client ∧ k = secret

/-- The pending approvals that are to go. -/
def Concerns (p : PendingState) : Revocation → Prop
  | .grants => True
  | .session client => p.request.clientSessionId = client
  | .grant client secret => p.request.clientSessionId = client ∧ secret ∈ p.requestedSecretIds

end Revocation

/-- What a revocation does next; or it has returned, without a block where it found that a lock from
outside owns the transition. -/
inductive RevokeStage
  | cancelPending
  | revokeAll
  | cancelActive
  | beginOperation
  | cancelPendingAgain
  | block
  | draining
  | blocked
  | releasing (result : Except LadonError Unit)
  | external
  | returned (result : Except LadonError Unit)

structure RevokeThread where
  revocation : Revocation
  stage : RevokeStage

namespace RevokeStage

/-- The flag that keeps new runs out is set for the revocation. -/
def blocks : RevokeStage → Bool
  | .draining | .blocked | .releasing _ => true
  | _ => false

/-- The runs it has to stop have ended. -/
def clear : RevokeStage → Bool
  | .blocked | .releasing _ => true
  | _ => false

/-- A step of `revoke_grants` before it has the block. -/
def isOutside : RevokeStage → Bool
  | .cancelPending | .revokeAll | .cancelActive | .cancelPendingAgain => true
  | _ => false

/-- What it returns, or will return when it has let go of the block. -/
def result? : RevokeStage → Option (Except LadonError Unit)
  | .releasing result | .returned result => some result
  | _ => none

end RevokeStage

section Machine

variable [UnicodeNormalization]

/-- A broker, the contexts for unattended use that were captured so far, and the revocations. -/
structure State where
  broker : Broker.State
  contexts : List UnattendedContext := []
  revokes : ℕ → Option RevokeThread := fun _ => none

/-- A step of a revocation reads what the coordinator of the desktop's operations answers: that it may
go on, that a lock from outside is in progress, or an error. -/
inductive Event
  | broker (e : Broker.Event)
  | begin (v : ℕ) (revocation : Revocation)
  | revoke (v : ℕ) (operation : Except LadonError Bool)

namespace State

def setRevoke (s : State) (v : ℕ) (t : RevokeThread) (stage : RevokeStage) : State :=
  { s with revokes := Function.update s.revokes v (some { t with stage := stage }) }

/-- `revoke_grants` first takes away what it can without a block. -/
def begin (s : State) (v : ℕ) (revocation : Revocation) : Option State :=
  if (s.revokes v).isSome then none
  else
    let stage : RevokeStage :=
      match revocation with
      | .grants => .cancelPending
      | .session _ | .grant _ _ => .beginOperation
    some (s.setRevoke v ⟨revocation, stage⟩ stage)

/-- A call of the approval coordinator in the course of a revocation. -/
def callIn (approvalTimeout : Duration) (s : State) (v : ℕ) (t : RevokeThread) (call : Call)
    (stage : RevokeStage) : Option State :=
  if s.broker.holder.isSome then none
  else some ({ s with broker := { s.broker with
    approval := call.after approvalTimeout s.broker.env s.broker.approval } }.setRevoke v t stage)

/-- The stage behind `wait_begin_local_operation` or `try_begin_local_operation`. -/
def operationStage (revocation : Revocation) : Except LadonError Bool → RevokeStage
  | .error e => .returned (.error e)
  | .ok true =>
    match revocation with
    | .grants => .cancelPendingAgain
    | .session _ | .grant _ _ => .block
  | .ok false =>
    match revocation with
    | .grants => .external
    | .session _ | .grant _ _ => .returned (.error .busy)

/-- The run that a block for a revocation cancels. -/
def stopped (s : State) (kind : BlockKind) : List Token :=
  ((s.broker.runs.active.filter kind.stops).map ActiveRun.cancellation).toList

def stepRevoke (approvalTimeout : Duration) (s : State) (v : ℕ) (operation : Except LadonError Bool) :
    Option State :=
  match s.revokes v with
  | none => none
  | some t =>
    match t.stage with
    | .cancelPending => s.callIn approvalTimeout v t .cancelPending .revokeAll
    | .revokeAll =>
      s.callIn approvalTimeout v t .revokeAll
        (match s.broker.approval.revokeAll.1 with
          | .ok () => .cancelActive
          | .error e => .returned (.error e))
    | .cancelActive =>
      some ({ s with broker := s.broker.cancelTokens s.broker.runs.activeToken }.setRevoke v t
        .beginOperation)
    | .beginOperation => some (s.setRevoke v t (operationStage t.revocation operation))
    | .cancelPendingAgain => s.callIn approvalTimeout v t .cancelPending .block
    | .block =>
      if s.broker.runs.blockNew then none
      else some ({ s with
        broker := { s.broker with runs := s.broker.runs.block }.cancelTokens
          (s.stopped t.revocation.kind) }.setRevoke v t
            (if s.broker.runs.active.any t.revocation.kind.stops then .draining else .blocked))
    | .draining =>
      if s.broker.runs.active.any t.revocation.kind.waitsFor then none
      else some (s.setRevoke v t .blocked)
    | .blocked =>
      s.callIn approvalTimeout v t t.revocation.call
        (.releasing (t.revocation.result s.broker.env s.broker.approval))
    | .releasing result =>
      some ({ s with broker := { s.broker with runs := s.broker.runs.dropBlock } }.setRevoke v t
        (.returned result))
    | .external | .returned _ => none

/-- The context that an event captures. -/
def captured (b : Broker.State) : Broker.Event → Option UnattendedContext
  | .capture client =>
    match (b.approval.captureUnattendedWith b.env client
        ((Broker.State.sessionSnapshot b.controller).map fun vault => (vault, ()))).1 with
    | .ok (context, _) => some context
    | .error _ => none
  | _ => none

/-- A consent is given on a context that was captured. -/
def consents (s : State) : Broker.Event → Bool
  | .call (.grantUnattended context _ _ _) => context ∈ s.contexts
  | _ => true

def apply (approvalTimeout : Duration) (s : State) : Event → Option State
  | .broker e =>
    if s.consents e then
      (s.broker.apply approvalTimeout e).map fun b =>
        { s with broker := b, contexts := (captured s.broker e).toList ++ s.contexts }
    else none
  | .begin v revocation => s.begin v revocation
  | .revoke v operation => s.stepRevoke approvalTimeout v operation

def initial (env : Env) (grantLifetime : Duration) (fileExists : Bool) : State where
  broker := .initial env grantLifetime fileExists

end State

abbrev Occurrence := Machine.Occurrence State Event

abbrev Step (approvalTimeout : Duration) := Machine.Step (State.apply approvalTimeout)

/-! ### What a step of a revocation can do -/

variable {approvalTimeout : Duration}

inductive RevokeMove (approvalTimeout : Duration) (s : State) (v : ℕ) (t : RevokeThread) : State → Prop
  | outside {call : Call} {stage : RevokeStage} (free : s.broker.holder = none)
      (kind : call = .cancelPending ∨ call = .revokeAll) (own : t.stage.isOutside)
      (unblocked : stage.blocks = false) (failed : stage.result? ≠ some (.ok ())) :
      RevokeMove approvalTimeout s v t ({ s with broker := { s.broker with
        approval := call.after approvalTimeout s.broker.env s.broker.approval } }.setRevoke v t stage)
  | cancel (own : t.stage.isOutside) :
      RevokeMove approvalTimeout s v t ({ s with
        broker := s.broker.cancelTokens s.broker.runs.activeToken }.setRevoke v t .beginOperation)
  | operation {stage : RevokeStage} (begins : t.stage = .beginOperation)
      (unblocked : stage.blocks = false) (failed : stage.result? ≠ some (.ok ()))
      (own : stage.isOutside → t.revocation = .grants) :
      RevokeMove approvalTimeout s v t (s.setRevoke v t stage)
  | block {stage : RevokeStage} (takes : t.stage = .block)
      (unblocked : s.broker.runs.blockNew = false) (blocks : stage.blocks = true)
      (result : stage.result? = none)
      (clear : stage.clear = true → s.broker.runs.active.any t.revocation.kind.stops = false) :
      RevokeMove approvalTimeout s v t ({ s with
        broker := { s.broker with runs := s.broker.runs.block }.cancelTokens
          (s.stopped t.revocation.kind) }.setRevoke v t stage)
  | drained (stage : t.stage = .draining)
      (done : s.broker.runs.active.any t.revocation.kind.waitsFor = false) :
      RevokeMove approvalTimeout s v t (s.setRevoke v t .blocked)
  | revoke (stage : t.stage = .blocked) (free : s.broker.holder = none) :
      RevokeMove approvalTimeout s v t ({ s with broker := { s.broker with
        approval := t.revocation.call.after approvalTimeout s.broker.env s.broker.approval } }.setRevoke
          v t (.releasing (t.revocation.result s.broker.env s.broker.approval)))
  | release {result : Except LadonError Unit} (stage : t.stage = .releasing result) :
      RevokeMove approvalTimeout s v t ({ s with
        broker := { s.broker with runs := s.broker.runs.dropBlock } }.setRevoke v t (.returned result))

lemma of_callIn {s s' : State} {v : ℕ} {t : RevokeThread} {call : Call} {stage : RevokeStage}
    (h : s.callIn approvalTimeout v t call stage = some s') :
    s.broker.holder = none ∧ s' = { s with broker := { s.broker with
      approval := call.after approvalTimeout s.broker.env s.broker.approval } }.setRevoke v t stage := by
  unfold State.callIn at h
  split at h
  · cases h
  · next hfree =>
    cases h
    rw [Bool.not_eq_true, Option.isSome_eq_false_iff, Option.isNone_iff_eq_none] at hfree
    exact ⟨hfree, rfl⟩

omit [UnicodeNormalization] in
lemma operationStage_unblocked {revocation : Revocation} {operation : Except LadonError Bool} :
    (State.operationStage revocation operation).blocks = false ∧
      (State.operationStage revocation operation).result? ≠ some (.ok ()) ∧
      ((State.operationStage revocation operation).isOutside → revocation = .grants) := by
  cases operation with
  | error e => exact ⟨rfl, fun h => (by cases h), fun h => (by cases h)⟩
  | ok go =>
    cases revocation with
    | grants => cases go <;> exact ⟨rfl, fun h => (by cases h), fun _ => rfl⟩
    | session _ | grant _ _ => cases go <;> exact ⟨rfl, fun h => (by cases h), fun h => (by cases h)⟩

/-- **Every step of a revocation is one of the moves.** -/
theorem stepRevoke_move {s s' : State} {v : ℕ} {operation : Except LadonError Bool}
    (h : s.stepRevoke approvalTimeout v operation = some s') :
    ∃ t, s.revokes v = some t ∧ RevokeMove approvalTimeout s v t s' := by
  unfold State.stepRevoke at h
  cases ht : s.revokes v with
  | none =>
    rw [ht] at h
    cases h
  | some t =>
    refine ⟨t, rfl, ?_⟩
    rw [ht] at h
    dsimp only at h
    cases hs : t.stage with
    | cancelPending =>
      rw [hs] at h
      obtain ⟨hfree, rfl⟩ := of_callIn h
      exact .outside hfree (.inl rfl) (by rw [hs]; rfl) rfl fun h => (by cases h)
    | revokeAll =>
      rw [hs] at h
      obtain ⟨hfree, rfl⟩ := of_callIn h
      refine .outside hfree (.inr rfl) (by rw [hs]; rfl) ?_ ?_
      · cases s.broker.approval.revokeAll.1 <;> rfl
      · cases s.broker.approval.revokeAll.1 <;> exact fun h => (by cases h)
    | cancelActive =>
      rw [hs] at h
      cases h
      exact .cancel (by rw [hs]; rfl)
    | beginOperation =>
      rw [hs] at h
      cases h
      obtain ⟨hunblocked, hfailed, hown⟩ := @operationStage_unblocked t.revocation operation
      exact .operation hs hunblocked hfailed hown
    | cancelPendingAgain =>
      rw [hs] at h
      obtain ⟨hfree, rfl⟩ := of_callIn h
      exact .outside hfree (.inl rfl) (by rw [hs]; rfl) rfl fun h => (by cases h)
    | block =>
      rw [hs] at h
      dsimp only at h
      split at h
      · cases h
      · next hblock =>
        cases h
        refine .block hs (Bool.not_eq_true _ ▸ hblock) ?_ ?_ ?_
        · split <;> rfl
        · split <;> rfl
        · split
          · exact fun h => (by cases h)
          · next hstops => exact fun _ => Bool.not_eq_true _ ▸ hstops
    | draining =>
      rw [hs] at h
      dsimp only at h
      split at h
      · cases h
      · next hwaits =>
        cases h
        exact .drained hs (Bool.not_eq_true _ ▸ hwaits)
    | blocked =>
      rw [hs] at h
      obtain ⟨hfree, rfl⟩ := of_callIn h
      exact .revoke hs hfree
    | releasing result =>
      rw [hs] at h
      cases h
      exact .release hs
    | external | returned result =>
      rw [hs] at h
      cases h

/-! ### The flag that keeps new runs out -/

/-- A lock has the flag set. -/
def LockBlocks (b : Broker.State) (l : ℕ) : Prop := ∃ stage, b.locks l = some stage ∧ stage.blocks

/-- What a lock does to the flag: nothing, or it sets it, or it lets go. -/
inductive FlagMove (b b' : Broker.State) : Prop
  | keep (flag : b'.runs.blockNew = b.runs.blockNew) (locks : ∀ l, LockBlocks b' l → LockBlocks b l)
  | acquire (l : ℕ) (unset : b.runs.blockNew = false) (set : b'.runs.blockNew = true)
      (locks : ∀ l', LockBlocks b' l' → l' = l ∨ LockBlocks b l')
  | release (l : ℕ) (held : LockBlocks b l) (unset : b'.runs.blockNew = false)
      (locks : ∀ l', LockBlocks b' l' → LockBlocks b l' ∧ l' ≠ l)

lemma lockBlocks_update {b b' : Broker.State} {l l' : ℕ} {stage : LockStage}
    (hlocks : b'.locks = Function.update b.locks l (some stage)) (h : LockBlocks b' l') :
    l' = l ∧ stage.blocks ∨ l' ≠ l ∧ LockBlocks b l' := by
  obtain ⟨stage', hl', hs'⟩ := h
  rcases locks_update hlocks hl' with ⟨hl, rfl⟩ | ⟨hne, hl'⟩
  · exact .inl ⟨hl, hs'⟩
  · exact .inr ⟨hne, stage', hl', hs'⟩

/-- A lock goes on as it was, or without the flag. -/
lemma FlagMove.of_stage {b b' : Broker.State} {l : ℕ} {stage : LockStage}
    (hlocks : b'.locks = Function.update b.locks l (some stage))
    (hflag : b'.runs.blockNew = b.runs.blockNew) (hstage : stage.blocks → LockBlocks b l) :
    FlagMove b b' := by
  refine .keep hflag fun l' hl' => ?_
  rcases lockBlocks_update hlocks hl' with ⟨rfl, hs⟩ | ⟨-, hl'⟩
  · exact hstage hs
  · exact hl'

lemma FlagMove.of_acquire {b b' : Broker.State} {l : ℕ} {stage : LockStage}
    (hlocks : b'.locks = Function.update b.locks l (some stage)) (hunset : b.runs.blockNew = false)
    (hset : b'.runs.blockNew = true) : FlagMove b b' := by
  refine .acquire l hunset hset fun l' hl' => ?_
  rcases lockBlocks_update hlocks hl' with ⟨rfl, -⟩ | ⟨-, hl'⟩
  · exact .inl rfl
  · exact .inr hl'

lemma FlagMove.of_release {b b' : Broker.State} {l : ℕ} {stage : LockStage}
    (hlocks : b'.locks = Function.update b.locks l (some stage)) (hheld : LockBlocks b l)
    (hunset : b'.runs.blockNew = false) (hstage : stage.blocks = false) : FlagMove b b' := by
  refine .release l hheld hunset fun l' hl' => ?_
  rcases lockBlocks_update hlocks hl' with ⟨-, hs⟩ | ⟨hne, hl'⟩
  · rw [hstage] at hs
    cases hs
  · exact ⟨hl', hne⟩

lemma LockMove.flag {b b' : Broker.State} {l : ℕ} (h : LockMove approvalTimeout b l b') :
    FlagMove b b' := by
  cases h with
  | block _ hb => exact .of_acquire rfl hb rfl
  | vaultBlock _ hb => exact .of_acquire rfl hb rfl
  | release hs => exact .of_release rfl ⟨_, hs, rfl⟩ rfl rfl
  | vaultRelease hs => exact .of_release rfl ⟨_, hs, rfl⟩ rfl rfl
  | drained hs _ => exact .of_stage rfl rfl fun _ => ⟨_, hs, rfl⟩
  | finish hs _ => exact .of_stage rfl rfl fun _ => ⟨_, hs, rfl⟩
  | vaultDrained hs _ => exact .of_stage rfl rfl fun _ => ⟨_, hs, rfl⟩
  | vaultClose hs => exact .of_stage rfl rfl fun _ => ⟨_, hs, rfl⟩
  | vaultCall _ hstep =>
    rcases hstep with ⟨-, -, rfl⟩ | ⟨-, -, ok, rfl⟩ | ⟨ok, hs, -, ok', rfl⟩
    · exact .of_stage rfl rfl fun h => (by cases h)
    · exact .of_stage rfl rfl fun h => (by cases h)
    · exact .of_stage rfl rfl fun _ => ⟨_, hs, rfl⟩
  | _ => exact .of_stage rfl rfl fun h => (by cases h)

/-- **What an event does to the flag.** -/
theorem apply_flag {b b' : Broker.State} {e : Broker.Event}
    (h : b.apply approvalTimeout e = some b') : FlagMove b b' := by
  have hkeep : b'.locks = b.locks → b'.runs.blockNew = b.runs.blockNew → FlagMove b b' := by
    intro hlocks hflag
    refine .keep hflag fun l hl => ?_
    rw [LockBlocks, hlocks] at hl
    exact hl
  cases apply_move h with
  | run _ hmove =>
    obtain ⟨hlocks, hflag, -⟩ := hmove.runs
    exact hkeep hlocks hflag
  | lock hmove => exact LockMove.flag hmove
  | @beginLock l preserve _ stage _ _ _ hstage =>
    refine .of_stage rfl rfl fun hs => ?_
    rcases hstage with rfl | ⟨epoch, -, rfl⟩
    · cases hs
    · cases preserve <;> cases hs
  | beginVaultLock _ => exact .of_stage rfl rfl fun h => (by cases h)
  | other _ hlocks hruns _ _ _ => exact hkeep hlocks (by rw [hruns])
  | _ => exact hkeep rfl rfl

/-- What an event does to the active run, where new runs are kept out: nothing, or it says what
secrets it has, or it is ended, or its child is started. -/
inductive ActiveMove (active : Option ActiveRun) : Option ActiveRun → Prop
  | same : ActiveMove active active
  | context {a : ActiveRun} {ids : List SecretId} (before : active = some a)
      (undeclared : a.secretIds = none) : ActiveMove active (some { a with secretIds := some ids })
  | running {a : ActiveRun} {running : Bool} (before : active = some a) :
      ActiveMove active (some { a with running := running })
  | drop : ActiveMove active none

omit [UnicodeNormalization] in
lemma activeMove_spawnChild {runs : RunCoordinator} {cancelled : List Token}
    {launched : Except LadonError Unit} :
    ActiveMove runs.active (runs.spawnChild cancelled launched).2.active := by
  rcases @spawnChild_cases runs cancelled launched with ⟨e, h⟩ | ⟨a, ha, -, h⟩
  · rw [h]
    exact .same
  · rw [h]
    exact .running ha

/-- A run declares its secrets once. -/
lemma stepRun_context {b b' : Broker.State} {r : ℕ} {c : Choice} {t : RunThread}
    (ht : b.threads r = some t) (hs : t.stage = .observed ∨ ∃ plan, t.stage = .planned plan)
    (h : b.stepRun approvalTimeout r c = some b') : ActiveMove b.runs.active b'.runs.active := by
  have hset : ∀ {ids}, ActiveMove b.runs.active (b.runs.setSecretContext ids).2.active := by
    intro ids
    rcases @setSecretContext_cases b.runs ids with ⟨e, h⟩ | ⟨a, ha, hnone, h⟩
    · rw [h]
      exact .same
    · rw [h]
      exact .context ha hnone
  unfold Broker.State.stepRun at h
  rw [ht] at h
  rcases hs with hs | ⟨plan, hs⟩
  · simp only [hs] at h
    split at h
    · cases h
      exact hset
    · cases h
      exact .same
  · simp only [hs] at h
    cases h
    exact hset

theorem apply_active {b b' : Broker.State} {e : Broker.Event}
    (h : b.apply approvalTimeout e = some b') :
    b.runs.blockNew = false ∨ ActiveMove b.runs.active b'.runs.active := by
  have hsame : b'.runs.active = b.runs.active → ActiveMove b.runs.active b'.runs.active := by
    intro heq
    rw [heq]
    exact .same
  cases apply_move h with
  | run ht hmove =>
    cases hmove with
    | start _ _ hblock => exact .inl hblock
    | context _ hstage =>
      refine .inr (stepRun_context ht ?_ h)
      rcases hstage with ⟨hs, -⟩ | ⟨plan, hs, -⟩
      · exact .inl hs
      · exact .inr ⟨plan, hs⟩
    | spawn _ _ => exact .inr activeMove_spawnChild
    | plainSpawn _ _ _ => exact .inr activeMove_spawnChild
    | drop _ _ => exact .inr .drop
    | _ => exact .inr .same
  | lock hmove => exact .inr (hsame hmove.frame.2.2.1)
  | other _ _ hruns _ _ _ => exact .inr (hsame (by rw [hruns]))
  | _ => exact .inr .same

/-! ### Blocks -/

/-- A lock or a revocation has the flag set. -/
def State.Blocks (s : State) : ℕ ⊕ ℕ → Prop
  | .inl l => LockBlocks s.broker l
  | .inr v => ∃ t, s.revokes v = some t ∧ t.stage.blocks

/-- One lock or one revocation keeps new runs out; the run that a revocation has to stop has been
cancelled, and is gone when it says so. -/
structure GateInv (s : State) : Prop where
  flag : Exclusive s.broker.runs.blockNew s.Blocks
  stopped : ∀ {v t a}, s.revokes v = some t → t.stage.blocks → s.broker.runs.active = some a →
    t.revocation.kind.stops a → a.cancellation ∈ s.broker.env.cancelled
  clear : ∀ {v t}, s.revokes v = some t → t.stage.clear → t.revocation.kind.Clear s.broker.runs.active

omit [UnicodeNormalization] in
lemma RevokeStage.blocks_of_clear {stage : RevokeStage} (h : stage.clear) : stage.blocks := by
  cases stage <;> first | rfl | cases h

lemma gateInv_initial {env : Env} {grantLifetime : Duration} {fileExists : Bool} :
    GateInv (State.initial env grantLifetime fileExists) := by
  have hnone : ∀ i, ¬ (State.initial env grantLifetime fileExists).Blocks i := by
    rintro (l | v) ⟨_, h, -⟩ <;> cases h
  exact ⟨⟨fun i hi => (hnone i hi).elim, fun i _ hi => (hnone i hi).elim⟩, fun h => (by cases h),
    fun h => (by cases h)⟩

omit [UnicodeNormalization] in
lemma ActiveMove.clear {active active' : Option ActiveRun} {kind : BlockKind}
    (h : ActiveMove active active') (hclear : kind.Clear active) : kind.Clear active' := by
  cases h with
  | same => exact hclear
  | context hbefore hnone =>
    rw [hbefore] at hclear
    exact clear_declare hclear hnone
  | running hbefore =>
    rw [hbefore] at hclear
    exact clear_same hclear rfl rfl
  | drop => exact clear_none

omit [UnicodeNormalization] in
/-- A run that is to be stopped was to be stopped before, under the same token. -/
lemma ActiveMove.stops {active active' : Option ActiveRun} {kind : BlockKind} {a' : ActiveRun}
    (h : ActiveMove active active') (ha : active' = some a') (hstops : kind.stops a') :
    ∃ a, active = some a ∧ kind.stops a ∧ a.cancellation = a'.cancellation := by
  cases h with
  | same => exact ⟨a', ha, hstops, rfl⟩
  | @context a ids hbefore hnone =>
    cases ha
    refine ⟨a, hbefore, ?_, rfl⟩
    cases kind with
    | newRuns => rfl
    | revoke client secret =>
      simp only [BlockKind.stops, Bool.and_eq_true] at hstops ⊢
      exact ⟨hstops.1, by rw [hnone]; rfl⟩
    | clientRevoke client => exact hstops
  | @running a running hbefore =>
    cases ha
    refine ⟨a, hbefore, ?_, rfl⟩
    cases kind <;> exact hstops
  | drop => cases ha

/-- An event of the broker leaves the revocations as they are. -/
lemma GateInv.broker {s : State} {b' : Broker.State} {e : Broker.Event}
    {contexts : List UnattendedContext} (h : GateInv s)
    (happly : s.broker.apply approvalTimeout e = some b') :
    GateInv { s with broker := b', contexts := contexts } := by
  obtain ⟨hflag, hstopped, hclear⟩ := h
  have hactive : ∀ {v t}, s.revokes v = some t → t.stage.blocks →
      ActiveMove s.broker.runs.active b'.runs.active := by
    intro v t hv hs
    rcases apply_active happly with hunset | hmove
    · have hset := hflag.set (.inr v) ⟨t, hv, hs⟩
      rw [hunset] at hset
      cases hset
    · exact hmove
  refine ⟨?_, fun hv hs ha hstops => ?_, fun hv hs => ?_⟩
  · cases apply_flag happly with
    | keep hsame hlocks =>
      rw [← hsame] at hflag
      refine hflag.keep fun i hi => ?_
      cases i with
      | inl l => exact hlocks l hi
      | inr v => exact hi
    | acquire l hunset hset hlocks =>
      rw [hunset] at hflag
      dsimp only
      rw [hset]
      refine hflag.acquire (.inl l) fun i hi => ?_
      cases i with
      | inl l' => exact (hlocks l' hi).imp (congrArg Sum.inl) id
      | inr v => exact .inr hi
    | release l hheld hunset hlocks =>
      dsimp only
      rw [hunset]
      refine hflag.release (i := .inl l) hheld fun i hi => ?_
      cases i with
      | inl l' => exact ⟨(hlocks l' hi).1, fun heq => (hlocks l' hi).2 (Sum.inl.inj heq)⟩
      | inr v => exact ⟨hi, fun heq => (by cases heq)⟩
  · obtain ⟨a, ha', hstops', htoken⟩ := (hactive hv hs).stops ha hstops
    rw [← htoken]
    exact Broker.cancelled_mono happly _ (hstopped hv hs ha' hstops')
  · exact (hactive hv (RevokeStage.blocks_of_clear hs)).clear (hclear hv hs)

lemma revokes_update {s s' : State} {v v' : ℕ} {t t' : RevokeThread}
    (hrevokes : s'.revokes = Function.update s.revokes v (some t)) (h : s'.revokes v' = some t') :
    v' = v ∧ t' = t ∨ v' ≠ v ∧ s.revokes v' = some t' := by
  rw [hrevokes] at h
  by_cases hv : v' = v
  · subst hv
    rw [Function.update_self] at h
    exact .inl ⟨rfl, (Option.some.inj h).symm⟩
  · rw [Function.update_of_ne hv] at h
    exact .inr ⟨hv, h⟩

/-- One revocation has moved on; the locks and the active run are as they were. -/
lemma GateInv.update {s s' : State} {v : ℕ} {t : RevokeThread} (h : GateInv s)
    (hrevokes : s'.revokes = Function.update s.revokes v (some t))
    (hactive : s'.broker.runs.active = s.broker.runs.active)
    (hcancelled : ∀ k ∈ s.broker.env.cancelled, k ∈ s'.broker.env.cancelled)
    (hflag : Exclusive s'.broker.runs.blockNew s'.Blocks)
    (hstopped : t.stage.blocks → ∀ a, s.broker.runs.active = some a → t.revocation.kind.stops a →
      a.cancellation ∈ s'.broker.env.cancelled)
    (hclear : t.stage.clear → t.revocation.kind.Clear s.broker.runs.active) : GateInv s' := by
  refine ⟨hflag, fun hv hs ha hstops => ?_, fun hv hs => ?_⟩
  · rw [hactive] at ha
    rcases revokes_update hrevokes hv with ⟨-, rfl⟩ | ⟨-, hv⟩
    · exact hstopped hs _ ha hstops
    · exact hcancelled _ (h.stopped hv hs ha hstops)
  · rw [hactive]
    rcases revokes_update hrevokes hv with ⟨-, rfl⟩ | ⟨-, hv⟩
    · exact hclear hs
    · exact h.clear hv hs

/-- Who blocks once a revocation has moved on. -/
lemma blocks_update {s s' : State} {v : ℕ} {t : RevokeThread} {i : ℕ ⊕ ℕ} (h : s'.Blocks i)
    (hrevokes : s'.revokes = Function.update s.revokes v (some t))
    (hlocks : s'.broker.locks = s.broker.locks) :
    i = .inr v ∧ t.stage.blocks ∨ i ≠ .inr v ∧ s.Blocks i := by
  cases i with
  | inl l =>
    obtain ⟨stage, hl, hs⟩ := h
    rw [hlocks] at hl
    exact .inr ⟨fun heq => (by cases heq), stage, hl, hs⟩
  | inr v' =>
    obtain ⟨t', hv', hs⟩ := h
    rcases revokes_update hrevokes hv' with ⟨rfl, rfl⟩ | ⟨hne, hv'⟩
    · exact .inl ⟨rfl, hs⟩
    · exact .inr ⟨fun heq => hne (Sum.inr.inj heq), t', hv', hs⟩

/-- A revocation that has not set the flag moves on without it. -/
lemma GateInv.unblocked {s s' : State} {v : ℕ} {t : RevokeThread} (h : GateInv s)
    (hrevokes : s'.revokes = Function.update s.revokes v (some t))
    (hlocks : s'.broker.locks = s.broker.locks) (hruns : s'.broker.runs = s.broker.runs)
    (hcancelled : ∀ k ∈ s.broker.env.cancelled, k ∈ s'.broker.env.cancelled)
    (hstage : t.stage.blocks = false) : GateInv s' := by
  refine h.update hrevokes (by rw [hruns]) hcancelled ?_ (fun hb => ?_) fun hc => ?_
  · rw [hruns]
    refine h.flag.keep fun i hi => ?_
    rcases blocks_update hi hrevokes hlocks with ⟨-, hs⟩ | ⟨-, hi⟩
    · rw [hstage] at hs
      cases hs
    · exact hi
  · rw [hstage] at hb
    cases hb
  · have hb := RevokeStage.blocks_of_clear hc
    rw [hstage] at hb
    cases hb

/-- A revocation that has the flag set goes on with it. -/
lemma GateInv.blocking {s s' : State} {v : ℕ} {t t' : RevokeThread} (h : GateInv s)
    (hv : s.revokes v = some t) (ht : t.stage.blocks)
    (hrevokes : s'.revokes = Function.update s.revokes v (some t'))
    (hrevocation : t'.revocation = t.revocation) (hlocks : s'.broker.locks = s.broker.locks)
    (hruns : s'.broker.runs = s.broker.runs) (henv : s'.broker.env = s.broker.env)
    (hclear : t'.stage.clear → t.revocation.kind.Clear s.broker.runs.active) : GateInv s' := by
  refine h.update hrevokes (by rw [hruns]) (by rw [henv]; exact fun _ hk => hk) ?_
    (fun _ a ha hstops => ?_) (by rw [hrevocation]; exact hclear)
  · rw [hruns]
    refine h.flag.keep fun i hi => ?_
    rcases blocks_update hi hrevokes hlocks with ⟨rfl, -⟩ | ⟨-, hi⟩
    · exact ⟨t, hv, ht⟩
    · exact hi
  · rw [henv]
    exact h.stopped hv ht ha (hrevocation ▸ hstops)

lemma GateInv.revoke {s s' : State} {v : ℕ} {t : RevokeThread} (h : GateInv s)
    (hv : s.revokes v = some t) (hmove : RevokeMove approvalTimeout s v t s') : GateInv s' := by
  have hsame : ∀ k ∈ s.broker.env.cancelled, k ∈ s.broker.env.cancelled := fun _ hk => hk
  cases hmove with
  | outside _ _ _ hunblocked _ => exact h.unblocked rfl rfl rfl hsame hunblocked
  | cancel _ => exact h.unblocked rfl rfl rfl (fun _ hk => List.mem_append_right _ hk) rfl
  | operation _ hunblocked _ _ => exact h.unblocked rfl rfl rfl hsame hunblocked
  | @block stage _ hunset _ _ hclear =>
    refine h.update (t := { t with stage := stage }) rfl rfl
      (fun _ hk => List.mem_append_right _ hk) ?_ (fun _ a ha hstops => ?_) fun hc => ?_
    · have hflag := h.flag
      rw [hunset] at hflag
      refine hflag.acquire (.inr v) fun i hi => ?_
      exact (blocks_update (s := s) (t := { t with stage := stage }) hi rfl rfl).imp And.left And.right
    · refine List.mem_append_left _ ?_
      simp [State.stopped, ha, hstops]
    · exact clear_of_not_stops (hclear hc)
  | drained hs hdone =>
    exact h.blocking hv (by rw [hs]; rfl) rfl rfl rfl rfl rfl fun _ => clear_of_drained hdone
  | revoke hs _ =>
    exact h.blocking hv (by rw [hs]; rfl) rfl rfl rfl rfl rfl fun _ => h.clear hv (by rw [hs]; rfl)
  | @release result hs =>
    refine h.update (t := { t with stage := .returned result }) rfl rfl hsame ?_
      (fun hb => (by cases hb)) fun hc => (by cases hc)
    refine h.flag.release (i := .inr v) ⟨t, hv, by rw [hs]; rfl⟩ fun i hi => ?_
    rcases blocks_update (s := s) (t := { t with stage := .returned result }) hi rfl rfl with
      ⟨-, hb⟩ | ⟨hne, hi⟩
    · cases hb
    · exact ⟨hi, hne⟩

end Machine

end Ladon.BrokerRevoke

import Ladon.Grants
import Ladon.Lib.Run
import Ladon.Supervisor

/-!
The state machine of the core broker: locked, waiting for the answer to an unlock prompt, unlocked
with the time of the last activity, running, and locking while a run comes to its end.

The clock is read by the operations; only its readings are modelled, which never go back. A run
that is under way pauses the idle countdown.
-/

namespace Ladon.CoreBroker

open Ladon.Model Ladon.Grants Ladon.Lib Ladon.Lib.Word Ladon.Lib.Utf8

def maxActivityEntries : ℕ := 100
def maxActivityReferences : ℕ := 16

inductive SessionStatus
  | locked
  | unlockPending
  | unlocked
  | running
  | locking
  deriving DecidableEq

inductive BrokerDecision
  | noChange
  | promptUnlock
  | authorized
  | busy
  | denied
  | unlockTimedOut
  | cancelRunBeforeLock
  | locked
  deriving DecidableEq

inductive LockReason
  | manual
  | mcp
  | screenLock
  | suspend
  | shutdown
  deriving DecidableEq

inductive ActivityOutcome
  | succeeded
  | failed
  | denied
  | timedOut
  | cancelled
  deriving DecidableEq

structure ReferencedField where
  secretId : SecretId
  field : FieldName
  deriving DecidableEq

structure ActivityEntry where
  clientLabel : Bytes
  executable : Option Bytes
  referencedFields : List ReferencedField
  timestampMillis : ℕ
  outcome : ActivityOutcome
  redactionCount : ℕ
  deriving DecidableEq

inductive State
  | locked
  | unlockPending (deadlineMillis : ℕ)
  | unlocked (lastActivityMillis : ℕ)
  | running
  | locking
  deriving DecidableEq

structure BrokerState where
  idleTimeoutMillis : ℕ
  state : State
  activities : List ActivityEntry
  deriving DecidableEq

namespace BrokerState

def new (idleTimeout : Duration) : BrokerState := ⟨durationMillis idleTimeout, .locked, []⟩

def status (b : BrokerState) : SessionStatus :=
  match b.state with
  | .locked => .locked
  | .unlockPending _ => .unlockPending
  | .unlocked _ => .unlocked
  | .running => .running
  | .locking => .locking

def requestSecretAccess (b : BrokerState) (now : ℕ) : BrokerDecision × BrokerState :=
  match b.state with
  | .locked => (.promptUnlock, { b with state := .unlockPending (saturatingAdd now 120000) })
  | .unlocked _ => (.authorized, b)
  | .unlockPending _ | .running | .locking => (.busy, b)

/-- The clock is read once to compare, and again for the first activity. -/
def completeUnlock (b : BrokerState) (now later : ℕ) (approved : Bool) :
    BrokerDecision × BrokerState :=
  match b.state with
  | .unlockPending deadlineMillis =>
    if deadlineMillis ≤ now then (.unlockTimedOut, { b with state := .locked })
    else if approved then (.authorized, { b with state := .unlocked later })
    else (.denied, { b with state := .locked })
  | _ => (.denied, b)

def secretActivity (b : BrokerState) (now : ℕ) : BrokerState :=
  match b.state with
  | .unlocked _ => { b with state := .unlocked now }
  | _ => b

def startRun (b : BrokerState) : BrokerDecision × BrokerState :=
  match b.state with
  | .unlocked _ => (.authorized, { b with state := .running })
  | _ => (.busy, b)

def finishRun (b : BrokerState) (now : ℕ) : BrokerDecision × BrokerState :=
  match b.state with
  | .running => (.noChange, { b with state := .unlocked now })
  | .locking => (.locked, { b with state := .locked })
  | _ => (.noChange, b)

def requestLock (b : BrokerState) (_reason : LockReason) : BrokerDecision × BrokerState :=
  match b.state with
  | .running => (.cancelRunBeforeLock, { b with state := .locking })
  | _ => (.locked, { b with state := .locked })

def tick (b : BrokerState) (now : ℕ) : BrokerDecision × BrokerState :=
  match b.state with
  | .unlockPending deadlineMillis =>
    if deadlineMillis ≤ now then (.unlockTimedOut, { b with state := .locked }) else (.noChange, b)
  | .unlocked lastActivityMillis =>
    if b.idleTimeoutMillis ≤ now - lastActivityMillis then (.locked, { b with state := .locked })
    else (.noChange, b)
  | _ => (.noChange, b)

def recordActivity (b : BrokerState) (entry : ActivityEntry) : BrokerState :=
  let entry := { entry with
    referencedFields := entry.referencedFields.take maxActivityReferences
    clientLabel := Supervisor.truncateUtf8 entry.clientLabel 64
    executable := entry.executable.map (Supervisor.truncateUtf8 · (32 * 1024)) }
  let kept := if b.activities.length = maxActivityEntries then b.activities.tail else b.activities
  { b with activities := kept ++ [entry] }

end BrokerState

/-! ### Runs -/

inductive Op
  | requestSecretAccess
  | completeUnlock (approved : Bool)
  | secretActivity
  | startRun
  | finishRun
  | requestLock (reason : LockReason)
  | tick
  | recordActivity (entry : ActivityEntry)
  deriving DecidableEq

/-- A call: the state it finds, the operation, and the two readings of the clock it may make. -/
structure Occurrence where
  before : BrokerState
  op : Op
  now : ℕ
  later : ℕ
  deriving DecidableEq

namespace Occurrence

/-- What the call returns, if anything, and what it leaves. -/
def outcome (o : Occurrence) : Option BrokerDecision × BrokerState :=
  match o.op with
  | .requestSecretAccess => (o.before.requestSecretAccess o.now).map some id
  | .completeUnlock approved => (o.before.completeUnlock o.now o.later approved).map some id
  | .secretActivity => (none, o.before.secretActivity o.now)
  | .startRun => o.before.startRun.map some id
  | .finishRun => (o.before.finishRun o.now).map some id
  | .requestLock reason => (o.before.requestLock reason).map some id
  | .tick => (o.before.tick o.now).map some id
  | .recordActivity entry => (none, o.before.recordActivity entry)

def decision (o : Occurrence) : Option BrokerDecision := o.outcome.1

def after (o : Occurrence) : BrokerState := o.outcome.2

/-- The call starts a run. -/
def Starts (o : Occurrence) : Prop := o.op = .startRun ∧ o.decision = some .authorized

/-- The call opens the vault. -/
def Unlocks (o : Occurrence) : Prop :=
  o.op = .completeUnlock true ∧ o.decision = some .authorized

/-- The call asks for an unlock prompt, and there is one. -/
def Prompts (o : Occurrence) : Prop :=
  o.op = .requestSecretAccess ∧ o.decision = some .promptUnlock

/-- A lock is asked for while the run is still being cancelled for an earlier one. -/
def LocksAgain (o : Occurrence) : Prop :=
  o.before.status = .locking ∧ ∃ reason, o.op = .requestLock reason

/-- The time that the call makes the beginning of the idle countdown. -/
def activeAt (o : Occurrence) : Option ℕ :=
  match o.op with
  | .completeUnlock _ => if o.decision = some .authorized then some o.later else none
  | .secretActivity => some o.now
  | .finishRun => if o.before.status = .running then some o.now else none
  | _ => none

end Occurrence

/-- A broker, and the latest reading of its clock. -/
structure Machine where
  broker : BrokerState
  clock : ℕ

/-- A call, with readings that do not go back. -/
structure Step (m : Machine) (o : Occurrence) (m' : Machine) : Prop where
  finds : o.before = m.broker
  onward : m.clock ≤ o.now
  onward' : o.now ≤ o.later
  leaves : m' = ⟨o.after, o.later⟩

/-- The last activity or end of a run. -/
def lastActive (history : List Occurrence) : Option ℕ :=
  (history.filterMap Occurrence.activeAt).getLast?

/-- From the start of a run to the end of it, the status is running or locking, no second run
starts, the vault is not opened, and nobody is told that it is locked. -/
def RunsAlone (history : List Occurrence) : Prop :=
  ∀ before o middle rest, history = before ++ o :: (middle ++ rest) → o.Starts →
    (∀ o' ∈ middle, o'.op ≠ .finishRun) →
    (∀ o' ∈ o :: middle, o'.after.status = .running ∨ o'.after.status = .locking) ∧
    ∀ o' ∈ middle, ¬ o'.Starts ∧
      (∀ approved, o'.op = .completeUnlock approved → o'.decision ≠ some .authorized) ∧
      o'.decision ≠ some .locked

/-- Since the vault was last locked there has been a prompt, an answer within two minutes, and no
look at the clock that found the vault idle for too long. While a run is under way the countdown is
paused. -/
def OpenedInTime (idleTimeoutMillis : ℕ) (history : List Occurrence) : Prop :=
  ∃ old q wait u since, history = old ++ q :: (wait ++ u :: since) ∧ q.Prompts ∧
    (∀ o ∈ wait, o.before.status ≠ .locked) ∧ u.Unlocks ∧ u.now < q.now + 120000 ∧
    (∀ o ∈ since, o.before.status ≠ .locked) ∧
    ∀ passed t rest, since = passed ++ t :: rest → t.op = .tick → t.before.status ≠ .running →
      ∃ last, lastActive (u :: passed) = some last ∧ t.now - last < idleTimeoutMillis

/-! ### What a call does -/

namespace Occurrence

variable {o : Occurrence}

/-- What a call can make of the state. -/
inductive Turn (o : Occurrence) : State → Prop
  | keep (under : o.before.state = .running ∨ o.before.state = .locking → o.op ≠ .finishRun)
      (awake : ∀ t, o.before.state = .unlocked t →
        o.activeAt = none ∧ (o.op = .tick → o.now - t < o.before.idleTimeoutMillis)) :
      Turn o o.before.state
  | lock : Turn o .locked
  | prompt (h : o.Prompts) : Turn o (.unlockPending (saturatingAdd o.now 120000))
  | unlock {deadline : ℕ} (h : o.Unlocks) (stage : o.before.state = .unlockPending deadline)
      (early : o.now < deadline) : Turn o (.unlocked o.later)
  | activity {t : ℕ} (h : o.op = .secretActivity) (stage : o.before.state = .unlocked t) :
      Turn o (.unlocked o.now)
  | start {t : ℕ} (h : o.Starts) (stage : o.before.state = .unlocked t) : Turn o .running
  | finish (h : o.op = .finishRun) (stage : o.before.state = .running) : Turn o (.unlocked o.now)
  | cancel {reason : LockReason} (h : o.op = .requestLock reason) (stage : o.before.state = .running) :
      Turn o .locking

/-- **What a call can make of the state.** -/
theorem turn (o : Occurrence) : o.Turn o.after.state := by
  obtain ⟨⟨idle, state, activities⟩, op, now, later⟩ := o
  cases op with
  | requestSecretAccess =>
    cases state with
    | locked => exact .prompt ⟨rfl, rfl⟩
    | _ => exact .keep (by simp) (by simp [activeAt])
  | completeUnlock approved =>
    cases state with
    | unlockPending deadline =>
      by_cases hlate : deadline ≤ now
      · have h : (⟨⟨idle, .unlockPending deadline, activities⟩, .completeUnlock approved, now, later⟩ :
            Occurrence).after.state = .locked := by
          simp [after, outcome, BrokerState.completeUnlock, hlate]
        rw [h]
        exact .lock
      · cases approved with
        | true =>
          have h : (⟨⟨idle, .unlockPending deadline, activities⟩, .completeUnlock true, now, later⟩ :
              Occurrence).outcome = (some .authorized, ⟨idle, .unlocked later, activities⟩) := by
            simp [outcome, BrokerState.completeUnlock, hlate]
          rw [after, h]
          exact .unlock ⟨rfl, congrArg Prod.fst h⟩ rfl (Nat.lt_of_not_le hlate)
        | false =>
          have h : (⟨⟨idle, .unlockPending deadline, activities⟩, .completeUnlock false, now, later⟩ :
              Occurrence).after.state = .locked := by
            simp [after, outcome, BrokerState.completeUnlock, hlate]
          rw [h]
          exact .lock
    | _ => exact .keep (by simp) (by simp [activeAt, decision, outcome, BrokerState.completeUnlock])
  | secretActivity =>
    cases state with
    | unlocked t => exact .activity rfl rfl
    | _ => exact .keep (by simp) (by simp)
  | startRun =>
    cases state with
    | unlocked t => exact .start ⟨rfl, rfl⟩ rfl
    | _ => exact .keep (by simp) (by simp)
  | finishRun =>
    cases state with
    | running => exact .finish rfl rfl
    | locking => exact .lock
    | _ => exact .keep (by simp) (by simp [activeAt, BrokerState.status])
  | requestLock reason =>
    cases state with
    | running => exact .cancel rfl rfl
    | _ => exact .lock
  | tick =>
    cases state with
    | unlockPending deadline =>
      by_cases hlate : deadline ≤ now
      · have h : (⟨⟨idle, .unlockPending deadline, activities⟩, .tick, now, later⟩ :
            Occurrence).after.state = .locked := by
          simp [after, outcome, BrokerState.tick, hlate]
        rw [h]
        exact .lock
      · have h : (⟨⟨idle, .unlockPending deadline, activities⟩, .tick, now, later⟩ :
            Occurrence).after.state = .unlockPending deadline := by
          simp [after, outcome, BrokerState.tick, hlate]
        rw [h]
        exact .keep (by simp) (by simp)
    | unlocked t =>
      by_cases hidle : idle ≤ now - t
      · have h : (⟨⟨idle, .unlocked t, activities⟩, .tick, now, later⟩ :
            Occurrence).after.state = .locked := by
          simp [after, outcome, BrokerState.tick, hidle]
        rw [h]
        exact .lock
      · have h : (⟨⟨idle, .unlocked t, activities⟩, .tick, now, later⟩ :
            Occurrence).after.state = .unlocked t := by
          simp [after, outcome, BrokerState.tick, hidle]
        rw [h]
        refine .keep (by simp) fun t' ht => ?_
        cases ht
        exact ⟨rfl, fun _ => Nat.lt_of_not_le hidle⟩
    | _ => exact .keep (by simp) (by simp)
  | recordActivity entry => exact .keep (by simp) (by simp [activeAt])

end Occurrence

lemma idleTimeoutMillis_after (o : Occurrence) :
    o.after.idleTimeoutMillis = o.before.idleTimeoutMillis := by
  obtain ⟨⟨idle, state, activities⟩, op, now, later⟩ := o
  cases op with
  | completeUnlock approved =>
    cases state with
    | unlockPending deadline =>
      simp only [Occurrence.after, Occurrence.outcome, BrokerState.completeUnlock, Prod.map_snd, id]
      split_ifs <;> rfl
    | _ => rfl
  | tick =>
    cases state with
    | unlockPending deadline | unlocked t =>
      simp only [Occurrence.after, Occurrence.outcome, BrokerState.tick, Prod.map_snd, id]
      split_ifs <;> rfl
    | _ => rfl
  | _ => cases state <;> rfl

/-! ### What the history has brought about -/

/-- A prompt is open, and has to be answered by a deadline. -/
def Prompted (deadline : ℕ) (history : List Occurrence) : Prop :=
  ∃ old q wait, history = old ++ q :: wait ∧ q.Prompts ∧ (∀ o ∈ wait, o.before.status ≠ .locked) ∧
    deadline ≤ q.now + 120000

/-- A run has been started and not been finished. -/
def Outstanding (history : List Occurrence) : Prop :=
  ∃ before o middle, history = before ++ o :: middle ∧ o.Starts ∧ ∀ o' ∈ middle, o'.op ≠ .finishRun

lemma lastActive_snoc_none {history : List Occurrence} {o : Occurrence} (h : o.activeAt = none) :
    lastActive (history ++ [o]) = lastActive history := by
  simp [lastActive, h]

lemma lastActive_snoc_some {history : List Occurrence} {o : Occurrence} {t : ℕ}
    (h : o.activeAt = some t) : lastActive (history ++ [o]) = some t := by
  simp [lastActive, h]

lemma lastActive_append {old recent : List Occurrence} {t : ℕ} (h : lastActive recent = some t) :
    lastActive (old ++ recent) = some t := by
  rw [lastActive] at h ⊢
  rw [List.filterMap_append, List.getLast?_append, h]
  rfl

lemma Prompted.snoc {deadline : ℕ} {history : List Occurrence} {o : Occurrence}
    (h : Prompted deadline history) (ho : o.before.status ≠ .locked) :
    Prompted deadline (history ++ [o]) := by
  obtain ⟨old, q, wait, rfl, hq, hwait, hd⟩ := h
  exact ⟨old, q, wait ++ [o], by simp, hq, forall_mem_snoc hwait ho, hd⟩

lemma Outstanding.snoc {history : List Occurrence} {o : Occurrence} (h : Outstanding history)
    (ho : o.op ≠ .finishRun) : Outstanding (history ++ [o]) := by
  obtain ⟨before, s, middle, rfl, hs, hmiddle⟩ := h
  exact ⟨before, s, middle ++ [o], by simp, hs, forall_mem_snoc hmiddle ho⟩

/-- An unlocked vault stays opened in time, if a look at the clock finds it active. -/
lemma OpenedInTime.snoc {idle : ℕ} {history : List Occurrence} {o : Occurrence}
    (h : OpenedInTime idle history) (ho : o.before.status ≠ .locked)
    (hawake : o.op = .tick → o.before.status ≠ .running →
      ∃ last, lastActive history = some last ∧ o.now - last < idle) :
    OpenedInTime idle (history ++ [o]) := by
  obtain ⟨old, q, wait, u, since, rfl, hq, hwait, hu, hearly, hsince, hticks⟩ := h
  refine ⟨old, q, wait, u, since ++ [o], by simp, hq, hwait, hu, hearly, forall_mem_snoc hsince ho, ?_⟩
  · intro passed t rest heq htick hrun
    rcases List.eq_nil_or_concat rest with rfl | ⟨rest', last, rfl⟩
    · obtain ⟨rfl, hlast⟩ := List.append_inj' heq rfl
      cases hlast
      obtain ⟨last, hlast, hlt⟩ := hawake htick hrun
      -- the unlock itself is an activity, so nothing before it counts
      have hsome : ∃ last', lastActive (u :: since) = some last' := by
        refine Option.isSome_iff_exists.mp ?_
        have hactive : u.activeAt = some u.later := by
          rw [Occurrence.activeAt, hu.1]
          exact if_pos hu.2
        simp [lastActive, hactive]
      obtain ⟨last', hlast'⟩ := hsome
      have heq : lastActive (old ++ q :: (wait ++ u :: since)) = some last' := by
        rw [show old ++ q :: (wait ++ u :: since) = (old ++ q :: wait) ++ u :: since by simp]
        exact lastActive_append hlast'
      rw [hlast] at heq
      cases heq
      exact ⟨last, hlast', hlt⟩
    · rw [List.concat_eq_append, ← List.cons_append, ← List.append_assoc] at heq
      obtain ⟨rfl, -⟩ := List.append_inj' heq rfl
      exact hticks passed t rest' rfl htick hrun

/-! ### The invariant -/

/-- What a state says of the calls that led to it. -/
structure StateInv (idle : ℕ) (history : List Occurrence) (b : BrokerState) : Prop where
  timeout : b.idleTimeoutMillis = idle
  pending : ∀ deadline, b.state = .unlockPending deadline → Prompted deadline history
  unlocked : ∀ t, b.state = .unlocked t → OpenedInTime idle history ∧ lastActive history = some t
  running : b.state = .running → OpenedInTime idle history
  outstanding : b.state = .running ∨ b.state = .locking → Outstanding history

lemma status_ne_locked {b : BrokerState} (h : b.state ≠ .locked) : b.status ≠ .locked := by
  unfold BrokerState.status
  split <;> simp_all

lemma status_eq_running {b : BrokerState} : b.status = .running ↔ b.state = .running := by
  unfold BrokerState.status
  split <;> simp_all

lemma status_eq_locking {b : BrokerState} : b.status = .locking ↔ b.state = .locking := by
  unfold BrokerState.status
  split <;> simp_all

/-- An answer in time opens the vault. -/
lemma Prompted.unlock {deadline idle : ℕ} {history : List Occurrence} {u : Occurrence}
    (h : Prompted deadline history) (hu : u.Unlocks) (hearly : u.now < deadline) :
    OpenedInTime idle (history ++ [u]) := by
  obtain ⟨old, q, wait, rfl, hq, hwait, hd⟩ := h
  refine ⟨old, q, wait, u, [], by simp, hq, hwait, hu, by omega, by simp, ?_⟩
  intro passed t rest heq
  simp at heq

lemma StateInv.step {idle : ℕ} {history : List Occurrence} {o : Occurrence}
    (h : StateInv idle history o.before) : StateInv idle (history ++ [o]) o.after := by
  have hidle := (idleTimeoutMillis_after o).trans h.timeout
  have hturn := o.turn
  generalize hs : o.after.state = state at hturn
  cases hturn with
  | keep under awake =>
    have hopen : ∀ t, o.before.state = .unlocked t → OpenedInTime idle (history ++ [o]) ∧
        lastActive (history ++ [o]) = some t := by
      intro t ht
      obtain ⟨hnone, htick⟩ := awake t ht
      obtain ⟨hopened, hlast⟩ := h.unlocked t ht
      refine ⟨hopened.snoc (status_ne_locked (by rw [ht]; simp)) fun hop _ => ?_, ?_⟩
      · exact ⟨t, hlast, h.timeout ▸ htick hop⟩
      · rw [lastActive_snoc_none hnone, hlast]
    refine ⟨hidle, fun d hd => ?_, fun t ht => ?_, fun hr => ?_, fun hr => ?_⟩
    · rw [hs] at hd
      exact (h.pending d hd).snoc (status_ne_locked (by rw [hd]; simp))
    · exact hopen t (hs ▸ ht)
    · rw [hs] at hr
      refine (h.running hr).snoc (status_ne_locked (by rw [hr]; simp)) fun _ hne => ?_
      exact absurd (status_eq_running.mpr hr) hne
    · rw [hs] at hr
      exact (h.outstanding hr).snoc (under hr)
  | lock => exact ⟨hidle, by simp [hs], by simp [hs], by simp [hs], by simp [hs]⟩
  | prompt hprompt =>
    refine ⟨hidle, fun d hd => ?_, by simp [hs], by simp [hs], by simp [hs]⟩
    rw [hs] at hd
    refine ⟨history, o, [], rfl, hprompt, by simp, ?_⟩
    rw [← State.unlockPending.inj hd, saturatingAdd]
    exact Nat.min_le_left _ _
  | unlock hunlock hstage hearly =>
    refine ⟨hidle, by simp [hs], fun t ht => ?_, by simp [hs], by simp [hs]⟩
    rw [hs] at ht
    cases ht
    refine ⟨(h.pending _ hstage).unlock hunlock hearly, lastActive_snoc_some ?_⟩
    rw [Occurrence.activeAt, hunlock.1]
    exact if_pos hunlock.2
  | activity hop hstage =>
    refine ⟨hidle, by simp [hs], fun t ht => ?_, by simp [hs], by simp [hs]⟩
    rw [hs] at ht
    cases ht
    refine ⟨(h.unlocked _ hstage).1.snoc (status_ne_locked (by rw [hstage]; simp)) fun htick => ?_, ?_⟩
    · rw [hop] at htick
      cases htick
    · exact lastActive_snoc_some (by rw [Occurrence.activeAt, hop])
  | start hstart hstage =>
    refine ⟨hidle, by simp [hs], by simp [hs], fun _ => ?_, fun _ => ?_⟩
    · refine (h.unlocked _ hstage).1.snoc (status_ne_locked (by rw [hstage]; simp)) fun htick => ?_
      rw [hstart.1] at htick
      cases htick
    · exact ⟨history, o, [], rfl, hstart, by simp⟩
  | finish hop hstage =>
    refine ⟨hidle, by simp [hs], fun t ht => ?_, by simp [hs], by simp [hs]⟩
    rw [hs] at ht
    cases ht
    refine ⟨(h.running hstage).snoc (status_ne_locked (by rw [hstage]; simp)) fun htick => ?_, ?_⟩
    · rw [hop] at htick
      cases htick
    · refine lastActive_snoc_some ?_
      rw [Occurrence.activeAt, hop]
      exact if_pos (status_eq_running.mpr hstage)
  | cancel hop hstage =>
    refine ⟨hidle, by simp [hs], by simp [hs], by simp [hs], fun _ => ?_⟩
    refine (h.outstanding (.inl hstage)).snoc ?_
    rw [hop]
    simp

lemma stateInv_run {idleTimeout : Duration} {clock : ℕ} {history : List Occurrence} {m : Machine}
    (h : Run Step ⟨.new idleTimeout, clock⟩ history m) :
    StateInv (durationMillis idleTimeout) history m.broker := by
  refine h.history_invariant (I := fun history m => StateInv _ history m.broker) ?_ ?_
  · exact ⟨rfl, by simp [BrokerState.new], by simp [BrokerState.new], by simp [BrokerState.new],
      by simp [BrokerState.new]⟩
  · intro history m o m' hinv hstep
    rw [hstep.leaves]
    exact (hstep.finds ▸ hinv : StateInv _ history o.before).step

/-! ### Runs are alone -/

/-- While a run is under way it stays so, unless it is finished or a second lock is asked for. -/
lemma alone_step {o : Occurrence}
    (hstate : o.before.status = .running ∨ o.before.status = .locking) (hop : o.op ≠ .finishRun)
    (hagain : ¬ o.LocksAgain) :
    (o.after.status = .running ∨ o.after.status = .locking) ∧ ¬ o.Starts ∧
      (∀ approved, o.op = .completeUnlock approved → o.decision ≠ some .authorized) ∧
      o.decision ≠ some .locked := by
  obtain ⟨⟨idle, state, activities⟩, op, now, later⟩ := o
  rw [status_eq_running, status_eq_locking] at hstate
  dsimp only at hstate hop
  rcases hstate with rfl | rfl
  · cases op with
    | finishRun => exact absurd rfl hop
    | _ => simp [Occurrence.after, Occurrence.outcome, Occurrence.Starts, Occurrence.decision,
        BrokerState.requestSecretAccess, BrokerState.completeUnlock, BrokerState.secretActivity,
        BrokerState.startRun, BrokerState.requestLock, BrokerState.tick, BrokerState.recordActivity,
        BrokerState.status]
  · cases op with
    | finishRun => exact absurd rfl hop
    | requestLock reason => exact absurd ⟨rfl, reason, rfl⟩ hagain
    | _ => simp [Occurrence.after, Occurrence.outcome, Occurrence.Starts, Occurrence.decision,
        BrokerState.requestSecretAccess, BrokerState.completeUnlock, BrokerState.secretActivity,
        BrokerState.startRun, BrokerState.tick, BrokerState.recordActivity, BrokerState.status]

lemma alone_run {m m' : Machine} {middle : List Occurrence} (h : Run Step m middle m')
    (hstate : m.broker.status = .running ∨ m.broker.status = .locking)
    (hop : ∀ o ∈ middle, o.op ≠ .finishRun) (hagain : ∀ o ∈ middle, ¬ o.LocksAgain) :
    (m'.broker.status = .running ∨ m'.broker.status = .locking) ∧ ∀ o ∈ middle,
      (o.after.status = .running ∨ o.after.status = .locking) ∧ ¬ o.Starts ∧
      (∀ approved, o.op = .completeUnlock approved → o.decision ≠ some .authorized) ∧
      o.decision ≠ some .locked := by
  induction h with
  | nil => exact ⟨hstate, by simp⟩
  | @snoc m₁ m₂ as o run last ih =>
    obtain ⟨hbefore, hall⟩ := ih (fun o' ho' => hop o' (List.mem_append_left _ ho'))
      fun o' ho' => hagain o' (List.mem_append_left _ ho')
    rw [← last.finds] at hbefore
    have hlast : o ∈ as ++ [o] := List.mem_append_right _ List.mem_cons_self
    have hstep := alone_step hbefore (hop o hlast) (hagain o hlast)
    exact ⟨by rw [last.leaves]; exact hstep.1, forall_mem_snoc hall hstep⟩

lemma status_of_starts {o : Occurrence} (h : o.Starts) : o.after.status = .running := by
  obtain ⟨⟨idle, state, activities⟩, op, now, later⟩ := o
  obtain ⟨rfl, hdec⟩ := h
  cases state with
  | unlocked t => rfl
  | _ => cases hdec

/-- **A run is alone, and the vault was opened in time for it, unless a second lock is asked for while
the first still waits for the run to end.** -/
theorem runs_alone_iff (idleTimeout : Duration) (clock : ℕ) (history : List Occurrence) (m : Machine)
    (hrun : Run Step ⟨.new idleTimeout, clock⟩ history m) :
    (RunsAlone history ∧ ∀ before o rest, history = before ++ o :: rest → o.Starts →
      OpenedInTime (durationMillis idleTimeout) before) ↔ ∀ o ∈ history, ¬ o.LocksAgain := by
  constructor
  · rintro ⟨halone, -⟩ o ho hagain
    obtain ⟨before, rest, rfl⟩ := List.append_of_mem ho
    obtain ⟨m₁, hbefore, hrest⟩ := hrun.split
    obtain ⟨m₂, hstep, -⟩ := hrest.cons_inv
    have hinv := stateInv_run hbefore
    rw [← hstep.finds] at hinv
    -- the run that the first lock waits for is still under way
    obtain ⟨hstatus, reason, hop⟩ := hagain
    have hstate := status_eq_locking.mp hstatus
    obtain ⟨old, s, middle, rfl, hs, hmiddle⟩ := hinv.outstanding (.inr hstate)
    have hno : ∀ o' ∈ middle ++ [o], o'.op ≠ .finishRun := forall_mem_snoc hmiddle (by simp [hop])
    obtain ⟨-, hdecisions⟩ := halone old s (middle ++ [o]) rest (by simp) hs hno
    obtain ⟨-, -, hlocked⟩ := hdecisions o (List.mem_append_right _ List.mem_cons_self)
    refine hlocked ?_
    simp [Occurrence.decision, Occurrence.outcome, hop, BrokerState.requestLock, hstate]
  · intro hagain
    refine ⟨?_, ?_⟩
    · rintro before o middle rest rfl hs hmiddle
      obtain ⟨m₁, -, hrest⟩ := hrun.split
      obtain ⟨m₂, hstep, hrest⟩ := hrest.cons_inv
      obtain ⟨m₃, hmid, -⟩ := hrest.split
      have hstatus : m₂.broker.status = .running := by
        rw [hstep.leaves]
        exact status_of_starts hs
      obtain ⟨-, hall⟩ := alone_run hmid (.inl hstatus) hmiddle fun o' ho' =>
        hagain o' (by simp [ho'])
      refine ⟨fun o' ho' => ?_, fun o' ho' => (hall o' ho').2⟩
      rcases List.mem_cons.mp ho' with rfl | ho'
      · exact .inl (status_of_starts hs)
      · exact (hall o' ho').1
    · rintro before o rest rfl hs
      obtain ⟨m₁, hbefore, hrest⟩ := hrun.split
      obtain ⟨m₂, hstep, -⟩ := hrest.cons_inv
      have hinv := stateInv_run hbefore
      rw [← hstep.finds] at hinv
      obtain ⟨⟨idle, state, activities⟩, op, now, later⟩ := o
      obtain ⟨rfl, hdec⟩ := hs
      cases state with
      | unlocked t => exact (hinv.unlocked t rfl).1
      | _ => cases hdec

/-! ### A second lock under a run -/

/-- Calls one after the other, at one time. -/
def playAt (clock : ℕ) : BrokerState → List Op → List Occurrence
  | _, [] => []
  | b, op :: ops => ⟨b, op, clock, clock⟩ :: playAt clock (⟨b, op, clock, clock⟩ : Occurrence).after ops

lemma run_playAt (clock : ℕ) (b : BrokerState) (ops : List Op) :
    ∃ m, Run Step ⟨b, clock⟩ (playAt clock b ops) m := by
  induction ops generalizing b with
  | nil => exact ⟨_, .nil _⟩
  | cons op ops ih =>
    obtain ⟨m, hm⟩ := ih (⟨b, op, clock, clock⟩ : Occurrence).after
    exact ⟨m, .cons ⟨rfl, Nat.le_refl _, Nat.le_refl _, rfl⟩ hm⟩

def halfAnHour : Duration := 30 * 60 * 10 ^ 9

/-- The vault is opened and a run is started. -/
def runOps : List Op := [.requestSecretAccess, .completeUnlock true, .startRun]

theorem runs_alone_iff_locked_once :
    let history := playAt 0 (.new halfAnHour) (runOps ++ [.requestLock .manual, .finishRun])
    (∃ o ∈ history, o.Starts) ∧ (∀ o ∈ history, ¬ o.LocksAgain) ∧ RunsAlone history := by
  have hagain : ∀ o ∈ playAt 0 (.new halfAnHour) (runOps ++ [.requestLock .manual, .finishRun]),
      ¬ o.LocksAgain := by
    have hbefore : (playAt 0 (.new halfAnHour) (runOps ++ [.requestLock .manual, .finishRun])).all
        fun o => o.before.status ≠ .locking || o.op = .finishRun := by decide
    rintro o ho ⟨hlocking, reason, hop⟩
    have h := List.all_eq_true.mp hbefore o ho
    simp [hlocking, hop] at h
  obtain ⟨m, hm⟩ := run_playAt 0 (.new halfAnHour) (runOps ++ [.requestLock .manual, .finishRun])
  refine ⟨⟨⟨⟨1800000, .unlocked 0, []⟩, .startRun, 0, 0⟩, by decide, rfl, rfl⟩, hagain, ?_⟩
  exact ((runs_alone_iff halfAnHour 0 _ m hm).mpr hagain).1

/-- A second lock is reported as done while the run is still under way. -/
theorem locked_under_run : ¬ ∀ (idleTimeout : Duration) (clock : ℕ) (history : List Occurrence)
    (m : Machine), Run Step ⟨.new idleTimeout, clock⟩ history m → RunsAlone history := by
  intro hall
  obtain ⟨m, hm⟩ := run_playAt 0 (.new halfAnHour)
    (runOps ++ [.requestLock .manual, .requestLock .screenLock])
  obtain ⟨-, hdecisions⟩ := hall _ _ _ _ hm
    (playAt 0 (.new halfAnHour) [.requestSecretAccess, .completeUnlock true])
    ⟨⟨1800000, .unlocked 0, []⟩, .startRun, 0, 0⟩
    (playAt 0 ⟨1800000, .running, []⟩ [.requestLock .manual, .requestLock .screenLock]) [] (by decide)
    ⟨rfl, rfl⟩ (by decide)
  obtain ⟨-, -, hlocked⟩ := hdecisions ⟨⟨1800000, .locking, []⟩, .requestLock .screenLock, 0, 0⟩
    (by decide)
  exact hlocked rfl

end Ladon.CoreBroker

import Ladon.Lib.Machine
import Ladon.Supervisor

/-!
The end of a child, and of everything it has started.

The child leads a process group of its own, which what it starts is part of. The supervisor polls for
its end, and where it has to it signals the group: first politely, then not. Meanwhile the processes go
on: they start others, exit, and take no notice of signals. A call of the operating system may fail at
any time.
-/

namespace Ladon.ProcessGroup

open Ladon.Error Ladon.Runner Ladon.Supervisor Ladon.Lib Ladon.Lib.Machine

/-- In nanoseconds, as all times here. -/
def terminationGrace : ℕ := 500 * 10 ^ 6

def terminationConfirmation : ℕ := 2 * 10 ^ 9

/-- The code of an exit status, which is all of it that is read; none if a signal ended the process. -/
abbrev ExitStatus := Option ℤ

/-! ### The processes -/

/-- The child: it runs, it has exited, or that has been seen by a wait. -/
inductive Leader
  | running
  | exited (status : ExitStatus)
  | reaped (status : ExitStatus)
  deriving DecidableEq

/-- A process group: the child that leads it, and how many others there are. -/
structure Group where
  leader : Leader := .running
  others : ℕ := 0
  deriving DecidableEq

namespace Group

/-- A signal finds a process; one that has exited is there until it was waited for. -/
def stillExists (g : Group) : Bool :=
  match g.leader with
  | .running | .exited _ => true
  | .reaped _ => g.others ≠ 0

/-- Some process of it may still run. -/
def mayRun (g : Group) : Bool :=
  match g.leader with
  | .running => true
  | .exited _ | .reaped _ => g.others ≠ 0

end Group

/-- What the processes do by themselves. -/
inductive Move
  | fork
  | leave
  | exit (status : ExitStatus)

/-- Processes are started by those there are, and leave the group when they end, at the latest. -/
def Group.move (g : Group) : Move → Option Group
  | .fork => if g.mayRun then some { g with others := g.others + 1 } else none
  | .leave => if g.others = 0 then none else some { g with others := g.others - 1 }
  | .exit status =>
    match g.leader with
    | .running => some { g with leader := .exited status }
    | .exited _ | .reaped _ => none

/-! ### The supervisor -/

inductive Signal
  | terminate
  | kill
  deriving DecidableEq

/-- How far `wait_for_child` has come: which call it makes next. -/
inductive Stage
  | polling
  | checking
  | timing
  | finishing (status : ExitStatus)
  | terminating (termination : RunTermination) (status : Option ExitStatus)
  | grace (termination : RunTermination) (status : Option ExitStatus) (since : ℕ)
  | looking (termination : RunTermination) (status : Option ExitStatus) (since : ℕ)
  | killing (termination : RunTermination) (status : Option ExitStatus)
  | reaping (termination : RunTermination)
  | confirming (termination : RunTermination) (status : ExitStatus) (since : ℕ)
  | returned (result : Except LadonError (ExitStatus × RunTermination))

/-- The group, the clock, whether the run is cancelled, the signals that were sent and when, and how
far the supervisor is. -/
structure State where
  group : Group := {}
  started : ℕ
  timeout : ℕ
  now : ℕ
  cancelled : Bool := false
  signals : List (Signal × ℕ) := []
  stage : Stage := .polling

inductive Event
  | move (m : Move)
  | cancel
  | advance (now : ℕ)
  /-- The supervisor goes on; the call it makes may fail. -/
  | step (fails : Bool)

namespace State

def goTo (s : State) (stage : Stage) : State := { s with stage := stage }

def failed (s : State) : State := s.goTo (.returned (.error .processFailure))

/-- `try_wait`: a child that has exited is reaped. -/
def tryWait (s : State) : Option ExitStatus × State :=
  match s.group.leader with
  | .exited status => (some status, { s with group := { s.group with leader := .reaped status } })
  | .running | .reaped _ => (none, s)

def signal (s : State) (signal : Signal) : State :=
  { s with signals := s.signals ++ [(signal, s.now)] }

/-- `wait_for_child` makes its next call, in `finish` and `terminate` too. -/
def step (s : State) (fails : Bool) : Option State :=
  match s.stage with
  | .polling =>
    if fails then some s.failed
    else match s.tryWait with
      | (some status, s) => some (s.goTo (.finishing status))
      | (none, s) => some (s.goTo .checking)
  | .checking => some (s.goTo (if s.cancelled then .terminating .cancelled none else .timing))
  | .timing =>
    some (s.goTo (if s.timeout ≤ s.now - s.started then .terminating .timedOut none else .polling))
  | .finishing status =>
    if fails then some s.failed
    else if s.group.stillExists then some (s.goTo (.terminating .exited (some status)))
    else some (s.goTo (.returned (.ok (status, .exited))))
  | .terminating termination status =>
    if fails then some s.failed
    else some ((s.signal .terminate).goTo (.grace termination status s.now))
  | .grace termination status since =>
    if terminationGrace ≤ s.now - since then some (s.goTo (.killing termination status))
    else match status with
      | some status => some (s.goTo (.looking termination (some status) since))
      | none =>
        if fails then some s.failed
        else some (s.tryWait.2.goTo (.looking termination s.tryWait.1 since))
  | .looking termination none since => some (s.goTo (.grace termination none since))
  | .looking termination (some status) since =>
    if fails then some s.failed
    else if s.group.stillExists then some (s.goTo (.grace termination (some status) since))
    else some (s.goTo (.returned (.ok (status, termination))))
  | .killing termination none =>
    if fails then some s.failed
    else some ((s.signal .kill).goTo (.reaping termination))
  | .killing termination (some status) =>
    if fails then some s.failed
    else some ((s.signal .kill).goTo (.confirming termination status s.now))
  | .reaping termination =>
    if fails then some s.failed
    else match s.tryWait with
      | (some status, s) => some (s.goTo (.confirming termination status s.now))
      -- `wait` does not return before the child has exited.
      | (none, _) => none
  | .confirming termination status since =>
    if fails then some s.failed
    else if s.group.stillExists then
      if terminationConfirmation ≤ s.now - since then some s.failed else some s
    else some (s.goTo (.returned (.ok (status, termination))))
  | .returned _ => none

def apply (s : State) : Event → Option State
  | .move m => (s.group.move m).map fun g => { s with group := g }
  | .cancel => some { s with cancelled := true }
  | .advance now => if s.now ≤ now then some { s with now := now } else none
  | .step fails => s.step fails

/-- What the wait for the child has returned. -/
def waited (s : State) : Option (Except LadonError (Option ℤ × RunTermination)) :=
  match s.stage with
  | .returned result => some result
  | _ => none

/-- The child has been launched, some time after the run was started. -/
def initial (timeout started now : ℕ) : State where
  started := started
  timeout := timeout
  now := now

end State

abbrev Occurrence := Machine.Occurrence State Event

/-! ### What holds of a wait -/

/-- The child came to its end with this status before anything was sent to it. -/
def EndedAlone (history : List Occurrence) (status : ExitStatus) : Prop :=
  ∃ o ∈ history, o.before.group.leader = .exited status ∧ o.before.signals = []

/-- What has to hold for a run to end so. -/
def Reason (history : List Occurrence) (s : State) (status : Option ExitStatus) :
    RunTermination → Prop
  | .exited => ∃ st, status = some st ∧ EndedAlone history st
  | .cancelled => s.cancelled = true
  | .timedOut => s.timeout ≤ s.now - s.started

/-- The status of the child is known once it was reaped. -/
def Reaped (g : Group) : Option ExitStatus → Prop
  | some status => g.leader = .reaped status
  | none => ∀ status, g.leader ≠ .reaped status

/-- Nothing was sent; or the polite signal; or, after the grace, the other one too. -/
def Orderly (signals : List (Signal × ℕ)) : Prop :=
  signals = [] ∨ ∃ since, signals = [(.terminate, since)] ∨
    ∃ killed, signals = [(.terminate, since), (.kill, killed)] ∧ since + terminationGrace ≤ killed

/-- Both signals were sent. -/
def Killed (signals : List (Signal × ℕ)) : Prop :=
  ∃ since killed, signals = [(.terminate, since), (.kill, killed)] ∧
    since + terminationGrace ≤ killed

/-- The supervisor makes a call, and it fails. -/
def Fails (o : Occurrence) : Prop :=
  o.event = .step true ∧ o.before.step true = some o.before.failed

/-- A call failed, or the group outlived the signal that cannot be ignored. -/
def Excused (history : List Occurrence) : Prop :=
  ∃ o ∈ history, Fails o ∨ o.before.group.stillExists ∧ Killed o.before.signals

/-- How far the supervisor has come, and what it has done. -/
def Course (history : List Occurrence) (s : State) : Prop :=
  match s.stage with
  | .polling | .checking | .timing => s.signals = [] ∧ Reaped s.group none
  | .finishing status =>
    s.signals = [] ∧ Reaped s.group (some status) ∧ EndedAlone history status
  | .terminating termination status =>
    s.signals = [] ∧ Reaped s.group status ∧ Reason history s status termination
  | .grace termination status since | .looking termination status since =>
    s.signals = [(.terminate, since)] ∧ Reaped s.group status ∧ Reason history s status termination
  | .killing termination status =>
    (∃ since, s.signals = [(.terminate, since)] ∧ since + terminationGrace ≤ s.now) ∧
      Reaped s.group status ∧ Reason history s status termination
  | .reaping termination =>
    Killed s.signals ∧ Reaped s.group none ∧ Reason history s none termination
  | .confirming termination status _ =>
    Killed s.signals ∧ Reaped s.group (some status) ∧ Reason history s (some status) termination
  | .returned (.ok (status, termination)) =>
    Orderly s.signals ∧ Reaped s.group (some status) ∧ s.group.stillExists = false ∧
      Reason history s (some status) termination
  | .returned (.error _) => Orderly s.signals ∧ Excused history

section Steps

variable {history : List Occurrence} {s s' : State} {o : Occurrence} {status : ExitStatus}
  {known : Option ExitStatus} {termination : RunTermination}

lemma EndedAlone.later (h : EndedAlone history status) : EndedAlone (history ++ [o]) status := by
  obtain ⟨o', ho', hleader⟩ := h
  exact ⟨o', List.mem_append_left _ ho', hleader⟩

lemma Excused.later (h : Excused history) : Excused (history ++ [o]) := by
  obtain ⟨o', ho', hwhy⟩ := h
  exact ⟨o', List.mem_append_left _ ho', hwhy⟩

/-- What the world does leaves the supervisor where it is. -/
structure Quiet (s s' : State) : Prop where
  stage : s'.stage = s.stage
  signals : s'.signals = s.signals
  started : s'.started = s.started
  timeout : s'.timeout = s.timeout
  now : s.now ≤ s'.now
  cancelled : s.cancelled = true → s'.cancelled = true
  reaped : ∀ known, Reaped s.group known → Reaped s'.group known
  gone : s.group.stillExists = false → s'.group.stillExists = false

lemma Reason.later (h : Reason history s known termination)
    (hcancelled : s.cancelled = true → s'.cancelled = true) (htimeout : s'.timeout = s.timeout)
    (hstarted : s'.started = s.started) (hnow : s.now ≤ s'.now) :
    Reason (history ++ [o]) s' known termination := by
  cases termination with
  | exited =>
    obtain ⟨st, hst, hended⟩ := h
    exact ⟨st, hst, hended.later⟩
  | cancelled => exact hcancelled h
  | timedOut =>
    unfold Reason at h ⊢
    rw [htimeout, hstarted]
    omega

/-- While the child is not reaped, what it comes to does not matter. -/
lemma Reason.of_none (h : Reason history s none termination) :
    Reason history s known termination := by
  cases termination with
  | exited =>
    obtain ⟨st, hst, -⟩ := h
    cases hst
  | cancelled => exact h
  | timedOut => exact h

lemma Reason.quiet (h : Reason history s known termination) (hq : Quiet s s') :
    Reason (history ++ [o]) s' known termination :=
  h.later hq.cancelled hq.timeout hq.started hq.now

lemma Course.quiet (h : Course history s) (hq : Quiet s s') : Course (history ++ [o]) s' := by
  unfold Course at h ⊢
  rw [hq.stage, hq.signals]
  cases hstage : s.stage with
  | polling =>
    rw [hstage] at h
    exact ⟨h.1, hq.reaped _ h.2⟩
  | checking =>
    rw [hstage] at h
    exact ⟨h.1, hq.reaped _ h.2⟩
  | timing =>
    rw [hstage] at h
    exact ⟨h.1, hq.reaped _ h.2⟩
  | finishing status =>
    rw [hstage] at h
    exact ⟨h.1, hq.reaped _ h.2.1, h.2.2.later⟩
  | terminating termination known =>
    rw [hstage] at h
    exact ⟨h.1, hq.reaped _ h.2.1, h.2.2.quiet hq⟩
  | grace termination known since =>
    rw [hstage] at h
    exact ⟨h.1, hq.reaped _ h.2.1, h.2.2.quiet hq⟩
  | looking termination known since =>
    rw [hstage] at h
    exact ⟨h.1, hq.reaped _ h.2.1, h.2.2.quiet hq⟩
  | killing termination known =>
    rw [hstage] at h
    obtain ⟨⟨since, hsignals, hgrace⟩, hreaped, hreason⟩ := h
    exact ⟨⟨since, hsignals, hgrace.trans hq.now⟩, hq.reaped _ hreaped, hreason.quiet hq⟩
  | reaping termination =>
    rw [hstage] at h
    exact ⟨h.1, hq.reaped _ h.2.1, h.2.2.quiet hq⟩
  | confirming termination status since =>
    rw [hstage] at h
    exact ⟨h.1, hq.reaped _ h.2.1, h.2.2.quiet hq⟩
  | returned result =>
    rw [hstage] at h
    cases result with
    | error e => exact ⟨h.1, h.2.later⟩
    | ok r => exact ⟨h.1, hq.reaped _ h.2.1, hq.gone h.2.2.1, h.2.2.2.quiet hq⟩

lemma gone_iff {g : Group} :
    g.stillExists = false ↔ (∃ status, g.leader = .reaped status) ∧ g.others = 0 := by
  obtain ⟨leader, others⟩ := g
  cases leader with
  | running => simp [Group.stillExists]
  | exited status => simp [Group.stillExists]
  | reaped status => simp [Group.stillExists]

/-- A process that was reaped stays so, and a group without processes gets none. -/
lemma quiet_move {m : Move} {g : Group} (h : s.group.move m = some g) :
    Quiet s { s with group := g } := by
  suffices hg : (∀ known, Reaped s.group known → Reaped g known) ∧
      (s.group.stillExists = false → g.stillExists = false) from
    ⟨rfl, rfl, rfl, rfl, Nat.le_refl _, id, hg.1, hg.2⟩
  have hgone (hgone : s.group.stillExists = false) : s.group.move m = none := by
    obtain ⟨⟨status, hleader⟩, hothers⟩ := gone_iff.mp hgone
    cases m with
    | fork => simp [Group.move, Group.mayRun, hleader, hothers]
    | leave => simp [Group.move, hothers]
    | exit status => simp [Group.move, hleader]
  refine ⟨fun known hknown => ?_, fun hnone => ?_⟩
  · cases m with
    | fork =>
      simp only [Group.move] at h
      split_ifs at h
      cases h
      cases known <;> exact hknown
    | leave =>
      simp only [Group.move] at h
      split_ifs at h
      cases h
      cases known <;> exact hknown
    | exit status =>
      simp only [Group.move] at h
      cases hleader : s.group.leader with
      | running =>
        rw [hleader] at h
        cases h
        cases known with
        | none =>
          intro st hst
          cases hst
        | some st => cases hleader.symm.trans hknown
      | _ =>
        rw [hleader] at h
        cases h
  · rw [hgone hnone] at h
    cases h

/-! ### Steps of the supervisor -/

lemma Killed.orderly {signals : List (Signal × ℕ)} (h : Killed signals) : Orderly signals := by
  obtain ⟨since, killed, hsignals, hgrace⟩ := h
  exact .inr ⟨since, .inr ⟨killed, hsignals, hgrace⟩⟩

/-- A wait finds that the child has exited, or nothing. -/
lemma tryWait_cases (s : State) :
    (∃ status, s.group.leader = .exited status ∧ s.tryWait = (some status,
      { s with group := { s.group with leader := .reaped status } })) ∨ s.tryWait = (none, s) := by
  unfold State.tryWait
  cases hleader : s.group.leader with
  | exited status => exact .inl ⟨status, rfl, rfl⟩
  | running => exact .inr rfl
  | reaped status => exact .inr rfl

/-- Whatever the supervisor is at, the signals were sent in their order. -/
lemma Course.orderly (h : Course history s) : Orderly s.signals := by
  unfold Course at h
  split at h
  · exact .inl h.1
  · exact .inl h.1
  · exact .inl h.1
  · exact .inl h.1
  · exact .inl h.1
  · exact .inr ⟨_, .inl h.1⟩
  · exact .inr ⟨_, .inl h.1⟩
  · exact .inr (h.1.imp fun since h => .inl h.1)
  · exact h.1.orderly
  · exact h.1.orderly
  · exact h.1
  · exact h.1

/-- A call that fails ends the wait, or it is none that the step makes. -/
lemma step_fails (h : s.step true = some s') : s' = s.failed ∨ s.step false = some s' := by
  cases hs : s.stage with
  | grace termination known since =>
    simp only [State.step, hs] at h ⊢
    by_cases hover : terminationGrace ≤ s.now - since
    · rw [if_pos hover] at h ⊢
      exact .inr h
    · rw [if_neg hover] at h ⊢
      cases known with
      | none =>
        cases h
        exact .inl rfl
      | some status => exact .inr h
  | looking termination known since =>
    cases known with
    | none =>
      simp only [State.step, hs] at h ⊢
      exact .inr h
    | some status =>
      simp only [State.step, hs] at h
      cases h
      exact .inl rfl
  | killing termination known =>
    cases known with
    | none =>
      simp only [State.step, hs] at h
      cases h
      exact .inl rfl
    | some status =>
      simp only [State.step, hs] at h
      cases h
      exact .inl rfl
  | checking =>
    simp only [State.step, hs] at h ⊢
    exact .inr h
  | timing =>
    simp only [State.step, hs] at h ⊢
    exact .inr h
  | returned result =>
    simp only [State.step, hs] at h
    cases h
  | _ =>
    simp only [State.step, hs] at h
    cases h
    exact .inl rfl

/-- A step in which no call fails. -/
theorem course_step (h : Course history s) (hstep : s.step false = some s') (ho : o.before = s) :
    Course (history ++ [o]) s' := by
  have hlast : o ∈ history ++ [o] := List.mem_append_right _ (List.mem_singleton.mpr rfl)
  unfold Course at h
  cases hstage : s.stage with
  | polling =>
    rw [hstage] at h
    obtain ⟨hsignals, hreaped⟩ := h
    simp only [State.step, hstage] at hstep
    rcases tryWait_cases s with ⟨status, hleader, htry⟩ | htry
    · rw [htry] at hstep
      cases hstep
      exact ⟨hsignals, rfl, o, hlast, ho ▸ hleader, ho ▸ hsignals⟩
    · rw [htry] at hstep
      cases hstep
      exact ⟨hsignals, hreaped⟩
  | checking =>
    rw [hstage] at h
    obtain ⟨hsignals, hreaped⟩ := h
    simp only [State.step, hstage] at hstep
    cases hstep
    by_cases hcancelled : s.cancelled
    · rw [if_pos hcancelled]
      exact ⟨hsignals, hreaped, hcancelled⟩
    · rw [if_neg hcancelled]
      exact ⟨hsignals, hreaped⟩
  | timing =>
    rw [hstage] at h
    obtain ⟨hsignals, hreaped⟩ := h
    simp only [State.step, hstage] at hstep
    cases hstep
    by_cases htimeout : s.timeout ≤ s.now - s.started
    · rw [if_pos htimeout]
      exact ⟨hsignals, hreaped, htimeout⟩
    · rw [if_neg htimeout]
      exact ⟨hsignals, hreaped⟩
  | finishing status =>
    rw [hstage] at h
    obtain ⟨hsignals, hreaped, hended⟩ := h
    have hreason : Reason (history ++ [o]) s (some status) .exited := ⟨status, rfl, hended.later⟩
    simp only [State.step, hstage] at hstep
    cases hexists : s.group.stillExists with
    | true =>
      rw [hexists] at hstep
      cases hstep
      exact ⟨hsignals, hreaped, hreason⟩
    | false =>
      rw [hexists] at hstep
      cases hstep
      exact ⟨.inl hsignals, hreaped, hexists, hreason⟩
  | terminating termination known =>
    rw [hstage] at h
    obtain ⟨hsignals, hreaped, hreason⟩ := h
    simp only [State.step, hstage] at hstep
    cases hstep
    refine ⟨?_, hreaped, hreason.later id rfl rfl le_rfl⟩
    simp only [State.goTo, State.signal, hsignals, List.nil_append]
  | grace termination known since =>
    rw [hstage] at h
    obtain ⟨hsignals, hreaped, hreason⟩ := h
    simp only [State.step, hstage] at hstep
    by_cases hover : terminationGrace ≤ s.now - since
    · rw [if_pos hover] at hstep
      cases hstep
      have hgrace : since + terminationGrace ≤ s.now := by
        unfold terminationGrace at hover ⊢
        omega
      exact ⟨⟨since, hsignals, hgrace⟩, hreaped, hreason.later id rfl rfl le_rfl⟩
    · rw [if_neg hover] at hstep
      cases known with
      | some status =>
        cases hstep
        exact ⟨hsignals, hreaped, hreason.later id rfl rfl le_rfl⟩
      | none =>
        rcases tryWait_cases s with ⟨status, hleader, htry⟩ | htry
        · rw [htry] at hstep
          cases hstep
          exact ⟨hsignals, rfl, hreason.of_none.later id rfl rfl le_rfl⟩
        · rw [htry] at hstep
          cases hstep
          exact ⟨hsignals, hreaped, hreason.later id rfl rfl le_rfl⟩
  | looking termination known since =>
    rw [hstage] at h
    obtain ⟨hsignals, hreaped, hreason⟩ := h
    cases known with
    | none =>
      simp only [State.step, hstage] at hstep
      cases hstep
      exact ⟨hsignals, hreaped, hreason.later id rfl rfl le_rfl⟩
    | some status =>
      simp only [State.step, hstage] at hstep
      cases hexists : s.group.stillExists with
      | true =>
        rw [hexists] at hstep
        cases hstep
        exact ⟨hsignals, hreaped, hreason.later id rfl rfl le_rfl⟩
      | false =>
        rw [hexists] at hstep
        cases hstep
        exact ⟨.inr ⟨since, .inl hsignals⟩, hreaped, hexists, hreason.later id rfl rfl le_rfl⟩
  | killing termination known =>
    rw [hstage] at h
    obtain ⟨⟨since, hsignals, hgrace⟩, hreaped, hreason⟩ := h
    have hkilled : Killed (s.signal .kill).signals :=
      ⟨since, s.now, by rw [State.signal, hsignals]; rfl, hgrace⟩
    cases known with
    | none =>
      simp only [State.step, hstage] at hstep
      cases hstep
      exact ⟨hkilled, hreaped, hreason.later id rfl rfl le_rfl⟩
    | some status =>
      simp only [State.step, hstage] at hstep
      cases hstep
      exact ⟨hkilled, hreaped, hreason.later id rfl rfl le_rfl⟩
  | reaping termination =>
    rw [hstage] at h
    obtain ⟨hkilled, hreaped, hreason⟩ := h
    simp only [State.step, hstage] at hstep
    rcases tryWait_cases s with ⟨status, hleader, htry⟩ | htry
    · rw [htry] at hstep
      cases hstep
      exact ⟨hkilled, rfl, hreason.of_none.later id rfl rfl le_rfl⟩
    · rw [htry] at hstep
      cases hstep
  | confirming termination status since =>
    rw [hstage] at h
    obtain ⟨hkilled, hreaped, hreason⟩ := h
    simp only [State.step, hstage] at hstep
    cases hexists : s.group.stillExists with
    | true =>
      rw [hexists] at hstep
      by_cases hlong : terminationConfirmation ≤ s.now - since
      · rw [if_pos hlong] at hstep
        cases hstep
        exact ⟨hkilled.orderly, o, hlast, .inr ⟨ho ▸ hexists, ho ▸ hkilled⟩⟩
      · rw [if_neg hlong] at hstep
        cases hstep
        unfold Course
        rw [hstage]
        exact ⟨hkilled, hreaped, hreason.later id rfl rfl le_rfl⟩
    | false =>
      rw [hexists] at hstep
      cases hstep
      exact ⟨hkilled.orderly, hreaped, hexists, hreason.later id rfl rfl le_rfl⟩
  | returned result =>
    simp only [State.step, hstage] at hstep
    cases hstep

/-! ### Whole waits -/

lemma Course.apply {e : Event} (h : Course history s) (happly : s.apply e = some s') :
    Course (history ++ [⟨s, e⟩]) s' := by
  cases e with
  | move m =>
    obtain ⟨g, hmove, rfl⟩ := Option.map_eq_some_iff.mp happly
    exact h.quiet (quiet_move hmove)
  | cancel =>
    cases happly
    exact h.quiet ⟨rfl, rfl, rfl, rfl, Nat.le_refl _, fun _ => rfl, fun _ hk => hk, id⟩
  | advance now =>
    simp only [State.apply] at happly
    split_ifs at happly with hnow
    cases happly
    exact h.quiet ⟨rfl, rfl, rfl, rfl, hnow, id, fun _ hk => hk, id⟩
  | step fails =>
    cases fails with
    | false => exact course_step h happly rfl
    | true =>
      rcases step_fails happly with rfl | hstep
      · exact ⟨h.orderly, _, List.mem_append_right _ (List.mem_singleton.mpr rfl), .inl ⟨rfl, happly⟩⟩
      · exact course_step h hstep rfl

lemma course_run {timeout started now : ℕ}
    (run : Run (Machine.Step State.apply) (.initial timeout started now) history s) : Course history s := by
  refine run.history_invariant (I := Course) ⟨rfl, fun status h => by cases h⟩ ?_
  rintro history s o s' h ⟨happly⟩
  exact h.apply happly

lemma stage_of_waited {result : Except LadonError (Option ℤ × RunTermination)}
    (h : s.waited = some result) : s.stage = .returned result := by
  unfold State.waited at h
  split at h
  · next hs =>
    cases h
    exact hs
  · cases h

/-- The supervisor can always go on, but for the wait for a child that was killed. -/
lemma Course.goes (h : Course history s) (hwaited : s.waited = none) :
    (s.step false).isSome ∨ Killed s.signals ∧ ∀ status, s.group.leader ≠ .exited status := by
  cases hs : s.stage with
  | returned result =>
    rw [State.waited, hs] at hwaited
    cases hwaited
  | reaping termination =>
    rw [Course, hs] at h
    by_cases hexited : ∃ status, s.group.leader = .exited status
    · obtain ⟨status, hleader⟩ := hexited
      left
      simp [State.step, hs, State.tryWait, hleader]
    · exact .inr ⟨h.1, fun status hleader => hexited ⟨status, hleader⟩⟩
  | polling =>
    left
    rcases tryWait_cases s with ⟨status, -, htry⟩ | htry
    · simp [State.step, hs, htry]
    · simp [State.step, hs, htry]
  | confirming termination status since =>
    left
    cases hexists : s.group.stillExists with
    | false => simp [State.step, hs, hexists]
    | true =>
      by_cases hlong : terminationConfirmation ≤ s.now - since
      · simp [State.step, hs, hexists, hlong]
      · simp [State.step, hs, hexists, hlong]
  | finishing status =>
    left
    cases hexists : s.group.stillExists <;> simp [State.step, hs, hexists]
  | looking termination known since =>
    left
    cases known with
    | none => simp [State.step, hs]
    | some status => cases hexists : s.group.stillExists <;> simp [State.step, hs, hexists]
  | grace termination known since =>
    left
    by_cases hover : terminationGrace ≤ s.now - since
    · simp [State.step, hs, hover]
    · cases known <;> simp [State.step, hs, hover]
  | killing termination known =>
    left
    cases known <;> simp [State.step, hs]
  | checking => exact .inl (by simp [State.step, hs])
  | timing => exact .inl (by simp [State.step, hs])
  | terminating termination known => exact .inl (by simp [State.step, hs])

/-- The wait is over, with the status of the child: its group is gone. -/
lemma Course.gone (h : Course history s) (hwaited : s.waited = some (.ok (status, termination))) :
    s.group = ⟨.reaped status, 0⟩ ∧ Reason history s (some status) termination := by
  rw [Course, stage_of_waited hwaited] at h
  obtain ⟨-, hreaped, hgone, hreason⟩ := h
  obtain ⟨-, hothers⟩ := gone_iff.mp hgone
  have hleader : s.group.leader = .reaped status := hreaped
  refine ⟨?_, hreason⟩
  rw [← hleader, ← hothers]

/-- The result of a run has what the wait for its child returned. -/
lemma wait_of_execute {os : System} {run : PreparedRun} {result : RunResult}
    (h : execute os run = .ok result) : os.wait = .ok (result.exitCode, result.termination) := by
  simp only [execute, bind_eq_ok] at h
  obtain ⟨rout, -, rerr, -, injection, -, -, -, -, -, ⟨exitCode, termination⟩, hwait, out, -, err, -,
    h⟩ := h
  split at h
  · cases h
  · cases h
    exact hwait

/-- In every run of the supervisor and of the processes, with calls that fail at any time: where the
wait for a child returns its status, and so in every run that has a result, no process of the group is
left, then or later, and the child ended as the result says, by itself before anything was sent, or
after the run was cancelled or had taken too long. Nothing was sent, or the polite signal, or behind the
grace the one that cannot be ignored too. An error is returned only where a call failed or the group
outlived both; and until then the supervisor goes on, but to wait for a child that it has killed. -/
theorem group_ended {timeout started now : ℕ}
    (run : Run (Machine.Step State.apply) (.initial timeout started now) history s) :
    (∀ status termination, s.waited = some (.ok (status, termination)) →
      s.group = ⟨.reaped status, 0⟩ ∧ Reason history s (some status) termination) ∧
    (∀ os prepared result, s.waited = some os.wait → execute os prepared = .ok result →
      s.group = ⟨.reaped result.exitCode, 0⟩ ∧
        Reason history s (some result.exitCode) result.termination) ∧
    Orderly s.signals ∧
    (∀ e, s.waited = some (.error e) → Excused history) ∧
    (s.waited = none → (s.step false).isSome ∨
      Killed s.signals ∧ ∀ status, s.group.leader ≠ .exited status) := by
  have hcourse := course_run run
  refine ⟨fun status termination => hcourse.gone, fun os prepared result hwaited hresult => ?_,
    hcourse.orderly, fun e hwaited => ?_, hcourse.goes⟩
  · rw [wait_of_execute hresult] at hwaited
    exact hcourse.gone hwaited
  · rw [Course, stage_of_waited hwaited] at hcourse
    exact hcourse.2

end Steps

/-! ### A child that takes too long -/

/-- The child starts another process, and takes too long; it ends at the first signal, the other one
later. -/
def lateEvents : List Event :=
  [.move .fork, .step false, .step false, .advance 10, .step false, .step false,
    .move (.exit none), .step false, .step false, .move .leave, .step false, .step false]

/-- The wait has returned, with the status of a child that a signal has ended. -/
def isLate (s : State) : Bool :=
  match s.waited with
  | some (.ok (none, .timedOut)) => true
  | _ => false

theorem group_ended_late : ∃ history s,
    Run (Machine.Step State.apply) (.initial 10 0 0) history s ∧
    s.waited = some (.ok (none, .timedOut)) ∧ s.group = ⟨.reaped none, 0⟩ ∧
    s.timeout ≤ s.now - s.started := by
  have hplay : (play State.apply (.initial 10 0 0) lateEvents).any fun p => isLate p.2 := by
    decide +kernel
  obtain ⟨⟨history, s⟩, hrun, hlate⟩ := (Option.any_eq_true _ _).mp hplay
  have run := run_of_play hrun
  have hwaited : s.waited = some (.ok (none, .timedOut)) := by
    unfold isLate at hlate
    split at hlate
    · assumption
    · cases hlate
  obtain ⟨hgroup, hreason⟩ := (group_ended run).1 none .timedOut hwaited
  exact ⟨history, s, run, hwaited, hgroup, hreason⟩

end Ladon.ProcessGroup

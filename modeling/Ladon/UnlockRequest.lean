import Ladon.Approval
import Ladon.Lib.Machine

/-!
Requests to unlock: an agent asks for a prompt, and only the desktop answers it.

One slot under a mutex holds the request; an epoch, which is read without the mutex, counts what
was cancelled. A waiting call registers in one section and comes back to the slot in others, each of
which looks at the token of the call before it looks at the decision. The token belongs to others and
is set without the mutex, so between the two looks it may change; so may what a reader of the epoch
sees while `cancel` is in its section.
-/

namespace Ladon.UnlockRequest

open Ladon.Error Ladon.Approval Ladon.Lib Ladon.Lib.Machine

structure PendingUnlock where
  id : Uuid
  clientLabel : String
  purpose : String
  deriving DecidableEq

structure UnlockState where
  request : PendingUnlock
  decision : Option (Except LadonError Unit)

structure UnlockRequests where
  state : Option UnlockState := none
  epoch : ℕ := 0

namespace UnlockRequests

def pending (u : UnlockRequests) : Option PendingUnlock :=
  (u.state.filter (·.decision.isNone)).map UnlockState.request

def resolve (id : Uuid) (allow : Bool) (u : UnlockRequests) : Except LadonError Unit × UnlockRequests :=
  match u.state with
  | none => (.error .invalidRequest, u)
  | some s =>
    if s.request.id ≠ id ∨ s.decision.isSome then (.error .invalidRequest, u)
    else (.ok (), { u with
      state := some { s with decision := some (if allow then .ok () else .error .approvalDenied) } })

/-- The first half of `cancel`. -/
def advanceEpoch (u : UnlockRequests) : UnlockRequests := { u with epoch := (u.epoch + 1) % 2 ^ 64 }

/-- The second half of `cancel`. -/
def cancelRequest (u : UnlockRequests) : UnlockRequests :=
  { u with state := u.state.map fun s => { s with decision := some (.error .approvalCancelled) } }

def cancel (u : UnlockRequests) : UnlockRequests := u.advanceEpoch.cancelRequest

/-- The first section of `wait`. -/
def register (epoch : ℕ) (request : PendingUnlock) (u : UnlockRequests) :
    Except LadonError Unit × UnlockRequests :=
  if epoch ≠ u.epoch then (.error .approvalCancelled, u)
  else if u.state.isSome then (.error .busy, u)
  else (.ok (), { u with state := some ⟨request, none⟩ })

def clear (u : UnlockRequests) : UnlockRequests := { u with state := none }

end UnlockRequests

/-! ### Threads -/

/-- How far a call of `wait` has come: it looks at its token with the mutex in hand, and then at the
time and at the decision. -/
inductive WaitStage
  | called
  | waiting (id : Uuid)
  | looked (id : Uuid)
  | returned (id : Option Uuid) (result : Except LadonError Unit)

structure WaitCall where
  epoch : ℕ
  clientLabel : String
  purpose : String
  cancellation : Token
  stage : WaitStage := .called

/-- Who is inside a section that takes two steps. -/
inductive Holder
  | canceller
  | waiter (w : ℕ)
  deriving DecidableEq

structure System where
  requests : UnlockRequests := {}
  holder : Option Holder := none
  waits : ℕ → Option WaitCall := fun _ => none
  cancelled : List Token := []

inductive Event
  | epoch
  | pending
  | resolve (id : Uuid) (allow : Bool)
  | beginCancel
  | endCancel
  | call (w : ℕ) (wait : WaitCall)
  | register (w : ℕ) (id : Uuid)
  | look (w : ℕ)
  | take (w : ℕ) (late : Bool)
  | setToken (token : Token)

namespace System

def setWait (s : System) (w : ℕ) (wait : WaitCall) (stage : WaitStage) : System :=
  { s with waits := Function.update s.waits w (some { wait with stage := stage }) }

/-- The first section: the request gets an identifier, if it is taken. -/
def register (s : System) (w : ℕ) (id : Uuid) (wait : WaitCall) : System :=
  match s.requests.register wait.epoch ⟨id, wait.clientLabel, wait.purpose⟩ with
  | (.ok (), requests) => { s with requests := requests }.setWait w wait (.waiting id)
  | (.error e, requests) => { s with requests := requests }.setWait w wait (.returned none (.error e))

/-- The mutex is taken, for the first time or again after a wait, and the token is read. -/
def look (s : System) (w : ℕ) (id : Uuid) (wait : WaitCall) : System :=
  if wait.cancellation ∈ s.cancelled then
    { s with requests := s.requests.clear }.setWait w wait
      (.returned (some id) (.error .approvalCancelled))
  else { s with holder := some (.waiter w) }.setWait w wait (.looked id)

/-- The rest of the section: the time is up, or there is a decision, or the call waits again. -/
def take (s : System) (w : ℕ) (id : Uuid) (wait : WaitCall) (late : Bool) : System :=
  if late then
    { s with requests := s.requests.clear, holder := none }.setWait w wait
      (.returned (some id) (.error .approvalTimeout))
  else match s.requests.state.bind UnlockState.decision with
    | some decision =>
      { s with requests := s.requests.clear, holder := none }.setWait w wait
        (.returned (some id) decision)
    | none => { s with holder := none }.setWait w wait (.waiting id)

def apply (s : System) : Event → Option System
  | .epoch => some s
  | .pending => if s.holder.isSome then none else some s
  | .resolve id allow =>
    if s.holder.isSome then none else some { s with requests := (s.requests.resolve id allow).2 }
  | .beginCancel =>
    if s.holder.isSome then none
    else some { s with requests := s.requests.advanceEpoch, holder := some .canceller }
  | .endCancel =>
    if s.holder = some .canceller then
      some { s with requests := s.requests.cancelRequest, holder := none }
    else none
  | .call w wait => if (s.waits w).isSome then none else some (s.setWait w wait .called)
  | .register w id =>
    match s.waits w with
    | some wait =>
      match wait.stage with
      | .called => if s.holder.isSome then none else some (s.register w id wait)
      | _ => none
    | none => none
  | .look w =>
    match s.waits w with
    | some wait =>
      match wait.stage with
      | .waiting id => if s.holder.isSome then none else some (s.look w id wait)
      | _ => none
    | none => none
  | .take w late =>
    match s.waits w with
    | some wait =>
      match wait.stage with
      | .looked id => some (s.take w id wait late)
      | _ => none
    | none => none
  | .setToken token => some { s with cancelled := token :: s.cancelled }

end System

abbrev Occurrence := Machine.Occurrence System Event

abbrev Step := Machine.Step System.apply

/-- The identifier of the request a call has in the slot. -/
def WaitStage.registered : WaitStage → Option Uuid
  | .waiting id | .looked id => some id
  | _ => none

namespace Occurrence

/-- A call of `wait` puts its request into the slot. -/
def Registers (o : Occurrence) (w : ℕ) (id : Uuid) : Prop :=
  o.event = .register w id ∧ ∃ wait, o.before.waits w = some wait ∧ wait.stage = .called ∧
    (o.before.requests.register wait.epoch ⟨id, wait.clientLabel, wait.purpose⟩).1 = .ok ()

/-- An answer is accepted. -/
def Resolves (o : Occurrence) (id : Uuid) (allow : Bool) : Prop :=
  o.event = .resolve id allow ∧ (o.before.requests.resolve id allow).1 = .ok ()

/-- A cancellation meets the request. -/
def Cancels (o : Occurrence) (id : Uuid) : Prop :=
  o.event = .endCancel ∧ ∃ s, o.before.requests.state = some s ∧ s.request.id = id

/-- A call with its request in the slot returns. -/
def Returns (o : Occurrence) (w : ℕ) (id : Uuid) (result : Except LadonError Unit) : Prop :=
  ∃ wait, o.before.waits w = some wait ∧ wait.stage.registered = some id ∧
    ∃ s', o.before.apply o.event = some s' ∧
      s'.waits w = some { wait with stage := .returned (some id) result }

/-- The identifier under which a request is put into the slot. -/
def registeredId (o : Occurrence) : Option Uuid :=
  match o.event with
  | .register w id =>
    match o.before.waits w with
    | some wait =>
      match (o.before.requests.register wait.epoch ⟨id, wait.clientLabel, wait.purpose⟩).1 with
      | .ok () => some id
      | .error _ => none
    | none => none
  | _ => none

/-- A cancellation takes effect. -/
def advances (o : Occurrence) : Bool :=
  match o.event with
  | .beginCancel => true
  | _ => false

end Occurrence

/-! ### What an event does -/

/-- What an event can make of the system. -/
inductive Move (s : System) : Event → System → Prop
  | nothing {e : Event} (h : e = .epoch ∨ e = .pending ∨
      ∃ id allow, e = .resolve id allow ∧ (s.requests.resolve id allow).1 ≠ .ok ())
      (free : e = .epoch ∨ s.holder = none) : Move s e s
  | answer {id : Uuid} {allow : Bool} {st : UnlockState} (slot : s.requests.state = some st)
      (same : st.request.id = id) (open' : st.decision = none) (free : s.holder = none) :
      Move s (.resolve id allow) { s with requests := { s.requests with
        state := some { st with decision := some (if allow then .ok () else .error .approvalDenied) } } }
  | beginCancel (free : s.holder = none) : Move s .beginCancel
      { s with requests := s.requests.advanceEpoch, holder := some .canceller }
  | endCancel (held : s.holder = some .canceller) : Move s .endCancel
      { s with requests := s.requests.cancelRequest, holder := none }
  | call {w : ℕ} {wait : WaitCall} (fresh : s.waits w = none) :
      Move s (.call w wait) (s.setWait w wait .called)
  | refused {w : ℕ} {id : Uuid} {wait : WaitCall} {error : LadonError} (known : s.waits w = some wait)
      (stage : wait.stage = .called) (free : s.holder = none) :
      Move s (.register w id) (s.setWait w wait (.returned none (.error error)))
  | register {w : ℕ} {id : Uuid} {wait : WaitCall} (known : s.waits w = some wait)
      (stage : wait.stage = .called) (free : s.holder = none) (epoch : wait.epoch = s.requests.epoch)
      (empty : s.requests.state = none) :
      Move s (.register w id) ({ s with requests := { s.requests with
        state := some ⟨⟨id, wait.clientLabel, wait.purpose⟩, none⟩ } }.setWait w wait (.waiting id))
  | abandon {w : ℕ} {id : Uuid} {wait : WaitCall} (known : s.waits w = some wait)
      (stage : wait.stage = .waiting id) (free : s.holder = none)
      (set : wait.cancellation ∈ s.cancelled) :
      Move s (.look w) ({ s with requests := s.requests.clear }.setWait w wait
        (.returned (some id) (.error .approvalCancelled)))
  | look {w : ℕ} {id : Uuid} {wait : WaitCall} (known : s.waits w = some wait)
      (stage : wait.stage = .waiting id) (free : s.holder = none)
      (unset : wait.cancellation ∉ s.cancelled) :
      Move s (.look w) ({ s with holder := some (.waiter w) }.setWait w wait (.looked id))
  | take {w : ℕ} {late : Bool} {id : Uuid} {wait : WaitCall} {result : Except LadonError Unit}
      (known : s.waits w = some wait) (stage : wait.stage = .looked id)
      (decided : result = .error .approvalTimeout ∨
        ∃ st, s.requests.state = some st ∧ st.decision = some result) :
      Move s (.take w late) ({ s with requests := s.requests.clear, holder := none }.setWait w wait
        (.returned (some id) result))
  | sleep {w : ℕ} {late : Bool} {id : Uuid} {wait : WaitCall} (known : s.waits w = some wait)
      (stage : wait.stage = .looked id) :
      Move s (.take w late) ({ s with holder := none }.setWait w wait (.waiting id))
  | setToken {token : Token} : Move s (.setToken token) { s with cancelled := token :: s.cancelled }

lemma resolve_cases {id : Uuid} {allow : Bool} {u : UnlockRequests} :
    ((u.resolve id allow).1 ≠ .ok () ∧ (u.resolve id allow).2 = u) ∨
      ∃ st, u.state = some st ∧ st.request.id = id ∧ st.decision = none ∧
        u.resolve id allow = (.ok (), { u with
          state := some { st with
            decision := some (if allow then .ok () else .error .approvalDenied) } }) := by
  unfold UnlockRequests.resolve
  split
  · exact .inl ⟨by simp, rfl⟩
  · next st hst =>
    split
    · exact .inl ⟨by simp, rfl⟩
    · next hgood =>
      rw [not_or, not_not] at hgood
      exact .inr ⟨st, hst, hgood.1, by simpa using hgood.2, rfl⟩

lemma free_of_guard {s : System} {t u : System}
    (h : (if s.holder.isSome then none else some t) = some u) : s.holder = none ∧ u = t := by
  split at h
  · cases h
  · next hfree =>
    cases h
    exact ⟨by simpa using hfree, rfl⟩

/-- **What an event can make of the system.** -/
theorem apply_move {s s' : System} {e : Event} (h : s.apply e = some s') : Move s e s' := by
  cases e with
  | epoch =>
    cases h
    exact .nothing (.inl rfl) (.inl rfl)
  | pending =>
    obtain ⟨hfree, rfl⟩ := free_of_guard h
    exact .nothing (.inr (.inl rfl)) (.inr hfree)
  | resolve id allow =>
    obtain ⟨hfree, rfl⟩ := free_of_guard h
    rcases @resolve_cases id allow s.requests with ⟨hfailed, hsame⟩ | ⟨st, hst, hid, hopen, hok⟩
    · rw [hsame]
      exact .nothing (.inr (.inr ⟨id, allow, rfl, hfailed⟩)) (.inr hfree)
    · rw [hok]
      exact .answer hst hid hopen hfree
  | beginCancel =>
    obtain ⟨hfree, rfl⟩ := free_of_guard h
    exact .beginCancel hfree
  | endCancel =>
    simp only [System.apply] at h
    split at h
    · next hheld =>
      cases h
      exact .endCancel hheld
    · cases h
  | call w wait =>
    simp only [System.apply] at h
    split at h
    · cases h
    · next hfresh =>
      cases h
      exact .call (by simpa using hfresh)
  | register w id =>
    simp only [System.apply] at h
    split at h
    · next wait hw =>
      split at h
      · next hstage =>
        obtain ⟨hfree, rfl⟩ := free_of_guard h
        unfold System.register
        unfold UnlockRequests.register
        by_cases hepoch : wait.epoch ≠ s.requests.epoch
        · rw [if_pos hepoch]
          exact .refused hw hstage hfree
        · rw [if_neg hepoch]
          by_cases hbusy : s.requests.state.isSome
          · rw [if_pos hbusy]
            exact .refused hw hstage hfree
          · rw [if_neg hbusy]
            exact .register hw hstage hfree (not_not.mp hepoch) (by simpa using hbusy)
      · cases h
    · cases h
  | look w =>
    simp only [System.apply] at h
    split at h
    · next wait hw =>
      split at h
      · next id hstage =>
        obtain ⟨hfree, rfl⟩ := free_of_guard h
        unfold System.look
        split
        · next hset => exact .abandon hw hstage hfree hset
        · next hunset => exact .look hw hstage hfree hunset
      · cases h
    · cases h
  | take w late =>
    simp only [System.apply] at h
    split at h
    · next wait hw =>
      split at h
      · next id hstage =>
        cases h
        unfold System.take
        split
        · exact .take hw hstage (.inl rfl)
        · split
          · next decision hd =>
            obtain ⟨st, hst, hd⟩ := Option.bind_eq_some_iff.mp hd
            exact .take hw hstage (.inr ⟨st, hst, hd⟩)
          · exact .sleep hw hstage
      · cases h
    · cases h
  | setToken token =>
    cases h
    exact .setToken

/-! ### The slot -/

/-- The call has its request in the slot. -/
def System.Has (s : System) (w : ℕ) (id : Uuid) : Prop :=
  ∃ wait, s.waits w = some wait ∧ wait.stage.registered = some id

section SetWait

variable {s : System} {w v : ℕ} {wait : WaitCall} {stage : WaitStage} {id : Uuid}

@[simp] lemma setWait_requests : (s.setWait w wait stage).requests = s.requests := rfl

@[simp] lemma setWait_holder : (s.setWait w wait stage).holder = s.holder := rfl

@[simp] lemma setWait_self : (s.setWait w wait stage).waits w = some { wait with stage := stage } :=
  Function.update_self ..

lemma setWait_other (h : v ≠ w) : (s.setWait w wait stage).waits v = s.waits v :=
  Function.update_of_ne h ..

lemma has_setWait : (s.setWait w wait stage).Has v id ↔
    v = w ∧ stage.registered = some id ∨ v ≠ w ∧ s.Has v id := by
  by_cases hv : v = w
  · subst hv
    simp [System.Has]
  · simp [System.Has, setWait_other hv, hv]

end SetWait

/-- The slot holds the request of the one call that has registered, and a call that has looked at its
token is inside the mutex. -/
structure SlotInv (s : System) : Prop where
  exclusive : Exclusive s.requests.state.isSome fun w => ∃ id, s.Has w id
  slot : ∀ w id, s.Has w id → ∃ st, s.requests.state = some st ∧ st.request.id = id
  owner : ∀ st, s.requests.state = some st → ∃ w, s.Has w st.request.id
  held : ∀ w wait id, s.waits w = some wait → wait.stage = .looked id → s.holder = some (.waiter w)

lemma slotInv_initial : SlotInv {} := by
  have hnone : ∀ w id, ¬ System.Has {} w id := by
    rintro w id ⟨wait, h, -⟩
    cases h
  refine ⟨⟨?_, ?_⟩, fun w id h => absurd h (hnone w id), fun st h => ?_, fun w wait id h => ?_⟩
  · rintro w ⟨id, h⟩
    exact absurd h (hnone w id)
  · rintro w v ⟨id, h⟩
    exact absurd h (hnone w id)
  · cases h
  · cases h

/-- The slot keeps its request, and every call its part in it. -/
lemma SlotInv.frame {s s' : System} (h : SlotInv s) (hhas : ∀ w id, s'.Has w id ↔ s.Has w id)
    (hslot : s'.requests.state.map (·.request.id) = s.requests.state.map (·.request.id))
    (hheld : ∀ w wait id, s'.waits w = some wait → wait.stage = .looked id →
      s'.holder = some (.waiter w)) : SlotInv s' := by
  have hsome : s'.requests.state.isSome = s.requests.state.isSome := by
    rw [← Option.isSome_map (f := fun st : UnlockState => st.request.id), hslot, Option.isSome_map]
  refine ⟨?_, fun w id hw => ?_, fun st hst => ?_, hheld⟩
  · rw [hsome]
    refine h.exclusive.keep ?_
    rintro w ⟨id, hw⟩
    exact ⟨id, (hhas w id).mp hw⟩
  · obtain ⟨st, hst, rfl⟩ := h.slot w id ((hhas w id).mp hw)
    rw [hst] at hslot
    obtain ⟨st', hst', hid⟩ := Option.map_eq_some_iff.mp hslot
    exact ⟨st', hst', hid⟩
  · rw [hst] at hslot
    obtain ⟨st₀, hst₀, hid⟩ := Option.map_eq_some_iff.mp hslot.symm
    obtain ⟨w, hw⟩ := h.owner st₀ hst₀
    rw [hid] at hw
    exact ⟨w, (hhas w _).mpr hw⟩

/-- A call returns, and the slot is empty. -/
lemma SlotInv.returned {s : System} {w : ℕ} {wait : WaitCall} {id id' : Uuid}
    {result : Except LadonError Unit} (h : SlotInv s) (holder : Option Holder) (hw : s.Has w id)
    (hfree : ∀ v wait' id, v ≠ w → s.waits v = some wait' → wait'.stage ≠ .looked id) :
    SlotInv ({ s with requests := s.requests.clear, holder := holder }.setWait w wait
      (.returned (some id') result)) := by
  have hnone : ∀ v id, ¬ ({ s with requests := s.requests.clear, holder := holder }.setWait w wait
      (.returned (some id') result)).Has v id := by
    intro v id₁ hv
    rcases has_setWait.mp hv with ⟨-, hv⟩ | ⟨hne, hv⟩
    · cases hv
    · exact hne (h.exclusive.unique v w ⟨_, hv⟩ ⟨_, hw⟩)
  refine ⟨⟨?_, ?_⟩, fun v id₁ hv => absurd hv (hnone v id₁), fun st hst => ?_, ?_⟩
  · rintro v ⟨id₁, hv⟩
    exact absurd hv (hnone v id₁)
  · rintro v _ ⟨id₁, hv⟩
    exact absurd hv (hnone v id₁)
  · cases hst
  · intro v wait' id₁ hv hstage
    by_cases hvw : v = w
    · subst hvw
      rw [setWait_self] at hv
      cases hv
      cases hstage
    · rw [setWait_other hvw] at hv
      exact absurd hstage (hfree v wait' id₁ hvw hv)

lemma SlotInv.step {s s' : System} {e : Event} (h : SlotInv s) (hmove : Move s e s') : SlotInv s' := by
  -- outside of their sections calls have not looked
  have hout : s.holder = none → ∀ v wait id, s.waits v = some wait → wait.stage ≠ .looked id := by
    intro hfree v wait id hv hstage
    rw [h.held v wait id hv hstage] at hfree
    cases hfree
  have hothers : ∀ {w : ℕ} {wait : WaitCall} {id : Uuid}, s.waits w = some wait →
      wait.stage = .looked id → ∀ v wait' id, v ≠ w → s.waits v = some wait' →
      wait'.stage ≠ .looked id := by
    intro w wait id hw hstage v wait' id' hne hv hstage'
    have h1 := h.held w wait id hw hstage
    rw [h.held v wait' id' hv hstage'] at h1
    cases h1
    exact hne rfl
  cases hmove with
  | nothing => exact h
  | answer hslot hid hopen hfree =>
    refine h.frame (fun _ _ => Iff.rfl) (by rw [hslot]; rfl) fun w wait id hw hstage => ?_
    exact absurd hstage (hout hfree w wait id hw)
  | beginCancel hfree =>
    refine h.frame (fun _ _ => Iff.rfl) rfl fun w wait id hw hstage => ?_
    exact absurd hstage (hout hfree w wait id hw)
  | endCancel hheld =>
    refine h.frame (fun _ _ => Iff.rfl) ?_ fun w wait id hw hstage => ?_
    · simp only [UnlockRequests.cancelRequest, Option.map_map]
      rfl
    · rw [h.held w wait id hw hstage] at hheld
      cases hheld
  | @call w wait hfresh =>
    refine h.frame (fun v id => ?_) rfl fun v wait' id hv hstage => ?_
    · rw [has_setWait]
      by_cases hvw : v = w
      · subst hvw
        simp [System.Has, hfresh, WaitStage.registered]
      · simp [hvw]
    · by_cases hvw : v = w
      · subst hvw
        rw [setWait_self] at hv
        cases hv
        cases hstage
      · rw [setWait_other hvw] at hv
        exact h.held v wait' id hv hstage
  | @refused w id wait error hknown hstage =>
    refine h.frame (fun v id' => ?_) rfl fun v wait' id' hv hstage' => ?_
    · rw [has_setWait]
      by_cases hvw : v = w
      · subst hvw
        simp [System.Has, hknown, hstage, WaitStage.registered]
      · simp [hvw]
    · by_cases hvw : v = w
      · subst hvw
        rw [setWait_self] at hv
        cases hv
        cases hstage'
      · rw [setWait_other hvw] at hv
        exact h.held v wait' id' hv hstage'
  | @register w id wait hknown hstage hfree hepoch hempty =>
    have hnone : ∀ v id, ¬ s.Has v id := by
      intro v id' hv
      obtain ⟨st, hst, -⟩ := h.slot v id' hv
      rw [hempty] at hst
      cases hst
    refine ⟨?_, fun v id' hv => ?_, fun st hst => ?_, fun v wait' id' hv hstage' => ?_⟩
    · have hex := h.exclusive
      rw [hempty] at hex
      refine hex.acquire w ?_
      rintro v ⟨id', hv⟩
      rcases has_setWait.mp hv with ⟨rfl, -⟩ | ⟨-, hv⟩
      · exact .inl rfl
      · exact .inr ⟨id', hv⟩
    · rcases has_setWait.mp hv with ⟨-, hv⟩ | ⟨-, hv⟩
      · cases hv
        exact ⟨_, rfl, rfl⟩
      · exact absurd hv (hnone v id')
    · cases hst
      exact ⟨w, has_setWait.mpr (.inl ⟨rfl, rfl⟩)⟩
    · by_cases hvw : v = w
      · subst hvw
        rw [setWait_self] at hv
        cases hv
        cases hstage'
      · rw [setWait_other hvw] at hv
        exact absurd hstage' (hout hfree v wait' id' hv)
  | @abandon w id wait hknown hstage hfree =>
    refine h.returned s.holder ⟨wait, hknown, by rw [hstage]; rfl⟩ fun v wait' id' _ hv => ?_
    exact hout hfree v wait' id' hv
  | @look w id wait hknown hstage hfree hunset =>
    refine h.frame (fun v id' => ?_) rfl fun v wait' id' hv hstage' => ?_
    · rw [has_setWait]
      by_cases hvw : v = w
      · subst hvw
        simp [System.Has, hknown, hstage, WaitStage.registered]
      · simp only [hvw, false_and, ne_eq, not_false_eq_true, true_and, false_or]
        rfl
    · by_cases hvw : v = w
      · subst hvw
        rfl
      · rw [setWait_other hvw] at hv
        exact absurd hstage' (hout hfree v wait' id' hv)
  | @take w late id wait result hknown hstage hdecided =>
    exact h.returned none ⟨wait, hknown, by rw [hstage]; rfl⟩ (hothers hknown hstage)
  | @sleep w late id wait hknown hstage =>
    refine h.frame (fun v id' => ?_) rfl fun v wait' id' hv hstage' => ?_
    · rw [has_setWait]
      by_cases hvw : v = w
      · subst hvw
        simp [System.Has, hknown, hstage, WaitStage.registered]
      · simp only [hvw, false_and, ne_eq, not_false_eq_true, true_and, false_or]
        rfl
    · by_cases hvw : v = w
      · subst hvw
        rw [setWait_self] at hv
        cases hv
        cases hstage'
      · rw [setWait_other hvw] at hv
        exact absurd hstage' (hothers hknown hstage v wait' id' hvw hv)
  | setToken => exact h.frame (fun _ _ => Iff.rfl) rfl h.held

/-! ### The history of a request -/

/-- What an event does to a request that stays in the slot. -/
inductive SlotMove (s s' : System) (e : Event) (id : Uuid) (st : UnlockState) : UnlockState → Prop
  | keep (unresolved : ∀ allow, e = .resolve id allow → (s.requests.resolve id allow).1 ≠ .ok ())
      (uncancelled : e ≠ .endCancel)
      (still : s'.holder ≠ some .canceller → s.holder ≠ some .canceller ∧ e ≠ .beginCancel) :
      SlotMove s s' e id st st
  | answer {allow : Bool} (event : e = .resolve id allow) (open' : st.decision = none)
      (free : s.holder = none) (ok : (s.requests.resolve id allow).1 = .ok ()) : SlotMove s s' e id st
        { st with decision := some (if allow then .ok () else .error .approvalDenied) }
  | cancel : SlotMove s s' e id st { st with decision := some (.error .approvalCancelled) }

/-- A request in the slot has just been put there, or was there before. -/
lemma slot_before {s s' : System} {e : Event} {w : ℕ} {wait' : WaitCall} {id : Uuid}
    {st' : UnlockState} (hinv : SlotInv s) (hmove : Move s e s') (hw : s'.waits w = some wait')
    (hid : wait'.stage.registered = some id) (hst : s'.requests.state = some st') :
    (e = .register w id ∧ s.waits w = some { wait' with stage := .called } ∧ s.holder = none ∧
        wait'.epoch = s.requests.epoch ∧ s.requests.state = none ∧ s'.holder = none ∧
        st'.decision = none) ∨
      ∃ wait st, s.waits w = some wait ∧ wait.stage.registered = some id ∧
        wait' = { wait with stage := wait'.stage } ∧ s.requests.state = some st ∧
        SlotMove s s' e id st st' := by
  have hsame : ∀ {wait : WaitCall}, s.waits w = some wait → wait.stage.registered = some id →
      ∃ st, s.requests.state = some st ∧ st.request.id = id :=
    fun hw hreg => hinv.slot w id ⟨_, hw, hreg⟩
  cases hmove with
  | nothing h =>
    refine .inr ⟨wait', st', hw, hid, rfl, hst, .keep ?_ ?_ ?_⟩
    · rintro allow rfl
      rcases h with h | h | ⟨id', allow', h, hfailed⟩
      · cases h
      · cases h
      · cases h
        exact hfailed
    · rcases h with h | h | ⟨id', allow', h, -⟩ <;> rw [h] <;> simp
    · intro hc
      refine ⟨hc, ?_⟩
      rcases h with h | h | ⟨id', allow', h, -⟩ <;> rw [h] <;> simp
  | answer hslot hmatch hopen hfree =>
    obtain ⟨st, hst₀, hid₀⟩ := hsame hw hid
    rw [hslot] at hst₀
    cases hst₀
    cases hst
    refine .inr ⟨wait', _, hw, hid, rfl, hslot, ?_⟩
    exact .answer (by rw [← hmatch, hid₀]) hopen hfree
      (by simp [UnlockRequests.resolve, hslot, hid₀, hopen])
  | beginCancel hfree =>
    exact .inr ⟨wait', st', hw, hid, rfl, hst, .keep (by simp) (by simp) (by simp)⟩
  | endCancel hheld =>
    obtain ⟨st, hst₀, -⟩ := hsame hw hid
    simp only [UnlockRequests.cancelRequest, hst₀, Option.map_some] at hst
    cases hst
    exact .inr ⟨wait', st, hw, hid, rfl, hst₀, .cancel⟩
  | @call v wait hfresh =>
    by_cases hwv : w = v
    · subst hwv
      rw [setWait_self] at hw
      cases hw
      cases hid
    · rw [setWait_other hwv] at hw
      exact .inr ⟨wait', st', hw, hid, rfl, hst, .keep (by simp) (by simp) fun hc => ⟨hc, by simp⟩⟩
  | @refused v id' wait error hknown hstage =>
    by_cases hwv : w = v
    · subst hwv
      rw [setWait_self] at hw
      cases hw
      cases hid
    · rw [setWait_other hwv] at hw
      exact .inr ⟨wait', st', hw, hid, rfl, hst, .keep (by simp) (by simp) fun hc => ⟨hc, by simp⟩⟩
  | @register v id' wait hknown hstage hfree hepoch hempty =>
    by_cases hwv : w = v
    · subst hwv
      rw [setWait_self] at hw
      cases hw
      cases hid
      cases hst
      refine .inl ⟨rfl, ?_, hfree, hepoch, hempty, hfree, rfl⟩
      rw [hknown, ← hstage]
    · rw [setWait_other hwv] at hw
      obtain ⟨st, hst₀, -⟩ := hsame hw hid
      rw [hempty] at hst₀
      cases hst₀
  | abandon => cases hst
  | @look v id' wait hknown hstage hfree hunset =>
    by_cases hwv : w = v
    · subst hwv
      rw [setWait_self] at hw
      cases hw
      cases hid
      refine .inr ⟨wait, st', hknown, by rw [hstage]; rfl, rfl, hst, .keep (by simp) (by simp) ?_⟩
      exact fun _ => ⟨by rw [hfree]; simp, by simp⟩
    · rw [setWait_other hwv] at hw
      refine .inr ⟨wait', st', hw, hid, rfl, hst, .keep (by simp) (by simp) ?_⟩
      exact fun _ => ⟨by rw [hfree]; simp, by simp⟩
  | take => cases hst
  | @sleep v late id' wait hknown hstage =>
    have hheld := hinv.held v wait id' hknown hstage
    by_cases hwv : w = v
    · subst hwv
      rw [setWait_self] at hw
      cases hw
      cases hid
      refine .inr ⟨wait, st', hknown, by rw [hstage]; rfl, rfl, hst, .keep (by simp) (by simp) ?_⟩
      exact fun _ => ⟨by rw [hheld]; simp, by simp⟩
    · rw [setWait_other hwv] at hw
      refine .inr ⟨wait', st', hw, hid, rfl, hst, .keep (by simp) (by simp) ?_⟩
      exact fun _ => ⟨by rw [hheld]; simp, by simp⟩
  | setToken =>
    exact .inr ⟨wait', st', hw, hid, rfl, hst, .keep (by simp) (by simp) fun hc => ⟨hc, by simp⟩⟩

/-- What has happened to a request since it was put into the slot. -/
structure Since (s : System) (id : Uuid) (st : UnlockState) (m : List Occurrence) : Prop where
  unresolved : st.decision = none → ∀ o ∈ m, ∀ allow, ¬ o.Resolves id allow
  uncancelled : st.decision ≠ some (.error .approvalCancelled) → ∀ o ∈ m, o.event ≠ .endCancel
  still : st.decision ≠ some (.error .approvalCancelled) → s.holder ≠ some .canceller →
    ∀ o ∈ m, o.event ≠ .beginCancel
  allowed : st.decision = some (.ok ()) → ∃ o ∈ m, o.Resolves id true
  unreturned : ∀ o ∈ m, ∀ w result, ¬ o.Returns w id result

lemma Since.step {s s' : System} {e : Event} {id : Uuid} {st st' : UnlockState}
    {m : List Occurrence} (h : Since s id st m) (hslot : SlotMove s s' e id st st')
    (hreturns : ∀ w result, ¬ Occurrence.Returns ⟨s, e⟩ w id result) :
    Since s' id st' (m ++ [⟨s, e⟩]) := by
  have hunreturned := forall_mem_snoc h.unreturned hreturns
  cases hslot with
  | keep hunresolved huncancelled hstill =>
    refine ⟨fun hd => forall_mem_snoc (h.unresolved hd) ?_,
      fun hd => forall_mem_snoc (h.uncancelled hd) huncancelled,
      fun hd hc => forall_mem_snoc (h.still hd (hstill hc).1) (hstill hc).2, fun hd => ?_, hunreturned⟩
    · rintro allow ⟨he, hok⟩
      exact hunresolved allow he hok
    · obtain ⟨o, ho, hresolves⟩ := h.allowed hd
      exact ⟨o, List.mem_append_left _ ho, hresolves⟩
  | @answer allow hevent hopen hfree hok =>
    have hd₀ : st.decision ≠ some (.error .approvalCancelled) := by simp [hopen]
    refine ⟨by simp, fun _ => forall_mem_snoc (h.uncancelled hd₀) (by simp [hevent]),
      fun _ _ => forall_mem_snoc (h.still hd₀ (by simp [hfree])) (by simp [hevent]), fun hd => ?_,
      hunreturned⟩
    cases allow with
    | true => exact ⟨_, List.mem_append_right _ List.mem_cons_self, hevent, hok⟩
    | false => simp at hd
  | cancel => exact ⟨by simp, by simp, by simp, by simp, hunreturned⟩

/-- An event that does not need the mutex. -/
def Event.lockFree : Event → Bool
  | .epoch | .call _ _ | .setToken _ => true
  | _ => false

/-- What the history says of the system. -/
structure HistoryInv (history : List Occurrence) (s : System) : Prop where
  slot : SlotInv s
  since : ∀ w wait id st, s.waits w = some wait → wait.stage.registered = some id →
    s.requests.state = some st → ∃ a r m, history = a ++ r :: m ∧ r.Registers w id ∧
      r.before.waits w = some { wait with stage := .called } ∧ r.before.requests.state = none ∧
      r.before.requests.epoch = wait.epoch ∧ Since s id st m
  looked : ∀ w wait id, s.waits w = some wait → wait.stage = .looked id →
    ∃ x l y, history = x ++ l :: y ∧ l.event = .look w ∧ wait.cancellation ∉ l.before.cancelled ∧
      ∀ o ∈ y, o.event.lockFree
  epoch : s.requests.epoch = history.countP Occurrence.advances % 2 ^ 64

/-- A call that has looked is still in its section, or has just entered it. -/
lemma looked_before {s s' : System} {e : Event} {w : ℕ} {wait' : WaitCall} {id : Uuid}
    (hinv : SlotInv s) (hmove : Move s e s') (hw : s'.waits w = some wait')
    (hstage : wait'.stage = .looked id) :
    e = .look w ∧ wait'.cancellation ∉ s.cancelled ∨
      s.waits w = some wait' ∧ e.lockFree := by
  have hheld : ∀ {wait : WaitCall}, s.waits w = some wait → wait.stage = .looked id →
      s.holder = some (.waiter w) := fun hw hstage => hinv.held w _ id hw hstage
  cases hmove with
  | nothing h hfree =>
    rcases hfree with rfl | hfree
    · exact .inr ⟨hw, rfl⟩
    · rw [hheld hw hstage] at hfree
      cases hfree
  | answer hslot hid hopen hfree =>
    rw [hheld hw hstage] at hfree
    cases hfree
  | beginCancel hfree =>
    rw [hheld hw hstage] at hfree
    cases hfree
  | endCancel hcancel =>
    rw [hheld hw hstage] at hcancel
    cases hcancel
  | @call v wait hfresh =>
    by_cases hwv : w = v
    · subst hwv
      rw [setWait_self] at hw
      cases hw
      cases hstage
    · rw [setWait_other hwv] at hw
      exact .inr ⟨hw, rfl⟩
  | @refused v id' wait error hknown hcalled hfree | @register v id' wait hknown hcalled hfree
  | @abandon v id' wait hknown hcalled hfree =>
    by_cases hwv : w = v
    · subst hwv
      rw [setWait_self] at hw
      cases hw
      cases hstage
    · rw [setWait_other hwv] at hw
      rw [hheld hw hstage] at hfree
      cases hfree
  | @look v id' wait hknown hwaiting hfree hunset =>
    by_cases hwv : w = v
    · subst hwv
      rw [setWait_self] at hw
      cases hw
      exact .inl ⟨rfl, hunset⟩
    · rw [setWait_other hwv] at hw
      rw [hheld hw hstage] at hfree
      cases hfree
  | @take v late id' wait result hknown hlooked | @sleep v late id' wait hknown hlooked =>
    have hv := hinv.held v wait id' hknown hlooked
    by_cases hwv : w = v
    · subst hwv
      rw [setWait_self] at hw
      cases hw
      cases hstage
    · rw [setWait_other hwv] at hw
      rw [hheld hw hstage] at hv
      cases hv
      exact absurd rfl hwv
  | setToken => exact .inr ⟨hw, rfl⟩

lemma epoch_step {s s' : System} {e : Event} {n : ℕ} (hmove : Move s e s')
    (h : s.requests.epoch = n % 2 ^ 64) :
    s'.requests.epoch = (n + if Occurrence.advances ⟨s, e⟩ then 1 else 0) % 2 ^ 64 := by
  cases hmove with
  | beginCancel =>
    change (s.requests.epoch + 1) % 2 ^ 64 = (n + 1) % 2 ^ 64
    rw [h, Nat.mod_add_mod]
  | nothing hnothing =>
    rcases hnothing with rfl | rfl | ⟨id, allow, rfl, -⟩ <;> exact h
  | _ => exact h

lemma HistoryInv.step {history : List Occurrence} {s s' : System} {e : Event}
    (h : HistoryInv history s) (happly : s.apply e = some s') :
    HistoryInv (history ++ [⟨s, e⟩]) s' := by
  have hmove := apply_move happly
  refine ⟨h.slot.step hmove, fun w wait id st hw hid hst => ?_, fun w wait id hw hstage => ?_, ?_⟩
  · rcases slot_before h.slot hmove hw hid hst with
      ⟨rfl, hw₀, hfree, hepoch, hempty, hfree', hopen⟩ | ⟨wait₀, st₀, hw₀, hid₀, hwait, hst₀, hslot⟩
    · refine ⟨history, ⟨s, .register w id⟩, [], rfl, ⟨rfl, _, hw₀, rfl, ?_⟩, hw₀, hempty, hepoch.symm, ?_⟩
      · simp [UnlockRequests.register, hepoch, hempty]
      · exact ⟨by simp, by simp, by simp, by simp [hopen], by simp⟩
    · obtain ⟨a, r, m, rfl, hr, hcalled, hempty, hepoch, hsince⟩ := h.since w wait₀ id st₀ hw₀ hid₀ hst₀
      refine ⟨a, r, m ++ [⟨s, e⟩], by simp, hr, ?_, hempty, ?_, hsince.step hslot ?_⟩
      · rw [hcalled, hwait]
      · rw [hepoch, hwait]
      · -- whoever returned with this identifier would no longer have it in the slot
        rintro v result ⟨waitv, hv, hreg, s'', happly', hreturned⟩
        have hvw := h.slot.exclusive.unique v w ⟨id, waitv, hv, hreg⟩ ⟨id, wait₀, hw₀, hid₀⟩
        subst hvw
        rw [happly] at happly'
        cases happly'
        rw [hw] at hreturned
        cases hreturned
        cases hid
  · rcases looked_before h.slot hmove hw hstage with ⟨rfl, hunset⟩ | ⟨hw₀, hlockFree⟩
    · exact ⟨history, _, [], rfl, rfl, hunset, by simp⟩
    · obtain ⟨x, l, y, rfl, hl, hunset, hy⟩ := h.looked w wait id hw₀ hstage
      exact ⟨x, l, y ++ [⟨s, e⟩], by simp, hl, hunset, forall_mem_snoc hy hlockFree⟩
  · rw [epoch_step hmove h.epoch, List.countP_append]
    simp [List.countP_cons]

lemma historyInv_run {history : List Occurrence} {s : System} (h : Run Step {} history s) :
    HistoryInv history s := by
  refine h.history_invariant (I := HistoryInv) ?_ ?_
  · exact ⟨slotInv_initial, fun _ _ _ _ h => (by cases h), fun _ _ _ h => (by cases h), rfl⟩
  · rintro history s o s' hinv hstep
    cases hstep with
    | mk happly => exact hinv.step happly

/-! ### Answers -/

/-- A call that returns well has found a decision that says so. -/
lemma returns_ok {s : System} {e : Event} {w : ℕ} {id : Uuid}
    (h : Occurrence.Returns ⟨s, e⟩ w id (.ok ())) :
    ∃ wait st, s.waits w = some wait ∧ wait.stage = .looked id ∧ s.requests.state = some st ∧
      st.decision = some (.ok ()) := by
  obtain ⟨wait, hw, hreg, s', happly, hreturned⟩ := h
  -- an event that leaves the call as it is does not return it
  have hsame : s.waits w = some { wait with stage := .returned (some id) (.ok ()) } → False := by
    intro h
    have hstage := congrArg WaitCall.stage (Option.some.inj (hw.symm.trans h))
    rw [hstage] at hreg
    cases hreg
  have hmove := apply_move happly
  cases hmove with
  | @call v wait' | @refused v _ wait' | @register v _ wait' | @abandon v _ wait' | @look v _ wait'
  | @sleep v _ _ wait' =>
    by_cases hwv : w = v
    · subst hwv
      rw [setWait_self] at hreturned
      cases congrArg WaitCall.stage (Option.some.inj hreturned)
    · rw [setWait_other hwv] at hreturned
      exact (hsame hreturned).elim
  | @take v late id' wait' result hknown hlooked hdecided =>
    by_cases hwv : w = v
    · subst hwv
      rw [setWait_self] at hreturned
      cases congrArg WaitCall.stage (Option.some.inj hreturned)
      rcases hdecided with hdecided | ⟨st, hst, hdecision⟩
      · cases hdecided
      · exact ⟨wait', st, hknown, hlooked, hst, hdecision⟩
    · rw [setWait_other hwv] at hreturned
      exact (hsame hreturned).elim
  | _ => exact (hsame hreturned).elim

lemma registeredId_of_registers {o : Occurrence} {w : ℕ} {id : Uuid} (h : o.Registers w id) :
    o.registeredId = some id := by
  obtain ⟨he, wait, hw, -, hok⟩ := h
  simp [Occurrence.registeredId, he, hw, hok]

/-- An identifier is not in the slot before it is registered for the only time. -/
lemma not_before {a m : List Occurrence} {r o : Occurrence} {s : System} {w : ℕ} {id : Uuid}
    {st : UnlockState} (hrun : Run Step {} (a ++ r :: m) s)
    (hfresh : ((a ++ r :: m).filterMap Occurrence.registeredId).Nodup) (hr : r.Registers w id)
    (ho : o ∈ a) (hst : o.before.requests.state = some st) (hid : st.request.id = id) : False := by
  obtain ⟨a₁, a₂, rfl⟩ := List.append_of_mem ho
  rw [List.append_assoc, List.cons_append] at hrun
  obtain ⟨-, hbefore, -, -⟩ := cut hrun
  have hinv := historyInv_run hbefore
  obtain ⟨v, wait, hv, hreg⟩ := hinv.slot.owner st hst
  obtain ⟨b, r', m', rfl, hr', -⟩ := hinv.since v wait st.request.id st hv hreg hst
  have h1 := registeredId_of_registers hr
  have h2 := registeredId_of_registers hr'
  rw [hid] at h2
  rw [List.filterMap_append] at hfresh
  refine (List.nodup_append.mp hfresh).2.2 id ?_ id ?_ rfl
  · exact List.mem_filterMap.mpr ⟨r', by simp, h2⟩
  · exact List.mem_filterMap.mpr ⟨r, by simp, h1⟩

/-- The request in the slot: where it was registered, and what has happened since. -/
lemma origin {history : List Occurrence} {s : System} {st : UnlockState}
    (hrun : Run Step {} history s) (hst : s.requests.state = some st) :
    ∃ w a r m, history = a ++ r :: m ∧ r.Registers w st.request.id ∧
      r.before.requests.state = none ∧ Since s st.request.id st m := by
  have hinv := historyInv_run hrun
  obtain ⟨w, wait, hw, hreg⟩ := hinv.slot.owner st hst
  obtain ⟨a, r, m, heq, hr, -, hempty, -, hsince⟩ := hinv.since w wait st.request.id st hw hreg hst
  exact ⟨w, a, r, m, heq, hr, hempty, hsince⟩

/-- Whoever returns has had its request in the slot. -/
lemma slot_of_returns {before : List Occurrence} {o : Occurrence} {w : ℕ} {id : Uuid}
    {result : Except LadonError Unit} (hrun : Run Step {} before o.before)
    (h : o.Returns w id result) : ∃ st, o.before.requests.state = some st ∧ st.request.id = id := by
  obtain ⟨wait, hw, hreg, -⟩ := h
  exact (historyInv_run hrun).slot.slot w id ⟨wait, hw, hreg⟩

/-- A request that is still in the slot has not been answered, cancelled or returned from before. -/
lemma untouched {before : List Occurrence} {s : System} {st : UnlockState}
    (hrun : Run Step {} before s) (hfresh : (before.filterMap Occurrence.registeredId).Nodup)
    (hst : s.requests.state = some st) :
    ∀ o ∈ before, (∀ w result, ¬ o.Returns w st.request.id result) ∧
      (st.decision = none → (∀ allow, ¬ o.Resolves st.request.id allow) ∧ ¬ o.Cancels st.request.id) := by
  obtain ⟨w, a, r, m, rfl, hr, hempty, hsince⟩ := origin hrun hst
  intro o ho
  -- before its registration the identifier was in nobody's slot
  have hold : o ∈ a ++ [r] → ∀ st', o.before.requests.state = some st' →
      st'.request.id = st.request.id → False := by
    intro ho st' hst' hid
    rcases List.mem_append.mp ho with ho | ho
    · exact not_before hrun hfresh hr ho hst' hid
    · rw [List.mem_singleton.mp ho, hempty] at hst'
      cases hst'
  have hwhere : o ∈ a ++ [r] ∨ o ∈ m := by simpa [or_assoc] using ho
  refine ⟨fun v result hret => ?_, fun hopen => ⟨fun allow hres => ?_, fun hcan => ?_⟩⟩
  · rcases hwhere with ho' | ho'
    · obtain ⟨b, c, heq⟩ := List.append_of_mem ho
      rw [heq] at hrun
      obtain ⟨-, hb, -⟩ := cut hrun
      obtain ⟨st', hst', hid⟩ := slot_of_returns hb hret
      rw [← heq] at hrun
      exact hold ho' st' hst' hid
    · exact hsince.unreturned o ho' v result hret
  · rcases hwhere with ho' | ho'
    · rcases @resolve_cases st.request.id allow o.before.requests with ⟨hfailed, -⟩ | ⟨st', hst', hid, -⟩
      · exact hfailed hres.2
      · exact hold ho' st' hst' hid
    · exact hsince.unresolved hopen o ho' allow hres
  · obtain ⟨hevent, st', hst', hid⟩ := hcan
    rcases hwhere with ho' | ho'
    · exact hold ho' st' hst' hid
    · exact hsince.uncancelled (by simp [hopen]) o ho' hevent

/-- A good return: the request that this call registered was allowed, nothing was cancelled since the
epoch was read, and the section in which the decision was found began with the token unset. -/
structure Answered (before : List Occurrence) (w : ℕ) (id : Uuid) (wait : WaitCall) : Prop where
  allowed : ∃ a r m, before = a ++ r :: m ∧ r.Registers w id ∧ (∃ o ∈ m, o.Resolves id true) ∧
    ∀ o ∈ m, o.event ≠ .beginCancel ∧ o.event ≠ .endCancel
  uncancelled : ∀ a e m, before = a ++ e :: m → e.event = .epoch →
    e.before.requests.epoch = wait.epoch → ∀ o ∈ m, o.event ≠ .beginCancel
  unset : ∃ a l m, before = a ++ l :: m ∧ l.event = .look w ∧
    wait.cancellation ∉ l.before.cancelled ∧ ∀ o ∈ m, o.event.lockFree

lemma countP_advances_eq_zero {m : List Occurrence} (h : m.countP Occurrence.advances = 0) :
    ∀ o ∈ m, o.event ≠ .beginCancel := by
  intro o ho he
  refine List.countP_eq_zero.mp h o ho ?_
  simp [Occurrence.advances, he]

lemma countP_advances_of_forall {m : List Occurrence} (h : ∀ o ∈ m, o.event ≠ .beginCancel) :
    m.countP Occurrence.advances = 0 := by
  refine List.countP_eq_zero.mpr fun o ho hadv => h o ho ?_
  unfold Occurrence.advances at hadv
  split at hadv
  · assumption
  · cases hadv

lemma answered_of_returns {before : List Occurrence} {o : Occurrence} {w : ℕ} {id : Uuid}
    {wait : WaitCall} (hrun : Run Step {} before o.before)
    (hfew : before.countP Occurrence.advances < 2 ^ 64) (hw : o.before.waits w = some wait)
    (h : o.Returns w id (.ok ())) : Answered before w id wait := by
  have hinv := historyInv_run hrun
  obtain ⟨wait', st, hw', hlooked, hst, hok⟩ := returns_ok h
  rw [hw] at hw'
  cases hw'
  have hheld := hinv.slot.held w wait id hw hlooked
  have hreg : wait.stage.registered = some id := by rw [hlooked]; rfl
  obtain ⟨a, r, m, rfl, hr, -, -, hepoch, hsince⟩ := hinv.since w wait id st hw hreg hst
  have hdecision : st.decision ≠ some (.error .approvalCancelled) := by simp [hok]
  have hstill := hsince.still hdecision (by simp [hheld])
  refine ⟨⟨a, r, m, rfl, hr, hsince.allowed hok, fun o' ho' => ?_⟩, ?_, hinv.looked w wait id hw hlooked⟩
  · exact ⟨hstill o' ho', hsince.uncancelled hdecision o' ho'⟩
  · intro b e m' heq _ hread
    -- the epoch has been the same at the reading and at the registration, and does not come round
    obtain ⟨-, hb, -⟩ := cut (heq ▸ hrun)
    obtain ⟨-, ha, -⟩ := cut hrun
    have h1 := (historyInv_run hb).epoch
    have h2 := (historyInv_run ha).epoch
    have hra : Occurrence.advances r = false := by
      simp [Occurrence.advances, hr.1]
    have hcount : (a ++ r :: m).countP Occurrence.advances = a.countP Occurrence.advances := by
      rw [List.countP_append, List.countP_cons, countP_advances_of_forall hstill, hra]
      rfl
    have hcount' := congrArg (List.countP Occurrence.advances) heq
    rw [hcount, List.countP_append, List.countP_cons] at hcount'
    refine countP_advances_eq_zero ?_
    rw [hread, ← hepoch, h2] at h1
    rw [hcount] at hfew
    rw [Nat.mod_eq_of_lt (by omega), Nat.mod_eq_of_lt (by omega)] at h1
    omega

/-- **An unlock prompt is not satisfied by a stale answer.** -/
theorem waits_answered (history : List Occurrence) (s : System) (hrun : Run Step {} history s)
    (hfew : history.countP Occurrence.advances < 2 ^ 64)
    (hfresh : (history.filterMap Occurrence.registeredId).Nodup) :
    (∀ before o rest w id wait, history = before ++ o :: rest → o.before.waits w = some wait →
      o.Returns w id (.ok ()) → Answered before w id wait) ∧
    (∀ w w' id id', s.Has w id → s.Has w' id' → w = w') ∧
    (∀ before o rest id allow, history = before ++ o :: rest → o.Resolves id allow →
      ∀ o' ∈ before, (∀ allow', ¬ o'.Resolves id allow') ∧ ¬ o'.Cancels id ∧
        ∀ w result, ¬ o'.Returns w id result) ∧
    ∀ before o rest w id result, history = before ++ o :: rest → o.Returns w id result →
      (∀ o' ∈ rest, ∀ st, o'.before.requests.state = some st → st.request.id ≠ id) ∧
      ∀ st, s.requests.state = some st → st.request.id ≠ id := by
  refine ⟨?_, ?_, ?_, ?_⟩
  · rintro before o rest w id wait rfl hw hreturns
    obtain ⟨-, hbefore, -⟩ := cut hrun
    rw [List.countP_append] at hfew
    exact answered_of_returns hbefore (by omega) hw hreturns
  · intro w w' id id' hw hw'
    exact (historyInv_run hrun).slot.exclusive.unique w w' ⟨id, hw⟩ ⟨id', hw'⟩
  · rintro before o rest id allow rfl hresolves o' ho'
    obtain ⟨-, hbefore, -⟩ := cut hrun
    rw [List.filterMap_append] at hfresh
    rcases @resolve_cases id allow o.before.requests with ⟨hfailed, -⟩ | ⟨st, hst, rfl, hopen, -⟩
    · exact absurd hresolves.2 hfailed
    · obtain ⟨hreturns, hrest⟩ := untouched hbefore (List.nodup_append.mp hfresh).1 hst o' ho'
      exact ⟨(hrest hopen).1, (hrest hopen).2, hreturns⟩
  · rintro before o rest w id result rfl hreturns
    have ho : o ∈ before ++ o :: rest := by simp
    refine ⟨fun o' ho' st hst hid => ?_, fun st hst hid => ?_⟩
    · obtain ⟨b, c, rfl⟩ := List.append_of_mem ho'
      rw [← List.cons_append, ← List.append_assoc] at hrun hfresh
      obtain ⟨-, hb, -⟩ := cut hrun
      rw [List.filterMap_append] at hfresh
      refine (untouched hb (List.nodup_append.mp hfresh).1 hst o (by simp)).1 w result ?_
      rw [hid]
      exact hreturns
    · refine (untouched hrun hfresh hst o ho).1 w result ?_
      rw [hid]
      exact hreturns

/-! ### A call that is cancelled while it takes the decision -/

def promptId : Uuid := .filled 1

def promptCall : WaitCall := ⟨0, "MCP client", "run", 7, .called⟩

/-- A call waits, is allowed, and looks at its token once more. -/
def promptEvents : List Event :=
  [.epoch, .call 0 promptCall, .register 0 promptId, .look 0, .take 0 false, .resolve promptId true,
    .look 0]

def promptRun (more : List Event) : List Occurrence × System :=
  (play System.apply {} (promptEvents ++ more)).getD ([], {})

theorem waits_answered_prompt : ∃ before o s, Run Step {} (before ++ [o]) s ∧
    o.Returns 0 promptId (.ok ()) ∧ Answered before 0 promptId { promptCall with stage := .looked promptId } := by
  have hplay : play System.apply {} promptEvents = some (promptRun []) := rfl
  have hbefore := run_of_play hplay
  have hlast : (promptRun []).2.apply (.take 0 false) = some (promptRun [.take 0 false]).2 := rfl
  have hrun := hbefore.snoc (.mk hlast)
  have hreturns : Occurrence.Returns ⟨(promptRun []).2, .take 0 false⟩ 0 promptId (.ok ()) :=
    ⟨{ promptCall with stage := .looked promptId }, rfl, rfl, _, hlast, rfl⟩
  refine ⟨_, _, _, hrun, hreturns, ?_⟩
  exact (waits_answered _ _ hrun (by decide) (by decide)).1 _ _ [] 0 promptId _ rfl rfl hreturns

/-- The token is set between the two looks, and the call returns well. -/
theorem returns_with_token_set : ¬ ∀ (history : List Occurrence) (s : System),
    Run Step {} history s → history.countP Occurrence.advances < 2 ^ 64 →
    (history.filterMap Occurrence.registeredId).Nodup →
    ∀ before o rest w id wait, history = before ++ o :: rest → o.before.waits w = some wait →
      o.Returns w id (.ok ()) → wait.cancellation ∉ o.before.cancelled := by
  intro hall
  have hplay : play System.apply {} (promptEvents ++ [.setToken 7]) =
      some (promptRun [.setToken 7]) := rfl
  have hbefore := run_of_play hplay
  have hlast : (promptRun [.setToken 7]).2.apply (.take 0 false) =
      some (promptRun [.setToken 7, .take 0 false]).2 := rfl
  have hreturns : Occurrence.Returns ⟨(promptRun [.setToken 7]).2, .take 0 false⟩ 0 promptId (.ok ()) :=
    ⟨{ promptCall with stage := .looked promptId }, rfl, rfl, _, hlast, rfl⟩
  refine hall _ _ (hbefore.snoc (.mk hlast)) (by decide) (by decide) _ _ [] 0 promptId _ rfl rfl
    hreturns ?_
  exact List.mem_cons_self

end Ladon.UnlockRequest

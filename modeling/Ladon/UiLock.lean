import Ladon.UnlockRequest

/-!
The handshake with the desktop when the vault is locked from outside: a request gets a number, is
published once the vault is locked, and ends when the desktop has acknowledged it. Operations of the
desktop itself exclude requests, and one another.

Every section under the mutex is one step. A call that waits on the condition variable gives the mutex
back with nothing changed, so its waiting is that its step is not possible yet.
-/

namespace Ladon.UiLock

open Ladon.Error Ladon.UnlockRequest Ladon.Lib Ladon.Lib.Word Ladon.Lib.Machine

structure UiLockState where
  requested : ℕ := 0
  acknowledged : ℕ := 0
  ready : Option ℕ := none
  localOperation : Bool := false
  connected : Bool := false

structure UiLockCoordinator where
  unlockRequests : UnlockRequests
  state : UiLockState

namespace UiLockCoordinator

def new : UiLockCoordinator := ⟨{}, { connected := true }⟩

/-- Nothing as long as the call has to wait. -/
def beginRequest (c : UiLockCoordinator) : Option (Except LadonError ℕ × UiLockCoordinator) :=
  if (c.state.acknowledged < c.state.requested ∨ c.state.localOperation) ∧ c.state.connected then none
  else if ¬ c.state.connected then some (.error .endpointUnavailable, c)
  else match checkedAdd c.state.requested 1 with
    | none => some (.error .processFailure, c)
    | some requested =>
      some (.ok requested, ⟨c.unlockRequests.cancel, { c.state with requested := requested }⟩)

/-- Whether an operation has begun; it has not when a request is in progress. -/
def tryBeginLocalOperation (c : UiLockCoordinator) : Except LadonError Bool × UiLockCoordinator :=
  if ¬ c.state.connected then (.error .endpointUnavailable, c)
  else if c.state.acknowledged < c.state.requested then (.ok false, c)
  else if c.state.localOperation then (.error .busy, c)
  else (.ok true, { c with state := { c.state with localOperation := true } })

def waitBeginLocalOperation (c : UiLockCoordinator) :
    Option (Except LadonError Bool × UiLockCoordinator) :=
  if ¬ c.state.connected then some (.error .endpointUnavailable, c)
  else if c.state.acknowledged < c.state.requested then some (.ok false, c)
  else if ¬ c.state.localOperation then
    some (.ok true, { c with state := { c.state with localOperation := true } })
  else none

/-- The first section of `finish_request`. -/
def publish (requestId : ℕ) (c : UiLockCoordinator) : Except LadonError Unit × UiLockCoordinator :=
  if requestId ≠ c.state.requested ∨ requestId ≤ c.state.acknowledged then (.error .invalidRequest, c)
  else (.ok (), { c with state := { c.state with ready := some requestId } })

/-- The second section of `finish_request`. -/
def awaitAcknowledged (requestId : ℕ) (c : UiLockCoordinator) : Option (Except LadonError Unit) :=
  if c.state.acknowledged < requestId ∧ c.state.connected then none
  else if requestId ≤ c.state.acknowledged then some (.ok ())
  else some (.error .endpointUnavailable)

def pendingRequest (c : UiLockCoordinator) : Option ℕ :=
  if c.state.ready = some c.state.requested ∧ c.state.acknowledged < c.state.requested then
    some c.state.requested
  else none

def unlockBlocked (c : UiLockCoordinator) : Bool :=
  ¬ c.state.connected ∨ c.state.localOperation ∨ c.state.acknowledged < c.state.requested

def requestInProgress (c : UiLockCoordinator) : Bool := c.state.acknowledged < c.state.requested

def acknowledge (requestId : ℕ) (c : UiLockCoordinator) : Except LadonError Unit × UiLockCoordinator :=
  if requestId ≠ c.state.requested ∨ c.state.ready ≠ some requestId ∨
      requestId ≤ c.state.acknowledged then (.error .invalidRequest, c)
  else (.ok (), { c with state := { c.state with acknowledged := requestId, ready := none } })

def disconnect (c : UiLockCoordinator) : UiLockCoordinator :=
  ⟨c.unlockRequests.cancel, { c.state with connected := false }⟩

/-- A `UiLocalOperation` is dropped. -/
def dropLocalOperation (c : UiLockCoordinator) : UiLockCoordinator :=
  { c with state := { c.state with localOperation := false } }

end UiLockCoordinator

/-! ### Threads -/

/-- How far a call of `finish_request` has come. -/
inductive FinishStage
  | published (requestId : ℕ)
  | returned (requestId : ℕ) (result : Except LadonError Unit)

/-- The coordinator, the calls of `finish_request`, and who has a `UiLocalOperation`. -/
structure System where
  coordinator : UiLockCoordinator := .new
  finishes : ℕ → Option FinishStage := fun _ => none
  locals : ℕ → Bool := fun _ => false

inductive Event
  | beginRequest
  | publish (f : ℕ) (requestId : ℕ)
  | awaitAcknowledged (f : ℕ)
  | acknowledge (requestId : ℕ)
  | pendingRequest
  | unlockBlocked
  | requestInProgress
  | tryBeginLocalOperation (i : ℕ)
  | waitBeginLocalOperation (i : ℕ)
  | dropLocalOperation (i : ℕ)
  | disconnect

namespace System

/-- A thread gets an operation, if one has begun. -/
def withLocal (s : System) (i : ℕ) (outcome : Except LadonError Bool × UiLockCoordinator) : System :=
  match outcome with
  | (.ok true, c) => { s with coordinator := c, locals := Function.update s.locals i true }
  | (_, c) => { s with coordinator := c }

def apply (s : System) : Event → Option System
  | .beginRequest => s.coordinator.beginRequest.map fun outcome => { s with coordinator := outcome.2 }
  | .publish f requestId =>
    if (s.finishes f).isSome then none
    else match s.coordinator.publish requestId with
      | (.ok (), c) => some { s with
          coordinator := c, finishes := Function.update s.finishes f (some (.published requestId)) }
      | (.error e, c) => some { s with
          coordinator := c
          finishes := Function.update s.finishes f (some (.returned requestId (.error e))) }
  | .awaitAcknowledged f =>
    match s.finishes f with
    | some (.published requestId) =>
      (s.coordinator.awaitAcknowledged requestId).map fun result => { s with
        finishes := Function.update s.finishes f (some (.returned requestId result)) }
    | _ => none
  | .acknowledge requestId => some { s with coordinator := (s.coordinator.acknowledge requestId).2 }
  | .pendingRequest | .unlockBlocked | .requestInProgress => some s
  | .tryBeginLocalOperation i =>
    if s.locals i then none else some (s.withLocal i s.coordinator.tryBeginLocalOperation)
  | .waitBeginLocalOperation i =>
    if s.locals i then none else s.coordinator.waitBeginLocalOperation.map (s.withLocal i)
  | .dropLocalOperation i =>
    if s.locals i then some { s with
      coordinator := s.coordinator.dropLocalOperation, locals := Function.update s.locals i false }
    else none
  | .disconnect => some { s with coordinator := s.coordinator.disconnect }

end System

abbrev Occurrence := Machine.Occurrence System Event

abbrev Step := Machine.Step System.apply

namespace Occurrence

/-- A request gets its number. -/
def Issues (o : Occurrence) (requestId : ℕ) : Prop :=
  o.event = .beginRequest ∧ ∃ c, o.before.coordinator.beginRequest = some (.ok requestId, c)

/-- A request is published by a call of `finish_request`. -/
def Publishes (o : Occurrence) (f requestId : ℕ) : Prop :=
  o.event = .publish f requestId ∧ (o.before.coordinator.publish requestId).1 = .ok ()

def Acknowledges (o : Occurrence) (requestId : ℕ) : Prop :=
  o.event = .acknowledge requestId ∧ (o.before.coordinator.acknowledge requestId).1 = .ok ()

/-- A call of `finish_request` returns well. -/
def Finishes (o : Occurrence) (f requestId : ℕ) : Prop :=
  o.event = .awaitAcknowledged f ∧ o.before.finishes f = some (.published requestId) ∧
    o.before.coordinator.awaitAcknowledged requestId = some (.ok ())

/-- An operation of the desktop begins. -/
def BeginsLocal (o : Occurrence) (i : ℕ) : Prop :=
  o.event = .tryBeginLocalOperation i ∧ o.before.coordinator.tryBeginLocalOperation.1 = .ok true ∨
    o.event = .waitBeginLocalOperation i ∧
      ∃ c, o.before.coordinator.waitBeginLocalOperation = some (.ok true, c)

end Occurrence

/-! ### What an event does -/

lemma beginRequest_cases {c c' : UiLockCoordinator} {result : Except LadonError ℕ}
    (h : c.beginRequest = some (result, c')) :
    (∃ e, result = .error e ∧ c' = c) ∨
      c.state.requested ≤ c.state.acknowledged ∧ c.state.localOperation = false ∧
        c.state.connected = true ∧ result = .ok (c.state.requested + 1) ∧
        c'.state = { c.state with requested := c.state.requested + 1 } := by
  unfold UiLockCoordinator.beginRequest at h
  split at h
  · cases h
  · next hwait =>
    split at h
    · cases h
      exact .inl ⟨_, rfl, rfl⟩
    · next hconnected =>
      rw [not_not] at hconnected
      split at h
      · cases h
        exact .inl ⟨_, rfl, rfl⟩
      · next requested hadd =>
        cases h
        obtain ⟨rfl, -⟩ := checkedAdd_eq_some.mp hadd
        rw [not_and'] at hwait
        have hfree := hwait hconnected
        rw [not_or, not_lt, Bool.not_eq_true] at hfree
        exact .inr ⟨hfree.1, hfree.2, hconnected, rfl, rfl⟩

/-- An operation of the desktop begins only when nothing is in its way. -/
lemma tryBeginLocalOperation_cases (c : UiLockCoordinator) :
    (c.tryBeginLocalOperation.1 ≠ .ok true ∧ c.tryBeginLocalOperation.2 = c) ∨
      c.state.connected = true ∧ c.state.requested ≤ c.state.acknowledged ∧
        c.state.localOperation = false ∧ c.tryBeginLocalOperation =
          (.ok true, { c with state := { c.state with localOperation := true } }) := by
  unfold UiLockCoordinator.tryBeginLocalOperation
  split_ifs with h1 h2 h3
  · exact .inl ⟨by simp, rfl⟩
  · exact .inl ⟨by simp, rfl⟩
  · exact .inr ⟨h1, not_lt.mp h2, by simpa using h3, rfl⟩
  · exact .inl ⟨by simp, rfl⟩

lemma waitBeginLocalOperation_cases {c c' : UiLockCoordinator} {result : Except LadonError Bool}
    (h : c.waitBeginLocalOperation = some (result, c')) :
    (result ≠ .ok true ∧ c' = c) ∨
      c.state.connected = true ∧ c.state.requested ≤ c.state.acknowledged ∧
        c.state.localOperation = false ∧ result = .ok true ∧
        c' = { c with state := { c.state with localOperation := true } } := by
  unfold UiLockCoordinator.waitBeginLocalOperation at h
  split_ifs at h with h1 h2 h3
  · cases h
    exact .inl ⟨by simp, rfl⟩
  · cases h
    exact .inr ⟨h1, not_lt.mp h2, by simpa using h3, rfl, rfl⟩
  · cases h
    exact .inl ⟨by simp, rfl⟩

lemma publish_cases (c : UiLockCoordinator) (requestId : ℕ) :
    (∃ e, c.publish requestId = (.error e, c)) ∨
      requestId = c.state.requested ∧ c.state.acknowledged < requestId ∧
        c.publish requestId = (.ok (), { c with state := { c.state with ready := some requestId } }) := by
  unfold UiLockCoordinator.publish
  split_ifs with h
  · exact .inl ⟨_, rfl⟩
  · rw [not_or, not_not, not_le] at h
    exact .inr ⟨h.1, h.2, rfl⟩

lemma acknowledge_cases (c : UiLockCoordinator) (requestId : ℕ) :
    (∃ e, c.acknowledge requestId = (.error e, c)) ∨
      requestId = c.state.requested ∧ c.state.acknowledged < requestId ∧
        c.acknowledge requestId = (.ok (),
          { c with state := { c.state with acknowledged := requestId, ready := none } }) := by
  unfold UiLockCoordinator.acknowledge
  split_ifs with h
  · exact .inl ⟨_, rfl⟩
  · rw [not_or, not_or, not_not, not_not, not_le] at h
    exact .inr ⟨h.1, h.2.2, rfl⟩

lemma withLocal_of_ne {s : System} {i : ℕ} {outcome : Except LadonError Bool × UiLockCoordinator}
    (h : outcome.1 ≠ .ok true) : s.withLocal i outcome = { s with coordinator := outcome.2 } := by
  obtain ⟨result, c⟩ := outcome
  cases result with
  | error e => rfl
  | ok begun =>
    cases begun with
    | false => rfl
    | true => exact absurd rfl h

/-- What an event can make of the system. -/
inductive Move (s : System) : Event → System → Prop
  | same {e : Event} {s' : System} (state : s'.coordinator.state = s.coordinator.state)
      (locals : s'.locals = s.locals)
      (finishes : ∀ f id, s'.finishes f = some (.published id) → s.finishes f = some (.published id))
      (connected : e ≠ .disconnect) (unissued : ∀ id, ¬ Occurrence.Issues ⟨s, e⟩ id)
      (unacknowledged : ∀ id, ¬ Occurrence.Acknowledges ⟨s, e⟩ id)
      (unbegun : ∀ i, ¬ Occurrence.BeginsLocal ⟨s, e⟩ i) : Move s e s'
  | issue {c : UiLockCoordinator}
      (settled : s.coordinator.state.requested ≤ s.coordinator.state.acknowledged)
      (quiet : s.coordinator.state.localOperation = false)
      (connected : s.coordinator.state.connected = true)
      (next : c.state = { s.coordinator.state with requested := s.coordinator.state.requested + 1 })
      (issued : ∀ id, Occurrence.Issues ⟨s, .beginRequest⟩ id → id = s.coordinator.state.requested + 1) :
      Move s .beginRequest { s with coordinator := c }
  | publish {f id : ℕ} (current : id = s.coordinator.state.requested)
      (unacknowledged : s.coordinator.state.acknowledged < id)
      (publishes : Occurrence.Publishes ⟨s, .publish f id⟩ f id) :
      Move s (.publish f id) { s with
        coordinator := { s.coordinator with state := { s.coordinator.state with ready := some id } }
        finishes := Function.update s.finishes f (some (.published id)) }
  | acknowledge {id : ℕ} (current : id = s.coordinator.state.requested)
      (unacknowledged : s.coordinator.state.acknowledged < id)
      (acknowledges : Occurrence.Acknowledges ⟨s, .acknowledge id⟩ id) :
      Move s (.acknowledge id) { s with
        coordinator := { s.coordinator with
          state := { s.coordinator.state with acknowledged := id, ready := none } } }
  | beginLocal {e : Event} {i : ℕ}
      (event : e = .tryBeginLocalOperation i ∨ e = .waitBeginLocalOperation i)
      (connected : s.coordinator.state.connected = true)
      (settled : s.coordinator.state.requested ≤ s.coordinator.state.acknowledged)
      (quiet : s.coordinator.state.localOperation = false) :
      Move s e { s with
        coordinator := { s.coordinator with
          state := { s.coordinator.state with localOperation := true } }
        locals := Function.update s.locals i true }
  | dropLocal {i : ℕ} (held : s.locals i = true) : Move s (.dropLocalOperation i) { s with
      coordinator := s.coordinator.dropLocalOperation, locals := Function.update s.locals i false }
  | disconnect : Move s .disconnect { s with coordinator := s.coordinator.disconnect }

/-- **What an event can make of the system.** -/
theorem apply_move {s s' : System} {e : Event} (h : s.apply e = some s') : Move s e s' := by
  cases e with
  | beginRequest =>
    obtain ⟨⟨result, c⟩, hbegin, rfl⟩ := Option.map_eq_some_iff.mp h
    rcases beginRequest_cases hbegin with ⟨e, rfl, rfl⟩ | ⟨hsettled, hquiet, hconnected, rfl, hnext⟩
    · refine .same rfl rfl (fun _ _ h => h) (by simp) ?_ (by simp [Occurrence.Acknowledges])
        (by simp [Occurrence.BeginsLocal])
      rintro id ⟨-, c', hc'⟩
      rw [hbegin] at hc'
      cases hc'
    · refine .issue hsettled hquiet hconnected hnext ?_
      rintro id ⟨-, c', hc'⟩
      rw [hbegin] at hc'
      cases hc'
      rfl
  | publish f id =>
    simp only [System.apply] at h
    split at h
    · cases h
    · rcases publish_cases s.coordinator id with ⟨e, hpublish⟩ | ⟨hcurrent, hlt, hpublish⟩
      · rw [hpublish] at h
        cases h
        refine .same rfl rfl ?_ (by simp) (by simp [Occurrence.Issues])
          (by simp [Occurrence.Acknowledges]) (by simp [Occurrence.BeginsLocal])
        intro g id' hg
        by_cases hgf : g = f
        · subst hgf
          simp at hg
        · exact (Function.update_of_ne hgf ..).symm.trans hg
      · rw [hpublish] at h
        cases h
        exact .publish hcurrent hlt ⟨rfl, by rw [hpublish]⟩
  | awaitAcknowledged f =>
    simp only [System.apply] at h
    split at h
    · next requestId hf =>
      obtain ⟨result, -, rfl⟩ := Option.map_eq_some_iff.mp h
      refine .same rfl rfl ?_ (by simp) (by simp [Occurrence.Issues])
        (by simp [Occurrence.Acknowledges]) (by simp [Occurrence.BeginsLocal])
      intro g id' hg
      by_cases hgf : g = f
      · subst hgf
        simp at hg
      · exact (Function.update_of_ne hgf ..).symm.trans hg
    · cases h
  | acknowledge id =>
    cases h
    rcases acknowledge_cases s.coordinator id with ⟨e, hack⟩ | ⟨hcurrent, hlt, hack⟩
    · rw [hack]
      refine .same rfl rfl (fun _ _ h => h) (by simp) (by simp [Occurrence.Issues]) ?_
        (by simp [Occurrence.BeginsLocal])
      rintro id' ⟨hevent, hok⟩
      cases hevent
      dsimp only at hok
      rw [hack] at hok
      cases hok
    · rw [hack]
      exact .acknowledge hcurrent hlt ⟨rfl, by rw [hack]⟩
  | pendingRequest | unlockBlocked | requestInProgress =>
    cases h
    exact .same rfl rfl (fun _ _ h => h) (by simp) (by simp [Occurrence.Issues])
      (by simp [Occurrence.Acknowledges]) (by simp [Occurrence.BeginsLocal])
  | tryBeginLocalOperation i =>
    simp only [System.apply] at h
    split at h
    · cases h
    · cases h
      rcases tryBeginLocalOperation_cases s.coordinator with ⟨hfailed, hsame⟩ |
        ⟨hconnected, hsettled, hquiet, hbegin⟩
      · rw [withLocal_of_ne hfailed, hsame]
        refine .same rfl rfl (fun _ _ h => h) (by simp) (by simp [Occurrence.Issues])
          (by simp [Occurrence.Acknowledges]) ?_
        rintro j (⟨-, hok⟩ | ⟨hevent, -⟩)
        · exact hfailed hok
        · cases hevent
      · rw [hbegin]
        exact .beginLocal (.inl rfl) hconnected hsettled hquiet
  | waitBeginLocalOperation i =>
    simp only [System.apply] at h
    split at h
    · cases h
    · obtain ⟨⟨result, c⟩, hwait, rfl⟩ := Option.map_eq_some_iff.mp h
      rcases waitBeginLocalOperation_cases hwait with ⟨hfailed, rfl⟩ |
        ⟨hconnected, hsettled, hquiet, rfl, rfl⟩
      · rw [withLocal_of_ne hfailed]
        refine .same rfl rfl (fun _ _ h => h) (by simp) (by simp [Occurrence.Issues])
          (by simp [Occurrence.Acknowledges]) ?_
        rintro j (⟨hevent, -⟩ | ⟨-, c, hc⟩)
        · cases hevent
        · dsimp only at hc
          rw [hwait] at hc
          cases hc
          exact hfailed rfl
      · exact .beginLocal (.inr rfl) hconnected hsettled hquiet
  | dropLocalOperation i =>
    simp only [System.apply] at h
    split at h
    · next hheld =>
      cases h
      exact .dropLocal hheld
    · cases h
  | disconnect =>
    cases h
    exact .disconnect

/-! ### Runs -/

/-- Numbers follow one another, and operations of the desktop exclude requests and one another. -/
structure Settled (s : System) : Prop where
  lower : s.coordinator.state.acknowledged ≤ s.coordinator.state.requested
  upper : s.coordinator.state.requested ≤ s.coordinator.state.acknowledged + 1
  exclusive : Exclusive s.coordinator.state.localOperation fun i => s.locals i = true
  quiet : s.coordinator.state.localOperation = true →
    s.coordinator.state.requested ≤ s.coordinator.state.acknowledged

/-- What the history says of the system. -/
structure HistoryInv (history : List Occurrence) (s : System) : Prop where
  settled : Settled s
  issued : ∀ o ∈ history, ∀ id, o.Issues id → id ≤ s.coordinator.state.requested
  acknowledged : ∀ o ∈ history, ∀ id, o.Acknowledges id → id ≤ s.coordinator.state.acknowledged
  disconnected : (∃ o ∈ history, o.event = .disconnect) → s.coordinator.state.connected = false
  published : ∀ f id, s.finishes f = some (.published id) → id ≤ s.coordinator.state.requested ∧
    ∃ a p m, history = a ++ p :: m ∧ p.Publishes f id ∧
      (id ≤ s.coordinator.state.acknowledged → ∃ o ∈ m, o.Acknowledges id)

lemma Settled.step {s s' : System} {e : Event} (h : Settled s) (hmove : Move s e s') : Settled s' := by
  obtain ⟨hlower, hupper, hexclusive, hquiet⟩ := h
  cases hmove with
  | same hstate hlocals =>
    refine ⟨by rw [hstate]; exact hlower, by rw [hstate]; exact hupper, ?_, by rw [hstate]; exact hquiet⟩
    rw [hstate, hlocals]
    exact hexclusive
  | issue hsettled hfree hconnected hnext =>
    refine ⟨by rw [hnext]; exact Nat.le_succ_of_le hlower, ?_, by rw [hnext]; exact hexclusive, ?_⟩
    · rw [hnext]
      exact Nat.succ_le_succ hsettled
    · intro hop
      rw [hnext] at hop
      rw [show s.coordinator.state.localOperation = true from hop] at hfree
      cases hfree
  | publish => exact ⟨hlower, hupper, hexclusive, hquiet⟩
  | @acknowledge id hcurrent hlt =>
    refine ⟨hcurrent.le, ?_, hexclusive, fun _ => hcurrent.ge⟩
    dsimp only
    omega
  | @beginLocal e i hevent hconnected hsettled hfree =>
    refine ⟨hlower, hupper, ?_, fun _ => hsettled⟩
    rw [hfree] at hexclusive
    refine hexclusive.acquire i fun j hj => ?_
    by_cases hji : j = i
    · exact .inl hji
    · exact .inr ((Function.update_of_ne hji ..).symm.trans hj)
  | @dropLocal i hheld =>
    refine ⟨hlower, hupper, hexclusive.release hheld fun j hj => ?_, fun hop => (by cases hop)⟩
    by_cases hji : j = i
    · subst hji
      simp at hj
    · exact ⟨(Function.update_of_ne hji ..).symm.trans hj, hji⟩
  | disconnect => exact ⟨hlower, hupper, hexclusive, hquiet⟩

/-- A step that issues, acknowledges and publishes nothing and only raises the numbers. -/
lemma HistoryInv.plain {history : List Occurrence} {s s' : System} {e : Event}
    (h : HistoryInv history s) (hsettled : Settled s')
    (hrequested : s'.coordinator.state.requested = s.coordinator.state.requested)
    (hacknowledged : s'.coordinator.state.acknowledged = s.coordinator.state.acknowledged)
    (hconnected : e = .disconnect ∨ s.coordinator.state.connected = false →
      s'.coordinator.state.connected = false)
    (hfinishes : ∀ f id, s'.finishes f = some (.published id) → s.finishes f = some (.published id))
    (hissues : ∀ id, ¬ Occurrence.Issues ⟨s, e⟩ id)
    (hacknowledges : ∀ id, ¬ Occurrence.Acknowledges ⟨s, e⟩ id) :
    HistoryInv (history ++ [⟨s, e⟩]) s' := by
  refine ⟨hsettled, ?_, ?_, ?_, fun f id hf => ?_⟩
  · rw [hrequested]
    exact forall_mem_snoc h.issued fun id hid => absurd hid (hissues id)
  · rw [hacknowledged]
    exact forall_mem_snoc h.acknowledged fun id hid => absurd hid (hacknowledges id)
  · rintro ⟨o, ho, hevent⟩
    rcases List.mem_append.mp ho with ho | ho
    · exact hconnected (.inr (h.disconnected ⟨o, ho, hevent⟩))
    · rw [List.mem_singleton.mp ho] at hevent
      exact hconnected (.inl hevent)
  · rw [hrequested, hacknowledged]
    obtain ⟨hle, a, p, m, rfl, hp, hack⟩ := h.published f id (hfinishes f id hf)
    refine ⟨hle, a, p, m ++ [⟨s, e⟩], by simp, hp, fun hid => ?_⟩
    obtain ⟨o, ho, hacks⟩ := hack hid
    exact ⟨o, List.mem_append_left _ ho, hacks⟩

lemma HistoryInv.step {history : List Occurrence} {s s' : System} {e : Event}
    (h : HistoryInv history s) (hmove : Move s e s') : HistoryInv (history ++ [⟨s, e⟩]) s' := by
  have hsettled := h.settled.step hmove
  have hold : ∀ {e' : Event}, e' ≠ .disconnect → (∃ o ∈ history ++ [⟨s, e'⟩], o.event = .disconnect) →
      s.coordinator.state.connected = false := by
    rintro e' hne ⟨o, ho, hevent⟩
    rcases List.mem_append.mp ho with ho | ho
    · exact h.disconnected ⟨o, ho, hevent⟩
    · rw [List.mem_singleton.mp ho] at hevent
      exact absurd hevent hne
  cases hmove with
  | same hstate hlocals hfinishes hne hissues hacknowledges =>
    refine h.plain hsettled (by rw [hstate]) (by rw [hstate]) ?_ hfinishes hissues hacknowledges
    rw [hstate]
    exact fun hor => hor.resolve_left hne
  | @issue c hsettled' hfree hconnected hnext hissued =>
    have hrequested : c.state.requested = s.coordinator.state.requested + 1 := by rw [hnext]
    have hacknowledged : c.state.acknowledged = s.coordinator.state.acknowledged := by rw [hnext]
    refine ⟨hsettled, ?_, ?_, ?_, fun f id hf => ?_⟩
    · rw [hrequested]
      refine forall_mem_snoc (fun o ho id hid => Nat.le_succ_of_le (h.issued o ho id hid)) ?_
      exact fun id hid => (hissued id hid).le
    · rw [hacknowledged]
      exact forall_mem_snoc h.acknowledged (by simp [Occurrence.Acknowledges])
    · intro hdis
      rw [hold (by simp) hdis] at hconnected
      cases hconnected
    · rw [hrequested, hacknowledged]
      obtain ⟨hle, a, p, m, rfl, hp, hack⟩ := h.published f id hf
      refine ⟨Nat.le_succ_of_le hle, a, p, m ++ [⟨s, .beginRequest⟩], by simp, hp, fun hid => ?_⟩
      obtain ⟨o, ho, hacks⟩ := hack hid
      exact ⟨o, List.mem_append_left _ ho, hacks⟩
  | @publish f id hcurrent hlt hpublishes =>
    refine ⟨hsettled, forall_mem_snoc h.issued (by simp [Occurrence.Issues]),
      forall_mem_snoc h.acknowledged (by simp [Occurrence.Acknowledges]), hold (by simp), ?_⟩
    intro g id' hg
    by_cases hgf : g = f
    · subst hgf
      simp only [Function.update_self, Option.some.injEq, FinishStage.published.injEq] at hg
      subst hg
      refine ⟨hcurrent.le, history, _, [], rfl, hpublishes, fun hid => ?_⟩
      exact absurd hid (not_le.mpr hlt)
    · obtain ⟨hle, a, p, m, rfl, hp, hack⟩ :=
        h.published g id' ((Function.update_of_ne hgf ..).symm.trans hg)
      refine ⟨hle, a, p, m ++ [⟨s, .publish f id⟩], by simp, hp, fun hid => ?_⟩
      obtain ⟨o, ho, hacks⟩ := hack hid
      exact ⟨o, List.mem_append_left _ ho, hacks⟩
  | @acknowledge id hcurrent hlt hacknowledges =>
    refine ⟨hsettled, forall_mem_snoc h.issued (by simp [Occurrence.Issues]), ?_, hold (by simp), ?_⟩
    · refine forall_mem_snoc (fun o ho id' hid => ?_) ?_
      · exact (h.acknowledged o ho id' hid).trans hlt.le
      · rintro id' ⟨hevent, -⟩
        cases hevent
        exact Nat.le_refl _
    · intro f id' hf
      obtain ⟨hle, a, p, m, rfl, hp, hack⟩ := h.published f id' hf
      refine ⟨hle, a, p, m ++ [⟨s, .acknowledge id⟩], by simp, hp, fun hid => ?_⟩
      by_cases hbefore : id' ≤ s.coordinator.state.acknowledged
      · obtain ⟨o, ho, hacks⟩ := hack hbefore
        exact ⟨o, List.mem_append_left _ ho, hacks⟩
      · -- a published number that is not acknowledged is the last one
        have hid' : id' = id := by
          have hupper := h.settled.upper
          omega
        subst hid'
        exact ⟨_, List.mem_append_right _ List.mem_cons_self, hacknowledges⟩
  | @beginLocal e i hevent hconnected hrest =>
    refine h.plain hsettled rfl rfl (fun hor => ?_) (fun _ _ hf => hf) ?_ ?_
    · rcases hor with hor | hor
      · rcases hevent with rfl | rfl <;> cases hor
      · exact hor
    · rcases hevent with rfl | rfl <;> simp [Occurrence.Issues]
    · rcases hevent with rfl | rfl <;> simp [Occurrence.Acknowledges]
  | dropLocal =>
    exact h.plain hsettled rfl rfl (fun hor => hor.resolve_left (by simp)) (fun _ _ hf => hf)
      (by simp [Occurrence.Issues]) (by simp [Occurrence.Acknowledges])
  | disconnect =>
    exact h.plain hsettled rfl rfl (fun _ => rfl) (fun _ _ hf => hf)
      (by simp [Occurrence.Issues]) (by simp [Occurrence.Acknowledges])

lemma historyInv_run {history : List Occurrence} {s : System} (h : Run Step {} history s) :
    HistoryInv history s := by
  refine h.history_invariant (I := HistoryInv) ?_ ?_
  · have hnobody : Exclusive false fun i => (({} : System).locals i) = true :=
      ⟨fun _ h => (by cases h), fun _ _ h => (by cases h)⟩
    exact ⟨⟨Nat.le_refl _, Nat.le_succ _, hnobody, fun h => (by cases h)⟩, by simp, by simp, by simp,
      fun _ _ h => (by cases h)⟩
  · rintro history s o s' hinv hstep
    cases hstep with
    | mk happly => exact hinv.step (apply_move happly)

/-- **The handshake with the desktop.** -/
theorem handshake (history : List Occurrence) (s : System) (hrun : Run Step {} history s) :
    (s.coordinator.state.acknowledged ≤ s.coordinator.state.requested ∧
      s.coordinator.state.requested ≤ s.coordinator.state.acknowledged + 1) ∧
    (∀ i, s.locals i = true → ¬ s.coordinator.state.acknowledged < s.coordinator.state.requested) ∧
    (∀ i j, s.locals i = true → s.locals j = true → i = j) ∧
    (∀ before o rest id, history = before ++ o :: rest → o.Issues id →
      ∀ o' ∈ before, ∀ id', o'.Issues id' → id' < id) ∧
    (∀ before o rest id, history = before ++ o :: rest → o.Acknowledges id →
      ∀ o' ∈ before, ¬ o'.Acknowledges id) ∧
    (∀ before o rest f id, history = before ++ o :: rest → o.Finishes f id →
      ∃ a p m, before = a ++ p :: m ∧ p.Publishes f id ∧ ∃ o' ∈ m, o'.Acknowledges id) ∧
    ∀ before o rest, history = before ++ o :: rest → o.event = .disconnect →
      ∀ o' ∈ rest, (∀ id, ¬ o'.Issues id) ∧ ∀ i, ¬ o'.BeginsLocal i := by
  have hinv := historyInv_run hrun
  refine ⟨⟨hinv.settled.lower, hinv.settled.upper⟩, ?_, hinv.settled.exclusive.unique, ?_, ?_, ?_, ?_⟩
  · intro i hi
    exact not_lt.mpr (hinv.settled.quiet (hinv.settled.exclusive.set i hi))
  · rintro before o rest id rfl ⟨-, c, hissues⟩ o' ho' id' hissues'
    obtain ⟨-, hbefore, -⟩ := cut hrun
    rcases beginRequest_cases hissues with ⟨e, he, -⟩ | ⟨-, -, -, hid, -⟩
    · cases he
    · cases hid
      exact Nat.lt_succ_of_le ((historyInv_run hbefore).issued o' ho' id' hissues')
  · rintro before o rest id rfl ⟨-, hok⟩ o' ho' hacknowledges
    obtain ⟨-, hbefore, -⟩ := cut hrun
    have hle := (historyInv_run hbefore).acknowledged o' ho' id hacknowledges
    rcases acknowledge_cases o.before.coordinator id with ⟨e, hack⟩ | ⟨-, hlt, -⟩
    · rw [hack] at hok
      cases hok
    · exact absurd hle (not_le.mpr hlt)
  · rintro before o rest f id rfl ⟨-, hf, hawait⟩
    obtain ⟨-, hbefore, -⟩ := cut hrun
    obtain ⟨-, a, p, m, rfl, hp, hack⟩ := (historyInv_run hbefore).published f id hf
    refine ⟨a, p, m, rfl, hp, hack ?_⟩
    unfold UiLockCoordinator.awaitAcknowledged at hawait
    split_ifs at hawait with hwait hdone
    · exact hdone
    · cases hawait
  · rintro before o rest rfl hevent o' ho'
    obtain ⟨mid, later, rfl⟩ := List.append_of_mem ho'
    rw [← List.cons_append, ← List.append_assoc] at hrun
    obtain ⟨-, hbefore, -⟩ := cut hrun
    have hgone : o'.before.coordinator.state.connected = false :=
      (historyInv_run hbefore).disconnected ⟨o, by simp, hevent⟩
    refine ⟨?_, ?_⟩
    · rintro id ⟨-, c, hissues⟩
      rcases beginRequest_cases hissues with ⟨e, he, -⟩ | ⟨-, -, hconnected, -⟩
      · cases he
      · rw [hgone] at hconnected
        cases hconnected
    · rintro i (⟨-, hbegins⟩ | ⟨-, c, hbegins⟩)
      · rcases tryBeginLocalOperation_cases o'.before.coordinator with ⟨hfailed, -⟩ | ⟨hconnected, -⟩
        · exact hfailed hbegins
        · rw [hgone] at hconnected
          cases hconnected
      · rcases waitBeginLocalOperation_cases hbegins with ⟨hfailed, -⟩ | ⟨hconnected, -⟩
        · exact hfailed rfl
        · rw [hgone] at hconnected
          cases hconnected

/-- A request is issued, published and acknowledged. -/
def lockEvents : List Event := [.beginRequest, .publish 0 1, .pendingRequest, .acknowledge 1]

def lockRun : List Occurrence × System := (play System.apply {} lockEvents).getD ([], {})

theorem handshake_acknowledged : ∃ (before : List Occurrence) (o : Occurrence) (s : System),
    Run Step {} (before ++ [o]) s ∧ o.Finishes 0 1 ∧
    ∃ a p m, before = a ++ p :: m ∧ p.Publishes 0 1 ∧ ∃ o' ∈ m, o'.Acknowledges 1 := by
  have hplay : play System.apply {} lockEvents = some lockRun := rfl
  obtain ⟨s, hlast⟩ : ∃ s, lockRun.2.apply (.awaitAcknowledged 0) = some s := ⟨_, rfl⟩
  have hrun := (run_of_play hplay).snoc (.mk hlast)
  have hfinishes : Occurrence.Finishes ⟨lockRun.2, .awaitAcknowledged 0⟩ 0 1 := ⟨rfl, rfl, rfl⟩
  refine ⟨_, _, _, hrun, hfinishes, ?_⟩
  obtain ⟨-, -, -, -, -, hfinish, -⟩ := handshake _ _ hrun
  exact hfinish _ _ [] 0 1 rfl hfinishes

end Ladon.UiLock

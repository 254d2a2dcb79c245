import Ladon.BrokerSlot
import Ladon.Lib.Machine

/-!
Admission of runs: any number of threads on one run coordinator, some with the lease of a run, some
that keep new runs out for as long as a lock or a revocation takes.

Every section under the mutex is one step. Whoever wants a block first waits for the block of others
to go, then sets the flag and cancels what it has to, and then may wait, with the flag set, for the
active run to end.
-/

namespace Ladon.RunAdmission

open Ladon.Error Ladon.Model Ladon.Approval Ladon.Broker Ladon.Lib Ladon.Lib.Machine

/-- What a block is for: `block_new_runs`, `block_for_revoke` and `block_for_client_revoke`. -/
inductive BlockKind
  | newRuns
  | revoke (client : Uuid) (secret : SecretId)
  | clientRevoke (client : Uuid)
  deriving DecidableEq

/-- The active run has to be stopped. -/
def BlockKind.stops (kind : BlockKind) (run : ActiveRun) : Bool :=
  match kind with
  | .newRuns => true
  | .revoke client secret =>
    run.clientSessionId = client && run.secretIds.all (secret ∈ ·)
  | .clientRevoke client => run.clientSessionId = client

/-- The loop that waits for the run to end goes on. A block of `block_for_revoke` only gets to it
behind a run that it stops, and then waits for any. -/
def BlockKind.waitsFor (kind : BlockKind) (run : ActiveRun) : Bool :=
  match kind with
  | .newRuns | .revoke _ _ => true
  | .clientRevoke client => run.clientSessionId = client

/-- The flag is set; the call still waits, or has returned its `RunBlock`. -/
inductive BlockStage
  | draining (kind : BlockKind)
  | held (kind : BlockKind)
  deriving DecidableEq

structure Lease where
  cancellation : Token
  client : Uuid
  deriving DecidableEq

/-- The coordinator, the tokens that have been cancelled, and who has a lease or a block. -/
structure System where
  runs : RunCoordinator := {}
  cancelled : List Token := []
  leases : ℕ → Option Lease := fun _ => none
  blocks : ℕ → Option BlockStage := fun _ => none

inductive Event
  | tryStart (i : ℕ) (cancellation : Token) (client : Uuid)
  | setSecretContext (i : ℕ) (secretIds : List SecretId)
  | spawnChild (i : ℕ) (launched : Except LadonError Unit)
  | dropLease (i : ℕ)
  | cancelActive
  | cancel (token : Token)
  | block (j : ℕ) (kind : BlockKind)
  | drain (j : ℕ)
  | tryBlockNewRuns (j : ℕ)
  | dropBlock (j : ℕ)

namespace System

/-- The tokens whose `cancel` an event calls. -/
def cancels (s : System) : Event → List Token
  | .cancelActive => s.runs.activeToken
  | .cancel token => [token]
  | .block _ kind => ((s.runs.active.filter (kind.stops ·)).map ActiveRun.cancellation).toList
  | _ => []

/-- The flag is taken, and the active run cancelled if it has to be stopped. -/
def block (s : System) (j : ℕ) (kind : BlockKind) : System :=
  { s with
    runs := s.runs.block
    cancelled := s.cancels (.block j kind) ++ s.cancelled
    blocks := Function.update s.blocks j
      (some (if s.runs.active.any kind.stops then .draining kind else .held kind)) }

def apply (s : System) : Event → Option System
  | .tryStart i cancellation client =>
    if (s.leases i).isSome then none
    else match s.runs.tryStart cancellation client with
      | (.ok (), runs) => some { s with
          runs := runs, leases := Function.update s.leases i (some ⟨cancellation, client⟩) }
      | (.error _, runs) => some { s with runs := runs }
  | .setSecretContext i secretIds =>
    if (s.leases i).isSome then some { s with runs := (s.runs.setSecretContext secretIds).2 } else none
  | .spawnChild i launched =>
    if (s.leases i).isSome then some { s with runs := (s.runs.spawnChild s.cancelled launched).2 }
    else none
  | .dropLease i =>
    if (s.leases i).isSome then some { s with
      runs := s.runs.dropLease, leases := Function.update s.leases i none }
    else none
  | .cancelActive => some { s with cancelled := s.cancels .cancelActive ++ s.cancelled }
  | .cancel token => some { s with cancelled := s.cancels (.cancel token) ++ s.cancelled }
  | .block j kind =>
    if (s.blocks j).isSome ∨ s.runs.blockNew then none else some (s.block j kind)
  | .drain j =>
    match s.blocks j with
    | some (.draining kind) =>
      if s.runs.active.any kind.waitsFor then none
      else some { s with blocks := Function.update s.blocks j (some (.held kind)) }
    | _ => none
  | .tryBlockNewRuns j =>
    if (s.blocks j).isSome then none
    else if s.runs.blockNew ∨ s.runs.active.isSome then some s
    else some { s with
      runs := s.runs.block, blocks := Function.update s.blocks j (some (.held .newRuns)) }
  | .dropBlock j =>
    match s.blocks j with
    | some (.held _) => some { s with
        runs := s.runs.dropBlock, blocks := Function.update s.blocks j none }
    | _ => none

end System

abbrev Occurrence := Machine.Occurrence System Event

abbrev Step := Machine.Step System.apply

namespace Occurrence

/-- A run starts, and its lease is handed out. -/
def Starts (o : Occurrence) (i : ℕ) (lease : Lease) : Prop :=
  o.event = .tryStart i lease.cancellation lease.client ∧
    (o.before.runs.tryStart lease.cancellation lease.client).1 = .ok ()

/-- A run declares its secrets. -/
def Declares (o : Occurrence) (i : ℕ) (secretIds : List SecretId) : Prop :=
  o.event = .setSecretContext i secretIds ∧ (o.before.runs.setSecretContext secretIds).1 = .ok ()

/-- A child is started. -/
def Spawns (o : Occurrence) (i : ℕ) : Prop :=
  ∃ launched, o.event = .spawnChild i launched ∧
    (o.before.runs.spawnChild o.before.cancelled launched).1 = .ok ()

/-- A step of the thread with this block. -/
def OfBlock (o : Occurrence) (j : ℕ) : Prop :=
  (∃ kind, o.event = .block j kind) ∨ o.event = .drain j ∨ o.event = .tryBlockNewRuns j ∨
    o.event = .dropBlock j

end Occurrence

/-- What a block keeps out: any run, the runs of a client that have the secret or may come to have it,
or the runs of a client. -/
def BlockKind.Clear (kind : BlockKind) (active : Option ActiveRun) : Prop :=
  match kind with
  | .newRuns => active = none
  | .revoke client secret => ∀ run, active = some run → run.clientSessionId = client →
      ∃ ids, run.secretIds = some ids ∧ secret ∉ ids
  | .clientRevoke client => ∀ run, active = some run → run.clientSessionId ≠ client

/-! ### What an event does -/

/-- What an event can make of the system. -/
inductive Move (s : System) : Event → System → Prop
  | nothing {e : Event} (uncancelled : s.cancels e = []) (kept : ∀ i, e ≠ .dropLease i) : Move s e s
  | start {i : ℕ} (lease : Lease) (idle : s.runs.active = none) (unblocked : s.runs.blockNew = false)
      (starts : Occurrence.Starts ⟨s, .tryStart i lease.cancellation lease.client⟩ i lease) :
      Move s (.tryStart i lease.cancellation lease.client) { s with
        runs := { s.runs with active := some ⟨lease.cancellation, lease.client, none, false⟩ }
        leases := Function.update s.leases i (some lease) }
  | declare {i : ℕ} {secretIds : List SecretId} {run : ActiveRun} (active : s.runs.active = some run)
      (held : (s.leases i).isSome) (undeclared : run.secretIds = none)
      (declares : Occurrence.Declares ⟨s, .setSecretContext i secretIds⟩ i secretIds) :
      Move s (.setSecretContext i secretIds) { s with
        runs := { s.runs with active := some { run with secretIds := some secretIds } } }
  | spawn {i : ℕ} {launched : Except LadonError Unit} {run : ActiveRun}
      (active : s.runs.active = some run) :
      Move s (.spawnChild i launched) { s with
        runs := { s.runs with active := some { run with running := true } } }
  | dropLease {i : ℕ} (held : (s.leases i).isSome) : Move s (.dropLease i) { s with
      runs := s.runs.dropLease, leases := Function.update s.leases i none }
  | cancel {e : Event} (event : e = .cancelActive ∨ ∃ token, e = .cancel token) :
      Move s e { s with cancelled := s.cancels e ++ s.cancelled }
  | block {j : ℕ} {kind : BlockKind} (unblocked : s.runs.blockNew = false) :
      Move s (.block j kind) (s.block j kind)
  | drain {j : ℕ} {kind : BlockKind} (draining : s.blocks j = some (.draining kind))
      (done : s.runs.active.any kind.waitsFor = false) :
      Move s (.drain j) { s with blocks := Function.update s.blocks j (some (.held kind)) }
  | tryBlock {j : ℕ} (unblocked : s.runs.blockNew = false) (idle : s.runs.active = none) :
      Move s (.tryBlockNewRuns j) { s with
        runs := s.runs.block, blocks := Function.update s.blocks j (some (.held .newRuns)) }
  | dropBlock {j : ℕ} {kind : BlockKind} (held : s.blocks j = some (.held kind)) :
      Move s (.dropBlock j) { s with
        runs := s.runs.dropBlock, blocks := Function.update s.blocks j none }

/-- **What an event can make of the system.** -/
theorem apply_move {s s' : System} {e : Event} (h : s.apply e = some s') : Move s e s' := by
  cases e with
  | tryStart i cancellation client =>
    simp only [System.apply] at h
    split at h
    · cases h
    · rcases @tryStart_cases s.runs cancellation client with hbusy | ⟨hidle, hunblocked, hok⟩
      · rw [hbusy] at h
        cases h
        exact .nothing rfl (by simp)
      · rw [hok] at h
        cases h
        exact .start ⟨cancellation, client⟩ hidle hunblocked ⟨rfl, by rw [hok]⟩
  | setSecretContext i secretIds =>
    simp only [System.apply] at h
    split at h
    · next hheld =>
      cases h
      rcases @setSecretContext_cases s.runs secretIds with ⟨e, hfailed⟩ | ⟨run, hrun, hnone, hok⟩
      · rw [hfailed]
        exact .nothing rfl (by simp)
      · rw [hok]
        exact .declare hrun hheld hnone ⟨rfl, by rw [hok]⟩
    · cases h
  | spawnChild i launched =>
    simp only [System.apply] at h
    split at h
    · cases h
      rcases @spawnChild_cases s.runs s.cancelled launched with ⟨e, hfailed⟩ | ⟨run, hrun, -, hok⟩
      · rw [hfailed]
        exact .nothing rfl (by simp)
      · rw [hok]
        exact .spawn hrun
    · cases h
  | dropLease i =>
    simp only [System.apply] at h
    split at h
    · next hheld =>
      cases h
      exact .dropLease hheld
    · cases h
  | cancelActive =>
    cases h
    exact .cancel (.inl rfl)
  | cancel token =>
    cases h
    exact .cancel (.inr ⟨token, rfl⟩)
  | block j kind =>
    simp only [System.apply] at h
    split at h
    · cases h
    · next hfree =>
      cases h
      rw [not_or, Bool.not_eq_true] at hfree
      exact .block (by simpa using hfree.2)
  | drain j =>
    simp only [System.apply] at h
    split at h
    · next kind hkind =>
      split at h
      · cases h
      · next hdone =>
        cases h
        exact .drain hkind (by simpa using hdone)
    · cases h
  | tryBlockNewRuns j =>
    simp only [System.apply] at h
    split at h
    · cases h
    · split at h
      · cases h
        exact .nothing rfl (by simp)
      · next hfree =>
        cases h
        rw [not_or] at hfree
        exact .tryBlock (by simpa using hfree.1) (by simpa using hfree.2)
  | dropBlock j =>
    simp only [System.apply] at h
    split at h
    · next kind hkind =>
      cases h
      exact .dropBlock hkind
    · cases h

/-! ### The invariant -/

/-- Every run has one lease, the flag is set for one block, and a block that is held keeps out what it
is for. -/
structure AdmissionInv (s : System) : Prop where
  lease : Exclusive s.runs.active.isSome fun i => (s.leases i).isSome
  run : ∀ i l, s.leases i = some l →
    ∃ run, s.runs.active = some run ∧ run.cancellation = l.cancellation ∧ run.clientSessionId = l.client
  owner : s.runs.active.isSome → ∃ i, (s.leases i).isSome
  block : Exclusive s.runs.blockNew fun j => (s.blocks j).isSome
  clear : ∀ j kind, s.blocks j = some (.held kind) → kind.Clear s.runs.active

lemma clear_none {kind : BlockKind} : kind.Clear none := by
  cases kind with
  | newRuns => rfl
  | revoke client secret => intro run hrun; cases hrun
  | clientRevoke client => intro run hrun; cases hrun

/-- A run that a block does not have to stop is not kept out by it. -/
lemma clear_of_not_stops {kind : BlockKind} {active : Option ActiveRun}
    (h : active.any kind.stops = false) : kind.Clear active := by
  cases active with
  | none => exact clear_none
  | some run =>
    rw [Option.any_some] at h
    cases kind with
    | newRuns => cases h
    | revoke client secret =>
      rintro run' hrun' hclient
      cases hrun'
      cases hids : run.secretIds with
      | none => simp [BlockKind.stops, hclient, hids] at h
      | some ids => exact ⟨ids, rfl, by simpa [BlockKind.stops, hclient, hids] using h⟩
    | clientRevoke client =>
      rintro run' hrun' hclient
      cases hrun'
      simp [BlockKind.stops, hclient] at h

/-- A block does not care for what a run does once it has declared its secrets. -/
lemma clear_same {kind : BlockKind} {run run' : ActiveRun} (h : kind.Clear (some run))
    (hclient : run'.clientSessionId = run.clientSessionId) (hids : run'.secretIds = run.secretIds) :
    kind.Clear (some run') := by
  cases kind with
  | newRuns => cases h
  | revoke client secret =>
    rintro run₁ hrun₁ hc
    cases hrun₁
    rw [hids]
    exact h run rfl (hclient.symm.trans hc)
  | clientRevoke client =>
    rintro run₁ hrun₁
    cases hrun₁
    rw [hclient]
    exact h run rfl

/-- A block that leaves a run alone which has declared nothing is not for the client of that run. -/
lemma clear_declare {kind : BlockKind} {run : ActiveRun} {ids : List SecretId}
    (h : kind.Clear (some run)) (hnone : run.secretIds = none) :
    kind.Clear (some { run with secretIds := some ids }) := by
  cases kind with
  | newRuns => cases h
  | revoke client secret =>
    rintro run₁ hrun₁ hc
    cases hrun₁
    obtain ⟨ids', hids', -⟩ := h run rfl hc
    rw [hnone] at hids'
    cases hids'
  | clientRevoke client =>
    rintro run₁ hrun₁
    cases hrun₁
    exact h run rfl

lemma clear_of_drained {kind : BlockKind} {active : Option ActiveRun}
    (h : active.any kind.waitsFor = false) : kind.Clear active := by
  cases active with
  | none => exact clear_none
  | some run =>
    rw [Option.any_some] at h
    cases kind with
    | newRuns | revoke => cases h
    | clientRevoke client =>
      rintro run' hrun'
      cases hrun'
      simpa [BlockKind.waitsFor] using h

lemma AdmissionInv.step {s s' : System} {e : Event} (h : AdmissionInv s) (hmove : Move s e s') :
    AdmissionInv s' := by
  obtain ⟨hlease, hrun, howner, hblock, hclear⟩ := h
  cases hmove with
  | nothing => exact ⟨hlease, hrun, howner, hblock, hclear⟩
  | @start i lease hidle hunblocked hstarts =>
    rw [hidle] at hlease
    refine ⟨hlease.acquire i fun k hk => ?_, fun k l hk => ?_, fun _ => ⟨i, by simp⟩, hblock, ?_⟩
    · by_cases hki : k = i
      · exact .inl hki
      · exact .inr (by simpa [Function.update_of_ne hki] using hk)
    · by_cases hki : k = i
      · subst hki
        simp only [Function.update_self, Option.some.injEq] at hk
        subst hk
        exact ⟨_, rfl, rfl, rfl⟩
      · have hk' : s.leases k = some l := (Function.update_of_ne hki ..).symm.trans hk
        obtain ⟨run, hactive, -⟩ := hrun k l hk'
        rw [hidle] at hactive
        cases hactive
    · -- nobody holds a block when a run starts
      intro j kind hj
      have hset := hblock.set j (by rw [hj]; rfl)
      rw [hunblocked] at hset
      cases hset
  | @declare i secretIds run hactive hheld hnone hdeclares =>
    rw [hactive] at hlease howner
    refine ⟨hlease, fun k l hk => ?_, howner, hblock, fun j kind hj => ?_⟩
    · obtain ⟨run', hactive', hc, hcl⟩ := hrun k l hk
      rw [hactive] at hactive'
      cases hactive'
      exact ⟨_, rfl, hc, hcl⟩
    · have hkind := hclear j kind hj
      rw [hactive] at hkind
      exact clear_declare hkind hnone
  | @spawn i launched run hactive =>
    rw [hactive] at hlease howner
    refine ⟨hlease, fun k l hk => ?_, howner, hblock, fun j kind hj => ?_⟩
    · obtain ⟨run', hactive', hc, hcl⟩ := hrun k l hk
      rw [hactive] at hactive'
      cases hactive'
      exact ⟨_, rfl, hc, hcl⟩
    · have hkind := hclear j kind hj
      rw [hactive] at hkind
      exact clear_same hkind rfl rfl
  | @dropLease i hheld =>
    have hnone : ∀ k, ¬ (Function.update s.leases i none k).isSome := by
      intro k hk
      by_cases hki : k = i
      · subst hki
        simp at hk
      · rw [Function.update_of_ne hki] at hk
        exact hki (hlease.unique k i hk hheld)
    refine ⟨⟨fun k hk => absurd hk (hnone k), fun k _ hk => absurd hk (hnone k)⟩, fun k l hk => ?_,
      fun hsome => (by cases hsome), hblock, fun _ _ _ => clear_none⟩
    exact absurd (by rw [show Function.update s.leases i none k = some l from hk]; rfl) (hnone k)
  | cancel => exact ⟨hlease, hrun, howner, hblock, hclear⟩
  | @block j kind hunblocked =>
    rw [hunblocked] at hblock
    refine ⟨hlease, hrun, howner, hblock.acquire j fun k hk => ?_, fun k kind' hk => ?_⟩
    · by_cases hkj : k = j
      · exact .inl hkj
      · exact .inr (by simpa [System.block, Function.update_of_ne hkj] using hk)
    · by_cases hkj : k = j
      · subst hkj
        simp only [System.block, Function.update_self, Option.some.injEq] at hk
        split at hk
        · cases hk
        · next hstops =>
          cases hk
          have hfree : s.runs.active.any kind.stops = false := by simpa using hstops
          exact clear_of_not_stops hfree
      · have hk' : s.blocks k = some (.held kind') := (Function.update_of_ne hkj ..).symm.trans hk
        cases hblock.set k (by rw [hk']; rfl)
  | @drain j kind hdraining hdone =>
    refine ⟨hlease, hrun, howner, hblock.keep fun k hk => ?_, fun k kind' hk => ?_⟩
    · by_cases hkj : k = j
      · subst hkj
        rw [hdraining]
        rfl
      · simpa [Function.update_of_ne hkj] using hk
    · by_cases hkj : k = j
      · subst hkj
        simp only [Function.update_self, Option.some.injEq, BlockStage.held.injEq] at hk
        subst hk
        exact clear_of_drained hdone
      · exact hclear k kind' ((Function.update_of_ne hkj ..).symm.trans hk)
  | @tryBlock j hunblocked hidle =>
    rw [hunblocked] at hblock
    refine ⟨hlease, hrun, howner, hblock.acquire j fun k hk => ?_, fun k kind' hk => ?_⟩
    · by_cases hkj : k = j
      · exact .inl hkj
      · exact .inr (by simpa [Function.update_of_ne hkj] using hk)
    · have hactive : s.runs.block.active = none := hidle
      rw [hactive]
      exact clear_none
  | @dropBlock j kind hheld =>
    have hj : (s.blocks j).isSome := by rw [hheld]; rfl
    refine ⟨hlease, hrun, howner, hblock.release hj fun k hk => ?_, fun k kind' hk => ?_⟩
    · by_cases hkj : k = j
      · subst hkj
        simp at hk
      · exact ⟨by simpa [Function.update_of_ne hkj] using hk, hkj⟩
    · by_cases hkj : k = j
      · subst hkj
        simp at hk
      · exact hclear k kind' ((Function.update_of_ne hkj ..).symm.trans hk)

/-! ### Runs -/

/-- What the history says of the system. -/
structure HistoryInv (history : List Occurrence) (s : System) : Prop where
  admission : AdmissionInv s
  cancelled : ∀ o ∈ history, ∀ t ∈ o.before.cancels o.event, t ∈ s.cancelled
  started : ∀ i l, s.leases i = some l → ∃ a st m, history = a ++ st :: m ∧ st.Starts i l ∧
    (∀ o ∈ m, o.event ≠ .dropLease i) ∧
    ∀ run ids, s.runs.active = some run → run.secretIds = some ids → ∃ o ∈ m, o.Declares i ids

/-- A run that goes on has declared no other secrets than before. -/
lemma HistoryInv.goesOn {history : List Occurrence} {s s' : System} {e : Event} {i : ℕ} {l : Lease}
    (h : HistoryInv history s) (hl : s.leases i = some l) (he : e ≠ .dropLease i)
    (hrun : ∀ run ids, s'.runs.active = some run → run.secretIds = some ids →
      (∃ run', s.runs.active = some run' ∧ run'.secretIds = some ids) ∨
        Occurrence.Declares ⟨s, e⟩ i ids) :
    ∃ a st m, history ++ [⟨s, e⟩] = a ++ st :: m ∧ st.Starts i l ∧
      (∀ o ∈ m, o.event ≠ .dropLease i) ∧
      ∀ run ids, s'.runs.active = some run → run.secretIds = some ids → ∃ o ∈ m, o.Declares i ids := by
  obtain ⟨a, st, m, rfl, hst, hkept, hdeclared⟩ := h.started i l hl
  refine ⟨a, st, m ++ [⟨s, e⟩], by simp, hst, forall_mem_snoc hkept he, fun run ids hactive hids => ?_⟩
  rcases hrun run ids hactive hids with ⟨run', hactive', hids'⟩ | hdeclares
  · obtain ⟨o, ho, hdeclares⟩ := hdeclared run' ids hactive' hids'
    exact ⟨o, List.mem_append_left _ ho, hdeclares⟩
  · exact ⟨_, List.mem_append_right _ List.mem_cons_self, hdeclares⟩

lemma cancelled_step {s s' : System} {e : Event} (hmove : Move s e s') :
    s'.cancelled = s.cancels e ++ s.cancelled := by
  cases hmove with
  | nothing huncancelled => rw [huncancelled]; rfl
  | _ => rfl

lemma HistoryInv.step {history : List Occurrence} {s s' : System} {e : Event}
    (h : HistoryInv history s) (hmove : Move s e s') : HistoryInv (history ++ [⟨s, e⟩]) s' := by
  refine ⟨h.admission.step hmove, ?_, fun i l hl => ?_⟩
  · rw [cancelled_step hmove]
    refine forall_mem_snoc (fun o ho t ht => ?_) fun t ht => List.mem_append_left _ ht
    exact List.mem_append_right _ (h.cancelled o ho t ht)
  · cases hmove with
    | nothing _ hkept => exact h.goesOn hl (hkept i) fun run ids hrun hids => .inl ⟨run, hrun, hids⟩
    | @start k lease hidle hunblocked hstarts =>
      by_cases hik : i = k
      · subst hik
        simp only [Function.update_self, Option.some.injEq] at hl
        subst hl
        refine ⟨history, _, [], rfl, hstarts, by simp, fun run ids hactive hids => ?_⟩
        cases hactive
        cases hids
      · obtain ⟨run, hactive, -⟩ := h.admission.run i l ((Function.update_of_ne hik ..).symm.trans hl)
        rw [hidle] at hactive
        cases hactive
    | @declare k secretIds run hactive hheld hnone hdeclares =>
      have hik := h.admission.lease.unique i k (by rw [hl]; rfl) hheld
      subst hik
      refine h.goesOn hl (by simp) fun run' ids hrun' hids => ?_
      cases hrun'
      cases hids
      exact .inr hdeclares
    | @spawn k launched run hactive =>
      refine h.goesOn hl (by simp) fun run' ids hrun' hids => ?_
      cases hrun'
      exact .inl ⟨run, hactive, hids⟩
    | @dropLease k hheld =>
      by_cases hik : i = k
      · subst hik
        simp at hl
      · have hl' := (Function.update_of_ne hik ..).symm.trans hl
        exact absurd (h.admission.lease.unique i k (by rw [hl']; rfl) hheld) hik
    | cancel hevent =>
      refine h.goesOn hl ?_ fun run ids hrun hids => .inl ⟨run, hrun, hids⟩
      rcases hevent with rfl | ⟨token, rfl⟩ <;> simp
    | block | drain | tryBlock | dropBlock =>
      exact h.goesOn hl (by simp) fun run ids hrun hids => .inl ⟨run, hrun, hids⟩

lemma historyInv_run {history : List Occurrence} {s : System} (h : Run Step {} history s) :
    HistoryInv history s := by
  refine h.history_invariant (I := HistoryInv) ?_ ?_
  · refine ⟨⟨⟨fun _ h => (by cases h), fun _ _ h => (by cases h)⟩, fun _ _ h => (by cases h),
      fun h => (by cases h), ⟨fun _ h => (by cases h), fun _ _ h => (by cases h)⟩,
      fun _ _ h => (by cases h)⟩, by simp, fun _ _ h => (by cases h)⟩
  · rintro history s o s' hinv hstep
    cases hstep with
    | mk happly => exact hinv.step (apply_move happly)

/-- The tokens that the steps of a block cancel are those of a run it has to stop. -/
lemma cancels_ofBlock {o : Occurrence} {j : ℕ} {t : Token} (h : o.OfBlock j)
    (ht : t ∈ o.before.cancels o.event) : ∃ kind run, o.event = .block j kind ∧
      o.before.runs.active = some run ∧ kind.stops run ∧ run.cancellation = t := by
  rcases h with ⟨kind, he⟩ | he | he | he
  · rw [he] at ht
    simp only [System.cancels, Option.mem_toList, Option.map_eq_some_iff,
      Option.filter_eq_some_iff] at ht
    obtain ⟨run, ⟨hactive, hstops⟩, rfl⟩ := ht
    exact ⟨kind, run, he, hactive, hstops, rfl⟩
  · rw [he] at ht
    cases ht
  · rw [he] at ht
    cases ht
  · rw [he] at ht
    cases ht

/-- **Runs are admitted one at a time, and blocks keep out what they are for.** -/
theorem admission (history : List Occurrence) (s : System) (hrun : Run Step {} history s) :
    ((∀ i i', (s.leases i).isSome → (s.leases i').isSome → i = i') ∧
      (s.runs.active.isSome ↔ ∃ i, (s.leases i).isSome)) ∧
    (∀ j j' kind kind', s.blocks j = some (.held kind) → s.blocks j' = some (.held kind') → j = j') ∧
    (∀ j kind, s.blocks j = some (.held kind) → kind.Clear s.runs.active ∧
      ∀ cancellation client, (s.runs.tryStart cancellation client).1 ≠ .ok ()) ∧
    (∀ o ∈ history, ∀ j, o.OfBlock j → ∀ t ∈ o.before.cancels o.event, ∃ kind run,
      o.event = .block j kind ∧ o.before.runs.active = some run ∧ kind.stops run ∧
      run.cancellation = t) ∧
    ∀ before o rest i, history = before ++ o :: rest → o.Spawns i → ∃ l, o.before.leases i = some l ∧
      (∃ a st m, before = a ++ st :: m ∧ st.Starts i l ∧ (∀ o' ∈ m, o'.event ≠ .dropLease i) ∧
        ∃ ids, ∃ o' ∈ m, o'.Declares i ids) ∧
      ∀ o' ∈ before, l.cancellation ∉ o'.before.cancels o'.event := by
  have hinv := historyInv_run hrun
  refine ⟨⟨hinv.admission.lease.unique, hinv.admission.owner, ?_⟩, ?_, ?_, ?_, ?_⟩
  · rintro ⟨i, hi⟩
    exact hinv.admission.lease.set i hi
  · intro j j' kind kind' hj hj'
    exact hinv.admission.block.unique j j' (by rw [hj]; rfl) (by rw [hj']; rfl)
  · intro j kind hj
    refine ⟨hinv.admission.clear j kind hj, fun cancellation client hok => ?_⟩
    have hset := hinv.admission.block.set j (by rw [hj]; rfl)
    rcases @tryStart_cases s.runs cancellation client with hbusy | ⟨-, hunblocked, -⟩
    · rw [hbusy] at hok
      cases hok
    · rw [hset] at hunblocked
      cases hunblocked
  · intro o _ j hblock t ht
    exact cancels_ofBlock hblock ht
  · rintro before o rest i rfl ⟨launched, he, hok⟩
    obtain ⟨s', hbefore, happly, -⟩ := cut hrun
    have hinv' := historyInv_run hbefore
    rw [he] at happly
    simp only [System.apply] at happly
    split at happly
    · next hheld =>
      obtain ⟨l, hl⟩ := Option.isSome_iff_exists.mp hheld
      obtain ⟨run, hactive, hcancellation, -⟩ := hinv'.admission.run i l hl
      obtain ⟨a, st, m, rfl, hst, hkept, hdeclared⟩ := hinv'.started i l hl
      rcases @spawnChild_cases o.before.runs o.before.cancelled launched with ⟨e, hfailed⟩ |
        ⟨run', hactive', ⟨hids, hclean⟩, -⟩
      · rw [hfailed] at hok
        cases hok
      · rw [hactive] at hactive'
        cases hactive'
        obtain ⟨ids, hids⟩ := Option.isSome_iff_exists.mp hids
        refine ⟨l, hl, ⟨a, st, m, rfl, hst, hkept, ids, hdeclared run ids hactive hids⟩, ?_⟩
        intro o' ho' ht
        rw [← hcancellation] at ht
        exact hclean (hinv'.cancelled o' ho' _ ht)
    · cases happly

/-- A child is started for a client, and another secret of the client is revoked. -/
def revokeEvents : List Event :=
  [.tryStart 0 1 (.filled 1), .setSecretContext 0 [⟨.filled 2⟩], .spawnChild 0 (.ok ()),
    .block 0 (.revoke (.filled 1) ⟨.filled 3⟩)]

def revokeRun : List Occurrence × System := (play System.apply {} revokeEvents).getD ([], {})

theorem admission_revoke : ∃ (history : List Occurrence) (s : System) (kind : BlockKind),
    Run Step {} history s ∧ s.runs.active.isSome ∧ s.blocks 0 = some (.held kind) ∧
    kind.Clear s.runs.active := by
  have hplay : play System.apply {} revokeEvents = some revokeRun := rfl
  have hrun := run_of_play hplay
  refine ⟨_, _, .revoke (.filled 1) ⟨.filled 3⟩, hrun, rfl, rfl, ?_⟩
  obtain ⟨-, -, hheld, -⟩ := admission _ _ hrun
  exact (hheld 0 _ rfl).1

end Ladon.RunAdmission

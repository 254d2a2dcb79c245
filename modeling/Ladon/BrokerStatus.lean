import Ladon.BrokerLock
import Ladon.BrokerSession
import Ladon.Protocol

/-!
What the broker says of the vault while children are under way.

A lock of the vault, and one of the application on a human's wish, are reported when no run is
active any more. A status is answered from the access of the application and the phase of the vault
alone: the one is locked from the moment a lock begins, the other from the moment a change cannot be
saved, and neither waits for the child.
-/

namespace Ladon.Broker

open Ladon.Error Ladon.Model Ladon.Runner Ladon.Protocol Ladon.Approval Ladon.Grants
  Ladon.Controller Ladon.Lib Ladon.Approval.ApprovalState

/-! ### Answers -/

def phaseName : VaultUiPhase → String
  | .firstRun => "first_run"
  | .locked => "locked"
  | .recoveryRequired => "recovery_required"
  | .unlocked => "unlocked"

section Machine

variable [UnicodeNormalization] {approvalTimeout : Duration}

def statusResult (now : ℕ) (access : AppAccessState) (controller : VaultController) : RpcResult :=
  if access ≠ .active then .status "locked" none
  else .status (phaseName controller.phase) ((controller.remainingUnlocked now).map durationMillis)

/-- The answer to a status request. The access is read before the phase; either of them says that
all is locked on its own. -/
def State.status (now : ℕ) (b : State) : RpcResult :=
  statusResult now b.approval.appAccess b.controller

/-- It is said that all is locked: as a status, by the answer to a lock of the vault, or by a lock of
the application that a human wished. -/
def Occurrence.SaysLocked (o : Occurrence) : Prop :=
  (o.event = .status ∧ ∃ now idle, o.before.status now = .status "locked" idle) ∨
    (∃ l, o.event = .lock l ∧ o.before.locks l = some (.vaultReset true)) ∨
    ∃ l epoch, o.event = .lock l ∧ o.before.locks l = some (.blocked epoch) ∧
      (o.before.approval.finishAppLock epoch).1 = .ok ()

/-- The active run has started a child with secrets. -/
def State.SecretChild (b : State) : Prop :=
  ∃ a ids, b.runs.active = some a ∧ a.running = true ∧ a.secretIds = some ids ∧ ids ≠ []

/-! ### When the answers are right -/

/-- An open vault is closed without waiting for the runs. -/
def Occurrence.ClosesVault (o : Occurrence) : Prop :=
  o.before.controller.phase = .unlocked ∧
    ((∃ amb op, o.event = .controller amb op ∧
      (op.after amb o.before.controller).phase ≠ .unlocked) ∨
    ∃ amb storage prepared, o.event = .commit amb storage ∧
      o.before.holder = some (.mutation prepared) ∧
      (prepared.commit amb storage o.before.controller).phase ≠ .unlocked)

/-- While a lock of the application waits for the active run no status is given, and while a run has
seen plaintext the vault is not closed under it. -/
structure Occurrence.Patient (o : Occurrence) : Prop where
  status : ∀ epoch, o.event = .status → o.before.approval.appAccess = .locking epoch →
    o.before.runs.active = none
  vault : o.ClosesVault → ∀ r t, o.before.threads r = some t → t.stage.exposed = false

/-- A lock that is not on a human's wish. -/
def LockStage.automatic : LockStage → Bool
  | .autoBegun _ | .snapshot _ _ | .judged _ _ | .watching _ | .clear _ => true
  | _ => false

/-- Plaintext is about only while the vault is open and the application not locked. -/
structure StatusInv (b : State) : Prop where
  vault : ∀ {r t}, b.threads r = some t → t.stage.exposed → b.controller.phase = .unlocked
  unlocked : ∀ {r t epoch}, b.threads r = some t → t.stage.exposed →
    b.approval.appAccess ≠ .locked epoch
  unheld : b.approval.isAppActive = false → ∀ {r t}, b.threads r = some t → t.stage.held? = none
  manual : ∀ {l stage}, b.locks l = some stage → stage.automatic = false

lemma statusInv_initial {env : Env} {grantLifetime : Duration} {fileExists : Bool} :
    StatusInv (State.initial env grantLifetime fileExists) := by
  refine ⟨fun ht => (nomatch ht), fun ht => (nomatch ht), fun _ _ _ ht => (nomatch ht),
    fun hl => (nomatch hl)⟩

/-! ### One step -/

lemma Move.phase {b b' : State} {r : ℕ} {t : RunThread} (h : Move approvalTimeout b r t b') :
    b'.controller.phase = b.controller.phase := by
  cases h with
  | resolve _ _ => exact (untouched_resolveBindingsForIds _ _).phase
  | plainResolve _ _ => exact (untouched_resolveBindings _).phase
  | _ => rfl

/-- A lock that takes a step leaves the application locked where it was, or where its last step came. -/
lemma LockMove.locked {b b' : State} {l epoch : ℕ} (h : LockMove approvalTimeout b l b')
    (hlocked : b'.approval.appAccess = .locked epoch) :
    b.approval.appAccess = .locked epoch ∨ b.locks l = some (.blocked epoch) ∨
      b.locks l = some (.clear epoch) := by
  have hcall : ∀ call : Call, b'.approval = call.after approvalTimeout b.env b.approval →
      b.approval.appAccess = .locked epoch ∨ call = .finishAppLock epoch := by
    intro call hafter
    have hchange : Change b.env b.approval call b'.approval := hafter ▸ call.change
    rcases access_of_change hchange with hsame | ⟨e, -, hother⟩ | ⟨e, rfl, -, hother⟩ | hother
    · exact .inl (hsame ▸ hlocked)
    · rw [hother] at hlocked
      cases hlocked
    · rw [hother] at hlocked
      cases hlocked
      exact .inr rfl
    · rw [hother] at hlocked
      cases hlocked
  cases h with
  | @finish epoch' hs _ =>
    rcases hcall (.finishAppLock epoch') rfl with hsame | hfinish
    · exact .inl hsame
    · cases hfinish
      exact .inr (.inl hs)
  | @finishAuto epoch' hs _ =>
    rcases hcall (.finishAppLock epoch') rfl with hsame | hfinish
    · exact .inl hsame
    · cases hfinish
      exact .inr (.inr hs)
  | @judge _ active _ _ _ _ =>
    rcases hcall (.unattendedCovers active.clientSessionId (State.contextIds active)) rfl with hsame | hfinish
    · exact .inl hsame
    · cases hfinish
  | @vaultCall call _ _ hstep =>
    rcases hcall call rfl with hsame | hfinish
    · exact .inl hsame
    · rcases hstep with ⟨-, h, -⟩ | ⟨-, h, -⟩ | ⟨ok, -, h, -⟩ <;> rw [h] at hfinish <;> cases hfinish
  | _ => exact .inl hlocked

/-- An application that is locked was so before, or a lock of it takes its last step. -/
lemma locked_before {b b' : State} {e : Event} {epoch : ℕ}
    (happly : b.apply approvalTimeout e = some b') (hlocked : b'.approval.appAccess = .locked epoch) :
    b.approval.appAccess = .locked epoch ∨ ∃ l, e = .lock l ∧
      (b.locks l = some (.blocked epoch) ∨ b.locks l = some (.clear epoch)) := by
  rcases apply_approval happly with hsame | ⟨-, call, hcall, hafter⟩
  · exact .inl (hsame ▸ hlocked)
  · have hchange : Change b.env b.approval call b'.approval := hafter ▸ call.change
    rcases access_of_change hchange with hsame | ⟨e', -, hother⟩ | ⟨e', rfl, -, -⟩ | hother
    · exact .inl (hsame ▸ hlocked)
    · rw [hother] at hlocked
      cases hlocked
    · cases hcall with
      | plain hplain => cases hplain
      | run hrun => cases hrun
      | beginLock hcall => split at hcall <;> cases hcall
      | vaultLock hcall => rcases hcall with h | h | ⟨h, -⟩ <;> cases h
      | @finishLock l _ =>
        rcases (stepLock_move happly).locked hlocked with h | hstage
        · exact .inl h
        · exact .inr ⟨l, rfl, hstage⟩
    · rw [hother] at hlocked
      cases hlocked

/-- A lock of the application begins where nobody holds the approval coordinator. -/
lemma begins_lock {b b' : State} {e : Event} (happly : b.apply approvalTimeout e = some b')
    (hactive : b.approval.isAppActive = true) (hlocked : b'.approval.isAppActive = false) :
    b.holder = none ∧ ∃ l preserve, e = .beginLock l preserve := by
  rcases apply_approval happly with hsame | ⟨hfree, call, hcall, hafter⟩
  · rw [hsame, hactive] at hlocked
    cases hlocked
  · refine ⟨hfree, ?_⟩
    have hchange : Change b.env b.approval call b'.approval := hafter ▸ call.change
    rcases access_of_change hchange with hsame | ⟨e', hbegin, -⟩ | ⟨e', -, hlocking, -⟩ | hother
    · rw [isAppActive_of_access hsame, hactive] at hlocked
      cases hlocked
    · cases hcall with
      | plain hplain => rcases hbegin with rfl | rfl <;> cases hplain
      | run hrun => rcases hbegin with rfl | rfl <;> cases hrun
      | @beginLock l preserve _ _ => exact ⟨l, preserve, rfl⟩
      | vaultLock hcall =>
        rcases hbegin with rfl | rfl <;> rcases hcall with h | h | ⟨h, -⟩ <;> cases h
      | capture _ | mutate | authorize _ _ | finishLock | covers =>
        rcases hbegin with h | h <;> cases h
    · rw [isAppActive, hlocking] at hactive
      cases hactive
    · rw [isAppActive, hother] at hlocked
      cases hlocked

/-- Under a lock nobody gets hold of the approval coordinator, where no grant is unattended. -/
lemma StatusInv.unheld_apply {b b' : State} {e : Event} (h : StatusInv b) (hinv : Inv b)
    (hattended : ∀ c k d, b.approval.grants.get? c k = some d → d.isUnattended = false)
    (happly : b.apply approvalTimeout e = some b') (hlocked : b'.approval.isAppActive = false)
    {r : ℕ} {t : RunThread} (ht : b'.threads r = some t) : t.stage.held? = none := by
  by_contra hheld
  cases hactive : b.approval.isAppActive with
  | true =>
    obtain ⟨hfree, l, preserve, rfl⟩ := begins_lock happly hactive hlocked
    have hthreads : b'.threads = b.threads := by
      cases apply_move happly with
      | beginLock _ _ _ _ => rfl
      | other hthreads _ _ _ _ _ => exact hthreads
    obtain ⟨⟨ticket, checked⟩, hs⟩ := Option.ne_none_iff_exists'.mp hheld
    have hholder := (hinv.held (hthreads ▸ ht) hs).1
    rw [hfree] at hholder
    cases hholder
  | false =>
    have hbefore : ∀ {r t}, b.threads r = some t → t.stage.held? = none := h.unheld hactive
    cases apply_move happly with
    | abandon _ _ _ =>
      rcases threads_update rfl ht with ⟨-, rfl⟩ | ⟨-, ht⟩
      · exact hheld rfl
      · exact hheld (hbefore ht)
    | run _ hmove =>
      rcases hmove.held ht hheld with ht | ⟨ticket, hvalid⟩
      · exact hheld (hbefore ht)
      · obtain ⟨-, -, k, d, hd, hu⟩ := coversUnattended_spec (covers_of_valid hactive hvalid)
        rw [hattended _ k d hd] at hu
        cases hu
    | lock hmove => exact hheld (hbefore (hmove.frame.1 ▸ ht))
    | request _ =>
      rcases threads_update rfl ht with ⟨-, rfl⟩ | ⟨-, ht⟩
      · exact hheld rfl
      · exact hheld (hbefore ht)
    | other hthreads _ _ _ _ _ => exact hheld (hbefore (hthreads ▸ ht))
    | beginLock _ _ _ _ | beginVaultLock _ | controller | commit _ => exact hheld (hbefore ht)

/-- The vault is closed only where nobody has seen plaintext. -/
lemma StatusInv.vault_apply {b b' : State} {e : Event} (h : StatusInv b) (hinv : Inv b)
    (hblock : BlockInv b) (hpatient : Occurrence.Patient ⟨b, e⟩)
    (happly : b.apply approvalTimeout e = some b') {r : ℕ} {t : RunThread}
    (ht : b'.threads r = some t) (hexposed : t.stage.exposed) :
    b'.controller.phase = .unlocked := by
  rcases exposed_before happly ht hexposed with ⟨t₀, ht₀, hexposed₀, -⟩ | ⟨t₀, plan, checked, hreads, -⟩
  · have hopen := h.vault ht₀ hexposed₀
    have hclosed : Occurrence.ClosesVault ⟨b, e⟩ → b'.controller.phase = .unlocked := by
      intro hcloses
      rw [hpatient.vault hcloses r t₀ ht₀] at hexposed₀
      cases hexposed₀
    cases apply_move happly with
    | run _ hmove => rw [hmove.phase, hopen]
    | lock hmove =>
      cases hmove with
      | vaultClose hs =>
        obtain ⟨a, ha, -⟩ := hinv.lease ht₀ (RunStage.leased_of_exposed hexposed₀)
        rw [hblock.idle hs rfl] at ha
        cases ha
      | _ => exact hopen
    | @controller amb op =>
      by_contra hne
      exact hne (hclosed ⟨hopen, .inl ⟨amb, op, rfl, hne⟩⟩)
    | @commit amb storage prepared hheld =>
      by_contra hne
      exact hne (hclosed ⟨hopen, .inr ⟨amb, storage, prepared, rfl, hheld, hne⟩⟩)
    | other _ _ _ hcontroller _ _ => rw [hcontroller, hopen]
    | abandon _ _ _ | request _ | beginLock _ _ _ _ | beginVaultLock _ => exact hopen
  · obtain ⟨c, ticket, values, rfl, -, -, hvalues⟩ := hreads
    obtain ⟨t₁, -, hmove⟩ := stepRun_move happly
    rw [hmove.phase, phase_of_resolved hvalues]

/-- The application becomes locked only where nobody has seen plaintext. -/
lemma StatusInv.unlocked_apply {b b' : State} {e : Event} (h : StatusInv b) (hinv : Inv b)
    (hblock : BlockInv b) (happly : b.apply approvalTimeout e = some b') {r epoch : ℕ}
    {t : RunThread} (ht : b'.threads r = some t) (hexposed : t.stage.exposed) :
    b'.approval.appAccess ≠ .locked epoch := by
  intro hlocked
  rcases exposed_before happly ht hexposed with ⟨t₀, ht₀, hexposed₀, -⟩ | ⟨t₀, plan, checked, hreads, -⟩
  · rcases locked_before happly hlocked with hbefore | ⟨l, rfl, hs | hs⟩
    · exact h.unlocked ht₀ hexposed₀ hbefore
    · obtain ⟨a, ha, -⟩ := hinv.lease ht₀ (RunStage.leased_of_exposed hexposed₀)
      rw [hblock.idle hs rfl] at ha
      cases ha
    · cases h.manual hs
  · obtain ⟨c, ticket, values, rfl, ht₀, hs, -⟩ := hreads
    rcases locked_before happly hlocked with hbefore | ⟨l, hl, -⟩
    · have hunheld := h.unheld (by rw [isAppActive, hbefore]; rfl) ht₀
      rw [hs] at hunheld
      cases hunheld
    · cases hl

/-- A lock that a human wished stays one. -/
lemma StatusInv.manual_apply {b b' : State} {e : Event} (h : StatusInv b)
    (hmanual : ∀ l, e ≠ .beginLock l true) (happly : b.apply approvalTimeout e = some b') {l : ℕ}
    {stage : LockStage} (hl : b'.locks l = some stage) : stage.automatic = false := by
  have hupdate : ∀ {l' : ℕ} {stage' : LockStage}, stage'.automatic = false →
      b'.locks = Function.update b.locks l' (some stage') → stage.automatic = false := by
    intro l' stage' hstage' hlocks
    rcases locks_update hlocks hl with ⟨-, rfl⟩ | ⟨-, hl⟩
    · exact hstage'
    · exact h.manual hl
  cases apply_move happly with
  | run _ hmove => exact h.manual (hmove.runs.1 ▸ hl)
  | lock hmove =>
    cases hmove with
    | snapshot hs | pass hs | judge hs _ _ | cancelUncovered hs | clear hs _ => cases h.manual hs
    | vaultCall _ hstep =>
      rcases hstep with ⟨-, -, rfl⟩ | ⟨-, -, ok, rfl⟩ | ⟨ok, -, -, ok', rfl⟩
      · exact hupdate rfl rfl
      · exact hupdate rfl rfl
      · exact hupdate rfl rfl
    | _ => exact hupdate rfl rfl
  | @beginLock l' preserve _ stage' _ _ _ hstage =>
    cases preserve with
    | true => exact (hmanual l' rfl).elim
    | false =>
      rcases hstage with rfl | ⟨epoch, -, rfl⟩
      · exact hupdate rfl rfl
      · exact hupdate rfl rfl
  | beginVaultLock _ => exact hupdate rfl rfl
  | other _ hlocks _ _ _ _ => exact h.manual (hlocks ▸ hl)
  | abandon _ _ _ | request _ | controller | commit _ => exact h.manual hl

/-! ### Whole runs -/

/-- A child with secrets has a thread that has seen plaintext. -/
lemma exposed_of_secretChild {b : State} (hslot : SlotInv b) (h : b.SecretChild) :
    ∃ r t, b.threads r = some t ∧ t.stage.exposed := by
  obtain ⟨a, ids, ha, hrunning, hids, hne⟩ := h
  obtain ⟨r, t, ht, hl⟩ := hslot.launched ha hrunning
  refine ⟨r, t, ht, ?_⟩
  cases hs : t.stage with
  | running plan => rfl
  | plainRunning =>
    obtain ⟨a', ha', hids'⟩ := hslot.bare ht (by rw [hs]; rfl)
    rw [ha] at ha'
    cases ha'
    rw [hids] at hids'
    exact (hne (Option.some.inj hids')).elim
  | _ =>
    rw [hs] at hl
    cases hl

lemma status_eq_locked {b : State} {now : ℕ} {idle : Option ℕ}
    (h : b.status now = .status "locked" idle) :
    (∃ epoch, b.approval.appAccess = .locking epoch ∨ b.approval.appAccess = .locked epoch) ∨
      b.controller.phase = .locked := by
  unfold State.status statusResult at h
  split at h
  · next haccess =>
    refine .inl ?_
    cases ha : b.approval.appAccess with
    | active => exact (haccess ha).elim
    | locking epoch => exact ⟨epoch, .inl rfl⟩
    | locked epoch => exact ⟨epoch, .inr rfl⟩
  · refine .inr ?_
    injection h with hname _
    cases hp : b.controller.phase with
    | locked => rfl
    | _ =>
      rw [hp] at hname
      exact absurd hname (by decide)

lemma StatusInv.apply {b b' : State} {e : Event} (h : StatusInv b) (hinv : Inv b)
    (hblock : BlockInv b) (hmanual : ∀ l, e ≠ .beginLock l true)
    (hattended : ∀ c k d, b.approval.grants.get? c k = some d → d.isUnattended = false)
    (hpatient : Occurrence.Patient ⟨b, e⟩) (happly : b.apply approvalTimeout e = some b') :
    StatusInv b' where
  vault ht hexposed := h.vault_apply hinv hblock hpatient happly ht hexposed
  unlocked ht hexposed := h.unlocked_apply hinv hblock happly ht hexposed
  unheld hlocked _ _ ht := h.unheld_apply hinv hattended happly hlocked ht
  manual hl := h.manual_apply hmanual happly hl

/-- What is said is right where the invariant holds. -/
lemma StatusInv.honest {o : Occurrence} (h : StatusInv o.before) (hblock : BlockInv o.before)
    (hslot : SlotInv o.before) (hpatient : o.Patient) (hsaid : o.SaysLocked) :
    ¬ o.before.SecretChild := by
  intro hchild
  obtain ⟨a, -, ha, -⟩ := id hchild
  have hidle : o.before.runs.active ≠ none := by
    rw [ha]
    exact fun h => (nomatch h)
  obtain ⟨r, t, ht, hexposed⟩ := exposed_of_secretChild hslot hchild
  rcases hsaid with ⟨hevent, now, idle, hstatus⟩ | ⟨l, -, hs⟩ | ⟨l, epoch, -, hs, -⟩
  · rcases status_eq_locked hstatus with ⟨epoch, haccess | haccess⟩ | hphase
    · exact hidle (hpatient.status epoch hevent haccess)
    · exact h.unlocked ht hexposed haccess
    · rw [h.vault ht hexposed] at hphase
      cases hphase
  · exact hidle (hblock.idle hs rfl)
  · exact hidle (hblock.idle hs rfl)

/-- **What is said to be locked has no child.** In every run without automatic locks and unattended
grants in which no status is given while a lock waits for a run, and the vault is not closed under a
run that has seen plaintext: whenever it is said that all is locked, the active run, if there is one,
has not started a child with secrets. -/
theorem locked_without_child (env : Env) (grantLifetime : Duration) (fileExists : Bool) (b : State)
    (history : List Occurrence)
    (hrun : Run (Step approvalTimeout) (.initial env grantLifetime fileExists) history b)
    (hmanual : ∀ o ∈ history, ∀ l, o.event ≠ .beginLock l true)
    (hattended : ∀ o ∈ history, ∀ c k d, o.before.approval.grants.get? c k = some d →
      d.isUnattended = false)
    (hpatient : ∀ o ∈ history, o.Patient) :
    ∀ o ∈ history, o.SaysLocked → ¬ o.before.SecretChild := by
  suffices hall : (Inv b ∧ BlockInv b ∧ SlotInv b) ∧
      ((∀ o ∈ history, (∀ l, o.event ≠ .beginLock l true) ∧
        (∀ c k d, o.before.approval.grants.get? c k = some d → d.isUnattended = false) ∧ o.Patient) →
      StatusInv b ∧ ∀ o ∈ history, o.SaysLocked → ¬ o.before.SecretChild) from
    (hall.2 fun o ho => ⟨hmanual o ho, hattended o ho, hpatient o ho⟩).2
  clear hmanual hattended hpatient
  refine hrun.history_invariant (I := fun history b => (Inv b ∧ BlockInv b ∧ SlotInv b) ∧
    ((∀ o ∈ history, (∀ l, o.event ≠ .beginLock l true) ∧
      (∀ c k d, o.before.approval.grants.get? c k = some d → d.isUnattended = false) ∧ o.Patient) →
    StatusInv b ∧ ∀ o ∈ history, o.SaysLocked → ¬ o.before.SecretChild)) ?_ ?_
  · exact ⟨⟨inv_initial, blockInv_initial, slotInv_initial⟩,
      fun _ => ⟨statusInv_initial, fun _ ho => (nomatch ho)⟩⟩
  · rintro history b o b' ⟨⟨hinv, hblock, hslot⟩, hstatus⟩ ⟨happly⟩
    refine ⟨⟨hinv.apply happly, hblock.apply happly, hslot.apply hinv happly⟩, fun hcond => ?_⟩
    obtain ⟨hs, hpast⟩ := hstatus fun o ho => hcond o (List.mem_append_left _ ho)
    obtain ⟨hmanual, hattended, hpatient⟩ := hcond _ (List.mem_append_right _ List.mem_cons_self)
    refine ⟨hs.apply hinv hblock hmanual hattended hpatient happly, fun o ho hsaid => ?_⟩
    rcases List.mem_append.mp ho with ho | ho
    · exact hpast o ho hsaid
    · rw [List.mem_singleton] at ho
      subst ho
      exact hs.honest hblock hslot hpatient hsaid

end Machine

/-! ### A status under a child -/

section Child

local instance childText : UnicodeNormalization := asciiNormalization

/-- A human unlocks the vault, and a run with a secret goes on until its child is under way. -/
def childEvents : List Event :=
  deskUnlock 7 :: (deskApproved ++ List.replicate 4 (.run 0 deskChoice))

def State.secretChild? (b : State) : Bool :=
  b.runs.active.any fun a => a.running && a.secretIds.any (· ≠ [])

def State.attended? (b : State) : Bool :=
  !b.approval.grants.deadlines.any fun _ d => d.isUnattended

def Event.locksAlone? : Event → Bool
  | .beginLock _ preserve => preserve
  | _ => false

/-- No lock of its own, no status under a lock, and no use of an open vault. -/
def Occurrence.calm? (o : Occurrence) : Bool :=
  match o.event with
  | .beginLock _ preserve => !preserve
  | .status => o.before.approval.isAppActive
  | .controller _ _ | .commit _ _ => o.before.controller.phase ≠ .unlocked
  | _ => true

lemma secretChild_of_check {b : State} (h : b.secretChild? = true) : b.SecretChild := by
  unfold State.secretChild? at h
  obtain ⟨a, ha, h⟩ := (Option.any_eq_true _ _).mp h
  obtain ⟨hrunning, h⟩ := Bool.and_eq_true_iff.mp h
  obtain ⟨ids, hids, h⟩ := (Option.any_eq_true _ _).mp h
  exact ⟨a, ids, ha, hrunning, hids, of_decide_eq_true h⟩

lemma attended_of_check {b : State} (h : b.attended? = true) (c : Uuid) (k : SecretId)
    (d : GrantDeadline) (hd : b.approval.grants.get? c k = some d) : d.isUnattended = false := by
  by_contra hu
  rw [Bool.not_eq_false] at hu
  have hany : b.approval.grants.deadlines.any (fun _ d => d.isUnattended) = true :=
    Table.any_eq_true.mpr ⟨(c, k), d, hd, hu⟩
  rw [State.attended?, hany] at h
  cases h

lemma patient_of_check {o : Occurrence} (h : o.calm? = true) :
    (∀ l, o.event ≠ .beginLock l true) ∧ o.Patient := by
  unfold Occurrence.calm? at h
  refine ⟨fun l hl => ?_, fun epoch hevent haccess => ?_, fun ⟨hopen, hcloses⟩ => ?_⟩
  · rw [hl] at h
    cases h
  · rw [hevent] at h
    rw [isAppActive, haccess] at h
    cases h
  · rcases hcloses with ⟨amb, op, hevent, -⟩ | ⟨amb, storage, prepared, hevent, -, -⟩
    · rw [hevent] at h
      exact (of_decide_eq_true h hopen).elim
    · rw [hevent] at h
      exact (of_decide_eq_true h hopen).elim

/-- **A status says that all is locked while a child is under way**: a human has locked the
application, and the lock has not yet waited for the run. -/
theorem status_locked_under_child : ¬ ∀ (approvalTimeout : Duration) (env : Env)
    (grantLifetime : Duration) (fileExists : Bool) (b : State) (history : List Occurrence),
    Run (Step approvalTimeout) (.initial env grantLifetime fileExists) history b →
    (∀ o ∈ history, ∀ l, o.event ≠ .beginLock l true) →
    (∀ o ∈ history, ∀ c k d, o.before.approval.grants.get? c k = some d →
      d.isUnattended = false) →
    ∀ o ∈ history, o.SaysLocked → ¬ o.before.SecretChild := by
  intro hall
  have hplay : ((deskStart.play deskTimeout (childEvents ++ [.beginLock 0 false])).any fun q =>
      (q.1 ++ [⟨q.2, .status⟩]).all (fun o => o.before.attended? && !o.event.locksAlone?) &&
      q.2.secretChild? && !q.2.approval.isAppActive) = true := by
    decide +kernel
  obtain ⟨⟨history, last⟩, hplay, h⟩ := (Option.any_eq_true _ _).mp hplay
  rw [Bool.and_eq_true, Bool.and_eq_true] at h
  obtain ⟨⟨hevery, hchild⟩, hlocked⟩ := h
  have hrun := (run_of_play hplay).snoc (.mk (show last.apply deskTimeout .status = some last from rfl))
  refine hall _ _ _ _ _ _ hrun (fun o ho l hl => ?_) (fun o ho => ?_) ⟨last, .status⟩
    (List.mem_append_right _ List.mem_cons_self) (.inl ⟨rfl, 0, none, ?_⟩)
    (secretChild_of_check hchild)
  · have ho' := List.all_eq_true.mp hevery o ho
    rw [hl] at ho'
    simp [Event.locksAlone?] at ho'
  · have ho' := List.all_eq_true.mp hevery o ho
    rw [Bool.and_eq_true] at ho'
    exact attended_of_check ho'.1
  · have hinactive : last.approval.appAccess ≠ .active := by
      intro ha
      rw [isAppActive, ha] at hlocked
      cases hlocked
    rw [State.status, statusResult, if_pos hinactive]

/-- The application is locked; the child is waited for before it is said so. -/
theorem locked_without_child_desk : ∃ history b, Run (Step deskTimeout) deskStart history b ∧
    (∃ o ∈ history, o.before.SecretChild) ∧
    ∃ o ∈ history, o.SaysLocked ∧ ¬ o.before.SecretChild := by
  have hplay : ((deskStart.play deskTimeout (childEvents ++ [.status, .beginLock 0 false, .lock 0,
      .lock 0, .run 0 deskChoice, .lock 0])).any fun q =>
      (q.1 ++ [⟨q.2, .lock 0⟩]).all (fun o => o.before.attended? && o.calm?) &&
      q.1.any (·.before.secretChild?) && (q.2.apply deskTimeout (.lock 0)).isSome &&
      (q.2.locks 0).any (fun stage => stage.blockedAt?.any
        fun epoch => q.2.approval.appAccess = .locking epoch)) = true := by
    decide +kernel
  obtain ⟨⟨history, last⟩, hplay, h⟩ := (Option.any_eq_true _ _).mp hplay
  simp only [Bool.and_eq_true] at h
  obtain ⟨⟨⟨hevery, hchild⟩, hnext⟩, hblocked⟩ := h
  obtain ⟨last', hnext⟩ := Option.isSome_iff_exists.mp hnext
  have hrun := (run_of_play hplay).snoc (.mk hnext)
  have hcheck : ∀ o ∈ history ++ [⟨last, .lock 0⟩], o.before.attended? = true ∧ o.calm? = true :=
    fun o ho => Bool.and_eq_true_iff.mp (List.all_eq_true.mp hevery o ho)
  obtain ⟨o, ho, hchild⟩ := List.any_eq_true.mp hchild
  have hlast : ⟨last, .lock 0⟩ ∈ history ++ [(⟨last, .lock 0⟩ : Occurrence)] :=
    List.mem_append_right _ List.mem_cons_self
  have hsaid : Occurrence.SaysLocked ⟨last, .lock 0⟩ := by
    obtain ⟨stage, hstage, hblocked⟩ := (Option.any_eq_true _ _).mp hblocked
    obtain ⟨epoch, hat, haccess⟩ := (Option.any_eq_true _ _).mp hblocked
    rw [LockStage.eq_of_blockedAt hat] at hstage
    refine .inr (.inr ⟨0, epoch, rfl, hstage, ?_⟩)
    rw [finishAppLock, if_neg (not_not.mpr (of_decide_eq_true haccess))]
  refine ⟨_, _, hrun, ⟨o, List.mem_append_left _ ho, secretChild_of_check hchild⟩, _, hlast, hsaid, ?_⟩
  exact locked_without_child _ _ _ _ _ hrun (fun o ho => (patient_of_check (hcheck o ho).2).1)
    (fun o ho => attended_of_check (hcheck o ho).1)
    (fun o ho => (patient_of_check (hcheck o ho).2).2) _ hlast hsaid

end Child

end Ladon.Broker

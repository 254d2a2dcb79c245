import Ladon.DesktopRun

/-!
What the desktop asks of the broker, and on whose word.

Everything the desktop does is calm, or is one of four things that need the human: to approve a
request, to grant unattended use, to open the interface, to open a secret. The word of the human is
the PIN, compared in the event itself, or the answer of Touch ID to what was asked in an earlier one
and was not given up since.
-/

namespace Ladon.Desktop

open Ladon.Error Ladon.Model Ladon.Approval Ladon.Grants Ladon.Controller Ladon.SecretEditor
  Ladon.SecretDetail Ladon.SessionAuth Ladon.ApprovalLifetime Ladon.Lib Ladon.Lib.Machine

/-! ### What authority rests on -/

/-- The part of the desktop that decides what may be done. -/
structure Authority where
  lock : DesktopLockState
  confirmation : Option SessionConfirmation
  touchId : Option TouchIdTarget
  detail : SecretDetailState
  /-- A consent to unattended use is put before the human. -/
  asking : Bool
  grants : List AgentGrantView
  sessions : List AgentSessionView

def LadonDesktop.authority (d : LadonDesktop) : Authority :=
  ⟨d.desktopLock, d.sessionConfirmation, d.pendingTouchId, d.detail,
    d.unattendedConfirmation.isSome, d.agentGrants, d.agentSessions⟩

def Effect.privileged : Effect → Bool
  | .approve _ _ _ | .grantUnattended _ _ _ | .unlockApp _ _ | .unlockSecret _ => true
  | _ => false

def Effect.compares : Effect → Bool
  | .comparePin _ => true
  | _ => false

/-- What a human who confirms the target allows. -/
inductive Grants (platform : Platform) : TouchIdTarget → Effect → Prop
  | unattended {consent : UnattendedConsent} {deadline : ℤ} {result : Except LadonError Unit} :
      Grants platform (.unattended consent deadline) (.grantUnattended consent deadline result)
  | appUnlock {session : Uuid} {epoch : ℕ} {result : Except LadonError Unit} :
      Grants platform (.appUnlock session epoch) (.unlockApp epoch result)
  | secret {attempt : LocalAuthAttempt} {session : Uuid} :
      Grants platform (.secret attempt session) (.unlockSecret attempt)
  | approval {id session : Uuid} {lifetime : ApprovalLifetime} {decision : HumanDecision} {now : ℤ}
      {result : Except LadonError Unit}
      (given : lifetime.decision (localDayEnd platform.libc now) = .ok decision) :
      Grants platform (.approval id session lifetime) (.approve id decision result)

/-- Nothing of the vault is on the interface, and Touch ID is asked for nothing but to open it. -/
structure Hidden (u : Authority) : Prop where
  mode : u.detail.mode = .hidden
  authorized : u.detail.authorized = none
  asking : u.asking = false
  grants : u.grants = []
  sessions : u.sessions = []
  touchId : ∀ target, u.touchId = some target → ∃ session epoch, target = .appUnlock session epoch

/-- What holds between events. -/
structure Inv (u : Authority) : Prop where
  hidden : u.lock ≠ .active → Hidden u
  authorized : ∀ attempt, u.detail.authorized = some attempt →
    u.detail.selected = some attempt.secretId
  shown : ∀ draft, u.detail.mode.draft? = some draft →
    u.detail.selected = some draft.id ∧ ∃ attempt, u.detail.authorized = some attempt
  attempts : ∀ c, u.confirmation = some c → c.failedPinAttempts < maxFailedPinAttempts

/-- What is done where the human confirmed the target, or nothing; whether the lock of the interface
may be begun or completed. -/
structure Does (platform : Platform) (locks : Bool) (target : Option TouchIdTarget) (u : Authority)
    (es : List Effect) (u' : Authority) : Prop where
  effects : ∀ e ∈ es, e.privileged → ∃ t, target = some t ∧ Grants platform t e
  once : es.countP Effect.privileged ≤ 1
  compares : ∀ e ∈ es, e.compares = false
  touchId : ∀ t, u'.touchId = some t → u.touchId = some t
  confirmation : u'.confirmation = none ∨ u'.confirmation = u.confirmation ∨
    target.isSome ∧ u'.confirmation = u.confirmation.map SessionConfirmation.recordTouchIdSuccess
  authorized : ∀ attempt, u'.detail.authorized = some attempt →
    u.detail.authorized = some attempt ∨ .unlockSecret attempt ∈ es
  unlocked : u.lock ≠ .active → u'.lock = .active →
    u'.confirmation = none ∨ ∃ epoch, .unlockApp epoch (.ok ()) ∈ es
  settled : locks = false → u'.lock = u.lock ∨ u'.lock = .active
  inv : Inv u → Inv u'

abbrev Calm (platform : Platform) (locks : Bool) := Does platform locks none

section Does

variable {platform : Platform} {locks : Bool} {target : Option TouchIdTarget} {u v w : Authority}
  {es es' : List Effect}

lemma Calm.privileged (h : Calm platform locks u es v) : ∀ e ∈ es, e.privileged = false := by
  intro e he
  by_contra hp
  obtain ⟨t, ht, -⟩ := h.effects e he (by simpa using hp)
  cases ht

lemma Calm.refl : Calm platform locks u [] u where
  effects e he := by cases he
  once := by simp
  compares e he := by cases he
  touchId t h := h
  confirmation := Or.inr (Or.inl rfl)
  authorized attempt h := Or.inl h
  unlocked hne heq := absurd heq hne
  settled _ := Or.inl rfl
  inv h := h

lemma Calm.countP_eq_zero (h : Calm platform locks u es v) : es.countP Effect.privileged = 0 := by
  rw [List.countP_eq_zero]
  intro e he
  simp [Calm.privileged h e he]

lemma Calm.does (h : Calm platform locks u es v) : Does platform locks target u es v where
  effects e he hp := by
    rw [Calm.privileged h e he] at hp
    cases hp
  once := h.once
  compares := h.compares
  touchId := h.touchId
  confirmation := by
    rcases h.confirmation with hc | hc | ⟨h0, -⟩
    · exact Or.inl hc
    · exact Or.inr (Or.inl hc)
    · cases h0
  authorized := h.authorized
  unlocked := h.unlocked
  settled := h.settled
  inv := h.inv

lemma recordTouchIdSuccess_idem (c : Option SessionConfirmation) :
    (c.map SessionConfirmation.recordTouchIdSuccess).map SessionConfirmation.recordTouchIdSuccess =
      c.map SessionConfirmation.recordTouchIdSuccess := by
  cases c <;> rfl

/-- One thing after another, with one privileged effect at most. -/
lemma Does.trans (h : Does platform locks target u es v) (h' : Does platform locks target v es' w)
    (hone : es.countP Effect.privileged + es'.countP Effect.privileged ≤ 1) :
    Does platform locks target u (es ++ es') w where
  effects e he := (List.mem_append.mp he).elim (h.effects e) (h'.effects e)
  once := by
    rw [List.countP_append]
    exact hone
  compares e he := (List.mem_append.mp he).elim (h.compares e) (h'.compares e)
  touchId t ht := h.touchId t (h'.touchId t ht)
  confirmation := by
    rcases h'.confirmation with hw | hw | ⟨ht, hw⟩
    · exact Or.inl hw
    · rw [hw]
      exact h.confirmation
    · rcases h.confirmation with hv | hv | ⟨-, hv⟩
      · exact Or.inl (by rw [hw, hv]; rfl)
      · exact Or.inr (Or.inr ⟨ht, by rw [hw, hv]⟩)
      · exact Or.inr (Or.inr ⟨ht, by rw [hw, hv, recordTouchIdSuccess_idem]⟩)
  authorized attempt ha := by
    rcases h'.authorized attempt ha with ha | ha
    · exact (h.authorized attempt ha).imp_right (List.mem_append_left _)
    · exact Or.inr (List.mem_append_right _ ha)
  unlocked hne heq := by
    by_cases hv : v.lock = .active
    · rcases h.unlocked hne hv with hnone | ⟨epoch, he⟩
      · rcases h'.confirmation with hw | hw | ⟨-, hw⟩
        · exact Or.inl hw
        · exact Or.inl (hw.trans hnone)
        · exact Or.inl (by rw [hw, hnone]; rfl)
      · exact Or.inr ⟨epoch, List.mem_append_left _ he⟩
    · exact (h'.unlocked hv heq).imp_right fun ⟨epoch, he⟩ => ⟨epoch, List.mem_append_right _ he⟩
  settled hl := (h'.settled hl).elim (fun hw => hw ▸ h.settled hl) Or.inr
  inv hu := h'.inv (h.inv hu)

/-- What is calm may come before. -/
lemma Does.after_calm (h : Calm platform locks u es v) (h' : Does platform locks target v es' w) :
    Does platform locks target u (es ++ es') w := by
  refine h.does.trans h' ?_
  have hes := h.countP_eq_zero
  have hes' := h'.once
  omega

/-- What is calm may come after. -/
lemma Does.then_calm (h : Does platform locks target u es v) (h' : Calm platform locks v es' w) :
    Does platform locks target u (es ++ es') w := by
  refine h.trans h'.does ?_
  have hes := h.once
  have hes' := h'.countP_eq_zero
  omega

end Does

/-! ### What is calm -/

/-- Neither privileged nor a comparison. -/
def Effect.plain (e : Effect) : Bool := !e.privileged && !e.compares

/-- The detail is kept or cleared; nothing is authorized. -/
def DetailLess (s s' : SecretDetailState) : Prop := SecretDetail.Quiet s s' ∨ Cleared s s'

lemma draft?_eq_none {mode : DetailMode} : mode.draft? = none ↔ mode = .hidden := by
  cases mode <;> simp [DetailMode.draft?]

namespace DetailLess

variable {s s' : SecretDetailState}

lemma refl (s : SecretDetailState) : DetailLess s s :=
  Or.inl (.of_mode rfl rfl rfl (Or.inl rfl))

lemma authorized (h : DetailLess s s') {attempt : LocalAuthAttempt}
    (ha : s'.authorized = some attempt) :
    s.authorized = some attempt ∧ s'.selected = s.selected := by
  rcases h with h | h
  · exact ⟨h.authorized.symm.trans ha, h.selected⟩
  · rw [h.authorized] at ha
    cases ha

lemma authorized_eq_none (h : DetailLess s s') (ha : s.authorized = none) :
    s'.authorized = none := by
  rcases h with h | h
  · exact h.authorized.trans ha
  · exact h.authorized

/-- What is shown was shown, or is what is authorized. -/
lemma shown (h : DetailLess s s') {draft : EditSecretDraft} (hd : s'.mode.draft? = some draft) :
    s'.selected = s.selected ∧ s'.authorized = s.authorized ∧
      ((∃ d, s.mode.draft? = some d ∧ d.id = draft.id) ∨
        s.selected = some draft.id ∧ ∃ a, s.authorized = some a) := by
  rcases h with h | h
  · refine ⟨h.selected, h.authorized, ?_⟩
    rcases h.drafts draft hd with hshown | ⟨hselected, a, ha, -⟩
    · exact Or.inl hshown
    · exact Or.inr ⟨hselected, a, ha⟩
  · rw [h.mode] at hd
    cases hd

lemma mode_eq_hidden (h : DetailLess s s') (hmode : s.mode = .hidden) (ha : s.authorized = none) :
    s'.mode = .hidden := by
  rw [← draft?_eq_none]
  cases hd : s'.mode.draft? with
  | none => rfl
  | some draft =>
    obtain ⟨-, -, ⟨d, hd, -⟩ | ⟨-, a, ha'⟩⟩ := h.shown hd
    · rw [hmode] at hd
      cases hd
    · rw [ha] at ha'
      cases ha'

end DetailLess

/-- Nothing is there that was not there before; the lock is as it was. -/
structure Less (u v : Authority) : Prop where
  lock : v.lock = u.lock
  confirmation : v.confirmation = none ∨ v.confirmation = u.confirmation
  touchId : v.touchId = none ∨ v.touchId = u.touchId
  detail : DetailLess u.detail v.detail
  asking : v.asking = true → u.asking = true
  grants : v.grants = [] ∨ v.grants = u.grants
  sessions : v.sessions = [] ∨ v.sessions = u.sessions

section Calm

variable {platform : Platform} {locks : Bool} {u v : Authority} {es : List Effect}

lemma Less.refl (u : Authority) : Less u u :=
  ⟨rfl, Or.inr rfl, Or.inr rfl, .refl _, id, Or.inr rfl, Or.inr rfl⟩

lemma Less.hidden (h : Less u v) (hu : Hidden u) : Hidden v where
  mode := h.detail.mode_eq_hidden hu.mode hu.authorized
  authorized := h.detail.authorized_eq_none hu.authorized
  asking := by
    have hasking := hu.asking
    cases hv : v.asking with
    | false => rfl
    | true => rw [h.asking hv] at hasking; cases hasking
  grants := h.grants.elim id fun hg => hg.trans hu.grants
  sessions := h.sessions.elim id fun hs => hs.trans hu.sessions
  touchId t ht := by
    rcases h.touchId with h0 | h0
    · rw [h0] at ht
      cases ht
    · exact hu.touchId t (h0.symm.trans ht)

/-- The detail and the count are as they should be, where the lock is looked after. -/
lemma Inv.less (hinv : Inv u) (hdetail : DetailLess u.detail v.detail)
    (hconfirmation : v.confirmation = none ∨ v.confirmation = u.confirmation)
    (hhidden : v.lock ≠ .active → Hidden v) : Inv v where
  hidden := hhidden
  authorized attempt ha := by
    obtain ⟨ha, hselected⟩ := hdetail.authorized ha
    rw [hselected]
    exact hinv.authorized attempt ha
  shown draft hd := by
    obtain ⟨hselected, hauthorized, ⟨d, hd, hid⟩ | ⟨hsel, a, ha⟩⟩ := hdetail.shown hd
    · rw [hselected, hauthorized, ← hid]
      exact hinv.shown d hd
    · rw [hselected, hauthorized]
      exact ⟨hsel, a, ha⟩
  attempts c hc := by
    rcases hconfirmation with h0 | h0
    · rw [h0] at hc
      cases hc
    · exact hinv.attempts c (h0.symm.trans hc)

/-- What an event does that only takes away, but for the lock. -/
lemma calm_of (hes : es.all Effect.plain = true)
    (htouchId : v.touchId = none ∨ v.touchId = u.touchId)
    (hconfirmation : v.confirmation = none ∨ v.confirmation = u.confirmation)
    (hdetail : DetailLess u.detail v.detail)
    (hunlocked : u.lock ≠ .active → v.lock = .active → v.confirmation = none)
    (hsettled : locks = false → v.lock = u.lock ∨ v.lock = .active)
    (hhidden : Inv u → v.lock ≠ .active → Hidden v) : Calm platform locks u es v where
  effects e he hp := by
    have hplain := List.all_eq_true.mp hes e he
    simp [Effect.plain, hp] at hplain
  once := by
    have hzero : es.countP Effect.privileged = 0 := by
      rw [List.countP_eq_zero]
      intro e he hp
      have hplain := List.all_eq_true.mp hes e he
      simp [Effect.plain, hp] at hplain
    omega
  compares e he := by
    have hplain := List.all_eq_true.mp hes e he
    simp only [Effect.plain, Bool.and_eq_true, Bool.not_eq_true'] at hplain
    exact hplain.2
  touchId t ht := by
    rcases htouchId with h0 | h0
    · rw [h0] at ht
      cases ht
    · exact h0.symm.trans ht
  confirmation := hconfirmation.imp_right Or.inl
  authorized attempt ha := Or.inl (hdetail.authorized ha).1
  unlocked hne heq := Or.inl (hunlocked hne heq)
  settled := hsettled
  inv hinv := hinv.less hdetail hconfirmation (hhidden hinv)

lemma Less.calm (h : Less u v) (hes : es.all Effect.plain = true) : Calm platform locks u es v := by
  refine calm_of hes h.touchId h.confirmation h.detail ?_ (fun _ => Or.inl h.lock) ?_
  · intro hne heq
    exact absurd (h.lock.symm.trans heq) hne
  · intro hinv hne
    exact h.hidden (hinv.hidden (by rw [← h.lock]; exact hne))

end Calm

/-! ### Wiping and locking -/

/-- An outcome that is calm. -/
abbrev CalmAt (platform : Platform) (locks : Bool) (d : LadonDesktop) (o : Outcome) : Prop :=
  Calm platform locks d.authority o.1 o.2.authority

def Authority.dropped (u : Authority) : Authority :=
  ⟨.active, none, none, u.detail.clearForVaultLock, false, [], []⟩

namespace LadonDesktop

@[simp] lemma authority_notify (d : LadonDesktop) (text : String) (danger : Bool) :
    (d.notify text danger).authority = d.authority := rfl

@[simp] lemma authority_noticeFrom (d : LadonDesktop) (result : Except LadonError Unit)
    (success : String) : (d.noticeFrom result success).authority = d.authority := by
  cases result <;> rfl

@[simp] lemma authority_clearSensitiveState (d : LadonDesktop) :
    d.clearSensitiveState.authority = d.authority.dropped := rfl

end LadonDesktop

section Handlers

variable {platform : Platform} {locks : Bool} {a : Answers} {d : LadonDesktop} {es : List Effect}

lemma cleared_clearForVaultLock (s : SecretDetailState) : Cleared s s.clearForVaultLock :=
  ⟨rfl, rfl, rfl⟩

lemma calm_dropped {u : Authority} (hes : es.all Effect.plain = true) :
    Calm platform locks u es u.dropped :=
  calm_of hes (Or.inl rfl) (Or.inl rfl) (Or.inr (cleared_clearForVaultLock _)) (fun _ _ => rfl)
    (fun _ => Or.inr rfl) (fun _ hne => absurd rfl hne)

/-- The lock of the interface is begun: what was on it is gone. -/
lemma calm_begun {u : Authority} {epoch : ℕ} (hactive : u.lock = .active)
    (hes : es.all Effect.plain = true) :
    Calm platform true u es
      ⟨.locking epoch, u.confirmation, none, u.detail.clearForVaultLock, false, [], []⟩ := by
  refine calm_of hes (Or.inl rfl) (Or.inr rfl) (Or.inr (cleared_clearForVaultLock _)) ?_ nofun ?_
  · intro hne
    exact absurd hactive hne
  · intro _ _
    exact ⟨rfl, rfl, rfl, rfl, rfl, by rintro t ⟨⟩⟩

lemma calm_clearForAppLock (d : LadonDesktop) (hes : es.all Effect.plain = true) :
    CalmAt platform locks d (es, d.clearForAppLock) := by
  refine Less.calm ?_ hes
  exact ⟨rfl, Or.inr rfl, Or.inl rfl, Or.inr (cleared_clearForVaultLock _), nofun,
    Or.inl rfl, Or.inl rfl⟩

lemma calm_lockImmediately (d : LadonDesktop) : CalmAt platform locks d (d.lockImmediately a) := by
  have hauthority : (d.finishImmediateLock a.vaultLocked).authority = d.authority.dropped := by
    unfold LadonDesktop.finishImmediateLock
    cases a.vaultLocked with
    | ok => rfl
    | error e => rfl
  show Calm platform locks _ _ (d.finishImmediateLock a.vaultLocked).authority
  rw [hauthority]
  exact calm_dropped rfl

lemma calm_cons {o : Outcome} {e : Effect} (he : e.plain = true) (h : CalmAt platform locks d o) :
    CalmAt platform locks d (e :: o.1, o.2) := by
  have hplain : [e].all Effect.plain = true := by simp [he]
  exact (Less.calm (.refl d.authority) hplain).after_calm h

lemma calm_beginInterfaceLock (automatic : Bool) (hactive : d.desktopLock = .active) :
    CalmAt platform true d (d.beginInterfaceLock a automatic) := by
  unfold LadonDesktop.beginInterfaceLock
  split_ifs with hunlock
  · cases a.beginAppLock with
    | ok epoch => exact calm_begun hactive rfl
    | error e => exact calm_cons rfl (calm_lockImmediately d)
  · exact calm_lockImmediately d

lemma calm_lockApp (d : LadonDesktop) : CalmAt platform true d (d.lockApp a) := by
  unfold LadonDesktop.lockApp
  split_ifs with hactive
  · cases a.called with
    | error e => exact calm_cons rfl (calm_lockImmediately d)
    | ok => exact calm_clearForAppLock d rfl
  · exact calm_beginInterfaceLock false (not_not.mp hactive)

/-- The lock of the interface is complete. -/
lemma calm_locked {u : Authority} {epoch : ℕ} (hlocking : u.lock = .locking epoch) :
    Calm platform true u [] { u with lock := .locked epoch } := by
  refine calm_of rfl (Or.inr rfl) (Or.inr rfl) (.refl _) ?_ nofun ?_
  · rintro - ⟨⟩
  · intro hinv _
    obtain ⟨hmode, hauthorized, hasking, hgrants, hsessions, htouchId⟩ :=
      hinv.hidden (by rw [hlocking]; exact fun h => by cases h)
    exact ⟨hmode, hauthorized, hasking, hgrants, hsessions, htouchId⟩

lemma calm_processAppLockResult (d : LadonDesktop) :
    CalmAt platform true d (d.processAppLockResult a) := by
  unfold LadonDesktop.processAppLockResult
  cases d.pendingAppLock with
  | none => exact .refl
  | some epoch =>
    cases a.appLockResult with
    | none => exact .refl
    | some result =>
      dsimp only
      unfold LadonDesktop.finishAppLockResult
      split_ifs with h
      · exact calm_locked h.2.1
      · exact calm_lockImmediately _

lemma calm_handleIdleTimeout (d : LadonDesktop) : CalmAt platform true d (d.handleIdleTimeout a) := by
  unfold LadonDesktop.handleIdleTimeout
  split_ifs with hsession hactive
  · exact calm_beginInterfaceLock true hactive
  · exact .refl
  · unfold LadonDesktop.finishAutoLock
    split_ifs with hlocked
    · exact calm_dropped rfl
    · exact Less.calm (.refl _) rfl

lemma calm_processExternalLock (d : LadonDesktop) :
    CalmAt platform locks d (d.processExternalLock a) := by
  unfold LadonDesktop.processExternalLock
  cases a.externalLock with
  | error e => exact .refl
  | ok request =>
    cases request with
    | none => exact .refl
    | some requestId =>
      dsimp only
      cases a.acknowledged with
      | ok => exact calm_dropped rfl
      | error e => exact calm_dropped rfl

lemma calm_synchronizePhase (phase : VaultUiPhase) (d : LadonDesktop) :
    CalmAt platform locks d (d.synchronizePhase a phase) := by
  unfold LadonDesktop.synchronizePhase
  split_ifs with hlost hexternal
  · exact calm_dropped rfl
  · exact calm_dropped rfl
  · exact .refl

lemma calm_handleSensitiveOperationError (e : LadonError) (d : LadonDesktop) :
    CalmAt platform locks d (d.handleSensitiveOperationError a e) := by
  unfold LadonDesktop.handleSensitiveOperationError
  show Calm platform locks _ _ (LadonDesktop.authority (LadonDesktop.noticeFrom _ _ _))
  rw [LadonDesktop.authority_noticeFrom]
  exact calm_synchronizePhase _ d

lemma calm_rejectStaleAuthentication (d : LadonDesktop) :
    CalmAt platform locks d (d.rejectStaleAuthentication a) := by
  have hcancel : CalmAt platform locks d ([], { d with pendingTouchId := none }) :=
    Less.calm ⟨rfl, Or.inr rfl, Or.inl rfl, .refl _, id, Or.inr rfl, Or.inr rfl⟩ rfl
  exact hcancel.after_calm (calm_synchronizePhase _ _)

/-- The access of agents is read anew, and only for an interface that is open. -/
lemma authority_refreshAgentGrants (d : LadonDesktop) : ∃ grants sessions,
    (d.refreshAgentGrants a).authority =
      { d.authority with grants := grants, sessions := sessions } ∧
    (d.desktopLock ≠ .active → grants = [] ∧ sessions = []) := by
  unfold LadonDesktop.refreshAgentGrants
  split_ifs with hactive
  · exact ⟨[], [], rfl, fun _ => ⟨rfl, rfl⟩⟩
  -- what a read that failed leaves
  have hfailed (d' : LadonDesktop) (e : LadonError) {grants sessions}
      (hd : d'.authority = { d.authority with grants := grants, sessions := sessions }) :
      ∃ grants sessions, (if e = .vaultLocked then d'.clearAgentGrants
          else if d'.agentGrantsErrorShown then d'
          else { d'.noticeFrom (.error e) "" with agentGrantsErrorShown := true }).authority =
        { d.authority with grants := grants, sessions := sessions } := by
    split_ifs
    · exact ⟨[], [], congrArg (fun u => { u with grants := [], sessions := [] }) hd⟩
    · exact ⟨grants, sessions, hd⟩
    · exact ⟨grants, sessions, hd⟩
  have hopen {v : Authority} (h : ∃ grants sessions,
      v = { d.authority with grants := grants, sessions := sessions }) : ∃ grants sessions,
      v = { d.authority with grants := grants, sessions := sessions } ∧
        (d.desktopLock ≠ .active → grants = [] ∧ sessions = []) := by
    obtain ⟨grants, sessions, hv⟩ := h
    exact ⟨grants, sessions, hv, fun hne => absurd hne hactive⟩
  apply hopen
  cases a.sessionAt .refresh with
  | error e => exact hfailed d e rfl
  | ok session =>
    dsimp only
    have hfresh : ∃ grants sessions, (if d.agentGrantsSession ≠ some session then
        { d.clearAgentGrants with agentGrantsSession := some session } else d).authority =
        { d.authority with grants := grants, sessions := sessions } := by
      by_cases hsame : d.agentGrantsSession ≠ some session
      · rw [if_pos hsame]
        exact ⟨[], [], rfl⟩
      · rw [if_neg hsame]
        exact ⟨_, _, rfl⟩
    obtain ⟨grants, sessions, hd⟩ := hfresh
    cases a.access with
    | error e => exact hfailed _ e hd
    | ok access =>
      refine ⟨access.1, access.2.1, ?_⟩
      exact congrArg (fun u => { u with grants := access.1, sessions := access.2.1 }) hd

lemma calm_refreshAgentGrants (d : LadonDesktop) :
    CalmAt platform locks d ([], d.refreshAgentGrants a) := by
  obtain ⟨grants, sessions, hd, hlocked⟩ := authority_refreshAgentGrants (a := a) d
  show Calm platform locks _ _ (d.refreshAgentGrants a).authority
  rw [hd]
  refine calm_of rfl (Or.inr rfl) (Or.inr rfl) (.refl _) ?_ (fun _ => Or.inl rfl) ?_
  · intro hne heq
    exact absurd heq hne
  · intro hinv hne
    obtain ⟨hmode, hauthorized, hasking, -, -, htouchId⟩ := hinv.hidden hne
    obtain ⟨rfl, rfl⟩ := hlocked hne
    exact ⟨hmode, hauthorized, hasking, rfl, rfl, htouchId⟩

lemma calm_synchronize (d : LadonDesktop) : CalmAt platform locks d (d.synchronize a) := by
  unfold LadonDesktop.synchronize
  cases a.controller .frame with
  | ok view => exact calm_synchronizePhase _ d
  | error e =>
    refine Less.calm ?_ rfl
    exact ⟨rfl, Or.inl rfl, Or.inl rfl, Or.inr (cleared_clearForVaultLock _), nofun,
      Or.inr rfl, Or.inr rfl⟩

/-! ### The rest that is calm -/

/-- What Touch ID was asked for is given up. -/
lemma calm_cancelled {u : Authority} (hes : es.all Effect.plain = true) :
    Calm platform locks u es { u with touchId := none } :=
  Less.calm ⟨rfl, Or.inr rfl, Or.inl rfl, .refl _, id, Or.inr rfl, Or.inr rfl⟩ hes

lemma calm_same {d' : LadonDesktop} (h : d'.authority = d.authority)
    (hes : es.all Effect.plain = true) : CalmAt platform locks d (es, d') := by
  show Calm platform locks _ _ d'.authority
  rw [h]
  exact Less.calm (.refl _) hes

lemma calm_noticeFrom (d' : LadonDesktop) (result : Except LadonError Unit) (success : String)
    (h : CalmAt platform locks d (es, d')) : CalmAt platform locks d (es, d'.noticeFrom result success) := by
  show Calm platform locks _ _ (d'.noticeFrom result success).authority
  rw [LadonDesktop.authority_noticeFrom]
  exact h

/-- The detail is kept or cleared, and what Touch ID was asked for may be given up. -/
lemma calm_detail {d' : LadonDesktop} {detail : SecretDetailState} {touchId : Option TouchIdTarget}
    (h : d'.authority = { d.authority with detail := detail, touchId := touchId })
    (hdetail : DetailLess d.detail detail) (htouchId : touchId = none ∨ touchId = d.pendingTouchId)
    (hes : es.all Effect.plain = true) : CalmAt platform locks d (es, d') := by
  show Calm platform locks _ _ d'.authority
  rw [h]
  exact Less.calm ⟨rfl, Or.inr rfl, htouchId, hdetail, id, Or.inr rfl, Or.inr rfl⟩ hes

lemma calm_cancelStaleApprovalTouchId (current : Option (Uuid × Uuid)) (d : LadonDesktop) :
    CalmAt platform locks d ([], d.cancelStaleApprovalTouchId current) := by
  unfold LadonDesktop.cancelStaleApprovalTouchId
  split
  · split_ifs
    · exact calm_cancelled rfl
    · exact .refl
  · exact .refl

lemma calm_updateFocusedApproval (next : Option Uuid) (d : LadonDesktop) :
    CalmAt platform locks d ([], d.updateFocusedApproval next) := by
  unfold LadonDesktop.updateFocusedApproval
  split_ifs
  · exact .refl
  · exact calm_same rfl rfl

lemma calm_observeApproval (d : LadonDesktop) :
    CalmAt platform locks d ([], (d.observeApproval a).2) := by
  have hseen (current : Option (Uuid × Uuid)) (next : Option Uuid) : CalmAt platform locks d
      ([], (d.cancelStaleApprovalTouchId current).updateFocusedApproval next) :=
    (calm_cancelStaleApprovalTouchId current d).after_calm (calm_updateFocusedApproval next _)
  unfold LadonDesktop.observeApproval
  split_ifs
  · exact .refl
  · cases a.pendingApproval with
    | error e => exact calm_noticeFrom _ _ _ (hseen none none)
    | ok pending =>
      cases pending with
      | none => exact hseen none none
      | some pending => exact hseen _ _

lemma calm_beginUnattendedConfirmation (d : LadonDesktop) :
    CalmAt platform locks d ([], d.beginUnattendedConfirmation a) := by
  unfold LadonDesktop.beginUnattendedConfirmation
  split_ifs with hbusy
  · exact .refl
  · cases a.consent with
    | error e => exact calm_noticeFrom _ _ _ (calm_same rfl rfl)
    | ok consent =>
      have hactive : d.desktopLock = .active := by
        by_contra hne
        exact hbusy (Or.inl hne)
      refine calm_of rfl (Or.inr rfl) (Or.inr rfl) (.refl _) ?_ (fun _ => Or.inl rfl) ?_
      · intro hne
        exact absurd hactive hne
      · intro _ hne
        exact absurd hactive hne

lemma detailLess_requestNavigation (s : SecretDetailState) (target : NavigationTarget) :
    DetailLess s (s.requestNavigation target).2 := by
  unfold SecretDetailState.requestNavigation
  split
  · exact Or.inl (.of_mode rfl rfl rfl (Or.inl rfl))
  · exact Or.inr ⟨rfl, rfl, rfl⟩

lemma detailLess_discardPendingNavigation (s : SecretDetailState) :
    DetailLess s s.discardPendingNavigation.2 := by
  unfold SecretDetailState.discardPendingNavigation
  split
  · exact Or.inr ⟨rfl, rfl, rfl⟩
  · exact .refl s

lemma calm_requestNavigation (target : NavigationTarget) (d : LadonDesktop) :
    CalmAt platform locks d ([], d.requestNavigation target) := by
  unfold LadonDesktop.requestNavigation
  have hless := detailLess_requestNavigation d.detail target
  dsimp only
  split
  · exact calm_detail rfl hless (Or.inl rfl) rfl
  · exact calm_detail rfl hless (Or.inr rfl) rfl

lemma calm_close (d : LadonDesktop) : CalmAt platform locks d ([], d.close a) := by
  unfold LadonDesktop.close
  have hless := detailLess_requestNavigation d.detail .close
  split_ifs
  · dsimp only
    split
    · exact calm_detail rfl hless (Or.inr rfl) rfl
    · exact calm_detail rfl hless (Or.inr rfl) rfl
  · exact .refl

lemma calm_openDetail (editing : Bool) (d : LadonDesktop) :
    CalmAt platform locks d (d.openDetail a editing) := by
  unfold LadonDesktop.openDetail
  split_ifs
  · exact .refl
  · cases hsession : a.sessionAt .first with
    | error e => exact calm_handleSensitiveOperationError e d
    | ok session =>
      cases hloaded : a.loaded with
      | error e => exact calm_handleSensitiveOperationError e d
      | ok draft =>
        dsimp only
        have hless : DetailLess d.detail (d.detail.beginWithDraft session draft editing).2 :=
          Or.inl (quiet_beginWithDraft d.detail session draft editing)
        cases hbegun : d.detail.beginWithDraft session draft editing with
        | mk result detail =>
          rw [hbegun] at hless
          cases result with
          | ok => exact calm_detail rfl hless (Or.inr rfl) rfl
          | error e => exact calm_detail rfl hless (Or.inr rfl) rfl

lemma calm_editDetail (name : String) (fields : List EditableField) (d : LadonDesktop) :
    CalmAt platform locks d ([], d.editDetail name fields) := by
  unfold LadonDesktop.editDetail
  split
  · have hedited := quiet_editDraft d.detail name fields
    have hdirty := quiet_markDirty (d.detail.editDraft name fields)
    have hdraft : CalmAt platform locks d ([], { d with detail := d.detail.editDraft name fields }) :=
      calm_detail rfl (Or.inl hedited) (Or.inr rfl) rfl
    exact hdraft.after_calm (calm_detail rfl (Or.inl hdirty) (Or.inr rfl) rfl)
  · exact .refl

lemma calm_saveDetail (d : LadonDesktop) : CalmAt platform locks d (d.saveDetail a) := by
  unfold LadonDesktop.saveDetail
  cases d.detail.mode with
  | hidden => exact calm_handleSensitiveOperationError _ d
  | revealed draft => exact calm_handleSensitiveOperationError _ d
  | editing draft dirty =>
    dsimp only
    cases a.called with
    | ok =>
      exact calm_detail rfl (Or.inl (.of_mode rfl rfl rfl (Or.inr rfl))) (Or.inr rfl) rfl
    | error e => exact calm_cons rfl (calm_handleSensitiveOperationError e d)

lemma calm_deleteSelected (d : LadonDesktop) : CalmAt platform locks d (d.deleteSelected a) := by
  unfold LadonDesktop.deleteSelected
  cases d.detail.selected with
  | none => exact .refl
  | some id =>
    dsimp only
    split_ifs
    · have hkept : CalmAt platform locks d ([], { d with pendingDelete := none }) := calm_same rfl rfl
      unfold LadonDesktop.confirmDelete LadonDesktop.handleDeleteResult
      refine calm_cons rfl ?_
      cases a.called with
      | ok => exact calm_detail rfl (Or.inr ⟨rfl, rfl, rfl⟩) (Or.inl rfl) rfl
      | error e => exact hkept.after_calm (calm_handleSensitiveOperationError e _)
    · exact .refl

lemma calm_saveSecret (d : LadonDesktop) : CalmAt platform locks d (d.saveSecret a) := by
  unfold LadonDesktop.saveSecret
  cases d.draft.validateFields with
  | error e => exact calm_same rfl rfl
  | ok =>
    have hadded : CalmAt platform locks d ([.addSecret d.draft], { d with draft := a.added.2 }) :=
      calm_same rfl rfl
    unfold LadonDesktop.handleAddResult
    dsimp only
    cases a.added.1 with
    | ok => exact calm_same rfl rfl
    | error e => exact hadded.after_calm (calm_handleSensitiveOperationError e _)

lemma calm_showUnlockRequest (d : LadonDesktop) : CalmAt platform locks d (d.showUnlockRequest a) := by
  unfold LadonDesktop.showUnlockRequest
  cases a.pendingUnlock with
  | none => exact calm_same rfl rfl
  | some pending =>
    dsimp only
    have hfocused : (if d.focusedUnlock ≠ some pending.id then
        { d with focusedUnlock := some pending.id, focusAuthInput := true } else d).authority =
        d.authority := by
      split_ifs <;> rfl
    split_ifs at hfocused ⊢ <;> exact calm_same hfocused rfl

lemma authority_openEditor (d : LadonDesktop) (session : AgentSessionView) :
    (d.openEditor session).authority = d.authority := by
  unfold LadonDesktop.openEditor
  dsimp only
  split
  · split_ifs <;> rfl
  · rfl

lemma authority_draw (screen : Screen) (d : LadonDesktop) : (d.draw a screen).authority = d.authority := by
  have hfold (sessions : List AgentSessionView) (d : LadonDesktop) :
      (sessions.foldl LadonDesktop.openEditor d).authority = d.authority := by
    induction sessions generalizing d with
    | nil => rfl
    | cons session rest ih => exact (ih _).trans (authority_openEditor d session)
  unfold LadonDesktop.draw
  split
  · split_ifs <;> rfl
  · split_ifs
    · exact hfold _ d
    · rfl
  · rfl

lemma calm_onExit (d : LadonDesktop) : CalmAt platform locks d (d.onExit a) :=
  (calm_processExternalLock d).after_calm (calm_dropped rfl)

end Handlers

end Ladon.Desktop

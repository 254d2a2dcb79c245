import Ladon.DesktopSpec

/-!
What one event of the desktop does: something calm, or a question for the human, or what the human
answered.
-/

namespace Ladon.Desktop

open Ladon.Error Ladon.Model Ladon.Approval Ladon.Grants Ladon.Controller Ladon.SecretEditor
  Ladon.SecretDetail Ladon.SessionAuth Ladon.ApprovalLifetime Ladon.Lib Ladon.Lib.Machine

/-! ### Asking -/

/-- The event asks the human, by the method, for what is before them on the screen. -/
inductive Asks (platform : Platform) (ui : Ui) : Event → ConfirmationAction → TouchIdTarget → Prop
  | openApp {a : Answers} {session : Uuid} {epoch : ℕ}
      (locked : ui.desktop.desktopLock = .locked epoch)
      (current : a.controller .first = .ok ⟨.unlocked, some session⟩) :
      Asks platform ui (.act .beginAppUnlock a) .touchId (.appUnlock session epoch)
  | openAppByPin {a : Answers} {session : Uuid} {epoch : ℕ}
      (locked : ui.desktop.desktopLock = .locked epoch)
      (current : a.controller .first = .ok ⟨.unlocked, some session⟩) :
      Asks platform ui (.act .authenticateAppPin a) .pin (.appUnlock session epoch)
  | secret {a : Answers} {method : ConfirmationAction} {session : Uuid} {attempt : LocalAuthAttempt}
      (current : a.sessionAt .first = .ok session)
      (selected : ui.desktop.detail.authenticationAttempt session = some attempt) :
      Asks platform ui (.act (.confirmSecret method) a) method (.secret attempt session)
  | approval {a : Answers} {method : ConfirmationAction} {lifetime : ApprovalLifetime}
      {pending : PendingApproval} (shown : ui.shown = some pending)
      (current : a.sessionAt .first = .ok pending.vaultSessionId) :
      Asks platform ui (.act (.approve method lifetime) a) method
        (.approval pending.id pending.vaultSessionId lifetime)
  | unattended {a : Answers} {method : ConfirmationAction} {c : UnattendedConfirmation} {deadline : ℤ}
      (shown : ui.desktop.unattendedConfirmation = some c)
      (confirmed : c.deadline platform = .ok deadline) (later : a.now < deadline)
      (current : a.sessionAt .first = .ok c.consent.context.vault) :
      Asks platform ui (.act (.confirmUnattended method) a) method (.unattended c.consent deadline)

def Event.locks : Event → Bool
  | .stage _ _ | .act .lockApp _ => true
  | _ => false

def Event.setsUp : Event → Bool
  | .act .continueWithTouchId _ | .act .setSessionPin _ => true
  | _ => false

/-- What an event does. -/
inductive Kind (platform : Platform) (ui : Ui) (e : Event) (es : List Effect) (v : Authority) : Prop
  | calm (calm : Calm platform e.locks ui.desktop.authority es v)
  | asked {target : TouchIdTarget} {w : Authority} (asks : Asks platform ui e .touchId target)
      (free : ui.desktop.pendingTouchId = none)
      (calm : Calm platform e.locks ui.desktop.authority [] w) (effects : es = [])
      (authority : v = { w with touchId := some target })
      (admitted : w.lock = .active ∨ ∃ session epoch, target = .appUnlock session epoch)
  | setUp {c : SessionConfirmation} (effects : es = []) (fresh : c.failedPinAttempts = 0)
      (authority : v = { ui.desktop.authority with confirmation := some c })
      (event : e.setsUp = true)
      (set : ∀ pin, c.pin = some pin → pin.Matches platform.argon2 ui.desktop.sessionPin)
  | accepted {target : TouchIdTarget} {w : Authority} {c : SessionConfirmation} {pin : SessionPin}
      {es' : List Effect} (asks : Asks platform ui e .pin target)
      (calm : Calm platform e.locks ui.desktop.authority [] w) (lock : w.lock = ui.desktop.desktopLock)
      (session : ui.desktop.sessionConfirmation = some c) (set : c.pin = some pin)
      (right : pin.Matches platform.argon2 ui.desktop.localPin)
      (effects : es = .comparePin ui.desktop.localPin :: es')
      (does : Does platform e.locks (some target)
        { w with confirmation := some { c with failedPinAttempts := 0 } } es' v)
      (admitted : w.lock = .active ∨ ∃ session epoch, target = .appUnlock session epoch)
  | rejected {w : Authority} {c : SessionConfirmation} {pin : SessionPin}
      (calm : Calm platform e.locks ui.desktop.authority [] w) (lock : w.lock = ui.desktop.desktopLock)
      (session : ui.desktop.sessionConfirmation = some c) (set : c.pin = some pin)
      (wrong : pin.Differs platform.argon2 ui.desktop.localPin)
      (left : c.fail.failedPinAttempts < maxFailedPinAttempts)
      (effects : es = [.comparePin ui.desktop.localPin])
      (authority : v = { w with confirmation := some c.fail })
  | spent {c : SessionConfirmation} {pin : SessionPin}
      (session : ui.desktop.sessionConfirmation = some c) (set : c.pin = some pin)
      (wrong : pin.Differs platform.argon2 ui.desktop.localPin)
      (spent : maxFailedPinAttempts ≤ c.fail.failedPinAttempts)
      (effects : es = [.comparePin ui.desktop.localPin, .lockVault])
      (authority : ∃ w : Authority, v = w.dropped)
  | answered {target : TouchIdTarget} {a : Answers} (event : e = .stage .touchId a)
      (ok : a.touchIdResult = some (.ok ())) (pending : ui.desktop.pendingTouchId = some target)
      (does : Does platform e.locks (some target) { ui.desktop.authority with touchId := none } es v)

/-! ### The PIN -/

/-- What trying the PIN that was typed comes to. -/
inductive Tries (platform : Platform) (locks : Bool) (target : TouchIdTarget) (d : LadonDesktop) :
    Outcome → Prop
  | unable {o : Outcome} (calm : CalmAt platform locks d o) : Tries platform locks target d o
  | accepted {c : SessionConfirmation} {pin : SessionPin} {es : List Effect} {d' : LadonDesktop}
      (session : d.sessionConfirmation = some c) (set : c.pin = some pin)
      (right : pin.Matches platform.argon2 d.localPin)
      (does : Does platform locks (some target)
        { d.authority with confirmation := some { c with failedPinAttempts := 0 } } es d'.authority) :
      Tries platform locks target d (.comparePin d.localPin :: es, d')
  | rejected {c : SessionConfirmation} {pin : SessionPin} {d' : LadonDesktop}
      (session : d.sessionConfirmation = some c) (set : c.pin = some pin)
      (wrong : pin.Differs platform.argon2 d.localPin)
      (left : c.fail.failedPinAttempts < maxFailedPinAttempts)
      (authority : d'.authority = { d.authority with confirmation := some c.fail }) :
      Tries platform locks target d ([.comparePin d.localPin], d')
  | spent {c : SessionConfirmation} {pin : SessionPin} {d' : LadonDesktop}
      (session : d.sessionConfirmation = some c) (set : c.pin = some pin)
      (wrong : pin.Differs platform.argon2 d.localPin)
      (spent : maxFailedPinAttempts ≤ c.fail.failedPinAttempts)
      (authority : ∃ w : Authority, d'.authority = w.dropped) :
      Tries platform locks target d ([.comparePin d.localPin, .lockVault], d')

section Pin

variable {platform : Platform} {locks : Bool} {a : Answers} {d : LadonDesktop}
  {target : TouchIdTarget} {accepted : LadonDesktop → Outcome}

lemma authority_lockImmediately (d : LadonDesktop) :
    (d.lockImmediately a).2.authority = d.authority.dropped := by
  unfold LadonDesktop.lockImmediately LadonDesktop.finishImmediateLock
  cases a.vaultLocked with
  | ok => rfl
  | error e => rfl

/-- A PIN that is compared is one that could be hashed. -/
lemma comparison_eq {c : SessionConfirmation} {pin : SessionPin}
    (hsession : d.sessionConfirmation = some c) (hset : c.pin = some pin)
    (h : platform.argon2 (Utf8.ofString d.localPin) pin.salt.1 ≠ none) :
    d.comparison platform = [.comparePin d.localPin] := by
  have hhash := Option.isSome_iff_ne_none.mpr h
  simp only [LadonDesktop.comparison, hsession, Option.bind_some, hset, if_pos hhash]

/-- The PIN is tried for the target. -/
theorem withPin_tries (haccepted : ∀ c : SessionConfirmation, d.sessionConfirmation = some c →
    ∀ d' : LadonDesktop,
      d'.authority = { d.authority with confirmation := some { c with failedPinAttempts := 0 } } →
      Does platform locks (some target) d'.authority (accepted d').1 (accepted d').2.authority) :
    Tries platform locks target d (d.withPin platform a accepted) := by
  unfold LadonDesktop.withPin LadonDesktop.verifyLocalPin
  cases hsession : d.sessionConfirmation with
  | none =>
    have hnone : d.comparison platform = [] := by simp [LadonDesktop.comparison, hsession]
    rw [hnone]
    exact .unable (calm_same (by cases d; cases hsession; rfl) rfl)
  | some c =>
    have htried : SessionConfirmation.Tried platform.argon2 c d.localPin
        (c.verifyPin platform.argon2 d.localPin) := SessionConfirmation.verifyPin_tried
    dsimp only
    generalize c.verifyPin platform.argon2 d.localPin = r at htried
    have hcomparison {pin : SessionPin} (hset : c.pin = some pin)
        (h : platform.argon2 (Utf8.ofString d.localPin) pin.salt.1 ≠ none) :
        d.comparison platform = [.comparePin d.localPin] := comparison_eq hsession hset h
    cases htried with
    | @accepted pin set right =>
      have hashed : platform.argon2 (Utf8.ofString d.localPin) pin.salt.1 ≠ none := by
        rw [show platform.argon2 (Utf8.ofString d.localPin) pin.salt.1 = _ from right]
        simp
      dsimp only
      rw [hcomparison set hashed]
      have hdoes := haccepted c hsession
        { d with sessionConfirmation := some { c with failedPinAttempts := 0 }, localPin := "" } rfl
      exact .accepted hsession set right hdoes
    | @rejected pin set wrong left =>
      obtain ⟨hash, hhash, hne⟩ := wrong
      dsimp only
      rw [hcomparison set (by rw [hhash]; simp)]
      exact .rejected hsession set ⟨hash, hhash, hne⟩ left rfl
    | @last pin set wrong spent =>
      obtain ⟨hash, hhash, hne⟩ := wrong
      dsimp only
      rw [hcomparison set (by rw [hhash]; simp)]
      exact .spent hsession set ⟨hash, hhash, hne⟩ spent ⟨_, authority_lockImmediately _⟩
    | unset unset =>
      have hnone : d.comparison platform = [] := by
        simp [LadonDesktop.comparison, hsession, unset]
      dsimp only
      rw [hnone]
      exact .unable (calm_same (by cases d; cases hsession; rfl) rfl)
    | @unable pin set unable =>
      have hnone : d.comparison platform = [] := by
        simp [LadonDesktop.comparison, hsession, set, unable]
      dsimp only
      rw [hnone]
      refine .unable (calm_noticeFrom _ _ _ (calm_same ?_ rfl))
      cases d
      cases hsession
      rfl

end Pin

/-! ### What is done on the word of the human -/

section Confirmed

variable {platform : Platform} {locks : Bool} {a : Answers} {d : LadonDesktop}

lemma Inv.record {u : Authority} (h : Inv u) :
    Inv { u with confirmation := u.confirmation.map SessionConfirmation.recordTouchIdSuccess } where
  hidden hne := by
    obtain ⟨hmode, hauthorized, hasking, hgrants, hsessions, htouchId⟩ := h.hidden hne
    exact ⟨hmode, hauthorized, hasking, hgrants, hsessions, htouchId⟩
  authorized := h.authorized
  shown := h.shown
  attempts c hc := by
    obtain ⟨c', -, rfl⟩ := Option.map_eq_some_iff.mp hc
    simp [SessionConfirmation.recordTouchIdSuccess, maxFailedPinAttempts]

/-- The count of wrong PINs starts over, for a target that was confirmed. -/
lemma does_record {u : Authority} (target : TouchIdTarget) :
    Does platform locks (some target) u []
      { u with confirmation := u.confirmation.map SessionConfirmation.recordTouchIdSuccess } where
  effects e he := by cases he
  once := by simp
  compares e he := by cases he
  touchId t ht := ht
  confirmation := Or.inr (Or.inr ⟨rfl, rfl⟩)
  authorized attempt ha := Or.inl ha
  unlocked hne heq := absurd heq hne
  settled _ := Or.inl rfl
  inv := Inv.record

/-- One thing that the human allowed is done; the interface and what is shown stay as they are. -/
lemma does_single {target : TouchIdTarget} {u : Authority} {e : Effect}
    (hgrants : Grants platform target e) (hcompares : e.compares = false) :
    Does platform locks (some target) u [e] u where
  effects e' he' _ := by
    rw [List.mem_singleton.mp he']
    exact ⟨target, rfl, hgrants⟩
  once := by
    rw [List.countP_singleton]
    split_ifs <;> omega
  compares e' he' := by
    rw [List.mem_singleton.mp he']
    exact hcompares
  touchId t ht := ht
  confirmation := Or.inr (Or.inl rfl)
  authorized attempt ha := Or.inl ha
  unlocked hne heq := absurd heq hne
  settled _ := Or.inl rfl
  inv h := h

lemma does_recorded_single {target : TouchIdTarget} {e : Effect} (u : Authority)
    (hgrants : Grants platform target e) (hcompares : e.compares = false) :
    Does platform locks (some target) u [e]
      { u with confirmation := u.confirmation.map SessionConfirmation.recordTouchIdSuccess } := by
  have hsingle (v : Authority) : Does platform locks (some target) v [e] v :=
    does_single hgrants hcompares
  exact (does_record target).trans (hsingle _) (by simpa using (hsingle u).once)

/-- The secret is authorized that was selected when the human was asked, and still is. -/
lemma does_unlockSecret {u : Authority} {attempt : LocalAuthAttempt} {captured : Uuid}
    (hactive : u.lock = .active)
    (hcurrent : u.detail.authenticationAttempt captured = some attempt) :
    Does platform locks (some (.secret attempt captured)) u [.unlockSecret attempt]
      { u with detail := { u.detail with authorized := some attempt } } where
  effects e he _ := by
    rw [List.mem_singleton.mp he]
    exact ⟨_, rfl, .secret⟩
  once := by simp [Effect.privileged]
  compares e he := by
    rw [List.mem_singleton.mp he]
    rfl
  touchId t ht := ht
  confirmation := Or.inr (Or.inl rfl)
  authorized attempt' ha := by
    cases ha
    exact Or.inr (List.mem_singleton.mpr rfl)
  unlocked hne := absurd hactive hne
  settled _ := Or.inl rfl
  inv hinv :=
    { hidden := fun hne => absurd hactive hne
      authorized := by
        rintro attempt' ⟨⟩
        obtain ⟨id, hselected, hfor⟩ := Option.map_eq_some_iff.mp hcurrent
        exact hselected.trans (congrArg some (congrArg LocalAuthAttempt.secretId hfor))
      shown := fun draft hd => ⟨(hinv.shown draft hd).1, attempt, rfl⟩
      attempts := hinv.attempts }

/-- What may come before a secret is opened: nothing, or the record of a Touch ID success. -/
lemma does_recorded {u v : Authority} (target : TouchIdTarget) (hv : v = u ∨
    v = { u with confirmation := u.confirmation.map SessionConfirmation.recordTouchIdSuccess }) :
    Does platform locks (some target) u [] v := by
  rcases hv with rfl | rfl
  · exact Calm.refl.does
  · exact does_record target

lemma acceptSecret_does {look : Look} {attempt : LocalAuthAttempt} {captured : Uuid}
    {accepted : LadonDesktop → LadonDesktop} (hactive : d.desktopLock = .active)
    (hdetail : (accepted d).detail = d.detail)
    (haccepted : (accepted d).authority = d.authority ∨ (accepted d).authority =
      { d.authority with
        confirmation := d.authority.confirmation.map SessionConfirmation.recordTouchIdSuccess }) :
    Does platform locks (some (.secret attempt captured)) d.authority
      (d.acceptSecret a look attempt captured accepted).1
      (d.acceptSecret a look attempt captured accepted).2.authority := by
  unfold LadonDesktop.acceptSecret
  by_cases hcurrent : d.detail.authenticationAttempt captured = some attempt
  · have haccept : d.detail.acceptAuthentication attempt captured =
        (true, { d.detail with authorized := some attempt }) := by
      rw [SecretDetailState.acceptAuthentication, if_neg (not_not.mpr hcurrent)]
    rw [haccept]
    split_ifs
    · have hsame : (accepted d).authority.detail = d.detail := hdetail
      have hlock : (accepted d).authority.lock = .active := by
        rcases haccepted with h | h <;> rw [h] <;> exact hactive
      have hopened : Does platform locks _ _ _ _ :=
        does_unlockSecret hlock (hsame ▸ hcurrent)
      have hall := (does_recorded (.secret attempt captured) haccepted).trans hopened
        (by simp [Effect.privileged])
      rw [hsame] at hall
      exact hall
    · exact (calm_rejectStaleAuthentication d).does
  · have hreject : (d.detail.acceptAuthentication attempt captured).1 = false := by
      rw [SecretDetailState.acceptAuthentication, if_pos hcurrent]
    rw [if_neg (by simp [hreject])]
    exact (calm_rejectStaleAuthentication d).does

/-- The interface is opened again. -/
lemma does_unlockApp {u : Authority} {session : Uuid} {epoch : ℕ} :
    Does platform locks (some (.appUnlock session epoch)) u
      [.unlockApp epoch (.ok ()), .recordSecretActivity] { u with lock := .active } where
  effects e he hp := by
    rcases List.mem_pair.mp he with rfl | rfl
    · exact ⟨_, rfl, .appUnlock⟩
    · cases hp
  once := by simp [List.countP_cons, Effect.privileged]
  compares e he := by rcases List.mem_pair.mp he with rfl | rfl <;> rfl
  touchId t ht := ht
  confirmation := Or.inr (Or.inl rfl)
  authorized attempt ha := Or.inl ha
  unlocked _ _ := Or.inr ⟨epoch, by simp⟩
  settled _ := Or.inr rfl
  inv hinv := ⟨fun hne => absurd rfl hne, hinv.authorized, hinv.shown, hinv.attempts⟩

lemma does_notice {target : TouchIdTarget} {d' : LadonDesktop} {es : List Effect}
    {result : Except LadonError Unit} {success : String} {u : Authority}
    (h : Does platform locks (some target) u es d'.authority) :
    Does platform locks (some target) u es (d'.noticeFrom result success).authority := by
  rw [LadonDesktop.authority_noticeFrom]
  exact h

lemma finishAppUnlock_does (look : Look) {session : Uuid} {epoch : ℕ} (d : LadonDesktop) :
    Does platform locks (some (.appUnlock session epoch)) d.authority
      (d.finishAppUnlock a look session epoch).1
      (d.finishAppUnlock a look session epoch).2.authority := by
  have hcancelled : Calm platform locks d.authority [] { d.authority with touchId := none } :=
    calm_cancelled rfl
  unfold LadonDesktop.finishAppUnlock
  dsimp only
  split_ifs
  · exact hcancelled.does
  · cases a.called with
    | ok => exact hcancelled.after_calm does_unlockApp
    | error e => exact hcancelled.after_calm (does_notice (does_single .appUnlock rfl))

lemma finishAppUnlockTouchId_does {session : Uuid} {epoch : ℕ} (d : LadonDesktop) :
    Does platform locks (some (.appUnlock session epoch)) d.authority
      (d.finishAppUnlockTouchId a session epoch).1
      (d.finishAppUnlockTouchId a session epoch).2.authority := by
  unfold LadonDesktop.finishAppUnlockTouchId
  dsimp only
  split_ifs
  · exact (calm_cancelled rfl).does
  · exact (calm_cancelled rfl).does
  · have hopened : Does platform locks (some (.appUnlock session epoch)) _ _ _ :=
      finishAppUnlock_does (a := a) .second { d with localPin := "" }.recordTouchIdSuccess
    exact (does_record (.appUnlock session epoch)).trans hopened (by simpa using hopened.once)

lemma finishAuthenticatedApproval_does {id session : Uuid} {touchId : Bool}
    {lifetime : ApprovalLifetime} (d : LadonDesktop) :
    Does platform locks (some (.approval id session lifetime)) d.authority
      (d.finishAuthenticatedApproval platform a id session touchId lifetime).1
      (d.finishAuthenticatedApproval platform a id session touchId lifetime).2.authority := by
  unfold LadonDesktop.finishAuthenticatedApproval
  by_cases hstale :
      a.sessionAt .second ≠ .ok session ∨ ¬ LadonDesktop.exactRequestIsPending a id session
  · rw [if_pos hstale]
    exact (calm_rejectStaleAuthentication d).does
  · rw [if_neg hstale]
    cases hdecision : lifetime.decision (localDayEnd platform.libc a.now) with
    | error e => exact does_notice Calm.refl.does
    | ok decision =>
      dsimp only
      refine does_notice ?_
      by_cases hrecord : a.called = .ok () ∧ touchId = true
      · rw [if_pos hrecord]
        exact does_recorded_single d.authority (.approval hdecision) rfl
      · rw [if_neg hrecord]
        exact does_single (.approval hdecision) rfl

lemma finishAuthenticatedUnattended_does {consent : UnattendedConsent} {deadline : ℤ} {touchId : Bool}
    (d : LadonDesktop) :
    Does platform locks (some (.unattended consent deadline)) d.authority
      (d.finishAuthenticatedUnattended a consent deadline touchId).1
      (d.finishAuthenticatedUnattended a consent deadline touchId).2.authority := by
  have hanswered : CalmAt platform locks d
      ([], { d with unattendedConfirmation := none, localPin := "" }) :=
    Less.calm ⟨rfl, Or.inr rfl, Or.inr rfl, .refl _, nofun, Or.inr rfl, Or.inr rfl⟩ rfl
  unfold LadonDesktop.finishAuthenticatedUnattended
  dsimp only
  by_cases hactive : d.desktopLock ≠ .active
  · rw [if_pos hactive]
    exact does_notice hanswered.does
  · rw [if_neg hactive]
    refine does_notice (hanswered.after_calm ?_)
    by_cases hok : a.called = .ok ()
    · rw [if_pos hok]
      cases touchId with
      | false => exact (does_single .unattended rfl).then_calm (calm_refreshAgentGrants _)
      | true =>
        have hrefreshed : CalmAt platform locks _ _ := calm_refreshAgentGrants (a := a)
          { d with unattendedConfirmation := none, localPin := "" }.recordTouchIdSuccess
        exact (does_recorded_single _ .unattended rfl).then_calm hrefreshed
    · rw [if_neg hok]
      exact does_single .unattended rfl

end Confirmed

/-! ### One event -/

section Events

variable {platform : Platform} {a : Answers} {ui : Ui} {e : Event} {d' : LadonDesktop}
  {target : TouchIdTarget}

lemma askTouchId_kind (hasks : Asks platform ui e .touchId target)
    (hcalm : CalmAt platform e.locks ui.desktop ([], d'))
    (hsame : d'.pendingTouchId = ui.desktop.pendingTouchId)
    (hadmitted : d'.desktopLock = .active ∨ ∃ session epoch, target = .appUnlock session epoch) :
    Kind platform ui e (d'.askTouchId a target).1 (d'.askTouchId a target).2.authority := by
  unfold LadonDesktop.askTouchId
  cases hpending : d'.pendingTouchId with
  | some busy => exact .calm hcalm
  | none =>
    cases a.prompt with
    | ok => exact .asked hasks (hsame.symm.trans hpending) hcalm rfl rfl hadmitted
    | error e => exact .calm (calm_noticeFrom _ _ _ hcalm)

lemma Tries.kind {o : Outcome} (h : Tries platform e.locks target d' o)
    (hasks : Asks platform ui e .pin target)
    (hcalm : CalmAt platform e.locks ui.desktop ([], d'))
    (hpin : d'.localPin = ui.desktop.localPin)
    (hsession : d'.sessionConfirmation = ui.desktop.sessionConfirmation)
    (hlock : d'.desktopLock = ui.desktop.desktopLock)
    (hadmitted : d'.desktopLock = .active ∨ ∃ session epoch, target = .appUnlock session epoch) :
    Kind platform ui e o.1 o.2.authority := by
  cases h with
  | unable calm => exact .calm (hcalm.after_calm calm)
  | accepted session set right does =>
    rw [hpin] at right ⊢
    exact .accepted hasks hcalm hlock (hsession.symm.trans session) set right rfl does hadmitted
  | rejected session set wrong left authority =>
    rw [hpin] at wrong ⊢
    exact .rejected hcalm hlock (hsession.symm.trans session) set wrong left rfl authority
  | spent session set wrong spent authority =>
    rw [hpin] at wrong ⊢
    exact .spent (hsession.symm.trans session) set wrong spent rfl authority

lemma currentAppUnlockContext_eq {look : Look} {d : LadonDesktop} {session : Uuid} {epoch : ℕ}
    (h : d.currentAppUnlockContext a look = some (session, epoch)) :
    d.desktopLock = .locked epoch ∧ a.controller look = .ok ⟨.unlocked, some session⟩ := by
  unfold LadonDesktop.currentAppUnlockContext at h
  cases hlock : d.desktopLock with
  | active => simp [hlock] at h
  | locking epoch => simp [hlock] at h
  | locked epoch' =>
    rw [hlock] at h
    dsimp only at h
    split_ifs at h with hepoch
    cases hview : a.controller look with
    | error e => simp [hview] at h
    | ok view =>
      rw [hview] at h
      dsimp only at h
      split_ifs at h with hphase
      obtain ⟨id, hid, hpair⟩ := Option.map_eq_some_iff.mp h
      cases hpair
      obtain ⟨phase, sessionId⟩ := view
      cases hid
      cases not_not.mp hphase
      exact ⟨rfl, rfl⟩

lemma beginAppUnlock_kind :
    Kind platform ui (.act .beginAppUnlock a) (ui.desktop.beginAppUnlock a).1
      (ui.desktop.beginAppUnlock a).2.authority := by
  unfold LadonDesktop.beginAppUnlock
  cases appUnlockStart a.touchIdAvailable ui.desktop.hasPin with
  | pin => exact .calm (calm_cancelled rfl)
  | hardLock => exact .calm (calm_lockImmediately _)
  | touchId =>
    dsimp only
    split_ifs
    · exact .calm .refl
    · cases hcontext : ui.desktop.currentAppUnlockContext a .first with
      | none => exact .calm (calm_cancelled rfl)
      | some context =>
        obtain ⟨session, epoch⟩ := context
        obtain ⟨hlocked, hcurrent⟩ := currentAppUnlockContext_eq hcontext
        exact askTouchId_kind (.openApp hlocked hcurrent) (calm_same rfl rfl) rfl
          (Or.inr ⟨session, epoch, rfl⟩)

lemma authenticateAppPin_kind :
    Kind platform ui (.act .authenticateAppPin a) (ui.desktop.authenticateAppPin platform a).1
      (ui.desktop.authenticateAppPin platform a).2.authority := by
  unfold LadonDesktop.authenticateAppPin
  cases hcontext : ui.desktop.currentAppUnlockContext a .first with
  | none => exact .calm (calm_cancelled rfl)
  | some context =>
    obtain ⟨session, epoch⟩ := context
    obtain ⟨hlocked, hcurrent⟩ := currentAppUnlockContext_eq hcontext
    unfold LadonDesktop.authenticateAppPinForContext
    dsimp only
    split_ifs
    · exact .calm (calm_cancelled rfl)
    · refine Tries.kind (withPin_tries ?_) (.openAppByPin hlocked hcurrent) (calm_cancelled rfl) rfl rfl rfl
        (Or.inr ⟨session, epoch, rfl⟩)
      intro c _ d' _
      exact finishAppUnlock_does .third d'

lemma authenticateSelectedSecret_kind {method : ConfirmationAction}
    (hactive : ui.desktop.desktopLock = .active) :
    Kind platform ui (.act (.confirmSecret method) a)
      (ui.desktop.authenticateSelectedSecret platform a method).1
      (ui.desktop.authenticateSelectedSecret platform a method).2.authority := by
  unfold LadonDesktop.authenticateSelectedSecret
  cases hsession : a.sessionAt .first with
  | error e => exact .calm (calm_synchronizePhase _ _)
  | ok session =>
    dsimp only
    cases hattempt : ui.desktop.detail.authenticationAttempt session with
    | none => exact .calm (calm_same rfl rfl)
    | some attempt =>
      cases method with
      | touchId => exact askTouchId_kind (.secret hsession hattempt) .refl rfl (Or.inl hactive)
      | pin =>
        refine Tries.kind (withPin_tries ?_) (.secret hsession hattempt) (calm_cancelled rfl) rfl rfl rfl
          (Or.inl hactive)
        intro c _ d' hd'
        have hlock : d'.desktopLock = .active := (congrArg Authority.lock hd').trans hactive
        exact acceptSecret_does hlock rfl (Or.inl rfl)

lemma authenticatePendingApproval_kind {method : ConfirmationAction} {lifetime : ApprovalLifetime}
    {pending : PendingApproval} (hactive : ui.desktop.desktopLock = .active)
    (hshown : ui.shown = some pending) :
    Kind platform ui (.act (.approve method lifetime) a)
      (ui.desktop.authenticatePendingApproval platform a method pending lifetime).1
      (ui.desktop.authenticatePendingApproval platform a method pending lifetime).2.authority := by
  unfold LadonDesktop.authenticatePendingApproval
  split_ifs with hstale
  · exact .calm (calm_rejectStaleAuthentication _)
  · have hcurrent := not_not.mp hstale
    cases method with
    | touchId => exact askTouchId_kind (.approval hshown hcurrent) .refl rfl (Or.inl hactive)
    | pin =>
      refine Tries.kind (withPin_tries ?_) (.approval hshown hcurrent) (calm_cancelled rfl) rfl rfl rfl
        (Or.inl hactive)
      intro c _ d' _
      exact finishAuthenticatedApproval_does d'

lemma authenticateUnattended_kind {method : ConfirmationAction} :
    Kind platform ui (.act (.confirmUnattended method) a)
      (ui.desktop.authenticateUnattended platform a method).1
      (ui.desktop.authenticateUnattended platform a method).2.authority := by
  unfold LadonDesktop.authenticateUnattended
  cases hshown : ui.desktop.unattendedConfirmation with
  | none => exact .calm .refl
  | some c =>
    dsimp only
    cases hdeadline : c.deadline platform with
    | error e => exact .calm (calm_same rfl rfl)
    | ok deadline =>
      dsimp only
      split_ifs with hpast hstale
      · exact .calm (calm_same rfl rfl)
      · have hgone (d : LadonDesktop) : CalmAt platform (Event.act (.confirmUnattended method) a).locks
            d ([], { d with unattendedConfirmation := none }) :=
          Less.calm ⟨rfl, Or.inr rfl, Or.inr rfl, .refl _, nofun, Or.inr rfl, Or.inr rfl⟩ rfl
        have hrejected := (calm_rejectStaleAuthentication (a := a) ui.desktop).after_calm (hgone _)
        rw [List.append_nil] at hrejected
        exact .calm hrejected
      · push Not at hstale
        obtain ⟨hactive, hcurrent⟩ := hstale
        have hasks : Asks platform ui (.act (.confirmUnattended method) a) method
            (.unattended c.consent deadline) := .unattended hshown hdeadline (by omega) hcurrent
        cases method with
        | touchId => exact askTouchId_kind hasks .refl rfl (Or.inl hactive)
        | pin =>
          refine Tries.kind (withPin_tries ?_) hasks .refl rfl rfl rfl (Or.inl hactive)
          intro c _ d' _
          exact finishAuthenticatedUnattended_does d'

lemma finishTouchId_does {locks : Bool} (d : LadonDesktop)
    (hactive : ∀ attempt session, target = .secret attempt session → d.desktopLock = .active) :
    Does platform locks (some target) d.authority (d.finishTouchId platform a target).1
      (d.finishTouchId platform a target).2.authority := by
  cases target with
  | unattended consent deadline => exact finishAuthenticatedUnattended_does d
  | appUnlock session epoch => exact finishAppUnlockTouchId_does d
  | approval id session lifetime => exact finishAuthenticatedApproval_does d
  | secret attempt session => exact acceptSecret_does (hactive attempt session rfl) rfl (Or.inr rfl)

lemma processTouchIdResult_kind (hinv : Inv ui.desktop.authority) :
    Kind platform ui (.stage .touchId a) (ui.desktop.processTouchIdResult platform a).1
      (ui.desktop.processTouchIdResult platform a).2.authority := by
  unfold LadonDesktop.processTouchIdResult
  cases hpending : ui.desktop.pendingTouchId with
  | none => exact .calm .refl
  | some target =>
    cases hresult : a.touchIdResult with
    | none => exact .calm .refl
    | some result =>
      dsimp only
      cases result with
      | error e =>
        cases e with
        | _ => exact .calm (calm_cancelled rfl)
      | ok answer =>
        cases answer
        refine .answered rfl hresult hpending
          (finishTouchId_does { ui.desktop with pendingTouchId := none, localPin := "" } ?_)
        -- what is asked for while the interface is locked is to open it
        rintro attempt session rfl
        by_contra hne
        obtain ⟨_, _, h⟩ := (hinv.hidden hne).touchId _ hpending
        cases h

lemma stage_kind (s : Stage) (hinv : Inv ui.desktop.authority) :
    Kind platform ui (.stage s a) (ui.desktop.stage platform a s).1
      (ui.desktop.stage platform a s).2.authority := by
  cases s with
  | tray action =>
    cases action with
    | openWindow => exact .calm .refl
    | lockApp => exact .calm (calm_lockApp _)
    | lockVault => exact .calm (calm_lockImmediately _)
    | quit => exact .calm (calm_lockImmediately _)
  | hide => exact .calm (calm_lockApp _)
  | externalLock => exact .calm (calm_processExternalLock _)
  | idle =>
    unfold LadonDesktop.stage
    dsimp only
    split_ifs
    · exact .calm (calm_handleIdleTimeout _)
    · exact .calm .refl
  | appLock => exact .calm (calm_processAppLockResult _)
  | touchId => exact processTouchIdResult_kind hinv
  | phase => exact .calm (calm_synchronize _)
  | agentGrants => exact .calm (calm_refreshAgentGrants _)
  | close => exact .calm (calm_close _)
  | unlockRequest => exact .calm (calm_showUnlockRequest _)

lemma setSessionPin_kind :
    Kind platform ui (.act .setSessionPin a) [] (ui.desktop.setSessionPin platform a).authority := by
  unfold LadonDesktop.setSessionPin
  cases hnew : SessionPin.new platform.argon2 a.salt ui.desktop.sessionPin
      ui.desktop.sessionPinConfirmation with
  | error e => exact .calm (calm_same rfl rfl)
  | ok pin =>
    refine .setUp rfl rfl rfl rfl ?_
    rintro _ ⟨⟩
    exact SessionPin.matches_new hnew

/-- What is done to the access of agents is followed by a look at it. -/
lemma calm_refreshed {locks : Bool} {es : List Effect} (d d' : LadonDesktop)
    (h : CalmAt platform locks d (es, d')) :
    CalmAt platform locks d (es, d'.refreshAgentGrants a) := by
  have hrefreshed := h.after_calm (calm_refreshAgentGrants (a := a) d')
  rw [List.append_nil] at hrefreshed
  exact hrefreshed

lemma calm_revokeAgentGrant {locks : Bool} {client : Uuid} {secret : SecretId} (d : LadonDesktop) :
    CalmAt platform locks d (d.revokeAgentGrant a client secret) := by
  have hnoticed : CalmAt platform locks d
      ([.revokeGrant client secret], d.noticeFrom a.called "Agent access revoked") :=
    calm_noticeFrom _ _ _ (calm_same rfl rfl)
  unfold LadonDesktop.revokeAgentGrant
  dsimp only
  split_ifs
  · exact calm_refreshed d _ hnoticed
  · exact hnoticed

lemma calm_revokeAllAgentGrants {locks : Bool} (d : LadonDesktop) :
    CalmAt platform locks d (d.revokeAllAgentGrants a) := by
  unfold LadonDesktop.revokeAllAgentGrants
  refine calm_noticeFrom _ _ _ ?_
  split_ifs
  · exact Less.calm ⟨rfl, Or.inr rfl, Or.inr rfl, .refl _, id, Or.inl rfl, Or.inl rfl⟩ rfl
  · exact calm_same rfl rfl

lemma authority_type (d : LadonDesktop) (text : String) (field : TextField) :
    (d.type text field).authority = d.authority := by
  cases field <;> rfl

lemma authority_editSession (d : LadonDesktop) (client : Uuid) (name note : String) :
    (d.editSession client name note).authority = d.authority := by
  unfold LadonDesktop.editSession
  cases d.sessionEditors.get? client <;> rfl

/-- What changes the consent that is put before the human leaves it there. -/
lemma authority_unattended (d : LadonDesktop) (f : UnattendedConfirmation → UnattendedConfirmation) :
    { d with unattendedConfirmation := d.unattendedConfirmation.map f }.authority = d.authority := by
  simp [LadonDesktop.authority]

lemma act_kind (action : Action) (hoffered : action.offered a ui = true)
    (hdialogs : ui.screen = .dialogs → ui.desktop.desktopLock = .active) :
    Kind platform ui (.act action a) (action.run platform a ui).1
      (action.run platform a ui).2.authority := by
  cases action with
  | type field text => exact .calm (calm_same (authority_type _ _ _) rfl)
  | createVault => exact .calm (calm_noticeFrom _ _ _ (calm_same rfl rfl))
  | unlockVault => exact .calm (calm_noticeFrom _ _ _ (calm_same rfl rfl))
  | restoreBackup => exact .calm (calm_noticeFrom _ _ _ (calm_same rfl rfl))
  | continueWithPrimary => exact .calm (calm_noticeFrom _ _ _ (calm_same rfl rfl))
  | continueWithTouchId => exact .setUp rfl rfl rfl rfl nofun
  | setSessionPin => exact setSessionPin_kind
  | denyUnlockRequest =>
    unfold Action.run
    dsimp only
    cases ui.desktop.focusedUnlock with
    | none => exact .calm .refl
    | some id => exact .calm (calm_cancelled rfl)
  | beginAppUnlock => exact beginAppUnlock_kind
  | useAppUnlockPin => exact .calm (calm_cancelled rfl)
  | authenticateAppPin => exact authenticateAppPin_kind
  | lockVault => exact .calm (calm_lockImmediately _)
  | lockApp => exact .calm (calm_lockApp _)
  | navigate target => exact .calm (calm_requestNavigation target _)
  | editDraft draft => exact .calm (calm_same rfl rfl)
  | saveSecret => exact .calm (calm_saveSecret _)
  | unlockSecret => exact .calm (calm_same rfl rfl)
  | openDetail editing => exact .calm (calm_openDetail editing _)
  | hideDetail =>
    exact .calm (calm_detail rfl (Or.inl (.of_mode rfl rfl rfl (Or.inr rfl))) (Or.inr rfl) rfl)
  | editDetail name fields => exact .calm (calm_editDetail name fields _)
  | saveDetail => exact .calm (calm_saveDetail _)
  | requestDelete =>
    unfold Action.run
    dsimp only
    cases ui.desktop.detail.selected with
    | none => exact .calm .refl
    | some id => exact .calm (calm_same rfl rfl)
  | confirmDelete => exact .calm (calm_deleteSelected _)
  | cancelDelete => exact .calm (calm_same rfl rfl)
  | editSession client name note => exact .calm (calm_same (authority_editSession _ _ _ _) rfl)
  | saveAliasAndNote client connectionId name note =>
    exact .calm (calm_refreshed _ _ (calm_noticeFrom _ _ _ (calm_same rfl rfl)))
  | revokeSession client =>
    exact .calm (calm_refreshed _ _ (calm_noticeFrom _ _ _ (calm_same rfl rfl)))
  | revokeGrant client secret => exact .calm (calm_revokeAgentGrant _)
  | revokeAll => exact .calm (calm_revokeAllAgentGrants _)
  | beginUnattended => exact .calm (calm_beginUnattendedConfirmation _)
  | confirmSecret method =>
    simp only [Action.offered, Bool.and_eq_true, decide_eq_true_eq] at hoffered
    exact authenticateSelectedSecret_kind (hdialogs hoffered.1.1)
  | cancelSecret => exact .calm (calm_cancelled rfl)
  | continueEditing =>
    exact .calm (calm_detail rfl (Or.inl (.of_mode rfl rfl rfl (Or.inl rfl))) (Or.inr rfl) rfl)
  | discard =>
    exact .calm (calm_detail rfl (detailLess_discardPendingNavigation _) (Or.inl rfl) rfl)
  | approve method lifetime =>
    simp only [Action.offered, Bool.and_eq_true, decide_eq_true_eq] at hoffered
    unfold Action.run
    dsimp only
    cases hshown : ui.shown with
    | none => exact .calm .refl
    | some pending => exact authenticatePendingApproval_kind (hdialogs hoffered.1.1) hshown
  | deny =>
    unfold Action.run
    dsimp only
    cases ui.shown with
    | none => exact .calm .refl
    | some pending => exact .calm (calm_noticeFrom _ _ _ (calm_cancelled rfl))
  | chooseLifetime lifetime => exact .calm (calm_same (authority_unattended _ _) rfl)
  | typeLocalTime text => exact .calm (calm_same (authority_unattended _ _) rfl)
  | confirmUnattended method => exact authenticateUnattended_kind
  | cancelUnattended =>
    exact .calm (Less.calm ⟨rfl, Or.inr rfl, Or.inl rfl, .refl _, nofun, Or.inr rfl, Or.inr rfl⟩ rfl)

end Events

end Ladon.Desktop

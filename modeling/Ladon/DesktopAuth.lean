import Ladon.DesktopKind

/-!
Whole runs of the desktop: the invariant, and what every privileged effect, every wrong PIN and
every locked interface can be traced back to.
-/

namespace Ladon.Desktop

open Ladon.Error Ladon.Approval Ladon.Controller Ladon.SecretEditor Ladon.SecretDetail
  Ladon.SessionAuth Ladon.Lib Ladon.Lib.Machine

/-! ### The invariant -/

structure UiInv (ui : Ui) : Prop where
  inv : Inv ui.desktop.authority
  dialogs : ui.screen = .dialogs → ui.desktop.desktopLock = .active

section Step

variable {platform : Platform} {ui ui' : Ui} {e : Event} {es : List Effect} {u v w : Authority}

lemma inv_dropped (u : Authority) : Inv u.dropped where
  hidden hne := absurd rfl hne
  authorized attempt h := by cases h
  shown draft h := by cases h
  attempts c h := by cases h

/-- A count that is not spent may take the place of another. -/
lemma Inv.with_confirmation {c : SessionConfirmation} (h : Inv u)
    (hc : c.failedPinAttempts < maxFailedPinAttempts) : Inv { u with confirmation := some c } where
  hidden hne := by
    obtain ⟨hmode, hauthorized, hasking, hgrants, hsessions, htouchId⟩ := h.hidden hne
    exact ⟨hmode, hauthorized, hasking, hgrants, hsessions, htouchId⟩
  authorized := h.authorized
  shown := h.shown
  attempts c' hc' := by
    cases hc'
    exact hc

lemma Inv.with_touchId {target : TouchIdTarget} (h : Inv u)
    (hadmitted : u.lock = .active ∨ ∃ session epoch, target = .appUnlock session epoch) :
    Inv { u with touchId := some target } where
  hidden hne := by
    obtain ⟨hmode, hauthorized, hasking, hgrants, hsessions, -⟩ := h.hidden hne
    refine ⟨hmode, hauthorized, hasking, hgrants, hsessions, ?_⟩
    rintro _ ⟨⟩
    exact hadmitted.resolve_left hne
  authorized := h.authorized
  shown := h.shown
  attempts := h.attempts

lemma Kind.inv (h : Kind platform ui e es v) (hinv : Inv ui.desktop.authority) : Inv v := by
  cases h with
  | calm calm => exact calm.inv hinv
  | asked asks free calm effects authority admitted =>
    rw [authority]
    exact (calm.inv hinv).with_touchId admitted
  | setUp effects fresh authority event set =>
    rw [authority]
    exact hinv.with_confirmation (by rw [fresh]; decide)
  | accepted asks calm lock session set right effects does admitted =>
    exact does.inv ((calm.inv hinv).with_confirmation (show 0 < maxFailedPinAttempts by decide))
  | rejected calm lock session set wrong left effects authority =>
    rw [authority]
    exact (calm.inv hinv).with_confirmation left
  | spent session set wrong spent effects authority =>
    obtain ⟨w, rfl⟩ := authority
    exact inv_dropped w
  | answered event ok pending does =>
    have hcancelled : Calm platform false ui.desktop.authority [] _ := calm_cancelled rfl
    exact does.inv (hcancelled.inv hinv)

/-- An interface that is open stays open, where the event cannot begin a lock. -/
lemma Kind.settled (h : Kind platform ui e es v) (hlocks : e.locks = false) :
    v.lock = ui.desktop.desktopLock ∨ v.lock = .active := by
  cases h with
  | calm calm => exact calm.settled hlocks
  | asked asks free calm effects authority admitted =>
    rw [authority]
    exact calm.settled hlocks
  | setUp effects fresh authority event set =>
    rw [authority]
    exact Or.inl rfl
  | accepted asks calm lock session set right effects does admitted =>
    exact (does.settled hlocks).elim (fun hv => hv ▸ calm.settled hlocks) Or.inr
  | rejected calm lock session set wrong left effects authority =>
    rw [authority]
    exact calm.settled hlocks
  | spent session set wrong spent effects authority =>
    obtain ⟨w, rfl⟩ := authority
    exact Or.inr rfl
  | answered event ok pending does =>
    rw [event] at hlocks
    cases hlocks

lemma screenFor_ne_dialogs (phase : VaultUiPhase) (d : LadonDesktop) :
    screenFor phase d ≠ .dialogs := by
  unfold screenFor
  cases phase with
  | unlocked =>
    cases d.desktopLock with
    | active =>
      dsimp only
      split_ifs <;> simp
    | locking epoch => simp
    | locked epoch => simp
  | _ => simp

lemma overlayFor_ne_dialogs (phase : VaultUiPhase) (d : LadonDesktop) :
    overlayFor phase d ≠ .dialogs := by
  unfold overlayFor
  cases phase with
  | unlocked => cases d.desktopLock <;> simp
  | _ => simp

/-- What an event does, for each of the events. -/
theorem perform_kind (hinv : UiInv ui) (h : perform platform ui e = some (es, ui')) :
    Kind platform ui e es ui'.desktop.authority ∧ UiInv ui' := by
  have hstep (hkind : Kind platform ui e es ui'.desktop.authority)
      (hdialogs : ui'.screen = .dialogs → ui'.desktop.desktopLock = .active) :
      Kind platform ui e es ui'.desktop.authority ∧ UiInv ui' :=
    ⟨hkind, hkind.inv hinv.inv, hdialogs⟩
  cases e with
  | stage s a =>
    cases h
    exact hstep (stage_kind s hinv.inv) (fun h => by cases h)
  | draw a =>
    cases h
    exact hstep (.calm (calm_same (authority_draw _ _) rfl))
      fun h => absurd h (screenFor_ne_dialogs _ _)
  | drawn a =>
    simp only [perform] at h
    split_ifs at h with hscreen hallowed
    · cases h
      refine hstep (.calm .refl) fun _ => ?_
      simp only [managerRenderingAllowed, Bool.and_eq_true, decide_eq_true_eq] at hallowed
      exact hallowed.2
    · cases h
      exact hstep (.calm (calm_same (authority_draw _ _) rfl))
        fun h => absurd h (overlayFor_ne_dialogs _ _)
  | observe a =>
    simp only [perform] at h
    split_ifs at h with hscreen
    cases h
    have hkind : Kind platform ui (.observe a) [] (ui.desktop.observeApproval a).2.authority :=
      .calm (calm_observeApproval _)
    refine hstep hkind fun _ => ?_
    have hactive := hinv.dialogs (not_not.mp hscreen)
    exact (hkind.settled rfl).elim (fun hv => hv.trans hactive) id
  | act action a =>
    simp only [perform] at h
    split_ifs at h with hoffered
    cases h
    have hkind : Kind platform ui (.act action a) _ _ := act_kind action hoffered hinv.dialogs
    refine hstep hkind fun hscreen => ?_
    have hlocks : (Event.act action a).locks = false := by
      cases action with
      | lockApp =>
        simp only [Action.offered, decide_eq_true_eq] at hoffered
        cases hoffered.symm.trans hscreen
      | _ => rfl
    exact (hkind.settled hlocks).elim (fun hv => hv.trans (hinv.dialogs hscreen)) id
  | exit a =>
    cases h
    exact hstep (.calm (calm_onExit _)) (fun h => by cases h)

end Step

/-! ### Runs -/

variable {platform : Platform} {phase : VaultUiPhase} {ui ui' : Ui} {o : Occurrence}
  {history before after : List Occurrence}

lemma uiInv_initial (phase : VaultUiPhase) : UiInv (Ui.initial phase) where
  inv :=
    { hidden := fun hne => absurd rfl hne
      authorized := nofun
      shown := nofun
      attempts := nofun }
  dialogs := nofun

lemma perform_of_apply {e : Event} (h : apply platform ui e = some ui') :
    ∃ es, perform platform ui e = some (es, ui') := by
  obtain ⟨⟨es, _⟩, hperform, rfl⟩ := Option.map_eq_some_iff.mp h
  exact ⟨es, hperform⟩

lemma effects_eq {es : List Effect} (h : perform platform o.before o.event = some (es, ui')) :
    effects platform o = es := by
  rw [effects, h]
  rfl

lemma uiInv_run (run : Run (Step (apply platform)) (Ui.initial phase) history ui) : UiInv ui := by
  refine run.invariant (uiInv_initial phase) ?_
  intro s o t h hstep
  obtain ⟨rfl, happly⟩ := hstep.inv
  obtain ⟨es, hperform⟩ := perform_of_apply happly
  exact (perform_kind h hperform).2

/-- What an event of a run did. -/
lemma kind_of_step (hinv : UiInv ui) (hstep : Step (apply platform) ui o ui') :
    o.before = ui ∧ Kind platform ui o.event (effects platform o) ui'.desktop.authority := by
  obtain ⟨rfl, happly⟩ := hstep.inv
  obtain ⟨es, hperform⟩ := perform_of_apply happly
  rw [effects_eq hperform]
  exact ⟨rfl, (perform_kind hinv hperform).1⟩

/-- An invariant of runs that says what came before, kept by every kind of event. -/
lemma kind_history {I : List Occurrence → Ui → Prop}
    (run : Run (Step (apply platform)) (Ui.initial phase) history ui) (h0 : I [] (Ui.initial phase))
    (hstep : ∀ history ui o ui', Run (Step (apply platform)) (Ui.initial phase) history ui →
      I history ui → o.before = ui →
      Kind platform ui o.event (effects platform o) ui'.desktop.authority →
      I (history ++ [o]) ui') : I history ui := by
  have hboth : Run (Step (apply platform)) (Ui.initial phase) history ui ∧ I history ui := by
    refine run.history_invariant
      (I := fun history ui => Run (Step (apply platform)) (Ui.initial phase) history ui ∧ I history ui)
      ⟨.nil _, h0⟩ ?_
    rintro history ui o ui' ⟨hrun, h⟩ hs
    obtain ⟨hbefore, hkind⟩ := kind_of_step (uiInv_run hrun) hs
    exact ⟨hrun.snoc hs, hstep history ui o ui' hrun h hbefore hkind⟩
  exact hboth.2

/-! ### The word of the human -/

/-- The PIN was set earlier: a PIN with its hash was typed where the session began. -/
def SetEarlier (platform : Platform) (history : List Occurrence) (pin : SessionPin) : Prop :=
  ∃ earlier ∈ history, earlier.event.setsUp = true ∧
    pin.Matches platform.argon2 earlier.before.desktop.sessionPin

/-- The human typed, for the target, a PIN with the hash of the one that was set. -/
structure ByPin (platform : Platform) (before : List Occurrence) (o : Occurrence)
    (target : TouchIdTarget) : Prop where
  asks : Asks platform o.before o.event .pin target
  right : ∃ c pin, o.before.desktop.sessionConfirmation = some c ∧ c.pin = some pin ∧
    pin.Matches platform.argon2 o.before.desktop.localPin ∧ SetEarlier platform before pin

/-- Touch ID was asked for the target, and for nothing else since. -/
def AskedSince (platform : Platform) (before : List Occurrence) (target : TouchIdTarget) : Prop :=
  ∃ earlier ask between, before = earlier ++ ask :: between ∧
    Asks platform ask.before ask.event .touchId target ∧
    ∀ p ∈ between, p.before.desktop.pendingTouchId = some target

/-- Touch ID recognised the human, for the target. -/
structure ByTouchId (platform : Platform) (before : List Occurrence) (o : Occurrence)
    (target : TouchIdTarget) : Prop where
  answered : ∃ a, o.event = .stage .touchId a ∧ a.touchIdResult = some (.ok ())
  pending : o.before.desktop.pendingTouchId = some target
  asked : AskedSince platform before target

def Confirmed (platform : Platform) (before : List Occurrence) (o : Occurrence)
    (target : TouchIdTarget) : Prop :=
  ByPin platform before o target ∨ ByTouchId platform before o target

lemma SetEarlier.snoc {pin : SessionPin} (h : SetEarlier platform history pin) :
    SetEarlier platform (history ++ [o]) pin := by
  obtain ⟨earlier, hmem, h⟩ := h
  exact ⟨earlier, List.mem_append_left _ hmem, h⟩

/-- What Touch ID is asked for now was asked for since, and the PIN of now was set. -/
structure Traced (platform : Platform) (history : List Occurrence) (ui : Ui) : Prop where
  touchId : ∀ target, ui.desktop.pendingTouchId = some target → AskedSince platform history target
  pin : ∀ c pin, ui.desktop.sessionConfirmation = some c → c.pin = some pin →
    SetEarlier platform history pin

lemma AskedSince.snoc {target : TouchIdTarget} (h : AskedSince platform history target)
    (ho : o.before.desktop.pendingTouchId = some target) :
    AskedSince platform (history ++ [o]) target := by
  obtain ⟨earlier, ask, between, rfl, hasks, hbetween⟩ := h
  exact ⟨earlier, ask, between ++ [o], by simp, hasks, forall_mem_snoc hbetween ho⟩

/-- What is done keeps the PIN. -/
lemma Does.pin {target : Option TouchIdTarget} {locks : Bool} {u v : Authority} {es : List Effect}
    {c : SessionConfirmation} {pin : SessionPin} (h : Does platform locks target u es v)
    (hc : v.confirmation = some c) (hpin : c.pin = some pin) :
    ∃ c', u.confirmation = some c' ∧ c'.pin = some pin := by
  rcases h.confirmation with h0 | h0 | ⟨-, h0⟩
  · cases h0.symm.trans hc
  · exact ⟨c, h0.symm.trans hc, hpin⟩
  · obtain ⟨c', hc', rfl⟩ := Option.map_eq_some_iff.mp (h0.symm.trans hc)
    exact ⟨c', hc', hpin⟩

/-- The confirmation after an event has the PIN that the one before had, or one that it set. -/
lemma Kind.pin {e : Event} {es : List Effect} {v : Authority} (h : Kind platform ui e es v)
    {c : SessionConfirmation} {pin : SessionPin} (hc : v.confirmation = some c)
    (hpin : c.pin = some pin) :
    (∃ c', ui.desktop.sessionConfirmation = some c' ∧ c'.pin = some pin) ∨
      e.setsUp = true ∧ pin.Matches platform.argon2 ui.desktop.sessionPin := by
  cases h with
  | calm calm => exact Or.inl (calm.pin hc hpin)
  | asked asks free calm effects authority admitted =>
    rw [authority] at hc
    exact Or.inl (calm.pin hc hpin)
  | setUp effects fresh authority event set =>
    rw [authority] at hc
    cases hc
    exact Or.inr ⟨event, set pin hpin⟩
  | accepted asks calm lock session set right effects does admitted =>
    obtain ⟨c', hc', hpin'⟩ := does.pin hc hpin
    cases hc'
    exact Or.inl ⟨_, session, hpin'⟩
  | rejected calm lock session set wrong left effects authority =>
    rw [authority] at hc
    cases hc
    exact Or.inl ⟨_, session, hpin⟩
  | spent session set wrong spent effects authority =>
    obtain ⟨w, rfl⟩ := authority
    cases hc
  | answered event ok pending does => exact Or.inl (does.pin hc hpin)

/-- What Touch ID is asked for after an event it was asked for before, or in the event. -/
lemma Kind.touchId {e : Event} {es : List Effect} {v : Authority} (h : Kind platform ui e es v)
    {target : TouchIdTarget} (ht : v.touchId = some target) :
    ui.desktop.pendingTouchId = some target ∨
      ui.desktop.pendingTouchId = none ∧ Asks platform ui e .touchId target := by
  cases h with
  | calm calm => exact Or.inl (calm.touchId target ht)
  | asked asks free calm effects authority admitted =>
    rw [authority] at ht
    cases ht
    exact Or.inr ⟨free, asks⟩
  | setUp effects fresh authority event set =>
    rw [authority] at ht
    exact Or.inl ht
  | accepted asks calm lock session set right effects does admitted =>
    exact Or.inl (calm.touchId target (does.touchId target ht))
  | rejected calm lock session set wrong left effects authority =>
    rw [authority] at ht
    exact Or.inl (calm.touchId target ht)
  | spent session set wrong spent effects authority =>
    obtain ⟨w, rfl⟩ := authority
    cases ht
  | answered event ok pending does => cases does.touchId target ht

lemma traced_run (run : Run (Step (apply platform)) (Ui.initial phase) history ui) :
    Traced platform history ui := by
  refine kind_history run ⟨nofun, nofun⟩ ?_
  rintro history ui o ui' - h rfl hkind
  constructor
  · intro target ht
    rcases hkind.touchId ht with hpending | ⟨-, hasks⟩
    · exact (h.touchId target hpending).snoc hpending
    · exact ⟨history, o, [], rfl, hasks, by simp⟩
  · intro c pin hc hpin
    rcases hkind.pin hc hpin with ⟨c', hc', hpin'⟩ | ⟨hset, hmatches⟩
    · exact (h.pin c' pin hc' hpin').snoc
    · exact ⟨o, by simp, hset, hmatches⟩

/-- What needs the human is done once at most. -/
lemma Kind.once {e : Event} {es : List Effect} {v : Authority} (h : Kind platform ui e es v) :
    es.countP Effect.privileged ≤ 1 := by
  cases h with
  | calm calm => exact calm.once
  | asked asks free calm effects authority admitted => simp [effects]
  | setUp effects fresh authority event set => simp [effects]
  | accepted asks calm lock session set right effects does admitted =>
    rw [effects, List.countP_cons_of_neg (by simp [Effect.privileged])]
    exact does.once
  | rejected calm lock session set wrong left effects authority =>
    simp [effects, Effect.privileged]
  | spent session set wrong spent effects authority => simp [effects, Effect.privileged]
  | answered event ok pending does => exact does.once

/-- What is done where the human confirmed something is what they confirmed. -/
lemma Kind.confirmed {es : List Effect} {v : Authority} (h : Kind platform o.before o.event es v)
    (htraced : Traced platform before o.before) {e : Effect} (he : e ∈ es)
    (hp : e.privileged = true) :
    ∃ target, Grants platform target e ∧ Confirmed platform before o target := by
  have hplain (he : e.privileged = false) :
      ∃ target, Grants platform target e ∧ Confirmed platform before o target := by
    rw [hp] at he
    cases he
  cases h with
  | calm calm => exact hplain (Calm.privileged calm e he)
  | asked asks free calm effects authority admitted =>
    rw [effects] at he
    exact absurd he List.not_mem_nil
  | setUp effects fresh authority event set =>
    rw [effects] at he
    exact absurd he List.not_mem_nil
  | @accepted target w c pin es' asks calm lock session set right effects does admitted =>
    rw [effects] at he
    rcases List.mem_cons.mp he with rfl | he
    · exact hplain rfl
    · obtain ⟨t, ht, hgrants⟩ := does.effects e he hp
      cases ht
      exact ⟨target, hgrants, Or.inl
        ⟨asks, c, pin, session, set, right, htraced.pin c pin session set⟩⟩
  | rejected calm lock session set wrong left effects authority =>
    rw [effects] at he
    obtain rfl := List.mem_singleton.mp he
    exact hplain rfl
  | spent session set wrong spent effects authority =>
    rw [effects] at he
    rcases List.mem_pair.mp he with rfl | rfl
    · exact hplain rfl
    · exact hplain rfl
  | @answered target a event ok pending does =>
    obtain ⟨t, ht, hgrants⟩ := does.effects e he hp
    cases ht
    exact ⟨target, hgrants, Or.inr ⟨⟨a, event, ok⟩, pending, htraced.touchId target pending⟩⟩

/-- An event of a run, and what was before it. -/
lemma kind_cut (run : Run (Step (apply platform)) (Ui.initial phase) (before ++ o :: after) ui) :
    Traced platform before o.before ∧ UiInv o.before ∧ ∃ u : Ui,
      Kind platform o.before o.event (effects platform o) u.desktop.authority ∧
      Run (Step (apply platform)) u after ui := by
  obtain ⟨u, hbefore, happly, hafter⟩ := cut run
  have hinv := uiInv_run hbefore
  exact ⟨traced_run hbefore, hinv, u, (kind_of_step hinv (.mk happly)).2, hafter⟩

/-! ### What is put before the human -/

/-- What is asked for by a dialog for agents is on the screen. -/
lemma Asks.shown {e : Event} {method : ConfirmationAction} {id session : Uuid}
    {lifetime : ApprovalLifetime} (h : Asks platform ui e method (.approval id session lifetime)) :
    ∃ pending, ui.shown = some pending ∧ pending.id = id ∧ pending.vaultSessionId = session := by
  cases h with
  | approval shown current => exact ⟨_, shown, rfl, rfl⟩

/-- The request on the screen was there, or is the one that is observed. -/
lemma perform_shown {e : Event} {es : List Effect} {pending : PendingApproval}
    (h : perform platform ui e = some (es, ui')) (hshown : ui'.shown = some pending) :
    ui.shown = some pending ∨ ∃ a, e = .observe a ∧
      ui.desktop.unattendedConfirmation.isSome = false ∧ a.pendingApproval = .ok (some pending) := by
  cases e with
  | observe a =>
    rw [perform] at h
    split_ifs at h with hscreen
    cases h
    refine Or.inr ⟨a, rfl, ?_⟩
    dsimp only [LadonDesktop.observeApproval] at hshown
    split_ifs at hshown with hasking
    cases ha : a.pendingApproval with
    | error e =>
      rw [ha] at hshown
      cases hshown
    | ok p =>
      rw [ha] at hshown
      cases p with
      | none => cases hshown
      | some p =>
        cases hshown
        exact ⟨by simpa using hasking, rfl⟩
  | drawn a =>
    rw [perform] at h
    split_ifs at h with hscreen hallowed
    · cases h
      exact Or.inl hshown
    · cases h
      cases hshown
  | act action a =>
    rw [perform] at h
    split_ifs at h with hoffered
    cases h
    exact Or.inl hshown
  | _ =>
    cases h
    cases hshown

/-! ### A session, to see it at -/

def zoneless : ApprovalLifetime.Change := ⟨0, 0, 0⟩

/-- The hash of a PIN that is the PIN and the salt. -/
def plainPlatform : Platform := ⟨fun pin salt => some (pin ++ salt), zoneless.offset, zoneless.libc⟩

def deskDraft : EditSecretDraft := ⟨⟨zeroId⟩, "mail", []⟩

/-- The vault is unlocked, there is no Touch ID, and what is asked for is done. -/
def deskAnswers : Answers where
  controller _ := .ok ⟨.unlocked, some zeroId⟩
  touchIdAvailable := false
  prompt := .error .approvalAuthenticationFailed
  touchIdResult := none
  pendingApproval := .ok none
  currentPending := .ok none
  called := .ok ()
  vaultLocked := .ok ()
  beginAppLock := .ok 1
  appLockResult := some (.ok ())
  externalLock := .ok none
  acknowledged := .ok ()
  externalLockInProgress := false
  idle := false
  autoLocked := false
  now := 1700000000
  salt := some ⟨zeroId.bytes, zeroId.length_eq⟩
  loaded := .ok deskDraft
  added := (.ok (), ⟨"", []⟩)
  consent := .error .invalidRequest
  access := .ok ([], [], false)
  pendingUnlock := none
  closeRequested := false

def act (action : Action) : Event := .act action deskAnswers

/-- A PIN is set, a secret selected, and its dialog opened. -/
def deskEvents : List Event :=
  [.draw deskAnswers, act (.type .sessionPin "1234"), act (.type .sessionPinConfirmation "1234"),
    act .setSessionPin, .draw deskAnswers, act (.navigate (.secret ⟨zeroId⟩)), act .unlockSecret,
    .drawn deskAnswers]

def typePin (pin : String) : List Event := [act (.type .localPin pin), act (.confirmSecret .pin)]

def deskRun (more : List Event) : List Occurrence × Ui :=
  (play (apply plainPlatform) (Ui.initial .unlocked) (deskEvents ++ more)).getD
    ([], Ui.initial .unlocked)

def deskAttempt : LocalAuthAttempt := ⟨zeroId, ⟨zeroId⟩, 1⟩

/-- **Nothing privileged is done without the human.** In every run of the desktop an event approves
a request, grants unattended use, opens the interface or opens a secret at most once, and only where
the human confirmed just that: with the PIN that was set for the session, typed for what was on the
screen; or with Touch ID, asked for what was on the screen, with the question open ever since. -/
theorem privileged_confirmed
    (run : Run (Step (apply platform)) (Ui.initial phase) (before ++ o :: after) ui) :
    (effects platform o).countP Effect.privileged ≤ 1 ∧
    ∀ e ∈ effects platform o, e.privileged = true →
      ∃ target, Grants platform target e ∧ Confirmed platform before o target := by
  obtain ⟨htraced, -, u, hkind, -⟩ := kind_cut run
  exact ⟨hkind.once, fun e he hp => hkind.confirmed htraced he hp⟩

theorem privileged_confirmed_secret : ∃ before o, .unlockSecret deskAttempt ∈ effects plainPlatform o ∧
    ∃ target, Grants plainPlatform target (.unlockSecret deskAttempt) ∧
      Confirmed plainPlatform before o target := by
  have hplay : play (apply plainPlatform) (Ui.initial .unlocked)
      (deskEvents ++ [act (.type .localPin "1234")]) =
      some (deskRun [act (.type .localPin "1234")]) := rfl
  have hlast : apply plainPlatform (deskRun [act (.type .localPin "1234")]).2
      (act (.confirmSecret .pin)) = some (deskRun (typePin "1234")).2 := rfl
  have hrun := (run_of_play hplay).snoc (.mk hlast)
  have hopened : .unlockSecret deskAttempt ∈ effects plainPlatform
      ⟨(deskRun [act (.type .localPin "1234")]).2, act (.confirmSecret .pin)⟩ :=
    List.mem_cons_of_mem _ List.mem_cons_self
  exact ⟨_, _, hopened, (privileged_confirmed hrun).2 _ hopened rfl⟩

/-! ### Wrong PINs -/

/-- The PINs that were compared. -/
def guesses (platform : Platform) (history : List Occurrence) : ℕ :=
  (history.map fun o => (effects platform o).countP Effect.compares).sum

/-- The human proved to be there: with the right PIN, or to Touch ID. -/
def recognised (platform : Platform) (o : Occurrence) : Bool :=
  ((effects platform o).any Effect.compares &&
    (o.before.desktop.sessionConfirmation.bind SessionConfirmation.pin).any fun pin =>
      pin.Matches platform.argon2 o.before.desktop.localPin) ||
  match o.event with
  | .stage .touchId a => a.touchIdResult = some (.ok ())
  | _ => false

lemma guesses_snoc (history : List Occurrence) (o : Occurrence) :
    guesses platform (history ++ [o]) =
      guesses platform history + (effects platform o).countP Effect.compares := by
  simp [guesses]

lemma Does.countP_compares {target : Option TouchIdTarget} {locks : Bool} {u v : Authority}
    {es : List Effect} (h : Does platform locks target u es v) : es.countP Effect.compares = 0 := by
  rw [List.countP_eq_zero]
  intro e he
  simp [h.compares e he]

/-- What an event in which nobody is recognised and no session begins does to the count: nothing is
compared; or one wrong PIN more is, and is counted; or the last one is, and the session is gone. -/
lemma Kind.guess {v : Authority}
    (h : Kind platform o.before o.event (effects platform o) v)
    (hunknown : recognised platform o = false) (hset : o.event.setsUp = false) :
    ((effects platform o).countP Effect.compares = 0 ∧
      (v.confirmation = none ∨ v.confirmation = o.before.desktop.sessionConfirmation)) ∨
    ∃ c, o.before.desktop.sessionConfirmation = some c ∧ (effects platform o).countP Effect.compares = 1 ∧
      (v.confirmation = some c.fail ∨ v.confirmation = none ∧ .lockVault ∈ effects platform o) := by
  cases h with
  | calm calm =>
    refine Or.inl ⟨calm.countP_compares, ?_⟩
    rcases calm.confirmation with h0 | h0 | ⟨h0, -⟩
    · exact Or.inl h0
    · exact Or.inr h0
    · cases h0
  | asked asks free calm effects authority admitted =>
    rw [effects]
    subst authority
    refine Or.inl ⟨rfl, ?_⟩
    rcases calm.confirmation with h0 | h0 | ⟨h0, -⟩
    · exact Or.inl h0
    · exact Or.inr h0
    · cases h0
  | setUp effects fresh authority event set =>
    rw [hset] at event
    cases event
  | accepted asks calm lock session set right effects does admitted =>
    simp [recognised, effects, Effect.compares, session, set, right] at hunknown
  | rejected calm lock session set wrong left effects authority =>
    rw [effects]
    subst authority
    exact Or.inr ⟨_, session, rfl, Or.inl rfl⟩
  | spent session set wrong spent effects authority =>
    obtain ⟨w, rfl⟩ := authority
    rw [effects]
    exact Or.inr ⟨_, session, rfl, Or.inr ⟨rfl, by simp⟩⟩
  | answered event ok pending does => simp [recognised, event, ok] at hunknown

/-- The guesses since some point are among those that the session counts, or the session is gone,
locked after the fifth. -/
def Counted (platform : Platform) (since : List Occurrence) (ui : Ui) : Prop :=
  (∃ c, ui.desktop.sessionConfirmation = some c ∧
    guesses platform since ≤ c.failedPinAttempts ∧ c.failedPinAttempts < maxFailedPinAttempts) ∨
  ui.desktop.sessionConfirmation = none ∧ guesses platform since ≤ maxFailedPinAttempts ∧
    (guesses platform since = maxFailedPinAttempts → ∃ o ∈ since, .lockVault ∈ effects platform o)

lemma Counted.step {since : List Occurrence} (h : Counted platform since ui) (hinv : UiInv ui')
    (hbefore : o.before = ui)
    (hkind : Kind platform ui o.event (effects platform o) ui'.desktop.authority)
    (hunknown : recognised platform o = false) (hset : o.event.setsUp = false) :
    Counted platform (since ++ [o]) ui' := by
  subst hbefore
  have hkept {n : ℕ} (h : n ≤ maxFailedPinAttempts ∧
      (n = maxFailedPinAttempts → ∃ o ∈ since, Effect.lockVault ∈ effects platform o)) :
      n = maxFailedPinAttempts → ∃ p ∈ since ++ [o], Effect.lockVault ∈ effects platform p := by
    intro hn
    obtain ⟨p, hp, he⟩ := h.2 hn
    exact ⟨p, List.mem_append_left _ hp, he⟩
  unfold Counted
  rw [guesses_snoc]
  rcases hkind.guess hunknown hset with ⟨hzero, hnone | hsame⟩ | ⟨c, hc, hone, hcounted | ⟨hnone, hlock⟩⟩
  · rw [hzero, Nat.add_zero]
    refine Or.inr ⟨hnone, ?_⟩
    rcases h with ⟨c, hc, hle, hlt⟩ | ⟨-, hle, hlocked⟩
    · exact ⟨by omega, fun hn => by omega⟩
    · exact ⟨hle, hkept ⟨hle, hlocked⟩⟩
  · rw [hzero, Nat.add_zero]
    have hsame' : ui'.desktop.sessionConfirmation = o.before.desktop.sessionConfirmation := hsame
    rw [hsame']
    rcases h with h | ⟨hnone, hle, hlocked⟩
    · exact Or.inl h
    · exact Or.inr ⟨hnone, hle, hkept ⟨hle, hlocked⟩⟩
  · rw [hone]
    have hlt := hinv.inv.attempts c.fail hcounted
    refine Or.inl ⟨c.fail, hcounted, ?_, hlt⟩
    rcases h with ⟨c', hc', hle, hlt'⟩ | ⟨hnone, -⟩
    · cases hc'.symm.trans hc
      rw [SessionConfirmation.failedPinAttempts_fail hlt']
      omega
    · cases hnone.symm.trans hc
  · rw [hone]
    refine Or.inr ⟨hnone, ?_, fun _ => ⟨o, by simp, hlock⟩⟩
    rcases h with ⟨c', hc', hle, hlt'⟩ | ⟨hnone, -⟩
    · omega
    · cases hnone.symm.trans hc

lemma counted_run {since : List Occurrence} (hinv : UiInv ui)
    (run : Run (Step (apply platform)) ui since ui')
    (hunknown : ∀ o ∈ since, recognised platform o = false)
    (hset : ∀ o ∈ since, o.event.setsUp = false) : Counted platform since ui' := by
  have hboth : UiInv ui' ∧ ((∀ o ∈ since, recognised platform o = false) →
      (∀ o ∈ since, o.event.setsUp = false) → Counted platform since ui') := by
    refine run.history_invariant (I := fun since u => UiInv u ∧
      ((∀ o ∈ since, recognised platform o = false) → (∀ o ∈ since, o.event.setsUp = false) →
        Counted platform since u)) ⟨hinv, fun _ _ => ?_⟩ ?_
    · cases hc : ui.desktop.sessionConfirmation with
      | none => exact Or.inr ⟨hc, Nat.zero_le _, fun h => by cases h⟩
      | some c => exact Or.inl ⟨c, hc, Nat.zero_le _, hinv.inv.attempts c hc⟩
    · rintro since u o u' ⟨hinv, hcounted⟩ hstep
      obtain ⟨es, hperform⟩ := perform_of_apply hstep.inv.2
      have hinv' := (perform_kind hinv hperform).2
      obtain ⟨hbefore, hkind⟩ := kind_of_step hinv hstep
      refine ⟨hinv', fun hunknown hset => ?_⟩
      have hearlier := hcounted (fun o ho => hunknown o (List.mem_append_left _ ho))
        fun o ho => hset o (List.mem_append_left _ ho)
      exact hearlier.step hinv' hbefore hkind (hunknown o (by simp)) (hset o (by simp))
  exact hboth.2 hunknown hset

/-- **Five wrong PINs.** In every run of the desktop, over any stretch in which no session begins and
nobody is recognised, at most five PINs are compared, whatever they were typed for; and after the
fifth the vault has been locked, and with it the session with its PIN is gone. -/
theorem wrong_pins_bounded {since : List Occurrence}
    (run : Run (Step (apply platform)) (Ui.initial phase) (before ++ since) ui)
    (hunknown : ∀ o ∈ since, recognised platform o = false)
    (hset : ∀ o ∈ since, o.event.setsUp = false) :
    guesses platform since ≤ 5 ∧
    (guesses platform since = 5 → ui.desktop.sessionConfirmation = none ∧
      ∃ o ∈ since, .lockVault ∈ effects platform o) := by
  obtain ⟨u, hbefore, hsince⟩ := run.split
  rcases counted_run (uiInv_run hbefore) hsince hunknown hset with ⟨c, -, hle, hlt⟩ | ⟨hnone, hle, hlock⟩
  · have hlt' : guesses platform since < 5 := lt_of_le_of_lt hle hlt
    exact ⟨by omega, fun h => by omega⟩
  · exact ⟨hle, fun h => ⟨hnone, hlock h⟩⟩

/-- Five wrong PINs, typed for one secret. -/
def wrongRun : List Occurrence × Ui :=
  (play (apply plainPlatform) (deskRun []).2 (List.replicate 5 (typePin "0000")).flatten).getD
    ([], Ui.initial .unlocked)

theorem wrong_pins_bounded_five : guesses plainPlatform wrongRun.1 = 5 ∧
    wrongRun.2.desktop.sessionConfirmation = none ∧
    ∃ o ∈ wrongRun.1, .lockVault ∈ effects plainPlatform o := by
  have hbefore : play (apply plainPlatform) (Ui.initial .unlocked) (deskEvents ++ []) =
      some (deskRun []) := rfl
  have hsince : play (apply plainPlatform) (deskRun []).2
      (List.replicate 5 (typePin "0000")).flatten = some wrongRun := rfl
  have hrun := (run_of_play hbefore).append (run_of_play hsince)
  have hfive : guesses plainPlatform wrongRun.1 = 5 := by decide +kernel
  have hunknown : ∀ o ∈ wrongRun.1, recognised plainPlatform o = false := by decide +kernel
  have hset : ∀ o ∈ wrongRun.1, o.event.setsUp = false := by decide +kernel
  exact ⟨hfive, (wrong_pins_bounded hrun hunknown hset).2 hfive⟩

/-! ### The locked interface -/

/-- The interface is opened by the human, or the session is gone. -/
lemma Kind.unlocked {es : List Effect} {v : Authority} (h : Kind platform ui o.event es v)
    (hlocked : ui.desktop.desktopLock ≠ .active) (hactive : v.lock = .active) :
    v.confirmation = none ∨ ∃ epoch, .unlockApp epoch (.ok ()) ∈ es := by
  cases h with
  | calm calm => exact calm.unlocked hlocked hactive
  | asked asks free calm effects authority admitted =>
    subst effects authority
    exact calm.unlocked hlocked hactive
  | setUp effects fresh authority event set =>
    subst authority
    exact absurd hactive hlocked
  | @accepted target w c pin es' asks calm lock session set right effects does admitted =>
    subst effects
    exact (does.unlocked (lock ▸ hlocked) hactive).imp_right fun ⟨epoch, he⟩ =>
      ⟨epoch, List.mem_cons_of_mem _ he⟩
  | rejected calm lock session set wrong left effects authority =>
    subst authority
    exact absurd (lock.symm.trans hactive) hlocked
  | spent session set wrong spent effects authority =>
    obtain ⟨w, rfl⟩ := authority
    exact Or.inl rfl
  | answered event ok pending does => exact does.unlocked hlocked hactive

/-- While the interface is locked, the human is asked for nothing but to open it. -/
lemma Kind.admitted {es : List Effect} {v : Authority} (h : Kind platform ui o.event es v)
    (hinv : UiInv ui) (hlocked : ui.desktop.desktopLock ≠ .active) {e : Effect} (he : e ∈ es)
    (hp : e.privileged = true) : ∃ epoch result, e = .unlockApp epoch result := by
  have hopens {target : TouchIdTarget} (hgrants : Grants platform target e)
      (htarget : ∃ session epoch, target = .appUnlock session epoch) :
      ∃ epoch result, e = .unlockApp epoch result := by
    obtain ⟨session, epoch, rfl⟩ := htarget
    cases hgrants
    exact ⟨_, _, rfl⟩
  cases h with
  | calm calm => cases hp.symm.trans (Calm.privileged calm e he)
  | asked asks free calm effects authority admitted =>
    subst effects
    cases he
  | setUp effects fresh authority event set =>
    subst effects
    cases he
  | accepted asks calm lock session set right effects does admitted =>
    subst effects
    rcases List.mem_cons.mp he with rfl | he
    · cases hp
    · obtain ⟨t, ht, hgrants⟩ := does.effects e he hp
      cases ht
      exact hopens hgrants (admitted.resolve_left (lock ▸ hlocked))
  | rejected calm lock session set wrong left effects authority =>
    subst effects
    rw [List.mem_singleton.mp he] at hp
    cases hp
  | spent session set wrong spent effects authority =>
    subst effects
    rcases List.mem_pair.mp he with rfl | rfl <;> cases hp
  | answered event ok pending does =>
    obtain ⟨t, ht, hgrants⟩ := does.effects e he hp
    cases ht
    exact hopens hgrants ((hinv.inv.hidden hlocked).touchId _ pending)

/-- **A locked interface.** In every run of the desktop, while the interface is locked or being
locked nothing of the vault is on it: no secret is shown or authorized, no grant and no session is
listed, and Touch ID is asked for nothing but to open it; what an event does meanwhile of what needs
the human is to open the interface; and the event behind which it is open did so, confirmed by the
human for that lock, or dropped the session. -/
theorem interface_locked
    (run : Run (Step (apply platform)) (Ui.initial phase) (before ++ o :: after) ui)
    (hlocked : o.before.desktop.desktopLock ≠ .active) :
    Hidden o.before.desktop.authority ∧
    (∀ e ∈ effects platform o, e.privileged = true → ∃ epoch result, e = .unlockApp epoch result) ∧
    ∀ next, apply platform o.before o.event = some next → next.desktop.desktopLock = .active →
      next.desktop.sessionConfirmation = none ∨ ∃ session epoch,
        .unlockApp epoch (.ok ()) ∈ effects platform o ∧
          Confirmed platform before o (.appUnlock session epoch) := by
  obtain ⟨htraced, hinv, u, hkind, -⟩ := kind_cut run
  refine ⟨hinv.inv.hidden hlocked, fun e he hp => hkind.admitted hinv hlocked he hp, ?_⟩
  intro next happly hactive
  have hnext := (kind_of_step hinv (.mk happly)).2
  rcases hnext.unlocked hlocked hactive with hnone | ⟨epoch, he⟩
  · exact Or.inl hnone
  · obtain ⟨target, hgrants, hconfirmed⟩ := hnext.confirmed htraced he rfl
    cases hgrants
    exact Or.inr ⟨_, epoch, he, hconfirmed⟩

/-- The interface is locked, and its screen drawn. -/
def lockEvents : List Event :=
  [.stage (.tray .lockApp) deskAnswers, .stage .appLock deskAnswers, .draw deskAnswers]

def lockRun : List Occurrence × Ui := deskRun (lockEvents ++ [act (.type .localPin "1234")])

theorem interface_locked_pin : Hidden lockRun.2.desktop.authority ∧ ∃ session epoch,
    Confirmed plainPlatform lockRun.1 ⟨lockRun.2, act .authenticateAppPin⟩
      (.appUnlock session epoch) := by
  have hplay : play (apply plainPlatform) (Ui.initial .unlocked)
      (deskEvents ++ (lockEvents ++ [act (.type .localPin "1234")])) = some lockRun := rfl
  have hlocked : lockRun.2.desktop.desktopLock ≠ .active := by decide
  obtain ⟨next, hnext, hactive, hsession⟩ : ∃ next,
      apply plainPlatform lockRun.2 (act .authenticateAppPin) = some next ∧
        next.desktop.desktopLock = .active ∧ next.desktop.sessionConfirmation ≠ none :=
    ⟨_, rfl, rfl, fun h => by cases h⟩
  have hrun := (run_of_play hplay).snoc (.mk hnext)
  obtain ⟨hhidden, -, hopened⟩ := interface_locked hrun hlocked
  obtain ⟨session, epoch, -, hconfirmed⟩ := (hopened next hnext hactive).resolve_left hsession
  exact ⟨hhidden, session, epoch, hconfirmed⟩

/-! ### What is shown -/

/-- The secret of the attempt was opened by the human, and stayed open since. -/
def OpenSince (platform : Platform) (history : List Occurrence) (attempt : LocalAuthAttempt) : Prop :=
  ∃ before o later session, history = before ++ o :: later ∧
    .unlockSecret attempt ∈ effects platform o ∧
    Confirmed platform before o (.secret attempt session) ∧
    ∀ p ∈ later, p.before.desktop.detail.authorized = some attempt

/-- A secret that is authorized after an event was so before, or was opened in it. -/
lemma Kind.authorized {es : List Effect} {v : Authority} (h : Kind platform ui o.event es v)
    {attempt : LocalAuthAttempt} (ha : v.detail.authorized = some attempt) :
    ui.desktop.detail.authorized = some attempt ∨ .unlockSecret attempt ∈ es := by
  have hcalm {locks : Bool} {w : Authority} (hc : Calm platform locks ui.desktop.authority [] w)
      (hw : w.detail.authorized = some attempt) : ui.desktop.detail.authorized = some attempt :=
    (hc.authorized attempt hw).resolve_right List.not_mem_nil
  cases h with
  | calm calm => exact calm.authorized attempt ha
  | asked asks free calm effects authority admitted =>
    subst authority
    exact Or.inl (hcalm calm ha)
  | setUp effects fresh authority event set =>
    subst authority
    exact Or.inl ha
  | accepted asks calm lock session set right effects does admitted =>
    subst effects
    rcases does.authorized attempt ha with ha | ha
    · exact Or.inl (hcalm calm ha)
    · exact Or.inr (List.mem_cons_of_mem _ ha)
  | rejected calm lock session set wrong left effects authority =>
    subst authority
    exact Or.inl (hcalm calm ha)
  | spent session set wrong spent effects authority =>
    obtain ⟨w, rfl⟩ := authority
    cases ha
  | answered event ok pending does => exact does.authorized attempt ha

lemma openSince_run (run : Run (Step (apply platform)) (Ui.initial phase) history ui)
    {attempt : LocalAuthAttempt} (ha : ui.desktop.detail.authorized = some attempt) :
    OpenSince platform history attempt := by
  have hall : ∀ attempt, ui.desktop.detail.authorized = some attempt →
      OpenSince platform history attempt := by
    refine kind_history (I := fun history ui => ∀ attempt,
      ui.desktop.detail.authorized = some attempt → OpenSince platform history attempt) run nofun ?_
    rintro history ui o ui' hrun h rfl hkind attempt ha
    rcases hkind.authorized ha with ha | hopened
    · obtain ⟨before, o', later, session, rfl, he, hconfirmed, hlater⟩ := h attempt ha
      exact ⟨before, o', later ++ [o], session, by simp, he, hconfirmed, forall_mem_snoc hlater ha⟩
    · obtain ⟨target, hgrants, hconfirmed⟩ := hkind.confirmed (traced_run hrun) hopened rfl
      cases hgrants
      exact ⟨history, o, [], _, rfl, hopened, hconfirmed, by simp⟩
  exact hall attempt ha

/-- **What is shown was opened by the human.** In every run of the desktop the values that the
interface holds are of the secret that is selected, and the human confirmed the opening of this
secret in an event since when it stayed authorized: no navigation, no lock and no end of the session
came between. -/
theorem shown_confirmed (run : Run (Step (apply platform)) (Ui.initial phase) history ui)
    {draft : EditSecretDraft} (hshown : ui.desktop.detail.mode.draft? = some draft) :
    ui.desktop.detail.selected = some draft.id ∧
    ∃ attempt, attempt.secretId = draft.id ∧ OpenSince platform history attempt := by
  have hinv := (uiInv_run run).inv
  obtain ⟨hselected, attempt, ha⟩ := hinv.shown draft hshown
  have hsame := Option.some.inj ((hinv.authorized attempt ha).symm.trans hselected)
  exact ⟨hselected, attempt, hsame, openSince_run run ha⟩

/-- The PIN is right, the manager is drawn again, and the secret is shown. -/
def showRun : List Occurrence × Ui :=
  deskRun (typePin "1234" ++ [.draw deskAnswers, act (.openDetail false)])

theorem shown_confirmed_mail : ∃ attempt : LocalAuthAttempt, attempt.secretId = deskDraft.id ∧
    OpenSince plainPlatform showRun.1 attempt := by
  have hplay : play (apply plainPlatform) (Ui.initial .unlocked)
      (deskEvents ++ (typePin "1234" ++ [.draw deskAnswers, act (.openDetail false)])) =
      some showRun := rfl
  have hshown : showRun.2.desktop.detail.mode.draft? = some deskDraft := rfl
  exact (shown_confirmed (run_of_play hplay) hshown).2

end Ladon.Desktop

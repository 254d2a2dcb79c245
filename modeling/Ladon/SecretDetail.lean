import Ladon.Lib.Run
import Ladon.SecretEditor

/-!
The view of one secret, and the authentication that its values are shown under.

An authentication ends long after it was asked for, when something else may be selected, or the
same secret again. The attempt carries the number of navigations made before it, and it counts only
while that is still the number: what is shown was authenticated since the last navigation.
-/

namespace Ladon.SecretDetail

open Ladon.Model Ladon.SecretEditor Ladon.Lib

inductive DetailMode
  | hidden
  | revealed (draft : EditSecretDraft)
  | editing (draft : EditSecretDraft) (dirty : Bool)

inductive NavigationTarget
  | add
  | sessions
  | secret (id : SecretId)
  | close
  deriving DecidableEq

inductive NavigationResult
  | applied
  | confirmDiscard
  deriving DecidableEq

structure LocalAuthAttempt where
  vaultSessionId : Uuid
  secretId : SecretId
  selectionEpoch : ℕ
  deriving DecidableEq

inductive DetailStateError
  | notAuthorized
  | draftDoesNotMatchSelection
  deriving DecidableEq

/-- The draft that is held in the clear. -/
def DetailMode.draft? : DetailMode → Option EditSecretDraft
  | .hidden => none
  | .revealed draft | .editing draft _ => some draft

structure SecretDetailState where
  navigationTarget : NavigationTarget
  selected : Option SecretId
  authorized : Option LocalAuthAttempt
  selectionEpoch : ℕ
  mode : DetailMode
  pendingNavigation : Option NavigationTarget

namespace SecretDetailState

/-- The default state. -/
def initial : SecretDetailState := ⟨.add, none, none, 0, .hidden, none⟩

/-! ### The operations -/

def authenticationAttempt (s : SecretDetailState) (vaultSessionId : Uuid) :
    Option LocalAuthAttempt :=
  s.selected.map fun secretId => ⟨vaultSessionId, secretId, s.selectionEpoch⟩

def acceptAuthentication (s : SecretDetailState) (attempt : LocalAuthAttempt)
    (vaultSessionId : Uuid) : Bool × SecretDetailState :=
  if s.authenticationAttempt vaultSessionId ≠ some attempt then (false, s)
  else (true, { s with authorized := some attempt })

def authorizationForCurrentSelection (s : SecretDetailState) (vaultSessionId : Uuid) :
    Option LocalAuthAttempt :=
  s.authorized.filter fun authorization =>
    authorization.vaultSessionId = vaultSessionId ∧ s.selected = some authorization.secretId ∧
      s.selectionEpoch = authorization.selectionEpoch

def isAuthorized (s : SecretDetailState) (vaultSessionId : Uuid) : Bool :=
  (s.authorizationForCurrentSelection vaultSessionId).isSome

def dropSensitiveMode (s : SecretDetailState) : SecretDetailState := { s with mode := .hidden }

def beginWithDraft (s : SecretDetailState) (vaultSessionId : Uuid) (draft : EditSecretDraft)
    (editing : Bool) : Except DetailStateError Unit × SecretDetailState :=
  match s.selected with
  | none => (.error .draftDoesNotMatchSelection, s)
  | some selected =>
    if draft.id ≠ selected then (.error .draftDoesNotMatchSelection, s)
    else if (s.authorizationForCurrentSelection vaultSessionId).isNone then (.error .notAuthorized, s)
    else (.ok (), { s.dropSensitiveMode with
      mode := if editing then .editing draft false else .revealed draft })

def beginReveal (s : SecretDetailState) (vaultSessionId : Uuid) (draft : EditSecretDraft) :
    Except DetailStateError Unit × SecretDetailState :=
  s.beginWithDraft vaultSessionId draft false

def beginEdit (s : SecretDetailState) (vaultSessionId : Uuid) (draft : EditSecretDraft) :
    Except DetailStateError Unit × SecretDetailState :=
  s.beginWithDraft vaultSessionId draft true

def markDirty (s : SecretDetailState) : SecretDetailState :=
  match s.mode with
  | .editing draft _ => { s with mode := .editing draft true }
  | _ => s

def hideValues (s : SecretDetailState) : SecretDetailState := s.dropSensitiveMode

def finishSave (s : SecretDetailState) : SecretDetailState := s.dropSensitiveMode

def navigateNow (s : SecretDetailState) (target : NavigationTarget) : SecretDetailState :=
  { s.dropSensitiveMode with
    authorized := none
    navigationTarget := target
    selected := match target with
      | .secret id => some id
      | .add | .sessions | .close => none
    pendingNavigation := none
    selectionEpoch := (s.selectionEpoch + 1) % 2 ^ 64 }

def requestNavigation (s : SecretDetailState) (target : NavigationTarget) :
    NavigationResult × SecretDetailState :=
  match s.mode with
  | .editing _ true => (.confirmDiscard, { s with pendingNavigation := some target })
  | _ => (.applied, s.navigateNow target)

def cancelPendingNavigation (s : SecretDetailState) : SecretDetailState :=
  { s with pendingNavigation := none }

def discardPendingNavigation (s : SecretDetailState) : NavigationResult × SecretDetailState :=
  match s.pendingNavigation with
  | some target => (.applied, s.navigateNow target)
  | none => (.applied, s)

def clearForVaultLock (s : SecretDetailState) : SecretDetailState :=
  { s.dropSensitiveMode with
    selected := none
    navigationTarget := .add
    authorized := none
    pendingNavigation := none
    selectionEpoch := (s.selectionEpoch + 1) % 2 ^ 64 }

def clearForClose (s : SecretDetailState) : SecretDetailState := s.clearForVaultLock

/-- The name and the fields of the draft that is held are typed over, through `mode_mut`. -/
def editDraft (s : SecretDetailState) (name : String) (fields : List EditableField) :
    SecretDetailState :=
  { s with mode := match s.mode with
      | .hidden => .hidden
      | .revealed draft => .revealed { draft with name := name, fields := fields }
      | .editing draft dirty => .editing { draft with name := name, fields := fields } dirty }

end SecretDetailState

/-! ### Runs -/

/-- What is done, with what came of it. -/
inductive Event
  | authenticationAttempt (vaultSessionId : Uuid) (attempt : Option LocalAuthAttempt)
  | acceptAuthentication (attempt : LocalAuthAttempt) (vaultSessionId : Uuid) (accepted : Bool)
  | beginReveal (vaultSessionId : Uuid) (draft : EditSecretDraft)
  | beginEdit (vaultSessionId : Uuid) (draft : EditSecretDraft)
  | markDirty
  | hideValues
  | finishSave
  | requestNavigation (target : NavigationTarget) (result : NavigationResult)
  | cancelPendingNavigation
  | discardPendingNavigation (pending : Option NavigationTarget)
  | navigateNow (target : NavigationTarget)
  | clearForVaultLock
  | clearForClose
  | editDraft (name : String) (fields : List EditableField)

/-- The selection is changed or cleared, be it to what it was. -/
def Event.navigates : Event → Bool
  | .requestNavigation _ .applied | .discardPendingNavigation (some _) | .navigateNow _
  | .clearForVaultLock | .clearForClose => true
  | _ => false

/-- The state, and the attempts that were handed out: nobody else can make one. -/
structure View where
  state : SecretDetailState
  attempts : List LocalAuthAttempt

def View.initial : View := ⟨.initial, []⟩

inductive Step : View → Event → View → Prop
  | authenticationAttempt (v : View) (session : Uuid) :
      Step v (.authenticationAttempt session (v.state.authenticationAttempt session))
        ⟨v.state, v.attempts ++ (v.state.authenticationAttempt session).toList⟩
  | acceptAuthentication (v : View) {attempt : LocalAuthAttempt} (captured : attempt ∈ v.attempts)
      (session : Uuid) :
      Step v (.acceptAuthentication attempt session (v.state.acceptAuthentication attempt session).1)
        ⟨(v.state.acceptAuthentication attempt session).2, v.attempts⟩
  | beginReveal (v : View) (session : Uuid) (draft : EditSecretDraft) :
      Step v (.beginReveal session draft) ⟨(v.state.beginReveal session draft).2, v.attempts⟩
  | beginEdit (v : View) (session : Uuid) (draft : EditSecretDraft) :
      Step v (.beginEdit session draft) ⟨(v.state.beginEdit session draft).2, v.attempts⟩
  | markDirty (v : View) : Step v .markDirty ⟨v.state.markDirty, v.attempts⟩
  | hideValues (v : View) : Step v .hideValues ⟨v.state.hideValues, v.attempts⟩
  | finishSave (v : View) : Step v .finishSave ⟨v.state.finishSave, v.attempts⟩
  | requestNavigation (v : View) (target : NavigationTarget) :
      Step v (.requestNavigation target (v.state.requestNavigation target).1)
        ⟨(v.state.requestNavigation target).2, v.attempts⟩
  | cancelPendingNavigation (v : View) :
      Step v .cancelPendingNavigation ⟨v.state.cancelPendingNavigation, v.attempts⟩
  | discardPendingNavigation (v : View) :
      Step v (.discardPendingNavigation v.state.pendingNavigation)
        ⟨v.state.discardPendingNavigation.2, v.attempts⟩
  | navigateNow (v : View) (target : NavigationTarget) :
      Step v (.navigateNow target) ⟨v.state.navigateNow target, v.attempts⟩
  | clearForVaultLock (v : View) :
      Step v .clearForVaultLock ⟨v.state.clearForVaultLock, v.attempts⟩
  | clearForClose (v : View) : Step v .clearForClose ⟨v.state.clearForClose, v.attempts⟩
  | editDraft (v : View) (name : String) (fields : List EditableField) :
      Step v (.editDraft name fields) ⟨v.state.editDraft name fields, v.attempts⟩

/-! ### What a step does -/

/-- The draft that is shown was shown before, or is of what is selected and authorized. -/
def ShowsAuthorized (s s' : SecretDetailState) : Prop :=
  ∀ d', s'.mode.draft? = some d' →
    (∃ d, s.mode.draft? = some d ∧ d.id = d'.id) ∨
      s.selected = some d'.id ∧ ∃ a, s.authorized = some a ∧ s.selected = some a.secretId

/-- Nothing is changed but the mode and the navigation that is pending. -/
structure Quiet (s s' : SecretDetailState) : Prop where
  selected : s'.selected = s.selected
  selectionEpoch : s'.selectionEpoch = s.selectionEpoch
  authorized : s'.authorized = s.authorized
  drafts : ShowsAuthorized s s'

lemma Quiet.of_mode {s s' : SecretDetailState} (hselected : s'.selected = s.selected)
    (hepoch : s'.selectionEpoch = s.selectionEpoch) (hauthorized : s'.authorized = s.authorized)
    (hmode : s'.mode = s.mode ∨ s'.mode = .hidden) : Quiet s s' := by
  refine ⟨hselected, hepoch, hauthorized, fun d' hd => ?_⟩
  rcases hmode with hmode | hmode
  · rw [hmode] at hd
    exact Or.inl ⟨d', hd, rfl⟩
  · rw [hmode] at hd
    cases hd

lemma quiet_beginWithDraft (s : SecretDetailState) (session : Uuid) (draft : EditSecretDraft)
    (editing : Bool) : Quiet s (s.beginWithDraft session draft editing).2 := by
  unfold SecretDetailState.beginWithDraft
  split
  · exact .of_mode rfl rfl rfl (Or.inl rfl)
  next selected hselected =>
  by_cases hid : draft.id ≠ selected
  · rw [if_pos hid]
    exact .of_mode rfl rfl rfl (Or.inl rfl)
  cases hcurrent : s.authorizationForCurrentSelection session with
  | none =>
    rw [if_neg hid, Option.isNone_none, if_pos rfl]
    exact .of_mode rfl rfl rfl (Or.inl rfl)
  | some a =>
    rw [if_neg hid, if_neg (by simp)]
    rw [SecretDetailState.authorizationForCurrentSelection, Option.filter_eq_some_iff] at hcurrent
    obtain ⟨hauthorized, hfor⟩ := hcurrent
    simp only [decide_eq_true_eq] at hfor
    refine ⟨rfl, rfl, rfl, fun d' hd => Or.inr ?_⟩
    have hd' : draft = d' := by cases editing <;> exact Option.some.inj hd
    rw [← hd', not_not.mp hid]
    exact ⟨hselected, a, hauthorized, hfor.2.1⟩

lemma quiet_markDirty (s : SecretDetailState) : Quiet s s.markDirty := by
  unfold SecretDetailState.markDirty
  split
  · next draft dirty hmode =>
    refine ⟨rfl, rfl, rfl, fun d' hd => Or.inl ⟨d', ?_, rfl⟩⟩
    rw [hmode]
    exact hd
  · exact .of_mode rfl rfl rfl (Or.inl rfl)

lemma quiet_editDraft (s : SecretDetailState) (name : String) (fields : List EditableField) :
    Quiet s (s.editDraft name fields) := by
  refine ⟨rfl, rfl, rfl, fun d' hd => Or.inl ?_⟩
  simp only [SecretDetailState.editDraft] at hd
  cases hmode : s.mode with
  | hidden =>
    rw [hmode] at hd
    cases hd
  | revealed draft =>
    rw [hmode] at hd
    cases hd
    exact ⟨draft, rfl, rfl⟩
  | editing draft dirty =>
    rw [hmode] at hd
    cases hd
    exact ⟨draft, rfl, rfl⟩

/-- The state after a navigation or a clear. -/
structure Cleared (s s' : SecretDetailState) : Prop where
  mode : s'.mode = .hidden
  authorized : s'.authorized = none
  selectionEpoch : s'.selectionEpoch = (s.selectionEpoch + 1) % 2 ^ 64

/-- An attempt is handed out for what is selected now, an attempt that is still for it is accepted,
the selection is left, or nothing of that happens. -/
inductive StepKind (v : View) : Event → View → Prop
  | capture (session : Uuid) :
      StepKind v (.authenticationAttempt session (v.state.authenticationAttempt session))
        ⟨v.state, v.attempts ++ (v.state.authenticationAttempt session).toList⟩
  | accept {a : LocalAuthAttempt} {session : Uuid} (captured : a ∈ v.attempts)
      (current : v.state.authenticationAttempt session = some a) :
      StepKind v (.acceptAuthentication a session true)
        ⟨{ v.state with authorized := some a }, v.attempts⟩
  | navigate {e : Event} {s' : SecretDetailState} (navigates : e.navigates = true)
      (capture_ne : ∀ session a, e ≠ .authenticationAttempt session (some a))
      (accept_ne : ∀ a session, e ≠ .acceptAuthentication a session true)
      (cleared : Cleared v.state s') : StepKind v e ⟨s', v.attempts⟩
  | quiet {e : Event} {s' : SecretDetailState} (navigates : e.navigates = false)
      (capture_ne : ∀ session a, e ≠ .authenticationAttempt session (some a))
      (accept_ne : ∀ a session, e ≠ .acceptAuthentication a session true)
      (quiet : Quiet v.state s') : StepKind v e ⟨s', v.attempts⟩

lemma Step.kind {v v' : View} {e : Event} (h : Step v e v') : StepKind v e v' := by
  have hcleared : ∀ target, Cleared v.state (v.state.navigateNow target) :=
    fun target => ⟨rfl, rfl, rfl⟩
  cases h with
  | authenticationAttempt session => exact .capture session
  | @acceptAuthentication a captured session =>
    rw [SecretDetailState.acceptAuthentication]
    split_ifs with hcurrent
    · exact .quiet rfl (by simp) (by simp) (.of_mode rfl rfl rfl (Or.inl rfl))
    · exact .accept captured (not_not.mp hcurrent)
  | beginReveal session draft =>
    exact .quiet rfl (by simp) (by simp) (quiet_beginWithDraft _ session draft false)
  | beginEdit session draft =>
    exact .quiet rfl (by simp) (by simp) (quiet_beginWithDraft _ session draft true)
  | markDirty => exact .quiet rfl (by simp) (by simp) (quiet_markDirty _)
  | hideValues => exact .quiet rfl (by simp) (by simp) (.of_mode rfl rfl rfl (Or.inr rfl))
  | finishSave => exact .quiet rfl (by simp) (by simp) (.of_mode rfl rfl rfl (Or.inr rfl))
  | requestNavigation target =>
    rw [SecretDetailState.requestNavigation]
    split
    · exact .quiet rfl (by simp) (by simp) (.of_mode rfl rfl rfl (Or.inl rfl))
    · exact .navigate rfl (by simp) (by simp) (hcleared target)
  | cancelPendingNavigation =>
    exact .quiet rfl (by simp) (by simp) (.of_mode rfl rfl rfl (Or.inl rfl))
  | discardPendingNavigation =>
    rw [SecretDetailState.discardPendingNavigation]
    cases v.state.pendingNavigation with
    | none => exact .quiet rfl (by simp) (by simp) (.of_mode rfl rfl rfl (Or.inl rfl))
    | some target => exact .navigate rfl (by simp) (by simp) (hcleared target)
  | navigateNow target => exact .navigate rfl (by simp) (by simp) (hcleared target)
  | clearForVaultLock => exact .navigate rfl (by simp) (by simp) ⟨rfl, rfl, rfl⟩
  | clearForClose => exact .navigate rfl (by simp) (by simp) ⟨rfl, rfl, rfl⟩
  | editDraft name fields => exact .quiet rfl (by simp) (by simp) (quiet_editDraft _ name fields)

/-! ### What was authenticated since the last navigation -/

/-- No navigation and no clear. -/
def Still (events : List Event) : Prop := ∀ e ∈ events, e.navigates = false

/-- The attempt was captured, and accepted in the session it is for, since the last navigation. -/
def AcceptedSince (events : List Event) (a : LocalAuthAttempt) : Prop :=
  ∃ before between after,
    events = before ++ .authenticationAttempt a.vaultSessionId (some a) ::
      (between ++ .acceptAuthentication a a.vaultSessionId true :: after) ∧
    Still between ∧ Still after

/-- The attempt was captured, and whenever it was, it was in its session and nothing was navigated
since. -/
def CapturedSince (events : List Event) (a : LocalAuthAttempt) : Prop :=
  (∃ before after, events = before ++ .authenticationAttempt a.vaultSessionId (some a) :: after) ∧
    ∀ before after session, events = before ++ .authenticationAttempt session (some a) :: after →
      session = a.vaultSessionId ∧ Still after

lemma Still.snoc {events : List Event} {e : Event} (h : Still events) (he : e.navigates = false) :
    Still (events ++ [e]) := forall_mem_snoc h he

/-- The last event is the one looked for, or another one comes after it. -/
lemma snoc_eq_append_cons {events before after : List Event} {e x : Event}
    (h : events ++ [e] = before ++ x :: after) :
    (after = [] ∧ events = before ∧ e = x) ∨
      ∃ rest, after = rest ++ [e] ∧ events = before ++ x :: rest := by
  induction after using List.reverseRecOn with
  | nil =>
    obtain ⟨hevents, he⟩ := List.append_inj' h rfl
    exact Or.inl ⟨rfl, hevents, List.singleton_inj.mp he⟩
  | append_singleton rest y =>
    rw [← List.cons_append, ← List.append_assoc] at h
    obtain ⟨hevents, he⟩ := List.append_inj' h rfl
    cases he
    exact Or.inr ⟨rest, rfl, hevents⟩

lemma AcceptedSince.snoc {events : List Event} {a : LocalAuthAttempt} {e : Event}
    (h : AcceptedSince events a) (he : e.navigates = false) : AcceptedSince (events ++ [e]) a := by
  obtain ⟨before, between, after, rfl, hbetween, hafter⟩ := h
  exact ⟨before, between, after ++ [e], by simp, hbetween, hafter.snoc he⟩

/-- The invariant of a run. The epoch is the number of navigations, in 64 bits. -/
structure Inv (events : List Event) (v : View) : Prop where
  epoch : v.state.selectionEpoch = events.countP Event.navigates % 2 ^ 64
  handedOut : ∀ a ∈ v.attempts,
    ∃ before after, events = before ++ .authenticationAttempt a.vaultSessionId (some a) :: after
  captured : ∀ before after session a,
    events = before ++ .authenticationAttempt session (some a) :: after →
      a.vaultSessionId = session ∧ a.selectionEpoch = before.countP Event.navigates % 2 ^ 64
  authorized : ∀ a, v.state.authorized = some a →
    v.state.selected = some a.secretId ∧ AcceptedSince events a
  shown : ∀ d, v.state.mode.draft? = some d →
    v.state.selected = some d.id ∧ ∃ a, a.secretId = d.id ∧ AcceptedSince events a
  accepted : ∀ before after session a,
    events = before ++ .acceptAuthentication a session true :: after →
      session = a.vaultSessionId ∧ CapturedSince before a

lemma inv_initial : Inv [] View.initial where
  epoch := rfl
  handedOut _ h := by cases h
  captured _ _ _ _ h := by simp at h
  authorized _ h := by cases h
  shown _ h := by cases h
  accepted _ _ _ _ h := by simp at h

/-- The events before an event of a prefix, and the same events of the whole. -/
lemma Inv.handedOut_snoc {events : List Event} {v : View} {e : Event} (h : Inv events v) :
    ∀ a ∈ v.attempts, ∃ before after,
      events ++ [e] = before ++ .authenticationAttempt a.vaultSessionId (some a) :: after := by
  intro a ha
  obtain ⟨before, after, rfl⟩ := h.handedOut a ha
  exact ⟨before, after ++ [e], by simp⟩

/-- An attempt that is for the selection now was captured since the last navigation: fewer than
2 ^ 64 were made. -/
lemma Inv.capturedSince {events : List Event} {v : View} (h : Inv events v)
    (hlen : events.length < 2 ^ 64) {a : LocalAuthAttempt} {session : Uuid}
    (hmem : a ∈ v.attempts) (hcurrent : v.state.authenticationAttempt session = some a) :
    session = a.vaultSessionId ∧ CapturedSince events a := by
  obtain ⟨id, -, rfl⟩ := Option.map_eq_some_iff.mp hcurrent
  refine ⟨rfl, h.handedOut _ hmem, fun before after session' heq => ?_⟩
  obtain ⟨hsession, hepoch⟩ := h.captured _ _ _ _ heq
  refine ⟨hsession.symm, fun e he => ?_⟩
  have hsame : events.countP Event.navigates % 2 ^ 64 =
      before.countP Event.navigates % 2 ^ 64 := h.epoch.symm.trans hepoch
  have hall := List.countP_le_length (p := Event.navigates) (l := events)
  have hsplit : events.countP Event.navigates =
      before.countP Event.navigates + after.countP Event.navigates := by
    rw [heq, List.countP_append, List.countP_cons_of_neg (by simp [Event.navigates])]
  have hnone : after.countP Event.navigates = 0 := by
    rw [Nat.mod_eq_of_lt (by omega), Nat.mod_eq_of_lt (by omega)] at hsame
    omega
  simpa using List.countP_eq_zero.mp hnone e he

/-- A step that is neither a capture nor an acceptance adds none. -/
lemma Inv.captured_snoc {events : List Event} {v : View} {e : Event} (h : Inv events v)
    (hne : ∀ session a, e ≠ .authenticationAttempt session (some a)) :
    ∀ before after session a,
      events ++ [e] = before ++ .authenticationAttempt session (some a) :: after →
        a.vaultSessionId = session ∧ a.selectionEpoch = before.countP Event.navigates % 2 ^ 64 := by
  intro before after session a heq
  obtain ⟨-, -, rfl⟩ | ⟨rest, -, hevents⟩ := snoc_eq_append_cons heq
  · exact absurd rfl (hne session a)
  · exact h.captured _ _ _ _ hevents

lemma Inv.accepted_snoc {events : List Event} {v : View} {e : Event} (h : Inv events v)
    (hne : ∀ a session, e ≠ .acceptAuthentication a session true) :
    ∀ before after session a,
      events ++ [e] = before ++ .acceptAuthentication a session true :: after →
        session = a.vaultSessionId ∧ CapturedSince before a := by
  intro before after session a heq
  obtain ⟨-, -, rfl⟩ | ⟨rest, -, hevents⟩ := snoc_eq_append_cons heq
  · exact absurd rfl (hne a session)
  · exact h.accepted _ _ _ _ hevents

lemma Inv.step {events : List Event} {v v' : View} {e : Event} (h : Inv events v)
    (hlen : events.length < 2 ^ 64) (hstep : Step v e v') : Inv (events ++ [e]) v' := by
  have hcount : e.navigates = false →
      (events ++ [e]).countP Event.navigates = events.countP Event.navigates := by
    intro he
    rw [List.countP_append, List.countP_singleton, he]
    rfl
  cases hstep.kind with
  | capture session =>
    refine ⟨h.epoch.trans (by rw [hcount rfl]), ?_, ?_, ?_, ?_, h.accepted_snoc (by simp)⟩
    · intro a ha
      rcases List.mem_append.mp ha with ha | ha
      · exact h.handedOut_snoc a ha
      · have hcurrent := Option.mem_toList.mp ha
        obtain ⟨id, -, rfl⟩ := Option.map_eq_some_iff.mp hcurrent
        exact ⟨events, [], by rw [Option.mem_def.mp hcurrent]⟩
    · intro before after session' a heq
      obtain ⟨-, rfl, he⟩ | ⟨rest, -, hevents⟩ := snoc_eq_append_cons heq
      · obtain ⟨rfl, hcurrent⟩ := Event.authenticationAttempt.inj he
        obtain ⟨id, -, rfl⟩ := Option.map_eq_some_iff.mp hcurrent
        exact ⟨rfl, h.epoch⟩
      · exact h.captured _ _ _ _ hevents
    · intro a ha
      exact ⟨(h.authorized a ha).1, (h.authorized a ha).2.snoc rfl⟩
    · intro d hd
      obtain ⟨hselected, a, ha, haccepted⟩ := h.shown d hd
      exact ⟨hselected, a, ha, haccepted.snoc rfl⟩
  | @accept a session captured current =>
    obtain ⟨rfl, hsince⟩ := h.capturedSince hlen captured current
    refine ⟨h.epoch.trans (by rw [hcount rfl]), h.handedOut_snoc, h.captured_snoc (by simp), ?_, ?_,
      ?_⟩
    · rintro a' ⟨⟩
      obtain ⟨id, hselected, hfor⟩ := Option.map_eq_some_iff.mp current
      have hid : id = a.secretId := congrArg LocalAuthAttempt.secretId hfor
      obtain ⟨⟨before, after, rfl⟩, hstill⟩ := hsince
      exact ⟨hselected.trans (congrArg some hid), before, after, [], by simp, (hstill _ _ _ rfl).2, by simp [Still]⟩
    · intro d hd
      obtain ⟨hselected, a', ha', haccepted⟩ := h.shown d hd
      exact ⟨hselected, a', ha', haccepted.snoc rfl⟩
    · intro before after session a' heq
      obtain ⟨-, rfl, he⟩ | ⟨rest, -, hevents⟩ := snoc_eq_append_cons heq
      · cases he
        exact ⟨rfl, hsince⟩
      · exact h.accepted _ _ _ _ hevents
  | navigate navigates capture_ne accept_ne cleared =>
    refine ⟨?_, h.handedOut_snoc, h.captured_snoc capture_ne, ?_, ?_, h.accepted_snoc accept_ne⟩
    · rw [cleared.selectionEpoch, h.epoch, List.countP_append, List.countP_singleton,
        if_pos navigates, Nat.mod_add_mod]
    · intro a ha
      rw [cleared.authorized] at ha
      cases ha
    · intro d hd
      rw [cleared.mode] at hd
      cases hd
  | quiet navigates capture_ne accept_ne quiet =>
    refine ⟨?_, h.handedOut_snoc, h.captured_snoc capture_ne, ?_, ?_, h.accepted_snoc accept_ne⟩
    · rw [quiet.selectionEpoch, hcount navigates]
      exact h.epoch
    · intro a ha
      rw [quiet.authorized] at ha
      rw [quiet.selected]
      exact ⟨(h.authorized a ha).1, (h.authorized a ha).2.snoc navigates⟩
    · intro d' hd
      rw [quiet.selected]
      rcases quiet.drafts d' hd with ⟨d, hshown, hid⟩ | ⟨hselected, a, ha, hfor⟩
      · obtain ⟨hselected, a, ha, haccepted⟩ := h.shown d hshown
        exact ⟨by rw [← hid, hselected], a, ha.trans hid, haccepted.snoc navigates⟩
      · have hsame : a.secretId = d'.id := Option.some.inj (hfor.symm.trans hselected)
        exact ⟨hselected, a, hsame, (h.authorized a ha).2.snoc navigates⟩

lemma inv_run {events : List Event} {v : View} (run : Run Step View.initial events v)
    (hlen : events.length < 2 ^ 64) : Inv events v := by
  refine run.history_invariant
    (I := fun events v => events.length < 2 ^ 64 → Inv events v) (fun _ => inv_initial) ?_ hlen
  intro events t e u h hstep hlen
  rw [List.length_append, List.length_singleton] at hlen
  exact (h (by omega)).step (by omega) hstep

/-- **Nothing is shown that was not authenticated since the last navigation.** In a run of fewer
than 2 ^ 64 operations: a draft that is held is of the secret that is selected, and an attempt for
it was captured and then accepted since the last navigation or clear; an attempt is accepted only
in the session it was captured for, and with no navigation or clear since it was captured; and a
navigation from an edit that is not saved is only kept pending. -/
theorem detail_guarded {events : List Event} {v : View} (run : Run Step View.initial events v)
    (hlen : events.length < 2 ^ 64) :
    (∀ d, v.state.mode.draft? = some d →
      v.state.selected = some d.id ∧ ∃ a, a.secretId = d.id ∧ AcceptedSince events a) ∧
    (∀ before after session a,
      events = before ++ .acceptAuthentication a session true :: after →
        session = a.vaultSessionId ∧ CapturedSince before a) ∧
    ∀ (s : SecretDetailState) (target : NavigationTarget) (d : EditSecretDraft),
      s.mode = .editing d true →
        s.requestNavigation target = (.confirmDiscard, { s with pendingNavigation := some target }) := by
  have hinv := inv_run run hlen
  refine ⟨hinv.shown, hinv.accepted, fun s target d hmode => ?_⟩
  rw [SecretDetailState.requestNavigation, hmode]

/-! ### A secret that is shown -/

def zeroId : Uuid := ⟨List.replicate 16 0, List.length_replicate⟩

def mailDraft : EditSecretDraft := ⟨⟨zeroId⟩, "mail", []⟩

/-- The attempt after the one navigation to the secret. -/
def mailAttempt : LocalAuthAttempt := ⟨zeroId, ⟨zeroId⟩, 1⟩

def mailView : View :=
  ⟨⟨.secret ⟨zeroId⟩, some ⟨zeroId⟩, some mailAttempt, 1, .revealed mailDraft, none⟩, [mailAttempt]⟩

lemma mail_run : Run Step View.initial
    [.navigateNow (.secret ⟨zeroId⟩), .authenticationAttempt zeroId (some mailAttempt),
      .acceptAuthentication mailAttempt zeroId true, .beginReveal zeroId mailDraft] mailView := by
  have h1 := Step.navigateNow View.initial (.secret ⟨zeroId⟩)
  refine Run.cons h1 (Run.cons (Step.authenticationAttempt _ zeroId) ?_)
  exact Run.cons (Step.acceptAuthentication _ (List.mem_singleton.mpr rfl) zeroId)
    (Run.single (Step.beginReveal _ zeroId mailDraft))

theorem detail_guarded_mail : mailView.state.selected = some mailDraft.id ∧
    ∃ a, a.secretId = mailDraft.id ∧ AcceptedSince
      [.navigateNow (.secret ⟨zeroId⟩), .authenticationAttempt zeroId (some mailAttempt),
        .acceptAuthentication mailAttempt zeroId true, .beginReveal zeroId mailDraft] a :=
  (detail_guarded mail_run (by decide)).1 mailDraft rfl

end Ladon.SecretDetail

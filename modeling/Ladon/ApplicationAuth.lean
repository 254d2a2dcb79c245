import Ladon.Application

/-!
No secret without the human.

Whatever agents, connections and the desktop do in whatever order, a grant that an agent has goes back
to a request that a thread made, that was put before the human, and that the human approved, for as
long as they chose; or to a consent to unattended use of the secrets on the screen.
-/

namespace Ladon.Application

open Ladon.Error Ladon.Model Ladon.Vault Ladon.Approval Ladon.Grants Ladon.Controller
  Ladon.ApprovalLifetime Ladon.Desktop Ladon.Lib Ladon.Lib.Machine

section Grants

variable [UnicodeNormalization] {platform : Platform} {approvalTimeout grantLifetime : Duration}
  {env : Env} {fileExists : Bool} {phase : VaultUiPhase} {s s' : System} {o : Occurrence}
  {history before after : List Occurrence}

/-! ### What the human confirmed -/

/-- An agent's thread took this step. -/
def ByAgent (o : Occurrence) (x : BrokerRevoke.Occurrence) : Prop :=
  o.event = .agents x.event ∧ x.before = o.before.agents

/-- The desktop does this in the event, and the human confirmed the target. -/
def Does (platform : Platform) (before : List Occurrence) (o : Occurrence) (target : TouchIdTarget)
    (effect : Effect) : Prop :=
  ∃ e, o.event = .desktop e ∧ effect ∈ effects platform ⟨o.before.ui, e⟩ ∧
    Confirmed platform (atDesktop before) ⟨o.before.ui, e⟩ target

/-- The human approves the request that is on the screen, for as long as they choose. -/
structure Approves (platform : Platform) (before : List Occurrence) (o : Occurrence)
    (pending : PendingApproval) (decision : HumanDecision) : Prop where
  does : ∃ lifetime now, lifetime.decision (localDayEnd platform.libc now) = .ok decision ∧
    Does platform before o (.approval pending.id pending.vaultSessionId lifetime)
      (.approve pending.id decision (.ok ()))
  seen : ∃ asking ∈ before ++ [o], asking.before.ui.shown = some pending

/-- The human consents to unattended use of the secrets on the screen, and the vault has them. -/
structure Consents (platform : Platform) (before : List Occurrence) (o : Occurrence)
    (consent : UnattendedConsent) (deadline : ℤ) : Prop where
  captured : ∃ x ∈ atBroker platform before, x.Captures consent.context
  does : Does platform before o (.unattended consent deadline)
    (.grantUnattended consent deadline (.ok ()))
  valid : validateConsent o.before.agents.broker.controller consent = .ok ()

/-- The grant is of a consent. -/
structure Consented (platform : Platform) (history : List Occurrence) (c : Uuid) (k : SecretId)
    (d : GrantDeadline) : Prop where
  consents : ∃ before o after consent deadline, history = before ++ o :: after ∧
    Consents platform before o consent deadline ∧ consent.context.client = c ∧
    k ∈ consent.secrets.map SecretMetadata.id ∧
    d = GrantStore.unattendedDeadline o.before.agents.broker.env.clock deadline

/-- What a grant goes back to. -/
inductive Authorized (platform : Platform) (approvalTimeout : Duration) (history : List Occurrence)
    (c : Uuid) (k : SecretId) (d : GrantDeadline) : Prop
  | approval {before after : List Occurrence} {asked shown approved taken : Occurrence}
      {x y : BrokerRevoke.Occurrence} {p q r : PendingState} {decision : HumanDecision}
      (cut : history = before ++ approved :: after) (order : [asked, shown].Sublist before)
      (later : taken ∈ after) (asks : ByAgent asked x) (puts : x.Puts approvalTimeout p)
      (shows : Shows shown r.request) (approves : Approves platform before approved r.request decision)
      (takesUp : ByAgent taken y) (takes : y.Takes q decision.decision d)
      (seen : r.SameRequest p) (granted : q.SameRequest p) (client : r.request.clientSessionId = c)
      (secret : k ∈ r.request.secretIds)
  | consent (consented : Consented platform history c k d)

lemma byAgent_of_part {x : BrokerRevoke.Occurrence} {r : ℕ} {c : Broker.Choice}
    (h : part System.agents (brokerEvent platform) o = some x) (hx : x.event = .broker (.run r c)) :
    ByAgent o x := by
  obtain ⟨hevent, hbefore⟩ := part_eq_some.mp h
  rw [hx] at hevent
  exact ⟨(agents_of_run hevent).trans (by rw [hx]), hbefore⟩

/-- What needs the human is done on their word. -/
lemma does_of_run {e : Desktop.Event} {effect : Effect}
    (run : Run (Step platform approvalTimeout) (System.initial env grantLifetime fileExists phase)
      before o.before)
    (happly : o.before.apply platform approvalTimeout o.event = some s')
    (hevent : o.event = .desktop e) (heffect : effect ∈ effects platform ⟨o.before.ui, e⟩)
    (hprivileged : effect.privileged = true) :
    ∃ target, Desktop.Grants platform target effect ∧ Does platform before o target effect := by
  rw [hevent] at happly
  have hdesk := (run_parts run).1
  have hkind := (perform_kind (uiInv_run hdesk) (apply_desktop happly).1).1
  obtain ⟨target, hgrants, hconfirmed⟩ :=
    Kind.confirmed (o := ⟨o.before.ui, e⟩) hkind (traced_run hdesk) heffect hprivileged
  exact ⟨target, hgrants, e, hevent, heffect, hconfirmed⟩

/-- A request that the human approved was put before them, and was on the screen when they were asked
for their word. -/
lemma seen_of_does {id session : Uuid} {lifetime : Desktop.ApprovalLifetime} {effect : Effect}
    (run : Run (Step platform approvalTimeout) (System.initial env grantLifetime fileExists phase)
      before o.before)
    (h : Does platform before o (.approval id session lifetime) effect) :
    ∃ earlier shown later pending, before = earlier ++ shown :: later ∧ Shows shown pending ∧
      pending.id = id ∧ pending.vaultSessionId = session ∧
      ∃ asking ∈ before ++ [o], asking.before.ui.shown = some pending := by
  obtain ⟨e, -, -, hconfirmed⟩ := h
  have hseen {first last : List Occurrence} {asking : Occurrence}
      (hcut : before = first ++ last) (hasking : asking ∈ before ++ [o])
      (hrun : Run (Step platform approvalTimeout) (System.initial env grantLifetime fileExists phase)
        first asking.before)
      (hshown : ∃ pending, asking.before.ui.shown = some pending ∧ pending.id = id ∧
        pending.vaultSessionId = session) :
      ∃ earlier shown later pending, before = earlier ++ shown :: later ∧ Shows shown pending ∧
        pending.id = id ∧ pending.vaultSessionId = session ∧
        ∃ asking ∈ before ++ [o], asking.before.ui.shown = some pending := by
    obtain ⟨pending, hpending, hid, hsession⟩ := hshown
    obtain ⟨shown, hmem, hshows⟩ := shows_run hrun hpending
    obtain ⟨earlier, later, rfl⟩ := List.append_of_mem hmem
    refine ⟨earlier, shown, later ++ last, pending, ?_, hshows, hid, hsession, asking, hasking, hpending⟩
    rw [hcut, List.append_assoc, List.cons_append]
  rcases hconfirmed with hpin | htouch
  · exact hseen (List.append_nil _).symm (by simp) run (hpin.asks.shown)
  · obtain ⟨first, ask, between, hbefore, hasks, -⟩ := htouch.asked
    obtain ⟨first, asking, rest, rfl, -, hpart, -⟩ := cut_filterMap hbefore
    obtain ⟨-, hask⟩ := part_eq_some.mp hpart
    rw [hask] at hasks
    obtain ⟨u, hfirst, -⟩ := cut run
    exact hseen rfl (by simp) hfirst hasks.shown

/-! ### The theorem -/

/-- What the broker is told to approve the human approves, and has seen. -/
lemma approves_of_decides {x : BrokerRevoke.Occurrence} {p : PendingState}
    {decision : HumanDecision}
    (run : Run (Step platform approvalTimeout) (System.initial env grantLifetime fileExists phase)
      before o.before)
    (happly : o.before.apply platform approvalTimeout o.event = some s')
    (hpart : part System.agents (brokerEvent platform) o = some x)
    (hdecides : x.Decides p.request.id decision) :
    ∃ earlier shown later r, before = earlier ++ shown :: later ∧ Shows shown r.request ∧
      r.request.id = p.request.id ∧ BrokerRevoke.Put approvalTimeout (atBroker platform earlier) r ∧
      Approves platform before o r.request decision := by
  obtain ⟨hevent, hbefore⟩ := part_eq_some.mp hpart
  obtain ⟨he, happroves, hok⟩ := hdecides
  rw [he] at hevent
  have hinv : UiInv o.before.ui := uiInv_run (run_parts run).1
  obtain ⟨e, effect, hdesktop, heffect, hcalled⟩ :=
    call_of_brokerEvent hinv happly hevent happroves
  have heq := called_decide hcalled
  rw [← hbefore, hok] at heq
  subst heq
  obtain ⟨target, hgrants, hdoes⟩ := does_of_run run happly hdesktop heffect rfl
  cases hgrants with
  | approval given =>
    obtain ⟨earlier, shown, later, pending, hcut, hshows, hid, rfl, hseen⟩ := seen_of_does run hdoes
    obtain ⟨u, hearlier, -⟩ := cut (hcut ▸ run)
    obtain ⟨r, rfl, hput⟩ := put_of_shows hearlier hshows
    exact ⟨earlier, shown, later, r, hcut, hshows, hid, hput, ⟨_, _, given, hid ▸ hdoes⟩, hseen⟩

/-- A consent at the broker is the human's. -/
lemma consented_of_consents
    (run : Run (Step platform approvalTimeout) (System.initial env grantLifetime fileExists phase)
      history s)
    {capture consenting : BrokerRevoke.Occurrence} {context : UnattendedContext} {c : Uuid}
    {k : SecretId} {d : GrantDeadline}
    (order : [capture, consenting].Sublist (atBroker platform history))
    (captures : capture.Captures context) (client : context.client = c)
    (consents : consenting.Consents context k d) : Consented platform history c k d := by
  obtain ⟨first, rest, hbroker, hcapture, hrest⟩ := List.cons_sublist_iff.mp order
  obtain ⟨left, right, rfl⟩ := List.append_of_mem (List.singleton_sublist.mp hrest)
  rw [← List.append_assoc] at hbroker
  obtain ⟨before, consented, after, rfl, hfirst, hconsented, -⟩ := cut_filterMap hbroker
  obtain ⟨u, hbefore, happly, -⟩ := cut run
  obtain ⟨secrets, call, he, hk, hcall⟩ := consents
  obtain ⟨deadline, validate, hcalls, hok, rfl⟩ := hcall.event
  cases hcalls
  obtain ⟨hevent, hstate⟩ := part_eq_some.mp hconsented
  rw [he] at hevent
  obtain ⟨e, effect, hdesktop, heffect, hcalled⟩ :=
    call_of_brokerEvent (uiInv_run (run_parts hbefore).1) happly hevent rfl
  obtain ⟨consent, rfl, rfl, rfl, heq⟩ := called_grantUnattended hcalled
  obtain ⟨b, e'⟩ := consenting
  obtain rfl := hstate
  have hgranted : (consented.before.agents.broker.approval.grantUnattended
      consented.before.agents.broker.env consent.context (consent.secrets.map SecretMetadata.id)
      deadline (validateConsent consented.before.agents.broker.controller consent)).1 = .ok () := hok
  rw [hgranted] at heq
  subst heq
  obtain ⟨-, -, hvalid, -⟩ := grantUnattended_ok hgranted
  obtain ⟨target, hgrants, hdoes⟩ := does_of_run hbefore happly hdesktop heffect rfl
  cases hgrants
  have hearlier : capture ∈ atBroker platform before := by
    rw [atBroker, hfirst]
    exact List.mem_append_left _ hcapture
  exact ⟨before, consented, after, consent, deadline, rfl, ⟨⟨capture, hearlier, captures⟩, hdoes, hvalid⟩,
    client, hk, rfl⟩

/-- A grant goes back to what the human approved or consented to. -/
lemma authorized_of_grant
    (run : Run (Step platform approvalTimeout) (System.initial env grantLifetime fileExists phase)
      history s)
    (distinct : ((atBroker platform history).filterMap
      (BrokerRevoke.requestId approvalTimeout)).Nodup) {c : Uuid}
    {k : SecretId} {d : GrantDeadline}
    (grant : s.agents.broker.approval.grants.get? c k = some d) :
    Authorized platform approvalTimeout history c k d := by
  cases (BrokerRevoke.Sourced.run (run_parts run).2).grants grant with
  | @approval put decided taking p q decision order puts decides takes same client secret =>
    obtain ⟨first, last, hbroker, hput, htaking⟩ := cut_order order
    obtain ⟨before, approved, after, rfl, rfl, happroved, rfl⟩ := cut_filterMap hbroker
    obtain ⟨u, hbefore, happly, -⟩ := cut run
    obtain ⟨earlier, shown, later, r, rfl, hshows, hid, ⟨x, hx, p₀, hputs, hseen⟩, happroves⟩ :=
      approves_of_decides hbefore happly happroved decides
    obtain ⟨asked, hasked, hasks⟩ := List.mem_filterMap.mp hx
    obtain ⟨taken, htaken, htakes⟩ := List.mem_filterMap.mp htaking
    -- what was on the screen is what was approved: its identifier is nobody else's
    have hsame : p₀ = p := by
      refine BrokerRevoke.Occurrence.Puts.unique distinct ?_ ?_ hputs puts (hseen.id.symm.trans hid)
      · exact hbroker ▸ List.mem_append_left _
          (List.filterMap_append ▸ List.mem_append_left _ hx)
      · exact hbroker ▸ List.mem_append_left _ hput
    subst hsame
    obtain ⟨⟨_, _, _, _, _, hrun, -⟩, _, _, _, _, _, hrun', -⟩ := And.intro hputs takes
    refine .approval rfl ?_ htaken (byAgent_of_part hasks hrun) hputs hshows happroves
      (byAgent_of_part htakes hrun') takes hseen same (hseen.client.trans client)
      (hseen.secretIds ▸ secret)
    exact (List.singleton_sublist.mpr hasked).append (List.singleton_sublist.mpr List.mem_cons_self)
  | consent order captures client consents =>
    exact .consent (consented_of_consents run order captures client consents)

/-- **No secret without the human.** In every run of the application, with agents, connections and
the desktop in any order, every grant that an agent has goes back to a request that a thread of its
made and that was put before the human, who approved just this with their PIN or Touch ID, for as long
as they chose, before the thread took it up; or to a consent, so confirmed, to unattended use of the
secrets on the screen. And wherever plaintext is read for an agent, or a child is started with it,
every secret of the plan is granted at that moment, and so. -/
theorem secrets_authorized
    (run : Run (Step platform approvalTimeout) (System.initial env grantLifetime fileExists phase)
      history s)
    (distinct : ((atBroker platform history).filterMap
      (BrokerRevoke.requestId approvalTimeout)).Nodup) :
    (∀ c k d, s.agents.broker.approval.grants.get? c k = some d →
      Authorized platform approvalTimeout history c k d) ∧
    ∀ before o after, history = before ++ o :: after → ∀ e r t plan checked,
      o.event = .agents (.broker e) →
      Broker.Occurrence.Uses ⟨o.before.agents.broker, e⟩ r t plan checked →
      ∀ k ∈ plan.bindingSecretIds, ∃ d,
        o.before.agents.broker.approval.grants.get? t.client k = some d ∧
          Authorized platform approvalTimeout before t.client k d := by
  refine ⟨fun c k d => authorized_of_grant run distinct, ?_⟩
  rintro before o after rfl e r t plan checked - huses k hk
  obtain ⟨u, hbefore, -⟩ := cut run
  obtain ⟨d, hd⟩ := BrokerRevoke.granted_of_uses (run_parts hbefore).2 huses k hk
  have hearlier : (atBroker platform before).Sublist (atBroker platform (before ++ o :: after)) :=
    (List.sublist_append_left before (o :: after)).filterMap _
  exact ⟨d, hd, authorized_of_grant hbefore (distinct.sublist (hearlier.filterMap _)) hd⟩

end Grants

/-! ### An agent that is let in -/

section Push

local instance pushText : UnicodeNormalization := asciiNormalization

/-- The request of the agent, as it is put before the human. -/
def pushRequest : PendingApproval where
  id := Broker.deskChoice.approvalId
  vaultSessionId := (Broker.deskSession 7).sessionId
  clientSessionId := Broker.deskThread.client
  clientLabel := Broker.deskThread.label
  secrets := [⟨⟨.filled 2⟩, "git", ["value"]⟩]
  executable := "/usr/bin/git"
  arguments := []
  workingDirectory := "/"

def pushAnswers : Answers := { deskAnswers with
  controller := fun _ => .ok ⟨.unlocked, some (Broker.deskSession 7).sessionId⟩
  pendingApproval := .ok (some pushRequest)
  currentPending := .ok (some pushRequest) }

def pushAct (action : Action) : Event := .desktop (.act action pushAnswers)

/-- A PIN is set, an agent asks, the human approves what is on the screen, and the agent has it. -/
def pushEvents : List Event :=
  [.agents (.broker (Broker.deskUnlock 7)), .desktop (.draw pushAnswers),
    pushAct (.type .sessionPin "1234"), pushAct (.type .sessionPinConfirmation "1234"),
    pushAct .setSessionPin, .desktop (.draw pushAnswers),
    .agents (.broker (.request 0 Broker.deskThread))] ++
  List.replicate 6 (.agents (.broker (.run 0 Broker.deskChoice))) ++
  [.desktop (.drawn pushAnswers), .desktop (.observe pushAnswers),
    pushAct (.type .localPin "1234"), pushAct (.approve .pin .thirtyMinutes),
    .agents (.broker (.run 0 Broker.deskChoice))]

def pushStart : System := .initial ⟨⟨0, 0⟩, 0, []⟩ (30 * 60 * 10 ^ 9) true .unlocked

theorem secrets_authorized_push : ∃ history s d,
    Run (Step plainPlatform Broker.deskTimeout) pushStart history s ∧
    s.agents.broker.approval.grants.get? Broker.deskThread.client ⟨.filled 2⟩ = some d ∧
    Authorized plainPlatform Broker.deskTimeout history Broker.deskThread.client ⟨.filled 2⟩ d := by
  have hplay : ((play (System.apply plainPlatform Broker.deskTimeout) pushStart pushEvents).any
      fun q => (q.2.agents.broker.approval.grants.get? Broker.deskThread.client
          ⟨.filled 2⟩).isSome &&
        decide ((atBroker plainPlatform q.1).filterMap
          (BrokerRevoke.requestId Broker.deskTimeout)).Nodup) = true := by
    decide +kernel
  obtain ⟨⟨history, s⟩, hq, hs⟩ := (Option.any_eq_true _ _).mp hplay
  obtain ⟨hgrant, hdistinct⟩ := Bool.and_eq_true_iff.mp hs
  obtain ⟨d, hd⟩ := Option.isSome_iff_exists.mp hgrant
  have hrun := run_of_play hq
  exact ⟨history, s, d, hrun, hd, (secrets_authorized hrun (of_decide_eq_true hdistinct)).1 _ _ d hd⟩

end Push

end Ladon.Application

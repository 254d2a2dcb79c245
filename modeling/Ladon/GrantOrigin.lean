import Ladon.BrokerRevokeSpec

/-!
Where the grants of a broker at work come from.

Every grant goes back to a request that a thread made, the approval of what was pending of it, and the
thread that took the approval up; or to a context that was captured, and the consent on it. What is
pending is of the same secrets from the moment the thread asked until it is taken up.
-/

namespace Ladon.BrokerRevoke

open Ladon.Error Ladon.Model Ladon.Approval Ladon.Grants Ladon.Controller Ladon.Broker
  Ladon.RunAdmission Ladon.Lib Ladon.Lib.Machine Ladon.Approval.ApprovalState

variable [UnicodeNormalization] {approvalTimeout : Duration}

/-! ### Occurrences -/

namespace Occurrence

/-- A thread asks for approval, and has to wait for what is pending behind it. -/
def Puts (approvalTimeout : Duration) (o : Occurrence) (p : PendingState) : Prop :=
  ∃ r c t plan w, o.event = .broker (.run r c) ∧ o.before.broker.threads r = some t ∧
    t.stage = .prepared plan ∧
    (o.before.broker.approval.authorize approvalTimeout o.before.broker.env
      (Broker.State.request t plan c.approvalId) t.cancellation).1 = .waiting w ∧
    (o.before.broker.approval.authorize approvalTimeout o.before.broker.env
      (Broker.State.request t plan c.approvalId) t.cancellation).2.pending = some p

/-- The pending request of this identifier is approved, with this decision. -/
def Decides (o : Occurrence) (id : Uuid) (decision : HumanDecision) : Prop :=
  o.event = .broker (.call (.decide id decision)) ∧ decision.decision.approves ∧
    (o.before.broker.approval.setDecision o.before.broker.env id decision.decision).1 = .ok ()

/-- The thread that waits takes up the approval of what is pending, which makes grants. -/
def Takes (o : Occurrence) (p : PendingState) (e : ApprovalDecision) (d : GrantDeadline) : Prop :=
  ∃ r c t plan w, o.event = .broker (.run r c) ∧ o.before.broker.threads r = some t ∧
    t.stage = .waiting plan w ∧ Approval.Occurrence.TakesUp ⟨o.world, .call (.poll w)⟩ p e d

end Occurrence

/-- The identifier that a thread draws for a request, where it has to wait. -/
def requestId (approvalTimeout : Duration) (o : Occurrence) : Option Uuid :=
  match o.event with
  | .broker (.run r c) =>
    match o.before.broker.threads r with
    | some t =>
      match t.stage with
      | .prepared plan =>
        match (o.before.broker.approval.authorize approvalTimeout o.before.broker.env
          (Broker.State.request t plan c.approvalId) t.cancellation).1 with
        | .waiting _ => some c.approvalId
        | .done _ => none
      | _ => none
    | none => none
  | _ => none

omit [UnicodeNormalization] in
/-- What waits is pending under the identifier it was asked for with. -/
lemma id_of_waiting {a : ApprovalState} {env : Env} {request : PendingApproval} {token : Token}
    {w : Waiting} {p : PendingState}
    (hw : (a.authorize approvalTimeout env request token).1 = .waiting w)
    (hp : (a.authorize approvalTimeout env request token).2.pending = some p) :
    p.request.id = request.id := by
  unfold authorize at hw hp
  dsimp only at hw hp
  split at hw
  · split at hw
    · cases hw
    · split at hw
      · cases hw
      · cases hw
  · next hactive =>
    split at hw
    · cases hw
    · next hpending =>
      split at hw
      · cases hw
      · next hmissing =>
        rw [if_neg hactive, if_neg hpending, if_neg hmissing] at hp
        cases hp
        rfl

lemma Occurrence.Puts.requestId {o : Occurrence} {p : PendingState} (h : o.Puts approvalTimeout p) :
    requestId approvalTimeout o = some p.request.id := by
  obtain ⟨r, c, t, plan, w, he, ht, hs, hwaits, hp⟩ := h
  have hid : p.request.id = c.approvalId := id_of_waiting hwaits hp
  rw [BrokerRevoke.requestId, he]
  simp only [ht, hs, hwaits, hid]

lemma Occurrence.Puts.functional {o : Occurrence} {p q : PendingState}
    (hp : o.Puts approvalTimeout p) (hq : o.Puts approvalTimeout q) : p = q := by
  obtain ⟨r, c, t, plan, w, he, ht, hs, -, hp⟩ := hp
  obtain ⟨r', c', t', plan', w', he', ht', hs', -, hq⟩ := hq
  rw [he] at he'
  cases he'
  rw [ht] at ht'
  cases ht'
  rw [hs] at hs'
  cases hs'
  exact Option.some.inj (hp.symm.trans hq)

/-- Where no identifier is drawn twice, one request has one thread that made it. -/
lemma Occurrence.Puts.unique {history : List Occurrence} {o o' : Occurrence} {p q : PendingState}
    (hdistinct : (history.filterMap (BrokerRevoke.requestId approvalTimeout)).Nodup)
    (ho : o ∈ history) (ho' : o' ∈ history) (hp : o.Puts approvalTimeout p)
    (hq : o'.Puts approvalTimeout q) (hid : p.request.id = q.request.id) : p = q := by
  have hsame : o = o' := by
    by_contra hne
    have hsymm : Std.Symm fun o o' : Occurrence =>
        ∀ id, BrokerRevoke.requestId approvalTimeout o = some id →
          ∀ id', BrokerRevoke.requestId approvalTimeout o' = some id' → id ≠ id' :=
      ⟨fun o o' h id hid id' hid' => (h id' hid' id hid).symm⟩
    have hpairs := List.pairwise_filterMap.mp hdistinct
    exact hpairs.forall ho ho' hne _ hp.requestId _ hq.requestId hid
  subst hsame
  exact hp.functional hq

/-- What a grant goes back to, from the first step to the last. -/
inductive Origin (approvalTimeout : Duration) (history : List Occurrence) (c : Uuid) (k : SecretId)
    (d : GrantDeadline) : Prop
  | approval {put approved taken : Occurrence} {p q : PendingState} {decision : HumanDecision}
      (order : [put, approved, taken].Sublist history) (puts : put.Puts approvalTimeout p)
      (decides : approved.Decides p.request.id decision)
      (takes : taken.Takes q decision.decision d) (same : q.SameRequest p)
      (client : p.request.clientSessionId = c) (secret : k ∈ p.request.secretIds)
  | consent {capture consent : Occurrence} {context : UnattendedContext}
      (order : [capture, consent].Sublist history) (captures : capture.Captures context)
      (client : context.client = c) (consents : consent.Consents context k d)

/-- What is pending was put there by a thread. -/
def Put (approvalTimeout : Duration) (history : List Occurrence) (p : PendingState) : Prop :=
  ∃ put ∈ history, ∃ p₀, put.Puts approvalTimeout p₀ ∧ p.SameRequest p₀

/-- And then it was approved, with this decision. -/
def Decided (approvalTimeout : Duration) (history : List Occurrence) (p : PendingState)
    (e : ApprovalDecision) : Prop :=
  ∃ put approved p₀ decision, [put, approved].Sublist history ∧ put.Puts approvalTimeout p₀ ∧
    p.SameRequest p₀ ∧ approved.Decides p₀.request.id decision ∧ e = decision.decision

section Histories

variable {history : List Occurrence} {o : Occurrence} {p q : PendingState} {e : ApprovalDecision}
  {c : Uuid} {k : SecretId} {d : GrantDeadline}

lemma Origin.snoc (h : Origin approvalTimeout history c k d) (o : Occurrence) :
    Origin approvalTimeout (history ++ [o]) c k d := by
  cases h with
  | approval order puts decides takes same client secret =>
    exact .approval (order.trans (List.sublist_append_left ..)) puts decides takes same client secret
  | consent order captures client consents =>
    exact .consent (order.trans (List.sublist_append_left ..)) captures client consents

lemma Put.snoc (h : Put approvalTimeout history q) (hsame : p.SameRequest q) (o : Occurrence) :
    Put approvalTimeout (history ++ [o]) p := by
  obtain ⟨put, hput, p₀, hputs, h⟩ := h
  exact ⟨put, List.mem_append_left _ hput, p₀, hputs, hsame.trans h⟩

lemma Decided.same (h : Decided approvalTimeout history q e) (hsame : p.SameRequest q) :
    Decided approvalTimeout history p e := by
  obtain ⟨put, approved, p₀, decision, horder, hputs, h, hdecides, he⟩ := h
  exact ⟨put, approved, p₀, decision, horder, hputs, hsame.trans h, hdecides, he⟩

lemma Decided.snoc (h : Decided approvalTimeout history p e) (o : Occurrence) :
    Decided approvalTimeout (history ++ [o]) p e := by
  obtain ⟨put, approved, p₀, decision, horder, h⟩ := h
  exact ⟨put, approved, p₀, decision, horder.trans (List.sublist_append_left ..), h⟩

/-- What is pending is approved. -/
lemma Put.decided {decision : HumanDecision} (h : Put approvalTimeout history p)
    (ho : o.Decides p.request.id decision) :
    Decided approvalTimeout (history ++ [o]) p decision.decision := by
  obtain ⟨put, hput, p₀, hputs, hsame⟩ := h
  exact ⟨put, o, p₀, decision, (List.singleton_sublist.mpr hput).append (.refl [o]), hputs, hsame,
    hsame.id ▸ ho, rfl⟩

/-- An approval is taken up. -/
lemma Decided.origin (h : Decided approvalTimeout history p e) (ho : o.Takes p e d)
    (hk : k ∈ p.request.secretIds) :
    Origin approvalTimeout (history ++ [o]) p.request.clientSessionId k d := by
  obtain ⟨put, approved, p₀, decision, horder, hputs, hsame, hdecides, rfl⟩ := h
  have hsecrets : k ∈ p₀.request.secretIds := hsame.secretIds ▸ hk
  exact .approval (horder.append (.refl [o])) hputs hdecides ho hsame hsame.client.symm hsecrets

end Histories

/-! ### The invariant -/

structure Sourced (approvalTimeout : Duration) (history : List Occurrence) (s : State) : Prop where
  grants : ∀ {c k d}, s.broker.approval.grants.get? c k = some d →
    Origin approvalTimeout history c k d
  pending : ∀ {p}, s.broker.approval.pending = some p → Put approvalTimeout history p
  decided : ∀ {p e}, s.broker.approval.pending = some p → p.decision = some e → e.approves →
    Decided approvalTimeout history p e
  contexts : ∀ context ∈ s.contexts, ∃ o ∈ history, o.Captures context

namespace Sourced

variable {history : List Occurrence} {s s' : State} {e : Event}

lemma initial {env : Env} {grantLifetime : Duration} {fileExists : Bool} :
    Sourced approvalTimeout [] (State.initial env grantLifetime fileExists) where
  grants h := by cases h
  pending h := by cases h
  decided h := by cases h
  contexts context h := by cases h

/-- What is pending behind a call was pending, or the call has just asked for it. -/
lemma put (h : Sourced approvalTimeout history s) {call : Call} {p : PendingState}
    (hcause : Cause s e call)
    (hp : (call.after approvalTimeout s.broker.env s.broker.approval).pending = some p) :
    Put approvalTimeout (history ++ [⟨s, e⟩]) p := by
  have hkept : Remains s.broker.approval p → Put approvalTimeout (history ++ [⟨s, e⟩]) p := by
    rintro ⟨q, hq, hsame, -⟩
    exact (h.pending hq).snoc hsame _
  by_cases hask : ∃ request token, call = .authorize request token
  · obtain ⟨request, token, rfl⟩ := hask
    rcases authorize_remains hp with hold | ⟨-, w, hw⟩
    · exact hkept hold
    · cases hcause with
      | revoke hsilent => cases hsilent
      | broker hcause _ =>
        cases hcause with
        | plain hplain => cases hplain
        | silent hsilent => cases hsilent
        | ask ht hs =>
          exact ⟨_, List.mem_append_right _ List.mem_cons_self, p,
            ⟨_, _, _, _, w, rfl, ht, hs, hw, hp⟩, .refl⟩
  · push Not at hask
    exact hkept (Call.remains hask hp)

/-- A grant that a call makes goes back to what was decided or captured. -/
lemma grant (h : Sourced approvalTimeout history s) {call : Call} {c v : Uuid} {k : SecretId}
    {d : GrantDeadline} (hcause : Cause s e call)
    (hgrants : Approval.Occurrence.Grants ⟨Occurrence.world ⟨s, e⟩, .call call⟩ c k d v) :
    Origin approvalTimeout (history ++ [⟨s, e⟩]) c k d := by
  cases hgrants with
  | @approval p decision _ _ htakes hk =>
    obtain ⟨w, hw, -⟩ := htakes.event
    cases hw
    obtain ⟨q, hq, hf⟩ := quiet_purge.pending htakes.pending
    have hdecided : Decided approvalTimeout history p decision :=
      (h.decided hq (hf.approved htakes.decision htakes.approves) htakes.approves).same
        hf.toSameRequest
    cases hcause with
    | revoke hsilent => cases hsilent
    | broker hcause _ =>
      cases hcause with
      | plain hplain => cases hplain
      | silent hsilent => cases hsilent
      | poll ht hs => exact hdecided.origin ⟨_, _, _, _, _, rfl, ht, hs, htakes⟩ hk
  | @consent context secrets _ _ hconsents hk =>
    obtain ⟨deadline, validate, hevent, -⟩ := hconsents.event
    cases hevent
    cases hcause with
    | revoke hsilent => cases hsilent
    | broker hcause hknown =>
      cases hcause with
      | silent hsilent => cases hsilent
      | plain _ =>
        obtain ⟨capture, hcapture, hcaptures⟩ := h.contexts context (of_decide_eq_true hknown)
        exact .consent ((List.singleton_sublist.mpr hcapture).append (.refl [_])) hcaptures rfl
          ⟨secrets, _, rfl, hk, hconsents⟩

/-- An approval behind a call was there, or is the decision that the call makes. -/
lemma decide (h : Sourced approvalTimeout history s) {call : Call} {p : PendingState}
    {decision : ApprovalDecision} (hcause : Cause s e call)
    (hp : (call.after approvalTimeout s.broker.env s.broker.approval).pending = some p)
    (hd : p.decision = some decision) (ha : decision.approves) :
    Decided approvalTimeout (history ++ [⟨s, e⟩]) p decision := by
  have hchange : Change s.broker.env s.broker.approval call
      (call.after approvalTimeout s.broker.env s.broker.approval) := call.change
  rcases hchange.approved hp hd ha with
    ⟨q, hq, hsame, hqd⟩ | ⟨q, decision, rfl, rfl, hsame, hq, -, hok⟩
  · exact ((h.decided hq hqd ha).same hsame).snoc _
  · obtain ⟨q', hq', hf⟩ := quiet_purge.pending hq
    cases hcause with
    | revoke hsilent => cases hsilent
    | broker hcause _ =>
      cases hcause with
      | silent hsilent => cases hsilent
      | plain _ =>
        refine ((h.pending hq').decided ?_).same (hsame.trans hf.toSameRequest)
        rw [← hf.id]
        exact ⟨rfl, ha, hok⟩

lemma apply (h : Sourced approvalTimeout history s)
    (happly : s.apply approvalTimeout e = some s') :
    Sourced approvalTimeout (history ++ [⟨s, e⟩]) s' := by
  have hcontexts : ∀ context ∈ s'.contexts, ∃ o ∈ history ++ [⟨s, e⟩], o.Captures context := by
    intro context hc
    rcases contexts_of_apply happly hc with hnew | hold
    · exact ⟨_, List.mem_append_right _ List.mem_cons_self, hnew⟩
    · obtain ⟨o, ho, hcaptures⟩ := h.contexts context hold
      exact ⟨o, List.mem_append_left _ ho, hcaptures⟩
  rcases apply_cause happly with hsame | ⟨call, hcause, hafter⟩
  · refine ⟨fun hg => ?_, fun hp => ?_, fun hp hd ha => ?_, hcontexts⟩
    · exact (h.grants (hsame ▸ hg)).snoc _
    · exact (h.pending (hsame ▸ hp)).snoc .refl _
    · exact (h.decided (hsame ▸ hp) hd ha).snoc _
  · have hchange : Change s.broker.env s.broker.approval call s'.broker.approval :=
      hafter ▸ call.change
    refine ⟨fun hg => ?_, fun hp => ?_, fun hp hd ha => ?_, hcontexts⟩
    · rcases hchange.grants (w := Occurrence.world ⟨s, e⟩) hg with hold | ⟨v, hnew⟩
      · exact (h.grants hold).snoc _
      · exact h.grant hcause hnew
    · exact h.put hcause (hafter ▸ hp)
    · exact h.decide hcause (hafter ▸ hp) hd ha

lemma run {env : Env} {grantLifetime : Duration} {fileExists : Bool}
    (hrun : Run (Step approvalTimeout) (State.initial env grantLifetime fileExists) history s) :
    Sourced approvalTimeout history s := by
  refine hrun.history_invariant (I := Sourced approvalTimeout) initial ?_
  rintro history s o s' h ⟨happly⟩
  exact h.apply happly

end Sourced

/-! ### What is used is granted -/

/-- What a check found for a thread is granted, as long as the thread keeps the approval
coordinator. -/
def Backed (b : Broker.State) : Prop :=
  ∀ r t ticket checked, b.threads r = some t → t.stage.held? = some (ticket, checked) →
    ∀ k ∈ ticket.secretIds, ∃ d, b.approval.grants.get? ticket.clientSessionId k = some d

section Backed

variable {b b' : Broker.State}

lemma backed_initial {env : Env} {grantLifetime : Duration} {fileExists : Bool} :
    Backed (Broker.State.initial env grantLifetime fileExists) :=
  fun _ _ _ _ h => by cases h

/-- Where a thread keeps the coordinator, nobody else changes what is granted. -/
lemma Backed.keep (h : Backed b) (hinv : Broker.Inv b)
    (happroval : b'.approval = b.approval ∨ b.holder = none) {r : ℕ} {t : RunThread}
    {ticket : GrantTicket} {checked : Env} (ht : b.threads r = some t)
    (hheld : t.stage.held? = some (ticket, checked)) :
    ∀ k ∈ ticket.secretIds, ∃ d, b'.approval.grants.get? ticket.clientSessionId k = some d := by
  rcases happroval with hsame | hfree
  · rw [hsame]
    exact h r t ticket checked ht hheld
  · have hholder := (hinv.held ht hheld).1
    rw [hfree] at hholder
    cases hholder

/-- A thread keeps the coordinator as it did before, or its check has just passed. -/
lemma backed_of_move {r r' : ℕ} {t t' : RunThread} {ticket : GrantTicket} {checked : Env}
    (hmove : Move approvalTimeout b r t b') (ht : b'.threads r' = some t')
    (hheld : t'.stage.held? = some (ticket, checked)) :
    b.threads r' = some t' ∨
      ∀ k ∈ ticket.secretIds, ∃ d, b'.approval.grants.get? ticket.clientSessionId k = some d := by
  have hnone {s' : RunStage} (hs : s'.held? = none)
      (hthreads : b'.threads = Function.update b.threads r (some { t with stage := s' })) :
      b.threads r' = some t' ∨
        ∀ k ∈ ticket.secretIds, ∃ d, b'.approval.grants.get? ticket.clientSessionId k = some d := by
    rcases threads_update hthreads ht with ⟨-, rfl⟩ | ⟨-, hsame⟩
    · rw [hs] at hheld
      cases hheld
    · exact .inl hsame
  cases hmove with
  | @check plan ticket' s' hfree hvalid hstage =>
    rcases threads_update rfl ht with ⟨-, rfl⟩ | ⟨-, hsame⟩
    · have hticket : s'.held? = some (ticket', b.env) := by
        rcases hstage with ⟨-, rfl⟩ | ⟨-, rfl⟩ <;> rfl
      obtain ⟨rfl, -⟩ := Prod.ext_iff.mp (Option.some.inj (hticket.symm.trans hheld))
      refine .inr fun k hk => ?_
      obtain ⟨d, hd, hremaining, hgone⟩ := (grantIsValid_spec hvalid).2.1 k hk
      exact ⟨d, grantIsValid_grants hd hremaining hgone⟩
    · exact .inl hsame
  | start _ _ _ => exact hnone rfl rfl
  | milder hm _ => exact hnone hm.held rfl
  | call _ hm _ _ => exact hnone hm.held rfl
  | plan _ _ => exact hnone rfl rfl
  | context _ hstage =>
    rcases hstage with ⟨-, rfl⟩ | ⟨plan, -, rfl, -⟩
    · exact hnone rfl rfl
    · exact hnone rfl rfl
  | authorize _ _ hnext =>
    rcases hnext with ⟨e, rfl⟩ | ⟨w, rfl, -⟩ | ⟨ticket, rfl, -⟩
    · exact hnone rfl rfl
    · exact hnone rfl rfl
    · exact hnone rfl rfl
  | resolve _ hnext =>
    rcases hnext with ⟨e, rfl⟩ | ⟨rfl, -⟩
    · exact hnone rfl rfl
    · exact hnone rfl rfl
  | spawn _ hnext =>
    rcases hnext with ⟨e, rfl⟩ | rfl
    · exact hnone rfl rfl
    · exact hnone rfl rfl
  | plainResolve hm _ => exact hnone hm.held rfl
  | plainSpawn _ hm _ => exact hnone hm.held rfl
  | drop _ _ => exact hnone rfl rfl

lemma Backed.event {e : Broker.Event} (h : Backed b) (hinv : Broker.Inv b)
    (happly : b.apply approvalTimeout e = some b') : Backed b' := by
  intro r t ticket checked ht hheld
  have happroval : b'.approval = b.approval ∨ b.holder = none :=
    (apply_approval happly).imp_right And.left
  have hkept (hsame : b.threads r = some t) := h.keep hinv happroval hsame hheld
  have hnew {r₀ : ℕ} {t₀ : RunThread} {s' : RunStage} (hs : s'.held? = none)
      (hthreads : b'.threads = Function.update b.threads r₀ (some { t₀ with stage := s' })) :
      ∀ k ∈ ticket.secretIds, ∃ d, b'.approval.grants.get? ticket.clientSessionId k = some d := by
    rcases threads_update hthreads ht with ⟨-, rfl⟩ | ⟨-, hsame⟩
    · rw [hs] at hheld
      cases hheld
    · exact hkept hsame
  cases apply_move happly with
  | run ht₀ hmove => exact (backed_of_move hmove ht hheld).elim hkept id
  | abandon _ hm _ => exact hnew hm.held rfl
  | lock hmove => exact hkept (hmove.frame.1 ▸ ht)
  | request _ => exact hnew rfl rfl
  | other hthreads _ _ _ _ _ => exact hkept (hthreads ▸ ht)
  | _ => exact hkept ht

lemma Backed.apply {s s' : State} {e : Event} (h : Backed s.broker) (hinv : SystemInv s)
    (happly : s.apply approvalTimeout e = some s') : Backed s'.broker := by
  cases e with
  | broker e =>
    obtain ⟨-, b, hb, rfl⟩ := apply_broker happly
    exact h.event hinv.inv hb
  | begin v revocation =>
    obtain ⟨-, stage, -, -, -, rfl⟩ := apply_begin happly
    exact h
  | revoke v operation =>
    obtain ⟨t, -, hmove⟩ := stepRevoke_move happly
    obtain ⟨hthreads, -, -, -, -, happroval⟩ := hmove.frame
    intro r t ticket checked ht hheld
    exact h.keep hinv.inv (happroval.imp_right And.left) (hthreads ▸ ht) hheld

end Backed

/-- Where a thread reads plaintext, or starts its child with it, its secrets are granted to its
client. -/
theorem granted_of_uses {env : Env} {grantLifetime : Duration} {fileExists : Bool} {s : State}
    {history : List Occurrence} {e : Broker.Event} {r : ℕ} {t : RunThread} {plan : ApprovalPlan}
    {checked : Env}
    (hrun : Run (Step approvalTimeout) (State.initial env grantLifetime fileExists) history s)
    (huses : Broker.Occurrence.Uses ⟨s.broker, e⟩ r t plan checked) :
    ∀ k ∈ plan.bindingSecretIds, ∃ d, s.broker.approval.grants.get? t.client k = some d := by
  have hinv : SystemInv s := systemInv_initial.run hrun
  have hbacked : SystemInv s ∧ Backed s.broker := by
    refine hrun.invariant (I := fun s => SystemInv s ∧ Backed s.broker)
      ⟨systemInv_initial, backed_initial⟩ ?_
    rintro s o s' ⟨hinv, h⟩ ⟨happly⟩
    exact ⟨hinv.apply happly, h.apply hinv happly⟩
  obtain ⟨ticket, ht, hplan, hticket, hheld⟩ : ∃ ticket, s.broker.threads r = some t ∧
      t.stage.plan? = some plan ∧ t.stage.ticket? = some ticket ∧
      t.stage.held? = some (ticket, checked) := by
    rcases huses with ⟨c, ticket, values, -, ht, hs, -⟩ | ⟨c, ticket, -, ht, hs, -⟩
    · exact ⟨ticket, ht, by rw [hs]; rfl, by rw [hs]; rfl, by rw [hs]; rfl⟩
    · exact ⟨ticket, ht, by rw [hs]; rfl, by rw [hs]; rfl, by rw [hs]; rfl⟩
  have hasked := hinv.inv.asked ht hplan hticket
  intro k hk
  rw [← hasked.client]
  exact hbacked.2 r t ticket checked ht hheld k (hasked.secrets k (hinv.inv.covered ht hplan k hk))

end Ladon.BrokerRevoke

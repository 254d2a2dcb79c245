import Ladon.AgentBroker
import Ladon.ApprovalRegistry
import Ladon.Ipc

/-!
The loop that accepts connections, and the sessions that are opened on some of them.

Every connection has a thread of the server, and there is a limit to these. The connection that a
session was opened on keeps its thread for as long as the session lasts; sessions have a limit of
their own, which is lower, so that there are always threads for requests beside them. A client is
registered exactly as long as a thread of the server is there to see its connection go.
-/

namespace Ladon.Serving

open Ladon.Error Ladon.Model Ladon.Protocol Ladon.Approval Ladon.Ipc Ladon.Grants Ladon.Lib
open Ladon.Lib.Machine Ladon.Lib.Utf8 Ladon.Lib.Word
open Ladon.Lib.Json (Doubles)

/-- `MAX_CONNECTION_WORKERS`. -/
def maxConnectionWorkers : ℕ := maxTrackedSessions + 8

/-- How far the handler has come with a request to open a session. -/
inductive Opening
  | called
  | observed
  | refused (e : LadonError)
  | registered (client : Uuid)
  | opened (client : Uuid)

/-- The client that the handler has registered. -/
def Opening.client? : Opening → Option Uuid
  | .called | .observed | .refused _ => none
  | .registered client | .opened client => some client

lemma protocolVersion_le : protocolVersion ≤ u16Max := by decide

/-- What the handler returns. -/
def Opening.reply (request : RpcRequest) : Opening → Option TypedResponse
  | .refused e => some
    { toRpcResponse := .error request.requestId e
      version_le := protocolVersion_le
      typed := trivial }
  | .opened _ => some
    { toRpcResponse := .success request.requestId .sessionOpened
      version_le := protocolVersion_le
      typed := trivial }
  | .called | .observed | .registered _ => none

/-- A thread that serves a connection, and the token it gives the handler. -/
structure Worker where
  token : Token
  connection : Connection
  opening : Opening := .called

namespace Worker

/-- The request to open a session that the handler is at work on. -/
def request? (w : Worker) : Option RpcRequest :=
  match w.connection.stage with
  | .handling request => if Connection.isSessionOpen request then some request else none
  | _ => none

/-- What the handler answers is given, but for a request to open a session. -/
def allows (w : Worker) : Act → Bool
  | .answer _ => w.request?.isNone
  | _ => true

/-- The thread only waits for its session to end. -/
def held (cancelled : List Token) (w : Worker) : Bool :=
  match w.connection.stage with
  | .holding => w.token ∉ cancelled
  | _ => false

end Worker

/-- The approval coordinator, the threads of the server, and whether the server is to stop. -/
structure Server where
  world : World
  workers : List Worker := []
  next : Token := 0
  stopping : Bool := false

inductive Event
  | accept (result : Except LadonError Unit)
  | join (token : Token)
  | connection (token : Token) (a : Act)
  | handler (token : Token) (connectionId : Uuid)
  | approval (e : Approval.Event)
  | stop

/-- Only the handler of a request to open a session registers a client. -/
def isRegistration : Approval.Event → Bool
  | .call (.registerClientSession _ _ _) => true
  | _ => false

namespace Server

def worker (s : Server) (token : Token) : Option Worker := s.workers.find? (·.token = token)

def setWorker (s : Server) (w : Worker) : Server :=
  { s with workers := s.workers.map fun v => if v.token = w.token then w else v }

/-- A connection has come: it gets a thread, or it is dropped. -/
def tryAccept [Doubles] (s : Server) : Option Server :=
  if s.workers.length < maxConnectionWorkers then
    (Connection.step false {} (.accept (.ok true))).map fun effect =>
      { s with workers := s.workers ++ [⟨s.next, effect.connection, .called⟩], next := s.next + 1 }
  else some s

variable (approvalTimeout : Duration)

def approval (s : Server) (e : Approval.Event) : Server :=
  { s with world := s.world.apply approvalTimeout e }

/-- A step of the thread, or of the one that watches its stream. -/
def stepConnection [Doubles] (s : Server) (w : Worker) (a : Act) : Option Server :=
  (w.connection.step (w.token ∈ s.world.env.cancelled) a).map fun effect =>
    (if effect.cancels then s.approval approvalTimeout (.cancel w.token) else s).setWorker
      { w with connection := effect.connection }

/-- The handler of a request to open a session goes on. -/
def handle [Doubles] (s : Server) (w : Worker) (request : RpcRequest) (connectionId : Uuid) :
    Option Server :=
  let client := request.clientSessionId
  match w.opening with
  | .called => some ((s.approval approvalTimeout
      (.call (.observeClient client request.clientLabel))).setWorker { w with opening := .observed })
  | .observed =>
    let s' := s.approval approvalTimeout (.call (.registerClientSession client w.token connectionId))
    match (s.world.state.registerClientSession s.world.env client w.token connectionId).1 with
    | .ok () => some (s'.setWorker { w with opening := .registered client })
    | .error e => some (s'.setWorker { w with opening := .refused e })
  | .registered client => some ((s.approval approvalTimeout
      (.call (.observeClient client request.clientLabel))).setWorker
        { w with opening := .opened client })
  | .refused _ | .opened _ =>
    match w.opening.reply request with
    | some response => s.stepConnection approvalTimeout w (.answer response)
    | none => none

def apply [Doubles] (s : Server) : Event → Option Server
  | .accept result =>
    if s.stopping then none
    else match result with
      | .ok () => s.tryAccept
      | .error _ => some s
  | .join token => do
    let w ← s.worker token
    if w.connection.isOver then return { s with workers := s.workers.filter (·.token ≠ token) }
    else none
  | .connection token a => do
    let w ← s.worker token
    if w.allows a then s.stepConnection approvalTimeout w a else none
  | .handler token connectionId => do
    let w ← s.worker token
    let request ← w.request?
    s.handle approvalTimeout w request connectionId
  | .approval e =>
    if isRegistration e || !s.world.enabled e then none else some (s.approval approvalTimeout e)
  | .stop => some { s with stopping := true }

def initial (env : Env) (grantLifetime : Duration) : Server where
  world := .initial env grantLifetime

end Server

/-- The handler answers what the broker makes of its calls. -/
lemma reply_handle [UnicodeNormalization] {a : AgentBroker.Answers} {request : RpcRequest}
    {opening : Opening} (hopen : Connection.isSessionOpen request)
    (hobserve : a.observeClient = .ok ()) (hagain : a.observeRegistered = .ok ())
    (h : (∃ client, opening = .opened client ∧ a.registerClientSession = .ok ()) ∨
      ∃ e, opening = .refused e ∧ a.registerClientSession = .error e) :
    (opening.reply request).map TypedResponse.toRpcResponse = some (AgentBroker.handle a request) := by
  have hmethod : request.method = .sessionOpen := by
    unfold Connection.isSessionOpen at hopen
    split at hopen
    · assumption
    · cases hopen
  rcases h with ⟨client, rfl, hregister⟩ | ⟨e, rfl, hregister⟩
  · rw [AgentBroker.handle, hmethod, AgentBroker.handleMethod, hobserve, hregister, hagain]
    rfl
  · rw [AgentBroker.handle, hmethod, AgentBroker.handleMethod, hobserve, hregister]
    rfl

/-! ### The thread of a connection -/

/-- What the stage of a connection says of the session that its handler has opened. -/
def Worker.Serves (cancelled : List Token) (w : Worker) : Prop :=
  match w.connection.stage with
  | .handling request => Connection.isSessionOpen request ∨ w.opening = .called
  | .answering request response _ =>
    (Connection.isSessionOpen request ∨ w.opening = .called) ∧
      (Connection.isSessionOpen request → Connection.sessionOpened response.toRpcResponse →
        ∃ client, w.opening = .opened client)
  | .holding => ∃ client, w.opening = .opened client
  | .stopping _ | .returned _ => w.opening.client? = none ∨ w.token ∈ cancelled
  | _ => w.opening = .called

section Threads

variable {cancelled cancelled' : List Token} {w : Worker} {a : Act} {effect : Effect}

lemma Worker.Serves.mono (h : w.Serves cancelled) (hsub : ∀ t ∈ cancelled, t ∈ cancelled') :
    w.Serves cancelled' := by
  obtain ⟨token, ⟨stage, monitor⟩, opening⟩ := w
  cases stage with
  | stopping result => exact h.imp id (hsub _)
  | returned result => exact h.imp id (hsub _)
  | _ => exact h

/-- A connection that is not held is cancelled, if it was for a session. -/
lemma serves_conclude {request : RpcRequest} {response : RpcResponse} {output : Bytes}
    {result : Except LadonError Unit} {c : Connection}
    (hopen : Connection.isSessionOpen request ∨ w.opening = .called)
    (hopened : Connection.isSessionOpen request → Connection.sessionOpened response →
      ∃ client, w.opening = .opened client)
    (heffect : effect = c.conclude request response output result) :
    ({ w with connection := effect.connection } : Worker).Serves
      (if effect.cancels then w.token :: cancelled else cancelled) := by
  rcases Connection.conclude_cases c request response output result with
    ⟨hsession, hsuccess, -, heq⟩ | heq
  · rw [heffect, heq]
    exact hopened hsession hsuccess
  · rw [heffect, heq]
    rcases hopen with hsession | hcalled
    · rw [hsession]
      exact .inr (List.mem_cons_self ..)
    · refine .inl ?_
      change w.opening.client? = none
      rw [hcalled]
      rfl

/-- A step of the connection keeps to what its handler has done. -/
lemma Worker.Serves.step [Doubles] (h : w.Serves cancelled)
    (hstep : w.connection.step (w.token ∈ cancelled) a = some effect)
    (hanswer : ∀ request response, w.connection.stage = .handling request → a = .answer response →
      Connection.isSessionOpen request → Connection.sessionOpened response.toRpcResponse →
      ∃ client, w.opening = .opened client) :
    ({ w with connection := effect.connection } : Worker).Serves
      (if effect.cancels then w.token :: cancelled else cancelled) := by
  obtain ⟨token, ⟨stage, monitor⟩, opening⟩ := w
  have hmove := Connection.step_move hstep
  dsimp only at hmove hanswer
  cases hmove with
  | admitted => exact h
  | turnedAway => exact h
  | more hread => exact h
  | broken hread => exact .inl (by rw [h]; rfl)
  | request hread hdecode => exact h
  | rejected hread hdecode hreply hencode => exact h
  | dropped hread hdecode => exact .inl (by rw [h]; rfl)
  | refuses hflush => exact h
  | refused => exact .inl (by rw [h]; rfl)
  | writes hflush => exact h
  | wrote hflush => exact serves_conclude h.1 h.2 rfl
  | cut hflush => exact serves_conclude h.1 h.2 rfl
  | watched => exact .inr h
  | unwatched => exact .inl (by rw [h]; rfl)
  | answered hencode => exact ⟨h, hanswer _ _ rfl rfl⟩
  | unsendable hencode => exact serves_conclude h (hanswer _ _ rfl rfl) rfl
  | held hlive => exact h
  | released hgone => exact .inr (of_decide_eq_true hgone)
  | joined hover => exact h
  | monitorStops hchecking => exact h
  | monitorGoesOn hchecking => exact h
  | @monitored stage a hreading =>
    obtain ⟨m, cancels, -, heffect⟩ := Connection.monitored_cases ⟨stage, monitor⟩ a
    have hturned : Worker.Serves cancelled ⟨token, ⟨stage, m⟩, opening⟩ := h
    rw [heffect]
    refine hturned.mono fun t ht => ?_
    split
    · exact List.mem_cons_of_mem _ ht
    · exact ht

lemma request?_eq_some {request : RpcRequest} (h : w.request? = some request) :
    w.connection.stage = .handling request ∧ Connection.isSessionOpen request := by
  unfold Worker.request? at h
  split at h
  · next r hs =>
    split_ifs at h with hopen
    cases h
    exact ⟨hs, hopen⟩
  · cases h

/-- While the handler is at work, it may do anything with the session. -/
lemma serves_of_request {request : RpcRequest} (h : w.request? = some request) (opening : Opening) :
    ({ w with opening := opening } : Worker).Serves cancelled := by
  obtain ⟨hs, hopen⟩ := request?_eq_some h
  unfold Worker.Serves
  dsimp only
  rw [hs]
  exact .inl hopen

/-- Once a connection is over, the session on it is cancelled. -/
lemma gone_of_over (h : w.Serves cancelled) (hover : w.connection.isOver) :
    w.opening.client? = none ∨ w.token ∈ cancelled := by
  obtain ⟨token, ⟨stage, monitor⟩, opening⟩ := w
  cases stage with
  | turnedAway => exact .inl (by rw [show opening = .called from h]; rfl)
  | returned result => exact h
  | _ => cases hover

end Threads

/-! ### What holds of the server -/

/-- The client of a session is registered with the token of its connection, until that is cancelled. -/
structure Tracked (world : World) (w : Worker) : Prop where
  serves : w.Serves world.env.cancelled
  registered : ∀ c, w.opening.client? = some c →
    w.token ∈ world.env.cancelled ∨ world.state.clientSessions.get? c = some w.token

structure ServerInv (s : Server) : Prop where
  registry : Registry s.world.state
  room : s.workers.length ≤ maxConnectionWorkers
  fresh : ∀ w ∈ s.workers, w.token < s.next
  distinct : (s.workers.map Worker.token).Nodup
  tracked : ∀ w ∈ s.workers, Tracked s.world w
  owned : ∀ c t, s.world.state.clientSessions.get? c = some t → t ∈ s.world.env.cancelled ∨
    ∃ w ∈ s.workers, w.token = t ∧ w.opening.client? = some c

/-- The registrations are as they were, but for those whose connections have gone. -/
structure Keeps (world world' : World) : Prop where
  cancelled : ∀ t ∈ world.env.cancelled, t ∈ world'.env.cancelled
  old : ∀ c t, world'.state.clientSessions.get? c = some t →
    world.state.clientSessions.get? c = some t
  kept : ∀ c t, world.state.clientSessions.get? c = some t →
    t ∈ world'.env.cancelled ∨ world'.state.clientSessions.get? c = some t
  registry : Registry world.state → Registry world'.state

section Worlds

variable {approvalTimeout : Duration} {world world' : World} {s : Server} {w w' v : Worker}

/-- A purge takes away the registrations whose tokens are cancelled. -/
lemma Keeps.of_purge {env : Env} {state : ApprovalState}
    (hstate : state.clientSessions = world.state.clientSessions)
    (hsessions : world'.state.clientSessions = (state.purgeDisconnectedClients env).clientSessions)
    (hsub : ∀ t ∈ world.env.cancelled, t ∈ world'.env.cancelled)
    (hgone : ∀ t ∈ env.cancelled, t ∈ world'.env.cancelled)
    (hregistry : Registry world.state → Registry world'.state) : Keeps world world' where
  cancelled := hsub
  old c t h := by
    rw [hsessions, ApprovalState.clientSessions_purge, hstate] at h
    exact h.1
  kept c t h := by
    rw [hsessions, ApprovalState.clientSessions_purge, hstate]
    by_cases ht : t ∈ env.cancelled
    · exact .inl (hgone t ht)
    · exact .inr ⟨h, ht⟩
  registry := hregistry

/-- Nothing but a registration adds one. -/
lemma keeps_approval {e : Approval.Event} (h : isRegistration e = false) :
    Keeps world (world.apply approvalTimeout e) := by
  cases e with
  | cancel token =>
    exact ⟨fun t ht => List.mem_cons_of_mem _ ht, fun c t ht => ht, fun c t ht => .inr ht, id⟩
  | advance clock instant => exact ⟨fun t ht => ht, fun c t ht => ht, fun c t ht => .inr ht, id⟩
  | call call =>
    have hregistry : Registry world.state →
        Registry (world.apply approvalTimeout (.call call)).state := fun hr => hr.call call
    by_cases hc : call = .closeClientSessions
    · subst hc
      have hall : ∀ t ∈ world.env.cancelled,
          t ∈ (world.apply approvalTimeout (.call .closeClientSessions)).env.cancelled :=
        fun t ht => List.mem_append_right _ ht
      have hclosed : ({ world.state with sessionsClosed := true } : ApprovalState).clientSessions =
        world.state.clientSessions := rfl
      exact .of_purge hclosed rfl hall (fun t ht => ht) hregistry
    · have hr : ∀ client token connectionId,
          call ≠ .registerClientSession client token connectionId := by
        rintro client token connectionId rfl
        cases h
      have hsub : ∀ t ∈ world.env.cancelled,
          t ∈ (world.apply approvalTimeout (.call call)).env.cancelled :=
        fun t ht => mem_cancelledAfter ht
      rcases @Call.roster approvalTimeout world.env world.state call hr hc with
        hkept | ⟨hpurged, -⟩
      · exact ⟨hsub, fun c t ht => hkept.clients ▸ ht, fun c t ht => .inr (hkept.clients.symm ▸ ht),
          hregistry⟩
      · exact .of_purge rfl hpurged.clients hsub hsub hregistry

lemma ServerInv.keeps (h : ServerInv s) (hk : Keeps s.world world') :
    ServerInv { s with world := world' } where
  registry := hk.registry h.registry
  room := h.room
  fresh := h.fresh
  distinct := h.distinct
  tracked w hw := by
    obtain ⟨hserves, hregistered⟩ := h.tracked w hw
    refine ⟨hserves.mono hk.cancelled, fun c hc => ?_⟩
    rcases hregistered c hc with hgone | hin
    · exact .inl (hk.cancelled _ hgone)
    · exact hk.kept c _ hin
  owned c t hin := by
    rcases h.owned c t (hk.old c t hin) with hgone | howner
    · exact .inl (hk.cancelled t hgone)
    · exact .inr howner

/-! ### The threads -/

lemma worker_eq_some {token : Token} (h : s.worker token = some w) :
    w ∈ s.workers ∧ w.token = token :=
  ⟨List.mem_of_find?_eq_some h, by simpa using List.find?_some h⟩

lemma ServerInv.eq_of_token (h : ServerInv s) (hv : v ∈ s.workers) (hw : w ∈ s.workers)
    (htoken : v.token = w.token) : v = w :=
  List.inj_on_of_nodup_map h.distinct hv hw htoken

lemma mem_setWorker (h : v ∈ (s.setWorker w).workers) :
    v = w ∨ v ∈ s.workers ∧ v.token ≠ w.token := by
  obtain ⟨u, hu, huv⟩ := List.mem_map.mp h
  split_ifs at huv with htoken
  · exact .inl huv.symm
  · exact .inr ⟨huv ▸ hu, huv ▸ htoken⟩

lemma mem_setWorker_self (h : v ∈ s.workers) (htoken : v.token = w.token) :
    w ∈ (s.setWorker w).workers :=
  List.mem_map.mpr ⟨v, h, if_pos htoken⟩

lemma mem_setWorker_of_ne (h : v ∈ s.workers) (htoken : v.token ≠ w.token) :
    v ∈ (s.setWorker w).workers :=
  List.mem_map.mpr ⟨v, h, if_neg htoken⟩

@[simp] lemma length_setWorker : (s.setWorker w).workers.length = s.workers.length :=
  List.length_map _

lemma tokens_setWorker : (s.setWorker w).workers.map Worker.token = s.workers.map Worker.token := by
  rw [Server.setWorker, List.map_map]
  refine List.map_congr_left fun v hv => ?_
  rw [Function.comp]
  split_ifs with htoken
  · exact htoken.symm
  · rfl

lemma fresh_setWorker {n : Token} (h : ∀ v ∈ s.workers, v.token < n) (hw : w ∈ s.workers)
    (htoken : w'.token = w.token) : ∀ v ∈ (s.setWorker w').workers, v.token < n := by
  intro v hv
  rcases mem_setWorker hv with rfl | ⟨hv, -⟩
  · exact htoken ▸ h w hw
  · exact h v hv

/-- A thread goes on, and its session is what it was. -/
lemma ServerInv.set (h : ServerInv s) (hw : w ∈ s.workers) (htoken : w'.token = w.token)
    (hclient : w'.opening.client? = w.opening.client?)
    (hserves : w'.Serves s.world.env.cancelled) : ServerInv (s.setWorker w') where
  registry := h.registry
  room := length_setWorker.trans_le h.room
  fresh := fresh_setWorker h.fresh hw htoken
  distinct := by
    rw [tokens_setWorker]
    exact h.distinct
  tracked v hv := by
    rcases mem_setWorker hv with rfl | ⟨hv, -⟩
    · refine ⟨hserves, fun c hc => ?_⟩
      rw [htoken]
      exact (h.tracked w hw).registered c (hclient ▸ hc)
    · exact h.tracked v hv
  owned c t hin := by
    rcases h.owned c t hin with hgone | ⟨v, hv, hvt, hvc⟩
    · exact .inl hgone
    · by_cases hsame : v.token = w'.token
      · obtain rfl := h.eq_of_token hv hw (hsame.trans htoken)
        exact .inr ⟨w', mem_setWorker_self hv hsame, hsame.symm.trans hvt, hclient.trans hvc⟩
      · exact .inr ⟨v, mem_setWorker_of_ne hv hsame, hvt, hvc⟩

/-- The handler registers its client, which is not registered yet. -/
lemma ServerInv.register {client : Uuid} (h : ServerInv s) (hw : w ∈ s.workers)
    (hnone : w.opening.client? = none) (hregistry : Registry world'.state)
    (henv : world'.env = s.world.env)
    (hnew : s.world.state.clientSessions.contains client = false)
    (hclients : world'.state.clientSessions = s.world.state.clientSessions.insert client w.token)
    (hserves : ({ w with opening := .registered client } : Worker).Serves s.world.env.cancelled) :
    ServerInv
      (({ s with world := world' } : Server).setWorker { w with opening := .registered client }) where
  registry := hregistry
  room := length_setWorker.trans_le h.room
  fresh := fresh_setWorker h.fresh hw rfl
  distinct := by
    rw [tokens_setWorker]
    exact h.distinct
  tracked v hv := by
    rcases mem_setWorker hv with rfl | ⟨hv, -⟩
    · refine ⟨henv ▸ hserves, fun c hc => .inr ?_⟩
      cases hc
      rw [Server.setWorker, hclients, Table.get?_insert, if_pos rfl]
    · obtain ⟨hv', hregistered⟩ := h.tracked v hv
      refine ⟨henv ▸ hv', fun c hc => ?_⟩
      rcases hregistered c hc with hgone | hin
      · exact .inl (henv ▸ hgone)
      · refine .inr ?_
        have hne : c ≠ client := by
          rintro rfl
          rw [Table.contains, hin] at hnew
          cases hnew
        rw [Server.setWorker, hclients, Table.get?_insert, if_neg hne]
        exact hin
  owned c t hin := by
    rw [Server.setWorker, hclients, Table.get?_insert] at hin
    split_ifs at hin with hc
    · cases hin
      subst hc
      exact .inr ⟨_, mem_setWorker_self hw rfl, rfl, rfl⟩
    · rcases h.owned c t hin with hgone | ⟨v, hv, hvt, hvc⟩
      · exact .inl (henv ▸ hgone)
      · refine .inr ⟨v, mem_setWorker_of_ne hv fun htoken => ?_, hvt, hvc⟩
        obtain rfl := h.eq_of_token hv hw htoken
        rw [hnone] at hvc
        cases hvc

/-- The handler's calls, where they register nothing. -/
lemma ServerInv.goOn {request : RpcRequest} {e : Approval.Event} {opening : Opening}
    (h : ServerInv s) (hw : w ∈ s.workers) (hrequest : w.request? = some request)
    (he : isRegistration e = false) (hclient : opening.client? = w.opening.client?) :
    ServerInv ((s.approval approvalTimeout e).setWorker { w with opening := opening }) :=
  (h.keeps (keeps_approval he)).set hw rfl hclient (serves_of_request hrequest opening)

/-- A thread that is over has no session, or a cancelled one. -/
lemma ServerInv.join (h : ServerInv s) (hw : w ∈ s.workers) (hover : w.connection.isOver) :
    ServerInv { s with workers := s.workers.filter (·.token ≠ w.token) } where
  registry := h.registry
  room := (List.length_filter_le _ _).trans h.room
  fresh v hv := h.fresh v (List.mem_of_mem_filter hv)
  distinct := h.distinct.sublist (List.filter_sublist.map _)
  tracked v hv := h.tracked v (List.mem_of_mem_filter hv)
  owned c t hin := by
    rcases h.owned c t hin with hgone | ⟨v, hv, hvt, hvc⟩
    · exact .inl hgone
    by_cases htoken : v.token = w.token
    · obtain rfl := h.eq_of_token hv hw htoken
      rcases gone_of_over (h.tracked v hv).serves hover with hnone | hgone
      · rw [hnone] at hvc
        cases hvc
      · exact .inl (hvt ▸ hgone)
    · exact .inr ⟨v, List.mem_filter.mpr ⟨hv, decide_eq_true htoken⟩, hvt, hvc⟩

lemma serverInv_initial {env : Env} {grantLifetime : Duration} :
    ServerInv (.initial env grantLifetime) where
  registry := ⟨fun _ => rfl, Nat.zero_le _, fun h => by cases h⟩
  room := Nat.zero_le _
  fresh _ hw := by cases hw
  distinct := List.nodup_nil
  tracked _ hw := by cases hw
  owned _ _ h := by cases h

/-- A thread that is held has a client registered with its token. -/
lemma ServerInv.registered_of_held (h : ServerInv s) (hw : w ∈ s.workers)
    (hheld : w.held s.world.env.cancelled) :
    ∃ c, s.world.state.clientSessions.get? c = some w.token := by
  obtain ⟨hserves, hregistered⟩ := h.tracked w hw
  unfold Worker.held at hheld
  split at hheld
  · next hs =>
    unfold Worker.Serves at hserves
    rw [hs] at hserves
    obtain ⟨client, hopened⟩ := hserves
    have hclient : w.opening.client? = some client := by rw [hopened]; rfl
    exact ⟨client, (hregistered client hclient).resolve_left (of_decide_eq_true hheld)⟩
  · cases hheld

/-- The threads that are held are no more than the clients that are registered. -/
lemma ServerInv.held_le (h : ServerInv s) :
    (s.workers.filter (·.held s.world.env.cancelled)).length ≤ maxTrackedSessions := by
  have hnodup : ((s.workers.filter (·.held s.world.env.cancelled)).map Worker.token).Nodup :=
    h.distinct.sublist (List.filter_sublist.map _)
  have hle := Table.length_le_size (t := s.world.state.clientSessions) hnodup ?_
  · rw [List.length_map] at hle
    exact hle.trans h.registry.size_le
  · intro token htoken
    obtain ⟨w, hw, rfl⟩ := List.mem_map.mp htoken
    obtain ⟨hw, hheld⟩ := List.mem_filter.mp hw
    exact h.registered_of_held hw hheld

end Worlds

/-! ### Runs -/

section Runs

variable [Doubles] {approvalTimeout : Duration} {s s' : Server} {w : Worker}

/-- A step of a thread, where a session that is answered for has been opened. -/
lemma ServerInv.stepConnection {a : Act} (h : ServerInv s) (hw : w ∈ s.workers)
    (hanswer : ∀ request response, w.connection.stage = .handling request → a = .answer response →
      Connection.isSessionOpen request → Connection.sessionOpened response.toRpcResponse →
      ∃ client, w.opening = .opened client)
    (hstep : s.stepConnection approvalTimeout w a = some s') : ServerInv s' := by
  obtain ⟨effect, hmove, rfl⟩ := Option.map_eq_some_iff.mp hstep
  have hserves := (h.tracked w hw).serves.step hmove hanswer
  split_ifs at hserves ⊢ with hcancels
  · have hkeeps : Keeps s.world (s.world.apply approvalTimeout (.cancel w.token)) :=
      keeps_approval rfl
    exact (h.keeps hkeeps).set hw rfl rfl hserves
  · exact h.set hw rfl rfl hserves

/-- The handler is to register its client. -/
lemma ServerInv.registration {request : RpcRequest} {connectionId : Uuid} (h : ServerInv s)
    (hw : w ∈ s.workers) (hrequest : w.request? = some request) (hobserved : w.opening = .observed)
    (hstep : s.handle approvalTimeout w request connectionId = some s') : ServerInv s' := by
  have hnone : w.opening.client? = none := by rw [hobserved]; rfl
  simp only [Server.handle, hobserved] at hstep
  rcases @registerClientSession_registers s.world.env s.world.state request.clientSessionId w.token
    connectionId with hbusy | ⟨hok, hr⟩
  · rw [hbusy] at hstep
    cases hstep
    have hregistry (hr : Registry s.world.state) :
        Registry ((Call.registerClientSession request.clientSessionId w.token connectionId).after
          approvalTimeout s.world.env s.world.state) := hr.call _
    have hkeeps : Keeps s.world (s.world.apply approvalTimeout
        (.call (.registerClientSession request.clientSessionId w.token connectionId))) :=
      .of_purge rfl (congrArg (fun p => p.2.clientSessions) hbusy) (fun t ht => ht) (fun t ht => ht)
        hregistry
    exact (h.keeps hkeeps).set hw rfl hnone.symm (serves_of_request hrequest _)
  · rw [hok] at hstep
    cases hstep
    have hpurge : Keeps s.world { s.world with
        state := s.world.state.purgeDisconnectedClients s.world.env } :=
      .of_purge rfl rfl (fun t ht => ht) (fun t ht => ht) fun hr => hr.purge _
    exact (h.keeps hpurge).register hw hnone (h.registry.registers hr) rfl hr.new hr.clients
      (serves_of_request hrequest _)

/-- The handler of a request to open a session goes on. -/
lemma ServerInv.handle {request : RpcRequest} {connectionId : Uuid} (h : ServerInv s)
    (hw : w ∈ s.workers) (hrequest : w.request? = some request)
    (hstep : s.handle approvalTimeout w request connectionId = some s') : ServerInv s' := by
  have hs := (request?_eq_some hrequest).1
  cases hopening : w.opening with
  | called =>
    simp only [Server.handle, hopening] at hstep
    cases hstep
    exact h.goOn hw hrequest rfl (by rw [hopening]; rfl)
  | observed => exact h.registration hw hrequest hopening hstep
  | registered client =>
    simp only [Server.handle, hopening] at hstep
    cases hstep
    exact h.goOn hw hrequest rfl (by rw [hopening]; rfl)
  | refused e =>
    simp only [Server.handle, hopening, Opening.reply] at hstep
    refine h.stepConnection hw ?_ hstep
    rintro r response hr hresponse hopen hopened
    cases hresponse
    cases hopened
  | opened client =>
    simp only [Server.handle, hopening, Opening.reply] at hstep
    exact h.stepConnection hw (fun _ _ _ _ _ _ => ⟨client, hopening⟩) hstep

lemma tryAccept_of_room (hroom : s.workers.length < maxConnectionWorkers) :
    s.tryAccept = some { s with
      workers := s.workers ++ [⟨s.next, ⟨.reading .start, .off⟩, .called⟩]
      next := s.next + 1 } := by
  rw [Server.tryAccept, if_pos hroom]
  rfl

lemma ServerInv.tryAccept (h : ServerInv s) (hstep : s.tryAccept = some s') : ServerInv s' := by
  by_cases hroom : s.workers.length < maxConnectionWorkers
  · rw [tryAccept_of_room hroom] at hstep
    cases hstep
    refine ⟨h.registry, ?_, ?_, ?_, ?_, ?_⟩
    · rw [List.length_append]
      exact hroom
    · intro w hw
      rcases List.mem_append.mp hw with hw | hw
      · exact (h.fresh w hw).trans (Nat.lt_succ_self _)
      · rw [List.mem_singleton.mp hw]
        exact Nat.lt_succ_self _
    · rw [List.map_append]
      refine h.distinct.append (List.nodup_singleton _) ?_
      intro t ht hnew
      obtain ⟨w, hw, rfl⟩ := List.mem_map.mp ht
      have hnext : w.token = s.next := List.mem_singleton.mp hnew
      exact (h.fresh w hw).ne hnext
    · intro w hw
      rcases List.mem_append.mp hw with hw | hw
      · exact h.tracked w hw
      · rw [List.mem_singleton.mp hw]
        exact ⟨rfl, fun c hc => by cases hc⟩
    · intro c t hin
      rcases h.owned c t hin with hgone | ⟨w, hw, howner⟩
      · exact .inl hgone
      · exact .inr ⟨w, List.mem_append_left _ hw, howner⟩
  · rw [Server.tryAccept, if_neg hroom] at hstep
    cases hstep
    exact h

lemma ServerInv.apply {e : Event} (h : ServerInv s)
    (happly : s.apply approvalTimeout e = some s') : ServerInv s' := by
  cases e with
  | accept result =>
    simp only [Server.apply] at happly
    split_ifs at happly
    cases result with
    | ok _ => exact h.tryAccept happly
    | error e =>
      cases happly
      exact h
  | join token =>
    simp only [Server.apply, Option.bind_eq_bind, Option.bind_eq_some_iff] at happly
    obtain ⟨w, hworker, hjoin⟩ := happly
    obtain ⟨hw, rfl⟩ := worker_eq_some hworker
    split_ifs at hjoin with hover
    cases hjoin
    exact h.join hw hover
  | connection token a =>
    simp only [Server.apply, Option.bind_eq_bind, Option.bind_eq_some_iff] at happly
    obtain ⟨w, hworker, hstep⟩ := happly
    obtain ⟨hw, rfl⟩ := worker_eq_some hworker
    split_ifs at hstep with hallows
    refine h.stepConnection hw ?_ hstep
    rintro request response hs rfl hopen -
    rw [Worker.allows, Worker.request?, hs] at hallows
    simp [hopen] at hallows
  | handler token connectionId =>
    simp only [Server.apply, Option.bind_eq_bind, Option.bind_eq_some_iff] at happly
    obtain ⟨w, hworker, request, hrequest, hstep⟩ := happly
    exact h.handle (worker_eq_some hworker).1 hrequest hstep
  | approval e =>
    simp only [Server.apply] at happly
    split_ifs at happly with he
    cases happly
    rw [Bool.or_eq_true, not_or] at he
    exact h.keeps (keeps_approval (Bool.not_eq_true _ ▸ he.1))
  | stop =>
    cases happly
    exact ⟨h.registry, h.room, h.fresh, h.distinct, h.tracked, h.owned⟩

/-! ### The coordinator behind the server -/

/-- An event of the server is an event of the coordinator, or none. -/
def Calls (approvalTimeout : Duration) (world world' : World) : Prop :=
  world' = world ∨ ∃ e, world.enabled e ∧ world' = world.apply approvalTimeout e

omit [Doubles] in
lemma calls_approval {e : Approval.Event} (w : Worker) (h : s.world.enabled e) :
    Calls approvalTimeout s.world ((s.approval approvalTimeout e).setWorker w).world :=
  .inr ⟨e, h, rfl⟩

lemma calls_stepConnection {a : Act} (h : s.stepConnection approvalTimeout w a = some s') :
    Calls approvalTimeout s.world s'.world := by
  obtain ⟨effect, -, rfl⟩ := Option.map_eq_some_iff.mp h
  split_ifs
  · exact calls_approval _ rfl
  · exact .inl rfl

lemma calls_handle {request : RpcRequest} {connectionId : Uuid}
    (h : s.handle approvalTimeout w request connectionId = some s') :
    Calls approvalTimeout s.world s'.world := by
  cases hopening : w.opening with
  | called =>
    simp only [Server.handle, hopening] at h
    cases h
    exact calls_approval _ rfl
  | observed =>
    simp only [Server.handle, hopening] at h
    split at h
    · cases h
      exact calls_approval _ rfl
    · cases h
      exact calls_approval _ rfl
  | registered client =>
    simp only [Server.handle, hopening] at h
    cases h
    exact calls_approval _ rfl
  | refused e =>
    simp only [Server.handle, hopening, Opening.reply] at h
    exact calls_stepConnection h
  | opened client =>
    simp only [Server.handle, hopening, Opening.reply] at h
    exact calls_stepConnection h

lemma calls_apply {e : Event} (h : s.apply approvalTimeout e = some s') :
    Calls approvalTimeout s.world s'.world := by
  cases e with
  | accept result =>
    simp only [Server.apply] at h
    split_ifs at h
    cases result with
    | ok _ =>
      by_cases hroom : s.workers.length < maxConnectionWorkers
      · rw [tryAccept_of_room hroom] at h
        cases h
        exact .inl rfl
      · rw [Server.tryAccept, if_neg hroom] at h
        cases h
        exact .inl rfl
    | error e =>
      cases h
      exact .inl rfl
  | join token =>
    simp only [Server.apply, Option.bind_eq_bind, Option.bind_eq_some_iff] at h
    obtain ⟨w, -, hjoin⟩ := h
    split_ifs at hjoin
    cases hjoin
    exact .inl rfl
  | connection token a =>
    simp only [Server.apply, Option.bind_eq_bind, Option.bind_eq_some_iff] at h
    obtain ⟨w, -, hstep⟩ := h
    split_ifs at hstep
    exact calls_stepConnection hstep
  | handler token connectionId =>
    simp only [Server.apply, Option.bind_eq_bind, Option.bind_eq_some_iff] at h
    obtain ⟨w, -, request, -, hstep⟩ := h
    exact calls_handle hstep
  | approval e =>
    simp only [Server.apply] at h
    split_ifs at h with he
    cases h
    rw [Bool.or_eq_true, not_or, Bool.not_eq_true', Bool.not_eq_false] at he
    exact .inr ⟨e, he.2, rfl⟩
  | stop =>
    cases h
    exact .inl rfl

/-- What the server does to the coordinator is a run of the coordinator, with all that holds of
these. -/
theorem coordinator_run {env : Env} {grantLifetime : Duration}
    {history : List (Machine.Occurrence Server Event)}
    (run : Run (Machine.Step (Server.apply approvalTimeout)) (.initial env grantLifetime) history s) :
    ∃ calls, Run (Approval.Step approvalTimeout) (.initial env grantLifetime) calls s.world := by
  refine run.invariant (I := fun s => ∃ calls,
    Run (Approval.Step approvalTimeout) (.initial env grantLifetime) calls s.world) ⟨[], .nil _⟩ ?_
  rintro s o s' ⟨calls, hrun⟩ ⟨happly⟩
  rcases calls_apply happly with hsame | ⟨e, henabled, hworld⟩
  · exact ⟨calls, hsame ▸ hrun⟩
  · exact ⟨_, hworld ▸ hrun.snoc (.mk henabled)⟩

abbrev Occurrence := Machine.Occurrence Server Event

/-- In every run of the server, the threads that only wait for their sessions to end are no more than
the sessions there may be: sessions are capped separately, and while fewer than eight other threads are
there, a connection that comes gets one. And whoever is registered, and not cancelled, is the client of
a connection that a thread still serves. -/
theorem sessions_leave_room {env : Env} {grantLifetime : Duration} {history : List Occurrence}
    (run : Run (Machine.Step (Server.apply approvalTimeout)) (.initial env grantLifetime) history s) :
    s.workers.length ≤ maxConnectionWorkers ∧
    (s.workers.filter (·.held s.world.env.cancelled)).length ≤ maxTrackedSessions ∧
    (s.stopping = false → (s.workers.filter (! ·.held s.world.env.cancelled)).length < 8 →
      ∃ s', s.apply approvalTimeout (.accept (.ok ())) = some s' ∧
        s'.workers.length = s.workers.length + 1) ∧
    ∀ c t, s.world.state.clientSessions.get? c = some t → t ∉ s.world.env.cancelled →
      ∃ w ∈ s.workers, w.token = t ∧ w.opening.client? = some c ∧ ¬ w.connection.isOver := by
  have hinv : ServerInv s := by
    refine run.invariant (I := ServerInv) serverInv_initial ?_
    rintro s o s' h ⟨happly⟩
    exact h.apply happly
  refine ⟨hinv.room, hinv.held_le, fun hgoing hfew => ?_, fun c t hin hlive => ?_⟩
  · have hsplit : s.workers.length = (s.workers.filter (·.held s.world.env.cancelled)).length +
        (s.workers.filter (! ·.held s.world.env.cancelled)).length :=
      List.length_eq_length_filter_add _
    have hheld := hinv.held_le
    have hroom : s.workers.length < maxConnectionWorkers := by
      unfold maxConnectionWorkers
      omega
    have happly : s.apply approvalTimeout (.accept (.ok ())) = s.tryAccept := by
      rw [Server.apply, hgoing, if_neg Bool.false_ne_true]
    exact ⟨_, happly.trans (tryAccept_of_room hroom), List.length_append⟩
  · obtain ⟨w, hw, htoken, hclient⟩ := (hinv.owned c t hin).resolve_left hlive
    refine ⟨w, hw, htoken, hclient, fun hover => ?_⟩
    rcases gone_of_over (hinv.tracked w hw).serves hover with hnone | hgone
    · rw [hnone] at hclient
      cases hclient
    · exact hlive (htoken ▸ hgone)

end Runs

/-! ### A session that is opened -/

section Opened

local instance openedDoubles : Doubles := Json.noDoubles

def opened : TypedRequest where
  version := protocolVersion
  requestId := .filled 1
  clientSessionId := .filled 2
  clientLabel := "Ladon MCP"
  method := .sessionOpen
  version_le := protocolVersion_le
  typed := trivial

def openedFrame : Bytes := (encodeRequestFrame opened.toRpcRequest).toOption.getD []

def openedEvents : List Event :=
  [.accept (.ok ()), .connection 0 (.read (.bytes openedFrame)),
    .connection 0 (.read (.bytes (openedFrame.drop 4))), .connection 0 (.watch true),
    .handler 0 (.filled 3), .handler 0 (.filled 3), .handler 0 (.filled 3), .handler 0 (.filled 3),
    .connection 0 (.write (.accepts 1000))]

def openedStart : Server := .initial ⟨⟨0, 0⟩, 0, []⟩ 0

/-- The session is held, and the server is not to stop. -/
def holds (s : Server) : Bool :=
  s.stopping = false && (s.workers.filter (·.held s.world.env.cancelled)).length = 1 &&
    (s.workers.filter (! ·.held s.world.env.cancelled)).length = 0 &&
    s.world.state.clientSessions.get? (.filled 2) = some 0 && s.world.env.cancelled = []

/-- One session is open, another connection gets a thread, and the client is that of the first. -/
theorem sessions_leave_room_opened : ∃ history s,
    Run (Machine.Step (Server.apply 0)) openedStart history s ∧
    (s.workers.filter (·.held s.world.env.cancelled)).length = 1 ∧
    (∃ s', s.apply 0 (.accept (.ok ())) = some s' ∧ s'.workers.length = s.workers.length + 1) ∧
    ∃ w ∈ s.workers, w.token = 0 ∧ w.opening.client? = some (.filled 2) ∧
      ¬ w.connection.isOver := by
  have hplay : (play (Server.apply 0) openedStart openedEvents).any fun p => holds p.2 := by
    decide +kernel
  obtain ⟨⟨history, s⟩, hrun, hholds⟩ := (Option.any_eq_true _ _).mp hplay
  have run := run_of_play hrun
  simp only [holds, Bool.and_eq_true, decide_eq_true_eq] at hholds
  obtain ⟨⟨⟨⟨hgoing, hone⟩, hnone⟩, hin⟩, hlive⟩ := hholds
  obtain ⟨-, -, hroom, howner⟩ := sessions_leave_room run
  refine ⟨history, s, run, hone, hroom hgoing (by omega), howner _ _ hin ?_⟩
  rw [hlive]
  exact List.not_mem_nil

end Opened

end Ladon.Serving

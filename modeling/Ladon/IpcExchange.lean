import Ladon.Ipc

/-!
What an exchange comes to.

The stream keeps bytes in order and a frame says how long it is, so what the one end has read as a
frame is the frame that the other end wrote, whatever pieces it came in and whatever else happened
meanwhile: a request is handed to the handler once at most, as it was sent, and only after all of it
was written; a response that the client returns is the one its handler gave.
-/

namespace Ladon.Ipc

open Ladon.Error Ladon.Protocol Ladon.Lib Ladon.Lib.Machine Ladon.Lib.Utf8 Ladon.Lib.Word
open Ladon.Lib.Json (Doubles)
open Ladon.Lib.Serde (slots required)

/-! ### Frames of a request -/

section Frames

variable [Doubles] {request : TypedRequest} {frame : Bytes}

/-- A request that was encoded is decoded as it was, if it passes the check. -/
lemma decodeRequestFrame_of_encode (h : encodeRequestFrame request.toRpcRequest = .ok frame) :
    decodeRequestFrame frame =
      (validateRequest request.toRpcRequest).map fun _ => request.toRpcRequest := by
  have hreadable := readable_request request.version_le request.typed
  simp only [decodeRequestFrame, checkedFramePayload_encodeFrame h,
    validateJsonDocument_render hreadable (checkValue_request request.toRpcRequest),
    fromSlice_render hreadable (readRequest_document request.version_le request.typed), bind,
    Except.bind]
  cases validateRequest request.toRpcRequest <;> rfl

lemma validateRequest_of_decode (h : encodeRequestFrame request.toRpcRequest = .ok frame)
    {e : LadonError} (hdecode : decodeRequestFrame frame = .error e) :
    validateRequest request.toRpcRequest = .error e := by
  rw [decodeRequestFrame_of_encode h] at hdecode
  cases hvalid : validateRequest request.toRpcRequest with
  | error e' =>
    rw [hvalid] at hdecode
    cases hdecode
    rfl
  | ok _ =>
    rw [hvalid] at hdecode
    cases hdecode

lemma eq_of_decode (h : encodeRequestFrame request.toRpcRequest = .ok frame) {r : RpcRequest}
    (hdecode : decodeRequestFrame frame = .ok r) : r = request.toRpcRequest := by
  rw [decodeRequestFrame_of_encode h] at hdecode
  cases hvalid : validateRequest request.toRpcRequest with
  | error e =>
    rw [hvalid] at hdecode
    cases hdecode
  | ok _ =>
    rw [hvalid] at hdecode
    cases hdecode
    rfl

/-- And if it does not, the answer is to this request. -/
lemma requestErrorResponse_of_encode (h : encodeRequestFrame request.toRpcRequest = .ok frame)
    (e : LadonError) : requestErrorResponse frame e = some (.error request.requestId e) := by
  have hreadable := readable_request request.version_le request.typed
  simp only [requestErrorResponse, checkedFramePayload_encodeFrame h,
    validateJsonDocument_render hreadable (checkValue_request request.toRpcRequest), Except.toOption,
    Option.bind_eq_bind, Option.bind_some, Json.parse_render hreadable]
  simp [RpcRequest.document, object, slots, Serde.slot, required]

end Frames

/-! ### Runs -/

abbrev Occurrence := Machine.Occurrence Conversation Event

abbrev Step [Doubles] := Machine.Step Conversation.apply

/-- The handler is called with this request. -/
def handed (o : Occurrence) : Option RpcRequest :=
  match o.event, o.before.server.stage with
  | .server (.watch true), .watching request => some request
  | _, _ => none

/-- The handler returns this response. -/
def answered (o : Occurrence) : Option TypedResponse :=
  match o.event, o.before.server.stage with
  | .server (.answer response), .handling _ => some response
  | _, _ => none

/-- The thread that watches the stream cancels what the handler does. -/
def Cancels (o : Occurrence) : Prop :=
  ∃ a, o.event = .server (.monitorRead a) ∧ (o.before.server.monitored a).cancels

/-- The client has stopped waiting. -/
def Left (s : Conversation) : Prop := s.client = .gone ∨ ∃ result, s.client = .finished result

/-- What has been said so far: the requests that were handed over, and what the handler returned. -/
structure Said (history : List Occurrence) (requests : List RpcRequest)
    (responses : List TypedResponse) : Prop where
  calls : history.filterMap handed = requests
  returns : history.filterMap answered = responses

/-- The first frame that the server has read. -/
def Begins (s : Conversation) (frame : Bytes) : Prop := Whole frame ∧ frame <+: s.upward.received

/-- The server has read this request. -/
def Read [Doubles] (s : Conversation) (request : RpcRequest) : Prop :=
  ∃ frame, Begins s frame ∧ decodeRequestFrame frame = .ok request

/-- Nothing has been handed over, and nothing was written back. -/
structure Untold (history : List Occurrence) (s : Conversation) : Prop where
  said : Said history [] []
  silent : s.downward.written = []

/-- What was read was rejected, and the answer to that has been written but for the rest. -/
structure Refused [Doubles] (history : List Occurrence) (s : Conversation) (e : LadonError)
    (rest : Bytes) : Prop where
  said : Said history [] []
  reply : ∃ frame response, Begins s frame ∧ decodeRequestFrame frame = .error e ∧
    requestErrorResponse frame e = some response ∧
    encodeResponseFrame response = .ok (s.downward.written ++ rest)

/-- The handler has returned, and its response was written in part. -/
structure Answered [Doubles] (history : List Occurrence) (s : Conversation) : Prop where
  spoke : ∃ request response, Said history [request] [response] ∧ Read s request ∧
    (s.downward.written = [] ∨ ∃ rest,
      encodeResponseFrame response.toRpcResponse = .ok (s.downward.written ++ rest))

/-- How far the server has come, and what has come of it. -/
def Course [Doubles] (history : List Occurrence) (s : Conversation) (c : Connection) : Prop :=
  match c.stage with
  | .queued => c.monitor = .off ∧ Untold history s ∧ s.upward.received = []
  | .turnedAway => c.monitor = .off ∧ Untold history s
  | .reading r => c.monitor = .off ∧ Untold history s ∧ s.upward.received = r.soFar
  | .refusing e rest => c.monitor = .off ∧ Refused history s e rest
  | .watching request => c.monitor = .off ∧ Untold history s ∧ Read s request
  | .handling request =>
    c.monitor ≠ .off ∧ Said history [request] [] ∧ Read s request ∧ s.downward.written = []
  | .answering request response rest =>
    c.monitor ≠ .off ∧ Said history [request] [response] ∧ Read s request ∧
      encodeResponseFrame response.toRpcResponse = .ok (s.downward.written ++ rest)
  | .holding | .stopping _ => c.monitor ≠ .off ∧ Answered history s
  | .returned _ =>
    c.monitor = .off ∧ (Untold history s ∨ ∃ e rest, Refused history s e rest) ∨
      c.monitor ≠ .off ∧ Answered history s

/-- What the client has written and read. -/
def Sends [Doubles] (s : Conversation) : Client → Prop
  | .connecting => s.upward.written = [] ∧ s.downward.received = []
  | .sending rest =>
    encodeRequestFrame s.request = .ok (s.upward.written ++ rest) ∧ s.downward.received = []
  | .receiving r =>
    encodeRequestFrame s.request = .ok s.upward.written ∧ s.downward.received = r.soFar
  | .finished (.ok response) =>
    encodeRequestFrame s.request = .ok s.upward.written ∧ Whole s.downward.received ∧
      exchanged s.request s.downward.received = .ok response
  | .finished (.error _) | .gone =>
    s.upward.written = [] ∨ ∃ rest, encodeRequestFrame s.request = .ok (s.upward.written ++ rest)

structure ExchangeInv [Doubles] (request : TypedRequest) (history : List Occurrence)
    (s : Conversation) : Prop where
  request : s.request = request.toRpcRequest
  course : Course history s s.server
  sends : Sends s s.client
  closed : s.upward.closed → Left s

/-! ### What a step keeps -/

section Steps

variable [Doubles] {history : List Occurrence} {o : Occurrence} {s s' : Conversation}
  {request : RpcRequest} {requests : List RpcRequest} {response : TypedResponse}
  {responses : List TypedResponse} {frame : Bytes} {c : Connection}

omit [Doubles] in
/-- An event adds to what was said what it says itself. -/
lemma Said.concat (h : Said history requests responses) :
    Said (history ++ [o]) (requests ++ (handed o).toList) (responses ++ (answered o).toList) where
  calls := by
    rw [List.filterMap_append, h.calls]
    cases hh : handed o with
    | none => rw [List.filterMap_cons_none hh, Option.toList_none, List.filterMap_nil]
    | some request => rw [List.filterMap_cons_some hh, Option.toList_some, List.filterMap_nil]
  returns := by
    rw [List.filterMap_append, h.returns]
    cases ha : answered o with
    | none => rw [List.filterMap_cons_none ha, Option.toList_none, List.filterMap_nil]
    | some response => rw [List.filterMap_cons_some ha, Option.toList_some, List.filterMap_nil]

omit [Doubles] in
lemma Said.quiet (h : Said history requests responses) (hh : handed o = none)
    (ha : answered o = none) : Said (history ++ [o]) requests responses := by
  simpa only [hh, ha, Option.toList_none, List.append_nil] using h.concat (o := o)

omit [Doubles] in
lemma Said.hands (h : Said history [] []) (hh : handed o = some request) (ha : answered o = none) :
    Said (history ++ [o]) [request] [] := by
  simpa only [hh, ha, Option.toList_none, Option.toList_some, List.append_nil, List.nil_append]
    using h.concat (o := o)

omit [Doubles] in
lemma Said.answers (h : Said history requests []) (hh : handed o = none)
    (ha : answered o = some response) : Said (history ++ [o]) requests [response] := by
  simpa only [hh, ha, Option.toList_none, Option.toList_some, List.append_nil, List.nil_append]
    using h.concat (o := o)

lemma Read.grow (h : Read s request) (hr : s.upward.received <+: s'.upward.received) :
    Read s' request := by
  obtain ⟨frame, ⟨hwhole, hfront⟩, hdecode⟩ := h
  exact ⟨frame, ⟨hwhole, hfront.trans hr⟩, hdecode⟩

omit [Doubles] in
lemma Untold.quiet (h : Untold history s) (hh : handed o = none) (ha : answered o = none)
    (hw : s'.downward.written = s.downward.written) : Untold (history ++ [o]) s' :=
  ⟨h.said.quiet hh ha, hw.trans h.silent⟩

/-- More of the answer is written. -/
lemma Refused.writes {e : LadonError} {out rest : Bytes} (h : Refused history s e (out ++ rest))
    (hh : handed o = none) (ha : answered o = none)
    (hr : s.upward.received <+: s'.upward.received)
    (hw : s'.downward.written = s.downward.written ++ out) : Refused (history ++ [o]) s' e rest := by
  obtain ⟨frame, response, ⟨hwhole, hfront⟩, hdecode, hreply, hencode⟩ := h.reply
  refine ⟨h.said.quiet hh ha, frame, response, ⟨hwhole, hfront.trans hr⟩, hdecode, hreply, ?_⟩
  rw [hw, List.append_assoc]
  exact hencode

lemma Refused.quiet {e : LadonError} {rest : Bytes} (h : Refused history s e rest)
    (hh : handed o = none) (ha : answered o = none)
    (hr : s.upward.received <+: s'.upward.received)
    (hw : s'.downward.written = s.downward.written) : Refused (history ++ [o]) s' e rest := by
  have hnone : Refused history s e ([] ++ rest) := h
  exact hnone.writes hh ha hr (hw.trans (List.append_nil _).symm)

lemma Answered.quiet (h : Answered history s) (hh : handed o = none) (ha : answered o = none)
    (hr : s.upward.received <+: s'.upward.received)
    (hw : s'.downward.written = s.downward.written) : Answered (history ++ [o]) s' := by
  obtain ⟨request, response, hsaid, hread, hwrote⟩ := h.spoke
  exact ⟨request, response, hsaid.quiet hh ha, hread.grow hr, hw ▸ hwrote⟩

/-- Where nothing is said, the server is where it was; only the monitor reads on. -/
lemma Course.quiet (h : Course history s c) (hh : handed o = none) (ha : answered o = none)
    (hr : s'.upward.received = s.upward.received ∨
      c.monitor ≠ .off ∧ s.upward.received <+: s'.upward.received)
    (hw : s'.downward.written = s.downward.written) : Course (history ++ [o]) s' c := by
  have hgrow : s.upward.received <+: s'.upward.received := by
    rcases hr with hsame | ⟨-, hgrow⟩
    · rw [hsame]
    · exact hgrow
  have hoff (hm : c.monitor = .off) : s'.upward.received = s.upward.received :=
    hr.resolve_right fun hon => hon.1 hm
  obtain ⟨stage, monitor⟩ := c
  cases stage with
  | queued => exact ⟨h.1, h.2.1.quiet hh ha hw, (hoff h.1).trans h.2.2⟩
  | turnedAway => exact ⟨h.1, h.2.quiet hh ha hw⟩
  | reading r => exact ⟨h.1, h.2.1.quiet hh ha hw, (hoff h.1).trans h.2.2⟩
  | refusing e rest => exact ⟨h.1, h.2.quiet hh ha hgrow hw⟩
  | watching request => exact ⟨h.1, h.2.1.quiet hh ha hw, h.2.2.grow hgrow⟩
  | handling request =>
    obtain ⟨hon, hsaid, hread, hsilent⟩ := h
    exact ⟨hon, hsaid.quiet hh ha, hread.grow hgrow, hw.trans hsilent⟩
  | answering request response rest =>
    obtain ⟨hon, hsaid, hread, hwrote⟩ := h
    exact ⟨hon, hsaid.quiet hh ha, hread.grow hgrow, hw ▸ hwrote⟩
  | holding => exact ⟨h.1, h.2.quiet hh ha hgrow hw⟩
  | stopping result => exact ⟨h.1, h.2.quiet hh ha hgrow hw⟩
  | returned result =>
    rcases h with ⟨hm, huntold | ⟨e, rest, hrefused⟩⟩ | ⟨hon, hanswered⟩
    · exact .inl ⟨hm, .inl (huntold.quiet hh ha hw)⟩
    · exact .inl ⟨hm, .inr ⟨e, rest, hrefused.quiet hh ha hgrow hw⟩⟩
    · exact .inr ⟨hon, hanswered.quiet hh ha hgrow hw⟩

/-! ### Steps of the server -/

/-- The monitor takes its turn. -/
lemma Course.turn {m : Monitor} (h : Course history s c) (hon : c.monitor ≠ .off) (hm : m ≠ .off) :
    Course history s { c with monitor := m } := by
  obtain ⟨stage, monitor⟩ := c
  cases stage with
  | queued => exact (hon h.1).elim
  | turnedAway => exact (hon h.1).elim
  | reading r => exact (hon h.1).elim
  | refusing e rest => exact (hon h.1).elim
  | watching request => exact (hon h.1).elim
  | handling request => exact ⟨hm, h.2⟩
  | answering request response rest => exact ⟨hm, h.2⟩
  | holding => exact ⟨hm, h.2⟩
  | stopping result => exact ⟨hm, h.2⟩
  | returned result =>
    rcases h with ⟨hoff, -⟩ | ⟨-, hanswered⟩
    · exact (hon hoff).elim
    · exact .inr ⟨hm, hanswered⟩

/-- A step of the server: what it read, and what came of it. -/
lemma stepServer_inv {a : Act} (h : s.stepServer a = some s') :
    ∃ upward effect, s.server.step s.cancelled a = some effect ∧ s' = s.afterServer upward effect ∧
      upward.written = s.upward.written ∧ upward.closed = s.upward.closed ∧
      s.upward.received <+: upward.received ∧
      (Conversation.reads s.server a = none → upward = s.upward) ∧
      ∀ x room, Conversation.reads s.server a = some (x, room) →
        Conversation.Possible s.upward x ∧ upward = s.upward.take (Conversation.taken room x) := by
  rw [Conversation.stepServer] at h
  cases hreads : Conversation.reads s.server a with
  | none =>
    rw [hreads] at h
    obtain ⟨effect, hstep, rfl⟩ := Option.map_eq_some_iff.mp h
    exact ⟨s.upward, effect, hstep, rfl, rfl, rfl, List.prefix_rfl, fun _ => rfl,
      fun x room hx => by cases hx⟩
  | some q =>
    obtain ⟨x, room⟩ := q
    rw [hreads] at h
    dsimp only at h
    split_ifs at h with hpossible
    obtain ⟨effect, hstep, rfl⟩ := Option.map_eq_some_iff.mp h
    refine ⟨_, effect, hstep, rfl, Pipe.written_take, Pipe.closed_take, List.prefix_append .., ?_, ?_⟩
    · intro hnone
      cases hnone
    · intro y n hy
      cases hy
      exact ⟨hpossible, rfl⟩

omit [Doubles] in
lemma written_afterServer (upward : Pipe UInt8) (effect : Effect) :
    (s.afterServer upward effect).downward.written = s.downward.written ++ effect.output := by
  rw [Conversation.afterServer]
  dsimp only
  split
  · rw [Pipe.written_close, Pipe.written_write]
  · exact Pipe.written_write _

/-- The response of the handler is written, as far as it goes. -/
lemma answered_conclude {upward : Pipe UInt8} {output : Bytes}
    {result : Except LadonError Unit}
    (hc : c.monitor ≠ .off) (hsaid : Said history [request] [response])
    (hread : Read s request) (hgrow : s.upward.received <+: upward.received)
    (hwrote : s.downward.written ++ output = [] ∨ ∃ rest,
      encodeResponseFrame response.toRpcResponse = .ok ((s.downward.written ++ output) ++ rest)) :
    Course history
      (s.afterServer upward (c.conclude request response.toRpcResponse output result))
      (s.afterServer upward (c.conclude request response.toRpcResponse output result)).server := by
  rcases Connection.conclude_cases c request response.toRpcResponse output result with
    ⟨-, -, -, heffect⟩ | heffect
  · rw [heffect]
    exact ⟨hc, request, response, hsaid, hread.grow hgrow,
      (written_afterServer upward _).symm ▸ hwrote⟩
  · rw [heffect]
    exact ⟨hc, request, response, hsaid, hread.grow hgrow,
      (written_afterServer upward _).symm ▸ hwrote⟩

theorem course_server {a : Act} (h : Course history s s.server) (hstep : s.stepServer a = some s') :
    Course (history ++ [⟨s, .server a⟩]) s' s'.server := by
  obtain ⟨upward, effect, hserver, rfl, -, -, hgrow, hnone, hsome⟩ := stepServer_inv hstep
  have hwritten := written_afterServer (s := s) upward effect
  have hmove := Connection.step_move hserver
  generalize hs : s.server.stage = stage at hmove
  have hcourse := h
  simp only [Course, hs] at h
  have hquiet : Conversation.reads s.server a = none → upward.received = s.upward.received :=
    fun hreads => by rw [hnone hreads]
  have hmute : effect.output = [] →
      (s.afterServer upward effect).downward.written = s.downward.written :=
    fun hout => by rw [hwritten, hout, List.append_nil]
  cases hmove with
  | admitted =>
    obtain ⟨hoff, huntold, hnothing⟩ := h
    have hsame := hquiet rfl
    exact ⟨hoff, huntold.quiet rfl rfl (hmute rfl), hsame.trans hnothing⟩
  | turnedAway =>
    obtain ⟨hoff, huntold, -⟩ := h
    exact ⟨hoff, huntold.quiet rfl rfl (hmute rfl)⟩
  | @more r r' a hread =>
    obtain ⟨hoff, huntold, hread₀⟩ := h
    obtain ⟨hpossible, rfl⟩ := hsome a r.room (by simp only [Conversation.reads, hs])
    exact ⟨hoff, huntold.quiet rfl rfl (hmute rfl),
      Conversation.received_more hpossible hread hread₀⟩
  | broken hread =>
    obtain ⟨hoff, huntold, -⟩ := h
    exact .inl ⟨hoff, .inl (huntold.quiet rfl rfl (hmute rfl))⟩
  | @request r a frame request hread hdecode =>
    obtain ⟨hoff, huntold, hread₀⟩ := h
    obtain ⟨hpossible, rfl⟩ := hsome a r.room (by simp only [Conversation.reads, hs])
    obtain ⟨hframe, hwhole⟩ := Conversation.received_frame hpossible hread hread₀
    exact ⟨hoff, huntold.quiet rfl rfl (hmute rfl), frame,
      ⟨hwhole, hframe ▸ List.prefix_rfl⟩, hdecode⟩
  | @rejected r a frame reply e answer hread hdecode hanswer hencode =>
    obtain ⟨hoff, huntold, hread₀⟩ := h
    obtain ⟨hpossible, rfl⟩ := hsome a r.room (by simp only [Conversation.reads, hs])
    obtain ⟨hframe, hwhole⟩ := Conversation.received_frame hpossible hread hread₀
    refine ⟨hoff, huntold.said.quiet rfl rfl, frame, answer, ⟨hwhole, hframe ▸ List.prefix_rfl⟩,
      hdecode, hanswer, ?_⟩
    rw [hwritten, huntold.silent]
    exact hencode
  | dropped hread hdecode =>
    obtain ⟨hoff, huntold, -⟩ := h
    exact .inl ⟨hoff, .inl (huntold.quiet rfl rfl (hmute rfl))⟩
  | @refuses e rest left w hflush =>
    obtain ⟨hoff, hrefused⟩ := h
    rw [accepted_append hflush] at hrefused
    exact ⟨hoff, hrefused.writes rfl rfl hgrow hwritten⟩
  | @refused e rest w =>
    obtain ⟨hoff, hrefused⟩ := h
    obtain ⟨left, hleft⟩ := accepted_prefix rest w
    rw [← hleft] at hrefused
    exact .inl ⟨hoff, .inr ⟨e, left, hrefused.writes rfl rfl hgrow hwritten⟩⟩
  | @writes request response rest left w hflush =>
    obtain ⟨hon, hsaid, hread, hencode⟩ := h
    refine ⟨hon, hsaid.quiet rfl rfl, hread.grow hgrow, ?_⟩
    rw [hwritten, List.append_assoc, ← accepted_append hflush]
    exact hencode
  | @wrote request response rest w hflush =>
    obtain ⟨hon, hsaid, hread, hencode⟩ := h
    refine answered_conclude hon (hsaid.quiet rfl rfl) hread hgrow (.inr ⟨[], ?_⟩)
    rw [List.append_nil, ← accepted_done hflush]
    exact hencode
  | @cut request response rest w hflush =>
    obtain ⟨hon, hsaid, hread, hencode⟩ := h
    obtain ⟨left, hleft⟩ := accepted_prefix rest w
    refine answered_conclude hon (hsaid.quiet rfl rfl) hread hgrow (.inr ⟨left, ?_⟩)
    rw [List.append_assoc, hleft]
    exact hencode
  | @watched request =>
    obtain ⟨-, huntold, hread⟩ := h
    have hhanded : handed ⟨s, .server (.watch true)⟩ = some request := by simp only [handed, hs]
    have hon : Monitor.checking ≠ .off := by decide
    exact ⟨hon, huntold.said.hands hhanded rfl, hread.grow hgrow,
      hwritten.trans ((List.append_nil _).trans huntold.silent)⟩
  | unwatched =>
    obtain ⟨hoff, huntold, -⟩ := h
    exact .inl ⟨hoff, .inl (huntold.quiet rfl rfl (hmute rfl))⟩
  | @answered request response frame hencode =>
    obtain ⟨hon, hsaid, hread, hsilent⟩ := h
    have hanswered : answered ⟨s, .server (.answer response)⟩ = some response := by
      simp only [answered, hs]
    refine ⟨hon, hsaid.answers rfl hanswered, hread.grow hgrow, ?_⟩
    rw [hwritten, hsilent]
    exact hencode
  | @unsendable request response e hencode =>
    obtain ⟨hon, hsaid, hread, hsilent⟩ := h
    have hanswered : answered ⟨s, .server (.answer response)⟩ = some response := by
      simp only [answered, hs]
    exact answered_conclude hon (hsaid.answers rfl hanswered) hread hgrow (.inl (by rw [hsilent]; rfl))
  | held hcancelled =>
    obtain ⟨hon, hanswered⟩ := h
    exact ⟨hon, hanswered.quiet rfl rfl hgrow (hmute rfl)⟩
  | released hcancelled =>
    obtain ⟨hon, hanswered⟩ := h
    exact ⟨hon, hanswered.quiet rfl rfl hgrow (hmute rfl)⟩
  | joined hover =>
    obtain ⟨hon, hanswered⟩ := h
    exact .inr ⟨hon, hanswered.quiet rfl rfl hgrow (hmute rfl)⟩
  | monitorStops hchecking =>
    obtain ⟨-, hanswered⟩ := h
    have hon : Monitor.over ≠ .off := by decide
    exact ⟨hon,
      hanswered.quiet rfl rfl hgrow (hmute rfl)⟩
  | monitorGoesOn hchecking =>
    have hon : s.server.monitor ≠ .off := fun hoff => by cases hoff.symm.trans hchecking
    have hm : Monitor.reading ≠ .off := by decide
    have hnext := hcourse.turn hon hm
    rw [hs] at hnext
    exact hnext.quiet rfl rfl (.inr ⟨hm, hgrow⟩) (hmute rfl)
  | @monitored stage a hreading =>
    have hon : s.server.monitor ≠ .off := fun hoff => by cases hoff.symm.trans hreading
    obtain ⟨m, cancels, hm, heffect⟩ := Connection.monitored_cases ⟨stage, s.server.monitor⟩ a
    rw [heffect] at hmute ⊢
    have hnext := hcourse.turn hon hm
    rw [hs] at hnext
    exact hnext.quiet rfl rfl (.inr ⟨hm, hgrow⟩) (hmute rfl)

/-! ### Steps of the client -/

lemma Sends.same {client : Client} (h : Sends s client) (hrequest : s'.request = s.request)
    (hwritten : s'.upward.written = s.upward.written)
    (hreceived : s'.downward.received = s.downward.received) : Sends s' client := by
  cases client with
  | connecting => exact ⟨hwritten.trans h.1, hreceived.trans h.2⟩
  | sending rest => exact ⟨by rw [hrequest, hwritten]; exact h.1, hreceived.trans h.2⟩
  | receiving r => exact ⟨by rw [hrequest, hwritten]; exact h.1, hreceived.trans h.2⟩
  | gone =>
    rw [Sends, hrequest, hwritten]
    exact h
  | finished result =>
    cases result with
    | error e =>
      rw [Sends, hrequest, hwritten]
      exact h
    | ok response =>
      rw [Sends, hrequest, hwritten, hreceived]
      exact h

/-- However far the client has come, it has written its request from the front. -/
lemma Sends.front {client : Client} (h : Sends s client) :
    s.upward.written = [] ∨ ∃ rest, encodeRequestFrame s.request = .ok (s.upward.written ++ rest) := by
  have hwhole (h : encodeRequestFrame s.request = .ok s.upward.written) :
      ∃ rest, encodeRequestFrame s.request = .ok (s.upward.written ++ rest) :=
    ⟨[], by rw [List.append_nil]; exact h⟩
  cases client with
  | connecting => exact .inl h.1
  | sending rest => exact .inr ⟨rest, h.1⟩
  | receiving r => exact .inr (hwhole h.1)
  | gone => exact h
  | finished result =>
    cases result with
    | error e => exact h
    | ok response => exact .inr (hwhole h.1)

/-- What a step of the client leaves alone. -/
structure Aside (s s' : Conversation) : Prop where
  request : s'.request = s.request
  server : s'.server = s.server
  received : s'.upward.received = s.upward.received
  written : s'.downward.written = s.downward.written

omit [Doubles] in
lemma aside_finish (s : Conversation) (result : Except LadonError RpcResponse) :
    Aside s (s.finish result) where
  request := rfl
  server := rfl
  received := by
    rw [Conversation.finish]
    dsimp only
    split <;> rfl
  written := rfl

omit [Doubles] in
lemma Aside.trans {s'' : Conversation} (h : Aside s s') (h' : Aside s' s'') : Aside s s'' :=
  ⟨h'.request.trans h.request, h'.server.trans h.server, h'.received.trans h.received,
    h'.written.trans h.written⟩

/-- The client returns with an error, after what it has written. -/
lemma sends_error {s₁ : Conversation} (haside : Aside s s₁)
    (h : s₁.upward.written = [] ∨
      ∃ rest, encodeRequestFrame s₁.request = .ok (s₁.upward.written ++ rest)) (e : LadonError) :
    Aside s (s₁.finish (.error e)) ∧ Sends (s₁.finish (.error e)) (s₁.finish (.error e)).client ∧
      ((s₁.finish (.error e)).upward.closed → s.upward.closed ∨ Left (s₁.finish (.error e))) :=
  ⟨haside.trans (aside_finish s₁ _), h, fun _ => .inr (.inr ⟨_, rfl⟩)⟩

theorem sends_client {a : ClientAct} (h : Sends s s.client) (hstep : s.stepClient a = some s') :
    Aside s s' ∧ Sends s' s'.client ∧ (s'.upward.closed → s.upward.closed ∨ Left s') := by
  cases a with
  | connect result =>
    simp only [Conversation.stepClient] at hstep
    cases hclient : s.client with
    | connecting =>
      rw [hclient] at hstep h
      cases hstep
      obtain ⟨hwritten, hreceived⟩ := h
      cases result with
      | error e =>
        exact sends_error ⟨rfl, rfl, rfl, rfl⟩ (.inl hwritten) e
      | ok _ =>
        simp only [Conversation.connect]
        cases hencode : encodeRequestFrame s.request with
        | error e =>
          exact sends_error ⟨rfl, rfl, rfl, rfl⟩ (.inl hwritten) e
        | ok frame =>
          refine ⟨⟨rfl, rfl, rfl, rfl⟩, ⟨?_, hreceived⟩, .inl⟩
          rw [hencode, hwritten]
          rfl
    | _ =>
      rw [hclient] at hstep
      cases hstep
  | write w =>
    simp only [Conversation.stepClient] at hstep
    cases hclient : s.client with
    | sending rest =>
      rw [hclient] at hstep h
      obtain ⟨hencode, hreceived⟩ := h
      dsimp only at hstep
      cases hflush : flush rest w with
      | more left =>
        rw [hflush] at hstep
        cases hstep
        refine ⟨⟨rfl, rfl, rfl, rfl⟩, ⟨?_, hreceived⟩, .inl⟩
        rw [Pipe.written_write, List.append_assoc, ← accepted_append hflush]
        exact hencode
      | done =>
        rw [hflush] at hstep
        cases hstep
        refine ⟨⟨rfl, rfl, rfl, rfl⟩, ⟨?_, hreceived⟩, .inl⟩
        rw [Pipe.written_write, ← accepted_done hflush]
        exact hencode
      | failed =>
        rw [hflush] at hstep
        cases hstep
        obtain ⟨left, hleft⟩ := accepted_prefix rest w
        have hwrote : Aside s { s with upward := s.upward.write (accepted rest w) } :=
          ⟨rfl, rfl, rfl, rfl⟩
        refine sends_error hwrote (.inr ⟨left, ?_⟩) _
        rw [Pipe.written_write, List.append_assoc, hleft]
        exact hencode
    | _ =>
      rw [hclient] at hstep
      cases hstep
  | read a =>
    simp only [Conversation.stepClient] at hstep
    cases hclient : s.client with
    | receiving r =>
      rw [hclient] at hstep h
      obtain ⟨hencode, hreceived⟩ := h
      dsimp only at hstep
      split_ifs at hstep with hpossible
      have hwhole : encodeRequestFrame s.request = .ok (s.upward.written ++ []) := by
        rw [List.append_nil]
        exact hencode
      have htook : Aside s { s with downward := s.downward.take (Conversation.taken r.room a) } :=
        ⟨rfl, rfl, rfl, Pipe.written_take⟩
      cases hread : r.read a with
      | more r' =>
        rw [hread] at hstep
        cases hstep
        exact ⟨⟨rfl, rfl, rfl, Pipe.written_take⟩,
          ⟨hencode, Conversation.received_more hpossible hread hreceived⟩, .inl⟩
      | failed e =>
        rw [hread] at hstep
        cases hstep
        exact sends_error htook (.inr ⟨[], hwhole⟩) e
      | frame frame =>
        rw [hread] at hstep
        cases hstep
        obtain ⟨hframe, hread⟩ := Conversation.received_frame hpossible hread hreceived
        cases hresult : exchanged s.request frame with
        | error e => exact sends_error htook (.inr ⟨[], hwhole⟩) e
        | ok response =>
          exact ⟨htook.trans (aside_finish _ _), ⟨hencode, hframe ▸ hread, hframe ▸ hresult⟩,
            fun _ => .inr (.inr ⟨_, rfl⟩)⟩
    | _ =>
      rw [hclient] at hstep
      cases hstep
  | leave =>
    cases hstep
    refine ⟨⟨rfl, rfl, rfl, rfl⟩, ?_, fun _ => .inr ?_⟩
    · cases hclient : s.client with
      | finished result =>
        rw [hclient] at h
        exact h.same rfl rfl rfl
      | _ => exact h.front
    · cases hclient : s.client with
      | finished result => exact .inr ⟨result, rfl⟩
      | _ => exact .inl rfl

lemma left_stays {a : ClientAct} (h : Left s) (hstep : s.stepClient a = some s') : Left s' := by
  cases a with
  | leave =>
    cases hstep
    rcases h with hgone | ⟨result, hresult⟩
    · exact .inl (by simp only [hgone])
    · exact .inr ⟨result, by simp only [hresult]⟩
  | _ =>
    rcases h with hgone | ⟨result, hresult⟩
    · simp only [Conversation.stepClient, hgone] at hstep
      cases hstep
    · simp only [Conversation.stepClient, hresult] at hstep
      cases hstep

end Steps

/-! ### Whole exchanges -/

section Exchanges

variable [Doubles] {history : List Occurrence} {s s' : Conversation} {request : TypedRequest}

lemma exchangeInv_initial : ExchangeInv request [] (.initial request) where
  request := rfl
  course := ⟨rfl, ⟨⟨rfl, rfl⟩, rfl⟩, rfl⟩
  sends := ⟨rfl, rfl⟩
  closed h := by cases h

lemma ExchangeInv.apply {e : Event} (h : ExchangeInv request history s)
    (happly : s.apply e = some s') : ExchangeInv request (history ++ [⟨s, e⟩]) s' := by
  cases e with
  | client a =>
    obtain ⟨haside, hsends, hclosed⟩ := sends_client h.sends happly
    refine ⟨haside.request.trans h.request, ?_, hsends, fun hc => ?_⟩
    · rw [haside.server]
      exact h.course.quiet rfl rfl (.inl haside.received) haside.written
    · exact (hclosed hc).elim (fun hold => left_stays (h.closed hold) happly) id
  | server a =>
    obtain ⟨upward, effect, -, rfl, hwritten, hclosed, -⟩ := stepServer_inv happly
    refine ⟨h.request, course_server h.course happly, h.sends.same rfl hwritten ?_, fun hc => ?_⟩
    · rw [Conversation.afterServer]
      dsimp only
      split <;> rfl
    · exact h.closed (hclosed ▸ hc)
  | cancel =>
    cases happly
    exact ⟨h.request, h.course.quiet rfl rfl (.inl rfl) rfl, h.sends.same rfl rfl rfl, h.closed⟩

lemma exchangeInv_run (run : Run Step (.initial request) history s) :
    ExchangeInv request history s := by
  refine run.history_invariant (I := ExchangeInv request) exchangeInv_initial ?_
  rintro history s o s' h ⟨happly⟩
  exact h.apply happly

/-- What the server has read as a request is all that the client wrote. -/
lemma ExchangeInv.read (h : ExchangeInv request history s) {frame : Bytes}
    (hbegins : Begins s frame) :
    encodeRequestFrame request.toRpcRequest = .ok frame ∧ s.upward.written = frame ∧
      s.upward.received = frame := by
  obtain ⟨hwhole, hfront⟩ := hbegins
  have hwritten := hfront.trans Pipe.received_prefix
  rcases h.sends.front with hnone | ⟨rest, hencode⟩
  · rw [hnone, List.prefix_nil] at hwritten
    rw [hwritten] at hwhole
    cases hwhole
  · have hframe : frame = s.upward.written ++ rest :=
      hwhole.eq_of_prefix (whole_encodeFrame hencode) (hwritten.trans (List.prefix_append ..))
    have hsame : frame = s.upward.written :=
      hwritten.eq_of_length_le (hframe ▸ by simp)
    refine ⟨by rw [hframe, ← h.request, hencode], hsame.symm, ?_⟩
    exact (hfront.eq_of_length_le (hsame ▸ Pipe.received_prefix.length_le)).symm

/-- And it is the request that the client was to send. -/
lemma ExchangeInv.same (h : ExchangeInv request history s) {r : RpcRequest} (hread : Read s r) :
    r = request.toRpcRequest ∧ encodeRequestFrame request.toRpcRequest = .ok s.upward.written ∧
      s.upward.pending = [] := by
  obtain ⟨frame, hbegins, hdecode⟩ := hread
  obtain ⟨hencode, hwritten, hreceived⟩ := h.read hbegins
  exact ⟨eq_of_decode hencode hdecode, hwritten ▸ hencode,
    Pipe.pending_of_received (hreceived.trans hwritten.symm)⟩

/-- What has come of a request, whatever the server is at. -/
lemma Course.outcome {c : Connection} (h : Course history s c) :
    Untold history s ∨ (∃ e rest, Refused history s e rest) ∨
      (∃ r, Said history [r] [] ∧ Read s r ∧ s.downward.written = []) ∨ Answered history s := by
  obtain ⟨stage, monitor⟩ := c
  cases stage with
  | queued => exact .inl h.2.1
  | turnedAway => exact .inl h.2
  | reading r => exact .inl h.2.1
  | refusing e rest => exact .inr (.inl ⟨e, rest, h.2⟩)
  | watching r => exact .inl h.2.1
  | handling r => exact .inr (.inr (.inl ⟨r, h.2⟩))
  | answering r response rest =>
    obtain ⟨-, hsaid, hread, hwrote⟩ := h
    exact .inr (.inr (.inr ⟨r, response, hsaid, hread, .inr ⟨rest, hwrote⟩⟩))
  | holding => exact .inr (.inr (.inr h.2))
  | stopping result => exact .inr (.inr (.inr h.2))
  | returned result =>
    rcases h with ⟨-, huntold | hrefused⟩ | ⟨-, hanswered⟩
    · exact .inl huntold
    · exact .inr (.inl hrefused)
    · exact .inr (.inr (.inr hanswered))

/-- While the monitor is on, a request has been read. -/
lemma Course.read_of_on {c : Connection} (h : Course history s c) (hon : c.monitor ≠ .off) :
    ∃ r, Read s r := by
  obtain ⟨stage, monitor⟩ := c
  cases stage with
  | handling r => exact ⟨r, h.2.2.1⟩
  | answering r response rest => exact ⟨r, h.2.2.1⟩
  | holding => exact h.2.spoke.imp fun r ⟨_, _, hread, _⟩ => hread
  | stopping result => exact h.2.spoke.imp fun r ⟨_, _, hread, _⟩ => hread
  | returned result =>
    rcases h with ⟨hoff, -⟩ | ⟨-, hanswered⟩
    · exact (hon hoff).elim
    · exact hanswered.spoke.imp fun r ⟨_, _, hread, _⟩ => hread
  | _ => exact (hon h.1).elim

/-- A response that was encoded and read as a whole is returned as it was, or not at all. -/
lemma exchanged_of_encode {r : RpcRequest} {written received rest : Bytes}
    {answer response : RpcResponse} (htyped : answer.outcome.Typed) (hversion : answer.version ≤ u16Max)
    (hencode : encodeResponseFrame answer = .ok (written ++ rest)) (hwhole : Whole received)
    (hfront : received <+: written) (h : exchanged r received = .ok response) :
    response = answer := by
  have hframe : received = written ++ rest :=
    hwhole.eq_of_prefix (whole_encodeFrame hencode) (hfront.trans (List.prefix_append ..))
  rw [exchanged, hframe, decodeResponseFrame_encode hencode htyped hversion] at h
  by_cases hold : answer.version ≠ protocolVersion
  · rw [if_pos hold] at h
    cases h
  · rw [if_neg hold] at h
    dsimp only at h
    by_cases hid : answer.requestId ≠ r.requestId
    · rw [if_pos hid] at h
      cases h
    · rw [if_neg hid] at h
      cases h
      rfl

lemma ExchangeInv.cancels {o : Occurrence} (h : ExchangeInv request history o.before)
    (happly : o.before.apply o.event = some s') (hcancels : Cancels o) :
    Left o.before ∨ ∃ e, o.event = .server (.monitorRead (.fails e)) := by
  obtain ⟨a, he, hcancels⟩ := hcancels
  cases a with
  | fails e => exact .inr ⟨e, he⟩
  | interrupted => cases hcancels
  | bytes chunk =>
    left
    rw [he] at happly
    have hserver : o.before.stepServer (.monitorRead (.bytes chunk)) = some s' := happly
    obtain ⟨upward, effect, hstep, -, -, -, -, -, hsome⟩ := stepServer_inv hserver
    have hpossible : o.before.upward.Offers chunk := (hsome _ 1 rfl).1
    have hmove := Connection.step_move hstep
    have hreading : o.before.server.monitor = .reading := by
      generalize o.before.server.stage = stage at hmove
      cases hmove with
      | monitored hreading => exact hreading
    have hon : o.before.server.monitor ≠ .off := fun hoff => by cases hoff.symm.trans hreading
    obtain ⟨r, hread⟩ := h.course.read_of_on hon
    obtain ⟨-, -, hpending⟩ := h.same hread
    by_cases hne : chunk = []
    · subst hne
      exact h.closed (Pipe.ended hpossible).2
    · exact (Pipe.pending_ne_nil hpossible hne hpending).elim

/-- In every run of an exchange, however the stream cuts what it carries, and whoever goes away when:
the handler is called once at most, with the request that the client was to send, and only after all
of it was written. A response that the client returns is the one that this call of the handler gave,
or says that the request does not pass the check, without a call. And the thread that watches the
stream cancels what the handler does only once the client has stopped waiting, or a read fails. -/
theorem exchange_once (run : Run Step (.initial request) history s) :
    (history.filterMap handed = [] ∨ history.filterMap handed = [request.toRpcRequest] ∧
      encodeRequestFrame request.toRpcRequest = .ok s.upward.written) ∧
    (∀ response, s.client = .finished (.ok response) →
      (∃ answer, history.filterMap handed = [request.toRpcRequest] ∧
        history.filterMap answered = [answer] ∧ response = answer.toRpcResponse) ∨
      ∃ e, history.filterMap handed = [] ∧ validateRequest request.toRpcRequest = .error e ∧
        response = .error request.requestId e) ∧
    ∀ o ∈ history, Cancels o →
      Left o.before ∨ ∃ e, o.event = .server (.monitorRead (.fails e)) := by
  have hinv := exchangeInv_run run
  refine ⟨?_, fun response hclient => ?_, fun o ho hcancels => ?_⟩
  · rcases hinv.course.outcome with huntold | ⟨e, rest, hrefused⟩ | ⟨r, hsaid, hread, -⟩ | hanswered
    · exact .inl huntold.said.calls
    · exact .inl hrefused.said.calls
    · obtain ⟨rfl, hencode, -⟩ := hinv.same hread
      exact .inr ⟨hsaid.calls, hencode⟩
    · obtain ⟨r, answer, hsaid, hread, -⟩ := hanswered.spoke
      obtain ⟨rfl, hencode, -⟩ := hinv.same hread
      exact .inr ⟨hsaid.calls, hencode⟩
  · have hsends := hinv.sends
    rw [hclient] at hsends
    obtain ⟨-, hwhole, hresult⟩ := hsends
    have hspoken : s.downward.written ≠ [] := by
      intro hsilent
      have hnone : s.downward.received = [] :=
        List.prefix_nil.mp (hsilent ▸ Pipe.received_prefix)
      rw [hnone] at hwhole
      cases hwhole
    rcases hinv.course.outcome with huntold | ⟨e, rest, hrefused⟩ | ⟨-, -, -, hsilent⟩ | hanswered
    · exact (hspoken huntold.silent).elim
    · obtain ⟨frame, reply, hbegins, hdecode, hreply, hwrote⟩ := hrefused.reply
      obtain ⟨hencode, -, -⟩ := hinv.read hbegins
      rw [requestErrorResponse_of_encode hencode] at hreply
      cases hreply
      have hversion : protocolVersion ≤ u16Max := by decide
      exact .inr ⟨e, hrefused.said.calls, validateRequest_of_decode hencode hdecode,
        exchanged_of_encode trivial hversion hwrote hwhole Pipe.received_prefix hresult⟩
    · exact (hspoken hsilent).elim
    · obtain ⟨r, answer, hsaid, hread, hsilent | ⟨rest, hwrote⟩⟩ := hanswered.spoke
      · exact (hspoken hsilent).elim
      · obtain ⟨rfl, -, -⟩ := hinv.same hread
        exact .inl ⟨answer, hsaid.calls, hsaid.returns, exchanged_of_encode answer.typed
          answer.version_le hwrote hwhole Pipe.received_prefix hresult⟩
  · obtain ⟨before, rest, rfl⟩ := List.append_of_mem ho
    obtain ⟨s', hbefore, happly, -⟩ := Machine.cut run
    exact (exchangeInv_run hbefore).cancels happly hcancels

end Exchanges

/-! ### An exchange in pieces -/

section Pieces

local instance piecesDoubles : Doubles := Json.noDoubles

def listing : TypedRequest where
  version := protocolVersion
  requestId := .filled 1
  clientSessionId := .filled 2
  clientLabel := "Ladon CLI"
  method := .list
  version_le := by decide
  typed := trivial

def listed : TypedResponse where
  version := protocolVersion
  requestId := .filled 1
  outcome := .success (.list [])
  version_le := by decide
  typed := trivial

def listingFrame : Bytes := (encodeRequestFrame listing.toRpcRequest).toOption.getD []

def listedFrame : Bytes := (encodeResponseFrame listed.toRpcResponse).toOption.getD []

/-- The header comes in two pieces, and a read of the monitor comes in between. -/
def exchangeInPieces : List Event :=
  [.client (.connect (.ok ())), .client (.write (.accepts 7)), .server (.accept (.ok true)),
    .server (.read (.bytes (listingFrame.take 3))), .client (.write (.accepts 1000)),
    .server (.read (.bytes (listingFrame.drop 3))), .server (.read (.bytes (listingFrame.drop 4))),
    .server (.watch true), .server .monitorCheck, .server (.monitorRead (.fails .timedOut)),
    .server (.answer listed), .server (.write (.accepts 1000)),
    .client (.read (.bytes listedFrame)), .client (.read (.bytes (listedFrame.drop 4)))]

/-- The response that the client has returned. -/
def returned? (s : Conversation) : Option RpcResponse :=
  match s.client with
  | .finished (.ok response) => some response
  | _ => none

lemma client_of_returned {s : Conversation} {response : RpcResponse}
    (h : returned? s = some response) : s.client = .finished (.ok response) := by
  unfold returned? at h
  split at h
  · next heq =>
    cases h
    exact heq
  · cases h

theorem exchange_once_in_pieces : ∃ history s response, Run Step (.initial listing) history s ∧
    s.client = .finished (.ok response) ∧
    ((∃ answer, history.filterMap handed = [listing.toRpcRequest] ∧
        history.filterMap answered = [answer] ∧ response = answer.toRpcResponse) ∨
      ∃ e, history.filterMap handed = [] ∧ validateRequest listing.toRpcRequest = .error e ∧
        response = .error listing.requestId e) := by
  have hplay : ((play Conversation.apply (.initial listing) exchangeInPieces).bind fun p =>
      returned? p.2).isSome := by decide +kernel
  obtain ⟨response, hresponse⟩ := Option.isSome_iff_exists.mp hplay
  obtain ⟨⟨history, s⟩, hrun, hreturned⟩ := Option.bind_eq_some_iff.mp hresponse
  have hclient := client_of_returned hreturned
  have run := run_of_play hrun
  exact ⟨history, s, response, run, hclient, (exchange_once run).2.1 response hclient⟩

end Pieces

end Ladon.Ipc

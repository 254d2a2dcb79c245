import Ladon.Lib.Machine
import Ladon.Lib.Pipe
import Ladon.ProtocolWire

/-!
A connection of the local socket, from both ends.

The client sends one request and reads one response; the server hands the request to its handler,
and a second thread of it watches the same stream meanwhile: whatever comes behind the request, or its
end, cancels what the handler does. Reads and writes are single calls of the operating system, which
move as many bytes as it likes, are interrupted, or fail; the other end may go away at any time. A
connection on which a session was opened is kept until it is cancelled.
-/

namespace Ladon.Ipc

open Ladon.Error Ladon.Protocol Ladon.Lib Ladon.Lib.Utf8 Ladon.Lib.Word
open Ladon.Lib.Json (Doubles)
open Ladon.Lib.Serde (slots required)

/-! ### Reading a frame -/

/-- How far `read_frame` has come: in the header, or behind it and in the payload. -/
inductive Reading
  | header (got : Bytes) (short : got.length < 4)
  | payload (length got : Bytes) (whole : length.length = 4) (short : got.length < Cbor.ofBe length)
    (fits : Cbor.ofBe length ≤ maxFrameBytes)

/-- What a read leads to. -/
inductive Progress
  | more (r : Reading)
  | frame (frame : Bytes)
  | failed (e : LadonError)

namespace Reading

def start : Reading := .header [] (by decide)

/-- All that has been read of the frame. -/
def soFar : Reading → Bytes
  | .header got _ => got
  | .payload length got _ _ _ => length ++ got

/-- What the next read has room for. -/
def room : Reading → ℕ
  | .header got _ => 4 - got.length
  | .payload length got _ _ _ => Cbor.ofBe length - got.length

lemma length_filled {got chunk : Bytes} {n : ℕ} (short : got.length < n)
    (h : ¬ (got ++ chunk.take (n - got.length)).length < n) :
    (got ++ chunk.take (n - got.length)).length = n := by
  rw [List.length_append, List.length_take] at h ⊢
  omega

/-- `read_frame` goes on behind a piece, of which it has read what it had room for. -/
def piece (chunk : Bytes) : Reading → Progress
  | .header got short =>
    if h : (got ++ chunk.take (4 - got.length)).length < 4 then .more (.header _ h)
    else if h0 : Cbor.ofBe (got ++ chunk.take (4 - got.length)) = 0 then .failed .invalidFrame
    else if h1 : maxFrameBytes < Cbor.ofBe (got ++ chunk.take (4 - got.length)) then
      .failed .frameTooLarge
    else
      .more (.payload (got ++ chunk.take (4 - got.length)) [] (length_filled short h)
        (Nat.pos_of_ne_zero h0) (Nat.not_lt.mp h1))
  | .payload length got whole _ fits =>
    if h : (got ++ chunk.take (Cbor.ofBe length - got.length)).length < Cbor.ofBe length then
      .more (.payload length _ whole h fits)
    else .frame (length ++ (got ++ chunk.take (Cbor.ofBe length - got.length)))

/-- What a read returned. -/
def read (r : Reading) : Arrival → Progress
  | .interrupted => .more r
  | .fails e => .failed (frameReadError e)
  | .bytes chunk => if chunk = [] then .failed (frameReadError .unexpectedEof) else r.piece chunk

end Reading

/-! ### A frame is read as `readFrame` reads it -/

/-- A frame is as long as its header says. -/
def Whole (frame : Bytes) : Prop := frame.length = 4 + Cbor.ofBe (frame.take 4)

lemma Whole.eq_of_prefix {f g : Bytes} (hf : Whole f) (hg : Whole g) (h : f <+: g) : f = g := by
  have hhead : f.take 4 = g.take 4 := by
    obtain ⟨rest, rfl⟩ := h
    have hfour : 4 ≤ f.length := by rw [hf]; omega
    rw [List.take_append_of_le_length hfour]
  refine h.eq_of_length ?_
  rw [hf, hg, hhead]

lemma whole_encodeFrame {d : Json.Document} {frame : Bytes} (h : encodeFrame d = .ok frame) :
    Whole frame := by
  obtain ⟨rfl, -, hle⟩ := encodeFrame_eq_ok h
  rw [Whole, List.take_left' (Cbor.length_be _ _), Cbor.ofBe_be (hle.trans_lt maxFrameBytes_lt),
    List.length_append, Cbor.length_be]

namespace Reading

variable {r r' : Reading} {chunk frame : Bytes} {a : Arrival} {stream : List Arrival}

lemma soFar_more (h : r.piece chunk = .more r') : r'.soFar = r.soFar ++ chunk.take r.room := by
  cases r with
  | header got short =>
    rw [piece] at h
    split_ifs at h
    · cases h
      rfl
    · cases h
      exact List.append_nil _
  | payload length got whole short fits =>
    rw [piece] at h
    split_ifs at h
    cases h
    exact (List.append_assoc ..).symm

lemma soFar_frame (h : r.piece chunk = .frame frame) :
    frame = r.soFar ++ chunk.take r.room ∧ Whole frame := by
  cases r with
  | header got short =>
    rw [piece] at h
    split_ifs at h
  | payload length got whole short fits =>
    rw [piece] at h
    split_ifs at h with hshort
    cases h
    have hfilled := length_filled short hshort
    refine ⟨(List.append_assoc ..).symm, ?_⟩
    rw [Whole, List.take_left' whole, List.length_append, whole, hfilled]

/-- What is still to be read of a frame, and what comes of it. -/
def remaining (stream : List Arrival) : Reading → Except LadonError (Bytes × List Arrival)
  | .header got _ => do
    let (more, stream) ← (readExact (4 - got.length) stream).mapError frameReadError
    let length := Cbor.ofBe (got ++ more)
    if length = 0 then .error .invalidFrame
    else if maxFrameBytes < length then .error .frameTooLarge
    else do
      let (body, stream) ← (readExact length stream).mapError frameReadError
      return ((got ++ more) ++ body, stream)
  | .payload length got _ _ _ => do
    let (more, stream) ← (readExact (Cbor.ofBe length - got.length) stream).mapError frameReadError
    return (length ++ (got ++ more), stream)

/-- What of an arrival is left, where there was so much room. -/
def left (room : ℕ) : Arrival → List Arrival
  | .bytes chunk => if room < chunk.length then [.bytes (chunk.drop room)] else []
  | .interrupted | .fails _ => []

lemma remaining_start (stream : List Arrival) : start.remaining stream = readFrame stream := rfl

/-- A read that was interrupted is made again. -/
lemma readExact_interrupted {n : ℕ} (hn : 0 < n) :
    readExact n (.interrupted :: stream) = readExact n stream := by
  obtain ⟨m, rfl⟩ : ∃ m, n = m + 1 := ⟨n - 1, by omega⟩
  rw [readExact]

lemma readExact_fails {n : ℕ} {e : ReadError} (hn : 0 < n) :
    readExact n (.fails e :: stream) = .error e := by
  obtain ⟨m, rfl⟩ : ∃ m, n = m + 1 := ⟨n - 1, by omega⟩
  rw [readExact]

lemma readExact_end {n : ℕ} (hn : 0 < n) :
    readExact n (.bytes [] :: stream) = .error .unexpectedEof := by
  obtain ⟨m, rfl⟩ : ∃ m, n = m + 1 := ⟨n - 1, by omega⟩
  rw [readExact, if_pos rfl]

lemma readExact_short {n : ℕ} (hne : chunk ≠ []) (h : chunk.length < n) :
    readExact n (.bytes chunk :: stream) =
      (readExact (n - chunk.length) stream).map fun p => (chunk ++ p.1, p.2) := by
  obtain ⟨m, rfl⟩ : ∃ m, n = m + 1 := ⟨n - 1, by omega⟩
  rw [readExact, if_neg hne, if_neg (by omega)]
  cases readExact (m + 1 - chunk.length) stream <;> rfl

lemma readExact_enough {n : ℕ} (hn : 0 < n) (h : n ≤ chunk.length) :
    readExact n (.bytes chunk :: stream) = .ok (chunk.take n, left n (.bytes chunk) ++ stream) := by
  obtain ⟨m, rfl⟩ : ∃ m, n = m + 1 := ⟨n - 1, by omega⟩
  have hne : chunk ≠ [] := List.ne_nil_of_length_pos (by omega)
  rw [readExact, if_neg hne]
  rcases Nat.lt_or_ge (m + 1) chunk.length with hlt | hge
  · rw [if_pos hlt, left, if_pos hlt]
    rfl
  · have heq : chunk.length = m + 1 := by omega
    rw [if_neg (by omega), left, if_neg (by omega), heq, Nat.sub_self, readExact,
      ← heq, List.take_length]
    simp [bind, Except.bind, pure, Except.pure]

/-- A piece that leaves room is read as part of what is missing. -/
lemma remaining_short (hne : chunk ≠ []) (h : chunk.length < r.room) :
    r.remaining (.bytes chunk :: stream) =
      match r.piece chunk with
      | .more r' => r'.remaining (left r.room (.bytes chunk) ++ stream)
      | .failed e => .error e
      | .frame frame => .ok (frame, left r.room (.bytes chunk) ++ stream) := by
  have hleft : left r.room (.bytes chunk) = [] := if_neg (by omega)
  rw [hleft, List.nil_append]
  cases r with
  | header got short =>
    change chunk.length < 4 - got.length at h
    have htake : chunk.take (4 - got.length) = chunk := List.take_of_length_le h.le
    have hshort : (got ++ chunk.take (4 - got.length)).length < 4 := by
      rw [htake, List.length_append]
      exact Nat.add_lt_of_lt_sub' h
    have hmissing : 4 - (got ++ chunk).length = 4 - got.length - chunk.length := by
      rw [List.length_append, Nat.sub_add_eq]
    rw [piece, dif_pos hshort]
    dsimp only
    rw [remaining, readExact_short hne h, remaining, htake, hmissing]
    cases readExact (4 - got.length - chunk.length) stream with
    | error e => rfl
    | ok p => simp [Except.map, Except.mapError, bind, Except.bind, List.append_assoc]
  | payload length got whole short fits =>
    change chunk.length < Cbor.ofBe length - got.length at h
    have htake : chunk.take (Cbor.ofBe length - got.length) = chunk := List.take_of_length_le h.le
    have hshort : (got ++ chunk.take (Cbor.ofBe length - got.length)).length < Cbor.ofBe length := by
      rw [htake, List.length_append]
      exact Nat.add_lt_of_lt_sub' h
    have hmissing : Cbor.ofBe length - (got ++ chunk).length =
        Cbor.ofBe length - got.length - chunk.length := by
      rw [List.length_append, Nat.sub_add_eq]
    rw [piece, dif_pos hshort]
    dsimp only
    rw [remaining, readExact_short hne h, remaining, htake, hmissing]
    cases readExact (Cbor.ofBe length - got.length - chunk.length) stream with
    | error e => rfl
    | ok p => simp [Except.map, Except.mapError, bind, Except.bind, pure, Except.pure]

/-- A piece that fills the room ends the header, or the frame. -/
lemma remaining_enough (h : r.room ≤ chunk.length) :
    r.remaining (.bytes chunk :: stream) =
      match r.piece chunk with
      | .more r' => r'.remaining (left r.room (.bytes chunk) ++ stream)
      | .failed e => .error e
      | .frame frame => .ok (frame, left r.room (.bytes chunk) ++ stream) := by
  cases r with
  | header got short =>
    change 4 - got.length ≤ chunk.length at h
    have hlength : (got ++ chunk.take (4 - got.length)).length = 4 := by
      rw [List.length_append, List.length_take, Nat.min_eq_left h]
      exact Nat.add_sub_of_le short.le
    rw [remaining, readExact_enough (Nat.sub_pos_of_lt short) h, piece, dif_neg (by omega)]
    simp only [Except.mapError, bind, Except.bind]
    split_ifs with h0 h1
    · rfl
    · rfl
    · simp only [remaining, List.length_nil, Nat.sub_zero, List.nil_append]
      rfl
  | payload length got whole short fits =>
    change Cbor.ofBe length - got.length ≤ chunk.length at h
    have hlength : (got ++ chunk.take (Cbor.ofBe length - got.length)).length = Cbor.ofBe length := by
      rw [List.length_append, List.length_take, Nat.min_eq_left h]
      exact Nat.add_sub_of_le short.le
    rw [remaining, readExact_enough (Nat.sub_pos_of_lt short) h, piece, dif_neg (by omega)]
    rfl

/-- Where the next read fails, whatever it has room for, so does the frame. -/
lemma remaining_failed {e : ReadError} (h : ∀ n, 0 < n → readExact n stream = .error e) :
    r.remaining stream = .error (frameReadError e) := by
  cases r with
  | header got short =>
    rw [remaining, h _ (Nat.sub_pos_of_lt short)]
    rfl
  | payload length got whole short fits =>
    rw [remaining, h _ (Nat.sub_pos_of_lt short)]
    rfl

lemma remaining_interrupted : r.remaining (.interrupted :: stream) = r.remaining stream := by
  cases r with
  | header got short => rw [remaining, readExact_interrupted (Nat.sub_pos_of_lt short), remaining]
  | payload length got whole short fits =>
    rw [remaining, readExact_interrupted (Nat.sub_pos_of_lt short), remaining]

/-- One read after another comes to what `readFrame` makes of the stream as a whole. -/
theorem remaining_cons (r : Reading) (a : Arrival) (stream : List Arrival) :
    r.remaining (a :: stream) =
      match r.read a with
      | .more r' => r'.remaining (left r.room a ++ stream)
      | .failed e => .error e
      | .frame frame => .ok (frame, left r.room a ++ stream) := by
  cases a with
  | interrupted => exact remaining_interrupted
  | fails e => exact remaining_failed fun _ hn => readExact_fails hn
  | bytes chunk =>
    by_cases hne : chunk = []
    · subst hne
      exact remaining_failed fun _ hn => readExact_end hn
    · rw [read, if_neg hne]
      rcases Nat.lt_or_ge chunk.length r.room with hlt | hge
      · exact remaining_short hne hlt
      · exact remaining_enough hge

end Reading

/-! ### Both ends -/

/-- What a write returns: that so many bytes were taken, an interruption, or a failure. -/
inductive Written
  | accepts (n : ℕ)
  | interrupted
  | fails

/-- `write_all` is done, has more to write, or has failed. -/
inductive Flushed
  | more (rest : Bytes)
  | done
  | failed

/-- `write_all` goes on behind a write of what is left. -/
def flush (rest : Bytes) : Written → Flushed
  | .accepts n => if n = 0 then .failed else if n < rest.length then .more (rest.drop n) else .done
  | .interrupted => .more rest
  | .fails => .failed

/-- The bytes that a write takes. -/
def accepted (rest : Bytes) : Written → Bytes
  | .accepts n => rest.take n
  | .interrupted | .fails => []

/-- What is left behind a write was left, but for what the write took. -/
lemma accepted_append {rest left : Bytes} {w : Written} (h : flush rest w = .more left) :
    rest = accepted rest w ++ left := by
  cases w with
  | accepts n =>
    simp only [flush] at h
    split_ifs at h
    cases h
    exact (List.take_append_drop n rest).symm
  | interrupted =>
    cases h
    rfl
  | fails => cases h

lemma accepted_done {rest : Bytes} {w : Written} (h : flush rest w = .done) :
    rest = accepted rest w := by
  cases w with
  | accepts n =>
    simp only [flush] at h
    split_ifs at h with h0 hn
    exact (List.take_of_length_le (Nat.not_lt.mp hn)).symm
  | interrupted => cases h
  | fails => cases h

lemma accepted_prefix (rest : Bytes) (w : Written) : accepted rest w <+: rest := by
  cases w with
  | accepts n => exact List.take_prefix n rest
  | interrupted => exact List.nil_prefix
  | fails => exact List.nil_prefix

/-- The answer to a request that was rejected, where it can be made out which one it was. -/
def requestErrorResponse [Doubles] (frame : Bytes) (e : LadonError) : Option RpcResponse := do
  let json ← (checkedFramePayload frame).toOption
  let _ ← (validateJsonDocument json).toOption
  let [requestId] ← Json.parse json >>= slots false ["request_id"] | none
  return .error (← required Serde.uuid requestId) e

/-- A request as a client can make it: its numbers are of their types. -/
structure TypedRequest extends RpcRequest where
  version_le : version ≤ u16Max
  typed : method.Typed

/-- A response as a handler can make it: its numbers are of their types, and its texts are texts. -/
structure TypedResponse extends RpcResponse where
  version_le : version ≤ u16Max
  typed : outcome.Typed

/-- How far the server has come with a connection. -/
inductive Stage
  | queued
  | turnedAway
  | reading (r : Reading)
  | refusing (e : LadonError) (rest : Bytes)
  | watching (request : RpcRequest)
  | handling (request : RpcRequest)
  | answering (request : RpcRequest) (response : TypedResponse) (rest : Bytes)
  | holding
  | stopping (result : Except LadonError Unit)
  | returned (result : Except LadonError Unit)

/-- The thread that watches the stream: it looks whether it is to stop, and then it reads. -/
inductive Monitor
  | off
  | checking
  | reading
  | over
  deriving DecidableEq

structure Connection where
  stage : Stage := .queued
  monitor : Monitor := .off

/-- What happens at the server's end: what its calls return, and what its handler does. -/
inductive Act
  | accept (result : Except LadonError Bool)
  | read (a : Arrival)
  | write (w : Written)
  | watch (ok : Bool)
  | answer (response : TypedResponse)
  | poll
  | join
  | monitorCheck
  | monitorRead (a : Arrival)

/-- What comes of it: the bytes that were written, and whether the connection is cancelled. -/
structure Effect where
  connection : Connection
  output : Bytes := []
  cancels : Bool := false

namespace Connection

/-- The server has let go of the stream. -/
def isOver (c : Connection) : Bool :=
  match c.stage with
  | .turnedAway | .returned _ => true
  | _ => false

def isSessionOpen (request : RpcRequest) : Bool :=
  match request.method with
  | .sessionOpen => true
  | _ => false

def sessionOpened (response : RpcResponse) : Bool :=
  match response.outcome with
  | .success .sessionOpened => true
  | _ => false

/-- The response was written, or it could not be: the connection of a session is kept, or cancelled. -/
def conclude (c : Connection) (request : RpcRequest) (response : RpcResponse) (output : Bytes)
    (result : Except LadonError Unit) : Effect :=
  if isSessionOpen request then
    if sessionOpened response ∧ result.isOk then ⟨{ c with stage := .holding }, output, false⟩
    else ⟨{ c with stage := .stopping result }, output, true⟩
  else ⟨{ c with stage := .stopping result }, output, false⟩

/-- The handler has returned. -/
def respond (c : Connection) (request : RpcRequest) (response : TypedResponse) : Effect :=
  match encodeResponseFrame response.toRpcResponse with
  | .error e => c.conclude request response.toRpcResponse [] (.error e)
  | .ok frame => ⟨{ c with stage := .answering request response frame }, [], false⟩

/-- A frame has been read. -/
def received [Doubles] (c : Connection) (frame : Bytes) : Connection :=
  match decodeRequestFrame frame with
  | .ok request => { c with stage := .watching request }
  | .error e =>
    match (requestErrorResponse frame e).map encodeResponseFrame with
    | some (.ok reply) => { c with stage := .refusing e reply }
    | _ => { c with stage := .returned (.error e) }

/-- The monitor has read. -/
def monitored (c : Connection) : Arrival → Effect
  | .interrupted | .fails .wouldBlock | .fails .timedOut => ⟨{ c with monitor := .checking }, [], false⟩
  | .bytes _ | .fails _ => ⟨{ c with monitor := .over }, [], true⟩

/-- The server is to stop watching. -/
def stops (c : Connection) : Bool :=
  match c.stage with
  | .stopping _ => true
  | _ => false

/-- A step of the server, where it is one that can be. -/
def step [Doubles] (cancelled : Bool) (c : Connection) : Act → Option Effect
  | .accept result =>
    match c.stage with
    | .queued => some ⟨{ c with stage :=
        match result with
        | .ok true => .reading .start
        | .ok false | .error _ => .turnedAway }, [], false⟩
    | _ => none
  | .read a =>
    match c.stage with
    | .reading r =>
      match r.read a with
      | .more r => some ⟨{ c with stage := .reading r }, [], false⟩
      | .failed e => some ⟨{ c with stage := .returned (.error e) }, [], false⟩
      | .frame frame => some ⟨c.received frame, [], false⟩
    | _ => none
  | .write w =>
    match c.stage with
    | .refusing e rest =>
      match flush rest w with
      | .more left => some ⟨{ c with stage := .refusing e left }, accepted rest w, false⟩
      | .done | .failed => some ⟨{ c with stage := .returned (.error e) }, accepted rest w, false⟩
    | .answering request response rest =>
      match flush rest w with
      | .more left =>
        some ⟨{ c with stage := .answering request response left }, accepted rest w, false⟩
      | .done => some (c.conclude request response.toRpcResponse (accepted rest w) (.ok ()))
      | .failed =>
        some (c.conclude request response.toRpcResponse (accepted rest w)
          (.error .endpointUnavailable))
    | _ => none
  | .watch ok =>
    match c.stage with
    | .watching request =>
      if ok then some ⟨⟨.handling request, .checking⟩, [], false⟩
      else some ⟨{ c with stage := .returned (.error .endpointUnavailable) }, [], false⟩
    | _ => none
  | .answer response =>
    match c.stage with
    | .handling request => some (c.respond request response)
    | _ => none
  | .poll =>
    match c.stage with
    | .holding => some ⟨if cancelled then { c with stage := .stopping (.ok ()) } else c, [], false⟩
    | _ => none
  | .join =>
    match c.stage with
    | .stopping result =>
      if c.monitor = .over then some ⟨{ c with stage := .returned result }, [], false⟩ else none
    | _ => none
  | .monitorCheck =>
    if c.monitor = .checking then
      some ⟨{ c with monitor := if c.stops then .over else .reading }, [], false⟩
    else none
  | .monitorRead a => if c.monitor = .reading then some (c.monitored a) else none

/-- What a step of the server can be. -/
inductive Move [Doubles] (cancelled : Bool) (m : Monitor) : Stage → Act → Effect → Prop
  | admitted : Move cancelled m .queued (.accept (.ok true)) ⟨⟨.reading .start, m⟩, [], false⟩
  | turnedAway {result : Except LadonError Bool} :
    Move cancelled m .queued (.accept result) ⟨⟨.turnedAway, m⟩, [], false⟩
  | more {r r' : Reading} {a : Arrival} (h : r.read a = .more r') :
    Move cancelled m (.reading r) (.read a) ⟨⟨.reading r', m⟩, [], false⟩
  | broken {r : Reading} {a : Arrival} {e : LadonError} (h : r.read a = .failed e) :
    Move cancelled m (.reading r) (.read a) ⟨⟨.returned (.error e), m⟩, [], false⟩
  | request {r : Reading} {a : Arrival} {frame : Bytes} {request : RpcRequest}
    (h : r.read a = .frame frame) (read : decodeRequestFrame frame = .ok request) :
    Move cancelled m (.reading r) (.read a) ⟨⟨.watching request, m⟩, [], false⟩
  | rejected {r : Reading} {a : Arrival} {frame reply : Bytes} {e : LadonError}
    {response : RpcResponse} (h : r.read a = .frame frame)
    (read : decodeRequestFrame frame = .error e)
    (answer : requestErrorResponse frame e = some response)
    (encoded : encodeResponseFrame response = .ok reply) :
    Move cancelled m (.reading r) (.read a) ⟨⟨.refusing e reply, m⟩, [], false⟩
  | dropped {r : Reading} {a : Arrival} {frame : Bytes} {e : LadonError}
    (h : r.read a = .frame frame) (read : decodeRequestFrame frame = .error e) :
    Move cancelled m (.reading r) (.read a) ⟨⟨.returned (.error e), m⟩, [], false⟩
  | refuses {e : LadonError} {rest left : Bytes} {w : Written} (h : flush rest w = .more left) :
    Move cancelled m (.refusing e rest) (.write w) ⟨⟨.refusing e left, m⟩, accepted rest w, false⟩
  | refused {e : LadonError} {rest : Bytes} {w : Written} :
    Move cancelled m (.refusing e rest) (.write w)
      ⟨⟨.returned (.error e), m⟩, accepted rest w, false⟩
  | writes {request : RpcRequest} {response : TypedResponse} {rest left : Bytes} {w : Written}
    (h : flush rest w = .more left) :
    Move cancelled m (.answering request response rest) (.write w)
      ⟨⟨.answering request response left, m⟩, accepted rest w, false⟩
  | wrote {request : RpcRequest} {response : TypedResponse} {rest : Bytes} {w : Written}
    (h : flush rest w = .done) :
    Move cancelled m (.answering request response rest) (.write w)
      (conclude ⟨.answering request response rest, m⟩ request response.toRpcResponse
        (accepted rest w) (.ok ()))
  | cut {request : RpcRequest} {response : TypedResponse} {rest : Bytes} {w : Written}
    (h : flush rest w = .failed) :
    Move cancelled m (.answering request response rest) (.write w)
      (conclude ⟨.answering request response rest, m⟩ request response.toRpcResponse
        (accepted rest w) (.error .endpointUnavailable))
  | watched {request : RpcRequest} :
    Move cancelled m (.watching request) (.watch true) ⟨⟨.handling request, .checking⟩, [], false⟩
  | unwatched {request : RpcRequest} :
    Move cancelled m (.watching request) (.watch false)
      ⟨⟨.returned (.error .endpointUnavailable), m⟩, [], false⟩
  | answered {request : RpcRequest} {response : TypedResponse} {frame : Bytes}
    (h : encodeResponseFrame response.toRpcResponse = .ok frame) :
    Move cancelled m (.handling request) (.answer response)
      ⟨⟨.answering request response frame, m⟩, [], false⟩
  | unsendable {request : RpcRequest} {response : TypedResponse} {e : LadonError}
    (h : encodeResponseFrame response.toRpcResponse = .error e) :
    Move cancelled m (.handling request) (.answer response)
      (conclude ⟨.handling request, m⟩ request response.toRpcResponse [] (.error e))
  | held (h : cancelled = false) : Move cancelled m .holding .poll ⟨⟨.holding, m⟩, [], false⟩
  | released (h : cancelled = true) :
    Move cancelled m .holding .poll ⟨⟨.stopping (.ok ()), m⟩, [], false⟩
  | joined {result : Except LadonError Unit} (h : m = .over) :
    Move cancelled m (.stopping result) .join ⟨⟨.returned result, m⟩, [], false⟩
  | monitorStops {result : Except LadonError Unit} (h : m = .checking) :
    Move cancelled m (.stopping result) .monitorCheck ⟨⟨.stopping result, .over⟩, [], false⟩
  | monitorGoesOn {stage : Stage} (h : m = .checking) :
    Move cancelled m stage .monitorCheck ⟨⟨stage, .reading⟩, [], false⟩
  | monitored {stage : Stage} {a : Arrival} (h : m = .reading) :
    Move cancelled m stage (.monitorRead a) (monitored ⟨stage, m⟩ a)

theorem step_move [Doubles] {cancelled : Bool} {c : Connection} {a : Act} {effect : Effect}
    (h : c.step cancelled a = some effect) : Move cancelled c.monitor c.stage a effect := by
  obtain ⟨stage, m⟩ := c
  cases a with
  | accept result =>
    cases stage with
    | queued =>
      cases h
      cases result with
      | error e => exact .turnedAway
      | ok admitted =>
        cases admitted with
        | false => exact .turnedAway
        | true => exact .admitted
    | _ => cases h
  | read a =>
    cases stage with
    | reading r =>
      simp only [step] at h
      cases hread : r.read a with
      | more r' =>
        rw [hread] at h
        cases h
        exact .more hread
      | failed e =>
        rw [hread] at h
        cases h
        exact .broken hread
      | frame frame =>
        rw [hread] at h
        cases h
        cases hdecode : decodeRequestFrame frame with
        | ok request =>
          rw [received, hdecode]
          exact .request hread hdecode
        | error e =>
          cases hanswer : requestErrorResponse frame e with
          | none =>
            simp only [received, hdecode, hanswer, Option.map_none]
            exact .dropped hread hdecode
          | some response =>
            cases hencode : encodeResponseFrame response with
            | error e' =>
              simp only [received, hdecode, hanswer, Option.map_some, hencode]
              exact .dropped hread hdecode
            | ok reply =>
              simp only [received, hdecode, hanswer, Option.map_some, hencode]
              exact .rejected hread hdecode hanswer hencode
    | _ => cases h
  | write w =>
    cases stage with
    | refusing e rest =>
      simp only [step] at h
      cases hflush : flush rest w with
      | more left =>
        rw [hflush] at h
        cases h
        exact .refuses hflush
      | done =>
        rw [hflush] at h
        cases h
        exact .refused
      | failed =>
        rw [hflush] at h
        cases h
        exact .refused
    | answering request response rest =>
      simp only [step] at h
      cases hflush : flush rest w with
      | more left =>
        rw [hflush] at h
        cases h
        exact .writes hflush
      | done =>
        rw [hflush] at h
        cases h
        exact .wrote hflush
      | failed =>
        rw [hflush] at h
        cases h
        exact .cut hflush
    | _ => cases h
  | watch ok =>
    cases stage with
    | watching request =>
      cases ok with
      | false =>
        cases h
        exact .unwatched
      | true =>
        cases h
        exact .watched
    | _ => cases h
  | answer response =>
    cases stage with
    | handling request =>
      cases h
      rw [respond]
      cases hencode : encodeResponseFrame response.toRpcResponse with
      | error e => exact .unsendable hencode
      | ok frame => exact .answered hencode
    | _ => cases h
  | poll =>
    cases stage with
    | holding =>
      cases h
      cases cancelled with
      | false => exact .held rfl
      | true => exact .released rfl
    | _ => cases h
  | join =>
    cases stage with
    | stopping result =>
      simp only [step] at h
      split_ifs at h with hover
      cases h
      exact .joined hover
    | _ => cases h
  | monitorCheck =>
    simp only [step] at h
    split_ifs at h with hchecking hstops
    · cases h
      cases stage with
      | stopping result => exact .monitorStops hchecking
      | _ => cases hstops
    · cases h
      exact .monitorGoesOn hchecking
  | monitorRead a =>
    simp only [step] at h
    split_ifs at h with hreading
    cases h
    exact .monitored hreading

/-- The connection of a session that was opened is held; any other is done with, and cancelled where a
session was to be opened. -/
lemma conclude_cases (c : Connection) (request : RpcRequest) (response : RpcResponse)
    (output : Bytes) (result : Except LadonError Unit) :
    (isSessionOpen request ∧ sessionOpened response ∧ result.isOk ∧
      c.conclude request response output result = ⟨⟨.holding, c.monitor⟩, output, false⟩) ∨
    c.conclude request response output result =
      ⟨⟨.stopping result, c.monitor⟩, output, isSessionOpen request⟩ := by
  unfold conclude
  split_ifs with hopen hheld
  · exact .inl ⟨hopen, hheld.1, hheld.2, rfl⟩
  · exact .inr (by rw [hopen])
  · exact .inr (by rw [Bool.not_eq_true] at hopen; rw [hopen])

/-- The monitor goes on, or it cancels and is over; it is not off. -/
lemma monitored_cases (c : Connection) (a : Arrival) :
    ∃ m cancels, m ≠ .off ∧ c.monitored a = ⟨{ c with monitor := m }, [], cancels⟩ := by
  unfold monitored
  split
  · exact ⟨.checking, false, by decide, rfl⟩
  · exact ⟨.checking, false, by decide, rfl⟩
  · exact ⟨.checking, false, by decide, rfl⟩
  · exact ⟨.over, true, by decide, rfl⟩
  · exact ⟨.over, true, by decide, rfl⟩

end Connection

/-! ### The client's end -/

/-- What `exchange` makes of the frame it has read. -/
def exchanged [Doubles] (request : RpcRequest) (frame : Bytes) : Except LadonError RpcResponse :=
  match decodeResponseFrame frame with
  | .error .invalidRequest => .error .invalidResponse
  | .error e => .error e
  | .ok response =>
    if response.requestId ≠ request.requestId then .error .invalidResponse else .ok response

/-- How far the client has come with `exchange`; one that is gone never returned from it. -/
inductive Client
  | connecting
  | sending (rest : Bytes)
  | receiving (r : Reading)
  | finished (result : Except LadonError RpcResponse)
  | gone

/-- What happens at the client's end; it leaves when it drops the stream, or is killed. -/
inductive ClientAct
  | connect (result : Except LadonError Unit)
  | write (w : Written)
  | read (a : Arrival)
  | leave

/-- One exchange: the request that the client is to send, the two ends and the stream between them,
and whether what the handler does has been cancelled. -/
structure Conversation where
  request : RpcRequest
  client : Client := .connecting
  upward : Pipe UInt8 := {}
  downward : Pipe UInt8 := {}
  server : Connection := {}
  cancelled : Bool := false

/-- A step of one end, or a cancellation from elsewhere. -/
inductive Event
  | client (a : ClientAct)
  | server (a : Act)
  | cancel

namespace Conversation

/-- The client's call returns; the stream goes with an error. -/
def finish (s : Conversation) (result : Except LadonError RpcResponse) : Conversation :=
  { s with
    client := .finished result
    upward := if result.isOk then s.upward else s.upward.close }

def connect (s : Conversation) (result : Except LadonError Unit) : Conversation :=
  match result with
  | .error e => s.finish (.error e)
  | .ok () =>
    match encodeRequestFrame s.request with
    | .error e => s.finish (.error e)
    | .ok frame => { s with client := .sending frame }

/-- What a read takes off a stream, with so much room. -/
def taken (room : ℕ) : Arrival → ℕ
  | .bytes chunk => (chunk.take room).length
  | .interrupted | .fails _ => 0

/-- A read can return this. -/
def Possible (p : Pipe UInt8) : Arrival → Prop
  | .bytes chunk => p.Offers chunk
  | .interrupted | .fails _ => True

instance (p : Pipe UInt8) (a : Arrival) : Decidable (Possible p a) := by
  cases a <;> unfold Possible <;> infer_instance

lemma received_more {p : Pipe UInt8} {r r' : Reading} {a : Arrival}
    (hpossible : Possible p a) (hread : r.read a = .more r')
    (hp : p.received = r.soFar) :
    (p.take (taken r.room a)).received = r'.soFar := by
  cases a with
  | bytes chunk =>
    simp only [Reading.read] at hread
    split_ifs at hread with hne
    rw [taken, Pipe.received_take hpossible hne, hp, Reading.soFar_more hread]
  | interrupted =>
    cases hread
    rw [taken, Pipe.take, List.take_zero, List.append_nil, hp]
  | fails e => cases hread

lemma received_frame {p : Pipe UInt8} {r : Reading} {a : Arrival} {frame : Bytes}
    (hpossible : Possible p a) (hread : r.read a = .frame frame)
    (hp : p.received = r.soFar) :
    (p.take (taken r.room a)).received = frame ∧ Whole frame := by
  cases a with
  | bytes chunk =>
    simp only [Reading.read] at hread
    split_ifs at hread with hne
    obtain ⟨hframe, hwhole⟩ := Reading.soFar_frame hread
    refine ⟨?_, hwhole⟩
    rw [taken, Pipe.received_take hpossible hne, hp, hframe]
  | interrupted => cases hread
  | fails e => cases hread

def stepClient [Doubles] (s : Conversation) : ClientAct → Option Conversation
  | .connect result =>
    match s.client with
    | .connecting => some (s.connect result)
    | _ => none
  | .write w =>
    match s.client with
    | .sending rest =>
      let s := { s with upward := s.upward.write (accepted rest w) }
      match flush rest w with
      | .more left => some { s with client := .sending left }
      | .done => some { s with client := .receiving .start }
      | .failed => some (s.finish (.error .endpointUnavailable))
    | _ => none
  | .read a =>
    match s.client with
    | .receiving r =>
      if Possible s.downward a then
        let s := { s with downward := s.downward.take (taken r.room a) }
        match r.read a with
        | .more r => some { s with client := .receiving r }
        | .failed e => some (s.finish (.error e))
        | .frame frame => some (s.finish (exchanged s.request frame))
      else none
    | _ => none
  | .leave =>
    some { s with
      client :=
        match s.client with
        | .finished result => .finished result
        | _ => .gone
      upward := s.upward.close }

/-- What the server reads off the stream in a step, and with how much room. -/
def reads (c : Connection) : Act → Option (Arrival × ℕ)
  | .read a =>
    match c.stage with
    | .reading r => some (a, r.room)
    | _ => none
  | .monitorRead a => some (a, 1)
  | _ => none

/-- What comes of a step of the server. -/
def afterServer (s : Conversation) (upward : Pipe UInt8) (effect : Effect) : Conversation :=
  { s with
    server := effect.connection
    upward := upward
    downward :=
      if effect.connection.isOver then (s.downward.write effect.output).close
      else s.downward.write effect.output
    cancelled := s.cancelled || effect.cancels }

def stepServer [Doubles] (s : Conversation) (a : Act) : Option Conversation :=
  match reads s.server a with
  | none => (s.server.step s.cancelled a).map (s.afterServer s.upward)
  | some (arrival, room) =>
    if Possible s.upward arrival then
      (s.server.step s.cancelled a).map (s.afterServer (s.upward.take (taken room arrival)))
    else none

def apply [Doubles] (s : Conversation) : Event → Option Conversation
  | .client a => s.stepClient a
  | .server a => s.stepServer a
  | .cancel => some { s with cancelled := true }

def initial (request : TypedRequest) : Conversation := { request := request.toRpcRequest }

end Conversation

end Ladon.Ipc

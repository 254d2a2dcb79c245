import Ladon.Lib.Serde
import Ladon.Protocol

/-!
The two ends of the local protocol: how requests and responses are written and read back.

Before anything is made of a text, its nesting is bounded and no object may have a key twice. A
stream hands a frame over in pieces of any sizes; what is read is the frame.
-/

namespace Ladon.Protocol

open Ladon.Error Ladon.Runner Ladon.Lib Ladon.Lib.Utf8 Ladon.Lib.Digits Ladon.Lib.Word
open Ladon.Lib.Json (Document render quoted cost Doubles Readable)
open Ladon.Lib.Serde (lookup slots tagged required defaulted nullable)

def maxJsonDepth : ℕ := 16

/-! ### The text of a request -/

def targetDocument : BindingTarget → Document
  | .environment name => object [("kind", string "environment"), ("name", string name)]
  | .standardInput => object [("kind", string "standard_input")]
  | .temporaryFileEnvironment name none =>
    object [("kind", string "temporary_file_environment"), ("name", string name)]
  | .temporaryFileEnvironment name (some suggestedFilename) =>
    object [("kind", string "temporary_file_environment"), ("name", string name),
      ("suggested_filename", string suggestedFilename)]

def bindingDocument (b : SecretBindingRequest) : Document :=
  object [("secret_ref", string b.secretRef), ("field", string b.field),
    ("target", targetDocument b.target)]

def runDocument (r : RunRequest) : Document :=
  object [("executable", string r.executable), ("arguments", .arr (r.arguments.map string)),
    ("working_directory", string r.workingDirectory),
    ("bindings", .arr (r.bindings.map bindingDocument)), ("timeout_ms", .num r.timeoutMs),
    ("output_limit_bytes", .num r.outputLimitBytes)]

/-- The members that a method adds to its request. -/
def RpcMethod.members : RpcMethod → List (String × Document)
  | .sessionOpen => [("method", string "session_open")]
  | .status => [("method", string "status")]
  | .list => [("method", string "list")]
  | .lock => [("method", string "lock")]
  | .run r => [("method", string "run"), ("params", runDocument r)]

def RpcRequest.document (r : RpcRequest) : Document :=
  object ([("version", .num r.version), ("request_id", .str r.requestId.display),
    ("client_session_id", .str r.clientSessionId.display),
    ("client_label", string r.clientLabel)] ++ r.method.members)

def encodeRequestFrame (request : RpcRequest) : Except LadonError Bytes :=
  encodeFrame request.document

/-! ### Requests and responses read from documents -/

def readTarget (d : Document) : Option BindingTarget := do
  let (tag, rest) ← tagged "kind" d
  let kind ← Serde.heldTag ["environment", "standard_input", "temporary_file_environment"] tag
  if kind = "environment" then
    let [name] ← slots false ["name"] rest | none
    return .environment (← required Serde.string name)
  else if kind = "standard_input" then if Serde.fieldless rest then return .standardInput else none
  else if kind = "temporary_file_environment" then
    let [name, suggestedFilename] ← slots false ["name", "suggested_filename"] rest | none
    return .temporaryFileEnvironment (← required Serde.string name)
      (← defaulted (nullable Serde.string) none suggestedFilename)
  else none

def readBinding (d : Document) : Option SecretBindingRequest := do
  let [secretRef, field, target] ← slots false ["secret_ref", "field", "target"] d | none
  return ⟨← required Serde.string secretRef, ← required Serde.string field,
    ← required readTarget target⟩

def readRun (d : Document) : Option RunRequest := do
  let [executable, arguments, workingDirectory, bindings, timeoutMs, outputLimitBytes] ←
    slots false ["executable", "arguments", "working_directory", "bindings", "timeout_ms",
      "output_limit_bytes"] d | none
  return ⟨← required Serde.string executable, ← required (Serde.array Serde.string) arguments,
    ← required Serde.string workingDirectory, ← required (Serde.array readBinding) bindings,
    ← required (Serde.unsigned u64Max) timeoutMs,
    ← required (Serde.unsigned u64Max) outputLimitBytes⟩

/-- A method without parameters may have `null` for them. -/
def noParams : Option Document → Bool
  | none => true
  | some .null => true
  | _ => false

def readMethod (members : List (Bytes × Document)) : Option RpcMethod := do
  let method ← lookup "method" members >>= Serde.heldVariant
  if method = "run" then return .run (← lookup "params" members >>= readRun)
  else if noParams (lookup "params" members) then
    if method = "session_open" then return .sessionOpen
    else if method = "status" then return .status
    else if method = "list" then return .list
    else if method = "lock" then return .lock
    else none
  else none

def readRequest : Document → Option RpcRequest
  | .obj members => do
    return ⟨← lookup "version" members >>= Serde.unsigned u16Max,
      ← lookup "request_id" members >>= Serde.uuid,
      ← lookup "client_session_id" members >>= Serde.uuid,
      ← lookup "client_label" members >>= Serde.string, ← readMethod members⟩
  | _ => none

def readFieldSummary (d : Document) : Option SecretFieldSummary := do
  let [name, text] ← slots false ["name", "text"] d | none
  return ⟨← required Serde.string name, ← required Serde.boolean text⟩

def readSummary (d : Document) : Option SecretSummary := do
  let [id, name, fields] ← slots false ["id", "name", "fields"] d | none
  return ⟨← required Serde.uuid id, ← required Serde.string name,
    ← required (Serde.array readFieldSummary) fields⟩

def readResult (d : Document) : Option RpcResult := do
  let (tag, rest) ← tagged "type" d
  let type ← Serde.heldTag ["session_opened", "status", "list", "locked", "run"] tag
  if type = "session_opened" then if Serde.fieldless rest then return .sessionOpened else none
  else if type = "status" then
    let [state, idleRemainingMs] ← slots false ["state", "idle_remaining_ms"] rest | none
    return .status (← required Serde.string state)
      (← Serde.optional (Serde.unsigned u64Max) idleRemainingMs)
  else if type = "list" then
    let [secrets] ← slots false ["secrets"] rest | none
    return .list (← required (Serde.array readSummary) secrets)
  else if type = "locked" then if Serde.fieldless rest then return .locked else none
  else if type = "run" then
    let [exitCode, termination, stdout, stderr, durationMs, redactionCount, outputTruncated,
        tempCleanupWarning] ←
      slots false ["exit_code", "termination", "stdout", "stderr", "duration_ms",
        "redaction_count", "output_truncated", "temp_cleanup_warning"] rest | none
    return .run (← Serde.optional (Serde.signed i32Max) exitCode) (← required Serde.string termination)
      (← required Serde.bytes stdout) (← required Serde.bytes stderr)
      (← required (Serde.unsigned u64Max) durationMs)
      (← required (Serde.unsigned u64Max) redactionCount)
      (← required Serde.boolean outputTruncated)
      (← defaulted Serde.boolean false tempCleanupWarning)
  else none

def readErrorBody (d : Document) : Option RpcErrorBody := do
  let [code, message] ← slots false ["code", "message"] d | none
  return ⟨← required Serde.string code, ← required Serde.string message⟩

/-- A result where there is one, and else an error. -/
def readOutcome (members : List (Bytes × Document)) : Option RpcOutcome :=
  match lookup "result" members >>= readResult with
  | some result => some (.success result)
  | none => (lookup "error" members >>= readErrorBody).map .failure

def readResponse : Document → Option RpcResponse
  | .obj members => do
    return ⟨← lookup "version" members >>= Serde.unsigned u16Max,
      ← lookup "request_id" members >>= Serde.uuid, ← readOutcome members⟩
  | _ => none

/-! ### The check before -/

mutual

/-- Arrays and objects in one another, sixteen deep at most; no key twice in an object. -/
def checkValue (depth : ℕ) : Document → Bool
  | .arr items => depth < maxJsonDepth && checkItems (depth + 1) items
  | .obj members => depth < maxJsonDepth && checkMembers (depth + 1) [] members
  | _ => true

def checkItems (depth : ℕ) : List Document → Bool
  | [] => true
  | item :: rest => checkValue depth item && checkItems depth rest

/-- The members of an object, with the keys that came before. -/
def checkMembers (depth : ℕ) (keys : List Bytes) : List (Bytes × Document) → Bool
  | [] => true
  | (key, value) :: rest =>
    !keys.contains key && checkValue depth value && checkMembers depth (key :: keys) rest

end

section Frames

variable [Doubles]

/-- The document that a text is, where it passes the check. -/
def checkedDocument (input : Bytes) : Option Document :=
  (Json.parse input).filter (checkValue 0)

def validateJsonDocument (input : Bytes) : Except LadonError Unit :=
  if (checkedDocument input).isSome then .ok () else .error .invalidRequest

/-! ### Frames -/

def checkedFramePayload (frame : Bytes) : Except LadonError Bytes :=
  if frame.length < 4 then .error .invalidFrame
  else
    let declared := Cbor.ofBe (frame.take 4)
    if declared = 0 then .error .invalidFrame
    else if maxFrameBytes < declared then .error .frameTooLarge
    else if frame.length ≠ 4 + declared then .error .invalidFrame
    else .ok (frame.drop 4)

/-- What a text is read to, once it has passed the check. -/
def fromSlice {α : Type} (read : Document → Option α) (json : Bytes) : Except LadonError α :=
  match Json.parse json >>= read with
  | some a => .ok a
  | none => .error .invalidRequest

def decodeRequestFrame (frame : Bytes) : Except LadonError RpcRequest := do
  let json ← checkedFramePayload frame
  validateJsonDocument json
  let request ← fromSlice readRequest json
  validateRequest request
  return request

def decodeResponseFrame (frame : Bytes) : Except LadonError RpcResponse := do
  let json ← checkedFramePayload frame
  validateJsonDocument json
  let response ← fromSlice readResponse json
  if response.version ≠ protocolVersion then .error .unsupportedProtocolVersion
  else return response

end Frames

/-! ### What was written is read back -/

lemma readTarget_document (t : BindingTarget) : readTarget (targetDocument t) = some t := by
  cases t with
  | environment name =>
    simp [readTarget, targetDocument, object, tagged, slots, Serde.slot, Serde.ofString_inj, string,
      required]
  | standardInput => simp [readTarget, targetDocument, object, tagged, string, Serde.fieldless]
  | temporaryFileEnvironment name suggestedFilename =>
    cases suggestedFilename <;>
      simp [readTarget, targetDocument, object, tagged, slots, Serde.slot, Serde.ofString_inj,
        string, required, defaulted, nullable]

lemma readBinding_document (b : SecretBindingRequest) :
    readBinding (bindingDocument b) = some b := by
  simp [readBinding, bindingDocument, object, slots, Serde.slot, string, required,
    readTarget_document]

lemma readRun_document {r : RunRequest} (htimeout : r.timeoutMs ≤ u64Max)
    (hlimit : r.outputLimitBytes ≤ u64Max) : readRun (runDocument r) = some r := by
  have hargs : Serde.array Serde.string (.arr (r.arguments.map string)) = some r.arguments :=
    Serde.array_map fun a _ => Serde.string_ofString a
  have hbindings : Serde.array readBinding (.arr (r.bindings.map bindingDocument)) =
      some r.bindings := Serde.array_map fun b _ => readBinding_document b
  simp [readRun, runDocument, object, slots, Serde.slot, required, hargs, hbindings,
    Serde.unsigned_num htimeout, Serde.unsigned_num hlimit, string]

/-- The numbers of a method are of their types. -/
def RpcMethod.Typed : RpcMethod → Prop
  | .run r => r.timeoutMs ≤ u64Max ∧ r.outputLimitBytes ≤ u64Max
  | _ => True

lemma readMethod_members {m : RpcMethod} (h : m.Typed) {members : List (String × Document)}
    (hmethod : ∀ e ∈ members, e.1 ≠ "method" ∧ e.1 ≠ "params") :
    readMethod ((members ++ m.members).map fun e => (ofString e.1, e.2)) = some m := by
  have hskip : ∀ name, (∀ e ∈ members, e.1 ≠ name) →
      lookup name ((members ++ m.members).map fun e => (ofString e.1, e.2)) =
        lookup name (m.members.map fun e => (ofString e.1, e.2)) := by
    intro name hname
    clear hmethod
    induction members with
    | nil => rfl
    | cons e members ih =>
      rw [List.cons_append, List.map_cons, Serde.lookup_cons,
        if_neg (hname e List.mem_cons_self),
        ih fun e he => hname e (List.mem_cons_of_mem _ he)]
  rw [readMethod, hskip _ fun e he => (hmethod e he).1, hskip _ fun e he => (hmethod e he).2]
  cases m with
  | run r => simp [RpcMethod.members, string, readRun_document h.1 h.2]
  | sessionOpen => simp [RpcMethod.members, string, noParams]
  | status => simp [RpcMethod.members, string, noParams]
  | list => simp [RpcMethod.members, string, noParams]
  | lock => simp [RpcMethod.members, string, noParams]

lemma readRequest_document {r : RpcRequest} (hversion : r.version ≤ u16Max) (h : r.method.Typed) :
    readRequest r.document = some r := by
  have hnames : ∀ e ∈ [("version", Document.num r.version),
      ("request_id", .str r.requestId.display),
      ("client_session_id", .str r.clientSessionId.display),
      ("client_label", string r.clientLabel)], e.1 ≠ "method" ∧ e.1 ≠ "params" := by simp
  rw [RpcRequest.document, object, readRequest, readMethod_members h hnames]
  simp [Serde.unsigned_num hversion, string]

lemma readFieldSummary_document (f : SecretFieldSummary) : readFieldSummary f.document = some f := by
  simp [readFieldSummary, SecretFieldSummary.document, object, slots, Serde.slot, string, required,
    Serde.boolean]

lemma readSummary_document (s : SecretSummary) : readSummary s.document = some s := by
  have hfields : Serde.array readFieldSummary (.arr (s.fields.map SecretFieldSummary.document)) =
      some s.fields := Serde.array_map fun f _ => readFieldSummary_document f
  simp [readSummary, SecretSummary.document, object, slots, Serde.slot, string, required, hfields]

/-- The numbers of a result are of their types, and its texts are texts. -/
def RpcResult.Typed : RpcResult → Prop
  | .status _ idleRemainingMs => ∀ n ∈ idleRemainingMs, n ≤ u64Max
  | .run exitCode _ stdout stderr durationMs redactionCount _ _ =>
    (∀ n ∈ exitCode, -i32Max - 1 ≤ n ∧ n ≤ i32Max) ∧ (∃ s, stdout = ofString s) ∧
      (∃ s, stderr = ofString s) ∧ durationMs ≤ u64Max ∧ redactionCount ≤ u64Max
  | _ => True

lemma readResult_document {r : RpcResult} (h : r.Typed) : readResult r.document = some r := by
  cases r with
  | sessionOpened => simp [readResult, RpcResult.document, object, tagged, string, Serde.fieldless]
  | locked => simp [readResult, RpcResult.document, object, tagged, string, Serde.fieldless]
  | list secrets =>
    have hsecrets : Serde.array readSummary (.arr (secrets.map SecretSummary.document)) =
        some secrets := Serde.array_map fun s _ => readSummary_document s
    simp [readResult, RpcResult.document, object, tagged, string, slots, Serde.slot,
      Serde.ofString_inj, required, hsecrets]
  | status state idleRemainingMs =>
    have hidle : nullable (Serde.unsigned u64Max)
        (optional (fun n : ℕ => Document.num n) idleRemainingMs) = some idleRemainingMs := by
      cases idleRemainingMs with
      | none => rfl
      | some n => simp [optional, nullable, Serde.unsigned_num (h n rfl)]
    simp [readResult, RpcResult.document, object, tagged, string, slots, Serde.slot,
      Serde.ofString_inj, required, Serde.optional, hidle]
  | run exitCode termination stdout stderr durationMs redactionCount outputTruncated
      tempCleanupWarning =>
    obtain ⟨hcode, -, -, hduration, hcount⟩ := h
    have hexit : nullable (Serde.signed i32Max) (optional Document.num exitCode) =
        some exitCode := by
      cases exitCode with
      | none => rfl
      | some n => simp [optional, nullable, Serde.signed, hcode n rfl]
    simp [readResult, RpcResult.document, object, tagged, string, slots, Serde.slot,
      Serde.ofString_inj, required, Serde.optional, defaulted, Serde.bytes, Serde.boolean, hexit,
      Serde.unsigned_num hduration, Serde.unsigned_num hcount]

def RpcOutcome.Typed : RpcOutcome → Prop
  | .success result => result.Typed
  | .failure _ => True

lemma readResponse_document {r : RpcResponse} (hversion : r.version ≤ u16Max)
    (h : r.outcome.Typed) : readResponse r.document = some r := by
  obtain ⟨version, requestId, outcome⟩ := r
  cases outcome with
  | success result =>
    simp [readResponse, RpcResponse.document, RpcOutcome.member, object, readOutcome,
      Serde.unsigned_num hversion, readResult_document h]
  | failure error =>
    simp [readResponse, RpcResponse.document, RpcOutcome.member, object, readOutcome,
      Serde.unsigned_num hversion, readErrorBody, slots, Serde.slot, string, required]

/-! ### What is written passes the check -/

lemma readable_string (s : String) : Readable (string s) := .str s

lemma readable_uuid (u : Uuid) : Readable (.str u.display) := by
  have h : ofString (Text.ascii u.display) = u.display :=
    Text.ofString_ascii fun _ hb => (Uuid.display_ascii hb).1
  exact h ▸ .str _

lemma readable_nat {n : ℕ} (h : n ≤ u64Max) : Readable (.num n) := by
  refine .num ?_
  simp only [Json.isMachineInteger, Bool.and_eq_true, decide_eq_true_eq, u64Max] at h ⊢
  omega

lemma readable_object {members : List (String × Document)} (h : ∀ m ∈ members, Readable m.2) :
    Readable (object members) := by
  refine .obj ?_ ?_
  · simp only [List.mem_map]
    rintro _ ⟨m, hm, rfl⟩
    exact ⟨m.1, rfl⟩
  · simp only [List.mem_map]
    rintro _ ⟨m, hm, rfl⟩
    exact h m hm

lemma readable_array {α : Type} {write : α → Document} {l : List α}
    (h : ∀ a ∈ l, Readable (write a)) : Readable (.arr (l.map write)) :=
  .arr fun j hj => by
    obtain ⟨a, ha, rfl⟩ := List.mem_map.mp hj
    exact h a ha

lemma readable_target (t : BindingTarget) : Readable (targetDocument t) := by
  cases t with
  | environment name => exact readable_object (by simp [readable_string])
  | standardInput => exact readable_object (by simp [readable_string])
  | temporaryFileEnvironment name suggestedFilename =>
    cases suggestedFilename <;> exact readable_object (by simp [readable_string])

lemma readable_run {r : RunRequest} (htimeout : r.timeoutMs ≤ u64Max)
    (hlimit : r.outputLimitBytes ≤ u64Max) : Readable (runDocument r) := by
  have hbinding : ∀ b, Readable (bindingDocument b) := fun b =>
    readable_object (by simp [readable_string, readable_target])
  have hargs : Readable (.arr (r.arguments.map string)) := readable_array fun a _ => readable_string a
  have hbindings : Readable (.arr (r.bindings.map bindingDocument)) :=
    readable_array fun b _ => hbinding b
  exact readable_object (by
    simp [readable_string, hargs, hbindings, readable_nat htimeout, readable_nat hlimit])

lemma u16Max_le_u64Max : u16Max ≤ u64Max := by decide

lemma readable_request {r : RpcRequest} (hversion : r.version ≤ u16Max) (h : r.method.Typed) :
    Readable r.document := by
  have hnum : Readable (.num r.version) := readable_nat (hversion.trans u16Max_le_u64Max)
  refine readable_object ?_
  cases hm : r.method with
  | run request =>
    rw [hm] at h
    simp [RpcMethod.members, readable_string, readable_uuid, hnum, readable_run h.1 h.2]
  | sessionOpen => simp [RpcMethod.members, readable_string, readable_uuid, hnum]
  | status => simp [RpcMethod.members, readable_string, readable_uuid, hnum]
  | list => simp [RpcMethod.members, readable_string, readable_uuid, hnum]
  | lock => simp [RpcMethod.members, readable_string, readable_uuid, hnum]

lemma checkItems_eq_true {depth : ℕ} {items : List Document} :
    checkItems depth items ↔ ∀ j ∈ items, checkValue depth j := by
  induction items with
  | nil => simp [checkItems]
  | cons j items ih => simp [checkItems, ih]

/-- The keys of an object that passes are different, also from those before. -/
lemma nodup_of_checkMembers {depth : ℕ} {keys : List Bytes} {members : List (Bytes × Document)}
    (h : checkMembers depth keys members) :
    (members.map Prod.fst).Nodup ∧ ∀ key ∈ keys, key ∉ members.map Prod.fst := by
  induction members generalizing keys with
  | nil => simp
  | cons m members ih =>
    obtain ⟨key, value⟩ := m
    simp only [checkMembers, Bool.and_eq_true, Bool.not_eq_true', List.contains_eq_mem,
      decide_eq_false_iff_not] at h
    obtain ⟨⟨hkey, -⟩, hrest⟩ := h
    obtain ⟨hnodup, hnew⟩ := ih hrest
    rw [List.map_cons, List.nodup_cons]
    refine ⟨⟨hnew key List.mem_cons_self, hnodup⟩, fun k hk => ?_⟩
    rw [List.mem_cons, not_or]
    refine ⟨?_, hnew k (List.mem_cons_of_mem _ hk)⟩
    rintro rfl
    exact hkey hk

lemma checkItems_map {α : Type} {write : α → Document} {l : List α} {depth : ℕ}
    (h : ∀ a ∈ l, checkValue depth (write a)) : checkItems depth (l.map write) :=
  checkItems_eq_true.mpr fun j hj => by
    obtain ⟨a, ha, rfl⟩ := List.mem_map.mp hj
    exact h a ha

lemma checkValue_target (t : BindingTarget) {depth : ℕ} (h : depth < maxJsonDepth) :
    checkValue depth (targetDocument t) := by
  cases t with
  | environment name =>
    simp [targetDocument, object, string, checkValue, checkMembers, Serde.ofString_inj, h]
  | standardInput => simp [targetDocument, object, string, checkValue, checkMembers, h]
  | temporaryFileEnvironment name suggestedFilename =>
    cases suggestedFilename <;>
      simp [targetDocument, object, string, checkValue, checkMembers, Serde.ofString_inj, h]

lemma checkValue_binding (b : SecretBindingRequest) {depth : ℕ} (h : depth + 1 < maxJsonDepth) :
    checkValue depth (bindingDocument b) := by
  have hdepth : depth < maxJsonDepth := by omega
  simp [bindingDocument, object, string, checkValue, checkMembers, Serde.ofString_inj, hdepth,
    checkValue_target _ h]

lemma checkValue_run (r : RunRequest) {depth : ℕ} (h : depth + 3 < maxJsonDepth) :
    checkValue depth (runDocument r) := by
  have hargs : checkItems (depth + 2) (r.arguments.map string) :=
    checkItems_map fun a _ => by simp [string, checkValue]
  have hbindings : checkItems (depth + 2) (r.bindings.map bindingDocument) :=
    checkItems_map fun b _ => checkValue_binding b h
  have hdepth : depth < maxJsonDepth ∧ depth + 1 < maxJsonDepth := by omega
  simp [runDocument, object, string, checkValue, checkMembers, Serde.ofString_inj, hdepth, hargs,
    hbindings]

lemma checkValue_request (r : RpcRequest) : checkValue 0 r.document := by
  have hrun : ∀ request, checkValue 1 (runDocument request) := fun request =>
    checkValue_run request (by decide)
  have hdepth : 0 < maxJsonDepth := by decide
  rw [RpcRequest.document]
  cases r.method <;>
    simp [RpcMethod.members, object, string, checkValue, checkMembers, Serde.ofString_inj, hdepth,
      hrun]

lemma readable_int {n : ℤ} (h : -i32Max - 1 ≤ n ∧ n ≤ i32Max) : Readable (.num n) := by
  refine .num ?_
  simp only [Json.isMachineInteger, Bool.and_eq_true, decide_eq_true_eq, i32Max] at h ⊢
  omega

lemma readable_optional {α : Type} {write : α → Document} {o : Option α}
    (h : ∀ a ∈ o, Readable (write a)) : Readable (optional write o) := by
  cases o with
  | none => exact .null
  | some a => exact h a rfl

lemma readable_summary (s : SecretSummary) : Readable s.document := by
  have hfield : ∀ f : SecretFieldSummary, Readable f.document := fun f =>
    readable_object (by simp [readable_string, Readable.bool])
  have hfields : Readable (.arr (s.fields.map SecretFieldSummary.document)) :=
    readable_array fun f _ => hfield f
  exact readable_object (by simp [readable_string, readable_uuid, hfields])

lemma readable_result {r : RpcResult} (h : r.Typed) : Readable r.document := by
  cases r with
  | sessionOpened => exact readable_object (by simp [readable_string])
  | locked => exact readable_object (by simp [readable_string])
  | list secrets =>
    have hsecrets : Readable (.arr (secrets.map SecretSummary.document)) :=
      readable_array fun s _ => readable_summary s
    exact readable_object (by simp [readable_string, hsecrets])
  | status state idleRemainingMs =>
    have hidle : Readable (optional (fun n : ℕ => .num n) idleRemainingMs) :=
      readable_optional fun n hn => readable_nat (h n hn)
    exact readable_object (by simp [readable_string, hidle])
  | run exitCode termination stdout stderr durationMs redactionCount outputTruncated
      tempCleanupWarning =>
    obtain ⟨hcode, ⟨out, rfl⟩, ⟨err, rfl⟩, hduration, hcount⟩ := h
    have hexit : Readable (optional .num exitCode) :=
      readable_optional fun n hn => readable_int (hcode n hn)
    exact readable_object (by
      simp [readable_string, hexit, Readable.str, Readable.bool, readable_nat hduration,
        readable_nat hcount])

lemma readable_response {r : RpcResponse} (hversion : r.version ≤ u16Max) (h : r.outcome.Typed) :
    Readable r.document := by
  have hnum : Readable (.num r.version) := readable_nat (hversion.trans u16Max_le_u64Max)
  have houtcome : Readable r.outcome.member.2 := by
    cases ho : r.outcome with
    | success result =>
      rw [ho] at h
      exact readable_result h
    | failure error => exact readable_object (by simp [readable_string])
  exact readable_object (by simp [readable_uuid, hnum, houtcome])

lemma checkValue_optional {α : Type} {write : α → Document} {depth : ℕ}
    (h : ∀ a, checkValue depth (write a)) (o : Option α) : checkValue depth (optional write o) := by
  cases o with
  | none => simp [optional, checkValue]
  | some a => exact h a

lemma checkValue_summary (s : SecretSummary) {depth : ℕ} (h : depth + 2 < maxJsonDepth) :
    checkValue depth s.document := by
  have hdepth : depth < maxJsonDepth ∧ depth + 1 < maxJsonDepth := by omega
  have hfields : checkItems (depth + 2) (s.fields.map SecretFieldSummary.document) :=
    checkItems_map fun f _ => by
      simp [SecretFieldSummary.document, object, string, checkValue, checkMembers,
        Serde.ofString_inj, h]
  simp [SecretSummary.document, object, string, checkValue, checkMembers, Serde.ofString_inj, hdepth,
    hfields]

lemma checkValue_result (r : RpcResult) : checkValue 1 r.document := by
  have hdepth : 1 < maxJsonDepth ∧ 2 < maxJsonDepth := by decide
  cases r with
  | sessionOpened => simp [RpcResult.document, object, string, checkValue, checkMembers, hdepth]
  | locked => simp [RpcResult.document, object, string, checkValue, checkMembers, hdepth]
  | list secrets =>
    have hsecrets : checkItems 3 (secrets.map SecretSummary.document) :=
      checkItems_map fun s _ => checkValue_summary s (by decide)
    simp [RpcResult.document, object, string, checkValue, checkMembers, Serde.ofString_inj, hdepth,
      hsecrets]
  | status state idleRemainingMs =>
    have hidle : checkValue 2 (optional (fun n : ℕ => .num n) idleRemainingMs) :=
      checkValue_optional (fun n => by simp [checkValue]) _
    simp [RpcResult.document, object, string, checkValue, checkMembers, Serde.ofString_inj, hdepth,
      hidle]
  | run exitCode termination stdout stderr durationMs redactionCount outputTruncated
      tempCleanupWarning =>
    have hexit : checkValue 2 (optional .num exitCode) :=
      checkValue_optional (fun n => by simp [checkValue]) _
    simp [RpcResult.document, object, string, checkValue, checkMembers, Serde.ofString_inj, hdepth,
      hexit]

lemma checkValue_response (r : RpcResponse) : checkValue 0 r.document := by
  have hdepth : 0 < maxJsonDepth ∧ 1 < maxJsonDepth := by decide
  rw [RpcResponse.document]
  cases r.outcome <;>
    simp [RpcOutcome.member, object, string, checkValue, checkMembers, Serde.ofString_inj, hdepth,
      checkValue_result]

/-! ### Frames read back -/

lemma encodeFrame_eq_ok {d : Document} {frame : Bytes} (h : encodeFrame d = .ok frame) :
    frame = Cbor.be 4 (render d).length ++ render d ∧ render d ≠ [] ∧
      (render d).length ≤ maxFrameBytes := by
  unfold encodeFrame at h
  dsimp only at h
  split_ifs at h with hnil hlong
  cases h
  exact ⟨rfl, hnil, Nat.not_lt.mp hlong⟩

lemma maxFrameBytes_lt : maxFrameBytes < 256 ^ 4 := by decide

lemma checkedFramePayload_encodeFrame {d : Document} {frame : Bytes} (h : encodeFrame d = .ok frame) :
    checkedFramePayload frame = .ok (render d) := by
  obtain ⟨rfl, hne, hle⟩ := encodeFrame_eq_ok h
  have hpos := List.length_pos_iff.mpr hne
  have hlength : Cbor.ofBe (Cbor.be 4 (render d).length) = (render d).length :=
    Cbor.ofBe_be (hle.trans_lt maxFrameBytes_lt)
  have htake : (Cbor.be 4 (render d).length ++ render d).take 4 = Cbor.be 4 (render d).length :=
    List.take_left' (Cbor.length_be _ _)
  have hdrop : (Cbor.be 4 (render d).length ++ render d).drop 4 = render d :=
    List.drop_left' (Cbor.length_be _ _)
  rw [checkedFramePayload, htake, hdrop, hlength, List.length_append, Cbor.length_be,
    if_neg (by omega)]
  dsimp only
  rw [if_neg (by omega), if_neg (by omega), if_neg (by omega)]

section Frames

variable [Doubles]

lemma validateJsonDocument_render {d : Document} (h : Readable d) (hcheck : checkValue 0 d) :
    validateJsonDocument (render d) = .ok () := by
  rw [validateJsonDocument, checkedDocument, Json.parse_render h, Option.filter_some, if_pos hcheck]
  rfl

lemma fromSlice_render {α : Type} {read : Document → Option α} {d : Document} {a : α}
    (h : Readable d) (hread : read d = some a) : fromSlice read (render d) = .ok a := by
  rw [fromSlice, Json.parse_render h, Option.bind_eq_bind, Option.bind_some, hread]

lemma decodeRequestFrame_encode {r : RpcRequest} {frame : Bytes}
    (h : encodeRequestFrame r = .ok frame) (htyped : r.method.Typed)
    (hvalid : validateRequest r = .ok ()) (hversion : r.version ≤ u16Max) :
    decodeRequestFrame frame = .ok r := by
  have hreadable := readable_request hversion htyped
  simp only [decodeRequestFrame, checkedFramePayload_encodeFrame h,
    validateJsonDocument_render hreadable (checkValue_request r),
    fromSlice_render hreadable (readRequest_document hversion htyped), hvalid, bind, Except.bind]
  rfl

lemma decodeResponseFrame_encode {r : RpcResponse} {frame : Bytes}
    (h : encodeResponseFrame r = .ok frame) (htyped : r.outcome.Typed)
    (hversion : r.version ≤ u16Max) :
    decodeResponseFrame frame =
      if r.version ≠ protocolVersion then .error .unsupportedProtocolVersion else .ok r := by
  have hreadable := readable_response hversion htyped
  simp only [decodeResponseFrame, checkedFramePayload_encodeFrame h,
    validateJsonDocument_render hreadable (checkValue_response r),
    fromSlice_render hreadable (readResponse_document hversion htyped), bind, Except.bind]
  rfl

end Frames

/-! ### Frames read from a stream -/

inductive ReadError
  | unexpectedEof
  | connectionReset
  | connectionAborted
  | wouldBlock
  | timedOut
  | other

/-- What a read of a stream meets: bytes that have come, none of them at its end; an interruption,
after which it is tried again; a failure. -/
inductive Arrival
  | bytes (chunk : Bytes)
  | interrupted
  | fails (error : ReadError)

/-- Reads until so many bytes have come. Of a piece that is longer, the rest stays. -/
def readExact : ℕ → List Arrival → Except ReadError (Bytes × List Arrival)
  | 0, stream => .ok ([], stream)
  | _ + 1, [] => .error .unexpectedEof
  | n + 1, .interrupted :: rest => readExact (n + 1) rest
  | _ + 1, .fails error :: _ => .error error
  | n + 1, .bytes chunk :: rest =>
    if chunk = [] then .error .unexpectedEof
    else if n + 1 < chunk.length then
      .ok (chunk.take (n + 1), .bytes (chunk.drop (n + 1)) :: rest)
    else do
      let (more, rest) ← readExact (n + 1 - chunk.length) rest
      return (chunk ++ more, rest)

def frameReadError : ReadError → LadonError
  | .unexpectedEof | .connectionReset | .connectionAborted => .ipcDisconnected
  | .wouldBlock | .timedOut => .ipcTimeout
  | .other => .endpointUnavailable

def readFrame (stream : List Arrival) : Except LadonError (Bytes × List Arrival) := do
  let (header, stream) ← (readExact 4 stream).mapError frameReadError
  let length := Cbor.ofBe header
  if length = 0 then .error .invalidFrame
  else if maxFrameBytes < length then .error .frameTooLarge
  else do
    let (payload, stream) ← (readExact length stream).mapError frameReadError
    return (header ++ payload, stream)

/-- A stream that hands over a word, in pieces of any sizes and with any interruptions. -/
inductive Fragments : List Arrival → Bytes → Prop
  | nil : Fragments [] []
  | interrupted {stream : List Arrival} {w : Bytes} (h : Fragments stream w) :
    Fragments (.interrupted :: stream) w
  | bytes {chunk : Bytes} {stream : List Arrival} {w : Bytes} (hne : chunk ≠ [])
    (h : Fragments stream w) : Fragments (.bytes chunk :: stream) (chunk ++ w)

lemma readExact_fragments {stream : List Arrival} {w : Bytes} (h : Fragments stream w) {n : ℕ}
    (hn : n ≤ w.length) :
    ∃ rest, readExact n stream = .ok (w.take n, rest) ∧ Fragments rest (w.drop n) := by
  induction h generalizing n with
  | nil =>
    obtain rfl : n = 0 := by simpa using hn
    exact ⟨[], by rw [readExact]; rfl, .nil⟩
  | @interrupted stream w h ih =>
    cases n with
    | zero => exact ⟨_, by rw [readExact]; rfl, .interrupted h⟩
    | succ n =>
      obtain ⟨rest, hread, hrest⟩ := ih hn
      exact ⟨rest, by rw [readExact, hread], hrest⟩
  | @bytes chunk stream w hne h ih =>
    cases n with
    | zero => exact ⟨_, by rw [readExact]; rfl, .bytes hne h⟩
    | succ n =>
      rw [readExact, if_neg hne]
      rcases Nat.lt_or_ge (n + 1) chunk.length with hlt | hge
      · rw [if_pos hlt, List.take_append_of_le_length hlt.le, List.drop_append_of_le_length hlt.le]
        exact ⟨_, rfl, .bytes (by simpa using hlt) h⟩
      · rw [List.length_append] at hn
        obtain ⟨rest, hread, hrest⟩ := ih (by omega : n + 1 - chunk.length ≤ w.length)
        rw [if_neg (by omega), hread, List.take_append, List.drop_append,
          List.take_of_length_le hge, List.drop_eq_nil_of_le hge]
        exact ⟨rest, rfl, hrest⟩

/-- A frame is read as it was written, however the stream hands it over. -/
lemma readFrame_encodeFrame {d : Document} {frame : Bytes} (h : encodeFrame d = .ok frame)
    {stream : List Arrival} {after : Bytes} (hs : Fragments stream (frame ++ after)) :
    ∃ rest, readFrame stream = .ok (frame, rest) ∧ Fragments rest after := by
  obtain ⟨rfl, hne, hle⟩ := encodeFrame_eq_ok h
  have hpos := List.length_pos_iff.mpr hne
  have hlength : Cbor.ofBe (Cbor.be 4 (render d).length) = (render d).length :=
    Cbor.ofBe_be (hle.trans_lt maxFrameBytes_lt)
  rw [List.append_assoc] at hs
  obtain ⟨rest, hhead, hrest⟩ := readExact_fragments hs (n := 4) (by simp)
  rw [List.take_left' (Cbor.length_be _ _)] at hhead
  rw [List.drop_left' (Cbor.length_be _ _)] at hrest
  obtain ⟨rest', hpayload, hrest'⟩ := readExact_fragments hrest (n := (render d).length) (by simp)
  rw [List.take_left] at hpayload
  rw [List.drop_left] at hrest'
  refine ⟨rest', ?_, hrest'⟩
  rw [readFrame, hhead]
  simp only [Except.mapError, bind, Except.bind, hlength]
  rw [if_neg (by omega), if_neg (by omega), hpayload]
  rfl

end Ladon.Protocol

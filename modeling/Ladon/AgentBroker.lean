import Ladon.BrokerStatus
import Ladon.Supervisor

/-!
The broker as a client sees it: a request, and the response that goes back in a frame.

What the coordinators, the controller and the supervisor answer in the course of a request is given;
they are at work in other modules, and other threads come in between. The output of a child is
limited before it is written as JSON, the frame behind it: an output that is mostly control
characters, or a list of many secrets, leaves no frame to send.
-/

namespace Ladon.AgentBroker

open Ladon.Error Ladon.Model Ladon.Vault Ladon.Redact Ladon.Runner Ladon.Supervisor Ladon.Protocol
  Ladon.Approval Ladon.Grants Ladon.Controller Ladon.Broker Ladon.Lib Ladon.Lib.Utf8 Ladon.Lib.Digits
  Ladon.Lib.Word
open Ladon.Lib.Json (cost render)

section Handler

variable [UnicodeNormalization]

/-- What the broker is told while it handles one request. -/
structure Answers where
  observeClient : Except LadonError Unit
  registerClientSession : Except LadonError Unit
  observeRegistered : Except LadonError Unit
  shuttingDown : Bool
  awaitLocalUnlock : Except LadonError Unit
  tryStart : Except LadonError Unit
  requireClientAccess : Except LadonError Unit
  appAccessState : AppAccessState
  activeGrants : List ActiveGrantSnapshot
  controller : VaultController
  now : ℕ
  lockControllerAndRuns : Except LadonError Unit
  observeRun : Except LadonError Unit
  stillShuttingDown : Bool
  setSecretContext : Except LadonError Unit
  authorize : Except LadonError GrantTicket
  runGuarded : Except LadonError RunResult

def terminationName : RunTermination → String
  | .exited => "exited"
  | .timedOut => "timed_out"
  | .cancelled => "cancelled"

def runResult (result : RunResult) : RpcResult :=
  .run result.exitCode (terminationName result.termination) result.stdout result.stderr
    (durationMillis result.duration) result.redactionCount
    (result.outputTruncated || result.outputSuppressed) result.tempCleanupWarning

/-- The secrets that are listed: all while the application is open, else those the client may use
unattended. -/
def Answers.listed (a : Answers) (client : Uuid) : List SecretMetadata :=
  if a.appAccessState = .active then a.controller.secrets
  else a.controller.secrets.filter fun secret =>
    ((a.activeGrants.filter fun g => g.clientSessionId = client && g.unattended).map
      (·.secretId)).contains secret.id

def summarize (secret : SecretMetadata) : Except LadonError SecretSummary :=
  match Uuid.parse secret.id.uuid.display with
  | none => .error .invalidVaultPayload
  | some id => .ok ⟨id, secret.name, secret.fieldNames.map fun name => ⟨name, true⟩⟩

/-- A run from its request to the result of its child. -/
def handleRun (a : Answers) (request : RunRequest) : Except LadonError RunResult := do
  a.observeClient
  require (¬ a.shuttingDown) .endpointUnavailable
  let validated ← validateRunRequest request .cli
  a.awaitLocalUnlock
  a.tryStart
  a.requireClientAccess
  a.observeRun
  require (¬ a.stillShuttingDown) .endpointUnavailable
  if validated.bindings ≠ [] then
    let _ ← a.controller.approvalPlan validated.bindings
    a.setSecretContext
    let _ ← a.authorize
    a.runGuarded
  else
    a.setSecretContext
    a.runGuarded

/-- A lock is made also where the client could not be noted. -/
def handleMethod (a : Answers) (client : Uuid) : RpcMethod → Except LadonError RpcResult
  | .sessionOpen => do
    a.observeClient
    a.registerClientSession
    a.observeRegistered
    return .sessionOpened
  | .status => do
    a.observeClient
    return statusResult a.now a.appAccessState a.controller
  | .list => do
    a.observeClient
    a.awaitLocalUnlock
    a.requireClientAccess
    require (a.controller.phase = .unlocked) .vaultLocked
    let secrets ← (a.listed client).mapM summarize
    return .list secrets
  | .lock => do
    a.lockControllerAndRuns
    return .locked
  | .run request => (handleRun a request).map runResult

def handle (a : Answers) (request : RpcRequest) : RpcResponse :=
  match handleMethod a request.clientSessionId request.method with
  | .ok result => .success request.requestId result
  | .error e => .error request.requestId e

/-! ### What is answered -/

/-- The run is not refused before its child has been under way. -/
structure Admitted (a : Answers) (request : RunRequest) : Prop where
  observed : a.observeClient = .ok ()
  up : a.shuttingDown = false
  validated : ∃ v, validateRunRequest request .cli = .ok v ∧ (v.bindings ≠ [] →
    (∃ plan, a.controller.approvalPlan v.bindings = .ok plan) ∧ ∃ ticket, a.authorize = .ok ticket)
  unlocked : a.awaitLocalUnlock = .ok ()
  started : a.tryStart = .ok ()
  access : a.requireClientAccess = .ok ()
  noted : a.observeRun = .ok ()
  stillUp : a.stillShuttingDown = false
  context : a.setSecretContext = .ok ()

/-- The list is not refused. -/
structure Listing (a : Answers) : Prop where
  observed : a.observeClient = .ok ()
  unlocked : a.awaitLocalUnlock = .ok ()
  access : a.requireClientAccess = .ok ()
  phase : a.controller.phase = .unlocked

lemma handleRun_eq_ok_iff {a : Answers} {request : RunRequest} {result : RunResult} :
    handleRun a request = .ok result ↔ Admitted a request ∧ a.runGuarded = .ok result := by
  constructor
  · intro h
    simp only [handleRun, bind_eq_ok, require_eq_ok, Bool.not_eq_true] at h
    obtain ⟨_, hobserved, _, hup, v, hv, _, hunlocked, _, hstarted, _, haccess, _, hnoted, _, hstill,
      h⟩ := h
    split at h
    · simp only [bind_eq_ok] at h
      obtain ⟨plan, hplan, _, hcontext, ticket, hticket, h⟩ := h
      exact ⟨⟨hobserved, hup, ⟨v, hv, fun _ => ⟨⟨plan, hplan⟩, ticket, hticket⟩⟩, hunlocked, hstarted,
        haccess, hnoted, hstill, hcontext⟩, h⟩
    · next hbare =>
      simp only [bind_eq_ok] at h
      obtain ⟨_, hcontext, h⟩ := h
      exact ⟨⟨hobserved, hup, ⟨v, hv, fun hb => (hbare hb).elim⟩, hunlocked, hstarted, haccess, hnoted,
        hstill, hcontext⟩, h⟩
  · rintro ⟨⟨hobserved, hup, ⟨v, hv, hplan⟩, hunlocked, hstarted, haccess, hnoted, hstill, hcontext⟩, h⟩
    simp only [handleRun, bind_eq_ok, require_eq_ok, Bool.not_eq_true]
    refine ⟨(), hobserved, (), hup, v, hv, (), hunlocked, (), hstarted, (), haccess, (), hnoted, (),
      hstill, ?_⟩
    split
    · next hb =>
      obtain ⟨⟨plan, hplan⟩, ticket, hticket⟩ := hplan hb
      simp only [bind_eq_ok]
      exact ⟨plan, hplan, (), hcontext, ticket, hticket, h⟩
    · simp only [bind_eq_ok]
      exact ⟨(), hcontext, h⟩

def summary (secret : SecretMetadata) : SecretSummary :=
  ⟨secret.id.uuid, secret.name, secret.fieldNames.map fun name => ⟨name, true⟩⟩

omit [UnicodeNormalization] in
/-- An identifier is read as what was written. -/
lemma summarize_eq (secret : SecretMetadata) : summarize secret = .ok (summary secret) := by
  rw [summarize, Uuid.parse_display, summary]

omit [UnicodeNormalization] in
lemma mapM_summarize (secrets : List SecretMetadata) :
    secrets.mapM summarize = .ok (secrets.map summary) := by
  induction secrets with
  | nil => rfl
  | cons secret rest ih =>
    rw [List.mapM_cons, summarize_eq, ih]
    rfl

lemma handleMethod_list_eq_ok_iff {a : Answers} {client : Uuid} {result : RpcResult} :
    handleMethod a client .list = .ok result ↔
      Listing a ∧ result = .list ((a.listed client).map summary) := by
  simp only [handleMethod, bind_eq_ok, require_eq_ok, mapM_summarize]
  constructor
  · rintro ⟨_, hobserved, _, hunlocked, _, haccess, _, hphase, _, hsecrets, h⟩
    cases hsecrets
    cases h
    exact ⟨⟨hobserved, hunlocked, haccess, hphase⟩, rfl⟩
  · rintro ⟨⟨hobserved, hunlocked, haccess, hphase⟩, rfl⟩
    exact ⟨(), hobserved, (), hunlocked, (), haccess, (), hphase, _, rfl, rfl⟩

/-! ### What fits -/

/-- The bytes of the response to a run. -/
def runBytes (result : RunResult) : ℕ :=
  221 + exitCodeBytes result.exitCode + cost (ofString (terminationName result.termination)) +
    cost result.stdout + cost result.stderr + (decimal (durationMillis result.duration)).length +
    (decimal result.redactionCount).length +
    boolBytes (result.outputTruncated || result.outputSuppressed) + boolBytes result.tempCleanupWarning

/-- The bytes of the response to a list. -/
def listBytes (secrets : List SecretMetadata) : ℕ :=
  103 + ((secrets.map fun secret => 67 + cost (ofString secret.name) +
    (secret.fieldNames.map fun name => cost (ofString name) + 24).sum).sum - 1)

/-- There is a frame for what is answered: the output of a child as it is written in JSON is not too
long, and neither are the names of the secrets. -/
def Fits (a : Answers) (request : RpcRequest) : Prop :=
  match request.method with
  | .list => Listing a → listBytes (a.listed request.clientSessionId) ≤ maxFrameBytes
  | .run run => Admitted a run → ∀ result, a.runGuarded = .ok result →
      runBytes result ≤ maxFrameBytes
  | _ => True

lemma fieldNames_ne_nil {c : VaultController} {secret : SecretMetadata} (h : secret ∈ c.secrets) :
    secret.fieldNames ≠ [] := by
  unfold VaultController.secrets at h
  split at h
  · obtain ⟨record, -, rfl⟩ := List.mem_map.mp h
    simpa using record.fields_ne_nil
  · cases h

lemma listed_subset {a : Answers} {client : Uuid} {secret : SecretMetadata}
    (h : secret ∈ a.listed client) : secret ∈ a.controller.secrets := by
  unfold Answers.listed at h
  split at h
  · exact h
  · exact (List.mem_filter.mp h).1

omit [UnicodeNormalization] in
lemma length_runResult (requestId : Uuid) (result : RunResult) :
    (render (RpcResponse.success requestId (runResult result)).document).length =
      runBytes result := by
  rw [length_success, runResult, length_run, runBytes]
  omega

omit [UnicodeNormalization] in
lemma length_listResult (requestId : Uuid) (secrets : List SecretMetadata)
    (h : ∀ secret ∈ secrets, secret.fieldNames ≠ []) :
    (render (RpcResponse.success requestId (.list (secrets.map summary))).document).length =
      listBytes secrets := by
  have hfields : ∀ s ∈ secrets.map summary, s.fields ≠ [] := by
    intro s hs
    obtain ⟨secret, hsecret, rfl⟩ := List.mem_map.mp hs
    simpa [summary] using h secret hsecret
  have hbytes : (secrets.map summary).map summaryBytes = secrets.map fun secret =>
      67 + cost (ofString secret.name) +
        (secret.fieldNames.map fun name => cost (ofString name) + 24).sum := by
    rw [List.map_map]
    refine List.map_congr_left fun secret _ => ?_
    simp [summary, summaryBytes, boolBytes, Function.comp_def]
    omega
  rw [length_success, length_list _ hfields, hbytes, listBytes]
  omega

/-- A status always fits. -/
lemma length_statusResult_le (requestId : Uuid) (now : ℕ) (access : AppAccessState)
    (c : VaultController) :
    (render (RpcResponse.success requestId (statusResult now access c)).document).length ≤
      maxFrameBytes := by
  have h1 : cost (ofString "type") = 4 := by decide
  have h2 : cost (ofString "status") = 6 := by decide
  have h3 : cost (ofString "state") = 5 := by decide
  have h4 : cost (ofString "idle_remaining_ms") = 17 := by decide
  have hstatus : ∀ (state : String) (idle : Option ℕ), cost (ofString state) ≤ 20 →
      (∀ n ∈ idle, n ≤ u64Max) →
      (render (RpcResponse.success requestId (.status state idle)).document).length ≤
        maxFrameBytes := by
    intro state idle hstate hidle
    have hlength : (render (Protocol.optional (fun n : ℕ => .num n) idle)).length ≤ 20 := by
      cases idle with
      | none =>
        rw [Protocol.optional, Json.length_render_null]
        omega
      | some n =>
        rw [Protocol.optional, Json.length_render_nat]
        have hn := hidle n rfl
        exact decimal_length_le (by omega) (by unfold u64Max at hn; omega)
    simp only [length_success, RpcResult.document, length_render_object, List.map_cons, List.map_nil,
      List.sum_cons, List.sum_nil, List.length_cons, List.length_nil, length_render_string, h1, h2, h3,
      h4, maxFrameBytes]
    omega
  unfold statusResult
  split
  · exact hstatus _ _ (by decide) fun _ hn => (by cases hn)
  · refine hstatus _ _ ?_ fun n hn => ?_
    · cases c.phase <;> decide
    · obtain ⟨d, -, rfl⟩ := Option.map_eq_some_iff.mp hn
      exact Nat.min_le_right _ _

omit [UnicodeNormalization] in
lemma length_plainResult_le (requestId : Uuid) {result : RpcResult}
    (h : result = .sessionOpened ∨ result = .locked) :
    (render (RpcResponse.success requestId result).document).length ≤ maxFrameBytes := by
  have h1 : cost (ofString "type") = 4 := by decide
  have h2 : cost (ofString "session_opened") = 14 := by decide
  have h3 : cost (ofString "locked") = 6 := by decide
  rcases h with rfl | rfl
  all_goals
    simp only [length_success, RpcResult.document, length_render_object, List.map_cons, List.map_nil,
      List.sum_cons, List.sum_nil, List.length_cons, List.length_nil, length_render_string, h1, h2, h3,
      maxFrameBytes]
    omega

/-- A response fits where every result it can carry does. -/
lemma encode_handle_iff (a : Answers) (request : RpcRequest) :
    (∃ frame, encodeResponseFrame (handle a request) = .ok frame) ↔
      ∀ result, handleMethod a request.clientSessionId request.method = .ok result →
        (render (RpcResponse.success request.requestId result).document).length ≤ maxFrameBytes := by
  unfold handle
  cases h : handleMethod a request.clientSessionId request.method with
  | error e =>
    exact ⟨fun _ _ hr => (by cases hr), fun _ => encodeResponseFrame_error request.requestId e⟩
  | ok result =>
    dsimp only
    rw [encodeResponseFrame_ok_iff]
    constructor
    · intro hlength result' hr
      cases hr
      exact hlength
    · exact fun hall => hall result rfl

/-- **Which requests get a reply.** The response to a request can be sent exactly where it fits: a
list of names, or the output of a child, must not be too long once it is written in JSON. Everything
else fits. -/
theorem replied_iff_fits (a : Answers) (request : RpcRequest) :
    (∃ frame, encodeResponseFrame (handle a request) = .ok frame) ↔ Fits a request := by
  rw [encode_handle_iff, Fits]
  cases hm : request.method with
  | sessionOpen =>
    refine iff_of_true (fun result h => ?_) trivial
    simp only [handleMethod, bind_eq_ok] at h
    obtain ⟨_, -, _, -, _, -, h⟩ := h
    cases h
    exact length_plainResult_le _ (.inl rfl)
  | status =>
    refine iff_of_true (fun result h => ?_) trivial
    simp only [handleMethod, bind_eq_ok] at h
    obtain ⟨_, -, h⟩ := h
    cases h
    exact length_statusResult_le _ _ _ _
  | lock =>
    refine iff_of_true (fun result h => ?_) trivial
    simp only [handleMethod, bind_eq_ok] at h
    obtain ⟨_, -, h⟩ := h
    cases h
    exact length_plainResult_le _ (.inr rfl)
  | list =>
    have hlength := length_listResult request.requestId (a.listed request.clientSessionId)
      fun secret h => fieldNames_ne_nil (listed_subset h)
    simp only [handleMethod_list_eq_ok_iff]
    rw [← hlength]
    exact ⟨fun hall hlisting => hall _ ⟨hlisting, rfl⟩, fun h result ⟨hlisting, hr⟩ => hr ▸ h hlisting⟩
  | run run =>
    simp only [handleMethod]
    constructor
    · intro hall hadmitted result hresult
      rw [← length_runResult request.requestId]
      refine hall _ ?_
      rw [handleRun_eq_ok_iff.mpr ⟨hadmitted, hresult⟩]
      rfl
    · intro h result hr
      cases hrun : handleRun a run with
      | error e =>
        rw [hrun] at hr
        cases hr
      | ok result' =>
        rw [hrun] at hr
        cases hr
        obtain ⟨hadmitted, hresult⟩ := handleRun_eq_ok_iff.mp hrun
        rw [length_runResult]
        exact h hadmitted result' hresult

end Handler

/-! ### An output without a reply -/

section Silence

local instance silenceText : UnicodeNormalization := asciiNormalization

/-- A run without secrets that prints a mebibyte of zeros. -/
def zerosRun : RunRequest :=
  ⟨"/usr/bin/head", ["-c", "1048576", "/dev/zero"], "/", [], 1000, maxOutputLimitBytes⟩

def zerosRequest : RpcRequest where
  version := protocolVersion
  requestId := .filled 1
  clientSessionId := .filled 2
  clientLabel := "agent"
  method := .run zerosRun

def zerosResult : RunResult where
  exitCode := some 0
  termination := .exited
  stdout := List.replicate (2 ^ 20) 0
  stderr := []
  duration := 10 ^ 6
  redactionCount := 0
  outputTruncated := false
  omittedBytes := 0
  outputSuppressed := false
  tempCleanupWarning := false

/-- Nothing is refused. -/
def zerosAnswers : Answers where
  observeClient := .ok ()
  registerClientSession := .ok ()
  observeRegistered := .ok ()
  shuttingDown := false
  awaitLocalUnlock := .ok ()
  tryStart := .ok ()
  requireClientAccess := .ok ()
  appAccessState := .active
  activeGrants := []
  controller := .new true
  now := 0
  lockControllerAndRuns := .ok ()
  observeRun := .ok ()
  stillShuttingDown := false
  setSecretContext := .ok ()
  authorize := .error .approvalCancelled
  runGuarded := .ok zerosResult

/-- **An output within its limit is not answered**, since each zero is written with six bytes. -/
theorem zeros_without_reply : ¬ ∀ (a : Answers) (request : RpcRequest),
    validateRequest request = .ok () →
    (∀ run v result, request.method = .run run → validateRunRequest run .cli = .ok v →
      a.runGuarded = .ok result →
      result.stdout.length + result.stderr.length ≤ v.outputLimitBytes) →
    ∃ frame, encodeResponseFrame (handle a request) = .ok frame := by
  intro hall
  have hvalid : validateRunRequest zerosRun .cli = .ok ⟨zerosRun.executable, zerosRun.arguments,
      zerosRun.workingDirectory, [], zerosRun.timeoutMs, maxOutputLimitBytes⟩ := by rfl
  have hcost : cost zerosResult.stdout = 6 * 2 ^ 20 := by
    rw [zerosResult, cost, List.map_replicate, List.sum_replicate]
    rfl
  have hadmitted : Admitted zerosAnswers zerosRun :=
    ⟨rfl, rfl, ⟨_, hvalid, fun h => (h rfl).elim⟩, rfl, rfl, rfl, rfl, rfl, rfl⟩
  have hrun : handleMethod zerosAnswers zerosRequest.clientSessionId zerosRequest.method =
      .ok (runResult zerosResult) :=
    congrArg (Except.map runResult) (handleRun_eq_ok_iff.mpr ⟨hadmitted, rfl⟩)
  have hreply := hall zerosAnswers zerosRequest (by decide +kernel) ?_
  · have hfits := (encode_handle_iff _ _).mp hreply _ hrun
    rw [length_runResult, runBytes, hcost] at hfits
    unfold maxFrameBytes at hfits
    omega
  · intro run v result hrun hv hresult
    cases hrun
    rw [hvalid] at hv
    cases hv
    cases hresult
    rw [zerosResult, List.length_replicate]
    decide

end Silence

end Ladon.AgentBroker

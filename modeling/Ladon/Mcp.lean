import Ladon.Approval
import Ladon.CommandsRun
import Ladon.ProtocolWire

/-!
The server that agents speak to: lines of JSON-RPC in, lines of JSON-RPC out.

A line is answered when it cannot be read, or when it is an object with an `id`. A tool may ask the
desktop application for something. For a run or a list the client must be admitted first, with a
session that stays open as long as its lease; a status or a lock needs no admission.

What lies outside is a parameter with a state of its own: the connection to the application, the
source of identifiers, the file system and the output. The values that are sent keep the members of
an object in the order of their keys.
-/

namespace Ladon.Mcp

open Ladon.Error Ladon.Model Ladon.Redact Ladon.Runner Ladon.Protocol Ladon.Commands Ladon.Lib
  Ladon.Lib.Utf8 Ladon.Lib.Word
open Ladon.Approval.ApprovalState (trim isControl)
open Ladon.Lib.Json (Document render Doubles)
open Ladon.Lib.Serde (lookup slots required defaulted)

def mcpLegacyVersion : String := "2025-11-25"
def mcpModernVersion : String := "2026-07-28"
def packageVersion : String := "0.1.0"
def maxReportedNameBytes : ℕ := 64

/-! ### The session -/

structure McpSession (Lease : Type) where
  id : Uuid
  initializedName : Option String
  displayName : Option String
  lifetime : Option Lease

namespace McpSession

variable {Lease : Type}

def new (id : Uuid) : McpSession Lease := ⟨id, none, none, none⟩

def label (s : McpSession Lease) : String :=
  (s.displayName.or s.initializedName).getD "MCP client"

def validateName (value : String) : Except LadonError String :=
  let value := trim value
  if value = "" ∨ maxReportedNameBytes < (ofString value).length ∨
      value.toList.any isControl then .error .invalidRequest
  else .ok value

def identify (s : McpSession Lease) (value : String) :
    Except LadonError Unit × McpSession Lease :=
  match validateName value with
  | .ok name => (.ok (), { s with displayName := some name })
  | .error e => (.error e, s)

def recordInitializedName (s : McpSession Lease) (value : String) : McpSession Lease :=
  match validateName value with
  | .ok name => { s with initializedName := some name }
  | .error _ => s

end McpSession

/-! ### The arguments of a run -/

inductive McpBindingTarget
  | environment
  | standardInput
  | temporaryFileEnvironment

structure McpBinding where
  secretRef : String
  field : String
  target : McpBindingTarget
  name : Option String
  suggestedFilename : Option String

structure McpRunArguments where
  executable : String
  arguments : List String
  workingDirectory : Option String
  bindings : List McpBinding
  timeoutSeconds : Option ℕ
  outputLimitBytes : Option ℕ

def readBindingTarget (d : Document) : Option McpBindingTarget := do
  let name ← Serde.variant d
  if name = "environment" then return .environment
  else if name = "standard_input" then return .standardInput
  else if name = "temporary_file_environment" then return .temporaryFileEnvironment
  else none

def readMcpBinding (d : Document) : Option McpBinding := do
  let [secretRef, field, target, name, suggestedFilename] ←
    slots true ["secret_ref", "field", "target", "name", "suggested_filename"] d | none
  return ⟨← required Serde.string secretRef, ← defaulted Serde.string "value" field,
    ← required readBindingTarget target, ← Serde.optional Serde.string name,
    ← Serde.optional Serde.string suggestedFilename⟩

def readRunArguments (d : Document) : Option McpRunArguments := do
  let [executable, arguments, workingDirectory, bindings, timeoutSeconds, outputLimitBytes] ←
    slots true ["executable", "arguments", "working_directory", "bindings", "timeout_seconds",
      "output_limit_bytes"] d | none
  return ⟨← required Serde.string executable, ← defaulted (Serde.array Serde.string) [] arguments,
    ← Serde.optional Serde.string workingDirectory,
    ← defaulted (Serde.array readMcpBinding) [] bindings,
    ← Serde.optional (Serde.unsigned u64Max) timeoutSeconds,
    ← Serde.optional (Serde.unsigned u64Max) outputLimitBytes⟩

def McpBinding.request (b : McpBinding) : Except LadonError SecretBindingRequest :=
  match b.target, b.name with
  | .environment, some name => .ok ⟨b.secretRef, b.field, .environment name⟩
  | .environment, none => .error .invalidBinding
  | .standardInput, name =>
    if name.isSome ∨ b.suggestedFilename.isSome then .error .invalidBinding
    else .ok ⟨b.secretRef, b.field, .standardInput⟩
  | .temporaryFileEnvironment, some name =>
    .ok ⟨b.secretRef, b.field, .temporaryFileEnvironment name b.suggestedFilename⟩
  | .temporaryFileEnvironment, none => .error .invalidBinding

/-- The directory that is asked for, or the one the server runs in where it has a text. -/
def requestedDirectory (system : System) (arguments : McpRunArguments) : Bytes :=
  match arguments.workingDirectory with
  | some directory => ofString directory
  | none => ofString ((system.currentDir >>= toString?).getD "")

/-- Here the directory need not be one. -/
def mcpDirectory (system : System) (path : Bytes) : Except LadonError String :=
  match system.canonicalize path >>= toString? with
  | none => .error .invalidWorkingDirectory
  | some directory => .ok directory

section Runs

variable [UnicodeNormalization]

def parseMcpRun (system : System) (arguments : Document) : Except LadonError RpcMethod :=
  match readRunArguments arguments with
  | none => .error .invalidRequest
  | some arguments => do
    let workingDirectory ← mcpDirectory system (requestedDirectory system arguments)
    let executable ← resolveExecutable system arguments.executable workingDirectory
    let bindings ← arguments.bindings.mapM McpBinding.request
    match millisOfSeconds (arguments.timeoutSeconds.getD (defaultRunTimeout / 1000)) with
    | none => .error .invalidTimeout
    | some timeoutMs =>
      let run : RunRequest := ⟨executable, arguments.arguments, workingDirectory, bindings,
        timeoutMs, arguments.outputLimitBytes.getD defaultOutputLimitBytes⟩
      let _ ← validateRunRequest run .mcp
      return .run run

end Runs

/-! ### Replies -/

def jsonrpcResult (id result : Document) : Document :=
  object [("id", id), ("jsonrpc", string "2.0"), ("result", result)]

def jsonrpcError (id : Document) (code : ℤ) (message : String) : Document :=
  object [("error", object [("code", .num code), ("message", string message)]), ("id", id),
    ("jsonrpc", string "2.0")]

/-- What a tool says, as text and as a value. -/
def toolResult (id : Document) (isError : Bool) (text : Document) (structured : Document) :
    Document :=
  jsonrpcResult id (object [("content", .arr [object [("text", text), ("type", string "text")]]),
    ("isError", .bool isError), ("structuredContent", structured)])

def toolError (id : Document) (code message : String) : Document :=
  let structured := object [("code", string code), ("message", string message)]
  toolResult id true (.str (render structured)) structured

inductive LocalCallPhase
  | sessionOpen
  | run
  | request

def LocalCallPhase.name : LocalCallPhase → String
  | .sessionOpen => "session_open"
  | .run => "run"
  | .request => "request"

def LocalCallPhase.execution : LocalCallPhase → String
  | .sessionOpen => "not_started"
  | .run => "unknown"
  | .request => "not_applicable"

def LocalCallPhase.context : LocalCallPhase → String
  | .sessionOpen => ("A client session could not be established. The running app may not support " ++
      "this client's session protocol, or the connection was interrupted. No command was submitted.")
  | .run => ("The run request did not produce a valid reply. Do not assume whether the command " ++
      "executed.")
  | .request => "The local Ladon request/response exchange failed."

def localServiceRecoveryGuidance : String :=
  ("Ask the user to check Ladon and that its app and client builds are compatible. Do not restart, " ++
    "stop, replace, or globally lock the shared Ladon app. Do not automatically retry a command " ++
    "after losing its reply.")

def needsUserRecovery : LadonError → Bool
  | .ipcDisconnected | .ipcTimeout | .invalidFrame | .invalidResponse | .frameTooLarge
  | .unsupportedProtocolVersion | .endpointUnavailable | .unsafeEndpoint | .invalidPeer => true
  | _ => false

/-- The application is trusted with the code of an error, not with its text. -/
def localToolError (id : Document) (code : String) (phase : LocalCallPhase) : Document :=
  let error := (LadonError.fromCode code).getD .invalidResponse
  if ¬ needsUserRecovery error ∧ error ≠ .invalidRequest then
    toolError id error.code error.safeMessage
  else
    let message := error.safeMessage ++ " " ++ phase.context ++ " " ++ localServiceRecoveryGuidance
    let structured := object [("code", string error.code), ("execution", string phase.execution),
      ("message", string message), ("phase", string phase.name),
      ("recovery", object [("action", string "ask_user"), ("automatic_retry", .bool false),
        ("manage_shared_app", .bool false)]), ("source", string "local_ladon")]
    toolResult id true (.str (render structured)) structured

/-! ### The tools -/

def tool (name description : String) (hints : List (String × Document)) (inputSchema : Document) :
    Document :=
  object [("annotations", object hints), ("description", string description),
    ("inputSchema", inputSchema), ("name", string name)]

def textSchema (description : String) : Document :=
  object [("description", string description), ("type", string "string")]

def plainText : Document := object [("type", string "string")]

def emptySchema : Document :=
  object [("additionalProperties", .bool false), ("properties", object []),
    ("type", string "object")]

def objectSchema (properties : List (String × Document)) (needed : List String) : Document :=
  object [("additionalProperties", .bool false), ("properties", object properties),
    ("required", .arr (needed.map string)), ("type", string "object")]

def arraySchema (items : Document) (maxItems : ℕ) : Document :=
  object [("items", items), ("maxItems", .num maxItems), ("type", string "array")]

def integerSchema (default minimum maximum : ℕ) : Document :=
  object [("default", .num default), ("maximum", .num maximum), ("minimum", .num minimum),
    ("type", string "integer")]

def bindingSchema : Document :=
  objectSchema [("field", object [("default", string "value"), ("type", string "string")]),
    ("name", textSchema "Required environment variable name for environment targets."),
    ("secret_ref", textSchema "Exact secret name or id:<uuid>."),
    ("suggested_filename", textSchema
      "Optional safe basename used only to retain an extension for a temporary file."),
    ("target", object [("enum", .arr [string "environment", string "standard_input",
      string "temporary_file_environment"]), ("type", string "string")])]
    ["secret_ref", "target"]

def runSchema : Document :=
  objectSchema [("arguments", arraySchema plainText 256), ("bindings", arraySchema bindingSchema 16),
    ("executable", textSchema
      "Absolute, working-directory-relative, or PATH-resolved local executable."),
    ("output_limit_bytes", integerSchema 524288 128 2097152),
    ("timeout_seconds", integerSchema 300 1 900), ("working_directory", plainText)] ["executable"]

def nameSchema : Document :=
  object [("maxLength", .num 64), ("minLength", .num 1), ("type", string "string")]

def tools : Document :=
  .arr [
    tool "ladon_status" ("Read local Ladon lock/session status without opening a prompt. If locked, " ++
      "call ladon_list_secrets or ladon_run to request local unlock; do not ask the user to unlock " ++
      "separately. No secret values are returned.")
      [("destructiveHint", .bool false), ("readOnlyHint", .bool true)] emptySchema,
    tool "ladon_list_secrets" ("List secret names, IDs, and field names only. If Ladon is locked, " ++
      "opens its local unlock prompt and waits; do not ask the user to unlock separately or paste " ++
      "secrets. On IPC/protocol errors, follow the returned recovery guidance; never stop, restart " ++
      "or replace the shared Ladon app.")
      [("destructiveHint", .bool false), ("readOnlyHint", .bool true)] emptySchema,
    tool "ladon_lock" "Lock the local Ladon vault and cancel any active secret-bearing run."
      [("destructiveHint", .bool true), ("idempotentHint", .bool true),
        ("readOnlyHint", .bool false)] emptySchema,
    tool "ladon_identify_session" ("Set a short non-secret reported name for this MCP process, such " ++
      "as 'Codex — deploy payments'. Call once before the first secret-bearing run when a useful " ++
      "task name is known.")
      [("destructiveHint", .bool false), ("readOnlyHint", .bool false)]
      (objectSchema [("display_name", nameSchema)] ["display_name"]),
    tool "ladon_run" ("Run a local non-interactive program with named secret fields injected via " ++
      "environment, stdin, or a temporary file. Pass references only; never pass a secret value. A " ++
      "locked desktop opens a local unlock prompt and waits, then asks for command approval; do not " ++
      "ask the user to unlock separately. The command may modify external state. On IPC/protocol " ++
      "errors, follow the returned recovery guidance; never stop, restart or replace the shared " ++
      "Ladon app or automatically repeat a run with an unknown outcome.")
      [("destructiveHint", .bool true), ("readOnlyHint", .bool false)] runSchema]

/-! ### What lies outside -/

/-- The world that the server acts in: every answer may depend on all that came before. -/
structure Outside (World Lease : Type) where
  openSession : Uuid → String → World → Except LadonError Lease × World
  isConnected : Lease → World → Bool × World
  call : RpcRequest → World → Except LadonError RpcResponse × World
  newUuid : World → Uuid × World
  system : World → System
  /-- Whether the output takes what is written to it. -/
  write : Bytes → World → Bool × World

/-- What the server does to the connection, with the answer. -/
inductive Act (Lease : Type)
  | opens (client : Uuid) (label : String) (result : Except LadonError Lease)
  | checks (lease : Lease) (connected : Bool)
  | calls (request : RpcRequest) (result : Except LadonError RpcResponse)

/-- The session and the world, with what has been done for the message in hand. -/
structure State (World Lease : Type) where
  session : McpSession Lease
  world : World
  acts : List (Act Lease)

section Messages

variable {World Lease : Type} (outside : Outside World Lease)

def openSession (s : State World Lease) : Except LadonError Unit × State World Lease :=
  let (result, world) := outside.openSession s.session.id s.session.label s.world
  let acts := s.acts ++ [.opens s.session.id s.session.label result]
  match result with
  | .ok lease => (.ok (), ⟨{ s.session with lifetime := some lease }, world, acts⟩)
  | .error e => (.error e, ⟨s.session, world, acts⟩)

/-- Drops the lease where its connection is gone. -/
def checkLease (s : State World Lease) : State World Lease :=
  match s.session.lifetime with
  | none => s
  | some lease =>
    let (connected, world) := outside.isConnected lease s.world
    let acts := s.acts ++ [.checks lease connected]
    if connected then ⟨s.session, world, acts⟩
    else ⟨{ s.session with lifetime := none }, world, acts⟩

/-- Runs and lists need a session. -/
def needsSession : RpcMethod → Bool
  | .run _ => true
  | .list => true
  | _ => false

def openFirst (method : RpcMethod) (s : State World Lease) :
    Except LadonError Unit × State World Lease :=
  if needsSession method then
    let s := checkLease outside s
    if s.session.lifetime.isNone then openSession outside s else (.ok (), s)
  else (.ok (), s)

def callTransport (method : RpcMethod) (s : State World Lease) :
    Except LadonError RpcResponse × State World Lease :=
  let (requestId, world) := outside.newUuid s.world
  let request : RpcRequest := ⟨protocolVersion, requestId, s.session.id, s.session.label, method⟩
  let (result, world) := outside.call request world
  (result, ⟨s.session, world, s.acts ++ [.calls request result]⟩)

def phaseOf : RpcMethod → LocalCallPhase
  | .run _ => .run
  | _ => .request

/-- The answer to a call, for the agent. -/
def replyTo (id : Document) (phase : LocalCallPhase) :
    Except LadonError RpcResponse → Document
  | .error e => localToolError id e.code phase
  | .ok response =>
    match response.outcome with
    | .failure error => localToolError id error.code phase
    | .success result =>
      let structured := Serde.ordered result.document
      toolResult id false (.str (render structured)) structured

/-- Admission, then the call. -/
def submit (id : Document) (method : RpcMethod) (s : State World Lease) :
    Document × State World Lease :=
  match openFirst outside method s with
  | (.error e, s) => (localToolError id e.code .sessionOpen, s)
  | (.ok (), s) =>
    let (result, s) := callTransport outside method s
    (replyTo id (phaseOf method) result, s)

def identifySession (id arguments : Document) (s : State World Lease) :
    Document × State World Lease :=
  match (do (← (← slots true ["display_name"] arguments).head?) |> required Serde.string) with
  | none => (toolError id "invalid_request" "invalid request", s)
  | some displayName =>
    match s.session.identify displayName with
    | (.ok (), session) =>
      (toolResult id false (string "session name recorded") (object [("identified", .bool true)]),
        { s with session := session })
    | (.error e, _) => (toolError id e.code e.safeMessage, s)

def emptyObject : Document → Bool
  | .obj [] => true
  | _ => false

def get (key : String) : Document → Option Document
  | .obj members => lookup key members
  | _ => none

variable [UnicodeNormalization]

/-- What a tool asks of the application. -/
def toolMethod (system : System) (name : String) (arguments : Document) :
    Except LadonError RpcMethod :=
  if name = "ladon_status" ∧ emptyObject arguments then .ok .status
  else if name = "ladon_list_secrets" ∧ emptyObject arguments then .ok .list
  else if name = "ladon_lock" ∧ emptyObject arguments then .ok .lock
  else if name = "ladon_run" then parseMcpRun system arguments
  else .error .invalidRequest

def callTool (id : Document) (params : Option Document) (s : State World Lease) :
    Document × State World Lease :=
  match params with
  | none => (jsonrpcError id (-32602) "invalid params", s)
  | some params =>
    match get "name" params >>= Serde.string with
    | none => (jsonrpcError id (-32602) "invalid params", s)
    | some name =>
      let arguments := (get "arguments" params).getD (.obj [])
      if name = "ladon_identify_session" then identifySession id arguments s
      else match toolMethod (outside.system s.world) name arguments with
        | .error e => (toolError id e.code e.safeMessage, s)
        | .ok method => submit outside id method s

def initializeResult : Document :=
  object [("capabilities", object [("tools", object [("listChanged", .bool false)])]),
    ("instructions", string ("Use named secret references with Ladon tools. Never ask the user to " ++
      "paste a secret value. When useful, call ladon_identify_session once with a short non-secret " ++
      "task name before a secret-bearing run.")),
    ("protocolVersion", string mcpLegacyVersion),
    ("serverInfo", object [("name", string "ladon"), ("version", string packageVersion)])]

def discoverResult : Document :=
  object [("capabilities", object [("tools", object [])]),
    ("instructions", string ("Use named secret references with Ladon tools. Never ask the user to " ++
      "paste a secret value.")),
    ("resultType", string "complete"),
    ("serverInfo", object [("name", string "ladon"), ("version", string packageVersion)]),
    ("supportedVersions", .arr [string mcpModernVersion, string mcpLegacyVersion])]

/-- The name that a client introduces itself with. -/
def clientName (request : Document) : Option String :=
  get "params" request >>= get "clientInfo" >>= get "name" >>= Serde.string

def dispatch (request id : Document) (method : String) (s : State World Lease) :
    Document × State World Lease :=
  if method = "initialize" then
    let session := match clientName request with
      | some name => s.session.recordInitializedName name
      | none => s.session
    (jsonrpcResult id initializeResult, { s with session := session })
  else if method = "server/discover" then (jsonrpcResult id discoverResult, s)
  else if method = "ping" then (jsonrpcResult id (object []), s)
  else if method = "tools/list" then (jsonrpcResult id (object [("tools", tools)]), s)
  else if method = "tools/call" then callTool outside id (get "params" request) s
  else (jsonrpcError id (-32601) "method not found", s)

def invalidJson : Document := jsonrpcError .null (-32700) "invalid JSON"

/-- A message that has been read. -/
def handleRequest (request : Document) (s : State World Lease) :
    Option Document × State World Lease :=
  let id := get "id" request
  let invalid := id.map fun id => jsonrpcError id (-32600) "invalid request"
  match get "method" request >>= Serde.string with
  | none => (invalid, s)
  | some method =>
    if get "jsonrpc" request >>= Serde.string ≠ some "2.0" then (invalid, s)
    else match id with
      | none => (none, s)
      | some id =>
        let (reply, s) := dispatch outside request id method s
        (some reply, s)

def handleMessage [Doubles] (input : Bytes) (s : State World Lease) :
    Option Document × State World Lease :=
  match validateJsonDocument input with
  | .error _ => (some invalidJson, s)
  | .ok () =>
    match Json.parse input with
    | none => (some invalidJson, s)
    | some d => handleRequest outside (Serde.ordered d) s

/-! ### The loop -/

/-- A line, with the byte that ends it; of a line that is too long, one byte too many. -/
def nextLine (input : Bytes) : Bytes :=
  let window := input.take (maxFrameBytes + 1)
  if 0x0A ∈ window then window.takeWhile (· ≠ 0x0A) ++ [0x0A] else window

def trimLineEnd (line : Bytes) : Bytes := line.rdropWhile fun b => b == 0x0D || b == 0x0A

/-- What became of a line: the state before it and after it, and the reply. -/
structure Turn (World Lease : Type) where
  line : Bytes
  before : State World Lease
  reply : Option Document
  after : State World Lease

variable [Doubles]

def takeTurn (line : Bytes) (session : McpSession Lease) (world : World) : Turn World Lease :=
  let before : State World Lease := ⟨session, world, []⟩
  if trimLineEnd line = [] then ⟨line, before, none, before⟩
  else
    let (reply, after) := handleMessage outside (trimLineEnd line) before
    ⟨line, before, reply, after⟩

/-- The line of a reply. -/
def outputLine (reply : Document) : Bytes := render reply ++ [0x0A]

/-- What a turn writes. -/
def Turn.output (t : Turn World Lease) : Bytes :=
  match t.reply with
  | none => []
  | some reply => outputLine reply

def Turn.write (t : Turn World Lease) : Bool × World :=
  match t.reply with
  | none => (true, t.after.world)
  | some reply => outside.write (outputLine reply) t.after.world

omit [UnicodeNormalization] [Doubles] in
lemma length_drop_nextLine {input : Bytes} (h : nextLine input ≠ []) :
    (input.drop (nextLine input).length).length < input.length := by
  have hpos := List.length_pos_iff.mpr h
  have hinput : input ≠ [] := by
    rintro rfl
    exact h rfl
  have hlen := List.length_pos_iff.mpr hinput
  rw [List.length_drop]
  omega

def serve (input : Bytes) (session : McpSession Lease) (world : World) :
    Except LadonError Unit × List (Turn World Lease) :=
  let line := nextLine input
  if line = [] then (.ok (), [])
  else if toString? line = none then (.error .invalidFrame, [])
  else if maxFrameBytes < line.length then (.error .frameTooLarge, [])
  else
    let turn := takeTurn outside line session world
    match turn.write outside with
    | (false, _) => (.error .invalidRequest, [turn])
    | (true, world) =>
      let (result, turns) := serve (input.drop line.length) turn.after.session world
      (result, turn :: turns)
  termination_by input.length
  decreasing_by exact length_drop_nextLine (by assumption)

def serveMcp (input : Bytes) (world : World) : Except LadonError Unit × List (Turn World Lease) :=
  let (id, world) := outside.newUuid world
  serve outside input (.new id) world

end Messages

end Ladon.Mcp

import Ladon.Lib.Cbor
import Ladon.Lib.Json
import Ladon.Runner

/-!
The local protocol: requests, responses, and the frames that carry them.

A frame is the length of a JSON text in four bytes, then the text. The text of a response is
computed exactly, so that one can say which responses a frame has room for.
-/

namespace Ladon.Protocol

open Ladon.Error Ladon.Runner Ladon.Lib Ladon.Lib.Utf8 Ladon.Lib.Digits Ladon.Lib.Word
open Ladon.Lib.Json (Document render quoted cost)

def maxFrameBytes : ℕ := 4 * 1024 * 1024
def protocolVersion : ℕ := 2
def maxClientLabelBytes : ℕ := 64

inductive RpcMethod
  | sessionOpen
  | status
  | list
  | lock
  | run (request : RunRequest)

structure RpcRequest where
  version : ℕ
  requestId : Uuid
  clientSessionId : Uuid
  clientLabel : String
  method : RpcMethod

structure SecretFieldSummary where
  name : String
  text : Bool

structure SecretSummary where
  id : Uuid
  name : String
  fields : List SecretFieldSummary

/-- What a request is answered with; texts of a run are their UTF-8 bytes. -/
inductive RpcResult
  | sessionOpened
  | status (state : String) (idleRemainingMs : Option ℕ)
  | list (secrets : List SecretSummary)
  | locked
  | run (exitCode : Option ℤ) (termination : String) (stdout stderr : Bytes)
      (durationMs redactionCount : ℕ) (outputTruncated tempCleanupWarning : Bool)

structure RpcErrorBody where
  code : String
  message : String

inductive RpcOutcome
  | success (result : RpcResult)
  | failure (error : RpcErrorBody)

structure RpcResponse where
  version : ℕ
  requestId : Uuid
  outcome : RpcOutcome

def RpcResponse.success (requestId : Uuid) (result : RpcResult) : RpcResponse :=
  ⟨protocolVersion, requestId, .success result⟩

def RpcResponse.error (requestId : Uuid) (error : LadonError) : RpcResponse :=
  ⟨protocolVersion, requestId, .failure ⟨error.code, error.safeMessage⟩⟩

/-! ### Checks on a request -/

def validatePath (path : String) : Bool :=
  path ≠ "" && (ofString path).length ≤ maxPathBytes && !hasNul path

/-- What the broker checks of a request it has read, before it handles it. -/
def validateRequest (request : RpcRequest) : Except LadonError Unit :=
  if request.version ≠ protocolVersion then .error .unsupportedProtocolVersion
  else if request.clientLabel = "" ∨ maxClientLabelBytes < (ofString request.clientLabel).length ∨
      hasNul request.clientLabel then .error .invalidRequest
  else match request.method with
    | .run r =>
      if ¬ validatePath r.executable ∨ ¬ validatePath r.workingDirectory ∨
          maxArguments < r.arguments.length ∨ r.arguments.any hasNul ∨
          ¬ (argumentBytes r.arguments).any (· ≤ maxArgumentBytes) then .error .invalidRequest
      else .ok ()
    | _ => .ok ()

/-! ### The text of a response -/

def string (s : String) : Document := .str (ofString s)

def optional {α : Type} (f : α → Document) : Option α → Document
  | none => .null
  | some a => f a

def object (members : List (String × Document)) : Document :=
  .obj (members.map fun m => (ofString m.1, m.2))

def SecretFieldSummary.document (f : SecretFieldSummary) : Document :=
  object [("name", string f.name), ("text", .bool f.text)]

def SecretSummary.document (s : SecretSummary) : Document :=
  object [("id", .str s.id.display), ("name", string s.name),
    ("fields", .arr (s.fields.map SecretFieldSummary.document))]

def RpcResult.document : RpcResult → Document
  | .sessionOpened => object [("type", string "session_opened")]
  | .status state idleRemainingMs =>
    object [("type", string "status"), ("state", string state),
      ("idle_remaining_ms", optional (fun n : ℕ => .num n) idleRemainingMs)]
  | .list secrets =>
    object [("type", string "list"), ("secrets", .arr (secrets.map SecretSummary.document))]
  | .locked => object [("type", string "locked")]
  | .run exitCode termination stdout stderr durationMs redactionCount outputTruncated
      tempCleanupWarning =>
    object [("type", string "run"), ("exit_code", optional .num exitCode),
      ("termination", string termination), ("stdout", .str stdout), ("stderr", .str stderr),
      ("duration_ms", .num durationMs), ("redaction_count", .num redactionCount),
      ("output_truncated", .bool outputTruncated),
      ("temp_cleanup_warning", .bool tempCleanupWarning)]

def RpcOutcome.member : RpcOutcome → String × Document
  | .success result => ("result", result.document)
  | .failure error =>
    ("error", object [("code", string error.code), ("message", string error.message)])

def RpcResponse.document (r : RpcResponse) : Document :=
  object [("version", .num r.version), ("request_id", .str r.requestId.display), r.outcome.member]

/-! ### Frames -/

def encodeFrame (value : Document) : Except LadonError Bytes :=
  let json := render value
  if json = [] then .error .invalidFrame
  else if maxFrameBytes < json.length then .error .frameTooLarge
  else .ok (Cbor.be 4 json.length ++ json)

def encodeResponseFrame (response : RpcResponse) : Except LadonError Bytes :=
  encodeFrame response.document

lemma encodeFrame_ok_iff (value : Document) :
    (∃ frame, encodeFrame value = .ok frame) ↔
      render value ≠ [] ∧ (render value).length ≤ maxFrameBytes := by
  unfold encodeFrame
  dsimp only
  split_ifs with h1 h2
  · simp [h1]
  · simpa [h1] using h2
  · simpa [h1] using h2

/-! ### The length of a response -/

lemma length_render_string (s : String) :
    (render (string s)).length = cost (ofString s) + 2 := Json.length_render_str _

lemma length_render_object (members : List (String × Document)) :
    (render (object members)).length =
      (members.map fun m => cost (ofString m.1) + 3 + (render m.2).length).sum +
        (members.length - 1) + 2 := by
  rw [object, Json.length_render_obj, List.map_map, List.length_map]
  rfl

/-- An identifier is written as it is. -/
lemma cost_display (u : Uuid) : cost u.display = 36 := by
  have hdigit : ∀ n < 16, Json.byteCost (hexDigit false n) = 1 := by decide
  have hbyte : ∀ b, cost (hexByte false b) = 2 := by
    intro b
    have hb := b.toNat_lt
    simp only [hexByte, Json.cost_cons, Json.cost_nil, hdigit _ (show b.toNat / 16 < 16 by omega),
      hdigit _ (show b.toNat % 16 < 16 by omega)]
  have hflat : ∀ w : Bytes, cost (w.flatMap (hexByte false)) = 2 * w.length := by
    intro w
    induction w with
    | nil => rfl
    | cons b t ih => rw [List.flatMap_cons, Json.cost_append, hbyte, ih, List.length_cons]; omega
  have hhyphen : cost [0x2D] = 1 := by decide
  simp only [Uuid.display, Json.cost_append, hflat, hhyphen, List.length_take, List.length_drop,
    u.length_eq]
  decide

lemma length_member (m : String × Document) (r : RpcResponse) (hm : r.outcome.member = m)
    (hv : r.version = protocolVersion) :
    (render r.document).length = 66 + cost (ofString m.1) + 3 + (render m.2).length := by
  have hnum : (render (.num (protocolVersion : ℕ))).length = 1 := by
    rw [Json.length_render_nat]; decide
  have h1 : cost (ofString "version") = 7 := by decide
  have h2 : cost (ofString "request_id") = 10 := by decide
  simp only [RpcResponse.document, length_render_object, hm, hv, hnum, h1, h2, cost_display,
    Json.length_render_str, List.map_cons, List.map_nil, List.sum_cons, List.sum_nil,
    List.length_cons, List.length_nil]
  omega

lemma length_success (requestId : Uuid) (result : RpcResult) :
    (render (RpcResponse.success requestId result).document).length =
      75 + (render result.document).length := by
  have h : cost (ofString "result") = 6 := by decide
  rw [length_member _ (RpcResponse.success requestId result) rfl rfl]
  simp only [RpcOutcome.member, RpcResponse.success, h]

/-- The length of an exit code. -/
def exitCodeBytes : Option ℤ → ℕ
  | none => 4
  | some n => (Json.integer n).length

def boolBytes (b : Bool) : ℕ := if b then 4 else 5

lemma length_run (exitCode : Option ℤ) (termination : String) (stdout stderr : Bytes)
    (durationMs redactionCount : ℕ) (outputTruncated tempCleanupWarning : Bool) :
    (render (RpcResult.run exitCode termination stdout stderr durationMs redactionCount
      outputTruncated tempCleanupWarning).document).length =
      146 + exitCodeBytes exitCode + cost (ofString termination) + cost stdout + cost stderr +
        (decimal durationMs).length + (decimal redactionCount).length +
        boolBytes outputTruncated + boolBytes tempCleanupWarning := by
  have h1 : cost (ofString "type") = 4 := by decide
  have h2 : cost (ofString "run") = 3 := by decide
  have h3 : cost (ofString "exit_code") = 9 := by decide
  have h4 : cost (ofString "termination") = 11 := by decide
  have h5 : cost (ofString "stdout") = 6 := by decide
  have h6 : cost (ofString "stderr") = 6 := by decide
  have h7 : cost (ofString "duration_ms") = 11 := by decide
  have h8 : cost (ofString "redaction_count") = 15 := by decide
  have h9 : cost (ofString "output_truncated") = 16 := by decide
  have h10 : cost (ofString "temp_cleanup_warning") = 20 := by decide
  have hcode : (render (optional .num exitCode)).length = exitCodeBytes exitCode := by
    cases exitCode with
    | none => exact Json.length_render_null
    | some n => rw [optional, exitCodeBytes, Json.render]
  simp only [RpcResult.document, length_render_object, List.map_cons, List.map_nil, List.sum_cons,
    List.sum_nil, List.length_cons, List.length_nil, length_render_string, Json.length_render_str,
    Json.length_render_nat, Json.length_render_bool, hcode, h1, h2, h3, h4, h5, h6, h7, h8, h9, h10,
    boolBytes]
  omega

/-- The bytes of a summary in a list, with the comma behind it. -/
def summaryBytes (s : SecretSummary) : ℕ :=
  67 + cost (ofString s.name) +
    (s.fields.map fun f => cost (ofString f.name) + 20 + boolBytes f.text).sum

lemma length_fieldSummary (f : SecretFieldSummary) :
    (render f.document).length = cost (ofString f.name) + 19 + boolBytes f.text := by
  have h1 : cost (ofString "name") = 4 := by decide
  have h2 : cost (ofString "text") = 4 := by decide
  simp only [SecretFieldSummary.document, length_render_object, List.map_cons, List.map_nil,
    List.sum_cons, List.sum_nil, List.length_cons, List.length_nil, length_render_string,
    Json.length_render_bool, h1, h2, boolBytes]
  omega

/-- What is added to every element of a sum. -/
lemma sum_map_succ {α : Type} (f : α → ℕ) (l : List α) :
    (l.map fun a => f a + 1).sum = (l.map f).sum + l.length := by
  induction l with
  | nil => rfl
  | cons a t ih => simp only [List.map_cons, List.sum_cons, List.length_cons, ih]; omega

lemma length_summary (s : SecretSummary) (h : s.fields ≠ []) :
    (render s.document).length + 1 = summaryBytes s := by
  have h1 : cost (ofString "id") = 2 := by decide
  have h2 : cost (ofString "name") = 4 := by decide
  have h3 : cost (ofString "fields") = 6 := by decide
  have hpos := List.length_pos_iff.mpr h
  have hsum := sum_map_succ (fun f : SecretFieldSummary => (render f.document).length) s.fields
  simp only [length_fieldSummary] at hsum
  have hf : (s.fields.map fun f => cost (ofString f.name) + 20 + boolBytes f.text) =
      s.fields.map fun f => cost (ofString f.name) + 19 + boolBytes f.text + 1 := by
    refine List.map_congr_left fun f _ => ?_
    omega
  simp only [SecretSummary.document, length_render_object, List.map_cons, List.map_nil,
    List.sum_cons, List.sum_nil, List.length_cons, List.length_nil, length_render_string,
    Json.length_render_str, Json.length_render_arr, List.map_map, Function.comp_def,
    length_fieldSummary, List.length_map, cost_display, h1, h2, h3, summaryBytes, hf, hsum]
  omega

lemma length_list (secrets : List SecretSummary) (h : ∀ s ∈ secrets, s.fields ≠ []) :
    (render (RpcResult.list secrets).document).length =
      28 + ((secrets.map summaryBytes).sum - 1) := by
  have h1 : cost (ofString "type") = 4 := by decide
  have h2 : cost (ofString "list") = 4 := by decide
  have h3 : cost (ofString "secrets") = 7 := by decide
  have hsum := sum_map_succ (fun s : SecretSummary => (render s.document).length) secrets
  have hbytes : secrets.map summaryBytes = secrets.map fun s => (render s.document).length + 1 :=
    List.map_congr_left fun s hs => (length_summary s (h s hs)).symm
  simp only [RpcResult.document, length_render_object, List.map_cons, List.map_nil,
    List.sum_cons, List.sum_nil, List.length_cons, List.length_nil, length_render_string,
    Json.length_render_arr, List.map_map, Function.comp_def, List.length_map, h1, h2, h3, hbytes,
    hsum]
  cases secrets with
  | nil => rfl
  | cons s t => simp only [List.map_cons, List.sum_cons, List.length_cons]; omega

/-! ### Which responses a frame has room for -/

lemma render_ne_nil (r : RpcResponse) : render r.document ≠ [] := by
  rw [RpcResponse.document, object, render]
  simp

lemma encodeResponseFrame_ok_iff (r : RpcResponse) :
    (∃ frame, encodeResponseFrame r = .ok frame) ↔ (render r.document).length ≤ maxFrameBytes := by
  rw [encodeResponseFrame, encodeFrame_ok_iff]
  exact and_iff_right (render_ne_nil r)

lemma cost_code_le (e : LadonError) : cost (ofString e.code) ≤ 64 := by cases e <;> decide

lemma cost_safeMessage_le (e : LadonError) : cost (ofString e.safeMessage) ≤ 128 := by
  cases e <;> decide

/-- An error always fits. -/
lemma encodeResponseFrame_error (requestId : Uuid) (e : LadonError) :
    ∃ frame, encodeResponseFrame (RpcResponse.error requestId e) = .ok frame := by
  have h1 : cost (ofString "error") = 5 := by decide
  have h2 : cost (ofString "code") = 4 := by decide
  have h3 : cost (ofString "message") = 7 := by decide
  have hc := cost_code_le e
  have hm := cost_safeMessage_le e
  rw [encodeResponseFrame_ok_iff, length_member _ (RpcResponse.error requestId e) rfl rfl]
  simp only [RpcOutcome.member, RpcResponse.error, length_render_object, List.map_cons,
    List.map_nil, List.sum_cons, List.sum_nil, List.length_cons, List.length_nil,
    length_render_string, h1, h2, h3, maxFrameBytes]
  omega

end Ladon.Protocol

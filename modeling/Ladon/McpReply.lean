import Ladon.Mcp

/-!
Replies: each carries the identifier of its message, and none has an end of line inside.
-/

namespace Ladon.Mcp

open Ladon.Error Ladon.Model Ladon.Runner Ladon.Protocol Ladon.Commands Ladon.Lib Ladon.Lib.Utf8
open Ladon.Lib.Json (Document render Doubles Graphic)
open Ladon.Lib.Serde (lookup slots required)

variable {World Lease : Type} {outside : Outside World Lease}

/-! ### Replies -/

@[simp] lemma get_jsonrpcResult (id result : Document) :
    get "id" (jsonrpcResult id result) = some id := by
  simp [get, jsonrpcResult, object]

@[simp] lemma get_jsonrpcError (id : Document) (code : ℤ) (message : String) :
    get "id" (jsonrpcError id code message) = some id := by
  simp [get, jsonrpcError, object]

/-- A reply with the identifier of its message, and on one line. -/
structure Echoes (id reply : Document) : Prop where
  echo : get "id" reply = some id
  graphic : Graphic id → Graphic reply

lemma graphic_object {members : List (String × Document)} (h : ∀ m ∈ members, Graphic m.2) :
    Graphic (object members) := by
  refine .obj fun m hm => ?_
  obtain ⟨e, he, rfl⟩ := List.mem_map.mp hm
  exact h e he

lemma graphic_string (s : String) : Graphic (string s) := .str _

lemma echoes_result {id result : Document} (h : Graphic result) :
    Echoes id (jsonrpcResult id result) where
  echo := get_jsonrpcResult id result
  graphic := fun hid => graphic_object (by simp [hid, h, graphic_string])

lemma echoes_error (id : Document) (code : ℤ) (message : String) :
    Echoes id (jsonrpcError id code message) where
  echo := get_jsonrpcError id code message
  graphic := fun hid => by
    have herror : Graphic (object [("code", .num code), ("message", string message)]) :=
      graphic_object (by simp [graphic_string, Graphic.num])
    exact graphic_object (by simp [hid, herror, graphic_string])

lemma echoes_toolResult {id text structured : Document} (isError : Bool) (htext : Graphic text)
    (h : Graphic structured) : Echoes id (toolResult id isError text structured) := by
  have hcontent : Graphic (object [("text", text), ("type", string "text")]) :=
    graphic_object (by simp [htext, graphic_string])
  refine echoes_result (graphic_object ?_)
  simp only [List.forall_mem_cons]
  exact ⟨.arr (by simpa using hcontent), .bool _, h, by simp⟩

lemma echoes_toolError (id : Document) (code message : String) :
    Echoes id (toolError id code message) :=
  echoes_toolResult true (.str _) (graphic_object (by simp [graphic_string]))

lemma echoes_localToolError (id : Document) (code : String) (phase : LocalCallPhase) :
    Echoes id (localToolError id code phase) := by
  unfold localToolError
  dsimp only
  split
  · exact echoes_toolError _ _ _
  · have hrecovery : Graphic (object [("action", string "ask_user"),
        ("automatic_retry", .bool false), ("manage_shared_app", .bool false)]) :=
      graphic_object (by simp [graphic_string, Graphic.bool])
    exact echoes_toolResult true (.str _) (graphic_object (by simp [graphic_string, hrecovery]))

lemma graphic_summary (s : SecretSummary) : Graphic s.document := by
  have hfield : ∀ f : SecretFieldSummary, Graphic f.document := fun f =>
    graphic_object (by simp [graphic_string, Graphic.bool])
  refine graphic_object ?_
  simp only [List.forall_mem_cons]
  exact ⟨.str _, graphic_string _, .arr (by simpa using fun f _ => hfield f), by simp⟩

lemma graphic_optional {α : Type} {write : α → Document} (h : ∀ a, Graphic (write a))
    (o : Option α) : Graphic (optional write o) := by
  cases o with
  | none => exact .null
  | some a => exact h a

lemma graphic_result (r : RpcResult) : Graphic r.document := by
  cases r with
  | sessionOpened => exact graphic_object (by simp [graphic_string])
  | locked => exact graphic_object (by simp [graphic_string])
  | list secrets =>
    have hsecrets : Graphic (.arr (secrets.map SecretSummary.document)) :=
      .arr (by simpa using fun s _ => graphic_summary s)
    exact graphic_object (by simp [graphic_string, hsecrets])
  | status state idleRemainingMs =>
    have hidle := graphic_optional (fun n : ℕ => Graphic.num n) idleRemainingMs
    exact graphic_object (by simp [graphic_string, hidle])
  | run exitCode termination stdout stderr durationMs redactionCount outputTruncated
      tempCleanupWarning =>
    have hexit := graphic_optional Graphic.num exitCode
    exact graphic_object (by
      simp [graphic_string, hexit, Graphic.str, Graphic.num, Graphic.bool])

lemma echoes_replyTo (id : Document) (phase : LocalCallPhase)
    (result : Except LadonError RpcResponse) : Echoes id (replyTo id phase result) := by
  unfold replyTo
  split
  · exact echoes_localToolError _ _ _
  · split
    · exact echoes_localToolError _ _ _
    · exact echoes_toolResult false (.str _) (Serde.graphic_ordered (graphic_result _))

lemma graphic_schema {properties : List (String × Document)} (h : ∀ m ∈ properties, Graphic m.2)
    (needed : List String) : Graphic (objectSchema properties needed) := by
  have hneeded : Graphic (.arr (needed.map string)) := .arr (by simp [graphic_string])
  exact graphic_object (by simp [graphic_string, Graphic.bool, graphic_object h, hneeded])

lemma graphic_textSchema (description : String) : Graphic (textSchema description) :=
  graphic_object (by simp [graphic_string])

lemma graphic_plainText : Graphic plainText := graphic_object (by simp [graphic_string])

lemma graphic_arraySchema {items : Document} (h : Graphic items) (maxItems : ℕ) :
    Graphic (arraySchema items maxItems) :=
  graphic_object (by simp [graphic_string, Graphic.num, h])

lemma graphic_bindingSchema : Graphic bindingSchema := by
  have hfield : Graphic (object [("default", string "value"), ("type", string "string")]) :=
    graphic_object (by simp [graphic_string])
  have henum : Graphic (.arr [string "environment", string "standard_input",
      string "temporary_file_environment"]) := .arr (by simp [graphic_string])
  have htarget : Graphic (object [("enum", .arr [string "environment", string "standard_input",
      string "temporary_file_environment"]), ("type", string "string")]) :=
    graphic_object (by simp [graphic_string, henum])
  exact graphic_schema (by simp [graphic_textSchema, hfield, htarget]) _

lemma graphic_runSchema : Graphic runSchema := by
  have hinteger : ∀ a b c, Graphic (integerSchema a b c) := fun a b c =>
    graphic_object (by simp [graphic_string, Graphic.num])
  exact graphic_schema (by
    simp [graphic_textSchema, graphic_plainText, graphic_arraySchema, graphic_bindingSchema,
      hinteger]) _

lemma graphic_tool (name description : String) {hints : List (String × Document)}
    {inputSchema : Document} (hhints : ∀ m ∈ hints, Graphic m.2) (h : Graphic inputSchema) :
    Graphic (tool name description hints inputSchema) :=
  graphic_object (by simp [graphic_string, graphic_object hhints, h])

lemma graphic_tools : Graphic tools := by
  have hempty : Graphic emptySchema := by
    have hnone : Graphic (object []) := graphic_object (by simp)
    exact graphic_object (by simp [graphic_string, Graphic.bool, hnone])
  have hname : Graphic nameSchema := graphic_object (by simp [graphic_string, Graphic.num])
  refine .arr ?_
  simp only [List.forall_mem_cons]
  refine ⟨?_, ?_, ?_, ?_, ?_, by simp⟩
  · exact graphic_tool _ _ (by simp [Graphic.bool]) hempty
  · exact graphic_tool _ _ (by simp [Graphic.bool]) hempty
  · exact graphic_tool _ _ (by simp [Graphic.bool]) hempty
  · exact graphic_tool _ _ (by simp [Graphic.bool]) (graphic_schema (by simpa using hname) _)
  · exact graphic_tool _ _ (by simp [Graphic.bool]) graphic_runSchema

lemma graphic_serverInfo :
    Graphic (object [("name", string "ladon"), ("version", string packageVersion)]) :=
  graphic_object (by simp [graphic_string])

lemma graphic_initializeResult : Graphic initializeResult := by
  have hlist : Graphic (object [("listChanged", .bool false)]) :=
    graphic_object (by simp [Graphic.bool])
  have htools : Graphic (object [("tools", object [("listChanged", .bool false)])]) :=
    graphic_object (by simpa using hlist)
  exact graphic_object (by simp [graphic_string, htools, graphic_serverInfo])

lemma graphic_discoverResult : Graphic discoverResult := by
  have hnone : Graphic (object []) := graphic_object (by simp)
  have htools : Graphic (object [("tools", object [])]) := graphic_object (by simpa using hnone)
  have hversions : Graphic (.arr [string mcpModernVersion, string mcpLegacyVersion]) :=
    .arr (by simp [graphic_string])
  exact graphic_object (by simp [graphic_string, htools, graphic_serverInfo, hversions])

lemma echoes_identifySession (id arguments : Document) (s : State World Lease) :
    Echoes id (identifySession id arguments s).1 := by
  unfold identifySession
  split
  · exact echoes_toolError _ _ _
  · split
    · exact echoes_toolResult false (graphic_string _) (graphic_object (by simp [Graphic.bool]))
    · exact echoes_toolError _ _ _

lemma echoes_submit (id : Document) (method : RpcMethod) (s : State World Lease) :
    Echoes id (submit outside id method s).1 := by
  unfold submit
  split
  · exact echoes_localToolError _ _ _
  · exact echoes_replyTo _ _ _

section Messages

variable [UnicodeNormalization]

lemma echoes_callTool (id : Document) (params : Option Document) (s : State World Lease) :
    Echoes id (callTool outside id params s).1 := by
  unfold callTool
  split
  · exact echoes_error _ _ _
  · split
    · exact echoes_error _ _ _
    · dsimp only
      split
      · exact echoes_identifySession _ _ _
      · split
        · exact echoes_toolError _ _ _
        · exact echoes_submit _ _ _

lemma echoes_dispatch (request id : Document) (method : String) (s : State World Lease) :
    Echoes id (dispatch outside request id method s).1 := by
  unfold dispatch
  split
  · exact echoes_result graphic_initializeResult
  · split
    · exact echoes_result graphic_discoverResult
    · split
      · exact echoes_result (graphic_object (by simp))
      · split
        · exact echoes_result (graphic_object (by simpa using graphic_tools))
        · split
          · exact echoes_callTool _ _ _
          · exact echoes_error _ _ _

lemma handleRequest_reply (request : Document) (s : State World Lease) :
    Option.Rel Echoes (get "id" request) (handleRequest outside request s).1 := by
  unfold handleRequest
  dsimp only
  cases get "id" request with
  | none =>
    split
    · exact .none
    · split <;> exact .none
  | some id =>
    split
    · exact .some (echoes_error _ _ _)
    · split
      · exact .some (echoes_error _ _ _)
      · exact .some (echoes_dispatch _ _ _ _)

/-- Without an identifier there is nothing to do. -/
lemma handleRequest_anonymous {request : Document} (h : get "id" request = none)
    (s : State World Lease) : (handleRequest outside request s).2 = s := by
  unfold handleRequest
  dsimp only
  rw [h]
  split
  · rfl
  · split <;> rfl

end Messages

end Ladon.Mcp

import Ladon.Mcp
import Ladon.RunnerSpec
import Mathlib.Algebra.Order.BigOperators.Group.List
import Mathlib.Algebra.Group.Action.Defs

/-!
Client and server agree: a request that a client makes fits a frame, is read back as it was made, and
passes the checks of the server.

The checks of the client bound every text of a run. Written down, a byte takes six bytes at most. The
only text that is checked in another form than it is sent in is the reference to a secret, which is
normalized first.
-/

namespace Ladon.Protocol

open Ladon.Error Ladon.Model Ladon.Redact Ladon.Runner Ladon.Commands Ladon.Lib Ladon.Lib.Utf8
  Ladon.Lib.Digits Ladon.Lib.Word
open Ladon.Lib.Json (Document render cost)

/-! ### Sizes -/

lemma byteCost_le (b : UInt8) : Json.byteCost b ≤ 6 := by
  unfold Json.byteCost
  split
  · omega
  · split <;> omega

lemma cost_le (s : Bytes) : cost s ≤ 6 * s.length := by
  induction s with
  | nil => simp
  | cons b t ih =>
    have hb := byteCost_le b
    rw [Json.cost_cons, List.length_cons]
    omega

lemma length_string_le {s : String} {n : ℕ} (h : (ofString s).length ≤ n) :
    (render (string s)).length ≤ 6 * n + 2 := by
  have := cost_le (ofString s)
  rw [length_render_string]
  omega

lemma length_num_le {n : ℕ} (h : n ≤ u64Max) : (render (.num n)).length ≤ 20 := by
  rw [Json.length_render_nat]
  refine decimal_length_le (by omega) ?_
  simp only [u64Max] at h
  omega

/-- The longest text that a name of a secret may be normalized from. -/
def maxUnnormalizedBytes : ℕ := 16 * 1024

/-- The texts of a binding are not too long. -/
structure Bounded (b : SecretBindingRequest) : Prop where
  secretRef : (ofString b.secretRef).length ≤ maxUnnormalizedBytes
  field : (ofString b.field).length ≤ 64
  environment : ∀ name, b.target = .environment name → (ofString name).length ≤ 256
  temporaryFile : ∀ name suggestedFilename,
    b.target = .temporaryFileEnvironment name suggestedFilename →
    (ofString name).length ≤ 256 ∧ ∀ filename ∈ suggestedFilename, (ofString filename).length ≤ 128

lemma length_target_le {b : SecretBindingRequest} (h : Bounded b) :
    (render (targetDocument b.target)).length ≤ 2400 := by
  have h1 : cost (ofString "kind") = 4 := by decide
  have h2 : cost (ofString "name") = 4 := by decide
  have h3 : cost (ofString "suggested_filename") = 18 := by decide
  have h4 : cost (ofString "environment") = 11 := by decide
  have h5 : cost (ofString "standard_input") = 14 := by decide
  have h6 : cost (ofString "temporary_file_environment") = 26 := by decide
  cases ht : b.target with
  | environment name =>
    have hname := length_string_le (h.environment name ht)
    simp only [targetDocument, length_render_object, List.map_cons, List.map_nil, List.sum_cons,
      List.sum_nil, List.length_cons, List.length_nil, length_render_string, h1, h2, h4] at hname ⊢
    omega
  | standardInput =>
    simp only [targetDocument, length_render_object, List.map_cons, List.map_nil, List.sum_cons,
      List.sum_nil, List.length_cons, List.length_nil, length_render_string, h1, h5]
    omega
  | temporaryFileEnvironment name suggestedFilename =>
    obtain ⟨hn, hf⟩ := h.temporaryFile name suggestedFilename ht
    have hname := length_string_le hn
    cases suggestedFilename with
    | none =>
      simp only [targetDocument, length_render_object, List.map_cons, List.map_nil, List.sum_cons,
        List.sum_nil, List.length_cons, List.length_nil, length_render_string, h1, h2, h6] at hname ⊢
      omega
    | some filename =>
      have hfilename := length_string_le (hf filename rfl)
      simp only [targetDocument, length_render_object, List.map_cons, List.map_nil, List.sum_cons,
        List.sum_nil, List.length_cons, List.length_nil, length_render_string, h1, h2, h3, h6]
        at hname hfilename ⊢
      omega

lemma length_binding_le {b : SecretBindingRequest} (h : Bounded b) :
    (render (bindingDocument b)).length ≤ 102000 := by
  have h1 : cost (ofString "secret_ref") = 10 := by decide
  have h2 : cost (ofString "field") = 5 := by decide
  have h3 : cost (ofString "target") = 6 := by decide
  have href := length_string_le h.secretRef
  have hfield := length_string_le h.field
  have htarget := length_target_le h
  simp only [bindingDocument, length_render_object, List.map_cons, List.map_nil, List.sum_cons,
    List.sum_nil, List.length_cons, List.length_nil, h1, h2, h3]
  simp only [maxUnnormalizedBytes] at href
  omega

lemma length_bindings_le {bindings : List SecretBindingRequest}
    (hlen : bindings.length ≤ maxBindings) (h : ∀ b ∈ bindings, Bounded b) :
    (render (.arr (bindings.map bindingDocument))).length ≤ 1640000 := by
  have hsum := List.sum_le_card_nsmul (bindings.map fun b => (render (bindingDocument b)).length)
    102000 (by simpa using fun b hb => length_binding_le (h b hb))
  rw [List.length_map, smul_eq_mul] at hsum
  rw [Json.length_render_arr, List.map_map, List.length_map]
  simp only [Function.comp_def, maxBindings] at hlen ⊢
  omega

lemma length_arguments_le {arguments : List String} {bytes : ℕ}
    (h : argumentBytes arguments = some bytes) (hbytes : bytes ≤ maxArgumentBytes)
    (hlen : arguments.length ≤ maxArguments) :
    (render (.arr (arguments.map string))).length ≤ 1574000 := by
  have hsum := sum_of_argumentBytes h
  have hcost : (arguments.map fun a => (render (string a)).length).sum ≤
      6 * (arguments.map fun a => (ofString a).length).sum + 2 * arguments.length := by
    clear h hsum hlen
    induction arguments with
    | nil => simp
    | cons a arguments ih =>
      have ha := cost_le (ofString a)
      simp only [List.map_cons, List.sum_cons, List.length_cons, length_render_string] at ih ⊢
      omega
  rw [Json.length_render_arr, List.map_map, List.length_map]
  simp only [Function.comp_def, maxArguments, maxArgumentBytes] at hlen hbytes ⊢
  omega

/-! ### What the checks of a run promise -/

lemma length_of_validPath {path : String} (h : validPath path) :
    (ofString path).length ≤ maxPathBytes := by
  simp only [validPath, Bool.and_eq_true, decide_eq_true_eq] at h
  exact h.2

lemma length_of_environmentName {name : String} {names names' : List String}
    (h : validateEnvironmentName name names = .ok names') : (ofString name).length ≤ 256 := by
  unfold validateEnvironmentName at h
  split_ifs at h with h1 h2
  simp only [not_or, Nat.not_lt] at h1
  exact h1.2.1

lemma length_of_filename {filename : String} {ext : Bytes}
    (h : validateSuggestedFilename filename = .ok ext) : (ofString filename).length ≤ 128 := by
  unfold validateSuggestedFilename at h
  dsimp only at h
  split_ifs at h with h1
  simp only [not_or, Nat.not_lt] at h1
  exact h1.2.1

lemma length_of_fieldName {field : String} {f : FieldName} (h : FieldName.parse field = .ok f) :
    (ofString field).length ≤ 64 := by
  unfold FieldName.parse at h
  split_ifs at h with hvalid
  exact hvalid.1

section Checks

variable [UnicodeNormalization]

/-- Normalization does not shorten a text beyond measure. -/
def Unnormalized : Prop :=
  ∀ s : String, (ofString (nfc s)).length ≤ 128 → (ofString s).length ≤ maxUnnormalizedBytes

lemma length_of_secretRef (hnfc : Unnormalized) {input : String} {x : SecretRef}
    (h : SecretRef.parse input = .ok x) : (ofString input).length ≤ maxUnnormalizedBytes := by
  unfold SecretRef.parse at h
  split_ifs at h with hid
  · cases hu : Uuid.parse ((ofString input).drop 3) with
    | none =>
      rw [SecretId.parse, hu] at h
      cases h
    | some u =>
      have hlen := Uuid.length_of_parse hu
      rw [List.length_drop] at hlen
      simp only [maxUnnormalizedBytes]
      omega
  · by_cases hvalid : validSecretName (nfc input)
    · exact hnfc input hvalid.2.1
    · rw [SecretName.parse, dif_neg hvalid] at h
      cases h

/-- The bindings of a run are bounded, by induction with the names that are taken. -/
lemma bounded_of_validateBindings (hnfc : Unnormalized) {names : List String} {input : Bool}
    {bindings : List SecretBindingRequest} {bs : List ValidatedSecretBinding}
    (h : validateBindings names input bindings = .ok bs) : ∀ b ∈ bindings, Bounded b := by
  induction bindings generalizing names input bs with
  | nil => simp
  | cons b rest ih =>
    rw [validateBindings] at h
    obtain ⟨secretRef, href, h⟩ := bind_eq_ok.mp h
    obtain ⟨field, hfield, h⟩ := bind_eq_ok.mp h
    have hlen := length_of_secretRef hnfc href
    have hfield := length_of_fieldName hfield
    rw [List.forall_mem_cons]
    cases ht : b.target with
    | environment name =>
      simp only [ht] at h
      obtain ⟨names', hname, h⟩ := bind_eq_ok.mp h
      obtain ⟨bs', hrest, -⟩ := bind_eq_ok.mp h
      refine ⟨⟨hlen, hfield, fun n hn => ?_, fun n f hn => ?_⟩, ih hrest⟩
      · rw [ht] at hn
        cases hn
        exact length_of_environmentName hname
      · rw [ht] at hn
        cases hn
    | standardInput =>
      simp only [ht] at h
      split_ifs at h
      obtain ⟨bs', hrest, -⟩ := bind_eq_ok.mp h
      refine ⟨⟨hlen, hfield, fun n hn => ?_, fun n f hn => ?_⟩, ih hrest⟩
      · rw [ht] at hn
        cases hn
      · rw [ht] at hn
        cases hn
    | temporaryFileEnvironment name suggestedFilename =>
      simp only [ht] at h
      obtain ⟨names', hname, h⟩ := bind_eq_ok.mp h
      obtain ⟨ext, hext, h⟩ := bind_eq_ok.mp h
      obtain ⟨bs', hrest, -⟩ := bind_eq_ok.mp h
      refine ⟨⟨hlen, hfield, fun n hn => ?_, fun n f hn => ?_⟩, ih hrest⟩
      · rw [ht] at hn
        cases hn
      · rw [ht] at hn
        cases hn
        refine ⟨length_of_environmentName hname, fun filename hf => ?_⟩
        cases hf
        obtain ⟨e, he, -⟩ := bind_eq_ok.mp hext
        exact length_of_filename he

lemma numbers_of_checked {r : RunRequest} {caller : RunCaller} (h : Checked r caller) :
    r.timeoutMs ≤ u64Max ∧ r.outputLimitBytes ≤ u64Max := by
  have htimeout := h.cli.timeout_le
  have hlimit := h.limit.2
  simp only [RunCaller.maximumTimeout, maxOutputLimitBytes] at htimeout hlimit
  simp only [u64Max]
  omega

lemma length_run_le (hnfc : Unnormalized) {r : RunRequest} {caller : RunCaller}
    (h : Checked r caller) : (render (runDocument r)).length ≤ 3620000 := by
  have h1 : cost (ofString "executable") = 10 := by decide
  have h2 : cost (ofString "arguments") = 9 := by decide
  have h3 : cost (ofString "working_directory") = 17 := by decide
  have h4 : cost (ofString "bindings") = 8 := by decide
  have h5 : cost (ofString "timeout_ms") = 10 := by decide
  have h6 : cost (ofString "output_limit_bytes") = 18 := by decide
  obtain ⟨bytes, hbytes, hle⟩ := h.arguments
  obtain ⟨bs, hbs⟩ := h.bindings
  have hexecutable := length_string_le (length_of_validPath h.executable)
  have hdirectory := length_string_le (length_of_validPath h.workingDirectory)
  have harguments := length_arguments_le hbytes hle h.arguments_le
  have hbindings := length_bindings_le h.bindings_le (bounded_of_validateBindings hnfc hbs)
  have htimeout := length_num_le (numbers_of_checked h).1
  have hlimit := length_num_le (numbers_of_checked h).2
  simp only [runDocument, length_render_object, List.map_cons, List.map_nil, List.sum_cons,
    List.sum_nil, List.length_cons, List.length_nil, h1, h2, h3, h4, h5, h6]
  simp only [maxPathBytes] at hexecutable hdirectory
  omega

/-- A method that a client asks for: one without parameters, or a run that passed the checks. -/
inductive Asked : RpcMethod → Prop
  | sessionOpen : Asked .sessionOpen
  | status : Asked .status
  | list : Asked .list
  | lock : Asked .lock
  | run {r : RunRequest} {caller : RunCaller} (h : Checked r caller) : Asked (.run r)

lemma Asked.typed {m : RpcMethod} (h : Asked m) : m.Typed := by
  cases h with
  | run h => exact numbers_of_checked h
  | _ => trivial

lemma length_members_le (hnfc : Unnormalized) {m : RpcMethod} (h : Asked m) :
    (m.members.map fun e => cost (ofString e.1) + 3 + (render e.2).length).sum ≤ 3621000 ∧
      m.members.length ≤ 2 := by
  have h1 : cost (ofString "method") = 6 := by decide
  have h2 : cost (ofString "params") = 6 := by decide
  have h3 : cost (ofString "session_open") = 12 := by decide
  have h4 : cost (ofString "status") = 6 := by decide
  have h5 : cost (ofString "list") = 4 := by decide
  have h6 : cost (ofString "lock") = 4 := by decide
  have h7 : cost (ofString "run") = 3 := by decide
  cases h with
  | sessionOpen => simp [RpcMethod.members, length_render_string, h1, h3]
  | status => simp [RpcMethod.members, length_render_string, h1, h4]
  | list => simp [RpcMethod.members, length_render_string, h1, h5]
  | lock => simp [RpcMethod.members, length_render_string, h1, h6]
  | run h =>
    have hrun := length_run_le hnfc h
    simp only [RpcMethod.members, length_render_string, h1, h2, h7, List.map_cons, List.map_nil,
      List.sum_cons, List.sum_nil, List.length_cons, List.length_nil]
    omega

/-- Every request of a client has room in a frame. -/
lemma encodeRequestFrame_ok (hnfc : Unnormalized) {r : RpcRequest} (hversion : r.version ≤ u16Max)
    (hlabel : (ofString r.clientLabel).length ≤ maxClientLabelBytes) (h : Asked r.method) :
    ∃ frame, encodeRequestFrame r = .ok frame := by
  have h1 : cost (ofString "version") = 7 := by decide
  have h2 : cost (ofString "request_id") = 10 := by decide
  have h3 : cost (ofString "client_session_id") = 17 := by decide
  have h4 : cost (ofString "client_label") = 12 := by decide
  have hnum := length_num_le (hversion.trans u16Max_le_u64Max)
  have htext := length_string_le hlabel
  obtain ⟨hmembers, hcount⟩ := length_members_le hnfc h
  refine (encodeFrame_ok_iff _).mpr ⟨?_, ?_⟩
  · obtain ⟨b, t, hcons, -⟩ := Json.render_eq_cons (readable_request hversion h.typed)
    simp [hcons]
  · simp only [RpcRequest.document, length_render_object, List.map_append, List.map_cons,
      List.map_nil, List.sum_append, List.sum_cons, List.sum_nil, List.length_append,
      List.length_cons, List.length_nil, Json.length_render_str, cost_display, h1, h2, h3, h4]
    simp only [maxClientLabelBytes] at htext
    simp only [maxFrameBytes]
    omega

/-- A label that the server accepts. -/
structure GoodLabel (label : String) : Prop where
  ne_empty : label ≠ ""
  length_le : (ofString label).length ≤ maxClientLabelBytes
  noNul : hasNul label = false

lemma validateRequest_of_asked {r : RpcRequest} (hversion : r.version = protocolVersion)
    (hlabel : GoodLabel r.clientLabel) (h : Asked r.method) : validateRequest r = .ok () := by
  have hpath : ∀ {path : String}, validPath path → validatePath path := by
    intro path hp
    simp only [validPath, Bool.and_eq_true, decide_eq_true_eq] at hp
    have hne : path ≠ "" := by
      rintro rfl
      cases hp.1.1
    simp [validatePath, hne, hp.1.2, hp.2]
  rw [validateRequest, if_neg (by simp [hversion]), if_neg (by
    simp [hlabel.ne_empty, hlabel.length_le, hlabel.noNul])]
  cases hm : r.method with
  | run run =>
    rw [hm] at h
    cases h with
    | run h =>
      obtain ⟨bytes, hbytes, hle⟩ := h.arguments
      refine if_neg ?_
      simp [hpath h.executable, hpath h.workingDirectory, h.arguments_le, h.noNul, hbytes, hle]
  | _ => rfl

/-! ### What the clients send -/

lemma checked_of_parseRun {system : System} {arguments : List String} {caller : RunCaller}
    {m : RpcMethod} (h : parseRun system arguments caller = .ok m) : Asked m := by
  unfold parseRun at h
  split at h
  · cases h
  · obtain ⟨⟨options, command⟩, -, h⟩ := bind_eq_ok.mp h
    dsimp only at h
    split at h
    · cases h
    · obtain ⟨directory, -, h⟩ := bind_eq_ok.mp h
      obtain ⟨executable, -, h⟩ := bind_eq_ok.mp h
      obtain ⟨v, hv, h⟩ := bind_eq_ok.mp h
      cases h
      exact .run (validateRunRequest_ok_iff.mp ⟨v, hv⟩)

lemma checked_of_parseMcpRun {system : System} {arguments : Document} {m : RpcMethod}
    (h : Mcp.parseMcpRun system arguments = .ok m) : Asked m := by
  unfold Mcp.parseMcpRun at h
  split at h
  · cases h
  · obtain ⟨directory, -, h⟩ := bind_eq_ok.mp h
    obtain ⟨executable, -, h⟩ := bind_eq_ok.mp h
    obtain ⟨bindings, -, h⟩ := bind_eq_ok.mp h
    split at h
    · cases h
    · obtain ⟨v, hv, h⟩ := bind_eq_ok.mp h
      cases h
      exact .run (validateRunRequest_ok_iff.mp ⟨v, hv⟩)

/-- A label that a client reports: that of the command line, that of an agent without a name, or a
name that an agent gave itself. -/
def Reported (label : String) : Prop :=
  label = "Ladon CLI" ∨ label = "MCP client" ∨
    ∃ value, Mcp.McpSession.validateName value = .ok label

omit [UnicodeNormalization] in
lemma goodLabel_of_reported {label : String} (h : Reported label) : GoodLabel label := by
  rcases h with rfl | rfl | ⟨value, h⟩
  · exact ⟨by decide, by decide, by decide⟩
  · exact ⟨by decide, by decide, by decide⟩
  · unfold Mcp.McpSession.validateName at h
    dsimp only at h
    split_ifs at h with hbad
    cases h
    simp only [not_or, Nat.not_lt] at hbad
    refine ⟨hbad.1, hbad.2.1, ?_⟩
    -- a byte of zero is a character of its own, and a control character
    rw [hasNul, List.contains_eq_mem, decide_eq_false_iff_not, Text.ofString_eq, List.mem_flatMap]
    rintro ⟨c, hc, hzero⟩
    have hnat : c.toNat = 0 := Text.toNat_of_mem_utf8EncodeChar hzero (by decide)
    refine hbad.2.2 (List.any_eq_true.mpr ⟨c, hc, ?_⟩)
    simp [Approval.ApprovalState.isControl, hnat]

/-- A method as the clients make it. -/
inductive ClientMethod : RpcMethod → Prop
  | sessionOpen : ClientMethod .sessionOpen
  | status : ClientMethod .status
  | list : ClientMethod .list
  | lock : ClientMethod .lock
  | run {system : System} {arguments : List String} {caller : RunCaller} {m : RpcMethod}
    (h : parseRun system arguments caller = .ok m) : ClientMethod m
  | mcpRun {system : System} {arguments : Document} {m : RpcMethod}
    (h : Mcp.parseMcpRun system arguments = .ok m) : ClientMethod m

lemma ClientMethod.asked {m : RpcMethod} (h : ClientMethod m) : Asked m := by
  cases h with
  | sessionOpen => exact .sessionOpen
  | status => exact .status
  | list => exact .list
  | lock => exact .lock
  | run h => exact checked_of_parseRun h
  | mcpRun h => exact checked_of_parseMcpRun h

/-- **Client and server agree.** Every request that a client makes has room in a frame; the frame is
read from the stream whatever its pieces, decoded to the same request, and a run in it passes the
checks of the server. A response that has room in a frame is decoded to itself, where it is of this
version of the protocol; another version is refused. -/
theorem wire_agreement [Json.Doubles] (hnfc : Unnormalized) :
    (∀ r : RpcRequest, r.version = protocolVersion → Reported r.clientLabel →
      ClientMethod r.method → ∃ frame, encodeRequestFrame r = .ok frame ∧
        (∀ stream after, Fragments stream (frame ++ after) →
          ∃ rest, readFrame stream = .ok (frame, rest) ∧ Fragments rest after) ∧
        decodeRequestFrame frame = .ok r ∧
        ∀ run, r.method = .run run → ∃ v, validateRunRequest run .cli = .ok v) ∧
    ∀ (r : RpcResponse) (frame : Bytes), r.version ≤ u16Max → r.outcome.Typed →
      encodeResponseFrame r = .ok frame →
      decodeResponseFrame frame =
        if r.version = protocolVersion then .ok r else .error .unsupportedProtocolVersion := by
  constructor
  · intro r hversion hreported hmethod
    have hasked := hmethod.asked
    have hlabel := goodLabel_of_reported hreported
    have hle : r.version ≤ u16Max := by rw [hversion]; decide
    obtain ⟨frame, hframe⟩ := encodeRequestFrame_ok hnfc hle hlabel.length_le hasked
    refine ⟨frame, hframe, fun stream after hs => readFrame_encodeFrame hframe hs, ?_, ?_⟩
    · exact decodeRequestFrame_encode hframe hasked.typed
        (validateRequest_of_asked hversion hlabel hasked) hle
    · intro run hrun
      rw [hrun] at hasked
      cases hasked with
      | run h => exact validateRunRequest_ok_iff.mpr h.cli
  · intro r frame hversion htyped hframe
    rw [decodeResponseFrame_encode hframe htyped hversion]
    by_cases h : r.version = protocolVersion <;> simp [h]

end Checks

/-! ### A response of another version -/

section Versions

local instance wireText : UnicodeNormalization := asciiNormalization

local instance wireDoubles : Json.Doubles := Json.noDoubles

lemma unnormalized_ascii : Unnormalized := by
  intro s h
  have hs : (ofString s).length ≤ 128 := h
  simp only [maxUnnormalizedBytes]
  omega

def listRequest : RpcRequest := ⟨protocolVersion, Uuid.filled 1, Uuid.filled 2, "Ladon CLI", .list⟩

theorem wire_agreement_list :
    ∃ frame, encodeRequestFrame listRequest = .ok frame ∧
      decodeRequestFrame frame = .ok listRequest := by
  obtain ⟨frame, hframe, -, hdecode, -⟩ :=
    (wire_agreement unnormalized_ascii).1 listRequest rfl (.inl rfl) .list
  exact ⟨frame, hframe, hdecode⟩

/-- A response of the version before. -/
def oldResponse : RpcResponse := ⟨1, Uuid.filled 1, .success .locked⟩

theorem old_response_refused :
    ∃ frame, encodeResponseFrame oldResponse = .ok frame ∧
      decodeResponseFrame frame ≠ .ok oldResponse := by
  have htyped : oldResponse.outcome.Typed := trivial
  have hversion : oldResponse.version ≤ u16Max := by decide
  obtain ⟨frame, hframe⟩ := (encodeFrame_ok_iff oldResponse.document).mpr ⟨by decide, by decide⟩
  refine ⟨frame, hframe, ?_⟩
  have hdecode := decodeResponseFrame_encode hframe htyped hversion
  have hother : oldResponse.version ≠ protocolVersion := by decide
  rw [hdecode, if_pos hother]
  simp

end Versions

end Ladon.Protocol

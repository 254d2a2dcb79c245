import Ladon.McpReply

/-!
The server answers what it must and nothing else, and asks the application for nothing without
admission.

A message is one turn: what it does to the connection is read off the state after it. The session
holds a lease only as long as the latest opening gave it.
-/

namespace Ladon.Mcp

open Ladon.Error Ladon.Model Ladon.Redact Ladon.Runner Ladon.Protocol Ladon.Commands Ladon.Lib
open Ladon.Lib.Utf8 Ladon.Lib.Word
open Ladon.Lib.Json (Document render Doubles Graphic)
open Ladon.Lib.Serde (lookup slots required)

variable {World Lease : Type} {outside : Outside World Lease}

/-! ### What a message does -/

/-- What the message does, given what it asks of the application. Checks that found a lease gone
may come before an opening. -/
inductive Served (s : State World Lease) : Option RpcMethod → State World Lease → Prop
  | quiet {session : McpSession Lease} (hid : session.id = s.session.id)
    (hlifetime : session.lifetime = s.session.lifetime) :
    Served s none ⟨session, s.world, s.acts⟩
  | direct {world : World} {request : RpcRequest} {result : Except LadonError RpcResponse}
    (hneeds : needsSession request.method = false) (hid : request.clientSessionId = s.session.id) :
    Served s (some request.method) ⟨s.session, world, s.acts ++ [.calls request result]⟩
  | kept {world : World} {request : RpcRequest} {result : Except LadonError RpcResponse}
    {lease : Lease} (hneeds : needsSession request.method = true)
    (hid : request.clientSessionId = s.session.id) (hlease : s.session.lifetime = some lease) :
    Served s (some request.method)
      ⟨s.session, world, s.acts ++ [.checks lease true, .calls request result]⟩
  | opened {world : World} {request : RpcRequest} {result : Except LadonError RpcResponse}
    {checks : List (Act Lease)} {label : String} {lease : Lease}
    (hneeds : needsSession request.method = true) (hid : request.clientSessionId = s.session.id)
    (hchecks : ∀ a ∈ checks, ∃ gone, a = .checks gone false) :
    Served s (some request.method) ⟨{ s.session with lifetime := some lease }, world,
      s.acts ++ (checks ++ [.opens s.session.id label (.ok lease), .calls request result])⟩
  | refused {world : World} {method : RpcMethod} {checks : List (Act Lease)} {label : String}
    {e : LadonError} (hneeds : needsSession method = true)
    (hchecks : ∀ a ∈ checks, ∃ gone, a = .checks gone false) :
    Served s (some method) ⟨{ s.session with lifetime := none }, world,
      s.acts ++ (checks ++ [.opens s.session.id label (.error e)])⟩

lemma checkLease_cases (outside : Outside World Lease) (s : State World Lease) :
    (s.session.lifetime = none ∧ checkLease outside s = s) ∨
    (∃ lease world, s.session.lifetime = some lease ∧
      checkLease outside s = ⟨s.session, world, s.acts ++ [.checks lease true]⟩) ∨
    ∃ lease world, checkLease outside s =
      ⟨{ s.session with lifetime := none }, world, s.acts ++ [.checks lease false]⟩ := by
  unfold checkLease
  split
  · next h => exact .inl ⟨h, rfl⟩
  · next lease h =>
    obtain ⟨connected, world⟩ := outside.isConnected lease s.world
    cases connected with
    | true => exact .inr (.inl ⟨lease, world, h, rfl⟩)
    | false => exact .inr (.inr ⟨lease, world, rfl⟩)

lemma openSession_cases (outside : Outside World Lease) (s : State World Lease) :
    ∃ world label, (∃ lease, openSession outside s =
        (.ok (), ⟨{ s.session with lifetime := some lease }, world,
          s.acts ++ [.opens s.session.id label (.ok lease)]⟩)) ∨
      ∃ e, openSession outside s =
        (.error e, ⟨s.session, world, s.acts ++ [.opens s.session.id label (.error e)]⟩) := by
  unfold openSession
  obtain ⟨result, world⟩ := outside.openSession s.session.id s.session.label s.world
  cases result with
  | ok lease => exact ⟨world, _, .inl ⟨lease, rfl⟩⟩
  | error e => exact ⟨world, _, .inr ⟨e, rfl⟩⟩

lemma callTransport_cases (outside : Outside World Lease) (method : RpcMethod)
    (s : State World Lease) :
    ∃ request result world, request.method = method ∧ request.clientSessionId = s.session.id ∧
      callTransport outside method s =
        (result, ⟨s.session, world, s.acts ++ [.calls request result]⟩) :=
  ⟨_, _, _, rfl, rfl, rfl⟩

/-- Without a lease a session is opened, after the check that may have been made. -/
lemma served_open {s t : State World Lease}
    (hsession : t.session = { s.session with lifetime := none }) {checks : List (Act Lease)}
    (hacts : t.acts = s.acts ++ checks) (hchecks : ∀ a ∈ checks, ∃ gone, a = .checks gone false)
    {method : RpcMethod} (hneeds : needsSession method = true)
    (hfirst : openFirst outside method s = openSession outside t) (id : Document) :
    Served s (some method) (submit outside id method s).2 := by
  rw [submit, hfirst]
  obtain ⟨world, label, ⟨lease, hopen⟩ | ⟨e, hopen⟩⟩ := openSession_cases outside t
  · obtain ⟨request, result, world', rfl, hid, hcall⟩ := callTransport_cases outside method
      ⟨{ t.session with lifetime := some lease }, world,
        t.acts ++ [.opens t.session.id label (.ok lease)]⟩
    simp only [hopen, hcall]
    simp only [hsession, hacts, List.append_assoc, List.singleton_append] at hid ⊢
    exact Served.opened hneeds hid hchecks
  · simp only [hopen, hsession, hacts, List.append_assoc]
    exact Served.refused hneeds hchecks

lemma served_submit (id : Document) (method : RpcMethod) (s : State World Lease) :
    Served s (some method) (submit outside id method s).2 := by
  cases hneeds : needsSession method with
  | false =>
    have hfirst : openFirst outside method s = (.ok (), s) := by simp [openFirst, hneeds]
    obtain ⟨request, result, world, rfl, hid, hcall⟩ := callTransport_cases outside method s
    rw [submit, hfirst]
    simp only [hcall]
    exact Served.direct hneeds hid
  | true =>
    rcases checkLease_cases outside s with ⟨hlease, hcheck⟩ | ⟨lease, world, hlease, hcheck⟩ |
      ⟨lease, world, hcheck⟩
    · have hfirst : openFirst outside method s = openSession outside s := by
        simp [openFirst, hneeds, hcheck, hlease]
      refine served_open ?_ (List.append_nil _).symm (by simp) hneeds hfirst id
      rw [← hlease]
    · have hfirst : openFirst outside method s =
          (.ok (), ⟨s.session, world, s.acts ++ [.checks lease true]⟩) := by
        simp [openFirst, hneeds, hcheck, hlease]
      obtain ⟨request, result, world', rfl, hid, hcall⟩ := callTransport_cases outside method
        ⟨s.session, world, s.acts ++ [.checks lease true]⟩
      rw [submit, hfirst]
      simp only [hcall, List.append_assoc, List.singleton_append]
      exact Served.kept hneeds hid hlease
    · have hfirst : openFirst outside method s = openSession outside
          ⟨{ s.session with lifetime := none }, world, s.acts ++ [.checks lease false]⟩ := by
        simp [openFirst, hneeds, hcheck]
      exact served_open rfl rfl (by simp) hneeds hfirst id

/-- The client and the answer of an opening. -/
def Act.opening? : Act Lease → Option (Uuid × Except LadonError Lease)
  | .opens client _ result => some (client, result)
  | _ => none

/-- Neither a call nor an opening that failed. -/
def Act.plain : Act Lease → Bool
  | .calls _ _ => false
  | .opens _ _ (.error _) => false
  | _ => true

/-- The latest opening of a session, with its client and its answer. -/
def latestOpen (acts : List (Act Lease)) : Option (Uuid × Except LadonError Lease) :=
  (acts.filterMap Act.opening?).getLast?

lemma latestOpen_append {acts more : List (Act Lease)} (h : ∀ a ∈ more, a.opening? = none) :
    latestOpen (acts ++ more) = latestOpen acts := by
  rw [latestOpen, List.filterMap_append, List.filterMap_eq_nil_iff.mpr h, List.append_nil]
  rfl

lemma latestOpen_concat (acts : List (Act Lease)) (client : Uuid) (label : String)
    (result : Except LadonError Lease) :
    latestOpen (acts ++ [.opens client label result]) = some (client, result) := by
  simp [latestOpen, Act.opening?]

/-- The last element is where it is not before. -/
lemma split_last {α : Type} {init acts rest : List α} {a b : α}
    (h : init ++ [a] = acts ++ b :: rest) (hb : b ∉ init) : acts = init ∧ b = a := by
  rcases List.eq_nil_or_concat' rest with rfl | ⟨rest, c, rfl⟩
  · obtain ⟨rfl, hab⟩ := List.append_inj' h rfl
    exact ⟨rfl, (List.singleton_injective hab).symm⟩
  · have hsplit : init ++ [a] = (acts ++ b :: rest) ++ [c] := by
      rw [h, List.append_assoc, List.cons_append]
    obtain ⟨rfl, -⟩ := List.append_inj' hsplit rfl
    exact absurd (by simp) hb

lemma Served.refl (s : State World Lease) : Served s none s := .quiet rfl rfl

lemma served_identifySession (id arguments : Document) (s : State World Lease) :
    Served s none (identifySession id arguments s).2 := by
  unfold identifySession
  split
  · exact .refl s
  · unfold McpSession.identify
    split
    · next h =>
      split at h
      · cases h
        exact .quiet rfl rfl
      · cases h
    · exact .refl s

lemma checkedDocument_nil [Doubles] : checkedDocument [] = none := by
  simp [checkedDocument, Json.parse, Json.parseValue, Json.skipSpace]

lemma checkedDocument_eq_some [Doubles] {input : Bytes} {d : Document} :
    checkedDocument input = some d ↔ Json.parse input = some d ∧ checkValue 0 d := by
  rw [checkedDocument, Option.filter_eq_some_iff]

lemma get_ordered {d : Document} (h : checkValue 0 d) (key : String) :
    get key (Serde.ordered d) = (get key d).map Serde.ordered := by
  cases d with
  | obj members =>
    rw [checkValue, Bool.and_eq_true] at h
    exact Serde.lookup_ordered (nodup_of_checkMembers h.2).1 key
  | _ => simp [get, Serde.ordered]

/-- The identifier that a line is answered with: none for a text that cannot be read, its own for an
object that has one. -/
def expectedId [Doubles] (line : Bytes) : Option Document :=
  if trimLineEnd line = [] then none
  else match checkedDocument (trimLineEnd line) with
    | none => some .null
    | some d => (get "id" d).map Serde.ordered

lemma graphic_expectedId [Doubles] {line : Bytes} {id : Document} (h : expectedId line = some id) :
    Graphic id := by
  unfold expectedId at h
  split at h
  · cases h
  · split at h
    · cases h
      exact .null
    · next d hd =>
      obtain ⟨value, hvalue, rfl⟩ := Option.map_eq_some_iff.mp h
      have hgraphic := Json.graphic_parse (checkedDocument_eq_some.mp hd).1
      refine Serde.graphic_ordered ?_
      cases hgraphic with
      | obj hmembers =>
        obtain ⟨m, hm, rfl⟩ := Option.map_eq_some_iff.mp hvalue
        exact hmembers m (List.mem_of_find?_eq_some hm)
      | _ => cases hvalue

/-! ### Lines -/

/-- A line as it is read: a text that is not too long, with no end of line before its end. -/
structure IsLine (line : Bytes) : Prop where
  ne_nil : line ≠ []
  text : ∃ s, toString? line = some s
  length_le : line.length ≤ maxFrameBytes
  newline : 0x0A ∉ line.dropLast

/-- Lines one after another; only the last may lack its end. -/
inductive Lines : List Bytes → Prop
  | nil : Lines []
  | last {line : Bytes} (h : IsLine line) : Lines [line]
  | cons {line : Bytes} {lines : List Bytes} (h : IsLine line) (hend : line.getLast? = some 0x0A)
    (hrest : Lines lines) : Lines (line :: lines)

lemma nextLine_of_newline {line : Bytes} (h : IsLine line) (hend : line.getLast? = some 0x0A)
    (rest : Bytes) : nextLine (line ++ rest) = line := by
  have hsplit : line = line.dropLast ++ [0x0A] := (List.dropLast_append_getLast? _ hend).symm
  have hlen := h.length_le
  have htake : (line ++ rest).take (maxFrameBytes + 1) =
      line ++ rest.take (maxFrameBytes + 1 - line.length) := by
    rw [List.take_append, List.take_of_length_le (by omega)]
  have hall : ∀ b ∈ line.dropLast, decide (b ≠ 0x0A) = true := by
    intro b hb
    rw [decide_eq_true_eq]
    rintro rfl
    exact h.newline hb
  rw [nextLine, htake, if_pos (List.mem_append_left _ (hsplit ▸ by simp))]
  conv_lhs => rw [hsplit, List.append_assoc, List.takeWhile_append_of_pos hall]
  conv_rhs => rw [hsplit]
  simp

lemma nextLine_of_last {line : Bytes} (h : IsLine line) : nextLine line = line := by
  by_cases hmem : 0x0A ∈ line
  · have hsplit := List.dropLast_append_getLast h.ne_nil
    have hlast : line.getLast h.ne_nil = 0x0A := by
      rw [← hsplit, List.mem_append, List.mem_singleton] at hmem
      rcases hmem with hmem | hmem
      · exact absurd hmem h.newline
      · exact hmem.symm
    have hend : line.getLast? = some 0x0A := by
      rw [List.getLast?_eq_getLast_of_ne_nil h.ne_nil, hlast]
    simpa using nextLine_of_newline h hend []
  · have htake : line.take (maxFrameBytes + 1) = line :=
      List.take_of_length_le (by have := h.length_le; omega)
    rw [nextLine, htake]
    exact if_neg hmem

lemma Lines.cons_inv {line : Bytes} {lines : List Bytes} (h : Lines (line :: lines)) :
    IsLine line ∧ nextLine (line ++ lines.flatten) = line ∧ Lines lines := by
  cases h with
  | last h =>
    refine ⟨h, ?_, .nil⟩
    rw [List.flatten_nil, List.append_nil]
    exact nextLine_of_last h
  | cons h hend hrest => exact ⟨h, nextLine_of_newline h hend _, hrest⟩

/-- What is written is the replies, each on its line. -/
lemma output_eq (turns : List (Turn World Lease)) :
    turns.flatMap Turn.output = (turns.filterMap Turn.reply).flatMap outputLine := by
  induction turns with
  | nil => rfl
  | cons t turns ih =>
    rw [List.flatMap_cons, ih]
    cases h : t.reply with
    | none => simp [Turn.output, h]
    | some reply => simp [Turn.output, h]

/-- The replies in the order of the lines they answer. -/
lemma replies_in_order [Doubles] {lines : List Bytes} {turns : List (Turn World Lease)}
    (h : List.Forall₂ (fun line t => t.line = line ∧ Option.Rel Echoes (expectedId line) t.reply)
      lines turns) :
    turns.map Turn.line = lines ∧
      List.Forall₂ (fun id reply => get "id" reply = some id ∧ 0x0A ∉ render reply)
        (lines.filterMap expectedId) (turns.filterMap Turn.reply) := by
  induction h with
  | nil => exact ⟨rfl, .nil⟩
  | @cons line t lines turns ht _ ih =>
    obtain ⟨rfl, hreply⟩ := ht
    obtain ⟨ihlines, ihreplies⟩ := ih
    refine ⟨by rw [List.map_cons, ihlines], ?_⟩
    rw [List.filterMap_cons, List.filterMap_cons]
    generalize hexpected : expectedId t.line = expected at hreply
    generalize t.reply = reply at hreply
    cases hreply with
    | none => exact ihreplies
    | @some id reply hechoes =>
      have hgraphic := hechoes.graphic (graphic_expectedId hexpected)
      refine .cons ⟨hechoes.echo, fun hmem => ?_⟩ ihreplies
      exact absurd (Json.le_of_mem_render hgraphic _ hmem) (by decide)

/-! ### What a message asks for -/

lemma mcpDirectory_eq_ok {system : System} {path : Bytes} {directory : String} :
    mcpDirectory system path = .ok directory ↔
      system.canonicalize path >>= toString? = some directory := by
  unfold mcpDirectory
  cases system.canonicalize path >>= toString? with
  | none => exact ⟨fun h => (by cases h), fun h => (by cases h)⟩
  | some found => simp

lemma millisOfSeconds_eq_some {seconds millis : ℕ} :
    millisOfSeconds seconds = some millis ↔ millis = seconds * 1000 ∧ millis ≤ u64Max := by
  unfold millisOfSeconds
  split_ifs with h
  · simp only [Option.some.injEq]
    exact ⟨fun heq => ⟨heq.symm, heq ▸ h⟩, fun heq => heq.1.symm⟩
  · simp only [false_iff, not_and]
    rintro rfl
    exact h

lemma emptyObject_iff {d : Document} : emptyObject d = true ↔ d = .obj [] := by
  cases d with
  | obj members => cases members <;> simp [emptyObject]
  | _ => simp [emptyObject]

section Turns

variable [UnicodeNormalization]

/-- The arguments make the request of a run, and it is a valid one. -/
structure McpRunArguments.Makes (system : System) (a : McpRunArguments) (run : RunRequest) :
    Prop where
  workingDirectory : system.canonicalize (requestedDirectory system a) >>= toString? =
    some run.workingDirectory
  executable : resolveExecutable system a.executable run.workingDirectory = .ok run.executable
  arguments : run.arguments = a.arguments
  bindings : List.Forall₂ (fun b request => b.request = .ok request) a.bindings run.bindings
  timeoutMs : run.timeoutMs = a.timeoutSeconds.getD (defaultRunTimeout / 1000) * 1000
  inRange : run.timeoutMs ≤ u64Max
  outputLimitBytes : run.outputLimitBytes = a.outputLimitBytes.getD defaultOutputLimitBytes
  valid : ∃ v, validateRunRequest run .mcp = .ok v

/-- A tool that there is, called with arguments it takes. The tool that names the session asks the
application for nothing and is not among these. -/
inductive Takes (system : System) : String → Document → RpcMethod → Prop
  | status : Takes system "ladon_status" (.obj []) .status
  | list : Takes system "ladon_list_secrets" (.obj []) .list
  | lock : Takes system "ladon_lock" (.obj []) .lock
  | run {arguments : Document} {a : McpRunArguments} {run : RunRequest}
      (reads : readRunArguments arguments = some a) (makes : a.Makes system run) :
      Takes system "ladon_run" arguments (.run run)

lemma parseMcpRun_eq_ok {system : System} {arguments : Document} {method : RpcMethod} :
    parseMcpRun system arguments = .ok method ↔ ∃ a run, readRunArguments arguments = some a ∧
      a.Makes system run ∧ method = .run run := by
  unfold parseMcpRun
  cases readRunArguments arguments with
  | none => simp
  | some a =>
    simp only [bind_eq_ok, mapM_eq_ok, mcpDirectory_eq_ok, Option.some.injEq]
    constructor
    · rintro ⟨directory, hdirectory, executable, hexecutable, bindings, hbindings, h⟩
      split at h
      · cases h
      · next timeoutMs htimeout =>
        obtain ⟨hmillis, hrange⟩ := millisOfSeconds_eq_some.mp htimeout
        obtain ⟨v, hv, h⟩ := bind_eq_ok.mp h
        cases h
        exact ⟨a, _, rfl,
          ⟨hdirectory, hexecutable, rfl, hbindings, hmillis, hrange, rfl, v, hv⟩, rfl⟩
    · rintro ⟨_, run, rfl, hmakes, rfl⟩
      obtain ⟨executable, args, directory, bindings, timeoutMs, limit⟩ := run
      obtain ⟨hdirectory, hexecutable, hargs, hbindings, hmillis, hrange, hlimit, v, hv⟩ := hmakes
      dsimp only at hdirectory hexecutable hargs hbindings hmillis hrange hlimit
      subst hargs hlimit
      refine ⟨directory, hdirectory, executable, hexecutable, bindings, hbindings, ?_⟩
      rw [millisOfSeconds_eq_some.mpr ⟨hmillis, hrange⟩]
      exact bind_eq_ok.mpr ⟨v, hv, rfl⟩

/-- **A tool call is rejected** when there is no such tool, when it does not take the arguments, or
when they make no valid run. -/
theorem toolMethod_eq_ok {system : System} {name : String} {arguments : Document}
    {method : RpcMethod} :
    toolMethod system name arguments = .ok method ↔ Takes system name arguments method := by
  unfold toolMethod
  constructor
  · intro h
    split_ifs at h with hstatus hlist hlock hrun
    · obtain ⟨rfl, hempty⟩ := hstatus
      rw [emptyObject_iff.mp hempty]
      cases h
      exact .status
    · obtain ⟨rfl, hempty⟩ := hlist
      rw [emptyObject_iff.mp hempty]
      cases h
      exact .list
    · obtain ⟨rfl, hempty⟩ := hlock
      rw [emptyObject_iff.mp hempty]
      cases h
      exact .lock
    · subst hrun
      obtain ⟨a, run, hreads, hmakes, rfl⟩ := parseMcpRun_eq_ok.mp h
      exact .run hreads hmakes
  · intro h
    cases h with
    | status | list | lock => rfl
    | run hreads hmakes => exact parseMcpRun_eq_ok.mpr ⟨_, _, hreads, hmakes, rfl⟩

/-- The line is a message with an identifier that calls a tool, and the tool takes the call. -/
def AsksFor [Doubles] (system : System) (line : Bytes) (method : RpcMethod) : Prop :=
  ∃ d id params name, checkedDocument (trimLineEnd line) = some d ∧
    get "id" (Serde.ordered d) = some id ∧
    get "jsonrpc" (Serde.ordered d) >>= Serde.string = some "2.0" ∧
    get "method" (Serde.ordered d) >>= Serde.string = some "tools/call" ∧
    get "params" (Serde.ordered d) = some params ∧
    get "name" params >>= Serde.string = some name ∧
    Takes system name ((get "arguments" params).getD (.obj [])) method

/-! ### What a message has done -/

/-- The request that a tool call makes of the application, where it is a valid one. -/
def asksTool (system : System) (params : Document) : Option RpcMethod := do
  let name ← get "name" params >>= Serde.string
  if name = "ladon_identify_session" then none
  else (toolMethod system name ((get "arguments" params).getD (.obj []))).toOption

/-- What a message asks of the application: only a tool call with an identifier asks for
anything. -/
def asksRequest (system : System) (request : Document) : Option RpcMethod := do
  let _ ← get "id" request
  let method ← get "method" request >>= Serde.string
  if get "jsonrpc" request >>= Serde.string ≠ some "2.0" ∨ method ≠ "tools/call" then none
  else get "params" request >>= asksTool system

lemma served_callTool (id : Document) (params : Option Document) (s : State World Lease) :
    Served s (params.bind (asksTool (outside.system s.world)))
      (callTool outside id params s).2 := by
  cases params with
  | none => exact .refl s
  | some params =>
    simp only [callTool, asksTool, Option.bind_eq_bind, Option.bind_some]
    cases hname : (get "name" params).bind Serde.string with
    | none => exact .refl s
    | some name =>
      simp only [Option.bind_some]
      by_cases hidentify : name = "ladon_identify_session"
      · rw [if_pos hidentify, if_pos hidentify]
        exact served_identifySession _ _ _
      · rw [if_neg hidentify, if_neg hidentify]
        cases hmethod : toolMethod (outside.system s.world) name
            ((get "arguments" params).getD (.obj [])) with
        | error e => exact .refl s
        | ok method => exact served_submit id method s

lemma served_dispatch (request id : Document) (method : String) (s : State World Lease) :
    Served s (if method ≠ "tools/call" then none
      else (get "params" request).bind (asksTool (outside.system s.world)))
      (dispatch outside request id method s).2 := by
  by_cases hcall : method = "tools/call"
  · subst hcall
    exact served_callTool id _ s
  · rw [if_pos hcall, dispatch]
    split
    · dsimp only
      split
      · unfold McpSession.recordInitializedName
        split <;> exact .quiet rfl rfl
      · exact .refl s
    · split
      · exact .refl s
      · split
        · exact .refl s
        · split
          · exact .refl s
          · exact .refl s

lemma served_handleRequest (request : Document) (s : State World Lease) :
    Served s (asksRequest (outside.system s.world) request)
      (handleRequest outside request s).2 := by
  simp only [handleRequest, asksRequest, Option.bind_eq_bind]
  cases hid : get "id" request with
  | none =>
    simp only [Option.bind_none]
    split
    · exact .refl s
    · split <;> exact .refl s
  | some id =>
    cases hmethod : (get "method" request).bind Serde.string with
    | none => exact .refl s
    | some method =>
      simp only [Option.bind_some]
      by_cases hversion : (get "jsonrpc" request).bind Serde.string = some "2.0"
      · simp only [hversion, ne_eq, not_true_eq_false, false_or, if_false]
        exact served_dispatch request id method s
      · simp only [hversion, ne_eq, not_false_eq_true, true_or, if_true]
        exact .refl s

/-! ### What a turn does -/

variable [Doubles]

/-- What a line asks of the application. -/
def asks (system : System) (line : Bytes) : Option RpcMethod :=
  (checkedDocument (trimLineEnd line)).bind fun d => asksRequest system (Serde.ordered d)

omit [Doubles] in
lemma asksTool_eq_some {system : System} {params : Document} {method : RpcMethod} :
    asksTool system params = some method ↔ ∃ name, get "name" params >>= Serde.string = some name ∧
      Takes system name ((get "arguments" params).getD (.obj [])) method := by
  simp only [asksTool, Option.bind_eq_bind, Option.bind_eq_some_iff, ← toolMethod_eq_ok]
  refine exists_congr fun name => and_congr_right fun _ => ?_
  by_cases hidentify : name = "ladon_identify_session"
  · subst hidentify
    simp [toolMethod]
  · rw [if_neg hidentify]
    cases toolMethod system name ((get "arguments" params).getD (.obj [])) with
    | error e => exact ⟨fun h => (by cases h), fun h => (by cases h)⟩
    | ok m => simp [Except.toOption]

lemma asks_eq_some {system : System} {line : Bytes} {method : RpcMethod} :
    asks system line = some method ↔ AsksFor system line method := by
  simp only [asks, asksRequest, AsksFor, Option.bind_eq_bind, Option.bind_eq_some_iff]
  constructor
  · rintro ⟨d, hd, id, hid, method', hmethod, h⟩
    split_ifs at h with hother
    obtain ⟨params, hparams, htool⟩ := Option.bind_eq_some_iff.mp h
    obtain ⟨name, hname, htakes⟩ := asksTool_eq_some.mp htool
    simp only [not_or, not_not] at hother
    obtain ⟨hversion, rfl⟩ := hother
    exact ⟨d, id, params, name, hd, hid, Option.bind_eq_some_iff.mp hversion, hmethod, hparams,
      Option.bind_eq_some_iff.mp hname, htakes⟩
  · rintro ⟨d, id, params, name, hd, hid, hversion, hmethod, hparams, hname, htakes⟩
    refine ⟨d, hd, id, hid, _, hmethod, ?_⟩
    rw [if_neg (by simp [Option.bind_eq_some_iff.mpr hversion]), Option.bind_eq_some_iff]
    exact ⟨params, hparams, asksTool_eq_some.mpr ⟨name, Option.bind_eq_some_iff.mpr hname, htakes⟩⟩

lemma handleMessage_of_none {input : Bytes} (h : checkedDocument input = none)
    (s : State World Lease) : handleMessage outside input s = (some invalidJson, s) := by
  rw [handleMessage, validateJsonDocument, h]
  rfl

lemma handleMessage_of_some {input : Bytes} {d : Document} (h : checkedDocument input = some d)
    (s : State World Lease) :
    handleMessage outside input s = handleRequest outside (Serde.ordered d) s := by
  rw [handleMessage, validateJsonDocument, h, (checkedDocument_eq_some.mp h).1]
  rfl

lemma served_takeTurn (line : Bytes) (session : McpSession Lease) (world : World) :
    Served ⟨session, world, []⟩ (asks (outside.system world) line)
      (takeTurn outside line session world).after := by
  unfold takeTurn asks
  dsimp only
  split
  · next h =>
    rw [h, checkedDocument_nil]
    exact .refl _
  · cases h : checkedDocument (trimLineEnd line) with
    | none =>
      rw [handleMessage_of_none h]
      exact .refl _
    | some d =>
      rw [handleMessage_of_some h]
      exact served_handleRequest _ _

lemma takeTurn_reply (line : Bytes) (session : McpSession Lease) (world : World) :
    Option.Rel Echoes (expectedId line) (takeTurn outside line session world).reply := by
  unfold takeTurn expectedId
  dsimp only
  split
  · exact .none
  · cases h : checkedDocument (trimLineEnd line) with
    | none =>
      rw [handleMessage_of_none h]
      exact .some (echoes_error _ _ _)
    | some d =>
      have hcheck := (checkedDocument_eq_some.mp h).2
      rw [handleMessage_of_some h]
      dsimp only
      rw [← get_ordered hcheck]
      exact handleRequest_reply _ _

/-- What a turn may do after the acts of all turns before it. -/
structure Orderly (outside : Outside World Lease) (client : Uuid) (earlier : List (Act Lease))
    (t : Turn World Lease) : Prop where
  /-- A message without an identifier changes nothing. -/
  anonymous : (∀ d, checkedDocument (trimLineEnd t.line) = some d → get "id" d = none) →
    t.after = t.before
  /-- What asks for nothing, a tool call that is rejected among it, does nothing. -/
  quiet : (∀ method, ¬ AsksFor (outside.system t.before.world) t.line method) → t.after.acts = []
  /-- A status or a lock is called for, and no session opened. -/
  direct : ∀ method, AsksFor (outside.system t.before.world) t.line method →
    needsSession method = false →
    ∃ request result, request.method = method ∧ t.after.acts = [.calls request result]
  client_eq : ∀ request result, .calls request result ∈ t.after.acts →
    request.clientSessionId = client
  /-- A run or a list is called for under the lease that the latest opening gave, which was made in
  this turn or has just been found connected. -/
  admitted : ∀ acts request result rest, t.after.acts = acts ++ .calls request result :: rest →
    needsSession request.method = true → ∃ lease,
      latestOpen (earlier ++ acts) = some (client, .ok lease) ∧
      (acts.getLast? = some (.checks lease true) ∨
        ∃ label, acts.getLast? = some (.opens client label (.ok lease)))
  /-- After an opening that failed nothing is called for, and there is no lease. -/
  refused : ∀ c label e, .opens c label (.error e) ∈ t.after.acts →
    (∀ request result, .calls request result ∉ t.after.acts) ∧ t.after.session.lifetime = none

/-- The lease of the session is what the latest opening gave. -/
structure Leased (client : Uuid) (earlier : List (Act Lease)) (session : McpSession Lease) :
    Prop where
  id : session.id = client
  latest : ∀ lease, session.lifetime = some lease →
    latestOpen earlier = some (client, .ok lease)

lemma takeTurn_line (outside : Outside World Lease) (line : Bytes) (session : McpSession Lease)
    (world : World) : (takeTurn outside line session world).line = line := by
  unfold takeTurn
  dsimp only
  split <;> rfl

lemma takeTurn_before (outside : Outside World Lease) (line : Bytes) (session : McpSession Lease)
    (world : World) : (takeTurn outside line session world).before = ⟨session, world, []⟩ := by
  unfold takeTurn
  dsimp only
  split <;> rfl

lemma takeTurn_anonymous {line : Bytes}
    (h : ∀ d, checkedDocument (trimLineEnd line) = some d → get "id" d = none)
    (session : McpSession Lease) (world : World) :
    (takeTurn outside line session world).after = ⟨session, world, []⟩ := by
  unfold takeTurn
  dsimp only
  split
  · rfl
  · cases hd : checkedDocument (trimLineEnd line) with
    | none => rw [handleMessage_of_none hd]
    | some d =>
      have hid : get "id" (Serde.ordered d) = none := by
        rw [get_ordered (checkedDocument_eq_some.mp hd).2, h d hd]
        rfl
      rw [handleMessage_of_some hd]
      exact handleRequest_anonymous hid _

/-- A turn that makes a call, after acts that are neither calls nor openings that failed. -/
lemma orderly_of_call {client : Uuid} {earlier init : List (Act Lease)} {t : Turn World Lease}
    {request : RpcRequest} {result : Except LadonError RpcResponse}
    (hanonymous : (∀ d, checkedDocument (trimLineEnd t.line) = some d → get "id" d = none) →
      t.after = t.before)
    (hasks : asks (outside.system t.before.world) t.line = some request.method)
    (hacts : t.after.acts = init ++ [.calls request result]) (hinit : ∀ a ∈ init, a.plain = true)
    (hclient : request.clientSessionId = client)
    (hdirect : needsSession request.method = false → init = [])
    (hfirst : needsSession request.method = true → ∃ lease,
      latestOpen (earlier ++ init) = some (client, .ok lease) ∧
      (init.getLast? = some (.checks lease true) ∨
        ∃ label, init.getLast? = some (.opens client label (.ok lease)))) :
    Orderly outside client earlier t := by
  have hcalls : ∀ r x, .calls r x ∉ init := fun r x hmem => by cases hinit _ hmem
  refine ⟨hanonymous, ?_, ?_, ?_, ?_, ?_⟩
  · intro hm
    exact absurd (asks_eq_some.mp hasks) (hm _)
  · intro method hm hneeds
    rw [asks_eq_some.mpr hm] at hasks
    cases hasks
    exact ⟨request, result, rfl, by rw [hacts, hdirect hneeds, List.nil_append]⟩
  · intro r x hmem
    rw [hacts, List.mem_append, List.mem_singleton] at hmem
    rcases hmem with hmem | hmem
    · exact absurd hmem (hcalls r x)
    · cases hmem
      exact hclient
  · intro acts r x rest hsplit hneeds
    obtain ⟨rfl, heq⟩ := split_last (hacts.symm.trans hsplit) (hcalls r x)
    cases heq
    exact hfirst hneeds
  · intro c label e hmem
    rw [hacts, List.mem_append, List.mem_singleton] at hmem
    rcases hmem with hmem | hmem
    · cases hinit _ hmem
    · cases hmem

/-- By cases on what was done; the latest opening is the one before the turn, or the one in it. -/
lemma Served.orderly {client : Uuid} {earlier : List (Act Lease)} {t : Turn World Lease}
    (hacts : t.before.acts = []) (h : Leased client earlier t.before.session)
    (hanonymous : (∀ d, checkedDocument (trimLineEnd t.line) = some d → get "id" d = none) →
      t.after = t.before)
    (hserved : Served t.before (asks (outside.system t.before.world) t.line) t.after) :
    Orderly outside client earlier t ∧
      Leased client (earlier ++ t.after.acts) t.after.session := by
  obtain ⟨line, ⟨session, world, acts⟩, reply, after⟩ := t
  dsimp only at hacts h hanonymous hserved ⊢
  subst hacts
  obtain ⟨hid, hlatest⟩ := h
  generalize hasks : asks (outside.system world) line = asked at hserved
  cases hserved with
  | @quiet session' hid' hlifetime =>
    refine ⟨⟨hanonymous, fun _ => rfl, ?_, ?_, ?_, ?_⟩, ⟨hid'.trans hid, ?_⟩⟩
    · intro method hm
      rw [asks_eq_some.mpr hm] at hasks
      cases hasks
    · intro request result hmem
      cases hmem
    · intro acts request result rest hacts
      exact absurd hacts (by simp)
    · intro c label e hmem
      cases hmem
    · intro lease hlease
      rw [List.append_nil]
      exact hlatest lease (hlifetime ▸ hlease)
  | @direct world' request result hneeds hclient =>
    have hsplit : ([] ++ [.calls request result] : List (Act Lease)) =
        [] ++ [.calls request result] := rfl
    refine ⟨orderly_of_call hanonymous hasks hsplit (by simp) (hclient.trans hid)
      (fun _ => rfl) (fun hn => ?_), hid, fun lease hlease => ?_⟩
    · rw [hneeds] at hn
      cases hn
    · rw [latestOpen_append (by simp [Act.opening?])]
      exact hlatest lease hlease
  | @kept world' request result lease hneeds hclient hlease =>
    have hopen : latestOpen (earlier ++ [.checks lease true]) = some (client, .ok lease) := by
      rw [latestOpen_append (by simp [Act.opening?])]
      exact hlatest lease hlease
    have hsplit : [] ++ [Act.checks lease true, .calls request result] =
        [Act.checks lease true] ++ [.calls request result] := rfl
    refine ⟨orderly_of_call hanonymous hasks hsplit (by simp [Act.plain]) (hclient.trans hid)
      (fun hn => ?_) (fun _ => ⟨lease, hopen, .inl rfl⟩), hid, fun lease' hlease' => ?_⟩
    · rw [hneeds] at hn
      cases hn
    · rw [latestOpen_append (by simp [Act.opening?])]
      exact hlatest lease' hlease'
  | @opened world' request result checks label lease hneeds hclient hchecks =>
    have hopen : latestOpen (earlier ++ (checks ++ [.opens session.id label (.ok lease)])) =
        some (client, .ok lease) := by
      rw [← List.append_assoc, latestOpen_concat]
      exact congrArg (fun c => some (c, Except.ok lease)) hid
    have hplain : ∀ a ∈ checks ++ [.opens session.id label (.ok lease)], a.plain = true := by
      intro a ha
      rcases List.mem_append.mp ha with ha | ha
      · obtain ⟨gone, rfl⟩ := hchecks a ha
        rfl
      · rw [List.mem_singleton.mp ha]
        rfl
    have hsplit : [] ++ (checks ++ [.opens session.id label (.ok lease), .calls request result]) =
        (checks ++ [.opens session.id label (.ok lease)]) ++ [.calls request result] := by simp
    refine ⟨orderly_of_call hanonymous hasks hsplit hplain (hclient.trans hid) (fun hn => ?_)
      (fun _ => ⟨lease, hopen, .inr ⟨label, ?_⟩⟩), hid, fun lease' hlease' => ?_⟩
    · rw [hneeds] at hn
      cases hn
    · rw [List.getLast?_concat]
      exact congrArg (fun c => some (Act.opens c label (Except.ok lease))) hid
    · cases hlease'
      dsimp only
      rw [hsplit, ← List.append_assoc, latestOpen_append (by simp [Act.opening?])]
      exact hopen
  | @refused world' method checks label e hneeds hchecks =>
    have hmem : ∀ a ∈ checks ++ [.opens session.id label (.error e)],
        (∃ gone, a = .checks gone false) ∨ a = .opens session.id label (.error e) := by
      intro a ha
      rcases List.mem_append.mp ha with ha | ha
      · exact .inl (hchecks a ha)
      · exact .inr (List.mem_singleton.mp ha)
    have hcalls : ∀ request result, .calls request result ∉
        checks ++ [.opens session.id label (.error e)] := by
      intro request result ha
      rcases hmem _ ha with ⟨gone, h⟩ | h <;> cases h
    refine ⟨⟨hanonymous, ?_, ?_, ?_, ?_, fun _ _ _ _ => ⟨hcalls, rfl⟩⟩, hid, ?_⟩
    · intro hm
      exact absurd (asks_eq_some.mp hasks) (hm _)
    · intro m hm hn
      rw [asks_eq_some.mpr hm] at hasks
      cases hasks
      rw [hneeds] at hn
      cases hn
    · intro request result ha
      exact absurd ha (hcalls request result)
    · intro acts request result rest hsplit
      dsimp only at hsplit
      rw [List.nil_append] at hsplit
      exact absurd (hsplit ▸ by simp) (hcalls request result)
    · intro lease hlease
      cases hlease

/-! ### The loop -/

lemma takeTurn_orderly (outside : Outside World Lease) {client : Uuid}
    {earlier : List (Act Lease)} {session : McpSession Lease} (h : Leased client earlier session)
    (line : Bytes) (world : World) :
    Orderly outside client earlier (takeTurn outside line session world) ∧
      Leased client (earlier ++ (takeTurn outside line session world).after.acts)
        (takeTurn outside line session world).after.session := by
  have hbefore := takeTurn_before outside line session world
  have hline := takeTurn_line outside line session world
  refine Served.orderly (by rw [hbefore]) (by rwa [hbefore]) (fun hno => ?_) ?_
  · rw [hline] at hno
    rw [hbefore, takeTurn_anonymous hno]
  · rw [hbefore, hline]
    exact served_takeTurn line session world

lemma serve_cons (htakes : ∀ line world, (outside.write line world).1 = true) {line rest : Bytes}
    (hline : IsLine line) (hnext : nextLine (line ++ rest) = line) (session : McpSession Lease)
    (world : World) : ∃ world', serve outside (line ++ rest) session world =
      ((serve outside rest (takeTurn outside line session world).after.session world').1,
        takeTurn outside line session world ::
          (serve outside rest (takeTurn outside line session world).after.session world').2) := by
  obtain ⟨text, htext⟩ := hline.text
  have hwrite : ∀ t : Turn World Lease, ∃ world', t.write outside = (true, world') := by
    intro t
    unfold Turn.write
    split
    · exact ⟨_, rfl⟩
    · exact ⟨_, Prod.ext (htakes _ _) rfl⟩
  obtain ⟨world', hw⟩ := hwrite (takeTurn outside line session world)
  refine ⟨world', ?_⟩
  rw [serve, hnext]
  dsimp only
  rw [if_neg hline.ne_nil, htext, if_neg (by simp), if_neg (Nat.not_lt.mpr hline.length_le), hw,
    List.drop_left]

/-- By induction on the lines; the session holds its lease from the turns before. -/
lemma serve_lines (htakes : ∀ line world, (outside.write line world).1 = true)
    {lines : List Bytes} (h : Lines lines) {client : Uuid} {earlier : List (Act Lease)}
    {session : McpSession Lease} (hl : Leased client earlier session) (world : World) :
    ∃ turns, serve outside lines.flatten session world = (.ok (), turns) ∧
      List.Forall₂ (fun line t => t.line = line ∧ Option.Rel Echoes (expectedId line) t.reply)
        lines turns ∧
      ∀ pre t post, turns = pre ++ t :: post →
        Orderly outside client (earlier ++ pre.flatMap fun t => t.after.acts) t := by
  induction lines generalizing earlier session world with
  | nil =>
    refine ⟨[], ?_, .nil, by simp⟩
    rw [serve]
    rfl
  | cons line lines ih =>
    obtain ⟨hline, hnext, hrest⟩ := h.cons_inv
    obtain ⟨world', hserve⟩ := serve_cons htakes hline hnext session world
    obtain ⟨horderly, hleased⟩ := takeTurn_orderly outside hl line world
    obtain ⟨turns, hturns, hreplies, hall⟩ := ih hrest hleased world'
    refine ⟨takeTurn outside line session world :: turns, ?_, ?_, ?_⟩
    · rw [List.flatten_cons, hserve, hturns]
    · exact .cons ⟨takeTurn_line _ _ _ _, takeTurn_reply _ _ _⟩ hreplies
    · intro pre t post hsplit
      cases pre with
      | nil =>
        obtain ⟨rfl, -⟩ := List.cons.inj hsplit
        simpa using horderly
      | cons u pre =>
        obtain ⟨rfl, htail⟩ := List.cons.inj hsplit
        rw [List.flatMap_cons, ← List.append_assoc]
        exact hall pre t post htail

/-- **The server answers what it must, and asks for nothing without admission.** Over any lines and
any behaviour of what lies outside, as long as the output takes what is written: every line is
handled, and what is written is one line of JSON for each text that cannot be read, with `null`, and
for each object with an `id`, with that `id`, in the order of the lines and nothing else. A message
without an `id` changes nothing. Every call carries the one client of this server; a run or a list is
called for only under the lease that the latest opening gave, just made or just found connected; an
opening that fails leaves neither a call nor a lease; a status or a lock opens nothing; and a tool
call that is refused does nothing at all. -/
theorem serves_in_order (outside : Outside World Lease)
    (htakes : ∀ line world, (outside.write line world).1 = true) (world : World)
    (lines : List Bytes) (hlines : Lines lines) :
    ∃ turns, serveMcp outside lines.flatten world = (.ok (), turns) ∧
      turns.map Turn.line = lines ∧
      (∃ replies, turns.flatMap Turn.output = replies.flatMap outputLine ∧
        List.Forall₂ (fun id reply => get "id" reply = some id ∧ 0x0A ∉ render reply)
          (lines.filterMap expectedId) replies) ∧
      ∀ pre t post, turns = pre ++ t :: post →
        Orderly outside (outside.newUuid world).1 (pre.flatMap fun t => t.after.acts) t := by
  have hleased : Leased (outside.newUuid world).1 ([] : List (Act Lease))
      (.new (outside.newUuid world).1) := ⟨rfl, fun lease hlease => by cases hlease⟩
  obtain ⟨turns, hserve, hreplies, horderly⟩ :=
    serve_lines htakes hlines hleased (outside.newUuid world).2
  obtain ⟨hmap, hforall⟩ := replies_in_order hreplies
  exact ⟨turns, hserve, hmap, ⟨_, output_eq turns, hforall⟩, horderly⟩

end Turns

/-! ### Two lists, and what lies between them -/

section Listing

local instance listingText : UnicodeNormalization := asciiNormalization

local instance listingDoubles : Doubles := Json.noDoubles

/-- A tool call without an identifier. -/
def listingMembers : List (String × Document) :=
  [("jsonrpc", string "2.0"), ("method", string "tools/call"),
    ("params", object [("name", string "ladon_list_secrets")])]

def listingMessage (id : ℕ) : Document := object (("id", .num id) :: listingMembers)

def listingJson : String :=
  ("\"jsonrpc\":\"2.0\",\"method\":\"tools/call\",\"params\":" ++
    "\x7b\"name\":\"ladon_list_secrets\"\x7d\x7d")

/-- A list is asked for; a line is no JSON; the list is asked for without an identifier; and it is
asked for again, at the end of the input. -/
def listingLines : List Bytes :=
  [render (listingMessage 7) ++ [0x0A], ofString "oops\n", render (object listingMembers) ++ [0x0A],
    render (listingMessage 8)]

lemma isLine_text {line : Bytes} (text : String) (h : line = ofString text) (hne : line ≠ [])
    (hlength : line.length ≤ maxFrameBytes) (hnewline : 0x0A ∉ line.dropLast) : IsLine line :=
  ⟨hne, ⟨text, by rw [h, toString?_ofString]⟩, hlength, hnewline⟩

lemma lines_listing : Lines listingLines := by
  refine .cons ?_ (by decide) (.cons ?_ (by decide) (.cons ?_ (by decide) (.last ?_)))
  · exact isLine_text ("\x7b\"id\":7," ++ listingJson ++ "\n") (by decide) (by decide) (by decide)
      (by decide)
  · exact isLine_text "oops\n" rfl (by decide) (by decide) (by decide)
  · exact isLine_text ("\x7b" ++ listingJson ++ "\n") (by decide) (by decide) (by decide)
      (by decide)
  · exact isLine_text ("\x7b\"id\":8," ++ listingJson) (by decide) (by decide) (by decide)
      (by decide)

lemma readable_listingMembers : ∀ m ∈ listingMembers, Json.Readable m.2 := by
  have hparams : Json.Readable (object [("name", string "ladon_list_secrets")]) :=
    readable_object (by simp [readable_string])
  simp [listingMembers, readable_string, hparams]

lemma checkedDocument_listing {id : ℕ} (hid : Json.isMachineInteger id) :
    checkedDocument (render (listingMessage id)) = some (listingMessage id) := by
  have hreadable : Json.Readable (listingMessage id) :=
    readable_object (List.forall_mem_cons.mpr ⟨.num hid, readable_listingMembers⟩)
  have hcheck : checkValue 0 (listingMessage id) = true := rfl
  exact checkedDocument_eq_some.mpr ⟨Json.parse_render hreadable, hcheck⟩

lemma checkedDocument_unnamed :
    checkedDocument (render (object listingMembers)) = some (object listingMembers) := by
  have hcheck : checkValue 0 (object listingMembers) = true := rfl
  exact checkedDocument_eq_some.mpr
    ⟨Json.parse_render (readable_object readable_listingMembers), hcheck⟩

lemma trimLineEnd_oops : trimLineEnd (ofString "oops\n") = ofString "oops" := by decide

lemma trimLineEnd_unnamed : trimLineEnd (render (object listingMembers) ++ [0x0A]) =
    render (object listingMembers) := by decide

lemma checkedDocument_oops : checkedDocument (ofString "oops") = none := by
  have h : (checkedDocument (ofString "oops")).isNone = true := by decide +kernel
  simpa using h

lemma render_listing_ne_nil (id : ℕ) : render (listingMessage id) ≠ [] := by
  rw [listingMessage, object, render]
  simp

lemma expectedId_listing (id : ℕ) {line : Bytes} (hid : Json.isMachineInteger id)
    (htrim : trimLineEnd line = render (listingMessage id)) : expectedId line = some (.num id) := by
  rw [expectedId, htrim, if_neg (render_listing_ne_nil id), checkedDocument_listing hid]
  rfl

lemma expectedId_lines :
    listingLines.filterMap expectedId = [.num 7, .null, .num 8] := by
  have hfirst : expectedId (render (listingMessage 7) ++ [0x0A]) = some (.num 7) :=
    expectedId_listing 7 (by decide) (by decide)
  have hoops : expectedId (ofString "oops\n") = some .null := by
    rw [expectedId, trimLineEnd_oops, if_neg (by decide), checkedDocument_oops]
  have hunnamed : expectedId (render (object listingMembers) ++ [0x0A]) = none := by
    rw [expectedId, trimLineEnd_unnamed, if_neg (by decide), checkedDocument_unnamed]
    rfl
  have hlast : expectedId (render (listingMessage 8)) = some (.num 8) :=
    expectedId_listing 8 (by decide) (by decide)
  simp [listingLines, hfirst, hoops, hunnamed, hlast]

/-- A desktop application that admits everyone, loses every connection and has nothing to list. -/
def listingOutside : Outside Unit Unit where
  openSession := fun _ _ w => (.ok (), w)
  isConnected := fun _ w => (false, w)
  call := fun request w => (.ok (.success request.requestId (.list [])), w)
  newUuid := fun w => (Uuid.filled 1, w)
  system := fun _ => ⟨none, none, fun _ => none, fun _ => false, fun _ => false, fun _ => false⟩
  write := fun _ w => (true, w)

def listingRequest : RpcRequest :=
  ⟨protocolVersion, .filled 1, .filled 1, "MCP client", .list⟩

def listingSession (lease : Option Unit) : McpSession Unit := ⟨.filled 1, none, none, lease⟩

/-- What the list does where the session has a lease, or has none. -/
lemma takeTurn_listing (id : ℕ) (line : Bytes) (hid : Json.isMachineInteger id)
    (htrim : trimLineEnd line = render (listingMessage id)) (lease : Option Unit) :
    ∃ reply, takeTurn listingOutside line (listingSession lease) () =
      ⟨line, ⟨listingSession lease, (), []⟩, some reply,
        ⟨listingSession (some ()), (),
          (lease.toList.map fun l => .checks l false) ++
            [.opens (.filled 1) "MCP client" (.ok ()),
              .calls listingRequest (.ok (.success (.filled 1) (.list [])))]⟩⟩ := by
  unfold takeTurn
  dsimp only
  rw [htrim, if_neg (render_listing_ne_nil id), handleMessage_of_some (checkedDocument_listing hid)]
  cases lease with
  | none => exact ⟨_, rfl⟩
  | some l => exact ⟨_, rfl⟩

lemma anonymous_oops : ∀ d, checkedDocument (trimLineEnd (ofString "oops\n")) = some d →
    get "id" d = none := by
  intro d hd
  rw [trimLineEnd_oops, checkedDocument_oops] at hd
  cases hd

lemma anonymous_unnamed : ∀ d,
    checkedDocument (trimLineEnd (render (object listingMembers) ++ [0x0A])) = some d →
      get "id" d = none := by
  intro d hd
  rw [trimLineEnd_unnamed, checkedDocument_unnamed] at hd
  cases hd
  rfl

lemma serve_turn {line : Bytes} {lines : List Bytes} (h : Lines (line :: lines))
    {session session' : McpSession Unit} {turns : List (Turn Unit Unit)}
    (hturn : (takeTurn listingOutside line session ()).after.session = session')
    (hrest : serve listingOutside lines.flatten session' () = (.ok (), turns)) :
    serve listingOutside (line :: lines).flatten session () =
      (.ok (), takeTurn listingOutside line session () :: turns) := by
  obtain ⟨hline, hnext, -⟩ := h.cons_inv
  have htakes : ∀ line world, (listingOutside.write line world).1 = true := fun _ _ => rfl
  obtain ⟨⟨⟩, hserve⟩ := serve_cons htakes hline hnext session ()
  rw [List.flatten_cons, hserve, hturn, hrest]

/-- The lease of the first list is lost by the last line, which opens the session again. -/
lemma serve_listing : ∃ first oops unnamed last : Turn Unit Unit,
    serveMcp listingOutside listingLines.flatten () = (.ok (), [first, oops, unnamed, last]) ∧
      last.after.acts = [.checks () false, .opens (.filled 1) "MCP client" (.ok ()),
        .calls listingRequest (.ok (.success (.filled 1) (.list [])))] := by
  obtain ⟨-, -, hlines₁⟩ := lines_listing.cons_inv
  obtain ⟨-, -, hlines₂⟩ := hlines₁.cons_inv
  obtain ⟨-, -, hlines₃⟩ := hlines₂.cons_inv
  obtain ⟨_, hfirst⟩ := takeTurn_listing 7 (render (listingMessage 7) ++ [0x0A]) (by decide)
    (by decide) none
  have hkept : ∀ {line : Bytes},
      (∀ d, checkedDocument (trimLineEnd line) = some d → get "id" d = none) →
      (takeTurn listingOutside line (listingSession (some ())) ()).after.session =
        listingSession (some ()) := fun h => by rw [takeTurn_anonymous h]
  obtain ⟨_, hlast⟩ := takeTurn_listing 8 (render (listingMessage 8)) (by decide) (by decide)
    (some ())
  have hend : serve listingOutside ([] : List Bytes).flatten (listingSession (some ())) () =
      (.ok (), []) := by
    rw [serve]
    rfl
  have h₄ := serve_turn hlines₃ (by rw [hlast]) hend
  have h₃ := serve_turn hlines₂ (hkept anonymous_unnamed) h₄
  have h₂ := serve_turn hlines₁ (hkept anonymous_oops) h₃
  have h₁ := serve_turn lines_listing (by rw [hfirst]) h₂
  exact ⟨_, _, _, _, h₁, congrArg (fun t => t.after.acts) hlast⟩

theorem serves_in_order_listing :
    ∃ first oops unnamed last : Turn Unit Unit,
      serveMcp listingOutside listingLines.flatten () = (.ok (), [first, oops, unnamed, last]) ∧
      (∃ replies, [first, oops, unnamed, last].flatMap Turn.output = replies.flatMap outputLine ∧
        List.Forall₂ (fun id reply => get "id" reply = some id) [.num 7, .null, .num 8] replies) ∧
      unnamed.after = unnamed.before ∧
      last.after.acts = [.checks () false, .opens (.filled 1) "MCP client" (.ok ()),
        .calls listingRequest (.ok (.success (.filled 1) (.list [])))] := by
  obtain ⟨first, oops, unnamed, last, hrun, hacts⟩ := serve_listing
  obtain ⟨turns, hserve, hlines, ⟨replies, houtput, hforall⟩, horderly⟩ :=
    serves_in_order listingOutside (fun _ _ => rfl) () listingLines lines_listing
  have hturns : turns = [first, oops, unnamed, last] :=
    (Prod.ext_iff.mp (hserve.symm.trans hrun)).2
  subst hturns
  rw [expectedId_lines] at hforall
  refine ⟨first, oops, unnamed, last, hrun,
    ⟨replies, houtput, hforall.imp fun _ _ h => h.1⟩, ?_, hacts⟩
  have hline : unnamed.line = render (object listingMembers) ++ [0x0A] := by
    simp only [listingLines, List.map_cons, List.cons.injEq] at hlines
    exact hlines.2.2.1
  exact (horderly [first, oops] unnamed [last] rfl).anonymous (hline ▸ anonymous_unnamed)

end Listing

end Ladon.Mcp

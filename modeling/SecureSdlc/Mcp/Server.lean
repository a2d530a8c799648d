import SecureSdlc.Core.Numerals
import SecureSdlc.Mcp.Protocol
import SecureSdlc.Runner.Executor

/-!
The MCP server, `mcp/server.py`. The clock is an argument of every request. A tool
keeps its validators only, so the document that `tools/list` shows for it is a
parameter of the server.
-/

namespace SecureSdlc.Mcp

open Core Evidence Runner Tools

universe u

def protocolVersion : PyStr := py "2024-11-05"
def serverName : PyStr := py "secure-agentic-sdlc"
def serverVersion : PyStr := py "0.1.0"

structure MCPServer (σ : Type u) where
  executor : RunnerExecutor σ
  tools : ToolRegistry σ
  /-- `spec.args_schema`. -/
  argsSchema : ToolSpec σ → Mapping

/-- What a server changes: the world of its executor and its two counters. -/
structure Session (σ : Type u) where
  host : Host σ
  decisionSeq : Nat := 0
  evidenceSeq : Nat := 0

/-- What `_now` prints and what the token check reads. -/
structure Clock where
  createdAt : PyStr
  now : Int

def decisionIdOf (n : Nat) : PyStr := py "PD-" ++ PyStr.zeroPadded 4 n

def evidenceIdOf (n : Nat) : PyStr := py "EV-" ++ PyStr.zeroPadded 4 n

/-- What `_call` takes from the parameters of a request. -/
structure CallParams where
  name : PyStr
  arguments : Mapping
  runId : PyStr
  token : PyStr
  scope : PyStr

variable (rt : Runtime)

/-- A string of the parameters that is not empty, or the message without it. -/
def requireText (params : Mapping) (field message : PyStr) : Except PyStr PyStr :=
  match Assoc.get params field with
  | some (.str text) => if text = [] then .error message else .ok text
  | _ => .error message

def authField (params : Mapping) (field : PyStr) : Except PyStr PyStr :=
  requireText params field (py "missing capability field " ++ reprStr rt field)

/-- The checks of `_call`, in their order, or the message of the first that fails. -/
def readCall (params : Mapping) : Except PyStr CallParams := do
  let name ← requireText params (py "name") (py "missing tool name")
  let arguments ← match Assoc.get params (py "arguments") with
    | none => .ok []
    | some (.obj arguments) => .ok arguments
    | some _ => .error (py "arguments must be an object")
  let runId ← authField rt params (py "run_id")
  let token ← authField rt params (py "token")
  let scope ← authField rt params (py "scope")
  pure ⟨name, arguments, runId, token, scope⟩

/-- `ensure_ascii=False`. -/
def wireStyle : JsonText.Style := { ensureAscii := false }

/-- The answer of `tools/call` to what the executor returned. -/
def callPayload (result : ExecutionResult) : Except PyError Mapping :=
  if result.allowed then do
    let payload := result.output.getD []
    let text ← JsonText.dumps rt wireStyle (.obj payload)
    pure [(py "content", .arr [.obj [(py "type", .str (py "text")), (py "text", .str text)]]),
      (py "isError", .bool false), (py "structuredContent", .obj payload)]
  else
    pure [
      (py "content",
        .arr [.obj [(py "type", .str (py "text")), (py "text", .str result.reason)]]),
      (py "isError", .bool true),
      (py "structuredContent", .obj [(py "reason", .str result.reason)])]

/-- `_initialize`. -/
def initializePayload : Mapping :=
  [(py "protocolVersion", .str protocolVersion),
    (py "serverInfo", .obj [(py "name", .str serverName), (py "version", .str serverVersion)]),
    (py "capabilities", .obj [(py "tools", .obj [])])]

variable {σ : Type u}

/-- The call of the executor, with the next two ids. -/
def Session.invocation (session : Session σ) (call : CallParams) (clock : Clock) : Invocation where
  runId := call.runId
  token := call.token
  tool := call.name
  args := call.arguments
  scope := call.scope
  createdAt := clock.createdAt
  decisionId := decisionIdOf (session.decisionSeq + 1)
  evidenceId := evidenceIdOf (session.evidenceSeq + 1)

namespace MCPServer

variable (server : MCPServer σ)

def listEntry (spec : ToolSpec σ) : Json :=
  .obj [(py "name", .str spec.name), (py "description", .str spec.description),
    (py "inputSchema", .obj (server.argsSchema spec))]

/-- `_list_tools`. -/
def listTools : Except PyError Mapping := do
  let tools ← server.tools.names.mapM fun name =>
    match server.tools.get name with
    | .ok spec => .ok (server.listEntry spec)
    | .error e => .error e
  pure [(py "tools", .arr tools)]

/-- The execution of a call: its ids are used up, also when it raises. -/
def dispatch (call : CallParams) (clock : Clock) (session : Session σ) :
    Except PyError ExecutionResult × Session σ :=
  let (outcome, host) :=
    execute rt server.executor (session.invocation call clock) clock.now session.host
  (outcome, ⟨host, session.decisionSeq + 1, session.evidenceSeq + 1⟩)

/-- `_call`. -/
def call (requestId : Json) (params : Mapping) (clock : Clock) (session : Session σ) :
    Except PyError Mapping × Session σ :=
  match readCall rt params with
  | .error message => (.ok (error requestId invalidParams message), session)
  | .ok call =>
      let (outcome, session) := server.dispatch rt call clock session
      (do
        let payload ← callPayload rt (← outcome)
        pure (result requestId payload), session)

def paramsOf (message : Mapping) : Mapping :=
  match Assoc.get message (py "params") with
  | some (.obj params) => params
  | _ => []

def handle (message : Mapping) (clock : Clock) (session : Session σ) :
    Except PyError Mapping × Session σ :=
  let requestId := (Assoc.get message (py "id")).getD .null
  if Assoc.get message (py "jsonrpc") ≠ some (.str jsonrpcVersion) then
    (.ok (error requestId invalidRequest (py "jsonrpc must be 2.0")), session)
  else
    match Assoc.get message (py "method") with
    | some (.str method) =>
        if method = py "initialize" then (.ok (result requestId initializePayload), session)
        else if method = py "notifications/initialized" ∨ method = py "ping" then
          (.ok (result requestId []), session)
        else if method = py "tools/list" then
          (server.listTools.map (result requestId), session)
        else if method = py "tools/call" then
          server.call rt requestId (paramsOf message) clock session
        else
          (.ok (error requestId methodNotFound (py "unknown method " ++ reprStr rt method)),
            session)
    | _ => (.ok (error requestId invalidRequest (py "missing method")), session)

def handleLine (line : PyStr) (clock : Clock) (session : Session σ) :
    Except PyError PyStr × Session σ :=
  match parseLine rt line with
  | .error e => (.error e, session)
  | .ok none =>
      (JsonText.dumps rt {} (.obj (error .null parseError (py "invalid JSON"))), session)
  | .ok (some message) =>
      let (response, session) := server.handle rt message clock session
      (do JsonText.dumps rt wireStyle (.obj (← response)), session)

section Requests

variable {rt : Runtime} {message : Mapping}

/-- The call of the executor that a message asks for, if it asks for one. -/
def callOf (rt : Runtime) (message : Mapping) : Option CallParams :=
  if Assoc.get message (py "jsonrpc") = some (.str jsonrpcVersion) ∧
      Assoc.get message (py "method") = some (.str (py "tools/call")) then
    (readCall rt (paramsOf message)).toOption
  else none

def AsksList (message : Mapping) : Prop :=
  Assoc.get message (py "jsonrpc") = some (.str jsonrpcVersion) ∧
    Assoc.get message (py "method") = some (.str (py "tools/list"))

def idOf (message : Mapping) : Json := (Assoc.get message (py "id")).getD .null

theorem handle_of_call {call : CallParams} (h : callOf rt message = some call) (clock : Clock)
    (session : Session σ) :
    server.handle rt message clock session =
      (do
        let payload ← callPayload rt (← (server.dispatch rt call clock session).1)
        pure (result (idOf message) payload), (server.dispatch rt call clock session).2) := by
  rw [callOf] at h
  split at h
  · rename_i hasks
    obtain ⟨hversion, hmethod⟩ := hasks
    have hread : readCall rt (paramsOf message) = .ok call := by
      cases hread : readCall rt (paramsOf message) with
      | error text => simp [hread, Except.toOption] at h
      | ok other =>
          rw [hread] at h
          rw [Option.some.inj h]
    have hinit : py "tools/call" ≠ py "initialize" := by decide
    have hping : ¬ (py "tools/call" = py "notifications/initialized" ∨
        py "tools/call" = py "ping") := by decide
    have hlist : py "tools/call" ≠ py "tools/list" := by decide
    simp only [handle, hversion, hmethod, ne_eq, not_true_eq_false, if_false, hinit, hping, hlist,
      if_true, MCPServer.call, hread]
    rfl
  · cases h

theorem handle_list (h : AsksList message) (clock : Clock) (session : Session σ) :
    server.handle rt message clock session =
      (server.listTools.map (result (idOf message)), session) := by
  obtain ⟨hversion, hmethod⟩ := h
  have hinit : py "tools/list" ≠ py "initialize" := by decide
  have hping : ¬ (py "tools/list" = py "notifications/initialized" ∨
      py "tools/list" = py "ping") := by decide
  simp only [handle, hversion, hmethod, ne_eq, not_true_eq_false, if_false, hinit, hping, if_true]
  rfl

/-- Every other message is answered with an error, or with one of two fixed payloads, and
changes nothing. -/
theorem handle_other (hcall : callOf rt message = none) (hlist : ¬ AsksList message)
    (clock : Clock) (session : Session σ) :
    (∃ code ∈ [invalidRequest, methodNotFound, invalidParams], ∃ text,
      server.handle rt message clock session =
        (.ok (error (idOf message) code text), session)) ∨
    ∃ payload ∈ [initializePayload, []], server.handle rt message clock session =
      (.ok (result (idOf message) payload), session) := by
  by_cases hversion : Assoc.get message (py "jsonrpc") = some (.str jsonrpcVersion)
  · simp only [callOf, AsksList, hversion, true_and] at hcall hlist
    simp only [handle, hversion, ne_eq, not_true_eq_false, if_false]
    split
    · rename_i method hmethod
      simp only [hmethod, Option.some.injEq, Json.str.injEq] at hcall hlist
      by_cases hinit : method = py "initialize"
      · simp only [hinit, if_true]
        exact .inr ⟨initializePayload, List.mem_cons_self, rfl⟩
      by_cases hping : method = py "notifications/initialized" ∨ method = py "ping"
      · simp only [hinit, hping, if_true, if_false]
        exact .inr ⟨[], List.mem_cons_of_mem _ List.mem_cons_self, rfl⟩
      by_cases hasked : method = py "tools/call"
      · rw [if_pos hasked] at hcall
        simp only [hasked, if_true, MCPServer.call]
        cases hread : readCall rt (paramsOf message) with
        | error text => exact .inl ⟨invalidParams, by simp, text, rfl⟩
        | ok call => simp [hread, Except.toOption] at hcall
      · simp only [hinit, hping, hlist, hasked, if_false]
        exact .inl ⟨methodNotFound, by simp, _, rfl⟩
    · exact .inl ⟨invalidRequest, by simp, _, rfl⟩
  · simp only [handle, hversion, ne_eq, not_false_eq_true, if_true]
    exact .inl ⟨invalidRequest, by simp, _, rfl⟩

theorem handle_no_call (h : callOf rt message = none) (clock : Clock) (session : Session σ) :
    (server.handle rt message clock session).2 = session := by
  by_cases hlist : AsksList message
  · rw [server.handle_list hlist]
  · rcases server.handle_other h hlist clock session with ⟨_, -, _, heq⟩ | ⟨_, -, heq⟩
    · rw [heq]
    · rw [heq]

end Requests

end MCPServer

end SecureSdlc.Mcp

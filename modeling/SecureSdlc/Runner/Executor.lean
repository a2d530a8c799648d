import SecureSdlc.Evidence.Pipeline
import SecureSdlc.Policy.Decision
import SecureSdlc.Runner.Registry
import SecureSdlc.Tools.Registry

/-!
The runner-executor, `runner/executor.py`: policy first, then the capability, the
registered tool, its scope and its schemas. The host records what the code only
does: the payloads shown to the policy and the handler calls.
-/

namespace SecureSdlc.Runner

open Core Evidence Policy Tools

universe u

def policyPoint : PyStr := py "pre-tool-call"

def reasonExecuted : PyStr := py "EXECUTED"
def reasonUnknownTool : PyStr := py "UNKNOWN_TOOL"
def reasonInvalidArgs : PyStr := py "INVALID_TOOL_ARGS"
def reasonInvalidResult : PyStr := py "INVALID_TOOL_RESULT"
def reasonExecutionFailed : PyStr := py "EXECUTION_FAILED"

/-- `PolicyEvaluator.evaluate(point=…, payload=…)`. -/
abbrev PolicyEvaluator := PyStr → Json → Except PyError PolicyResult

structure ExecutionResult where
  allowed : Bool
  reason : PyStr
  decision : Mapping
  evidence : Mapping
  output : Option Mapping

/-- What an execution reads and changes outside of itself. -/
structure Host (σ : Type u) where
  world : σ
  store : EvidenceStore := {}
  consulted : List Json := []
  handled : List (PyStr × Mapping) := []

structure RunnerExecutor (σ : Type u) where
  policy : PolicyEvaluator
  capabilities : RunRegistry
  tools : ToolRegistry σ

/-- The arguments of `execute`. -/
structure Invocation where
  runId : PyStr
  token : PyStr
  tool : PyStr
  args : Mapping
  scope : PyStr
  createdAt : PyStr
  decisionId : PyStr
  evidenceId : PyStr
  resource : PyStr := []

variable (rt : Runtime)

def textOfAll : List Json → Except PyError (List PyStr)
  | [] => .ok []
  | v :: rest => do
      let text ← v.text rt
      let texts ← textOfAll rest
      pure (text :: texts)

/-- The resource the policy sees: the caller's, else the `path` argument, else the
`paths` list joined by commas. -/
def deriveResource (resource : PyStr) (args : Mapping) : Except PyError PyStr := do
  let resource ← if resource ≠ [] then pure resource
    else match Assoc.get args (py "path") with
      | some path => if path.truthy then path.text rt else pure []
      | none => pure []
  if resource ≠ [] then pure resource
  else match Assoc.get args (py "paths") with
    | some (.arr paths) => do
        let texts ← textOfAll rt paths
        pure (PyStr.join (py ",") texts)
    | _ => pure []

def policyPayload (tool resource scope : PyStr) (actor : Mapping) : Json :=
  .obj [(py "tool", .str tool), (py "path", .str resource), (py "scope", .str scope),
    (py "actor", .obj actor)]

/-- `sort_keys=True, ensure_ascii=False`. -/
def recordStyle : JsonText.Style := { sortKeys := true, ensureAscii := false }

/-- `_record`; the decision's id is the one it was built with. -/
def record (call : Invocation) (actor detail : Mapping) (store : EvidenceStore) :
    Except PyError (Mapping × EvidenceStore) := do
  let payload ← JsonText.dumps rt recordStyle
    (.obj [(py "tool", .str call.tool), (py "args", .obj call.args), (py "detail", .obj detail)])
  let (outcome, store) ← processToolOutput rt payload (py "tool." ++ call.tool) actor call.runId
    call.evidenceId call.createdAt store .untrusted none (some call.decisionId)
  pure (outcome.record, store)

variable {σ : Type u}

/-- Record an outcome and return it. -/
def conclude (call : Invocation) (actor detail : Mapping) (host : Host σ)
    (result : Mapping → ExecutionResult) : Except PyError ExecutionResult × Host σ :=
  match record rt call actor detail host.store with
  | .ok (evidence, store) => (.ok (result evidence), { host with store })
  | .error e => (.error e, host)

/-- `_deny`. -/
def deny (reason : PyStr) (call : Invocation) (actor decision : Mapping) (host : Host σ) :
    Except PyError ExecutionResult × Host σ :=
  conclude rt call actor [(py "denied", .str reason)] host fun evidence =>
    ⟨false, reason, decision, evidence, none⟩

/-- The handler call and what follows it. -/
def invoke (spec : ToolSpec σ) (call : Invocation) (actor decision : Mapping) (host : Host σ) :
    Except PyError ExecutionResult × Host σ :=
  let (output, world) := spec.handler call.args host.world
  let host := { host with world, handled := host.handled ++ [(call.tool, call.args)] }
  match output with
  | .error _ => deny rt reasonExecutionFailed call actor decision host
  | .ok output =>
      match spec.resultSchema (.obj output) with
      | .error e => (.error e, host)
      | .ok false => deny rt reasonInvalidResult call actor decision host
      | .ok true =>
          conclude rt call actor [(py "output", .obj output)] host fun evidence =>
            ⟨true, reasonExecuted, decision, evidence, some output⟩

/-- The gates after the policy allowed, in their order. -/
def runAllowed (executor : RunnerExecutor σ) (call : Invocation) (now : Int)
    (actor decision : Mapping) (host : Host σ) : Except PyError ExecutionResult × Host σ :=
  match executor.capabilities.check rt call.token call.tool call.scope now with
  | .error e => (.error e, host)
  | .ok check =>
      if check.valid then
        match executor.tools.get call.tool with
        | .error _ => deny rt reasonUnknownTool call actor decision host
        | .ok spec =>
            if spec.scope ≠ call.scope then deny rt reasonScopeMismatch call actor decision host
            else
              match spec.argsSchema (.obj call.args) with
              | .error e => (.error e, host)
              | .ok false => deny rt reasonInvalidArgs call actor decision host
              | .ok true => invoke rt spec call actor decision host
      else deny rt check.reason call actor decision host

def execute (executor : RunnerExecutor σ) (call : Invocation) (now : Int) (host : Host σ) :
    Except PyError ExecutionResult × Host σ :=
  match executor.capabilities.get call.runId with
  | none => (runUnknown call.runId, host)
  | some run =>
      match deriveResource rt call.resource call.args with
      | .error e => (.error e, host)
      | .ok resource =>
          let payload := policyPayload call.tool resource call.scope run.actor
          let host := { host with consulted := host.consulted ++ [payload] }
          match executor.policy policyPoint payload with
          | .error e => (.error e, host)
          | .ok result =>
              let decision := buildPolicyDecision result call.decisionId call.createdAt run.actor
                call.runId policyPoint []
              if result.allow then runAllowed rt executor call now run.actor decision host
              else
                match result.reasonCodes with
                | [] => (.error { kind := .indexError }, host)
                | reason :: _ => deny rt reason call run.actor decision host

end SecureSdlc.Runner

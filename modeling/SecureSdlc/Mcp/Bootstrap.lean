import SecureSdlc.Core.JsonText
import SecureSdlc.Runner.Registry
import SecureSdlc.Tools.Registry

/-!
The capability bootstrap, `mcp/bootstrap.py`. The clock that the token is issued at is an
argument. A member that is there is left as it is, also when it is null.
-/

namespace SecureSdlc.Mcp

open Core Runner Tools

universe u

def capabilityFields : List PyStr := [py "run_id", py "token", py "scope"]

/-- `params.setdefault(key, value)`. -/
def setDefault (params : Mapping) (key : PyStr) (value : Json) : Mapping :=
  if (Assoc.get params key).isSome then params else Assoc.set params key value

/-- `isinstance(params.get(field), str) and params[field]`. -/
def holdsText (params : Mapping) (field : PyStr) : Bool :=
  match Assoc.get params field with
  | some (.str text) => decide (text ≠ [])
  | _ => false

variable {σ : Type u}

/-- The parameters, the name and the tool of a call that a token is minted for. -/
def mintTarget (tools : ToolRegistry σ) (message : Mapping) :
    Option (Mapping × PyStr × ToolSpec σ) :=
  if Assoc.get message (py "method") ≠ some (.str (py "tools/call")) then none
  else
    match Assoc.get message (py "params") with
    | some (.obj params) =>
        if capabilityFields.all (holdsText params) then none
        else
          match Assoc.get params (py "name") with
          | some (.str name) =>
              match tools.get name with
              | .ok spec => some (params, name, spec)
              | .error _ => none
          | _ => none
    | _ => none

/-- The message with the fields that it lacks. -/
def withCapability (message params : Mapping) (runId scope token : PyStr) : Mapping :=
  Assoc.set message (py "params") (.obj
    (setDefault (setDefault (setDefault params (py "run_id") (.str runId)) (py "scope")
      (.str scope)) (py "token") (.str token)))

/-- `inject_capability`; a token is issued also where the caller has one. -/
def injectCapability (rt : Runtime) (capabilities : RunRegistry) (tools : ToolRegistry σ)
    (runId line : PyStr) (now : Int) : Except PyError PyStr :=
  match JsonText.loads rt line with
  | .error e => if e.kind = .jsonDecodeError then .ok line else .error e
  | .ok (.obj message) =>
      match mintTarget tools message with
      | none => .ok line
      | some (params, name, spec) => do
          let token ← capabilities.issue rt runId name spec.scope defaultTtlSeconds now
          JsonText.dumps rt {}
            (.obj (withCapability message params runId spec.scope token))
  | .ok _ => .ok line

end SecureSdlc.Mcp

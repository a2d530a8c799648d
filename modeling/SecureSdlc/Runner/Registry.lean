import SecureSdlc.Core.Run
import SecureSdlc.Runner.Capability

/-!
The ephemeral run registry, `runner/registry.py`. Clock readings and fresh ids are
arguments; a history is a list of the registry's state changing calls.
-/

namespace SecureSdlc.Runner

open Core

structure Run where
  runId : PyStr
  actor : Mapping
  createdAt : Int
  finished : Bool := false

structure RunRegistry where
  secret : Bytes
  runs : List (PyStr × Run) := []

def defaultTtlSeconds : Int := 300

def runUnknown {α : Type} (runId : PyStr) : Except PyError α :=
  .error { kind := .runUnknownError, message := runId }

namespace RunRegistry

variable (rt : Runtime)

/-- `start`; an empty or missing id is replaced by a fresh one. -/
def start (registry : RunRegistry) (actor : Mapping) (runId : Option PyStr) (fresh : PyStr)
    (now : Int) : Run × RunRegistry :=
  let id := match runId with
    | some id => if id = [] then py "RUN-" ++ fresh else id
    | none => py "RUN-" ++ fresh
  let run : Run := { runId := id, actor, createdAt := now }
  (run, { registry with runs := Assoc.set registry.runs id run })

def get (registry : RunRegistry) (runId : PyStr) : Option Run :=
  Assoc.get registry.runs runId

def finish (registry : RunRegistry) (runId : PyStr) : Except PyError RunRegistry :=
  match registry.get runId with
  | none => runUnknown runId
  | some run =>
      .ok { registry with runs := Assoc.set registry.runs runId { run with finished := true } }

def issue (registry : RunRegistry) (runId tool scope : PyStr) (ttlSeconds now : Int) :
    Except PyError PyStr :=
  match registry.get runId with
  | none => runUnknown runId
  | some run =>
      if run.finished then runUnknown runId
      else issueToken rt registry.secret ⟨runId, tool, scope, now + ttlSeconds⟩

def reject (capability : Capability) (reason : PyStr) : CapabilityCheck :=
  ⟨false, reason, some capability.runId, some capability.tool, some capability.scope⟩

/-- The verdict on a decoded capability. -/
def checkCapability (registry : RunRegistry) (capability : Capability) (tool scope : PyStr)
    (now : Int) : CapabilityCheck :=
  match registry.get capability.runId with
  | none => reject capability reasonRunUnknown
  | some run =>
      if run.finished then reject capability reasonRunFinished
      else if capability.expiresAt < now then reject capability reasonCapabilityExpired
      else if capability.tool ≠ tool then reject capability reasonToolMismatch
      else if capability.scope ≠ scope then reject capability reasonScopeMismatch
      else ⟨true, capabilityValid, some capability.runId, some capability.tool,
        some capability.scope⟩

def check (registry : RunRegistry) (token tool scope : PyStr) (now : Int) :
    Except PyError CapabilityCheck := do
  let decoded ← decodeToken rt registry.secret token
  match decoded.capability with
  | none =>
      let reason := match decoded.error with
        | some error => if error = [] then reasonRunUnknown else error
        | none => reasonRunUnknown
      pure ⟨false, reason, none, none, none⟩
  | some capability => pure (registry.checkCapability capability tool scope now)

end RunRegistry

inductive RegistryCall where
  | start (actor : Mapping) (runId : Option PyStr) (fresh : PyStr) (now : Int)
  | issue (runId tool scope : PyStr) (ttlSeconds now : Int)
  | finish (runId : PyStr)

/-- The registry after a call; a call that raises and `issue` leave it as it is. -/
def RunRegistry.after (registry : RunRegistry) : RegistryCall → RunRegistry
  | .start actor runId fresh now => (registry.start actor runId fresh now).2
  | .issue _ _ _ _ _ => registry
  | .finish runId =>
      match registry.finish runId with
      | .ok registry => registry
      | .error _ => registry

/-- The registry a history of calls leads to. -/
def RunRegistry.replay (secret : Bytes) (history : List RegistryCall) : RunRegistry :=
  run RunRegistry.after { secret } history

end SecureSdlc.Runner

import SecureSdlc.Core.Rego

/-!
The pre-tool-call policy, `policies/pre_tool_call.rego`. `contains` is undefined,
and its rule silent, when the path is not a string.
-/

namespace SecureSdlc.Policy.PreToolCall

open Core Core.Rego

def allowedTools : List PyStr :=
  [py "read_file", py "write_file", py "list_files", py "run_tests",
    py "read_artifact", py "write_artifact", py "list_artifacts", py "open_pr",
    py "skill.grill", py "skill.grill-security", py "skill.planner", py "skill.task-writer",
    py "skill.reviewer"]

def sensitiveMarkers : List PyStr :=
  [py ".env", py "secrets/", py "credentials/", py ".pem", py ".key", py "id_rsa",
    py "id_ed25519"]

def protectedPaths : List PyStr :=
  [py ".github/", py "contracts/", py "policies/", py "security/", py "infra/", py "specs/",
    py ".opencode/", py "docs/adr/", py "docs/roadmap.md", py "baseline.json",
    py "ARCHITECTURE_BASELINE.md"]

inductive DenyReason where
  | protectedPath
  | sensitivePath
  | toolNotInAllowlist
deriving DecidableEq, Repr

def DenyReason.code : DenyReason → PyStr
  | .protectedPath => py "PROTECTED_PATH"
  | .sensitivePath => py "SENSITIVE_PATH"
  | .toolNotInAllowlist => py "TOOL_NOT_IN_ALLOWLIST"

variable (opa : Engine) (input : Json)

/-- `some marker in markers; contains(input.path, marker)`. -/
def pathContains (markers : List PyStr) : Bool :=
  match field (some input) (py "path") with
  | some (.str path) => markers.any fun marker => PyStr.hasSubstr path marker
  | _ => false

def fires : DenyReason → Bool
  | .toolNotInAllowlist =>
      opa.absent (field (some input) (py "tool")) fun tool => inSet allowedTools tool
  | .sensitivePath => pathContains input sensitiveMarkers
  | .protectedPath =>
      isText (field (some input) (py "tool")) (py "write_file") &&
        pathContains input protectedPaths

def denyReasons : List DenyReason :=
  [.protectedPath, .sensitivePath, .toolNotInAllowlist].filter (fires opa input)

def decision : Decision := Decision.of ((denyReasons opa input).map DenyReason.code)

end SecureSdlc.Policy.PreToolCall

import SecureSdlc.Core.Rego
import SecureSdlc.Policy.Client

/-!
The pre-deployment gate: the rules of `policies/pre_deployment.rego`, and the builders of
`policy/pre_deployment.py` for its input and its decision.
-/

namespace SecureSdlc.Policy.PreDeployment

open Core Core.Rego

def requiredPoints : List PyStr := [py "artifact-transition", py "pr-ci"]

variable (opa : Engine) (input : Json)

def signature : Option Json := objectGet input (py "signature") (.obj [])

def sbom : Option Json := objectGet input (py "sbom") (.obj [])

def provenance : Option Json := objectGet input (py "provenance") (.obj [])

def policyDecisions : Option Json := objectGet input (py "policy_decisions") (.arr [])

def approvals : Option Json := objectGet input (py "approvals") (.arr [])

inductive DenyReason where
  | agentMayNotApprove
  | missingApproval
  | missingImage
  | missingPolicyDecision
  | missingProvenance
  | missingSbom
  | missingSignature
deriving DecidableEq, Repr

def DenyReason.code : DenyReason → PyStr
  | .agentMayNotApprove => py "AGENT_MAY_NOT_APPROVE"
  | .missingApproval => py "MISSING_APPROVAL"
  | .missingImage => py "MISSING_IMAGE"
  | .missingPolicyDecision => py "MISSING_POLICY_DECISION"
  | .missingProvenance => py "MISSING_PROVENANCE"
  | .missingSbom => py "MISSING_SBOM"
  | .missingSignature => py "MISSING_SIGNATURE"

/-- Statements that are neither `false` nor undefined hold. -/
def holds : Json → Bool
  | .bool false => false
  | _ => true

def pointAllowed (point : PyStr) : Bool :=
  (elements (policyDecisions input)).any fun decision =>
    isText (field (some decision) (py "point")) point &&
      isText (field (some decision) (py "decision")) (py "allow")

def actorType (approval : Json) : Option Json :=
  field (field (some approval) (py "actor")) (py "type")

/-- `approval.role == input.required_approver_role`. -/
def roleMatches (approval : Json) : Bool :=
  match field (some approval) (py "role"), field (some input) (py "required_approver_role") with
  | some role, some required => opa.eq role required
  | _, _ => false

def approvalPresent : Bool :=
  (elements (approvals input)).any fun approval =>
    roleMatches opa input approval && isText (actorType approval) (py "human")

/-- The bodies of the `deny_reasons` rules. -/
def fires : DenyReason → Bool
  | .missingImage => isText (objectGet input (py "image") (.str [])) []
  | .missingSignature => opa.absent (field (signature input) (py "verified")) holds
  | .missingSbom => opa.absent (field (sbom input) (py "present")) holds
  | .missingProvenance => opa.absent (field (provenance input) (py "verified")) holds
  | .missingPolicyDecision => requiredPoints.any fun point => !pointAllowed input point
  | .missingApproval => !approvalPresent opa input
  | .agentMayNotApprove =>
      (elements (approvals input)).any fun approval => isText (actorType approval) (py "agent")

def denyReasons : List DenyReason :=
  [.agentMayNotApprove, .missingApproval, .missingImage, .missingPolicyDecision,
    .missingProvenance, .missingSbom, .missingSignature].filter (fires opa input)

def decision : Decision := Decision.of ((denyReasons opa input).map DenyReason.code)

/-- The keyword arguments of `build_deployment_input`. -/
structure Arguments where
  image : Json
  signature : Json
  sbom : Json
  provenance : Json
  policyDecisions : Json
  requiredApproverRole : Json
  approvals : Json

def point : PyStr := py "pre-deployment"

/-- `[dict(entry) for entry in value]`. -/
def dictsOf (value : Json) : Except PyError Json := do
  let entries ← (← value.iterate).mapM Json.toDict
  pure (.arr (entries.map .obj))

def buildDeploymentInput (arguments : Arguments) : Except PyError Mapping := do
  let signature ← arguments.signature.toDict
  let sbom ← arguments.sbom.toDict
  let provenance ← arguments.provenance.toDict
  let policyDecisions ← dictsOf arguments.policyDecisions
  let approvals ← dictsOf arguments.approvals
  pure [(py "image", arguments.image),
    (py "signature", .obj signature),
    (py "sbom", .obj sbom),
    (py "provenance", .obj provenance),
    (py "policy_decisions", policyDecisions),
    (py "required_approver_role", arguments.requiredApproverRole),
    (py "approvals", approvals)]

def evaluateDeployment (rt : Runtime) (policy : PolicyClient) (arguments : Arguments) :
    Except PyError PolicyResult := do
  policy.evaluate rt point (.obj (← buildDeploymentInput arguments))

def buildDeploymentDecision (result : PolicyResult) (artifactId createdAt : PyStr)
    (actor : Mapping) (runId : PyStr) (links : List Mapping) : Mapping :=
  buildPolicyDecision result artifactId createdAt actor runId point links

end SecureSdlc.Policy.PreDeployment

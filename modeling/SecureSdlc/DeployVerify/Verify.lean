import SecureSdlc.Artifacts.Registry
import SecureSdlc.Policy.PreDeployment

/-!
Release verification, `deploy_verify/`: the check of a candidate, its evidence bundle
and the verdict of the pre-deployment policy. The validator's messages are left out of
the exception.
-/

namespace SecureSdlc.DeployVerify

open Core Policy Artifacts

variable (rt : Runtime)

/-- `canonical_json`. -/
def canonicalJson (data : Json) : Except PyError PyStr :=
  JsonText.dumps rt JsonText.canonical data

/-- `sha256_digest`. -/
def sha256Digest (data : Json) : Except PyError PyStr := do
  sha256OfText rt (← canonicalJson rt data)

/-- `CANDIDATE_SCHEMA`. -/
def candidateSchema : PyStr := py "release-candidate" ++ schemaSuffix

def validateCandidate (source : SchemaSource) (fs : FileSystem) : Json → Except PyError Unit
  | .obj fields => do
      let valid ← validateDocument source fs fields candidateSchema
      if valid then pure () else .error { kind := .candidateError }
  | _ => .error { kind := .candidateError, message := py "release candidate must be a JSON object" }

/-- `OBJECT_ITEMS`. -/
def objectItems : List PyStr := [py "signature", py "sbom", py "provenance"]

def evidenceItem (kind ref : PyStr) (value : Mapping) : Except PyError Json := do
  let digest ← sha256Digest rt (.obj value)
  pure (.obj [(py "kind", .str kind), (py "ref", .str ref), (py "digest", .str digest)])

def objectItem (candidate : Mapping) (kind : PyStr) : Except PyError (List Json) :=
  match Assoc.get candidate kind with
  | some (.obj value) => do pure [← evidenceItem rt kind (py "candidate:" ++ kind) value]
  | _ => pure []

def decisionItem : Json → Except PyError (List Json)
  | .obj decision => do
      let point ← ((Assoc.get decision (py "point")).getD (.str [])).text rt
      pure [← evidenceItem rt (py "policy-decision") point decision]
  | _ => pure []

def approverId : Json → Except PyError PyStr
  | .obj actor => ((Assoc.get actor (py "id")).getD (.str [])).text rt
  | _ => pure []

def approvalItem : Json → Except PyError (List Json)
  | .obj approval => do
      let actorId ← approverId rt ((Assoc.get approval (py "actor")).getD (.obj []))
      let role ← ((Assoc.get approval (py "role")).getD (.str [])).text rt
      pure [← evidenceItem rt (py "approval") (role ++ py ":" ++ actorId) approval]
  | _ => pure []

/-- `_collect_items`. -/
def collectItems (candidate : Mapping) : Except PyError (List Json) := do
  let objects ← objectItems.mapM (objectItem rt candidate)
  let decisions ← (← iterateMember candidate (py "policy_decisions")).mapM (decisionItem rt)
  let approvals ← (← iterateMember candidate (py "approvals")).mapM (approvalItem rt)
  pure (objects.flatten ++ decisions.flatten ++ approvals.flatten)

/-- `bundle_digest`. -/
def bundleDigest (image candidateDigest : PyStr) (items : List Json) : Except PyError PyStr :=
  sha256Digest rt (.obj [(py "image", .str image), (py "candidate_digest", .str candidateDigest),
    (py "items", .arr items)])

/-- `build_evidence_bundle`; empty links are left out. -/
def buildEvidenceBundle (artifactId createdAt : PyStr) (actor : Mapping) (runId : PyStr)
    (candidate : Mapping) (links : List Mapping) : Except PyError Mapping := do
  let image ← ((Assoc.get candidate (py "image")).getD (.str [])).text rt
  let candidateDigest ← sha256Digest rt (.obj candidate)
  let items ← collectItems rt candidate
  let digest ← bundleDigest rt image candidateDigest items
  pure ([(py "schema_version", .str (py "1.0.0")),
      (py "artifact_type", .str (py "evidence-bundle")),
      (py "id", .str artifactId),
      (py "created_at", .str createdAt),
      (py "actor", .obj actor),
      (py "run_id", .str runId),
      (py "image", .str image),
      (py "candidate_digest", .str candidateDigest),
      (py "bundle_digest", .str digest),
      (py "items", .arr items)]
    ++ (if links.isEmpty then [] else [(py "links", .arr (links.map .obj))]))

structure ReleaseVerification where
  allow : Bool
  reasonCodes : List PyStr
  decision : Mapping
  bundle : Mapping

/-- `_deployment_input`. -/
def deploymentInput (candidate : Mapping) : Except PyError PreDeployment.Arguments := do
  pure {
    image := ← item candidate (py "image")
    signature := ← item candidate (py "signature")
    sbom := ← item candidate (py "sbom")
    provenance := ← item candidate (py "provenance")
    policyDecisions := ← item candidate (py "policy_decisions")
    requiredApproverRole := ← item candidate (py "required_approver_role")
    approvals := ← item candidate (py "approvals") }

/-- The keyword arguments of `verify_release`. -/
structure Verification where
  bundleId : PyStr
  decisionId : PyStr
  createdAt : PyStr
  actor : Mapping
  runId : PyStr

/-- `verify_release` of a candidate that has been validated. -/
def verifyValidated (policy : PolicyClient) (as : Verification) (candidate : Mapping) :
    Except PyError ReleaseVerification := do
  let bundle ← buildEvidenceBundle rt as.bundleId as.createdAt as.actor as.runId candidate []
  let result ← PreDeployment.evaluateDeployment rt policy (← deploymentInput candidate)
  let decision := PreDeployment.buildDeploymentDecision result as.decisionId as.createdAt as.actor
    as.runId [[(py "rel", .str (py "evidence")), (py "href", .str as.bundleId)]]
  pure {
    allow := result.allow
    reasonCodes := result.reasonCodes
    decision
    bundle := Assoc.set bundle (py "policy_decision_ref") (.str as.decisionId) }

def verifyRelease (source : SchemaSource) (fs : FileSystem) (policy : PolicyClient)
    (as : Verification) (candidate : Json) : Except PyError ReleaseVerification := do
  validateCandidate source fs candidate
  match candidate with
  | .obj fields => verifyValidated rt policy as fields
  | _ => .error { kind := .typeError }

end SecureSdlc.DeployVerify

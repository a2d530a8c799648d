import SecureSdlc.Core.Json

/-!
The normalised outcome of a policy evaluation and the `policy-decision` document
built from it (`policy/client.py`, `policy/decision.py`).
-/

namespace SecureSdlc.Policy

open Core

structure PolicyResult where
  allow : Bool
  reasonCodes : List PyStr
  policyBundleVersion : PyStr
  inputDigest : PyStr
deriving DecidableEq

/-- `build_policy_decision`; empty links are left out. -/
def buildPolicyDecision (result : PolicyResult) (artifactId createdAt : PyStr) (actor : Mapping)
    (runId point : PyStr) (links : List Mapping) : Mapping :=
  [(py "schema_version", .str (py "1.0.0")),
    (py "artifact_type", .str (py "policy-decision")),
    (py "id", .str artifactId),
    (py "created_at", .str createdAt),
    (py "actor", .obj actor),
    (py "run_id", .str runId),
    (py "point", .str point),
    (py "decision", .str (if result.allow then py "allow" else py "deny")),
    (py "reason_codes", .arr (result.reasonCodes.map .str)),
    (py "policy_bundle_version", .str result.policyBundleVersion),
    (py "input_digest", .str result.inputDigest)]
  ++ (if links.isEmpty then [] else [(py "links", .arr (links.map .obj))])

end SecureSdlc.Policy

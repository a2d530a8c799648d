import SecureSdlc.Core.Schema

/-!
The schema files under `contracts/schemas`. Members of a closed object are given
as the required ones and the others. `common.schema.json` only has definitions:
as a schema of its own it constrains nothing.
-/

namespace SecureSdlc.Contracts

open Core

def isUpper (c : CodePoint) : Bool := decide (cp 'A' ≤ c ∧ c ≤ cp 'Z')

def isLower (c : CodePoint) : Bool := decide (cp 'a' ≤ c ∧ c ≤ cp 'z')

def isDigit (c : CodePoint) : Bool := decide (cp '0' ≤ c ∧ c ≤ cp '9')

/-- Exactly `n` digits. -/
def digits (n : Nat) (s : PyStr) : Bool := decide (s.length = n) && s.all isDigit

/-- What `$` adds under `re.search`: a text may also end in one newline. -/
def upToNewline (body : PyStr → Bool) (s : PyStr) : Bool :=
  body s || (decide (s.getLast? = some (cp '\n')) && body s.dropLast)

def identifierBody : PyStr → Bool
  | [] => false
  | c :: rest =>
      isUpper c &&
        match rest.dropWhile fun c => isUpper c || isDigit c with
        | dash :: number => decide (dash = cp '-') && digits 4 number
        | [] => false

/-- `^[A-Z][A-Z0-9]*-[0-9]{4}$` -/
def isIdentifier : PyStr → Bool := upToNewline identifierBody

/-- `^RUN-[A-Za-z0-9-]{6,}$` -/
def isRunId : PyStr → Bool := upToNewline fun s =>
  PyStr.startsWith s (py "RUN-") && decide (10 ≤ s.length) &&
    (s.drop 4).all fun c => isUpper c || isLower c || isDigit c || decide (c = cp '-')

/-- `^[a-f0-9]{64}$` -/
def isSha256 : PyStr → Bool := upToNewline fun s =>
  decide (s.length = 64) && s.all fun c => isDigit c || decide (cp 'a' ≤ c ∧ c ≤ cp 'f')

/-- `^[0-9]+\.[0-9]+\.[0-9]+$` -/
def isSemver : PyStr → Bool := upToNewline fun s =>
  let parts := PyStr.split s (cp '.')
  decide (parts.length = 3) && parts.all fun part => !part.isEmpty && part.all isDigit

/-- `^feature/FEAT-[0-9]{4}-TASK-[0-9]{4}-[a-z0-9-]+$` -/
def isTaskBranch : PyStr → Bool := upToNewline fun s =>
  PyStr.startsWith s (py "feature/FEAT-") && digits 4 ((s.drop 13).take 4) &&
    PyStr.startsWith (s.drop 17) (py "-TASK-") && digits 4 ((s.drop 23).take 4) &&
    PyStr.startsWith (s.drop 27) (py "-") && decide (29 ≤ s.length) &&
    (s.drop 28).all fun c => isLower c || isDigit c || decide (c = cp '-')

abbrev text : Schema := .string .free

abbrev nonEmpty : Schema := .string (.minLength 1)

abbrev someObject : Schema := .object false [] []

def exactly (s : String) : Schema := .string (.const (py s))

def oneOf (ss : List String) : Schema := .string (.enum (ss.map py))

def listOf (items : Schema) : Schema := .array 0 items

def nonEmptyListOf (items : Schema) : Schema := .array 1 items

def members (ms : List (String × Schema)) : List (PyStr × Schema) :=
  ms.map fun m => (py m.1, m.2)

/-- A closed object: its required members and the others. -/
def closed (required optional : List (String × Schema)) : Schema :=
  .object true (required.map fun m => py m.1) (members (required ++ optional))

def identifier : Schema :=
  .string (.pattern isIdentifier)

def runId : Schema :=
  .string (.pattern isRunId)

def sha256 : Schema :=
  .string (.pattern isSha256)

def isoDateTime : Schema :=
  text

def semver : Schema :=
  .string (.pattern isSemver)

def trustTier : Schema :=
  oneOf ["trusted", "untrusted", "sensitive"]

def severity : Schema :=
  oneOf ["critical", "high", "medium", "low"]

def strideCategory : Schema :=
  oneOf
    ["spoofing", "tampering", "repudiation", "information_disclosure", "denial_of_service",
      "elevation_of_privilege"]

def actorRole : Schema :=
  oneOf
    ["author", "security-reviewer", "platform-owner", "release-approver", "grill",
      "grill-security", "planner", "task-writer", "implementer", "reviewer"]

def actor : Schema :=
  closed
    [("type", oneOf ["human", "agent", "ci"]),
      ("id", nonEmpty),
      ("role", actorRole)]
    []

def approval : Schema :=
  closed
    [("approved", .boolean),
      ("by", actor),
      ("at", isoDateTime)]
    [("note", text),
      ("solo_override", .boolean),
      ("solo_override_reason", text)]

def link : Schema :=
  closed
    [("rel", oneOf
          ["requirement", "threat", "control", "task", "code", "test", "review", "specification",
            "plan", "evidence", "policy-decision", "waiver", "pr", "commit"]),
      ("href", nonEmpty)]
    []

/-- A workflow artifact: the members every artifact schema opens with, and its own. -/
def artifact (kind : String) (required optional : List (String × Schema)) : Schema :=
  closed
    ([("schema_version", exactly "1.0.0"),
      ("artifact_type", exactly kind),
      ("id", identifier),
      ("created_at", isoDateTime)] ++ required)
    optional

def baseline : Schema :=
  closed
    [("baseline_id", text),
      ("version", semver),
      ("status", oneOf ["draft", "approved", "superseded"]),
      ("profile", oneOf ["strict", "personal-project"]),
      ("approved_by", nonEmptyListOf actorRole),
      ("approved_at", text),
      ("languages", someObject),
      ("communication", someObject),
      ("identity", someObject),
      ("policy_engine", someObject),
      ("containerization", someObject),
      ("observability", someObject),
      ("security_tooling", someObject),
      ("deployment", someObject),
      ("supply_chain_controls_always_required", listOf (oneOf
          ["signing", "sbom", "secret-scanning"]))]
    [("$schema", text),
      ("purpose", text)]

def evidenceBundle : Schema :=
  artifact "evidence-bundle"
    [("actor", actor),
      ("run_id", runId),
      ("image", nonEmpty),
      ("candidate_digest", sha256),
      ("bundle_digest", sha256),
      ("items", nonEmptyListOf (closed
          [("kind", oneOf ["signature", "sbom", "provenance", "policy-decision", "approval"]),
            ("ref", text),
            ("digest", sha256)]
          []))]
    [("policy_decision_ref", text),
      ("links", listOf link)]

def evidenceRecord : Schema :=
  artifact "evidence-record"
    [("actor", actor),
      ("run_id", runId),
      ("action", nonEmpty),
      ("trust_tier", trustTier),
      ("sensitivity", oneOf ["none", "redacted", "sensitive"])]
    [("artifact_digest", sha256),
      ("artifact_ref", text),
      ("policy_decision_ref", text),
      ("compression", closed
          [("applied", .boolean)]
          [("original_digest", sha256),
            ("original_size_bytes", .integer (some 0)),
            ("compressed_size_bytes", .integer (some 0)),
            ("recovery_handle", text)]),
      ("links", listOf link)]

def idea : Schema :=
  artifact "idea"
    [("created_by", actor),
      ("title", nonEmpty),
      ("problem", nonEmpty),
      ("actor_goal", nonEmpty),
      ("source", closed
          [("kind", oneOf ["issue", "comment", "document"]),
            ("trust_tier", trustTier)]
          [("ref", text)])]
    [("notes", text)]

def plan : Schema :=
  artifact "plan"
    [("created_by", actor),
      ("feature_id", identifier),
      ("status", oneOf ["draft", "approved", "superseded"]),
      ("slices", nonEmptyListOf (closed
          [("slice_id", text),
            ("title", text),
            ("requirement_ids", listOf identifier),
            ("control_ids", listOf identifier)]
          [("depends_on", listOf text),
            ("notes", text)]))]
    [("run_id", runId),
      ("links", listOf link),
      ("approval", approval)]

def policyDecision : Schema :=
  artifact "policy-decision"
    [("actor", actor),
      ("run_id", runId),
      ("point", oneOf ["pre-tool-call", "artifact-transition", "pr-ci", "pre-deployment"]),
      ("decision", oneOf ["allow", "deny"]),
      ("reason_codes", nonEmptyListOf text),
      ("policy_bundle_version", text),
      ("input_digest", sha256)]
    [("links", listOf link)]

def releaseCandidate : Schema :=
  artifact "release-candidate"
    [("actor", actor),
      ("run_id", runId),
      ("image", nonEmpty),
      ("signature", closed
          [("verified", .boolean)]
          [("issuer", text),
            ("identity", text)]),
      ("sbom", closed
          [("present", .boolean)]
          [("digest", sha256),
            ("format", text)]),
      ("provenance", closed
          [("verified", .boolean)]
          [("builder", text),
            ("attestation_id", text)]),
      ("policy_decisions", listOf (closed
          [("point", nonEmpty),
            ("decision", oneOf ["allow", "deny"])]
          [("href", text)])),
      ("required_approver_role", actorRole),
      ("approvals", listOf (closed
          [("role", actorRole),
            ("actor", actor)]
          []))]
    [("image_digest", sha256),
      ("links", listOf link)]

def review : Schema :=
  artifact "review"
    [("created_by", actor),
      ("task_id", identifier),
      ("subject_digest", sha256),
      ("verdict", oneOf ["approved", "changes_requested"]),
      ("findings", listOf (closed
          [("id", identifier),
            ("severity", severity),
            ("summary", text)]
          [("location", text)]))]
    [("run_id", runId),
      ("links", listOf link),
      ("implementer_run_id", runId)]

def securityReview : Schema :=
  artifact "security-review"
    [("created_by", actor),
      ("feature_id", identifier),
      ("threat_model_id", identifier),
      ("verdict", oneOf ["approved", "changes_requested", "rejected"]),
      ("risk_dispositions", listOf (closed
          [("risk_id", identifier),
            ("severity", severity),
            ("disposition", oneOf
                ["mitigated", "waived_medium", "accepted_low", "open_blocking"])]
          [("waiver_id", identifier),
            ("verification_evidence", text)]))]
    [("run_id", runId),
      ("links", listOf link)]

def specification : Schema :=
  artifact "specification"
    [("created_by", actor),
      ("feature_id", identifier),
      ("status", oneOf ["draft", "in_review", "approved", "rejected", "superseded"]),
      ("actor_goal", closed
          [("actors", nonEmptyListOf text),
            ("goal", nonEmpty)]
          []),
      ("scope_boundary", closed
          [("in_scope", listOf text),
            ("out_of_scope", listOf text)]
          []),
      ("data_model", listOf (closed
          [("entity", text),
            ("fields", listOf text)]
          [("constraints", listOf text)])),
      ("api_contract", listOf (closed
          [("operation_id", text),
            ("kind", oneOf ["rest", "grpc", "event"]),
            ("summary", text)]
          [("contract_ref", text)])),
      ("state_lifecycle", listOf (closed
          [("from", text),
            ("to", text),
            ("actor", text)]
          [])),
      ("dependencies", listOf text),
      ("non_goals", listOf text),
      ("acceptance_criteria", nonEmptyListOf (closed
          [("requirement_id", identifier),
            ("criterion", nonEmpty)]
          [("verification", text)]))]
    [("run_id", runId),
      ("links", listOf link),
      ("approval", approval)]

def task : Schema :=
  artifact "task"
    [("created_by", actor),
      ("feature_id", identifier),
      ("plan_id", identifier),
      ("status", oneOf ["todo", "in_progress", "implemented", "in_review", "done", "blocked"]),
      ("title", nonEmpty),
      ("requirement_ids", nonEmptyListOf identifier),
      ("control_ids", listOf identifier),
      ("contract_changes", listOf text),
      ("code_changes", listOf text),
      ("tests", nonEmptyListOf (closed
          [("kind", oneOf
                ["unit", "api_acceptance", "authorization", "grpc_contract", "event_contract",
                  "integration", "security", "negative_pipeline", "e2e_smoke"]),
            ("ref", text),
            ("requirement_id", identifier)]
          [("control_id", identifier)]))]
    [("run_id", runId),
      ("links", listOf link),
      ("branch", .string (.pattern isTaskBranch))]

def threatModel : Schema :=
  artifact "threat-model"
    [("created_by", actor),
      ("feature_id", identifier),
      ("status", oneOf ["draft", "in_review", "approved", "rejected", "superseded"]),
      ("method", exactly "STRIDE"),
      ("data_flows", listOf (closed
          [("id", text),
            ("from", text),
            ("to", text),
            ("data", listOf text),
            ("crosses_trust_boundary", .boolean)]
          [])),
      ("risks", nonEmptyListOf (closed
          [("id", identifier),
            ("category", strideCategory),
            ("scenario", nonEmpty),
            ("severity", severity),
            ("control_id", identifier),
            ("verification_test", nonEmpty)]
          [("residual_risk", text),
            ("waiver_id", identifier)]))]
    [("run_id", runId),
      ("links", listOf link),
      ("approval", approval)]

def waiver : Schema :=
  artifact "waiver"
    [("created_by", actor),
      ("risk_id", identifier),
      ("severity", exactly "medium"),
      ("justification", nonEmpty),
      ("compensating_control", nonEmpty),
      ("owner", actor),
      ("expires_at", isoDateTime),
      ("status", oneOf ["active", "expired", "revoked"]),
      ("approved_by", actor)]
    [("links", listOf link)]

/-- The files by the name before `.schema.json`. -/
def schemaFiles : List (PyStr × Schema) :=
  [(py "baseline", baseline),
    (py "common", .anything),
    (py "evidence-bundle", evidenceBundle),
    (py "evidence-record", evidenceRecord),
    (py "idea", idea),
    (py "plan", plan),
    (py "policy-decision", policyDecision),
    (py "release-candidate", releaseCandidate),
    (py "review", review),
    (py "security-review", securityReview),
    (py "specification", specification),
    (py "task", task),
    (py "threat-model", threatModel),
    (py "waiver", waiver)]

/-- Every document of an artifact schema carries a well-formed id. -/
theorem valid_artifact_id {kind : String} {required optional : List (String × Schema)}
    {fields : List (PyStr × Json)}
    (h : (artifact kind required optional).valid (.obj fields) = true) :
    ∃ s, Assoc.get fields (py "id") = some (.str s) ∧ isIdentifier s = true := by
  obtain ⟨v, hv, hvalid⟩ := Schema.valid_member (k := py "id") (s := identifier) h
    (by simp) (by simp [members, Assoc.get, show py "schema_version" ≠ py "id" by decide,
      show py "artifact_type" ≠ py "id" by decide])
  obtain ⟨s, rfl, hs⟩ := (Schema.valid_string_iff _ v).mp hvalid
  exact ⟨s, hv, hs⟩

example : isIdentifier (py "TASK-0001") = true := by decide
example : isTaskBranch (py "feature/FEAT-0001-TASK-0002-add-x") = true := by decide

end SecureSdlc.Contracts

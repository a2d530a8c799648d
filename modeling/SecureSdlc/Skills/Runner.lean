import SecureSdlc.Runner.Executor
import SecureSdlc.Skills.Base

/-!
The skill runner, `skills/runner.py`, with the LLM adapter (`llm/base.py`) and the
validation of documents by schema name as parameters. The host records the
payloads shown to the policy and the requests put to the model.
-/

namespace SecureSdlc.Skills

open Core Evidence Policy Runner

def reasonCompleted : PyStr := py "COMPLETED"
def reasonUnknownSkill : PyStr := py "UNKNOWN_SKILL"
def reasonMissingContext : PyStr := py "MISSING_CONTEXT"
def reasonInvalidLlmOutput : PyStr := py "INVALID_LLM_OUTPUT"
def reasonSchemaInvalid : PyStr := py "SCHEMA_INVALID"

structure LLMRequest where
  role : PyStr
  systemPrompt : PyStr
  context : Mapping

structure LLMResponse where
  text : PyStr
  model : PyStr

structure SkillRunResult where
  allowed : Bool
  reason : PyStr
  decision : Mapping
  evidence : Mapping
  artifact : Option Mapping

structure SkillRunner where
  policy : PolicyEvaluator
  capabilities : RunRegistry
  skills : SkillRegistry
  complete : LLMRequest → Except PyError LLMResponse
  /-- `validate_document(document, schema_name, repo_root)` finds no error. -/
  validateDocument : PyStr → Json → Except PyError Bool

structure SkillHost where
  store : EvidenceStore := {}
  consulted : List Json := []
  prompted : List LLMRequest := []

/-- The arguments of `SkillRunner.run`. -/
structure SkillCall where
  runId : PyStr
  token : PyStr
  skillName : PyStr
  inputs : List ContextInput
  bindings : Mapping
  artifactId : PyStr
  createdAt : PyStr
  decisionId : PyStr
  evidenceId : PyStr
  scope : PyStr := py "skills"

def SkillCall.tool (call : SkillCall) : PyStr := py "skill." ++ call.skillName

variable (rt : Runtime)

/-- `_record`. -/
def recordText (text action : PyStr) (call : SkillCall) (actor : Mapping) (store : EvidenceStore) :
    Except PyError (Mapping × EvidenceStore) := do
  let (outcome, store) ← processToolOutput rt text action actor call.runId call.evidenceId
    call.createdAt store .untrusted none (some call.decisionId)
  pure (outcome.record, store)

/-- `_deny`, always called without a detail; an empty reason is recorded as such. -/
def denySkill (reason : PyStr) (call : SkillCall) (actor decision : Mapping) (host : SkillHost) :
    Except PyError SkillRunResult × SkillHost :=
  match recordText rt reason (py "skill.denied") call actor host.store with
  | .ok (evidence, store) => (.ok ⟨false, reason, decision, evidence, none⟩, { host with store })
  | .error e => (.error e, host)

def SkillCall.envelope (call : SkillCall) (actor : Mapping) : Mapping :=
  [(py "artifact_id", .str call.artifactId), (py "created_at", .str call.createdAt),
    (py "actor", .obj actor), (py "run_id", .str call.runId), (py "bindings", .obj call.bindings)]

/-- What becomes of the model's text once it is recorded. -/
def assembleArtifact (runner : SkillRunner) (skill : Skill) (call : SkillCall)
    (actor decision evidence : Mapping) (text : PyStr) : Except PyError SkillRunResult :=
  match extractJson rt text with
  | .error e =>
      if e.kind = .skillError then .ok ⟨false, reasonInvalidLlmOutput, decision, evidence, none⟩
      else .error e
  | .ok content => do
      let artifact ← skill.assemble content (call.envelope actor)
      let valid ← runner.validateDocument skill.outputSchema (.obj artifact)
      if valid then pure ⟨true, reasonCompleted, decision, evidence, some artifact⟩
      else pure ⟨false, reasonSchemaInvalid, decision, evidence, none⟩

/-- The model call and what follows it. -/
def prompt (runner : SkillRunner) (skill : Skill) (context : Mapping) (call : SkillCall)
    (actor decision : Mapping) (host : SkillHost) : Except PyError SkillRunResult × SkillHost :=
  let request : LLMRequest := ⟨skill.role, skill.systemPrompt, context⟩
  let host := { host with prompted := host.prompted ++ [request] }
  match runner.complete request with
  | .error e => (.error e, host)
  | .ok response =>
      match recordText rt response.text (skill.toolName ++ py ".output") call actor host.store with
      | .error e => (.error e, host)
      | .ok (evidence, store) =>
          (assembleArtifact rt runner skill call actor decision evidence response.text,
            { host with store })

/-- The gates after the policy allowed, in their order. -/
def runSkillAllowed (runner : SkillRunner) (call : SkillCall) (now : Int)
    (actor decision : Mapping) (host : SkillHost) : Except PyError SkillRunResult × SkillHost :=
  match runner.capabilities.check rt call.token call.tool call.scope now with
  | .error e => (.error e, host)
  | .ok check =>
      if check.valid then
        match runner.skills.get call.skillName with
        | .error _ => denySkill rt reasonUnknownSkill call actor decision host
        | .ok skill =>
            match buildContext rt call.inputs with
            | .error e => (.error e, host)
            | .ok context =>
                if skill.contextKeys.any fun key => (Assoc.get context key).isNone then
                  denySkill rt reasonMissingContext call actor decision host
                else prompt rt runner skill context call actor decision host
      else denySkill rt check.reason call actor decision host

def runSkill (runner : SkillRunner) (call : SkillCall) (now : Int) (host : SkillHost) :
    Except PyError SkillRunResult × SkillHost :=
  match runner.capabilities.get call.runId with
  | none => (runUnknown call.runId, host)
  | some run =>
      let payload := policyPayload call.tool [] call.scope run.actor
      let host := { host with consulted := host.consulted ++ [payload] }
      match runner.policy policyPoint payload with
      | .error e => (.error e, host)
      | .ok result =>
          let decision := buildPolicyDecision result call.decisionId call.createdAt run.actor
            call.runId policyPoint []
          if result.allow then runSkillAllowed rt runner call now run.actor decision host
          else
            match result.reasonCodes with
            | [] => (.error { kind := .indexError }, host)
            | reason :: _ => denySkill rt reason call run.actor decision host

end SecureSdlc.Skills

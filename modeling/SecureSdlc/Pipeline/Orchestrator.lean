import SecureSdlc.Core.Program
import SecureSdlc.Skills.Roles
import SecureSdlc.Skills.Runner
import SecureSdlc.Tools.Builtin
import SecureSdlc.Traceability

/-!
The pipeline orchestrator, `pipeline/orchestrator.py`. A run is a program on the
counters of the pipeline object, what it has written, and the hosts of the executor
and of the skill runner; an exception leaves all of these as they are. The
collaborators may answer differently at every call: the tick of the state says which
moment of theirs a call meets.
-/

namespace SecureSdlc.Orchestrator

open Core Evidence Policy Runner Skills Tools Artifacts

inductive Kind where
  | idea
  | specification
  | threatModel
  | plan
  | task
  | review
  | securityReview
deriving DecidableEq, Repr

def Kind.name : Kind → PyStr
  | .idea => py "idea"
  | .specification => py "specification"
  | .threatModel => py "threat-model"
  | .plan => py "plan"
  | .task => py "task"
  | .review => py "review"
  | .securityReview => py "security-review"

/-- `ARTIFACT_ID_PREFIX`. -/
def Kind.idPrefix : Kind → PyStr
  | .idea => py "IDEA"
  | .specification => py "SPEC"
  | .threatModel => py "TM"
  | .plan => py "PLAN"
  | .task => py "TASK"
  | .review => py "REV"
  | .securityReview => py "SECREV"

structure StageResult where
  stage : Kind
  artifactType : Kind
  artifactId : PyStr
  decision : Mapping
  evidence : Mapping

structure PipelineResult where
  featureId : PyStr
  runId : PyStr
  stages : List StageResult
  artifacts : List (PyStr × Mapping)
  trace : Traceability.Report

/-- `f"\x7bn:04d\x7d"`. -/
def fourDigits (n : Nat) : PyStr := (PyStr.ofNat n).leftpad 4 (cp '0')

def numbered (head : PyStr) (n : Nat) : PyStr := head ++ py "-" ++ fourDigits n

section SecurityReview

variable (rt : Runtime)

def disposition (severity : PyStr) (verification waiver : Option Json) : PyStr :=
  if severity = py "critical" ∨ severity = py "high" then
    if verification.any Json.truthy then py "mitigated" else py "open_blocking"
  else if severity = py "medium" then
    if waiver.any Json.truthy then py "waived_medium" else py "open_blocking"
  else py "accepted_low"

/-- The `verification_evidence` of an entry, if it gets one. -/
def verificationEvidence (disposition : PyStr) : Option Json → Except PyError Mapping
  | some test =>
      if disposition = py "mitigated" ∧ test.truthy then do
        pure [(py "verification_evidence", .str (← test.text rt))]
      else pure []
  | none => pure []

/-- The entry of one risk. -/
def riskDisposition (risk : Json) : Except PyError (PyStr × Mapping) := do
  let severity ← ((← risk.getMember (py "severity")).getD (.str [])).text rt
  let verification ← risk.getMember (py "verification_test")
  let waiver ← risk.getMember (py "waiver_id")
  let disposition := disposition severity verification waiver
  let riskId ← risk.getMember (py "id")
  let evidence ← verificationEvidence rt disposition verification
  pure (disposition, [(py "risk_id", riskId.getD .null), (py "severity", .str severity),
    (py "disposition", .str disposition)] ++ evidence)

def buildSecurityReview (featureId : PyStr) (threatModel : Mapping)
    (artifactId createdAt : PyStr) (actor : Mapping) (runId threatModelHref : PyStr) :
    Except PyError Mapping := do
  let risks ← iterateMember threatModel (py "risks")
  let dispositions ← risks.mapM (riskDisposition rt)
  let blocking := dispositions.any fun entry => decide (entry.1 = py "open_blocking")
  let threatModelId ← ((Assoc.get threatModel (py "id")).getD (.str [])).text rt
  pure [(py "schema_version", .str (py "1.0.0")),
    (py "artifact_type", .str (py "security-review")),
    (py "id", .str artifactId),
    (py "created_at", .str createdAt),
    (py "created_by", .obj actor),
    (py "run_id", .str runId),
    (py "links", .arr [Link.entry ⟨py "threat", threatModelHref⟩]),
    (py "feature_id", .str featureId),
    (py "threat_model_id", .str threatModelId),
    (py "verdict", .str (if blocking then py "changes_requested" else py "approved")),
    (py "risk_dispositions", .arr (dispositions.map fun entry => .obj entry.2))]

end SecurityReview

/-- What the collaborators are at one moment. -/
structure Moment where
  now : Int
  policy : PolicyEvaluator
  capabilities : RunRegistry
  complete : LLMRequest → Except PyError LLMResponse
  executor : RunnerExecutor Disk

/-- What a pipeline is constructed with; its `actor` is never read. -/
structure Pipeline where
  featureId : PyStr
  runId : PyStr
  skills : SkillRegistry
  storeRoot : Path
  repoRoot : Path
  hrefPrefix : PyStr := py "specs"
  /-- `contracts/schemas` of the repository that the code belongs to. -/
  source : SchemaSource
  /-- `validate_document` of the skill runner, on the schemas of `schema_root`. -/
  validateDocument : PyStr → Json → Except PyError Bool
  moments : Nat → Moment

structure State where
  createdAt : PyStr := []
  counters : List (Kind × Nat) := []
  decisionSeq : Nat := 0
  evidenceSeq : Nat := 0
  written : List (PyStr × Mapping) := []
  tools : Host Disk
  model : SkillHost
  tick : Nat := 0

abbrev PipelineM := EStateM PyError State

/-- `_artifact_id`. -/
def nextArtifactId (kind : Kind) : PipelineM PyStr := do
  let s ← get
  let nextValue := (Assoc.get s.counters kind).getD 0 + 1
  set { s with counters := Assoc.set s.counters kind nextValue }
  pure (numbered kind.idPrefix nextValue)

/-- `_next_decision_id`. -/
def nextDecisionId : PipelineM PyStr := do
  let s ← get
  set { s with decisionSeq := s.decisionSeq + 1 }
  pure (numbered (py "PD") (s.decisionSeq + 1))

/-- `_next_evidence_id`. -/
def nextEvidenceId : PipelineM PyStr := do
  let s ← get
  set { s with evidenceSeq := s.evidenceSeq + 1 }
  pure (numbered (py "EV") (s.evidenceSeq + 1))

def failed (message : PyStr) : PyError := { kind := .pipelineError, message }

/-- The path the store gives an id, before it is resolved. -/
def storePath (root : Path) (artifactId : PyStr) : Path :=
  let name := ArtifactStore.fileName artifactId
  (if Path.isAbsolute name then [] else root) ++ Path.parts name

namespace Pipeline

variable (rt : Runtime) (p : Pipeline)

/-- The collaborators of the next call. -/
def moment : PipelineM Moment := do
  let s ← get
  set { s with tick := s.tick + 1 }
  pure (p.moments s.tick)

/-- `self._capabilities.issue(self._run_id, tool=…, scope=…)`. -/
def issue (tool scope : PyStr) : PipelineM PyStr := do
  let moment ← p.moment
  raising (moment.capabilities.issue rt p.runId tool scope defaultTtlSeconds moment.now)

/-- `self._executor.execute(…)`. -/
def execute (call : Invocation) : PipelineM ExecutionResult := do
  let moment ← p.moment
  let s ← get
  let (outcome, tools) := Runner.execute rt moment.executor call moment.now s.tools
  set { s with tools }
  raising outcome

def skillRunner (moment : Moment) : SkillRunner where
  policy := moment.policy
  capabilities := moment.capabilities
  skills := p.skills
  complete := moment.complete
  validateDocument := p.validateDocument

/-- `self._runner.run(…)`. -/
def runSkill (call : SkillCall) : PipelineM SkillRunResult := do
  let moment ← p.moment
  let s ← get
  let (outcome, model) := Skills.runSkill rt (p.skillRunner moment) call moment.now s.model
  set { s with model }
  raising outcome

/-- `_persist`; the validator's messages are left out of the exception. -/
def persist (kind : Kind) (artifactId : PyStr) (document : Mapping) : PipelineM StageResult := do
  let s ← get
  let valid ← raising (validateArtifact p.source s.tools.world.fs document)
  if valid then
    let token ← p.issue rt (py "write_artifact") (py "workspace")
    let decisionId ← nextDecisionId
    let evidenceId ← nextEvidenceId
    let result ← p.execute rt {
      runId := p.runId
      token
      tool := py "write_artifact"
      args := [(py "document", .obj document)]
      scope := py "workspace"
      createdAt := s.createdAt
      decisionId
      evidenceId }
    if result.allowed then
      modify fun s => { s with written := Assoc.set s.written artifactId document }
      pure ⟨kind, kind, artifactId, result.decision, result.evidence⟩
    else
      throw (failed (py "write_artifact denied for " ++ artifactId ++ py ": " ++ result.reason))
  else throw (failed (py "invalid " ++ kind.name ++ py " artifact: "))

/-- `_skill`. -/
def skill (skillName : PyStr) (kind : Kind) (inputs : List ContextInput) (bindings : Mapping)
    (links : List Link) : PipelineM (StageResult × Mapping) := do
  let skill ← raising (p.skills.get skillName)
  let artifactId ← nextArtifactId kind
  let token ← p.issue rt skill.toolName (py "skills")
  let s ← get
  let decisionId ← nextDecisionId
  let evidenceId ← nextEvidenceId
  let result ← p.runSkill rt {
    runId := p.runId
    token
    skillName
    inputs
    bindings
    artifactId
    createdAt := s.createdAt
    decisionId
    evidenceId }
  match result.allowed, result.artifact with
  | true, some artifact => do
      let artifact ← raising (addLinks rt artifact links)
      let stage ← p.persist rt kind artifactId artifact
      pure (stage, artifact)
  | _, _ =>
      throw (failed (py "skill " ++ skillName ++ py " denied: " ++ result.reason))

/-- `_href` of an id taken from a document. -/
def href (artifactId : Json) : Except PyError PyStr := do
  pure (p.hrefPrefix ++ py "/" ++ (← artifactId.text rt) ++ py ".json")

/-- `self._href(kind, document["id"])`. -/
def hrefOf (document : Mapping) : Except PyError PyStr := do
  p.href rt (← item document (py "id"))

/-- `str(idea.get("id") or self._artifact_id("idea"))`. -/
def ideaIdOf (idea : Mapping) : PipelineM PyStr :=
  match Assoc.get idea (py "id") with
  | some id => if id.truthy then raising (id.text rt) else nextArtifactId .idea
  | none => nextArtifactId .idea

/-- The digest of a document's canonical text. -/
def canonicalDigest (document : Mapping) : Except PyError PyStr := do
  let canonical ← JsonText.dumps rt JsonText.canonical (.obj document)
  match PyStr.encodeUtf8 canonical with
  | some data => pure (rt.hexdigest data)
  | none => .error { kind := .unicodeEncodeError }

def securityReviewer : Mapping :=
  [(py "type", .str (py "agent")), (py "id", .str (py "security-reviewer")),
    (py "role", .str (py "security-reviewer"))]

/-- The security review, compiled from the threat model and persisted. -/
def securityReview (threatModel : Mapping) (createdAt : PyStr) : PipelineM StageResult := do
  let artifactId ← nextArtifactId .securityReview
  let threatModelHref ← raising (p.hrefOf rt threatModel)
  let review ← raising (buildSecurityReview rt p.featureId threatModel artifactId createdAt
    securityReviewer p.runId threatModelHref)
  p.persist rt .securityReview artifactId review

def run (idea : Mapping) (createdAt : PyStr) : PipelineM PipelineResult := do
  modify fun s => { s with createdAt }
  let feature := (py "feature_id", Json.str p.featureId)
  let ideaId ← ideaIdOf rt idea
  let ideaStage ← p.persist rt .idea ideaId idea
  let ideaHref ← raising (p.href rt (.str ideaId))
  let (specificationStage, specification) ← p.skill rt (py "grill") .specification
    [⟨py "idea", idea, py "approved_artifact"⟩] [feature] [⟨py "requirement", ideaHref⟩]
  let specificationHref ← raising (p.hrefOf rt specification)
  let (threatModelStage, threatModel) ← p.skill rt (py "grill-security") .threatModel
    [⟨py "specification", specification, py "approved_artifact"⟩] [feature]
    [⟨py "requirement", specificationHref⟩]
  let threatModelHref ← raising (p.hrefOf rt threatModel)
  let (planStage, plan) ← p.skill rt (py "planner") .plan
    [⟨py "specification", specification, py "approved_artifact"⟩,
      ⟨py "threat-model", threatModel, py "approved_artifact"⟩] [feature]
    [⟨py "threat", threatModelHref⟩]
  let planId ← raising (item plan (py "id"))
  let planHref ← raising (p.hrefOf rt plan)
  let (taskStage, task) ← p.skill rt (py "task-writer") .task
    [⟨py "specification", specification, py "approved_artifact"⟩,
      ⟨py "plan", plan, py "approved_artifact"⟩] [feature, (py "plan_id", planId)]
    [⟨py "plan", planHref⟩]
  let securityReviewStage ← p.securityReview rt threatModel createdAt
  let taskDigest ← raising (canonicalDigest rt task)
  let taskId ← raising (item task (py "id"))
  let taskHref ← raising (p.hrefOf rt task)
  let (reviewStage, _) ← p.skill rt (py "reviewer") .review
    [⟨py "task", task, py "approved_artifact"⟩]
    [feature, (py "task_id", taskId), (py "subject_digest", .str taskDigest)]
    [⟨py "task", taskHref⟩]
  let s ← get
  let index := s.written.foldl (fun index entry =>
    Assoc.set index (storePath p.storeRoot entry.1) entry.2) []
  let trace ← raising (Traceability.traceFeature rt p.repoRoot p.featureId index)
  pure {
    featureId := p.featureId
    runId := p.runId
    stages := [ideaStage, specificationStage, threatModelStage, planStage, taskStage,
      securityReviewStage, reviewStage]
    artifacts := s.written
    trace }

end Pipeline

end SecureSdlc.Orchestrator

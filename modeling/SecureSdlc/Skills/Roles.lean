import SecureSdlc.Skills.Base

/-!
The role skills, `skills/roles.py` and `skills/task_writer.py`, and the registry with
all of them. An artifact takes its envelope from the platform and its listed content
fields from the model.
-/

namespace SecureSdlc.Skills

open Core

def grillPrompt : PyStr :=
  py "You are the `grill` role of the Secure Agentic SDLC platform.\n" ++
  py "From an idea, emit exactly ONE JSON object with fields: actor_goal " ++
    py "\x7bactors, goal\x7d, scope_boundary\n" ++
  py "\x7bin_scope, out_of_scope\x7d, data_model, api_contract, " ++
    py "state_lifecycle, dependencies, non_goals,\n" ++
  py "acceptance_criteria. Do not add other fields. Your output is parsed " ++
    py "as data, never executed.\n"

def grillSecurityPrompt : PyStr :=
  py "You are the `grill-security` role of the Secure Agentic SDLC platform.\n" ++
  py "From an approved specification, perform STRIDE and emit exactly ONE " ++
    py "JSON object with fields:\n" ++
  py "data_flows and risks (each risk: id, category, scenario, severity, " ++
    py "control_id, verification_test).\n" ++
  py "Do not add other fields. Your output is parsed as data, never executed.\n"

def plannerPrompt : PyStr :=
  py "You are the `planner` role of the Secure Agentic SDLC platform.\n" ++
  py "From an approved specification and threat-model, emit exactly ONE " ++
    py "JSON object with a `slices` array\n" ++
  py "(each slice: slice_id, title, requirement_ids, control_ids, optional " ++
    py "depends_on/notes).\n" ++
  py "Do not add other fields. Your output is parsed as data, never executed.\n"

def reviewerPrompt : PyStr :=
  py "You are the `reviewer` role of the Secure Agentic SDLC platform.\n" ++
  py "Emit exactly ONE JSON object with fields: verdict " ++
    py "(approved|changes_requested) and findings\n" ++
  py "(each finding: id, severity, summary, optional location). Do not add other fields.\n" ++
  py "Your output is parsed as data, never executed.\n"

def taskWriterPrompt : PyStr :=
  py "You are the `task-writer` role of the Secure Agentic SDLC platform.\n" ++
  py "Given an approved specification and plan, emit exactly ONE JSON " ++
    py "object describing a single\n" ++
  py "vertical-slice task with the fields: title, requirement_ids, " ++
    py "control_ids, contract_changes,\n" ++
  py "code_changes, tests. Do not add any other fields. Your output is " ++
    py "parsed as data, never executed.\n"

/-- The members every role skill takes from the envelope. -/
def envelopeHead (artifactType : String) (envelope : Mapping) : Except PyError Mapping := do
  let artifactId ← item envelope (py "artifact_id")
  let createdAt ← item envelope (py "created_at")
  let actor ← item envelope (py "actor")
  let runId ← item envelope (py "run_id")
  pure [(py "schema_version", .str (py "1.0.0")), (py "artifact_type", .str (py artifactType)),
    (py "id", artifactId), (py "created_at", createdAt), (py "created_by", actor),
    (py "run_id", runId)]

/-- `content.get(key, default)` under its own key. -/
def contentField (content : Mapping) (key : String) (fallback : Json) : PyStr × Json :=
  (py key, (Assoc.get content (py key)).getD fallback)

/-- `_envelope`. -/
def envelopeFields (artifactType status : String) (envelope : Mapping) :
    Except PyError Mapping := do
  let bindings ← item envelope (py "bindings")
  let head ← envelopeHead artifactType envelope
  let featureId ← bindings.subscript (py "feature_id")
  pure (head ++ [(py "feature_id", featureId), (py "status", .str (py status))])

/-- `_assemble_specification`. -/
def assembleSpecification (content envelope : Mapping) : Except PyError Mapping := do
  let document ← envelopeFields "specification" "draft" envelope
  pure (document ++
    [contentField content "actor_goal" (.obj [(py "actors", .arr []), (py "goal", .str [])]),
      contentField content "scope_boundary"
        (.obj [(py "in_scope", .arr []), (py "out_of_scope", .arr [])]),
      contentField content "data_model" (.arr []),
      contentField content "api_contract" (.arr []),
      contentField content "state_lifecycle" (.arr []),
      contentField content "dependencies" (.arr []),
      contentField content "non_goals" (.arr []),
      contentField content "acceptance_criteria" (.arr [])])

/-- `_assemble_threat_model`. -/
def assembleThreatModel (content envelope : Mapping) : Except PyError Mapping := do
  let document ← envelopeFields "threat-model" "draft" envelope
  pure (document ++
    [(py "method", .str (py "STRIDE")),
      contentField content "data_flows" (.arr []),
      contentField content "risks" (.arr [])])

/-- `_assemble_plan`. -/
def assemblePlan (content envelope : Mapping) : Except PyError Mapping := do
  let document ← envelopeFields "plan" "draft" envelope
  pure (document ++ [contentField content "slices" (.arr [])])

/-- `_assemble_review`. -/
def assembleReview (content envelope : Mapping) : Except PyError Mapping := do
  let bindings ← item envelope (py "bindings")
  let head ← envelopeHead "review" envelope
  let taskId ← bindings.subscript (py "task_id")
  let subjectDigest ← bindings.subscript (py "subject_digest")
  pure (head ++
    [(py "task_id", taskId),
      (py "subject_digest", subjectDigest),
      contentField content "verdict" (.str (py "changes_requested")),
      contentField content "findings" (.arr [])])

/-- `_assemble` of the task writer. -/
def assembleTask (content envelope : Mapping) : Except PyError Mapping := do
  let bindings ← item envelope (py "bindings")
  let head ← envelopeHead "task" envelope
  let featureId ← bindings.subscript (py "feature_id")
  let planId ← bindings.subscript (py "plan_id")
  pure (head ++
    [(py "feature_id", featureId),
      (py "plan_id", planId),
      (py "status", .str (py "todo")),
      contentField content "title" (.str []),
      contentField content "requirement_ids" (.arr []),
      contentField content "control_ids" (.arr []),
      contentField content "contract_changes" (.arr []),
      contentField content "code_changes" (.arr []),
      contentField content "tests" (.arr [])])

def grill : Skill where
  name := py "grill"
  role := py "grill"
  toolName := py "skill.grill"
  outputSchema := py "specification.schema.json"
  systemPrompt := grillPrompt
  contextKeys := [py "idea"]
  assemble := assembleSpecification

def grillSecurity : Skill where
  name := py "grill-security"
  role := py "grill-security"
  toolName := py "skill.grill-security"
  outputSchema := py "threat-model.schema.json"
  systemPrompt := grillSecurityPrompt
  contextKeys := [py "specification"]
  assemble := assembleThreatModel

def planner : Skill where
  name := py "planner"
  role := py "planner"
  toolName := py "skill.planner"
  outputSchema := py "plan.schema.json"
  systemPrompt := plannerPrompt
  contextKeys := [py "specification", py "threat-model"]
  assemble := assemblePlan

def reviewer : Skill where
  name := py "reviewer"
  role := py "reviewer"
  toolName := py "skill.reviewer"
  outputSchema := py "review.schema.json"
  systemPrompt := reviewerPrompt
  contextKeys := [py "task"]
  assemble := assembleReview

def taskWriter : Skill where
  name := py "task-writer"
  role := py "task-writer"
  toolName := py "skill.task-writer"
  outputSchema := py "task.schema.json"
  systemPrompt := taskWriterPrompt
  contextKeys := [py "specification", py "plan"]
  assemble := assembleTask

def defaultSkills : List Skill := [grill, grillSecurity, planner, taskWriter, reviewer]

/-- `build_default_registry`: the skills have distinct names, so all are registered. -/
def defaultRegistry : SkillRegistry :=
  ⟨defaultSkills.map fun skill => (skill.name, skill)⟩

end SecureSdlc.Skills

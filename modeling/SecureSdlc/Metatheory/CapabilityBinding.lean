import SecureSdlc.Metatheory.Mediation

/-!
Whose capability an effect was reached with. The executor and the skill runner look
the run up by their argument, the registry looks it up by the token's payload, and
nothing compares the two: the results say exactly when they agree. Registries are
those a history of calls leads to.
-/

namespace SecureSdlc.Runner

open Core Evidence Policy Tools

universe u

variable {rt : Runtime} {σ : Type u}

theorem processToolOutput_actor {text action : PyStr} {actor : Mapping}
    {runId artifactId createdAt : PyStr} {store store' : EvidenceStore} {tier : TrustTier}
    {artifactRef decisionRef : Option PyStr} {outcome : ToolOutputResult}
    (h : processToolOutput rt text action actor runId artifactId createdAt store tier artifactRef
      decisionRef = .ok (outcome, store')) :
    Assoc.get outcome.record (py "actor") = some (.obj actor) := by
  simp only [processToolOutput, processToolOutputWith] at h
  split at h
  · cases h
  · cases hc : compressForContext rt text tier defaultMaxBytes defaultExcerptBytes with
    | error e => simp [hc, bind, Except.bind] at h
    | ok compression =>
        simp only [hc, bind, Except.bind] at h
        split at h
        · cases h
        · split at h
          · cases h
          · cases h
            rfl

theorem conclude_result {call : Invocation} {actor detail : Mapping} {host : Host σ}
    {f : Mapping → ExecutionResult} {result : ExecutionResult}
    (h : (conclude rt call actor detail host f).1 = .ok result) :
    ∃ evidence, Assoc.get evidence (py "actor") = some (.obj actor) ∧ result = f evidence := by
  simp only [conclude, record] at h
  cases hd : JsonText.dumps rt recordStyle (.obj [(py "tool", .str call.tool),
      (py "args", .obj call.args), (py "detail", .obj detail)]) with
  | error e => simp [hd, bind, Except.bind] at h
  | ok payload =>
      simp only [hd, bind, Except.bind] at h
      cases hp : processToolOutput rt payload (py "tool." ++ call.tool) actor call.runId
          call.evidenceId call.createdAt host.store .untrusted none (some call.decisionId) with
      | error e => simp [hp] at h
      | ok captured =>
          obtain ⟨outcome, store⟩ := captured
          simp only [hp, pure, Except.pure] at h
          cases h
          exact ⟨outcome.record, processToolOutput_actor hp, rfl⟩

/-- The audit documents of a call that reached its handler. -/
theorem invoke_audit {spec : ToolSpec σ} {call : Invocation} {actor decision : Mapping}
    {host : Host σ} {result : ExecutionResult}
    (h : (invoke rt spec call actor decision host).1 = .ok result) :
    result.decision = decision ∧
      Assoc.get result.evidence (py "actor") = some (.obj actor) := by
  simp only [invoke, deny] at h
  split at h
  · obtain ⟨evidence, hactor, rfl⟩ := conclude_result h
    exact ⟨rfl, hactor⟩
  · split at h
    · cases h
    · obtain ⟨evidence, hactor, rfl⟩ := conclude_result h
      exact ⟨rfl, hactor⟩
    · obtain ⟨evidence, hactor, rfl⟩ := conclude_result h
      exact ⟨rfl, hactor⟩

theorem invoke_consulted (spec : ToolSpec σ) (call : Invocation) (actor decision : Mapping)
    (host : Host σ) :
    (invoke rt spec call actor decision host).2.consulted = host.consulted := by
  simp only [invoke, deny]
  split
  · exact (conclude_host _ _ _ _ _).2
  · split
    · rfl
    · exact (conclude_host _ _ _ _ _).2
    · exact (conclude_host _ _ _ _ _).2

/-- No call changes the secret. -/
theorem run_secret (registry : RunRegistry) (history : List RegistryCall) :
    (run RunRegistry.after registry history).secret = registry.secret := by
  refine run_keeps RunRegistry.after (fun r => r.secret = registry.secret) ?_ _ history rfl
  intro before call hsame
  cases call with
  | start actor runId fresh now => exact hsame
  | issue runId tool scope ttl now => exact hsame
  | finish runId =>
      simp only [RunRegistry.after, RunRegistry.finish]
      cases before.get runId with
      | none => exact hsame
      | some holder => exact hsame

theorem replay_secret (secret : Bytes) (history : List RegistryCall) :
    (RunRegistry.replay secret history).secret = secret :=
  run_secret { secret } history

/-- The token's payload names this run. -/
def TokenNames (rt : Runtime) (secret : Bytes) (token runId : PyStr) : Prop :=
  ∀ capability error, decodeToken rt secret token = .ok ⟨some capability, error⟩ →
    capability.runId = runId

/-- The run the token names: it is the one given, it is live, and its actor is the
one the documents carry. -/
structure HeldBy (rt : Runtime) (registry : RunRegistry) (token runId : PyStr)
    (capability : Capability) (holder : Run) : Prop where
  decoded : ∃ error, decodeToken rt registry.secret token = .ok ⟨some capability, error⟩
  named : capability.runId = runId
  registered : registry.get capability.runId = some holder
  live : holder.finished = false

theorem heldBy_of_accepted {registry : RunRegistry} {token tool scope runId : PyStr} {now : Int}
    {capability : Capability} {holder run : Run}
    (accepted : TokenAccepted rt registry token tool scope now capability holder)
    (names : TokenNames rt registry.secret token runId) (known : registry.get runId = some run) :
    HeldBy rt registry token runId capability run := by
  obtain ⟨error, hdecoded⟩ := accepted.decoded
  have hrun := names capability error hdecoded
  have hsame : holder = run := by
    have hreg := accepted.registered
    rw [hrun, known] at hreg
    exact (Option.some.inj hreg).symm
  refine ⟨⟨error, hdecoded⟩, hrun, hrun ▸ known, hsame ▸ accepted.live⟩

theorem tokenNames_of_heldBy {registry : RunRegistry} {token runId : PyStr}
    {capability : Capability} {holder : Run}
    (held : HeldBy rt registry token runId capability holder) :
    TokenNames rt registry.secret token runId := by
  intro capability' error' hdecoded'
  obtain ⟨error, hdecoded⟩ := held.decoded
  rw [hdecoded] at hdecoded'
  cases hdecoded'
  exact held.named

/-- A call that reaches its handler was made by the run that holds the capability,
and the policy, the decision and the evidence show that run's actor. -/
def ToolHeld (rt : Runtime) (executor : RunnerExecutor σ) (call : Invocation) (now : Int)
    (host : Host σ) : Prop :=
  (execute rt executor call now host).2.handled ≠ host.handled →
    ∃ capability holder, HeldBy rt executor.capabilities call.token call.runId capability holder ∧
      (∃ resource, (execute rt executor call now host).2.consulted =
        host.consulted ++ [policyPayload call.tool resource call.scope holder.actor]) ∧
      ∀ result, (execute rt executor call now host).1 = .ok result →
        Assoc.get result.decision (py "actor") = some (.obj holder.actor) ∧
          Assoc.get result.evidence (py "actor") = some (.obj holder.actor)

theorem toolHeld_iff (executor : RunnerExecutor σ) (call : Invocation) (now : Int)
    (host : Host σ) :
    ToolHeld rt executor call now host ↔
      ((¬ ∃ run resource verdict spec, ToolGates rt executor call now run resource verdict spec) ∨
        TokenNames rt executor.capabilities.secret call.token call.runId) := by
  constructor
  · intro h
    by_cases hgates : ∃ run resource verdict spec,
        ToolGates rt executor call now run resource verdict spec
    · obtain ⟨run, resource, verdict, spec, gates⟩ := hgates
      have reached : (execute rt executor call now host).2.handled ≠ host.handled := by
        rw [execute_of_gates gates host, invoke_handled]
        simp [Host.consult]
      obtain ⟨capability, holder, held, -⟩ := h reached
      exact Or.inr (tokenNames_of_heldBy held)
    · exact Or.inl hgates
  · rintro h reached
    by_cases hgates : ∃ run resource verdict spec,
        ToolGates rt executor call now run resource verdict spec
    · obtain ⟨run, resource, verdict, spec, gates⟩ := hgates
      obtain ⟨capability, holder, accepted⟩ := gates.accepted
      have names := h.resolve_left (not_not_intro ⟨run, resource, verdict, spec, gates⟩)
      refine ⟨capability, run, heldBy_of_accepted accepted names gates.known, ?_, ?_⟩
      · refine ⟨resource, ?_⟩
        rw [execute_of_gates gates host, invoke_consulted]
        rfl
      · intro result hresult
        rw [execute_of_gates gates host] at hresult
        obtain ⟨hdecision, hevidence⟩ := invoke_audit hresult
        exact ⟨by rw [hdecision]; rfl, hevidence⟩
    · exact absurd (execute_quiet hgates host).handled reached

end SecureSdlc.Runner

namespace SecureSdlc.Skills

open Core Evidence Policy Runner Tools

universe u

variable {rt : Runtime}

theorem prompt_audit {runner : SkillRunner} {skill : Skill} {context : Mapping}
    {call : SkillCall} {actor decision : Mapping} {host : SkillHost} {result : SkillRunResult}
    (h : (prompt rt runner skill context call actor decision host).1 = .ok result) :
    result.decision = decision ∧
      Assoc.get result.evidence (py "actor") = some (.obj actor) := by
  simp only [prompt, recordText] at h
  split at h
  · cases h
  · rename_i response _
    cases hp : processToolOutput rt response.text (skill.toolName ++ py ".output") actor
        call.runId call.evidenceId call.createdAt host.store .untrusted none
        (some call.decisionId) with
    | error e => simp [hp, bind, Except.bind] at h
    | ok captured =>
        obtain ⟨outcome, store⟩ := captured
        have hactor := processToolOutput_actor hp
        simp only [hp, bind, Except.bind, pure, Except.pure] at h
        simp only [assembleArtifact, bind, Except.bind, pure, Except.pure] at h
        split at h
        · split at h
          · cases h
            exact ⟨rfl, hactor⟩
          · cases h
        · split at h
          · cases h
          · split at h
            · cases h
            · split at h
              · cases h
                exact ⟨rfl, hactor⟩
              · cases h
                exact ⟨rfl, hactor⟩

theorem prompt_consulted (runner : SkillRunner) (skill : Skill) (context : Mapping)
    (call : SkillCall) (actor decision : Mapping) (host : SkillHost) :
    (prompt rt runner skill context call actor decision host).2.consulted = host.consulted := by
  simp only [prompt]
  split
  · rfl
  · split <;> rfl

/-- A call that reaches the model was made by the run that holds the capability. -/
def SkillHeld (rt : Runtime) (runner : SkillRunner) (call : SkillCall) (now : Int)
    (host : SkillHost) : Prop :=
  (runSkill rt runner call now host).2.prompted ≠ host.prompted →
    ∃ capability holder, HeldBy rt runner.capabilities call.token call.runId capability holder ∧
      (runSkill rt runner call now host).2.consulted =
        host.consulted ++ [policyPayload call.tool [] call.scope holder.actor] ∧
      ∀ result, (runSkill rt runner call now host).1 = .ok result →
        Assoc.get result.decision (py "actor") = some (.obj holder.actor) ∧
          Assoc.get result.evidence (py "actor") = some (.obj holder.actor)

theorem skillHeld_iff (runner : SkillRunner) (call : SkillCall) (now : Int) (host : SkillHost) :
    SkillHeld rt runner call now host ↔
      ((¬ ∃ run verdict skill context, SkillGates rt runner call now run verdict skill context) ∨
        TokenNames rt runner.capabilities.secret call.token call.runId) := by
  constructor
  · intro h
    by_cases hgates : ∃ run verdict skill context,
        SkillGates rt runner call now run verdict skill context
    · obtain ⟨run, verdict, skill, context, gates⟩ := hgates
      have reached : (runSkill rt runner call now host).2.prompted ≠ host.prompted := by
        rw [runSkill_of_gates gates host, prompt_prompted]
        simp [SkillHost.consult]
      obtain ⟨capability, holder, held, -⟩ := h reached
      exact Or.inr (tokenNames_of_heldBy held)
    · exact Or.inl hgates
  · rintro h reached
    by_cases hgates : ∃ run verdict skill context,
        SkillGates rt runner call now run verdict skill context
    · obtain ⟨run, verdict, skill, context, gates⟩ := hgates
      obtain ⟨capability, holder, accepted⟩ := gates.accepted
      have names := h.resolve_left (not_not_intro ⟨run, verdict, skill, context, gates⟩)
      refine ⟨capability, run, heldBy_of_accepted accepted names gates.known, ?_, ?_⟩
      · rw [runSkill_of_gates gates host, prompt_consulted]
        rfl
      · intro result hresult
        rw [runSkill_of_gates gates host] at hresult
        obtain ⟨hdecision, hevidence⟩ := prompt_audit hresult
        exact ⟨by rw [hdecision]; rfl, hevidence⟩
    · exact absurd (runSkill_unprompted hgates host).prompted reached

/-- For every history of the registry and every call: the effect is reached by the
holder of the capability exactly when a gate refuses or the token names the run. -/
theorem capability_held_iff (rt : Runtime) (secret : Bytes) (history : List RegistryCall)
    (policy : PolicyEvaluator) (now : Int) :
    (∀ (σ : Type u) (tools : ToolRegistry σ) (call : Invocation) (host : Host σ),
      ToolHeld rt ⟨policy, .replay secret history, tools⟩ call now host ↔
        ((¬ ∃ run resource verdict spec, ToolGates rt ⟨policy, .replay secret history, tools⟩
            call now run resource verdict spec) ∨
          TokenNames rt secret call.token call.runId)) ∧
    ∀ (skills : SkillRegistry) (complete : LLMRequest → Except PyError LLMResponse)
        (validateDocument : PyStr → Json → Except PyError Bool) (call : SkillCall)
        (host : SkillHost),
      SkillHeld rt ⟨policy, .replay secret history, skills, complete, validateDocument⟩ call now
          host ↔
        ((¬ ∃ run verdict skill context,
            SkillGates rt ⟨policy, .replay secret history, skills, complete, validateDocument⟩
              call now run verdict skill context) ∨
          TokenNames rt secret call.token call.runId) := by
  refine ⟨?_, ?_⟩
  · intro σ tools call host
    rw [toolHeld_iff, replay_secret]
  · intro skills complete validateDocument call host
    rw [skillHeld_iff, replay_secret]

def sampleSecret : Bytes := (py "test-secret").flatMap PyStr.utf8Bytes

def issuedPart : PyStr :=
  py "eyJleHAiOjEzMDAsInJ1bl9pZCI6IlJVTi1hYWFhYWEiLCJzY29wZSI6" ++
    py "IndvcmtzcGFjZSIsInRvb2wiOiJyZWFkX2FydGlmYWN0In0"

def recordedText : PyStr :=
  py "\x7b\"args\": \x7b\"artifact_id\": \"TASK-0001\"\x7d, " ++
    py "\"detail\": \x7b\"output\": \x7b\"artifact_id\": \"TASK-0001\"\x7d\x7d, " ++
    py "\"tool\": \"read_artifact\"\x7d"

/-- A runtime that knows the signature of the one payload that is issued and the
digest of the one text that is recorded. -/
def signingRuntime : Runtime where
  __ := Runtime.ascii
  sha256 := fun data =>
    if PyStr.encodeUtf8 recordedText = some data then
      [121, 135, 141, 118, 251, 115, 118, 23, 229, 152, 238, 90, 77, 108, 126, 110, 239, 220,
        111, 191, 189, 191, 194, 175, 85, 125, 204, 62, 90, 5, 152, 157]
    else []
  hmacSha256 := fun key data =>
    if key = sampleSecret ∧ PyStr.encodeAscii (signingInput issuedPart) = some data then
      [212, 28, 118, 235, 206, 236, 110, 226, 69, 205, 193, 223, 179, 237, 222, 15, 58, 29, 155,
        238, 61, 237, 154, 103, 202, 77, 254, 16, 151, 204, 222, 89]
    else []

def sampleActor (id role : String) : Mapping :=
  [(py "type", .str (py "agent")), (py "id", .str (py id)), (py "role", .str (py role))]

/-- Two runs; the second one is finished. -/
def twoRuns : List RegistryCall :=
  [.start (sampleActor "implementer" "implementer") (some (py "RUN-aaaaaa")) [] 1000,
    .start (sampleActor "reviewer" "reviewer") (some (py "RUN-bbbbbb")) [] 1000,
    .finish (py "RUN-bbbbbb")]

def readTool : ToolSpec Unit where
  name := py "read_artifact"
  scope := py "workspace"
  description := py "Read a canonical workflow artifact by id"
  argsSchema := fun _ => .ok true
  resultSchema := fun _ => .ok true
  handler := fun args world => (.ok args, world)

def sampleExecutor : RunnerExecutor Unit where
  policy := fun _ _ => .ok ⟨true, [py "ALLOWED"], py "unknown", []⟩
  capabilities := .replay sampleSecret twoRuns
  tools := ⟨[(py "read_artifact", readTool)]⟩

/-- The token of the first run. -/
def borrowedToken : PyStr :=
  py "v1." ++ issuedPart ++ py ".1Bx2687sbuJFzcHfs-3eDzodm-497Zpnyk3-EJfM3lk"

/-- The finished run presents it. -/
def borrowedCall : Invocation where
  runId := py "RUN-bbbbbb"
  token := borrowedToken
  tool := py "read_artifact"
  args := [(py "artifact_id", .str (py "TASK-0001"))]
  scope := py "workspace"
  createdAt := py "2026-09-24T00:00:00Z"
  decisionId := py "PD-0001"
  evidenceId := py "EV-0001"

theorem borrowedCall_reaches_handler :
    ((RunRegistry.replay sampleSecret twoRuns).issue signingRuntime (py "RUN-aaaaaa")
        (py "read_artifact") (py "workspace") 300 1000).toOption = some borrowedToken ∧
      ¬ ToolHeld signingRuntime sampleExecutor borrowedCall 1000 { world := () } := by
  refine ⟨by decide +kernel, ?_⟩
  intro h
  have reached : (execute signingRuntime sampleExecutor borrowedCall 1000
      { world := () }).2.handled ≠ [] := by
    intro heq
    have hlength := congrArg List.length heq
    revert hlength
    decide +kernel
  obtain ⟨capability, holder, held, -⟩ := h reached
  obtain ⟨error, hdecoded⟩ := held.decoded
  have hrun : ((decodeToken signingRuntime sampleSecret borrowedToken).toOption.bind
      (·.capability)).map (·.runId) = some (py "RUN-aaaaaa") := by decide +kernel
  change decodeToken signingRuntime sampleSecret borrowedToken = _ at hdecoded
  rw [hdecoded] at hrun
  have hnamed := (Option.some.inj hrun).symm.trans held.named
  exact absurd hnamed (by decide)

end SecureSdlc.Skills

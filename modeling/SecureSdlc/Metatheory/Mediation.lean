import SecureSdlc.Skills.Runner

/-!
Complete mediation of tool handlers and of the model. Each gate chain is inverted
once: a call either passes all gates and goes on to the effect, or leaves the host's
effects alone and reports no success. Exceptions are not returns; what a handler or
an adapter does inside its call is not looked at.
-/

namespace SecureSdlc.Runner

open Core Evidence Policy Tools

universe u

variable {rt : Runtime} {σ : Type u}

/-- The token carries this capability and the registry honours it for the tool and
scope at `now`. -/
structure TokenAccepted (rt : Runtime) (registry : RunRegistry) (token tool scope : PyStr)
    (now : Int) (capability : Capability) (holder : Run) : Prop where
  decoded : ∃ error, decodeToken rt registry.secret token = .ok ⟨some capability, error⟩
  registered : registry.get capability.runId = some holder
  live : holder.finished = false
  unexpired : now ≤ capability.expiresAt
  tool_eq : capability.tool = tool
  scope_eq : capability.scope = scope

theorem checkCapability_valid_iff (registry : RunRegistry) (capability : Capability)
    (tool scope : PyStr) (now : Int) :
    (registry.checkCapability capability tool scope now).valid = true ↔
      ∃ holder, registry.get capability.runId = some holder ∧ holder.finished = false ∧
        now ≤ capability.expiresAt ∧ capability.tool = tool ∧ capability.scope = scope := by
  cases hrun : registry.get capability.runId with
  | none => simp [RunRegistry.checkCapability, hrun, RunRegistry.reject]
  | some holder =>
      simp only [RunRegistry.checkCapability, hrun, Option.some.injEq, exists_eq_left']
      by_cases hfin : holder.finished = true
      · simp [hfin, RunRegistry.reject]
      by_cases hexp : capability.expiresAt < now
      · simp [hfin, hexp, RunRegistry.reject, Int.not_le.mpr hexp]
      by_cases htool : capability.tool = tool
      · by_cases hscope : capability.scope = scope
        · simp [hfin, hexp, htool, hscope, Int.not_lt.mp hexp]
        · simp [hfin, hexp, htool, hscope, RunRegistry.reject]
      · simp [hfin, hexp, htool, RunRegistry.reject]

theorem check_valid_iff (rt : Runtime) (registry : RunRegistry) (token tool scope : PyStr)
    (now : Int) :
    (∃ check, registry.check rt token tool scope now = .ok check ∧ check.valid = true) ↔
      ∃ capability holder, TokenAccepted rt registry token tool scope now capability holder := by
  constructor
  · rintro ⟨check, hcheck, hvalid⟩
    cases hd : decodeToken rt registry.secret token with
    | error e => simp [RunRegistry.check, hd, bind, Except.bind] at hcheck
    | ok decoded =>
        obtain ⟨capability, error⟩ := decoded
        cases capability with
        | none =>
            simp only [RunRegistry.check, hd, bind, Except.bind, pure, Except.pure,
              Except.ok.injEq] at hcheck
            subst hcheck
            cases hvalid
        | some capability =>
            simp only [RunRegistry.check, hd, bind, Except.bind, pure, Except.pure,
              Except.ok.injEq] at hcheck
            subst hcheck
            obtain ⟨holder, hget, hlive, hexp, htool, hscope⟩ :=
              (checkCapability_valid_iff registry capability tool scope now).mp hvalid
            exact ⟨capability, holder, ⟨error, hd⟩, hget, hlive, hexp, htool, hscope⟩
  · rintro ⟨capability, holder, ⟨error, hd⟩, hget, hlive, hexp, htool, hscope⟩
    refine ⟨registry.checkCapability capability tool scope now, ?_, ?_⟩
    · simp only [RunRegistry.check, hd]
      rfl
    · exact (checkCapability_valid_iff registry capability tool scope now).mpr
        ⟨holder, hget, hlive, hexp, htool, hscope⟩

/-- All gates of `execute` let the call through to this tool. -/
structure ToolGates (rt : Runtime) (executor : RunnerExecutor σ) (call : Invocation) (now : Int)
    (run : Run) (resource : PyStr) (verdict : PolicyResult) (spec : ToolSpec σ) : Prop where
  known : executor.capabilities.get call.runId = some run
  derived : deriveResource rt call.resource call.args = .ok resource
  policy : executor.policy policyPoint (policyPayload call.tool resource call.scope run.actor) =
    .ok verdict
  allowed : verdict.allow = true
  accepted : ∃ capability holder, TokenAccepted rt executor.capabilities call.token call.tool
    call.scope now capability holder
  registered : executor.tools.get call.tool = .ok spec
  scope_eq : spec.scope = call.scope
  args : spec.argsSchema (.obj call.args) = .ok true

/-- The host after the policy was asked. -/
def Host.consult (host : Host σ) (payload : Json) : Host σ :=
  { host with consulted := host.consulted ++ [payload] }

/-- No handler ran, and a returned result reports no success. -/
structure Quiet (host : Host σ) (outcome : Except PyError ExecutionResult × Host σ) : Prop where
  handled : outcome.2.handled = host.handled
  world : outcome.2.world = host.world
  refused : ∀ result, outcome.1 = .ok result → result.allowed = false ∧ result.output = none

theorem quiet_error (host : Host σ) (e : PyError) : Quiet host (.error e, host) :=
  ⟨rfl, rfl, fun _ h => nomatch h⟩

theorem quiet_deny (host : Host σ) (reason : PyStr) (call : Invocation)
    (actor decision : Mapping) : Quiet host (deny rt reason call actor decision host) := by
  simp only [deny, conclude]
  cases record rt call actor [(py "denied", .str reason)] host.store with
  | error e => exact quiet_error host e
  | ok recorded =>
      obtain ⟨evidence, store⟩ := recorded
      refine ⟨rfl, rfl, ?_⟩
      intro result h
      cases h
      exact ⟨rfl, rfl⟩

theorem quiet_consult {host : Host σ} (payload : Json)
    {outcome : Except PyError ExecutionResult × Host σ}
    (h : Quiet (host.consult payload) outcome) : Quiet host outcome :=
  ⟨h.handled, h.world, h.refused⟩

theorem execute_of_gates {executor : RunnerExecutor σ} {call : Invocation} {now : Int}
    {run : Run} {resource : PyStr} {verdict : PolicyResult} {spec : ToolSpec σ}
    (gates : ToolGates rt executor call now run resource verdict spec) (host : Host σ) :
    execute rt executor call now host =
      invoke rt spec call run.actor
        (buildPolicyDecision verdict call.decisionId call.createdAt run.actor call.runId
          policyPoint [])
        (host.consult (policyPayload call.tool resource call.scope run.actor)) := by
  obtain ⟨check, hcheck, hvalid⟩ :=
    (check_valid_iff rt executor.capabilities call.token call.tool call.scope now).mpr
      gates.accepted
  simp only [execute, gates.known, gates.derived, gates.policy, gates.allowed, if_true,
    runAllowed, hcheck, hvalid, gates.registered, gates.scope_eq, gates.args, ne_eq,
    not_true_eq_false, if_false]
  rfl

theorem execute_quiet {executor : RunnerExecutor σ} {call : Invocation} {now : Int}
    (refused : ¬ ∃ run resource verdict spec,
      ToolGates rt executor call now run resource verdict spec) (host : Host σ) :
    Quiet host (execute rt executor call now host) := by
  simp only [execute]
  cases hrun : executor.capabilities.get call.runId with
  | none => exact quiet_error host _
  | some run =>
      cases hres : deriveResource rt call.resource call.args with
      | error e => exact quiet_error host e
      | ok resource =>
          refine quiet_consult (policyPayload call.tool resource call.scope run.actor) ?_
          dsimp only
          cases hpol : executor.policy policyPoint
              (policyPayload call.tool resource call.scope run.actor) with
          | error e => exact quiet_error _ e
          | ok verdict =>
              by_cases hallow : verdict.allow = true
              · simp only [hallow, if_true, runAllowed]
                cases hcheck : executor.capabilities.check rt call.token call.tool call.scope
                    now with
                | error e => exact quiet_error _ e
                | ok check =>
                    by_cases hvalid : check.valid = true
                    · have accepted := (check_valid_iff rt executor.capabilities call.token
                        call.tool call.scope now).mp ⟨check, hcheck, hvalid⟩
                      simp only [hvalid, if_true]
                      cases hspec : executor.tools.get call.tool with
                      | error e => exact quiet_deny _ _ _ _ _
                      | ok spec =>
                          by_cases hscope : spec.scope = call.scope
                          · simp only [hscope, ne_eq, not_true_eq_false, if_false]
                            cases hargs : spec.argsSchema (.obj call.args) with
                            | error e => exact quiet_error _ e
                            | ok fine =>
                                cases fine with
                                | false => exact quiet_deny _ _ _ _ _
                                | true =>
                                    exact absurd ⟨run, resource, verdict, spec, hrun, hres, hpol,
                                      hallow, accepted, hspec, hscope, hargs⟩ refused
                          · simp only [hscope, ne_eq, not_false_eq_true, if_true]
                            exact quiet_deny _ _ _ _ _
                    · simp only [hvalid]
                      exact quiet_deny _ _ _ _ _
              · simp only [hallow]
                cases hcodes : verdict.reasonCodes with
                | nil => exact quiet_error _ _
                | cons reason rest => exact quiet_deny _ _ _ _ _

/-- The handler returned normally, with a result its schema accepts. -/
def Succeeds (spec : ToolSpec σ) (call : Invocation) (world : σ) (output : Mapping) : Prop :=
  (spec.handler call.args world).1 = .ok output ∧ spec.resultSchema (.obj output) = .ok true

theorem conclude_host (call : Invocation) (actor detail : Mapping) (host : Host σ)
    (f : Mapping → ExecutionResult) :
    (conclude rt call actor detail host f).2.handled = host.handled ∧
      (conclude rt call actor detail host f).2.consulted = host.consulted := by
  simp only [conclude]
  split <;> exact ⟨rfl, rfl⟩

theorem invoke_handled (spec : ToolSpec σ) (call : Invocation) (actor decision : Mapping)
    (host : Host σ) :
    (invoke rt spec call actor decision host).2.handled =
      host.handled ++ [(call.tool, call.args)] := by
  simp only [invoke]
  cases hout : (spec.handler call.args host.world).1 with
  | error e => exact (conclude_host _ _ _ _ _).1
  | ok output =>
      simp only
      cases spec.resultSchema (.obj output) with
      | error e => rfl
      | ok fine => cases fine <;> exact (conclude_host _ _ _ _ _).1

theorem invoke_world (spec : ToolSpec σ) (call : Invocation) (actor decision : Mapping)
    (host : Host σ) :
    (invoke rt spec call actor decision host).2.world =
      (spec.handler call.args host.world).2 := by
  simp only [invoke]
  cases hout : (spec.handler call.args host.world).1 with
  | error e => exact (quiet_deny _ _ _ _ _).world
  | ok output =>
      simp only
      cases spec.resultSchema (.obj output) with
      | error e => rfl
      | ok fine =>
          cases fine with
          | false => exact (quiet_deny _ _ _ _ _).world
          | true =>
              simp only [conclude]
              split <;> rfl

/-- What a returned result says about the handler's outcome. -/
theorem invoke_result {spec : ToolSpec σ} {call : Invocation} {actor decision : Mapping}
    {host : Host σ} {result : ExecutionResult}
    (h : (invoke rt spec call actor decision host).1 = .ok result) :
    (result.allowed = true ∧ ∃ output, Succeeds spec call host.world output ∧
        result.output = some output) ∨
      (result.allowed = false ∧ result.output = none ∧
        ¬ ∃ output, Succeeds spec call host.world output) := by
  simp only [invoke] at h
  cases hout : (spec.handler call.args host.world).1 with
  | error e =>
      simp only [hout] at h
      refine Or.inr ⟨((quiet_deny _ _ _ _ _).refused result h).1,
        ((quiet_deny _ _ _ _ _).refused result h).2, ?_⟩
      rintro ⟨output, hok, -⟩
      rw [hout] at hok
      cases hok
  | ok output =>
      simp only [hout] at h
      cases hschema : spec.resultSchema (.obj output) with
      | error e =>
          simp only [hschema] at h
          cases h
      | ok fine =>
          cases fine with
          | false =>
              simp only [hschema] at h
              refine Or.inr ⟨((quiet_deny _ _ _ _ _).refused result h).1,
                ((quiet_deny _ _ _ _ _).refused result h).2, ?_⟩
              rintro ⟨output', hok, hvalid⟩
              rw [hout] at hok
              cases hok
              rw [hschema] at hvalid
              cases hvalid
          | true =>
              simp only [hschema, conclude] at h
              split at h
              · cases h
                exact Or.inl ⟨rfl, output, ⟨hout, hschema⟩, rfl⟩
              · cases h

end SecureSdlc.Runner

namespace SecureSdlc.Skills

open Core Evidence Policy Runner Tools

universe u

variable {rt : Runtime}

theorem buildContextFrom_spec {context built : Mapping} {inputs : List ContextInput}
    (h : buildContextFrom rt context inputs = .ok built) :
    (∀ item ∈ inputs, classifySource item.source ≠ .sensitive) ∧
      ∀ key, (Assoc.get built key).isSome = true →
        (Assoc.get context key).isSome = true ∨ ∃ item ∈ inputs, item.name = key := by
  induction inputs generalizing context with
  | nil =>
      cases h
      exact ⟨by simp, fun key hkey => Or.inl hkey⟩
  | cons item rest ih =>
      simp only [buildContextFrom] at h
      split at h
      · cases h
      · rename_i hsource
        obtain ⟨hrest, hkeys⟩ := ih h
        refine ⟨?_, ?_⟩
        · intro item' hitem
          rcases List.mem_cons.mp hitem with rfl | hitem
          · exact hsource
          · exact hrest item' hitem
        · intro key hkey
          rcases hkeys key hkey with hset | ⟨item', hitem, hname⟩
          · by_cases hk : item.name = key
            · exact Or.inr ⟨item, List.mem_cons_self, hk⟩
            · rw [Assoc.get_set_of_ne _ _ hk] at hset
              exact Or.inl hset
          · exact Or.inr ⟨item', List.mem_cons_of_mem _ hitem, hname⟩

/-- Every key of a built context is the name of one of the inputs, and none of the
inputs is sensitive. -/
theorem buildContext_spec {built : Mapping} {inputs : List ContextInput}
    (h : buildContext rt inputs = .ok built) :
    (∀ item ∈ inputs, classifySource item.source ≠ .sensitive) ∧
      ∀ key, (Assoc.get built key).isSome = true → ∃ item ∈ inputs, item.name = key := by
  obtain ⟨hsource, hkeys⟩ := buildContextFrom_spec h
  refine ⟨hsource, ?_⟩
  intro key hkey
  rcases hkeys key hkey with hnone | hitem
  · simp [Assoc.get] at hnone
  · exact hitem

/-- All gates of `run` let the call through to the model with this context. -/
structure SkillGates (rt : Runtime) (runner : SkillRunner) (call : SkillCall) (now : Int)
    (run : Run) (verdict : PolicyResult) (skill : Skill) (context : Mapping) : Prop where
  known : runner.capabilities.get call.runId = some run
  policy : runner.policy policyPoint (policyPayload call.tool [] call.scope run.actor) =
    .ok verdict
  allowed : verdict.allow = true
  accepted : ∃ capability holder, TokenAccepted rt runner.capabilities call.token call.tool
    call.scope now capability holder
  registered : runner.skills.get call.skillName = .ok skill
  built : buildContext rt call.inputs = .ok context
  complete : ∀ key ∈ skill.contextKeys, (Assoc.get context key).isSome = true

def SkillHost.consult (host : SkillHost) (payload : Json) : SkillHost :=
  { host with consulted := host.consulted ++ [payload] }

/-- The model was not asked, and a returned result carries no artifact. -/
structure Unprompted (host : SkillHost) (outcome : Except PyError SkillRunResult × SkillHost) :
    Prop where
  prompted : outcome.2.prompted = host.prompted
  refused : ∀ result, outcome.1 = .ok result → result.allowed = false ∧ result.artifact = none

theorem unprompted_error (host : SkillHost) (e : PyError) : Unprompted host (.error e, host) :=
  ⟨rfl, fun _ h => nomatch h⟩

theorem unprompted_deny (host : SkillHost) (reason : PyStr) (call : SkillCall)
    (actor decision : Mapping) :
    Unprompted host (denySkill rt reason call actor decision host) := by
  simp only [denySkill]
  cases recordText rt reason (py "skill.denied") call actor host.store with
  | error e => exact unprompted_error host e
  | ok recorded =>
      obtain ⟨evidence, store⟩ := recorded
      refine ⟨rfl, ?_⟩
      intro result h
      cases h
      exact ⟨rfl, rfl⟩

theorem unprompted_consult {host : SkillHost} (payload : Json)
    {outcome : Except PyError SkillRunResult × SkillHost}
    (h : Unprompted (host.consult payload) outcome) : Unprompted host outcome :=
  ⟨h.prompted, h.refused⟩

theorem runSkill_of_gates {runner : SkillRunner} {call : SkillCall} {now : Int} {run : Run}
    {verdict : PolicyResult} {skill : Skill} {context : Mapping}
    (gates : SkillGates rt runner call now run verdict skill context) (host : SkillHost) :
    runSkill rt runner call now host =
      prompt rt runner skill context call run.actor
        (buildPolicyDecision verdict call.decisionId call.createdAt run.actor call.runId
          policyPoint [])
        (host.consult (policyPayload call.tool [] call.scope run.actor)) := by
  obtain ⟨check, hcheck, hvalid⟩ :=
    (check_valid_iff rt runner.capabilities call.token call.tool call.scope now).mpr
      gates.accepted
  have hkeys : (skill.contextKeys.any fun key => (Assoc.get context key).isNone) = false := by
    rw [List.any_eq_false]
    intro key hkey
    simp [Option.isSome_iff_ne_none.mp (gates.complete key hkey)]
  simp only [runSkill, gates.known, gates.policy, gates.allowed, if_true, runSkillAllowed,
    hcheck, hvalid, gates.registered, gates.built, hkeys]
  rfl

theorem runSkill_unprompted {runner : SkillRunner} {call : SkillCall} {now : Int}
    (refused : ¬ ∃ run verdict skill context,
      SkillGates rt runner call now run verdict skill context) (host : SkillHost) :
    Unprompted host (runSkill rt runner call now host) := by
  simp only [runSkill]
  cases hrun : runner.capabilities.get call.runId with
  | none => exact unprompted_error host _
  | some run =>
      refine unprompted_consult (policyPayload call.tool [] call.scope run.actor) ?_
      dsimp only
      cases hpol : runner.policy policyPoint
          (policyPayload call.tool [] call.scope run.actor) with
      | error e => exact unprompted_error _ e
      | ok verdict =>
          by_cases hallow : verdict.allow = true
          · simp only [hallow, if_true, runSkillAllowed]
            cases hcheck : runner.capabilities.check rt call.token call.tool call.scope now with
            | error e => exact unprompted_error _ e
            | ok check =>
                by_cases hvalid : check.valid = true
                · have accepted := (check_valid_iff rt runner.capabilities call.token
                    call.tool call.scope now).mp ⟨check, hcheck, hvalid⟩
                  simp only [hvalid, if_true]
                  cases hskill : runner.skills.get call.skillName with
                  | error e => exact unprompted_deny _ _ _ _ _
                  | ok skill =>
                      cases hctx : buildContext rt call.inputs with
                      | error e => exact unprompted_error _ e
                      | ok context =>
                          by_cases hkeys : (skill.contextKeys.any fun key =>
                              (Assoc.get context key).isNone) = true
                          · simp only [hkeys, if_true]
                            exact unprompted_deny _ _ _ _ _
                          · have complete : ∀ key ∈ skill.contextKeys,
                                (Assoc.get context key).isSome = true := by
                              intro key hkey
                              by_contra hnone
                              refine hkeys (List.any_eq_true.mpr ⟨key, hkey, ?_⟩)
                              simpa using hnone
                            exact absurd ⟨run, verdict, skill, context, hrun, hpol, hallow,
                              accepted, hskill, hctx, complete⟩ refused
                · simp only [hvalid]
                  exact unprompted_deny _ _ _ _ _
          · simp only [hallow]
            cases hcodes : verdict.reasonCodes with
            | nil => exact unprompted_error _ _
            | cons reason rest => exact unprompted_deny _ _ _ _ _

theorem prompt_prompted (runner : SkillRunner) (skill : Skill) (context : Mapping)
    (call : SkillCall) (actor decision : Mapping) (host : SkillHost) :
    (prompt rt runner skill context call actor decision host).2.prompted =
      host.prompted ++ [⟨skill.role, skill.systemPrompt, context⟩] := by
  simp only [prompt]
  split
  · rfl
  · split <;> rfl

/-- An artifact was assembled from the content of the text, and meets its schema. -/
theorem assembleArtifact_artifact {runner : SkillRunner} {skill : Skill} {call : SkillCall}
    {actor decision evidence : Mapping} {text : PyStr} {result : SkillRunResult}
    {artifact : Mapping}
    (h : assembleArtifact rt runner skill call actor decision evidence text = .ok result)
    (hart : result.artifact = some artifact) :
    (∃ content, extractJson rt text = .ok content ∧
        skill.assemble content (call.envelope actor) = .ok artifact) ∧
      runner.validateDocument skill.outputSchema (.obj artifact) = .ok true := by
  simp only [assembleArtifact] at h
  cases hx : extractJson rt text with
  | error e =>
      simp only [hx] at h
      split at h
      · cases h
        cases hart
      · cases h
  | ok content =>
      simp only [hx, bind, Except.bind] at h
      cases ha : skill.assemble content (call.envelope actor) with
      | error e => simp [ha] at h
      | ok assembled =>
          simp only [ha] at h
          cases hv : runner.validateDocument skill.outputSchema (.obj assembled) with
          | error e => simp [hv] at h
          | ok valid =>
              cases valid <;> simp only [hv] at h <;> cases h
              · cases hart
              · cases hart
                exact ⟨⟨content, rfl, ha⟩, hv⟩

theorem prompt_artifact {runner : SkillRunner} {skill : Skill} {context : Mapping}
    {call : SkillCall} {actor decision : Mapping} {host : SkillHost} {result : SkillRunResult}
    {artifact : Mapping}
    (h : (prompt rt runner skill context call actor decision host).1 = .ok result)
    (hart : result.artifact = some artifact) :
    (∃ response content, runner.complete ⟨skill.role, skill.systemPrompt, context⟩ =
          .ok response ∧ extractJson rt response.text = .ok content ∧
        skill.assemble content (call.envelope actor) = .ok artifact) ∧
      runner.validateDocument skill.outputSchema (.obj artifact) = .ok true := by
  simp only [prompt] at h
  split at h
  · cases h
  · rename_i response hresponse
    split at h
    · cases h
    · obtain ⟨⟨content, hcontent, hassemble⟩, hvalid⟩ := assembleArtifact_artifact h hart
      exact ⟨⟨response, content, hresponse, hcontent, hassemble⟩, hvalid⟩

/-- An artifact that a call returns is the registered skill's, made from the content of
a model response. -/
theorem runSkill_artifact {runner : SkillRunner} {call : SkillCall} {now : Int}
    {host : SkillHost} {result : SkillRunResult} {artifact : Mapping}
    (h : (runSkill rt runner call now host).1 = .ok result)
    (hart : result.artifact = some artifact) :
    ∃ skill run content, runner.skills.get call.skillName = .ok skill ∧
      runner.capabilities.get call.runId = some run ∧
      skill.assemble content (call.envelope run.actor) = .ok artifact ∧
      runner.validateDocument skill.outputSchema (.obj artifact) = .ok true := by
  by_cases hgates : ∃ run verdict skill context,
      SkillGates rt runner call now run verdict skill context
  · obtain ⟨run, verdict, skill, context, gates⟩ := hgates
    rw [runSkill_of_gates gates host] at h
    obtain ⟨⟨_, content, -, -, hassemble⟩, hvalid⟩ := prompt_artifact h hart
    exact ⟨skill, run, content, gates.registered, gates.known, hassemble, hvalid⟩
  · rw [((runSkill_unprompted hgates host).refused result h).2] at hart
    cases hart

/-- A call of `execute` reaches its handler through all gates only, and reports success
exactly when it went through and ended well. -/
structure ToolMediated {σ : Type u} (rt : Runtime) (executor : RunnerExecutor σ)
    (call : Invocation) (now : Int) (host : Host σ) : Prop where
  reached : (execute rt executor call now host).2.handled = host.handled ∧
      (execute rt executor call now host).2.world = host.world ∨
    ∃ run resource verdict spec, ToolGates rt executor call now run resource verdict spec ∧
      (execute rt executor call now host).2.handled = host.handled ++ [(call.tool, call.args)]
  allowed : ∀ result, (execute rt executor call now host).1 = .ok result →
    (result.allowed = true ↔ ∃ run resource verdict spec output,
      ToolGates rt executor call now run resource verdict spec ∧
        Succeeds spec call host.world output)
  output : ∀ result, (execute rt executor call now host).1 = .ok result →
    result.allowed = false → result.output = none

theorem execute_mediated {σ : Type u} (executor : RunnerExecutor σ) (call : Invocation)
    (now : Int) (host : Host σ) : ToolMediated rt executor call now host := by
  by_cases hgates : ∃ run resource verdict spec,
      ToolGates rt executor call now run resource verdict spec
  · obtain ⟨run, resource, verdict, spec, gates⟩ := hgates
    have heq := execute_of_gates gates host
    refine ⟨?_, ?_, ?_⟩
    · rw [heq]
      exact Or.inr ⟨run, resource, verdict, spec, gates, invoke_handled _ _ _ _ _⟩
    · intro result hresult
      rw [heq] at hresult
      rcases invoke_result hresult with ⟨hallowed, output, hsucc, -⟩ | ⟨hrefused, -, hfail⟩
      · exact ⟨fun _ => ⟨run, resource, verdict, spec, output, gates, hsucc⟩, fun _ => hallowed⟩
      · refine ⟨fun htrue => by simp [hrefused] at htrue, ?_⟩
        rintro ⟨_, _, _, spec', output, gates', hsucc⟩
        obtain rfl : spec' = spec := Except.ok.inj (gates'.registered.symm.trans gates.registered)
        exact absurd ⟨output, hsucc⟩ hfail
    · intro result hresult hfalse
      rw [heq] at hresult
      rcases invoke_result hresult with ⟨hallowed, -⟩ | ⟨-, hnone, -⟩
      · simp [hallowed] at hfalse
      · exact hnone
  · have quiet := execute_quiet hgates host
    refine ⟨Or.inl ⟨quiet.handled, quiet.world⟩, ?_, ?_⟩
    · intro result hresult
      refine ⟨fun htrue => by simp [(quiet.refused result hresult).1] at htrue, ?_⟩
      rintro ⟨run, resource, verdict, spec, _, gates, -⟩
      exact absurd ⟨run, resource, verdict, spec, gates⟩ hgates
    · intro result hresult _
      exact (quiet.refused result hresult).2

/-- A call of `run` reaches the model through all gates only, and returns an artifact
only when it meets its schema. -/
structure SkillMediated (rt : Runtime) (runner : SkillRunner) (call : SkillCall) (now : Int)
    (host : SkillHost) : Prop where
  reached : (runSkill rt runner call now host).2.prompted = host.prompted ∨
    ∃ run verdict skill context, SkillGates rt runner call now run verdict skill context ∧
      (∀ item ∈ call.inputs, classifySource item.source ≠ .sensitive) ∧
      (∀ key ∈ skill.contextKeys, ∃ item ∈ call.inputs, item.name = key) ∧
      (runSkill rt runner call now host).2.prompted =
        host.prompted ++ [⟨skill.role, skill.systemPrompt, context⟩]
  artifact : ∀ result artifact, (runSkill rt runner call now host).1 = .ok result →
    result.artifact = some artifact →
    ∃ skill, runner.skills.get call.skillName = .ok skill ∧
      runner.validateDocument skill.outputSchema (.obj artifact) = .ok true

theorem runSkill_mediated (runner : SkillRunner) (call : SkillCall) (now : Int)
    (host : SkillHost) : SkillMediated rt runner call now host := by
  by_cases hgates : ∃ run verdict skill context,
      SkillGates rt runner call now run verdict skill context
  · obtain ⟨run, verdict, skill, context, gates⟩ := hgates
    have heq := runSkill_of_gates gates host
    obtain ⟨hsource, hnames⟩ := buildContext_spec gates.built
    refine ⟨Or.inr ⟨run, verdict, skill, context, gates, hsource, ?_, ?_⟩, ?_⟩
    · intro key hkey
      exact hnames key (gates.complete key hkey)
    · rw [heq]
      exact prompt_prompted _ _ _ _ _ _ _
    · intro result artifact hresult hart
      rw [heq] at hresult
      exact ⟨skill, gates.registered, (prompt_artifact hresult hart).2⟩
  · have quiet := runSkill_unprompted hgates host
    refine ⟨Or.inl quiet.prompted, ?_⟩
    intro result artifact hresult hart
    rw [(quiet.refused result hresult).2] at hart
    cases hart

/-- Tool handlers and the model are reached through all gates only. -/
theorem effects_completely_mediated (rt : Runtime) :
    (∀ (σ : Type u) (executor : RunnerExecutor σ) (call : Invocation) (now : Int)
      (host : Host σ), ToolMediated rt executor call now host) ∧
    ∀ (runner : SkillRunner) (call : SkillCall) (now : Int) (host : SkillHost),
      SkillMediated rt runner call now host :=
  ⟨fun _ => execute_mediated, runSkill_mediated⟩

end SecureSdlc.Skills

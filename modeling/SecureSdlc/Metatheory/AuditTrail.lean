import SecureSdlc.Core.JsonSpelling
import SecureSdlc.Metatheory.CapabilityBinding
import SecureSdlc.Metatheory.EvidenceRecovery

/-!
The audit trail of the executor. Every exit of `execute` records its call, and the
record is written after the handler ran; it is written exactly when the call and what
is recorded with it can be dumped and encoded. The result below says for which calls
`execute` returns with its decision and its stored evidence.
-/

namespace SecureSdlc.Runner

open Core Evidence Policy Tools

universe u

variable {rt : Runtime} {σ : Type u}

/-- A value that the record of a call can carry: no lone surrogate, no integer too long
for `str`, and one level of nesting to spare. -/
structure Storable (rt : Runtime) (v : Json) : Prop where
  depth : v.depth < rt.dumpsRoom
  ints : v.allScalars (fun _ => true) (fun _ => true) JsonText.shortInt = true
  texts : v.allScalars PyStr.encodable PyStr.encodable (fun _ => true) = true

/-- The tool's name and the arguments of the call can be recorded. -/
structure StorableCall (rt : Runtime) (call : Invocation) : Prop where
  tool : PyStr.encodable call.tool = true
  args : Storable rt (.obj call.args)

/-- The document that `_record` dumps. -/
def recordPayload (call : Invocation) (detail : Mapping) : Json :=
  .obj [(py "tool", .str call.tool), (py "args", .obj call.args), (py "detail", .obj detail)]

theorem writable_recordPayload {room : Nat} {call : Invocation} {detail : Mapping} :
    JsonText.Writable (room + 1) (recordPayload call detail) ↔
      JsonText.Writable room (.obj call.args) ∧ JsonText.Writable room (.obj detail) := by
  have htool : JsonText.Writable room (.str call.tool) := ⟨Nat.zero_le _, rfl⟩
  rw [recordPayload, JsonText.writable_obj]
  simp only [List.forall_mem_cons, List.not_mem_nil, false_implies, implies_true, and_true, htool,
    true_and]

theorem storable_iff_payload {call : Invocation} {detail : Mapping} :
    (StorableCall rt call ∧ Storable rt (.obj detail)) ↔
      JsonText.Writable rt.dumpsRoom (recordPayload call detail) ∧
        (recordPayload call detail).allScalars PyStr.encodable PyStr.encodable (fun _ => true) =
          true := by
  have hkeys : PyStr.encodable (py "tool") = true ∧ PyStr.encodable (py "args") = true ∧
      PyStr.encodable (py "detail") = true := by
    decide
  have htexts : (recordPayload call detail).allScalars PyStr.encodable PyStr.encodable
      (fun _ => true) = true ↔ PyStr.encodable call.tool = true ∧
        (Json.obj call.args).allScalars PyStr.encodable PyStr.encodable (fun _ => true) = true ∧
        (Json.obj detail).allScalars PyStr.encodable PyStr.encodable (fun _ => true) = true := by
    simp only [recordPayload, Json.allScalars, Json.allScalarsFields, hkeys, Bool.true_and,
      Bool.and_true, Bool.and_eq_true]
  rw [htexts]
  cases hroom : rt.dumpsRoom with
  | zero =>
      constructor
      · intro h
        exact absurd h.2.depth (by simp [hroom])
      · intro h
        exact absurd h.1 (JsonText.not_writable_zero (Nat.succ_pos _))
  | succ room =>
      rw [writable_recordPayload]
      constructor
      · rintro ⟨⟨htool, hargs⟩, hdetail⟩
        have hdepth := hargs.depth
        have hdepth' := hdetail.depth
        rw [hroom, Nat.lt_succ_iff] at hdepth hdepth'
        exact ⟨⟨⟨hdepth, hargs.ints⟩, ⟨hdepth', hdetail.ints⟩⟩, htool, hargs.texts, hdetail.texts⟩
      · rintro ⟨⟨hargs, hdetail⟩, htool, hargsTexts, hdetailTexts⟩
        have hdepth := Nat.lt_succ_of_le hargs.depth
        have hdepth' := Nat.lt_succ_of_le hdetail.depth
        exact ⟨⟨htool, ⟨hroom ▸ hdepth, hargs.ints, hargsTexts⟩⟩,
          ⟨hroom ▸ hdepth', hdetail.ints, hdetailTexts⟩⟩

/-- The result is there, names the decision, and its evidence is stored. -/
def Audited (call : Invocation) (outcome : Except PyError ExecutionResult × Host σ) : Prop :=
  ∃ result, outcome.1 = .ok result ∧
    Assoc.get result.decision (py "id") = some (.str call.decisionId) ∧
    Assoc.get result.evidence (py "policy_decision_ref") = some (.str call.decisionId) ∧
    ∃ digest, Assoc.get result.evidence (py "artifact_digest") = some (.str digest) ∧
      (Assoc.get outcome.2.store.blobs digest).isSome = true

theorem not_audited_error (call : Invocation) (e : PyError) (host : Host σ) :
    ¬ Audited call (.error e, host) := by
  rintro ⟨result, h, -⟩
  cases h

/-- What an encodable text leaves in the store and in its record. -/
theorem processToolOutput_encodable (rt : Runtime) {text : PyStr}
    (h : PyStr.encodable text = true) (action : PyStr) (actor : Mapping)
    (runId artifactId createdAt decisionId : PyStr)
    (store : EvidenceStore) :
    ∃ outcome store', processToolOutput rt text action actor runId artifactId createdAt store
        .untrusted none (some decisionId) = .ok (outcome, store') ∧
      Assoc.get outcome.record (py "policy_decision_ref") = some (.str decisionId) ∧
      ∃ digest, Assoc.get outcome.record (py "artifact_digest") = some (.str digest) ∧
        (Assoc.get store'.blobs digest).isSome = true := by
  obtain ⟨compression, -, heq⟩ := processToolOutputWith_encodable rt h action actor runId
    artifactId createdAt store (by decide : TrustTier.untrusted ≠ .sensitive) (py "none")
    defaultMaxBytes none (some decisionId) []
  refine ⟨_, _, heq, rfl, _, rfl, ?_⟩
  simp [EvidenceStore.put]

theorem processToolOutput_not_encodable {text : PyStr} (h : PyStr.encodable text = false)
    (action : PyStr) (actor : Mapping) (runId artifactId createdAt : PyStr)
    (store : EvidenceStore) (decisionRef : Option PyStr) :
    processToolOutput rt text action actor runId artifactId createdAt store .untrusted none
      decisionRef = .error { kind := .unicodeEncodeError } :=
  processToolOutputWith_not_encodable h action actor runId artifactId createdAt store
    (by decide) _ _ _ _ _

/-- `_record` returns exactly for calls and details that can be recorded. -/
theorem record_ok {call : Invocation} {detail : Mapping} (hcall : StorableCall rt call)
    (hdetail : Storable rt (.obj detail)) (actor : Mapping) (store : EvidenceStore) :
    ∃ evidence store', record rt call actor detail store = .ok (evidence, store') ∧
      Assoc.get evidence (py "policy_decision_ref") = some (.str call.decisionId) ∧
      ∃ digest, Assoc.get evidence (py "artifact_digest") = some (.str digest) ∧
        (Assoc.get store'.blobs digest).isSome = true := by
  obtain ⟨hwritable, htexts⟩ := storable_iff_payload.mp ⟨hcall, hdetail⟩
  obtain ⟨text, htext⟩ := (JsonText.exists_write_iff recordStyle rt.dumpsRoom _).mpr hwritable
  have hencodable := JsonText.encodable_write rfl (by decide) (by decide) htext
  rw [htexts] at hencodable
  obtain ⟨outcome, store', hprocess, hstored⟩ := processToolOutput_encodable rt hencodable
    (py "tool." ++ call.tool) actor call.runId call.evidenceId call.createdAt call.decisionId store
  refine ⟨outcome.record, store', ?_, hstored⟩
  rw [recordPayload] at htext
  simp only [record, JsonText.dumps, htext, bind, Except.bind, hprocess]
  rfl

theorem storable_of_record {call : Invocation} {actor detail : Mapping} {store : EvidenceStore}
    {recorded : Mapping × EvidenceStore}
    (h : record rt call actor detail store = .ok recorded) :
    StorableCall rt call ∧ Storable rt (.obj detail) := by
  rw [record] at h
  obtain ⟨text, htext, h⟩ := exists_ok_of_bind h
  obtain ⟨captured, hprocess, -⟩ := exists_ok_of_bind h
  rw [storable_iff_payload]
  refine ⟨(JsonText.exists_write_iff recordStyle rt.dumpsRoom _).mp ⟨text, htext⟩, ?_⟩
  rw [recordPayload, ← JsonText.encodable_write rfl (by decide) (by decide) htext]
  by_contra hsurrogate
  rw [processToolOutput_not_encodable (Bool.eq_false_of_not_eq_true hsurrogate)] at hprocess
  cases hprocess

/-- An exit is audited exactly when its call and its detail can be recorded. -/
theorem audited_conclude_iff {call : Invocation} {actor detail decision : Mapping} {host : Host σ}
    {f : Mapping → ExecutionResult}
    (hid : Assoc.get decision (py "id") = some (.str call.decisionId))
    (hf : ∀ evidence, (f evidence).decision = decision ∧ (f evidence).evidence = evidence) :
    Audited call (conclude rt call actor detail host f) ↔
      StorableCall rt call ∧ Storable rt (.obj detail) := by
  constructor
  · rintro ⟨result, hresult, -⟩
    rw [conclude] at hresult
    split at hresult
    · exact storable_of_record (by assumption)
    · cases hresult
  · rintro ⟨hcall, hdetail⟩
    obtain ⟨evidence, store', hrecord, href, digest, hdigest, hstored⟩ :=
      record_ok hcall hdetail actor host.store
    rw [conclude, hrecord]
    refine ⟨f evidence, rfl, ?_, ?_, digest, ?_, hstored⟩
    · rw [(hf evidence).1, hid]
    · rw [(hf evidence).2, href]
    · rw [(hf evidence).2, hdigest]

theorem storable_denied {call : Invocation} (hcall : StorableCall rt call) {reason : PyStr} :
    Storable rt (.obj [(py "denied", .str reason)]) ↔ PyStr.encodable reason = true := by
  have hkey : PyStr.encodable (py "denied") = true := by decide
  have hroom : (Json.obj [(py "denied", .str reason)]).depth < rt.dumpsRoom := by
    have hdepth := hcall.args.depth
    have hpos : 1 ≤ (Json.obj call.args).depth := Nat.succ_pos _
    exact Nat.lt_of_le_of_lt hpos hdepth
  constructor
  · intro h
    have htexts := h.texts
    simp only [Json.allScalars, Json.allScalarsFields, hkey, Bool.true_and, Bool.and_true] at htexts
    exact htexts
  · intro h
    refine ⟨hroom, rfl, ?_⟩
    simp only [Json.allScalars, Json.allScalarsFields, hkey, h, Bool.and_self]

theorem audited_deny_iff {call : Invocation} {actor decision : Mapping} {host : Host σ}
    (hid : Assoc.get decision (py "id") = some (.str call.decisionId)) (reason : PyStr) :
    Audited call (deny rt reason call actor decision host) ↔
      StorableCall rt call ∧ PyStr.encodable reason = true := by
  rw [deny, audited_conclude_iff hid fun _ => ⟨rfl, rfl⟩]
  exact and_congr_right fun hcall => storable_denied hcall

/-- What is needed of the handler's outcome: a validator that returns, and a result
that can be recorded if it is to be. -/
def ResultStorable (rt : Runtime) (spec : ToolSpec σ) (call : Invocation) (world : σ) : Prop :=
  ∀ output, (spec.handler call.args world).1 = .ok output →
    ∃ fine, spec.resultSchema (.obj output) = .ok fine ∧
      (fine = true → Storable rt (.obj [(py "output", .obj output)]))

theorem audited_invoke_iff {spec : ToolSpec σ} {call : Invocation} {actor decision : Mapping}
    {host : Host σ} (hid : Assoc.get decision (py "id") = some (.str call.decisionId)) :
    Audited call (invoke rt spec call actor decision host) ↔
      StorableCall rt call ∧ ResultStorable rt spec call host.world := by
  simp only [invoke, ResultStorable]
  cases hout : (spec.handler call.args host.world).1 with
  | error e =>
      have hreason : PyStr.encodable reasonExecutionFailed = true := by decide
      simp only [audited_deny_iff hid, hreason, reduceCtorEq, false_implies, implies_true]
  | ok output =>
      simp only [Except.ok.injEq, forall_eq']
      cases hschema : spec.resultSchema (.obj output) with
      | error e =>
          simp only [reduceCtorEq, false_and, exists_false, and_false, iff_false]
          exact not_audited_error call e _
      | ok fine =>
          simp only [Except.ok.injEq, exists_eq_left']
          cases fine with
          | false =>
              have hreason : PyStr.encodable reasonInvalidResult = true := by decide
              simp only [audited_deny_iff hid, hreason, Bool.false_eq_true, false_implies]
          | true =>
              simp only [true_implies]
              exact audited_conclude_iff hid fun _ => ⟨rfl, rfl⟩

/-- The reasons a token is refused with are constants. -/
theorem decodeToken_error {secret : Bytes} {token : PyStr} {decoded : DecodeResult}
    (h : decodeToken rt secret token = .ok decoded) :
    decoded.error ∈ [none, some reasonMalformedToken, some reasonSignatureInvalid] := by
  have hpayload : ∀ {encoded : PyStr} {decoded : DecodeResult},
      decodePayload rt encoded = .ok decoded →
        decoded.error ∈ [none, some reasonMalformedToken, some reasonSignatureInvalid] := by
    intro encoded decoded h
    rw [decodePayload] at h
    split at h
    · cases h
      simp [DecodeResult.failed]
    · split at h
      · split at h
        · cases h
          simp [DecodeResult.failed]
        · cases h
      · split at h
        · cases h
          simp
        · cases h
          simp [DecodeResult.failed]
  rw [decodeToken] at h
  split at h
  · split at h
    · cases h
      simp [DecodeResult.failed]
    · obtain ⟨expected, -, h⟩ := exists_ok_of_bind h
      obtain ⟨same, -, h⟩ := exists_ok_of_bind h
      split at h
      · exact hpayload h
      · cases h
        simp [DecodeResult.failed]
  · cases h
    simp [DecodeResult.failed]

theorem encodable_checkCapability (registry : RunRegistry) (capability : Capability)
    (tool scope : PyStr) (now : Int) :
    PyStr.encodable (registry.checkCapability capability tool scope now).reason = true := by
  rw [RunRegistry.checkCapability]
  split
  · rfl
  split
  · rfl
  split
  · rfl
  split
  · rfl
  split
  · rfl
  · rfl

theorem encodable_check {registry : RunRegistry} {token tool scope : PyStr} {now : Int}
    {check : CapabilityCheck} (h : registry.check rt token tool scope now = .ok check) :
    PyStr.encodable check.reason = true := by
  rw [RunRegistry.check] at h
  obtain ⟨decoded, hdecoded, h⟩ := exists_ok_of_bind h
  obtain ⟨capability, error⟩ := decoded
  cases capability with
  | some capability =>
      cases h
      exact encodable_checkCapability registry capability tool scope now
  | none =>
      cases h
      have herror := decodeToken_error hdecoded
      simp only [List.mem_cons, List.not_mem_nil, or_false] at herror
      rcases herror with rfl | rfl | rfl <;> decide

theorem exists_check_iff (registry : RunRegistry) (token tool scope : PyStr) (now : Int) :
    (∃ check, registry.check rt token tool scope now = .ok check) ↔
      ∃ decoded, decodeToken rt registry.secret token = .ok decoded := by
  constructor
  · rintro ⟨check, h⟩
    rw [RunRegistry.check] at h
    obtain ⟨decoded, hdecoded, -⟩ := exists_ok_of_bind h
    exact ⟨decoded, hdecoded⟩
  · rintro ⟨⟨capability, error⟩, hdecoded⟩
    rw [RunRegistry.check, hdecoded]
    cases capability with
    | none => exact ⟨_, rfl⟩
    | some capability => exact ⟨_, rfl⟩

/-- The run holds a token that is accepted for this call. -/
def Accepted (rt : Runtime) (executor : RunnerExecutor σ) (call : Invocation) (now : Int) : Prop :=
  ∃ capability holder, TokenAccepted rt executor.capabilities call.token call.tool call.scope now
    capability holder

/-- What is needed of a call the policy allowed: a token that decodes or is refused, and
validators that return, where they are asked. -/
structure AllowedStorable (rt : Runtime) (executor : RunnerExecutor σ) (call : Invocation)
    (now : Int) (world : σ) : Prop where
  token : ∃ decoded, decodeToken rt executor.capabilities.secret call.token = .ok decoded
  args : Accepted rt executor call now → ∀ spec, executor.tools.get call.tool = .ok spec →
    spec.scope = call.scope → ∃ fine, spec.argsSchema (.obj call.args) = .ok fine ∧
      (fine = true → ResultStorable rt spec call world)

theorem accepted_iff {executor : RunnerExecutor σ} {call : Invocation} {now : Int}
    {check : CapabilityCheck}
    (h : executor.capabilities.check rt call.token call.tool call.scope now = .ok check) :
    Accepted rt executor call now ↔ check.valid = true := by
  rw [Accepted, ← check_valid_iff, h]
  constructor
  · rintro ⟨other, heq, hvalid⟩
    cases heq
    exact hvalid
  · intro hvalid
    exact ⟨check, rfl, hvalid⟩

theorem audited_runAllowed_iff {executor : RunnerExecutor σ} {call : Invocation} {now : Int}
    {actor decision : Mapping} {host : Host σ}
    (hid : Assoc.get decision (py "id") = some (.str call.decisionId)) :
    Audited call (runAllowed rt executor call now actor decision host) ↔
      StorableCall rt call ∧ AllowedStorable rt executor call now host.world := by
  have hdeny : ∀ {reason : PyStr}, PyStr.encodable reason = true →
      (Audited call (deny rt reason call actor decision host) ↔ StorableCall rt call) := by
    intro reason hreason
    rw [audited_deny_iff hid, hreason]
    exact and_iff_left rfl
  have htoken : (∃ check, executor.capabilities.check rt call.token call.tool call.scope now =
      .ok check) ↔ _ :=
    exists_check_iff executor.capabilities call.token call.tool call.scope now
  simp only [runAllowed]
  cases hcheck : executor.capabilities.check rt call.token call.tool call.scope now with
  | error e =>
      refine iff_of_false (not_audited_error call e host) ?_
      rintro ⟨-, hallowed⟩
      obtain ⟨check, heq⟩ := htoken.mpr hallowed.token
      rw [hcheck] at heq
      cases heq
  | ok check =>
      have hdecoded := htoken.mp ⟨check, hcheck⟩
      have haccepted := accepted_iff hcheck
      -- each exit below asks no more of the call than that it can be recorded
      have hexit : (Accepted rt executor call now → ∀ spec,
          executor.tools.get call.tool = .ok spec → spec.scope = call.scope →
            spec.argsSchema (.obj call.args) = .ok false) →
          (StorableCall rt call ↔
            StorableCall rt call ∧ AllowedStorable rt executor call now host.world) := by
        intro hrefused
        refine (and_iff_left ⟨hdecoded, ?_⟩).symm
        intro hacc spec hspec hscope
        exact ⟨false, hrefused hacc spec hspec hscope, fun h => absurd h Bool.false_ne_true⟩
      by_cases hvalid : check.valid = true
      · simp only [hvalid, if_true]
        cases hspec : executor.tools.get call.tool with
        | error e =>
            refine (hdeny rfl).trans (hexit ?_)
            intro _ spec heq
            rw [hspec] at heq
            cases heq
        | ok spec =>
            by_cases hscope : spec.scope = call.scope
            · simp only [hscope, ne_eq, not_true_eq_false, if_false]
              cases hargs : spec.argsSchema (.obj call.args) with
              | error e =>
                  refine iff_of_false (not_audited_error call e host) ?_
                  rintro ⟨-, hallowed⟩
                  obtain ⟨fine, heq, -⟩ :=
                    hallowed.args (haccepted.mpr hvalid) spec hspec hscope
                  rw [hargs] at heq
                  cases heq
              | ok fine =>
                  cases fine with
                  | false =>
                      refine (hdeny rfl).trans (hexit ?_)
                      intro _ other heq _
                      rw [hspec] at heq
                      cases heq
                      exact hargs
                  | true =>
                      refine (audited_invoke_iff hid).trans (and_congr_right fun _ => ?_)
                      constructor
                      · intro hresult
                        refine ⟨hdecoded, ?_⟩
                        intro _ other heq _
                        rw [hspec] at heq
                        cases heq
                        exact ⟨true, hargs, fun _ => hresult⟩
                      · intro hallowed
                        obtain ⟨fine, heq, hresult⟩ :=
                          hallowed.args (haccepted.mpr hvalid) spec hspec hscope
                        rw [hargs] at heq
                        cases heq
                        exact hresult rfl
            · simp only [hscope, ne_eq, not_false_eq_true, if_true]
              refine (hdeny rfl).trans (hexit ?_)
              intro _ other heq hother
              rw [hspec] at heq
              cases heq
              exact absurd hother hscope
      · simp only [hvalid]
        refine (hdeny (encodable_check hcheck)).trans (hexit ?_)
        intro hacc
        exact absurd (haccepted.mp hacc) hvalid

/-- The policy's answer to this call of the run. -/
def Answers (rt : Runtime) (executor : RunnerExecutor σ) (call : Invocation) (run : Run)
    (verdict : PolicyResult) : Prop :=
  ∃ resource, deriveResource rt call.resource call.args = .ok resource ∧
    executor.policy policyPoint (policyPayload call.tool resource call.scope run.actor) =
      .ok verdict

/-- What is needed of a call: that it can be recorded, that its resource can be spelt
out, and what its exit needs. -/
structure Auditable (rt : Runtime) (executor : RunnerExecutor σ) (call : Invocation) (now : Int)
    (run : Run) (world : σ) : Prop where
  storable : StorableCall rt call
  resource : ∃ resource, deriveResource rt call.resource call.args = .ok resource
  denied : ∀ verdict, Answers rt executor call run verdict → verdict.allow = false →
    ∃ reason rest, verdict.reasonCodes = reason :: rest ∧ PyStr.encodable reason = true
  allowed : ∀ verdict, Answers rt executor call run verdict → verdict.allow = true →
    AllowedStorable rt executor call now world

theorem Answers.unique {executor : RunnerExecutor σ} {call : Invocation} {run : Run}
    {verdict other : PolicyResult} (h : Answers rt executor call run verdict)
    (hother : Answers rt executor call run other) : other = verdict := by
  obtain ⟨resource, hresource, hverdict⟩ := h
  obtain ⟨resource', hresource', hverdict'⟩ := hother
  rw [hresource] at hresource'
  cases hresource'
  rw [hverdict] at hverdict'
  cases hverdict'
  rfl

/-- A call that the policy answers is audited exactly when it is auditable. -/
theorem audited_of_answers_iff {executor : RunnerExecutor σ} {call : Invocation} {now : Int}
    {host : Host σ} {run : Run} {verdict : PolicyResult}
    (hrun : executor.capabilities.get call.runId = some run)
    (hanswer : Answers rt executor call run verdict) :
    Audited call (execute rt executor call now host) ↔
      Auditable rt executor call now run host.world := by
  obtain ⟨resource, hres, hverdict⟩ := hanswer
  have hanswer : Answers rt executor call run verdict := ⟨resource, hres, hverdict⟩
  simp only [execute, hrun, hres, hverdict]
  by_cases hallow : verdict.allow = true
  · simp only [hallow, if_true]
    refine (audited_runAllowed_iff rfl).trans ?_
    constructor
    · rintro ⟨hstorable, hallowed⟩
      refine ⟨hstorable, ⟨resource, hres⟩, ?_, fun _ _ _ => hallowed⟩
      intro other hother hdenied
      rw [hanswer.unique hother, hallow] at hdenied
      cases hdenied
    · intro h
      exact ⟨h.storable, h.allowed verdict hanswer hallow⟩
  · simp only [hallow]
    have hdenied := Bool.eq_false_of_not_eq_true hallow
    cases hcodes : verdict.reasonCodes with
    | nil =>
        refine iff_of_false (not_audited_error call _ _) ?_
        intro h
        obtain ⟨reason, rest, heq, -⟩ := h.denied verdict hanswer hdenied
        rw [hcodes] at heq
        cases heq
    | cons reason rest =>
        refine (audited_deny_iff rfl reason).trans ?_
        constructor
        · rintro ⟨hstorable, hreason⟩
          refine ⟨hstorable, ⟨resource, hres⟩, ?_, ?_⟩
          · intro other hother _
            rw [hanswer.unique hother]
            exact ⟨reason, rest, hcodes, hreason⟩
          · intro other hother hallowed
            rw [hanswer.unique hother, hdenied] at hallowed
            cases hallowed
        · intro h
          obtain ⟨reason', rest', heq, hreason⟩ := h.denied verdict hanswer hdenied
          rw [hcodes] at heq
          cases heq
          exact ⟨h.storable, hreason⟩

/-- For a registered run and a policy that answers, `execute` returns with its decision
and its stored evidence exactly for auditable calls. -/
theorem execute_audited_iff (rt : Runtime) (executor : RunnerExecutor σ) (call : Invocation)
    (now : Int) (host : Host σ) (run : Run)
    (hrun : executor.capabilities.get call.runId = some run)
    (hpolicy : ∀ payload, ∃ verdict, executor.policy policyPoint payload = .ok verdict) :
    Audited call (execute rt executor call now host) ↔
      Auditable rt executor call now run host.world := by
  cases hres : deriveResource rt call.resource call.args with
  | error e =>
      simp only [execute, hrun, hres]
      refine iff_of_false (not_audited_error call e host) ?_
      intro h
      obtain ⟨resource, heq⟩ := h.resource
      rw [hres] at heq
      cases heq
  | ok resource =>
      obtain ⟨verdict, hverdict⟩ :=
        hpolicy (policyPayload call.tool resource call.scope run.actor)
      exact audited_of_answers_iff hrun ⟨resource, hres, hverdict⟩

/-- How an execution returns: refused with a reason, or with the handler's output. What it
returns, and the store it leaves. -/
inductive Exit (rt : Runtime) (call : Invocation) (actor decision : Mapping)
    (store : EvidenceStore) : ExecutionResult → EvidenceStore → Prop
  | refused {evidence : Mapping} {stored : EvidenceStore} (reason : PyStr)
      (recorded : record rt call actor [(py "denied", .str reason)] store =
        .ok (evidence, stored)) :
      Exit rt call actor decision store ⟨false, reason, decision, evidence, none⟩ stored
  | executed {evidence : Mapping} {stored : EvidenceStore} (output : Mapping)
      (recorded : record rt call actor [(py "output", .obj output)] store =
        .ok (evidence, stored)) :
      Exit rt call actor decision store ⟨true, reasonExecuted, decision, evidence, some output⟩
        stored

/-- What the outcome returns is one of the exits. -/
def Exits (rt : Runtime) (call : Invocation) (actor decision : Mapping) (store : EvidenceStore)
    (outcome : Except PyError ExecutionResult × Host σ) : Prop :=
  ∀ result, outcome.1 = .ok result → Exit rt call actor decision store result outcome.2.store

section Exits

variable {call : Invocation} {actor decision : Mapping} {store : EvidenceStore} {host : Host σ}

theorem exits_error (e : PyError) : Exits rt call actor decision store (.error e, host) :=
  fun _ h => nomatch h

theorem exits_deny (reason : PyStr) :
    Exits rt call actor decision host.store (deny rt reason call actor decision host) := by
  intro result h
  rw [deny, conclude] at h ⊢
  split at h
  · rename_i evidence stored hrecord
    cases h
    exact .refused reason hrecord
  · cases h

theorem exits_invoke (spec : ToolSpec σ) :
    Exits rt call actor decision host.store (invoke rt spec call actor decision host) := by
  simp only [invoke]
  split
  · exact exits_deny _
  · rename_i output _
    split
    · exact exits_error _
    · exact exits_deny _
    · intro result h
      rw [conclude] at h ⊢
      split at h
      · rename_i evidence stored hrecord
        cases h
        exact .executed output hrecord
      · cases h

theorem exits_runAllowed (executor : RunnerExecutor σ) (now : Int) :
    Exits rt call actor decision host.store
      (runAllowed rt executor call now actor decision host) := by
  rw [runAllowed.eq_def]
  split
  · exact exits_error _
  · split
    · split
      · exact exits_deny _
      · split
        · exact exits_deny _
        · split
          · exact exits_error _
          · exact exits_deny _
          · exact exits_invoke _
    · exact exits_deny _

end Exits

/-- The decision that `execute` builds once the policy answered. -/
def decisionOf (call : Invocation) (run : Run) (verdict : PolicyResult) : Mapping :=
  buildPolicyDecision verdict call.decisionId call.createdAt run.actor call.runId policyPoint []

/-- Every return of `execute`, of a registered run that the policy answers. -/
theorem execute_exit {executor : RunnerExecutor σ} {call : Invocation} {now : Int}
    {host : Host σ} {result : ExecutionResult}
    (h : (execute rt executor call now host).1 = .ok result) :
    ∃ run verdict, executor.capabilities.get call.runId = some run ∧
      Answers rt executor call run verdict ∧
      Exit rt call run.actor (decisionOf call run verdict) host.store result
        (execute rt executor call now host).2.store := by
  cases hrun : executor.capabilities.get call.runId with
  | none =>
      simp only [execute, hrun] at h
      cases h
  | some run =>
      cases hresource : deriveResource rt call.resource call.args with
      | error e =>
          simp only [execute, hrun, hresource] at h
          cases h
      | ok resource =>
          cases hverdict : executor.policy policyPoint
              (policyPayload call.tool resource call.scope run.actor) with
          | error e =>
              simp only [execute, hrun, hresource, hverdict] at h
              cases h
          | ok verdict =>
              refine ⟨run, verdict, rfl, ⟨resource, hresource, hverdict⟩, ?_⟩
              revert result
              change Exits rt call run.actor _ host.store _
              simp only [execute, hrun, hresource, hverdict]
              split
              · exact exits_runAllowed executor now
              · split
                · exact exits_error _
                · exact exits_deny _

/-- What is returned is audited. -/
theorem audited_of_exit {call : Invocation} {run : Run} {verdict : PolicyResult}
    {store : EvidenceStore} {result : ExecutionResult} {host : Host σ}
    (h : Exit rt call run.actor (decisionOf call run verdict) store result host.store) :
    Audited call (.ok result, host) := by
  have hstored : ∀ {detail evidence : Mapping},
      record rt call run.actor detail store = .ok (evidence, host.store) →
      Assoc.get evidence (py "policy_decision_ref") = some (.str call.decisionId) ∧
        ∃ digest, Assoc.get evidence (py "artifact_digest") = some (.str digest) ∧
          (Assoc.get host.store.blobs digest).isSome = true := by
    intro detail evidence hrecord
    obtain ⟨hcall, hdetail⟩ := storable_of_record hrecord
    obtain ⟨evidence', stored', hrecord', hkept⟩ := record_ok hcall hdetail run.actor store
    rw [hrecord] at hrecord'
    cases hrecord'
    exact hkept
  cases h with
  | refused reason recorded => exact ⟨_, rfl, rfl, hstored recorded⟩
  | executed output recorded => exact ⟨_, rfl, rfl, hstored recorded⟩

/-- The run of the call is registered and the policy answers it. -/
def Evaluated (rt : Runtime) (executor : RunnerExecutor σ) (call : Invocation) : Prop :=
  ∃ run verdict, executor.capabilities.get call.runId = some run ∧
    Answers rt executor call run verdict

/-- `execute` returns exactly for the auditable calls of a registered run that the policy
answers. -/
theorem execute_returns_iff {executor : RunnerExecutor σ} {call : Invocation} {now : Int}
    {host : Host σ} :
    (∃ result, (execute rt executor call now host).1 = .ok result) ↔
      ∃ run verdict, executor.capabilities.get call.runId = some run ∧
        Answers rt executor call run verdict ∧ Auditable rt executor call now run host.world := by
  constructor
  · rintro ⟨result, h⟩
    obtain ⟨run, verdict, hrun, hanswer, hexit⟩ := execute_exit h
    refine ⟨run, verdict, hrun, hanswer, (audited_of_answers_iff hrun hanswer).mp ?_⟩
    have houtcome : execute rt executor call now host =
        (.ok result, (execute rt executor call now host).2) :=
      Prod.ext h rfl
    rw [houtcome]
    exact audited_of_exit hexit
  · rintro ⟨run, verdict, hrun, hanswer, hauditable⟩
    obtain ⟨result, h, -⟩ := (audited_of_answers_iff hrun hanswer).mpr hauditable
    exact ⟨result, h⟩

end SecureSdlc.Runner

namespace SecureSdlc.Skills

open Core Evidence Policy Runner Tools

/-- The run that holds the token uses it. -/
def ownCall : Invocation := { borrowedCall with runId := py "RUN-aaaaaa" }

theorem ownCall_audited :
    Audited ownCall (execute signingRuntime sampleExecutor ownCall 1000 { world := () }) := by
  have hargs : Storable signingRuntime (.obj ownCall.args) := ⟨by decide, rfl, rfl⟩
  have houtput : Storable signingRuntime (.obj [(py "output", .obj ownCall.args)]) :=
    ⟨by decide, rfl, rfl⟩
  have htoken : decodeToken signingRuntime sampleSecret borrowedToken = .ok ⟨some
      ⟨py "RUN-aaaaaa", py "read_artifact", py "workspace", 1300⟩, none⟩ :=
    ok_of_toOption (by decide +kernel)
  refine (execute_audited_iff signingRuntime sampleExecutor ownCall 1000 { world := () } _ rfl
    fun _ => ⟨_, rfl⟩).mpr ⟨⟨rfl, hargs⟩, ⟨[], rfl⟩, ?_, ?_⟩
  · rintro verdict ⟨resource, -, hpolicy⟩ hdenied
    cases hpolicy
    cases hdenied
  · intro verdict _ _
    refine ⟨⟨_, htoken⟩, ?_⟩
    intro _ spec hspec _
    cases hspec
    refine ⟨true, rfl, fun _ => ?_⟩
    intro output hout
    cases hout
    exact ⟨true, rfl, fun _ => houtput⟩

/-- The same call about an artifact whose id is a lone surrogate. -/
def surrogateCall : Invocation :=
  { ownCall with args := [(py "artifact_id", .str [codePoint 0xD800])] }

theorem surrogateCall_runs_unrecorded :
    (execute signingRuntime sampleExecutor surrogateCall 1000 { world := () }).2.handled.length =
        1 ∧
      (execute signingRuntime sampleExecutor surrogateCall 1000 { world := () }).2.store.blobs =
        [] ∧
      ¬ Audited surrogateCall
        (execute signingRuntime sampleExecutor surrogateCall 1000 { world := () }) := by
  refine ⟨by decide +kernel, by decide +kernel, ?_⟩
  rintro ⟨result, hresult, -⟩
  have hnone : (execute signingRuntime sampleExecutor surrogateCall 1000
      { world := () }).1.toOption.isNone = true := by
    decide +kernel
  rw [hresult] at hnone
  cases hnone

end SecureSdlc.Skills

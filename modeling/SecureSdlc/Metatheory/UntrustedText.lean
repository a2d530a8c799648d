import SecureSdlc.Contracts.Schemas
import SecureSdlc.Core.JsonFailures
import SecureSdlc.Metatheory.CapabilityBinding
import SecureSdlc.Metatheory.EvidenceRecovery
import SecureSdlc.Policy.Client
import SecureSdlc.Skills.Roles

/-!
What becomes of bytes that the policy server answers and of text that the model returns.
Both are read as JSON, and both readers catch `JSONDecodeError` alone: the results below
say for which bytes and texts that is enough.
-/

namespace SecureSdlc.Policy.PolicyClient

open Core

variable {rt : Runtime} {client : PolicyClient}

theorem normalize_allow_iff {digest : PyStr} {body : Json} :
    (client.normalize digest body).allow = true ↔
      ∃ fields, body = .obj fields ∧
        (Assoc.get fields (py "result") = some (.bool true) ∨
          ∃ result, Assoc.get fields (py "result") = some (.obj result) ∧
            Assoc.get result (py "allow") = some (.bool true)) := by
  constructor
  · exact client.normalize_allow
  · rintro ⟨fields, rfl, hresult | ⟨result, hresult, hallow⟩⟩
    · simp only [normalize, Json.get?, hresult]
    · simp only [normalize, Json.get?, hresult, hallow]

theorem reasonCodes_ne_nil (allow : Bool) (codes : Option Json) : reasonCodes allow codes ≠ [] := by
  rw [reasonCodes.eq_def]
  dsimp only
  split
  · rename_i first rest
    cases hcodes : (first :: rest).mapM Json.str? with
    | none => exact List.cons_ne_nil _ _
    | some texts =>
        rw [List.mapM_cons] at hcodes
        cases hfirst : first.str? with
        | none => simp [hfirst] at hcodes
        | some text =>
            simp only [hfirst, Option.bind_eq_bind, Option.bind_some] at hcodes
            cases hrest : rest.mapM Json.str? with
            | none => simp [hrest] at hcodes
            | some others =>
                simp only [hrest, Option.bind_some] at hcodes
                cases hcodes
                exact List.cons_ne_nil _ _
  · exact List.cons_ne_nil _ _

theorem normalize_reasonCodes (digest : PyStr) (body : Json) :
    (client.normalize digest body).reasonCodes ≠ [] := by
  rw [normalize.eq_def]
  split
  · exact List.cons_ne_nil _ _
  · split
    · exact reasonCodes_ne_nil _ _
    · exact List.cons_ne_nil _ _
  · exact List.cons_ne_nil _ _

/-- The body is answered with a result that allows exactly a well-formed allow, and with a
reason. -/
def Classified (rt : Runtime) (client : PolicyClient) (raw : Bytes) (digest : PyStr) : Prop :=
  ∃ result, client.parse rt raw digest = .ok result ∧
    (result.allow = true ↔ WellFormedAllow rt raw) ∧ result.reasonCodes ≠ []

/-- The bytes are text in the encoding they seem to have, and the reader gets through the
text or finds that it is no JSON. -/
def Legible (rt : Runtime) (raw : Bytes) : Prop :=
  ∃ text, decodeJsonBytes raw = some text ∧
    ∀ e, JsonText.loads rt text = .error e → e.kind ≠ .valueError ∧ e.kind ≠ .recursionError

theorem legible_iff {raw : Bytes} :
    Legible rt raw ↔ ∀ e, JsonText.loadsBytes rt raw = .error e → e.kind = .jsonDecodeError := by
  rw [Legible, JsonText.loadsBytes]
  cases decodeJsonBytes raw with
  | none =>
      refine iff_of_false ?_ ?_
      · rintro ⟨text, htext, -⟩
        cases htext
      · intro h
        cases h _ rfl
  | some text =>
      simp only [Option.some.injEq, exists_eq_left']
      apply forall_congr'
      intro e
      apply forall_congr'
      intro hfailed
      constructor
      · rintro ⟨hvalue, hdepth⟩
        exact (JsonText.fails_loads rt text e hfailed).resolve_right (not_or.mpr ⟨hvalue, hdepth⟩)
      · intro hkind
        rw [hkind]
        exact ⟨by decide, by decide⟩

/-- A response is classified exactly when the reader can tell whether it is JSON. -/
theorem parse_classifies_iff (rt : Runtime) (client : PolicyClient) (raw : Bytes)
    (digest : PyStr) : Classified rt client raw digest ↔ Legible rt raw := by
  rw [legible_iff]
  constructor
  · rintro ⟨result, hresult, -⟩ e hfailed
    rw [parse, hfailed] at hresult
    dsimp only at hresult
    split at hresult
    · assumption
    · cases hresult
  · intro hlegible
    cases hloads : JsonText.loadsBytes rt raw with
    | ok body =>
        refine ⟨client.normalize digest body, by rw [parse, hloads], ?_,
          normalize_reasonCodes digest body⟩
        simp only [normalize_allow_iff, WellFormedAllow, hloads, Except.ok.injEq]
    | error e =>
        have hparse : client.parse rt raw digest =
            .ok (client.failClosed reasonPolicyMalformed digest) := by
          rw [parse, hloads]
          exact if_pos (hlegible e hloads)
        refine ⟨_, hparse, iff_of_false Bool.false_ne_true ?_, List.cons_ne_nil _ _⟩
        rintro ⟨body, hbody, -⟩
        rw [hloads] at hbody
        cases hbody

/-- A server whose answer is one byte that starts no character. -/
def strayServer : PolicyClient where
  urlopen := fun _ _ => .answered [0xFF]

theorem strayByte_raises :
    strayServer.parse Runtime.ascii [0xFF] [] = .error { kind := .valueError } ∧
      ¬ Classified Runtime.ascii strayServer [0xFF] [] := by
  have hraises : strayServer.parse Runtime.ascii [0xFF] [] = .error { kind := .valueError } := rfl
  refine ⟨hraises, ?_⟩
  rintro ⟨result, hresult, -⟩
  rw [hraises] at hresult
  cases hresult

end SecureSdlc.Policy.PolicyClient

namespace SecureSdlc.Skills

open Core Evidence Policy Runner

variable {rt : Runtime}

section Extraction

/-- No candidate before this one is a JSON object. -/
def Reached (rt : Runtime) (candidates : List PyStr) (candidate : PyStr) : Prop :=
  ∃ front rest, candidates = front ++ candidate :: rest ∧
    ∀ earlier ∈ front, ∀ fields, JsonText.loads rt earlier ≠ .ok (.obj fields)

theorem reached_head (candidate : PyStr) (rest : List PyStr) :
    Reached rt (candidate :: rest) candidate :=
  ⟨[], rest, rfl, fun _ h => nomatch h⟩

theorem reached_cons {candidate other : PyStr} {rest : List PyStr}
    (hother : ∀ fields, JsonText.loads rt other ≠ .ok (.obj fields))
    (h : Reached rt rest candidate) : Reached rt (other :: rest) candidate := by
  obtain ⟨front, back, rfl, hfront⟩ := h
  exact ⟨other :: front, back, rfl, List.forall_mem_cons.mpr ⟨hother, hfront⟩⟩

theorem reached_of_cons {candidate other : PyStr} {rest : List PyStr}
    (h : Reached rt (other :: rest) candidate) :
    candidate = other ∨
      (∀ fields, JsonText.loads rt other ≠ .ok (.obj fields)) ∧ Reached rt rest candidate := by
  obtain ⟨front, back, heq, hfront⟩ := h
  cases front with
  | nil =>
      cases heq
      exact .inl rfl
  | cons first front =>
      cases heq
      obtain ⟨hfirst, hfront⟩ := List.forall_mem_cons.mp hfront
      exact .inr ⟨hfirst, front, back, rfl, hfront⟩

/-- The reader gets through every candidate that it comes to, or finds that it is no JSON. -/
def Parseable (rt : Runtime) (candidates : List PyStr) : Prop :=
  ∀ candidate e, Reached rt candidates candidate → JsonText.loads rt candidate = .error e →
    e.kind ≠ .valueError ∧ e.kind ≠ .recursionError

theorem parseable_cons_iff {candidate : PyStr} {rest : List PyStr} :
    Parseable rt (candidate :: rest) ↔
      (∀ e, JsonText.loads rt candidate = .error e → e.kind = .jsonDecodeError) ∧
        ((∀ fields, JsonText.loads rt candidate ≠ .ok (.obj fields)) → Parseable rt rest) := by
  have hkind : ∀ text e, JsonText.loads rt text = .error e →
      ((e.kind ≠ .valueError ∧ e.kind ≠ .recursionError) ↔ e.kind = .jsonDecodeError) := by
    intro text e hfailed
    constructor
    · rintro ⟨hvalue, hdepth⟩
      exact (JsonText.fails_loads rt text e hfailed).resolve_right (not_or.mpr ⟨hvalue, hdepth⟩)
    · intro hdecode
      rw [hdecode]
      exact ⟨nofun, nofun⟩
  constructor
  · intro h
    refine ⟨?_, ?_⟩
    · intro e hfailed
      exact (hkind _ e hfailed).mp (h candidate e (reached_head candidate rest) hfailed)
    · intro hother later e hlater
      exact h later e (reached_cons hother hlater)
  · rintro ⟨hhead, hrest⟩ later e hlater hfailed
    rcases reached_of_cons hlater with rfl | ⟨hother, hlater⟩
    · exact (hkind _ e hfailed).mpr (hhead e hfailed)
    · exact hrest hother later e hlater hfailed

theorem firstObject_of_other {candidate : PyStr} {rest : List PyStr}
    (hother : ∀ fields, JsonText.loads rt candidate ≠ .ok (.obj fields))
    (hcaught : ∀ e, JsonText.loads rt candidate = .error e → e.kind = .jsonDecodeError) :
    firstObject rt (candidate :: rest) = firstObject rt rest := by
  rw [firstObject]
  split
  · rename_i fields hfields
    exact absurd hfields (hother fields)
  · rfl
  · rename_i e hfailed
    exact if_pos (hcaught e hfailed)

theorem firstObject_of_object {candidate : PyStr} {rest : List PyStr} {fields : Mapping}
    (h : JsonText.loads rt candidate = .ok (.obj fields)) :
    firstObject rt (candidate :: rest) = .ok fields := by
  rw [firstObject, h]

/-- `SkillError` is all that is raised, exactly when all that is read can be. -/
theorem firstObject_iff (candidates : List PyStr) :
    (∀ e, firstObject rt candidates = .error e → e.kind = .skillError) ↔
      Parseable rt candidates := by
  induction candidates with
  | nil =>
      refine iff_of_true ?_ ?_
      · intro e h
        cases h
        rfl
      · rintro candidate e ⟨front, rest, heq, -⟩
        simp at heq
  | cons candidate rest ih =>
      rw [parseable_cons_iff, ← ih]
      by_cases hobject : ∃ fields, JsonText.loads rt candidate = .ok (.obj fields)
      · obtain ⟨fields, hfields⟩ := hobject
        simp [firstObject_of_object hfields, hfields]
      · rw [not_exists] at hobject
        by_cases hcaught :
            ∀ e, JsonText.loads rt candidate = .error e → e.kind = .jsonDecodeError
        · rw [firstObject_of_other hobject hcaught]
          exact ⟨fun h => ⟨hcaught, fun _ => h⟩, fun h => h.2 hobject⟩
        · refine iff_of_false ?_ fun h => hcaught h.1
          intro h
          apply hcaught
          intro e hfailed
          by_contra hkind
          have hraised : firstObject rt (candidate :: rest) = .error e := by
            rw [firstObject, hfailed]
            exact if_neg hkind
          have hfailure := JsonText.fails_loads rt candidate e hfailed
          rw [JsonText.Failure, h e hraised] at hfailure
          simp at hfailure

theorem firstObject_ok_iff {candidates : List PyStr} {content : Mapping}
    (hparse : Parseable rt candidates) :
    firstObject rt candidates = .ok content ↔
      ∃ candidate, Reached rt candidates candidate ∧
        JsonText.loads rt candidate = .ok (.obj content) := by
  induction candidates with
  | nil =>
      refine iff_of_false (fun h => nomatch h) ?_
      rintro ⟨candidate, ⟨front, rest, heq, -⟩, -⟩
      simp at heq
  | cons candidate rest ih =>
      obtain ⟨hcaught, hrest⟩ := parseable_cons_iff.mp hparse
      by_cases hobject : ∃ fields, JsonText.loads rt candidate = .ok (.obj fields)
      · obtain ⟨fields, hfields⟩ := hobject
        rw [firstObject_of_object hfields]
        constructor
        · intro h
          cases h
          exact ⟨candidate, reached_head candidate rest, hfields⟩
        · rintro ⟨later, hlater, hcontent⟩
          rcases reached_of_cons hlater with rfl | ⟨hother, -⟩
          · rw [hfields] at hcontent
            cases hcontent
            rfl
          · exact absurd hfields (hother fields)
      · rw [not_exists] at hobject
        rw [firstObject_of_other hobject hcaught, ih (hrest hobject)]
        constructor
        · rintro ⟨later, hlater, hcontent⟩
          exact ⟨later, reached_cons hobject hlater, hcontent⟩
        · rintro ⟨later, hlater, hcontent⟩
          rcases reached_of_cons hlater with rfl | ⟨-, hlater⟩
          · exact absurd hcontent (hobject content)
          · exact ⟨later, hlater, hcontent⟩

end Extraction

section Recording

/-- The skill makes a document of the content, and the document can be validated. -/
def Assembles (runner : SkillRunner) (skill : Skill) (call : SkillCall) (actor content : Mapping) :
    Prop :=
  ∃ artifact valid, skill.assemble content (call.envelope actor) = .ok artifact ∧
    runner.validateDocument skill.outputSchema (.obj artifact) = .ok valid

/-- The text has no surrogate, what is read of it as JSON can be read, and the object that
is found in it, if any, can be assembled. -/
structure Recordable (rt : Runtime) (runner : SkillRunner) (skill : Skill) (call : SkillCall)
    (actor : Mapping) (text : PyStr) : Prop where
  encodable : PyStr.encodable text = true
  parseable : Parseable rt (candidates (unfence text))
  assembles : ∀ candidate content, Reached rt (candidates (unfence text)) candidate →
    JsonText.loads rt candidate = .ok (.obj content) → Assembles runner skill call actor content

/-- The result carries an evidence record of the text, which is stored, and `extract_json`
raises at most `SkillError`. -/
def Recorded (rt : Runtime) (call : SkillCall) (text : PyStr)
    (outcome : Except PyError SkillRunResult × SkillHost) : Prop :=
  (∃ result raw digest, outcome.1 = .ok result ∧ PyStr.encodeUtf8 text = some raw ∧
    Assoc.get result.evidence (py "artifact_type") = some (.str (py "evidence-record")) ∧
    Assoc.get result.evidence (py "id") = some (.str call.evidenceId) ∧
    Assoc.get result.evidence (py "run_id") = some (.str call.runId) ∧
    Assoc.get result.evidence (py "policy_decision_ref") = some (.str call.decisionId) ∧
    Assoc.get result.evidence (py "artifact_digest") = some (.str digest) ∧
    outcome.2.store.get digest = .ok raw) ∧
  ∀ e, extractJson rt text = .error e → e.kind = .skillError

theorem assembleArtifact_returns_iff {runner : SkillRunner} {skill : Skill} {call : SkillCall}
    {actor decision evidence : Mapping} {text : PyStr} :
    (∃ result, assembleArtifact rt runner skill call actor decision evidence text = .ok result) ↔
      (∀ e, extractJson rt text = .error e → e.kind = .skillError) ∧
        ∀ content, extractJson rt text = .ok content →
          Assembles runner skill call actor content := by
  rw [assembleArtifact]
  cases hextract : extractJson rt text with
  | error e =>
      by_cases hkind : e.kind = .skillError
      · simp [hkind]
      · simp [hkind]
  | ok content =>
      simp only [reduceCtorEq, false_implies, implies_true, true_and, Except.ok.injEq,
        forall_eq', Assembles, exists_bind_iff]
      constructor
      · rintro ⟨artifact, hartifact, valid, hvalid, -⟩
        exact ⟨artifact, valid, hartifact, hvalid⟩
      · rintro ⟨artifact, valid, hartifact, hvalid⟩
        refine ⟨artifact, hartifact, valid, hvalid, ?_⟩
        cases valid with
        | true => exact ⟨_, rfl⟩
        | false => exact ⟨_, rfl⟩

theorem assembleArtifact_evidence {runner : SkillRunner} {skill : Skill} {call : SkillCall}
    {actor decision evidence : Mapping} {text : PyStr} {result : SkillRunResult}
    (h : assembleArtifact rt runner skill call actor decision evidence text = .ok result) :
    result.evidence = evidence := by
  rw [assembleArtifact] at h
  split at h
  · split at h
    · cases h
      rfl
    · cases h
  · obtain ⟨artifact, -, h⟩ := exists_ok_of_bind h
    obtain ⟨valid, -, h⟩ := exists_ok_of_bind h
    cases valid with
    | true =>
        cases h
        rfl
    | false =>
        cases h
        rfl

/-- Past the gates, the text of the model is recorded and answered exactly when it can be
encoded and read, and what it holds assembled. -/
theorem model_text_recorded_iff (rt : Runtime) (runner : SkillRunner) (call : SkillCall)
    (now : Int) (host : SkillHost) {run : Run} {verdict : PolicyResult} {skill : Skill}
    {context : Mapping} {response : LLMResponse}
    (gates : SkillGates rt runner call now run verdict skill context)
    (hresponse : runner.complete ⟨skill.role, skill.systemPrompt, context⟩ = .ok response) :
    Recorded rt call response.text (runSkill rt runner call now host) ↔
      Recordable rt runner skill call run.actor response.text := by
  rw [runSkill_of_gates gates host, prompt, hresponse]
  dsimp only
  cases hencodable : PyStr.encodable response.text with
  | false =>
      refine iff_of_false ?_ ?_
      · rintro ⟨⟨result, raw, digest, -, hraw, -⟩, -⟩
        rw [PyStr.encodeUtf8, hencodable] at hraw
        cases hraw
      · intro h
        rw [h.encodable] at hencodable
        cases hencodable
  | true =>
      obtain ⟨compression, -, heq⟩ := processToolOutputWith_encodable rt hencodable
        (skill.toolName ++ py ".output") run.actor call.runId call.evidenceId call.createdAt
        host.store (by decide : TrustTier.untrusted ≠ .sensitive) (py "none") defaultMaxBytes none
        (some call.decisionId) []
      have hrecord : recordText rt response.text (skill.toolName ++ py ".output") call run.actor
          host.store = .ok (buildEvidenceRecord call.evidenceId call.createdAt run.actor call.runId
            (skill.toolName ++ py ".output") .untrusted (py "none")
            (some (rt.hexdigest (response.text.flatMap PyStr.utf8Bytes)))
            (some compression.recoveryHandle) (some call.decisionId) (some compression) [],
          (host.store.put rt (response.text.flatMap PyStr.utf8Bytes)).2) := by
        rw [recordText, processToolOutput, heq]
        rfl
      simp only [SkillHost.consult, hrecord]
      constructor
      · rintro ⟨⟨result, raw, digest, hresult, -⟩, hskill⟩
        obtain ⟨-, hassembles⟩ := assembleArtifact_returns_iff.mp ⟨result, hresult⟩
        have hparse := (firstObject_iff _).mp hskill
        refine ⟨hencodable, hparse, ?_⟩
        intro candidate content hreached hcontent
        exact hassembles content ((firstObject_ok_iff hparse).mpr ⟨candidate, hreached, hcontent⟩)
      · intro h
        have hskill := (firstObject_iff _).mpr h.parseable
        have hassembles : ∀ content, extractJson rt response.text = .ok content →
            Assembles runner skill call run.actor content := by
          intro content hcontent
          obtain ⟨candidate, hreached, hloads⟩ := (firstObject_ok_iff h.parseable).mp hcontent
          exact h.assembles candidate content hreached hloads
        obtain ⟨result, hresult⟩ := assembleArtifact_returns_iff.mpr ⟨hskill, hassembles⟩
        refine ⟨⟨result, _, rt.hexdigest (response.text.flatMap PyStr.utf8Bytes), hresult,
          by rw [PyStr.encodeUtf8, if_pos hencodable], ?_⟩, hskill⟩
        rw [assembleArtifact_evidence hresult]
        exact ⟨rfl, rfl, rfl, rfl, rfl, get_put host.store _⟩

/-- The ids that a role skill takes from the bindings. -/
def boundIds (skillName : PyStr) : List PyStr :=
  if skillName = py "reviewer" then [py "task_id", py "subject_digest"]
  else if skillName = py "task-writer" then [py "feature_id", py "plan_id"]
  else [py "feature_id"]

theorem exists_item_iff {fields : Mapping} {key : PyStr} :
    (∃ value, (Json.obj fields).subscript key = .ok value) ↔
      (Assoc.get fields key).isSome = true := by
  rw [Json.subscript, item]
  cases Assoc.get fields key with
  | none => simp
  | some value => simp

/-- Whether a role skill assembles its document is up to the bindings, not to the text. -/
theorem role_assembles_iff {skill : Skill} (hskill : skill ∈ defaultSkills) (call : SkillCall)
    (actor content : Mapping) :
    (∃ artifact, skill.assemble content (call.envelope actor) = .ok artifact) ↔
      ∀ key ∈ boundIds skill.name, (Assoc.get call.bindings key).isSome = true := by
  have hbindings : item (call.envelope actor) (py "bindings") = .ok (.obj call.bindings) := rfl
  have hhead : ∀ artifactType, ∃ head,
      envelopeHead artifactType (call.envelope actor) = .ok head := fun _ => ⟨_, rfl⟩
  have hpure : ∀ document : Mapping, ∃ artifact,
      (pure document : Except PyError Mapping) = .ok artifact := fun document => ⟨document, rfl⟩
  have hfields : ∀ artifactType status (next : Mapping → Mapping),
      (∃ artifact, (do pure (next (← envelopeFields artifactType status (call.envelope actor))) :
        Except PyError Mapping) = .ok artifact) ↔
        (Assoc.get call.bindings (py "feature_id")).isSome = true := by
    intro artifactType status next
    obtain ⟨head, hhead⟩ := hhead artifactType
    rw [← exists_item_iff]
    simp only [envelopeFields, hbindings, hhead, exists_bind_iff, Except.ok.injEq,
      exists_eq_left', hpure, and_true]
  have htwo : ∀ artifactType (first second : PyStr) (next : Mapping → Json → Json → Mapping),
      (∃ artifact, (do
          let bindings ← item (call.envelope actor) (py "bindings")
          let head ← envelopeHead artifactType (call.envelope actor)
          let one ← bindings.subscript first
          let two ← bindings.subscript second
          pure (next head one two) : Except PyError Mapping) = .ok artifact) ↔
        ∀ key ∈ [first, second], (Assoc.get call.bindings key).isSome = true := by
    intro artifactType first second next
    obtain ⟨head, hhead⟩ := hhead artifactType
    rw [List.forall_mem_cons, List.forall_mem_singleton, ← exists_item_iff, ← exists_item_iff]
    simp only [hbindings, hhead, exists_bind_iff, Except.ok.injEq, exists_eq_left', hpure, and_true,
      exists_and_right]
  simp only [defaultSkills, List.mem_cons, List.not_mem_nil, or_false] at hskill
  rcases hskill with rfl | rfl | rfl | rfl | rfl
  · have hids : boundIds grill.name = [py "feature_id"] := by decide
    rw [hids, List.forall_mem_singleton]
    exact hfields _ _ _
  · have hids : boundIds grillSecurity.name = [py "feature_id"] := by decide
    rw [hids, List.forall_mem_singleton]
    exact hfields _ _ _
  · have hids : boundIds planner.name = [py "feature_id"] := by decide
    rw [hids, List.forall_mem_singleton]
    exact hfields _ _ _
  · have hids : boundIds taskWriter.name = [py "feature_id", py "plan_id"] := by decide
    rw [hids]
    exact htwo _ _ _ _
  · have hids : boundIds reviewer.name = [py "task_id", py "subject_digest"] := by decide
    rw [hids]
    exact htwo _ _ _ _

end Recording

section Samples

/-- The reviewer of the first sample run, with a model that answers the text. -/
def reviewRunner (text : PyStr) : SkillRunner where
  policy := fun _ _ => .ok ⟨true, [py "ALLOWED"], py "unknown", []⟩
  capabilities := .replay sampleSecret twoRuns
  skills := defaultRegistry
  complete := fun _ => .ok ⟨text, py "stub"⟩
  validateDocument := fun _ document => .ok (Contracts.review.valid document)

def reviewCall : SkillCall where
  runId := py "RUN-aaaaaa"
  token := py "v1.eyJleHAiOjEzMDAsInJ1bl9pZCI6IlJVTi1hYWFhYWEiLCJzY29wZSI6InNraWxscyIs" ++
    py "InRvb2wiOiJza2lsbC5yZXZpZXdlciJ9.B_djzzu1GNG5_VGYW-d9gFnxcdoDnY2nXeXu0AUxOjI"
  skillName := py "reviewer"
  inputs := [⟨py "task", [(py "id", .str (py "TASK-0001"))], py "approved_artifact"⟩]
  bindings := [(py "task_id", .str (py "TASK-0001")), (py "subject_digest", .str (py "0123abcd"))]
  artifactId := py "REV-0001"
  createdAt := py "2026-09-24T00:00:00Z"
  decisionId := py "PD-0001"
  evidenceId := py "EV-0001"

/-- A runtime that knows the digest of one review and the signature of one token. -/
def reviewRuntime : Runtime :=
  .recording
    [(659811, 0x13c529a331973c85d5a46ee388659323eb6e8dd30c07482561bfb3bb15218358)]
    [(674138, 0x07f763cf3bb518d1b9fd51985be77d8059f171da039d8da75de5eed005313a32)]

def reviewText : PyStr := py "\x7b\"verdict\": \"approved\"\x7d"

theorem reviewGates (text : PyStr) : ∃ run verdict context,
    SkillGates reviewRuntime (reviewRunner text) reviewCall 1000 run verdict reviewer context := by
  have hvalid : (((reviewRunner text).capabilities.check reviewRuntime reviewCall.token
      reviewCall.tool reviewCall.scope 1000).toOption.map (·.valid)) = some true := by
    change ((RunRegistry.replay sampleSecret twoRuns).check _ _ _ _ _).toOption.map _ = _
    decide +kernel
  obtain ⟨check, hcheck, hyes⟩ := Option.map_eq_some_iff.mp hvalid
  refine ⟨_, _, _, rfl, rfl, rfl, (check_valid_iff _ _ _ _ _ _).mp ⟨check, ?_, hyes⟩, rfl, rfl, ?_⟩
  · exact ok_of_toOption hcheck
  · decide

theorem reviewText_recorded :
    Recorded reviewRuntime reviewCall reviewText
      (runSkill reviewRuntime (reviewRunner reviewText) reviewCall 1000 {}) := by
  obtain ⟨run, verdict, context, gates⟩ := reviewGates reviewText
  have hcandidates : candidates (unfence reviewText) = [reviewText, reviewText] := by
    decide +kernel
  have hloads : JsonText.loads reviewRuntime reviewText =
      .ok (.obj [(py "verdict", .str (py "approved"))]) := ok_of_toOption (by decide +kernel)
  refine (model_text_recorded_iff reviewRuntime (reviewRunner reviewText) reviewCall 1000 {} gates
    rfl).mpr ⟨by decide, ?_, ?_⟩
  · rw [hcandidates, parseable_cons_iff]
    refine ⟨fun e hfailed => ?_, fun hother => absurd hloads (hother _)⟩
    rw [hloads] at hfailed
    cases hfailed
  · intro candidate content hreached hcontent
    have hrole : reviewer ∈ defaultSkills := by simp [defaultSkills]
    obtain ⟨artifact, hartifact⟩ := (role_assembles_iff hrole reviewCall run.actor content).mpr
      (by decide)
    exact ⟨artifact, _, hartifact, rfl⟩

/-- The gates are passed and the model is asked, and its text cannot be encoded. -/
theorem loneSurrogate_raises :
    (∃ run verdict context, SkillGates reviewRuntime (reviewRunner [codePoint 0xD800]) reviewCall
        1000 run verdict reviewer context) ∧
      (runSkill reviewRuntime (reviewRunner [codePoint 0xD800]) reviewCall 1000 {}).1 =
        .error { kind := .unicodeEncodeError } ∧
      ¬ Recorded reviewRuntime reviewCall [codePoint 0xD800]
        (runSkill reviewRuntime (reviewRunner [codePoint 0xD800]) reviewCall 1000 {}) := by
  have hraises : (runSkill reviewRuntime (reviewRunner [codePoint 0xD800]) reviewCall 1000 {}).1 =
      .error { kind := .unicodeEncodeError } := by
    obtain ⟨run, verdict, context, gates⟩ := reviewGates [codePoint 0xD800]
    rw [runSkill_of_gates gates]
    rfl
  refine ⟨reviewGates _, hraises, ?_⟩
  rintro ⟨⟨result, raw, digest, hresult, -⟩, -⟩
  rw [hraises] at hresult
  cases hresult

end Samples

end SecureSdlc.Skills

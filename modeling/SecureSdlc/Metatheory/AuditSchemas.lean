import SecureSdlc.Contracts.Schemas
import SecureSdlc.Mcp.Server
import SecureSdlc.Metatheory.AuditTrail
import SecureSdlc.Metatheory.UntrustedText

/-!
The audit documents of a served run against their schemas. The ids are numbered by the
server's counters and their pattern admits four digits: the result below says for which
sequences of requests every decision and every evidence record is valid. The digests are
taken to have 32 bytes.
-/

namespace SecureSdlc.Contracts

open Core

theorem digits_zeroPadded (n : Nat) :
    digits 4 (PyStr.zeroPadded 4 n) = decide (n < 10000) := by
  have hall : (PyStr.zeroPadded 4 n).all isDigit = true :=
    List.all_eq_true.mpr PyStr.isDigit_zeroPadded
  rw [digits, hall, Bool.and_true, decide_eq_decide]
  exact PyStr.length_zeroPadded_iff (by decide)

/-- No newline ends a text that ends in a number. -/
theorem upToNewline_zeroPadded (body : PyStr → Bool) (front : PyStr) (n : Nat) :
    upToNewline body (front ++ PyStr.zeroPadded 4 n) = body (front ++ PyStr.zeroPadded 4 n) := by
  have hne : PyStr.zeroPadded 4 n ≠ [] := by
    apply List.ne_nil_of_length_pos
    rw [PyStr.zeroPadded, List.length_leftpad]
    omega
  have hlast : (front ++ PyStr.zeroPadded 4 n).getLast? ≠ some (cp '\n') := by
    rw [List.getLast?_append_of_ne_nil _ hne]
    intro hnewline
    have hdigit := PyStr.isDigit_zeroPadded _ (List.mem_of_getLast? hnewline)
    revert hdigit
    decide
  rw [upToNewline, decide_eq_false hlast, Bool.false_and, Bool.or_false]

/-- The identifiers that a counter numbers with four digits or more. -/
theorem isIdentifier_numbered {c : CodePoint} {front : PyStr} (hc : isUpper c = true)
    (hfront : front.all (fun c => isUpper c || isDigit c) = true) (n : Nat) :
    isIdentifier (c :: front ++ cp '-' :: PyStr.zeroPadded 4 n) = decide (n < 10000) := by
  have hsplit : c :: front ++ cp '-' :: PyStr.zeroPadded 4 n =
      (c :: front ++ [cp '-']) ++ PyStr.zeroPadded 4 n := by
    simp
  have hdrop : (front ++ cp '-' :: PyStr.zeroPadded 4 n).dropWhile
      (fun c => isUpper c || isDigit c) = cp '-' :: PyStr.zeroPadded 4 n := by
    rw [List.dropWhile_append_of_pos (List.all_eq_true.mp hfront)]
    rfl
  rw [isIdentifier, hsplit, upToNewline_zeroPadded, ← hsplit, List.cons_append, identifierBody, hc,
    hdrop]
  simp only [decide_true, Bool.true_and, digits_zeroPadded]

theorem isHexDigit {n : Nat} (h : n < 16) :
    (isDigit (hexDigit n) || decide (cp 'a' ≤ hexDigit n ∧ hexDigit n ≤ cp 'f')) = true := by
  have hall : ∀ n : Fin 16, (isDigit (hexDigit n) ||
      decide (cp 'a' ≤ hexDigit n ∧ hexDigit n ≤ cp 'f')) = true := by
    decide
  exact hall ⟨n, h⟩

theorem isSha256_hexdigest {rt : Runtime} (hsize : ∀ data, (rt.sha256 data).length = 32)
    (data : Bytes) : isSha256 (rt.hexdigest data) = true := by
  have hhex : ∀ b : Bytes, (hexOfBytes b).length = 2 * b.length ∧ (hexOfBytes b).all (fun c =>
      isDigit c || decide (cp 'a' ≤ c ∧ c ≤ cp 'f')) = true := by
    intro b
    induction b with
    | nil => exact ⟨rfl, rfl⟩
    | cons x b ih =>
        have hx := x.toNat_lt
        rw [hexOfBytes_cons, List.length_cons, List.length_cons, ih.1, List.all_cons, List.all_cons,
          isHexDigit (by omega), isHexDigit (by omega), ih.2, List.length_cons]
        exact ⟨by omega, rfl⟩
  obtain ⟨hlength, hall⟩ := hhex (rt.sha256 data)
  rw [hsize] at hlength
  simp only [isSha256, upToNewline, Runtime.hexdigest, hlength, hall, decide_true, Bool.and_self,
    Bool.true_or]

end SecureSdlc.Contracts

namespace SecureSdlc.Mcp

open Core Contracts Evidence Policy Runner

universe u

variable {rt : Runtime}

theorem isIdentifier_decisionIdOf (n : Nat) :
    isIdentifier (decisionIdOf n) = decide (n < 10000) :=
  isIdentifier_numbered rfl (by rfl : (py "D").all _ = true) n

theorem isIdentifier_evidenceIdOf (n : Nat) :
    isIdentifier (evidenceIdOf n) = decide (n < 10000) :=
  isIdentifier_numbered rfl (by rfl : (py "V").all _ = true) n

/-- A run whose id and actor its documents can carry. -/
structure SchemaValid (runId : PyStr) (run : Run) : Prop where
  runId : isRunId runId = true
  actor : actor.valid (.obj run.actor) = true

/-- A decision about a well-formed verdict is as valid as its id. -/
theorem valid_buildPolicyDecision {verdict : PolicyResult} (hcodes : verdict.reasonCodes ≠ [])
    (hdigest : isSha256 verdict.inputDigest = true) {runId : PyStr} {holder : Run}
    (hrun : SchemaValid runId holder) (artifactId createdAt : PyStr) :
    policyDecision.valid (.obj (buildPolicyDecision verdict artifactId createdAt holder.actor runId
      policyPoint [])) = isIdentifier artifactId := by
  have hcodesValid : (nonEmptyListOf text).valid (.arr (verdict.reasonCodes.map .str)) = true := by
    have hlength : 1 ≤ verdict.reasonCodes.length := List.length_pos_iff.mpr hcodes
    rw [nonEmptyListOf, Schema.valid, List.length_map, decide_eq_true hlength, Bool.true_and,
      List.all_map]
    exact List.all_eq_true.mpr fun _ _ => rfl
  have hdecision : (oneOf ["allow", "deny"]).valid
      (.str (if verdict.allow then py "allow" else py "deny")) = true := by
    cases verdict.allow with
    | true => rfl
    | false => rfl
  have hid : identifier.valid (.str artifactId) = isIdentifier artifactId := rfl
  have hrunId : Contracts.runId.valid (.str runId) = true := hrun.runId
  have hinput : sha256.valid (.str verdict.inputDigest) = true := hdigest
  have hversion : (exactly "1.0.0").valid (.str (py "1.0.0")) = true := rfl
  have hkind : (exactly "policy-decision").valid (.str (py "policy-decision")) = true := rfl
  have hpoint : (oneOf ["pre-tool-call", "artifact-transition", "pr-ci", "pre-deployment"]).valid
      (.str policyPoint) = true := rfl
  have htext : ∀ s : PyStr, text.valid (.str s) = true := fun _ => rfl
  rw [policyDecision, artifact, closed, Schema.valid_object_eq rfl rfl]
  simp only [List.cons_append, List.nil_append, members, List.map_cons, List.map_nil]
  iterate 11 rw [Schema.validProperties_member rfl]
  rw [Schema.validProperties_absent rfl, Schema.validProperties, hversion, hkind, hid, hrun.actor,
    hrunId, hpoint, hdecision, hcodesValid, hinput]
  simp only [isoDateTime, htext, Bool.and_true, Bool.true_and]

/-- The `compression` member of an evidence record. -/
abbrev compressionSchema : Schema :=
  closed [("applied", .boolean)]
    [("original_digest", sha256),
      ("original_size_bytes", .integer (some 0)),
      ("compressed_size_bytes", .integer (some 0)),
      ("recovery_handle", text)]

theorem valid_compressionEntry (hsize : ∀ data, (rt.sha256 data).length = 32) {raw : Bytes}
    {compression : CompressionResult} (haddresses : Addresses rt raw compression) :
    compressionSchema.valid (compressionEntry compression) = true := by
  have hdigest : sha256.valid (.str compression.originalDigest) = true := by
    rw [haddresses.digest]
    exact isSha256_hexdigest hsize raw
  have hsizes : ∀ n : Nat, (Schema.integer (some 0)).valid (.int n) = true := by
    intro n
    rw [Schema.valid, Schema.admitsInteger, Option.all_some]
    exact decide_eq_true (Int.natCast_nonneg n)
  have hflag : ∀ b, Schema.boolean.valid (.bool b) = true := fun _ => rfl
  have htext : ∀ s : PyStr, text.valid (.str s) = true := fun _ => rfl
  rw [compressionEntry]
  cases compression.applied with
  | true =>
      rw [compressionSchema, closed, Schema.valid_object_eq rfl rfl]
      simp only [List.cons_append, List.nil_append, members, List.map_cons, List.map_nil]
      iterate 5 rw [Schema.validProperties_member rfl]
      rw [Schema.validProperties, hflag, hdigest, hsizes, hsizes, htext]
      rfl
  | false => rfl

/-- The record of an untrusted output is as valid as its id. -/
theorem valid_buildEvidenceRecord (hsize : ∀ data, (rt.sha256 data).length = 32) {runId : PyStr}
    {holder : Run} (hrun : SchemaValid runId holder) (artifactId createdAt tool : PyStr)
    (raw : Bytes) {compression : CompressionResult} (haddresses : Addresses rt raw compression)
    (artifactRef decisionRef : PyStr) :
    evidenceRecord.valid (.obj (buildEvidenceRecord artifactId createdAt holder.actor runId
      (py "tool." ++ tool) .untrusted (py "none") (some (rt.hexdigest raw)) (some artifactRef)
      (some decisionRef) (some compression) [])) = isIdentifier artifactId := by
  have hid : identifier.valid (.str artifactId) = isIdentifier artifactId := rfl
  have hrunId : Contracts.runId.valid (.str runId) = true := hrun.runId
  have hdigest : sha256.valid (.str (rt.hexdigest raw)) = true := isSha256_hexdigest hsize raw
  have hversion : (exactly "1.0.0").valid (.str (py "1.0.0")) = true := rfl
  have hkind : (exactly "evidence-record").valid (.str (py "evidence-record")) = true := rfl
  have haction : nonEmpty.valid (.str (py "tool." ++ tool)) = true := by
    rw [Schema.valid, StringRule.admits, decide_eq_true_eq]
    exact Nat.succ_le_succ (Nat.zero_le _)
  have htier : trustTier.valid (.str TrustTier.untrusted.value) = true := rfl
  have hsensitivity : (oneOf ["none", "redacted", "sensitive"]).valid
      (.str (py "none")) = true := rfl
  have hcompression := valid_compressionEntry hsize haddresses
  have htext : ∀ s : PyStr, text.valid (.str s) = true := fun _ => rfl
  rw [evidenceRecord, artifact, closed, Schema.valid_object_eq rfl rfl]
  simp only [List.cons_append, List.nil_append, members, List.map_cons, List.map_nil]
  iterate 13 rw [Schema.validProperties_member rfl]
  rw [Schema.validProperties_absent rfl, Schema.validProperties, hversion, hkind, hid, hrun.actor,
    hrunId, haction, htier, hsensitivity, hdigest]
  simp only [isoDateTime, htext, hcompression, Bool.and_true, Bool.true_and]

/-- The record that `_record` builds for a call. -/
def RecordedAs (rt : Runtime) (call : Invocation) (actor evidence : Mapping) : Prop :=
  ∃ raw compression, Addresses rt raw compression ∧
    evidence = buildEvidenceRecord call.evidenceId call.createdAt actor call.runId
      (py "tool." ++ call.tool) .untrusted (py "none") (some (rt.hexdigest raw))
      (some compression.recoveryHandle) (some call.decisionId) (some compression) []

theorem record_evidence {call : Invocation} {actor detail : Mapping} {store : EvidenceStore}
    {recorded : Mapping × EvidenceStore}
    (h : record rt call actor detail store = .ok recorded) :
    RecordedAs rt call actor recorded.1 := by
  rw [record] at h
  obtain ⟨text, -, h⟩ := exists_ok_of_bind h
  obtain ⟨captured, hprocess, h⟩ := exists_ok_of_bind h
  cases h
  cases htext : PyStr.encodable text with
  | false =>
      rw [processToolOutput_not_encodable htext] at hprocess
      cases hprocess
  | true =>
      obtain ⟨compression, hcompression, heq⟩ := processToolOutputWith_encodable rt htext
        (py "tool." ++ call.tool) actor call.runId call.evidenceId call.createdAt store
        (by decide : TrustTier.untrusted ≠ .sensitive) (py "none") defaultMaxBytes none
        (some call.decisionId) []
      obtain ⟨other, hother, haddresses, -⟩ := compressForContext_encodable rt htext
        .untrusted defaultMaxBytes defaultExcerptBytes
      rw [hcompression] at hother
      cases hother
      rw [processToolOutput, heq] at hprocess
      cases hprocess
      exact ⟨_, compression, haddresses, rfl⟩

variable {σ : Type u}

theorem exit_documents {call : Invocation} {actor decision : Mapping}
    {store stored : EvidenceStore} {result : ExecutionResult}
    (h : Exit rt call actor decision store result stored) :
    result.decision = decision ∧ RecordedAs rt call actor result.evidence := by
  cases h with
  | refused reason recorded => exact ⟨rfl, record_evidence recorded⟩
  | executed output recorded => exact ⟨rfl, record_evidence recorded⟩

theorem valid_decisionOf {client : PolicyClient} {executor : RunnerExecutor σ}
    (hpolicy : executor.policy = client.evaluate rt)
    (hsize : ∀ data, (rt.sha256 data).length = 32) {call : Invocation} {run : Run}
    (hrun : SchemaValid call.runId run) {verdict : PolicyResult}
    (hanswer : Answers rt executor call run verdict) :
    policyDecision.valid (.obj (decisionOf call run verdict)) = isIdentifier call.decisionId := by
  obtain ⟨resource, -, hverdict⟩ := hanswer
  rw [hpolicy] at hverdict
  obtain ⟨digest, hdigest, hcases⟩ := client.evaluate_cases rt hverdict
  have hcodes : verdict.reasonCodes ≠ [] := by
    rcases hcases with ⟨body, rfl⟩ | ⟨reason, rfl⟩
    · exact client.normalize_reasonCodes digest body
    · exact List.cons_ne_nil _ _
  have hinput := client.evaluate_inputDigest rt hverdict
  have hsha : isSha256 verdict.inputDigest = true := by
    obtain ⟨text, -, hdata⟩ := exists_ok_of_bind hinput
    rw [sha256OfText] at hdata
    split at hdata
    · rename_i data hencoded
      rw [← Except.ok.inj hdata]
      exact isSha256_hexdigest hsize data
    · cases hdata
  exact valid_buildPolicyDecision hcodes hsha hrun call.decisionId call.createdAt

theorem valid_recordedAs (hsize : ∀ data, (rt.sha256 data).length = 32) {call : Invocation}
    {run : Run} (hrun : SchemaValid call.runId run) {evidence : Mapping}
    (h : RecordedAs rt call run.actor evidence) :
    evidenceRecord.valid (.obj evidence) = isIdentifier call.evidenceId := by
  obtain ⟨raw, compression, haddresses, rfl⟩ := h
  exact valid_buildEvidenceRecord hsize hrun _ _ _ raw haddresses _ _

/-- The documents built for a call are valid: the decision once the policy answered, and
those of the result that is returned. -/
structure DocumentsValid (rt : Runtime) (executor : RunnerExecutor σ) (call : Invocation)
    (now : Int) (host : Host σ) : Prop where
  decided : ∀ run verdict, executor.capabilities.get call.runId = some run →
    Answers rt executor call run verdict →
    policyDecision.valid (.obj (decisionOf call run verdict)) = true
  returned : ∀ result, (execute rt executor call now host).1 = .ok result →
    policyDecision.valid (.obj result.decision) = true ∧
      evidenceRecord.valid (.obj result.evidence) = true

theorem documentsValid_iff {client : PolicyClient} {executor : RunnerExecutor σ}
    (hpolicy : executor.policy = client.evaluate rt)
    (hsize : ∀ data, (rt.sha256 data).length = 32)
    (hruns : ∀ runId run, executor.capabilities.get runId = some run → SchemaValid runId run)
    {call : Invocation} (hids : isIdentifier call.evidenceId = isIdentifier call.decisionId)
    (now : Int) (host : Host σ) :
    DocumentsValid rt executor call now host ↔
      (Evaluated rt executor call → isIdentifier call.decisionId = true) := by
  constructor
  · rintro h ⟨run, verdict, hrun, hanswer⟩
    rw [← valid_decisionOf hpolicy hsize (hruns _ run hrun) hanswer]
    exact h.decided run verdict hrun hanswer
  · intro h
    refine ⟨?_, ?_⟩
    · intro run verdict hrun hanswer
      rw [valid_decisionOf hpolicy hsize (hruns _ run hrun) hanswer]
      exact h ⟨run, verdict, hrun, hanswer⟩
    · intro result hresult
      obtain ⟨run, verdict, hrun, hanswer, hexit⟩ := execute_exit hresult
      obtain ⟨hdecision, hrecorded⟩ := exit_documents hexit
      have hid := h ⟨run, verdict, hrun, hanswer⟩
      refine ⟨?_, ?_⟩
      · rw [hdecision, valid_decisionOf hpolicy hsize (hruns _ run hrun) hanswer]
        exact hid
      · rw [valid_recordedAs hsize (hruns _ run hrun) hrecorded, hids]
        exact hid

/-- A message and the clock it is handled at. -/
structure Request where
  message : Mapping
  clock : Clock

def Request.calls (rt : Runtime) (request : Request) : Bool :=
  (MCPServer.callOf rt request.message).isSome

def MCPServer.serve (rt : Runtime) (server : MCPServer σ) (session : Session σ)
    (request : Request) : Session σ :=
  (server.handle rt request.message request.clock session).2

/-- Each call takes one number from either counter. -/
structure Counted (session : Session σ) (n : Nat) : Prop where
  decisions : session.decisionSeq = n
  evidence : session.evidenceSeq = n

theorem counted_serve (server : MCPServer σ) {session : Session σ} {n : Nat}
    (h : Counted session n) (request : Request) :
    Counted (server.serve rt session request)
      (n + if request.calls rt then 1 else 0) := by
  rw [MCPServer.serve, Request.calls]
  cases hcall : MCPServer.callOf rt request.message with
  | none =>
      rw [server.handle_no_call hcall]
      exact h
  | some call =>
      rw [server.handle_of_call hcall]
      exact ⟨congrArg (· + 1) h.decisions, congrArg (· + 1) h.evidence⟩

theorem counted_run (rt : Runtime) (server : MCPServer σ) {session : Session σ} {n : Nat}
    (h : Counted session n) (requests : List Request) :
    Counted (run (server.serve rt) session requests)
      (n + requests.countP (Request.calls rt)) := by
  induction requests generalizing session n with
  | nil => exact h
  | cons request requests ih =>
      rw [run_cons, List.countP_cons, Nat.add_comm (requests.countP _), ← Nat.add_assoc]
      exact ih (counted_serve server h request)

/-- The documents that are built for a request are valid. -/
def ServedValid (rt : Runtime) (server : MCPServer σ) (session : Session σ) (request : Request) :
    Prop :=
  ∀ call, MCPServer.callOf rt request.message = some call →
    DocumentsValid rt server.executor (session.invocation call request.clock) request.clock.now
      session.host

/-- The request is a call of a registered run that the policy answers. -/
def PolicyAnswers (rt : Runtime) (server : MCPServer σ) (request : Request) : Prop :=
  ∃ call run resource verdict, MCPServer.callOf rt request.message = some call ∧
    server.executor.capabilities.get call.runId = some run ∧
    deriveResource rt [] call.arguments = .ok resource ∧
    server.executor.policy policyPoint (policyPayload call.name resource call.scope run.actor) =
      .ok verdict

theorem servedValid_iff {client : PolicyClient} {server : MCPServer σ}
    (hpolicy : server.executor.policy = client.evaluate rt)
    (hsize : ∀ data, (rt.sha256 data).length = 32)
    (hruns : ∀ runId run, server.executor.capabilities.get runId = some run →
      SchemaValid runId run) {session : Session σ} {n : Nat} (hcounted : Counted session n)
    (request : Request) :
    ServedValid rt server session request ↔ (PolicyAnswers rt server request → n < 9999) := by
  have hids : ∀ call : CallParams,
      isIdentifier (session.invocation call request.clock).evidenceId = decide (n + 1 < 10000) ∧
        isIdentifier (session.invocation call request.clock).decisionId =
          decide (n + 1 < 10000) := by
    intro call
    simp only [Session.invocation, isIdentifier_evidenceIdOf, isIdentifier_decisionIdOf,
      hcounted.decisions, hcounted.evidence, and_self]
  have hcall : ∀ call : CallParams,
      DocumentsValid rt server.executor (session.invocation call request.clock) request.clock.now
          session.host ↔
        (Evaluated rt server.executor (session.invocation call request.clock) → n < 9999) := by
    intro call
    obtain ⟨hevidence, hdecision⟩ := hids call
    rw [documentsValid_iff hpolicy hsize hruns (hevidence.trans hdecision.symm), hdecision,
      decide_eq_true_eq]
    exact imp_congr_right fun _ => by omega
  constructor
  · rintro h ⟨call, run, resource, verdict, hasks, hrun, hresource, hverdict⟩
    exact (hcall call).mp (h call hasks) ⟨run, verdict, hrun, resource, hresource, hverdict⟩
  · intro h call hasks
    rw [hcall]
    rintro ⟨run, verdict, hrun, resource, hresource, hverdict⟩
    exact h ⟨call, run, resource, verdict, hasks, hrun, hresource, hverdict⟩

/-- Over any sequence of requests the documents are valid exactly when no call that the
policy answers comes after 9999 calls or more. -/
theorem audit_documents_valid_iff (rt : Runtime) (client : PolicyClient) (server : MCPServer σ)
    (hpolicy : server.executor.policy = client.evaluate rt)
    (hsize : ∀ data, (rt.sha256 data).length = 32)
    (hruns : ∀ runId run, server.executor.capabilities.get runId = some run →
      SchemaValid runId run) (host : Host σ) (requests : List Request) :
    AllSteps (server.serve rt) (ServedValid rt server) { host } requests ↔
      ∀ before request after, requests = before ++ request :: after →
        PolicyAnswers rt server request → before.countP (Request.calls rt) < 9999 := by
  have hstart : Counted ({ host } : Session σ) 0 := ⟨rfl, rfl⟩
  rw [allSteps_iff_split]
  refine forall_congr' fun before => forall_congr' fun request => forall_congr' fun after =>
    imp_congr_right fun _ => ?_
  have hcounted := counted_run rt server hstart before
  rw [Nat.zero_add] at hcounted
  exact servedValid_iff hpolicy hsize hruns hcounted request

/-- A runtime whose digests are blank. -/
def blankDigests : Runtime where
  __ := Runtime.ascii
  sha256 := fun _ => List.replicate 32 0

/-- A policy server that allows whatever it is asked. -/
def allowingClient : PolicyClient where
  urlopen := fun _ _ => .answered ((py "\x7b\"result\": true\x7d").flatMap PyStr.utf8Bytes)

def sampleRun : Run where
  runId := py "RUN-aaaaaa"
  actor := [(py "type", .str (py "agent")), (py "id", .str (py "opencode")),
    (py "role", .str (py "implementer"))]
  createdAt := 1000

/-- One run, and no tools. -/
def sampleServer : MCPServer Unit where
  executor := {
    policy := allowingClient.evaluate blankDigests
    capabilities := ⟨[], [(py "RUN-aaaaaa", sampleRun)]⟩
    tools := {} }
  tools := {}
  argsSchema := fun _ => []

/-- A call of the run; its token is of no kind, and the denial is recorded. -/
def sampleRequest : Request where
  message := [(py "jsonrpc", .str (py "2.0")), (py "id", .int 1),
    (py "method", .str (py "tools/call")),
    (py "params", .obj [(py "name", .str (py "read_artifact")), (py "arguments", .obj []),
      (py "run_id", .str (py "RUN-aaaaaa")), (py "token", .str (py "token")),
      (py "scope", .str (py "workspace"))])]
  clock := ⟨py "2026-09-24T00:00:00Z", 1000⟩

theorem sampleServer_policy :
    sampleServer.executor.policy = allowingClient.evaluate blankDigests := rfl

theorem blankDigests_size (data : Bytes) : (blankDigests.sha256 data).length = 32 := rfl

theorem sampleServer_runs (runId : PyStr) (run : Run)
    (h : sampleServer.executor.capabilities.get runId = some run) : SchemaValid runId run := by
  have hmem : (runId, run) ∈ [(py "RUN-aaaaaa", sampleRun)] := Assoc.mem_of_get h
  cases List.mem_singleton.mp hmem
  exact ⟨by decide, by decide⟩

theorem sampleRequest_calls : sampleRequest.calls blankDigests = true := by
  decide +kernel

theorem sampleRequest_answered : PolicyAnswers blankDigests sampleServer sampleRequest := by
  have hverdict : ((allowingClient.evaluate blankDigests policyPoint (policyPayload
      (py "read_artifact") [] (py "workspace") sampleRun.actor)).toOption.map (·.allow)) =
        some true := by
    decide +kernel
  obtain ⟨verdict, hverdict, -⟩ := Option.map_eq_some_iff.mp hverdict
  refine ⟨⟨py "read_artifact", [], py "RUN-aaaaaa", py "token", py "workspace"⟩, sampleRun, [],
    verdict, ?_, rfl, rfl, ok_of_toOption hverdict⟩
  rfl

theorem sampleRequests_valid :
    AllSteps (sampleServer.serve blankDigests) (ServedValid blankDigests sampleServer)
      { host := { world := () } } [sampleRequest, sampleRequest] := by
  refine (audit_documents_valid_iff blankDigests allowingClient sampleServer
    sampleServer_policy blankDigests_size sampleServer_runs { world := () }
    [sampleRequest, sampleRequest]).mpr ?_
  intro before request after hsplit _
  have hlength := congrArg List.length hsplit
  rw [List.length_append, List.length_cons, List.length_cons, List.length_cons,
    List.length_nil] at hlength
  have hcount := List.countP_le_length (p := Request.calls blankDigests) (l := before)
  omega

/-- Calls that repeat without end run out of valid ids. -/
theorem repeated_valid {n : Nat} (h : AllSteps (sampleServer.serve blankDigests)
      (ServedValid blankDigests sampleServer) { host := { world := () } }
      (List.replicate (n + 1) sampleRequest)) : n < 9999 := by
  have hstart : Counted ({ host := { world := () } } : Session Unit) 0 := ⟨rfl, rfl⟩
  have hcounted := counted_run blankDigests sampleServer hstart (List.replicate n sampleRequest)
  have hcount : (List.replicate n sampleRequest).countP (Request.calls blankDigests) = n := by
    rw [List.countP_replicate, sampleRequest_calls, if_pos rfl]
  rw [hcount, Nat.zero_add] at hcounted
  have hvalid := (allSteps_iff_split _ _ _ _).mp h _ _ _ List.replicate_succ'
  exact (servedValid_iff sampleServer_policy blankDigests_size sampleServer_runs hcounted
    sampleRequest).mp hvalid sampleRequest_answered

/-- The decision of the ten-thousandth call has an id that its schema refuses. -/
theorem tenThousandth_invalid :
    ¬ AllSteps (sampleServer.serve blankDigests) (ServedValid blankDigests sampleServer)
      { host := { world := () } } (List.replicate 10000 sampleRequest) :=
  fun h => absurd (repeated_valid (n := 9999) h) (by decide)

end SecureSdlc.Mcp

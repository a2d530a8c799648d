import SecureSdlc.Metatheory.ReleaseEvidence

/-!
What the release gate guarantees. A candidate that its schema accepts, and that can be
digested, is released exactly under the conditions that the policy spells out. Who a
release approver is, and what a recorded denial is worth, is not among them.
-/

namespace SecureSdlc.DeployVerify

open Core Core.Rego Policy Artifacts Contracts

/-- A repository with its schema files in place. -/
structure Repository where
  source : SchemaSource
  fs : FileSystem
  schemas : ∀ entry ∈ schemaFiles, fs.isFile (source.dir ++ [entry.1 ++ schemaSuffix]) = true

/-- The document says what the result says, and that is allow on the server's word only. -/
structure FailsClosed (rt : Runtime) (client : PolicyClient) (result : ReleaseVerification) :
    Prop where
  agrees : Assoc.get result.decision (py "decision") = some (.str (py "allow")) ↔
    result.allow = true
  answered : result.allow = true → ∃ body raw,
    client.urlopen (client.url PreDeployment.point) body = .answered raw ∧
      PolicyClient.WellFormedAllow rt raw

theorem verifyValidated_failsClosed {rt : Runtime} {client : PolicyClient} {as : Verification}
    {candidate : Mapping} {result : ReleaseVerification}
    (h : verifyValidated rt client as candidate = .ok result) : FailsClosed rt client result := by
  obtain ⟨bundle, -, h⟩ := exists_ok_of_bind h
  obtain ⟨arguments, -, h⟩ := exists_ok_of_bind h
  obtain ⟨verdict, hverdict, h⟩ := exists_ok_of_bind h
  cases h
  refine ⟨?_, ?_⟩
  · change some (Json.str (if verdict.allow then py "allow" else py "deny")) = _ ↔
      verdict.allow = true
    cases verdict.allow with
    | true => simp
    | false =>
        simp only [Bool.false_eq_true, if_false, iff_false, Option.some.injEq, Json.str.injEq]
        decide
  · intro hallow
    obtain ⟨payload, -, hevaluate⟩ := exists_ok_of_bind hverdict
    obtain ⟨body, raw, -, hreply, hword⟩ := client.evaluate_allow rt hevaluate hallow
    exact ⟨body, raw, hreply, hword⟩

section Repository

variable (repository : Repository)

theorem validateDocument_candidate (fields : Mapping) :
    validateDocument repository.source repository.fs fields candidateSchema =
      .ok (releaseCandidate.valid (.obj fields)) := by
  have hmem : (py "release-candidate", releaseCandidate) ∈ schemaFiles := by simp [schemaFiles]
  have hfile : repository.fs.isFile (repository.source.dir ++ [candidateSchema]) = true :=
    repository.schemas _ hmem
  have hdir : repository.fs.isDir repository.source.dir = true := by
    rw [FileSystem.isDir, decide_eq_true_eq]
    apply repository.fs.closed _ candidateSchema
    rw [FileSystem.isFile, FileSystem.node] at hfile
    split at hfile
    · rename_i hnode
      rw [hnode]
      rfl
    · cases hfile
  have haccepted : Path.osAccepts candidateSchema = true := by decide
  have hrelative : Path.isAbsolute candidateSchema = false := by decide
  have hparts : Path.parts candidateSchema = [candidateSchema] := by decide
  have hdown : candidateSchema ≠ Path.up := by decide
  have hlocate : locate repository.fs repository.source.dir candidateSchema =
      some (repository.source.dir ++ [candidateSchema]) := by
    simp only [locate, haccepted, if_true, hrelative, Bool.false_eq_true, if_false, hparts,
      FileSystem.walk, hdir, hdown]
  have hschema : repository.source.schemaAt (repository.source.dir ++ [candidateSchema]) =
      schemaOf releaseCandidate := schemaAt_of_mem repository.source hmem
  simp only [validateDocument, documentValidator, loadSchema, hlocate, hfile, if_true, bind,
    Except.bind, hschema, schemaOf]

theorem validateCandidate_valid {fields : Mapping}
    (hvalid : releaseCandidate.valid (.obj fields) = true) :
    validateCandidate repository.source repository.fs (.obj fields) = .ok () := by
  simp only [validateCandidate, validateDocument_candidate, hvalid, bind, Except.bind, if_true]
  rfl

theorem validateCandidate_invalid {candidate : Json}
    (hinvalid : releaseCandidate.valid candidate = false) :
    ∃ e, validateCandidate repository.source repository.fs candidate = .error e ∧
      e.kind = .candidateError := by
  cases candidate with
  | obj fields =>
      refine ⟨{ kind := .candidateError }, ?_, rfl⟩
      simp only [validateCandidate, validateDocument_candidate, hinvalid, bind, Except.bind,
        Bool.false_eq_true, if_false]
  | _ => exact ⟨_, rfl, rfl⟩

variable (rt : Runtime) (client : PolicyClient) (as : Verification)

theorem verifyRelease_valid {fields : Mapping}
    (hvalid : releaseCandidate.valid (.obj fields) = true) :
    verifyRelease rt repository.source repository.fs client as (.obj fields) =
      verifyValidated rt client as fields := by
  simp only [verifyRelease, validateCandidate_valid repository hvalid, bind, Except.bind]

theorem verifyRelease_invalid {candidate : Json}
    (hinvalid : releaseCandidate.valid candidate = false) :
    ∃ e, verifyRelease rt repository.source repository.fs client as candidate = .error e ∧
      e.kind = .candidateError := by
  obtain ⟨e, he, hkind⟩ := validateCandidate_invalid repository hinvalid
  refine ⟨e, ?_, hkind⟩
  simp only [verifyRelease, he, bind, Except.bind]

theorem verifyRelease_failsClosed {candidate : Json} {result : ReleaseVerification}
    (h : verifyRelease rt repository.source repository.fs client as candidate = .ok result) :
    FailsClosed rt client result := by
  obtain ⟨-, -, h⟩ := exists_ok_of_bind h
  cases candidate with
  | obj fields => exact verifyValidated_failsClosed h
  | _ => cases h

/-- The gate rejects what the schema rejects, and releases the rest under the conditions of
the policy. -/
structure GateExact (candidate : Json) : Prop where
  rejects : releaseCandidate.valid candidate = false →
    ∃ e, verifyRelease rt repository.source repository.fs client as candidate = .error e ∧
      e.kind = .candidateError
  decides : ∀ fields, candidate = .obj fields → releaseCandidate.valid candidate = true →
    ∃ result, verifyRelease rt repository.source repository.fs client as candidate = .ok result ∧
      (result.allow = true ↔ Releasable fields) ∧
      (Assoc.get result.decision (py "decision") = some (.str (py "allow")) ↔ Releasable fields)

end Repository

/-- A candidate that its schema accepts. -/
structure ValidCandidate where
  fields : Mapping
  distinct : (Json.obj fields).distinctKeys = true
  valid : releaseCandidate.valid (.obj fields) = true

namespace ValidCandidate

variable (candidate : ValidCandidate)

theorem toEvidence : Evidence candidate.fields := evidence_of_valid candidate.valid

theorem toPlain : Schema.Plain 4 (.obj candidate.fields) :=
  Schema.plain_of_valid (by decide) candidate.valid candidate.distinct

variable {rt : Runtime} {opa : Engine} {client : PolicyClient} (repository : Repository)
  (as : Verification)

/-- A candidate without lone surrogates is decided, and by the policy's conditions. -/
theorem verify_ok (hroom : 5 ≤ rt.dumpsRoom) (hfree : SurrogateFree (.obj candidate.fields))
    (hfaithful : FaithfulFor rt opa client candidate.fields) :
    ∃ result, verifyRelease rt repository.source repository.fs client as (.obj candidate.fields) =
        .ok result ∧
      (result.allow = true ↔ Releasable candidate.fields) := by
  rw [verifyRelease_valid repository rt client as candidate.valid]
  exact verifyValidated_ok hroom candidate.toEvidence ⟨candidate.toPlain, hfree⟩ hfaithful

theorem verify_error (hroom : 5 ≤ rt.dumpsRoom)
    (hfree : ¬ SurrogateFree (.obj candidate.fields)) :
    verifyRelease rt repository.source repository.fs client as (.obj candidate.fields) =
      .error { kind := .unicodeEncodeError } := by
  rw [verifyRelease_valid repository rt client as candidate.valid]
  exact verifyValidated_error hroom candidate.toEvidence candidate.toPlain hfree

end ValidCandidate

/-- The gate fails closed on every server, and is exact where the texts of an accepted
candidate can be encoded. -/
theorem release_gate_exact_iff (rt : Runtime) (hroom : 5 ≤ rt.dumpsRoom) (repository : Repository)
    (opa : Engine) (client : PolicyClient) (as : Verification) (candidate : Json.Value)
    (hfaithful : ∀ fields, candidate.json = .obj fields → FaithfulFor rt opa client fields) :
    (∀ server result, verifyRelease rt repository.source repository.fs server as candidate.json =
        .ok result → FailsClosed rt server result) ∧
      (GateExact repository rt client as candidate.json ↔
        (releaseCandidate.valid candidate.json = true → SurrogateFree candidate.json)) := by
  obtain ⟨json, hdistinct⟩ := candidate
  refine ⟨fun server result => verifyRelease_failsClosed repository rt server as, ?_⟩
  constructor
  · intro hexact hvalid
    obtain ⟨fields, rfl, -⟩ := Schema.valid_object hvalid
    obtain ⟨result, hresult, -⟩ := hexact.decides fields rfl hvalid
    by_contra hfree
    rw [ValidCandidate.verify_error ⟨fields, hdistinct, hvalid⟩ repository as hroom hfree]
      at hresult
    cases hresult
  · intro hfree
    refine ⟨verifyRelease_invalid repository rt client as, ?_⟩
    rintro fields rfl hvalid
    obtain ⟨result, hresult, hallow⟩ := ValidCandidate.verify_ok ⟨fields, hdistinct, hvalid⟩
      repository as hroom (hfree hvalid) (hfaithful fields rfl)
    have hclosed := verifyRelease_failsClosed repository rt client as hresult
    exact ⟨result, hresult, hallow, hclosed.agrees.trans hallow⟩

def sampleRepository : Repository where
  source := { dir := [py "repo", py "contracts", py "schemas"], elsewhere := fun _ _ => .ok false }
  fs := schemaFiles.foldl
    (fun fs entry =>
      (fs.writeBytes ([py "repo", py "contracts", py "schemas"] ++ [entry.1 ++ schemaSuffix])
        []).getD fs)
    (FileSystem.bare [py "repo", py "contracts", py "schemas"])
  schemas := by decide +kernel

def allowBody : Bytes :=
  (py "\x7b\"result\": \x7b\"allow\": true, \"reason_codes\": [\"ALLOWED\"]\x7d\x7d").flatMap
    PyStr.utf8Bytes

/-- A server that allows whatever it is asked. -/
def allowing : PolicyClient where
  urlopen := fun _ _ => .answered allowBody

def sampleVerification : Verification where
  bundleId := py "BUNDLE-0001"
  decisionId := py "DEC-0001"
  createdAt := py "2026-09-24"
  actor := [(py "type", .str (py "ci")), (py "id", .str (py "deploy-verify")),
    (py "role", .str (py "release-approver"))]
  runId := py "RUN-aaaaaa"

def pointEntry (point decision : String) : Json :=
  .obj [(py "point", .str (py point)), (py "decision", .str (py decision))]

/-- An approval of a person in a role. -/
def humanApproval (role actorRole : String) : Json :=
  .obj [(py "role", .str (py role)), (py "actor", .obj [(py "type", .str (py "human")),
    (py "id", .str (py "owner")), (py "role", .str (py actorRole))])]

def sampleCandidate (image : PyStr) (decisions : List Json) (role : String) (approval : Json) :
    Mapping :=
  [(py "schema_version", .str (py "1.0.0")), (py "artifact_type", .str (py "release-candidate")),
    (py "id", .str (py "RC-0001")), (py "created_at", .str (py "2026-09-24")),
    (py "actor", .obj [(py "type", .str (py "human")), (py "id", .str (py "owner")),
      (py "role", .str (py "author"))]),
    (py "run_id", .str (py "RUN-aaaaaa")), (py "image", .str image),
    (py "signature", .obj [(py "verified", .bool true)]),
    (py "sbom", .obj [(py "present", .bool true)]),
    (py "provenance", .obj [(py "verified", .bool true)]),
    (py "policy_decisions", .arr decisions), (py "required_approver_role", .str (py role)),
    (py "approvals", .arr [approval])]

def allowedPoints : List Json :=
  [pointEntry "artifact-transition" "allow", pointEntry "pr-ci" "allow"]

/-- The digests of the texts that are hashed for the candidates below, by checksum. -/
def gateRuntime : Runtime := .recording [
  (483099, 0x7719683c91bf3530ccba14433c7300c46b1100870afe4b1d95bad645963ec7a4),
  (660543, 0x348f299cf43d57826c76c5ef7c8ccc37668b45161b857d4ef09f7125f3381be9),
  (609550, 0xfc7a9ac2c81582bd5e477a3a34961eaf3abe76c6c334ec3933b8ee6c273e3081),
  (554534, 0x396c702f0ac4fec185f64b9d3521c816abdf4f649d82623dc388e57fa6b250e5),
  (788060, 0x4a8d8a4325907b6c420d35ff222ddd4132b4b41019b48371e907293aa69ef5b9),
  (400494, 0x24cbc2875b631d3197af111655e74c6a1d9463363038cb35770433246dc12a86),
  (131905, 0x7ce3625006575ed9b7f7849934b85c3bfc4d751e2ce4c753ccf9c9f8fe7efb16),
  (515381, 0x6c271adc506ca5877218969e058eb3021686cca37824dcaaba3fc07a812da690),
  (450264, 0xacfd9d5fa2391e53efd8a9099d5e1e3fbd3d4444ed69dc5001ba0a673a56feaf),
  (951160, 0x31d7378a019112e89831ab3bb32b5fa831b16e6d4c2596aca8e2119a79c72116),
  (64165, 0x37b4d655c48345558116bf62452b36ca9beb854e3ee6c6fa6fd81f300f0e69c3),
  (54079, 0x17d2084acbc35c82aa961e0fe777727731548398f3aa2038861f568a6bd8bc13)] []

def gateEngine : Engine where
  negation := .whole
  numEq := fun _ _ => false
  parseRfc3339Ns := fun _ => none

theorem faithful_of_allowed {candidate payload : Mapping}
    (hpayload : deploymentPayload candidate = .ok payload)
    (hdecision : PreDeployment.decision gateEngine (.obj payload) = ⟨true, [py "ALLOWED"]⟩) :
    FaithfulFor gateRuntime gateEngine allowing candidate := by
  intro asked hasked body _
  rw [hpayload] at hasked
  cases hasked
  have hloads : (JsonText.loadsBytes gateRuntime allowBody).toOption =
      some (.obj [(py "result", .obj [(py "allow", .bool true),
        (py "reason_codes", .arr [.str (py "ALLOWED")])])]) := by decide +kernel
  cases hbody : JsonText.loadsBytes gateRuntime allowBody with
  | error e =>
      rw [hbody] at hloads
      cases hloads
  | ok answer =>
      rw [hbody] at hloads
      obtain rfl := Option.some.inj hloads
      exact ⟨allowBody, _, _, rfl, hbody, rfl, by rw [hdecision]; rfl, by rw [hdecision]; rfl⟩

def approvedCandidate : ValidCandidate where
  fields := sampleCandidate (py "registry/app:1") allowedPoints "release-approver"
    (humanApproval "release-approver" "release-approver")
  distinct := by decide +kernel
  valid := by decide +kernel

theorem approvedCandidate_faithful :
    FaithfulFor gateRuntime gateEngine allowing approvedCandidate.fields :=
  faithful_of_allowed rfl (by decide +kernel)

theorem approvedCandidate_gate :
    GateExact sampleRepository gateRuntime allowing sampleVerification
      (.obj approvedCandidate.fields) := by
  refine (release_gate_exact_iff gateRuntime (by decide) sampleRepository gateEngine allowing
    sampleVerification ⟨.obj approvedCandidate.fields, approvedCandidate.distinct⟩ ?_).2.mpr ?_
  · intro fields hfields
    cases hfields
    exact approvedCandidate_faithful
  · intro _
    decide +kernel

/-- A valid candidate whose image is half a character. -/
def surrogateCandidate : ValidCandidate where
  fields := sampleCandidate [⟨0xD800, by decide⟩] allowedPoints "release-approver"
    (humanApproval "release-approver" "release-approver")
  distinct := by decide +kernel
  valid := by decide +kernel

theorem surrogateCandidate_not_decided :
    FaithfulFor gateRuntime gateEngine allowing surrogateCandidate.fields ∧
      ¬ GateExact sampleRepository gateRuntime allowing sampleVerification
        (.obj surrogateCandidate.fields) := by
  refine ⟨faithful_of_allowed rfl (by decide +kernel), ?_⟩
  intro hexact
  obtain ⟨result, hresult, -⟩ := hexact.decides _ rfl surrogateCandidate.valid
  rw [surrogateCandidate.verify_error sampleRepository sampleVerification (by decide)
    (by decide +kernel)] at hresult
  cases hresult

/-- Some approval comes from a person who is a release approver. -/
def ReleaseApproved (candidate : Mapping) : Prop :=
  ∃ approval ∈ entriesAt candidate (py "approvals"),
    actorMember approval (py "type") = some (.str (py "human")) ∧
      actorMember approval (py "role") = some (.str (py "release-approver"))

instance (candidate : Mapping) : Decidable (ReleaseApproved candidate) :=
  inferInstanceAs (Decidable (∃ approval ∈ entriesAt candidate (py "approvals"), _ ∧ _))

/-- The release is allowed only with a release approver, exactly where the policy's own
conditions bring one along. -/
theorem human_release_approver_iff (rt : Runtime) (hroom : 5 ≤ rt.dumpsRoom)
    (repository : Repository) (opa : Engine) (client : PolicyClient) (as : Verification)
    (candidate : ValidCandidate) (hfaithful : FaithfulFor rt opa client candidate.fields) :
    (∀ result, verifyRelease rt repository.source repository.fs client as (.obj candidate.fields) =
        .ok result → result.allow = true → ReleaseApproved candidate.fields) ↔
      (SurrogateFree (.obj candidate.fields) → Releasable candidate.fields →
        ReleaseApproved candidate.fields) := by
  constructor
  · intro honly hfree hreleasable
    obtain ⟨result, hresult, hallow⟩ := candidate.verify_ok repository as hroom hfree
      hfaithful
    exact honly result hresult (hallow.mpr hreleasable)
  · intro hcondition result hresult hallowed
    by_cases hfree : SurrogateFree (.obj candidate.fields)
    · obtain ⟨decided, hdecided, hallow⟩ := candidate.verify_ok repository as hroom hfree
        hfaithful
      rw [hresult] at hdecided
      cases hdecided
      exact hcondition hfree (hallow.mp hallowed)
    · rw [candidate.verify_error repository as hroom hfree] at hresult
      cases hresult

theorem approvedCandidate_release_approver :
    FaithfulFor gateRuntime gateEngine allowing approvedCandidate.fields ∧
      ∀ result, verifyRelease gateRuntime sampleRepository.source sampleRepository.fs allowing
          sampleVerification (.obj approvedCandidate.fields) = .ok result → result.allow = true →
        ReleaseApproved approvedCandidate.fields :=
  ⟨approvedCandidate_faithful,
    (human_release_approver_iff gateRuntime (by decide) sampleRepository gateEngine allowing
      sampleVerification approvedCandidate approvedCandidate_faithful).mpr
      fun _ _ => by decide +kernel⟩

/-- A candidate that asks for the approval of an author, and has it. -/
def authorCandidate : ValidCandidate where
  fields := sampleCandidate (py "registry/app:1") allowedPoints "author"
    (humanApproval "author" "author")
  distinct := by decide +kernel
  valid := by decide +kernel

theorem authorCandidate_approves_itself :
    FaithfulFor gateRuntime gateEngine allowing authorCandidate.fields ∧
      ¬ ∀ result, verifyRelease gateRuntime sampleRepository.source sampleRepository.fs allowing
          sampleVerification (.obj authorCandidate.fields) = .ok result → result.allow = true →
        ReleaseApproved authorCandidate.fields := by
  have hfaithful : FaithfulFor gateRuntime gateEngine allowing authorCandidate.fields :=
    faithful_of_allowed rfl (by decide +kernel)
  refine ⟨hfaithful, ?_⟩
  intro honly
  obtain ⟨result, hresult, hallow⟩ := authorCandidate.verify_ok sampleRepository
    sampleVerification (by decide) (by decide +kernel) hfaithful
  have hreleasable : Releasable authorCandidate.fields :=
    (decision_allow_iff gateEngine authorCandidate.toEvidence).mp (by decide +kernel)
  exact absurd (honly result hresult (hallow.mpr hreleasable)) (by decide +kernel)

/-- Some required point is recorded as denied. -/
def Denied (candidate : Mapping) : Prop :=
  ∃ point ∈ PreDeployment.requiredPoints, ∃ entry ∈ entriesAt candidate (py "policy_decisions"),
    entry.get? (py "point") = some (.str point) ∧
      entry.get? (py "decision") = some (.str (py "deny"))

/-- A recorded denial decides the release exactly where another condition fails, since no
rule reads it. -/
theorem recorded_denial_iff (opa : Engine) (candidate : ValidCandidate) :
    ∃ payload, deploymentPayload candidate.fields = .ok payload ∧
      ((Denied candidate.fields → (PreDeployment.decision opa (.obj payload)).allow = false) ↔
        (Denied candidate.fields → ¬ Releasable candidate.fields)) := by
  obtain ⟨payload, hpayload, hsame, -⟩ := deploymentPayload_ok candidate.toEvidence
  have hdecision := decision_allow_iff opa (evidence_of_same hsame candidate.toEvidence)
  rw [releasable_congr hsame] at hdecision
  refine ⟨payload, hpayload, forall_congr' fun _ => ?_⟩
  rw [← hdecision, Bool.not_eq_true]

/-- The denial of a point stands beside a decision that allows it. -/
def deniedCandidate : ValidCandidate where
  fields := sampleCandidate (py "registry/app:1")
    (pointEntry "pr-ci" "deny" :: allowedPoints) "release-approver"
    (humanApproval "release-approver" "release-approver")
  distinct := by decide +kernel
  valid := by decide +kernel

theorem deniedCandidate_outvoted :
    ∃ payload, deploymentPayload deniedCandidate.fields = .ok payload ∧
      ¬ (Denied deniedCandidate.fields →
        (PreDeployment.decision gateEngine (.obj payload)).allow = false) := by
  refine ⟨_, rfl, ?_⟩
  intro hdenies
  have hdenied : Denied deniedCandidate.fields :=
    ⟨py "pr-ci", by decide, pointEntry "pr-ci" "deny", List.mem_cons_self, rfl, rfl⟩
  exact absurd (hdenies hdenied) (by decide +kernel)

end SecureSdlc.DeployVerify

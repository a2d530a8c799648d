import SecureSdlc.Core.ClosedObject
import SecureSdlc.Metatheory.PipelineRuns

/-!
The security review that is compiled from a threat model. A schema-valid threat model
promises what the review reads of its risks, so there always is a review, with one entry
for each risk; and the review is schema-valid as far as the platform's own members are.
-/

namespace SecureSdlc.Orchestrator

open Core Skills Tools Artifacts Contracts

/-- What the schema promises about the members of a risk that a review reads. -/
structure RiskMembers (risk : Json) (id severity test : PyStr) (waiver : Option PyStr) : Prop where
  object : ∃ fields, risk = .obj fields
  id_eq : risk.get? (py "id") = some (.str id)
  severity_eq : risk.get? (py "severity") = some (.str severity)
  test_eq : risk.get? (py "verification_test") = some (.str test)
  test_nonempty : test ≠ []
  waiver_eq : risk.get? (py "waiver_id") = waiver.map Json.str
  waiver_nonempty : waiver ≠ some []

theorem nonEmpty_str {v : Json} (h : nonEmpty.valid v = true) : ∃ s, v = .str s ∧ s ≠ [] := by
  obtain ⟨s, rfl, hs⟩ := (Schema.valid_string_iff _ v).mp h
  refine ⟨s, rfl, ?_⟩
  rintro rfl
  exact absurd hs (by decide)

theorem identifier_str {v : Json} (h : identifier.valid v = true) : ∃ s, v = .str s ∧ s ≠ [] := by
  obtain ⟨s, rfl, hs⟩ := (Schema.valid_string_iff _ v).mp h
  refine ⟨s, rfl, ?_⟩
  rintro rfl
  exact absurd hs (by decide)

theorem riskMembers_of_valid {threatModel : Mapping}
    (h : Contracts.threatModel.valid (.obj threatModel) = true) :
    ∃ risks, Assoc.get threatModel (py "risks") = some (.arr risks) ∧
      ∀ risk ∈ risks, ∃ id severity test waiver, RiskMembers risk id severity test waiver := by
  obtain ⟨value, hvalue, hvalid⟩ := Schema.valid_member (k := py "risks") h (by decide) rfl
  obtain ⟨risks, rfl, -, hrisks⟩ := Schema.valid_array hvalid
  refine ⟨risks, hvalue, ?_⟩
  intro risk hrisk
  have hobject := hrisks risk hrisk
  obtain ⟨fields, rfl, -⟩ := Schema.valid_object hobject
  obtain ⟨id, hid, hidvalid⟩ := Schema.valid_member (k := py "id") hobject (by decide) rfl
  obtain ⟨id, rfl, -⟩ := identifier_str hidvalid
  obtain ⟨severity, hseverity, hsvalid⟩ :=
    Schema.valid_member (k := py "severity") hobject (by decide) rfl
  obtain ⟨severity, rfl, -⟩ := (Schema.valid_string_iff _ severity).mp hsvalid
  obtain ⟨test, htest, htvalid⟩ :=
    Schema.valid_member (k := py "verification_test") hobject (by decide) rfl
  obtain ⟨test, rfl, hne⟩ := nonEmpty_str htvalid
  cases hwaiver : Assoc.get fields (py "waiver_id") with
  | none =>
      exact ⟨id, severity, test, none, ⟨fields, rfl⟩, hid, hseverity, htest, hne, hwaiver, by simp⟩
  | some waiver =>
      obtain ⟨waiver, rfl, hwne⟩ := identifier_str
        (Schema.valid_present (k := py "waiver_id") hobject rfl hwaiver)
      refine ⟨id, severity, test, some waiver, ⟨fields, rfl⟩, hid, hseverity, htest, hne, hwaiver,
        ?_⟩
      exact fun heq => hwne (Option.some.inj heq)

/-- The disposition of such a risk. -/
def dispositionOf (severity : PyStr) (waiver : Option PyStr) : PyStr :=
  if severity = py "critical" ∨ severity = py "high" then py "mitigated"
  else if severity = py "medium" then
    if waiver.isSome then py "waived_medium" else py "open_blocking"
  else py "accepted_low"

theorem dispositionOf_medium (waiver : Option PyStr) : dispositionOf (py "medium") waiver =
    if waiver.isSome then py "waived_medium" else py "open_blocking" := rfl

theorem medium_of_waived {severity : PyStr} {waiver : Option PyStr}
    (h : dispositionOf severity waiver = py "waived_medium") :
    severity = py "medium" ∧ waiver.isSome = true := by
  rw [dispositionOf] at h
  split at h
  · exact absurd h (by decide)
  · split at h
    · rename_i hmedium
      split at h
      · rename_i hsome
        exact ⟨hmedium, hsome⟩
      · exact absurd h (by decide)
    · exact absurd h (by decide)

variable {rt : Runtime} {risk : Json} {id severity test : PyStr} {waiver : Option PyStr}

theorem truthy_str {s : PyStr} (h : s ≠ []) : (Json.str s).truthy = true := by
  simpa [Json.truthy] using h

theorem disposition_eq (h : RiskMembers risk id severity test waiver) :
    disposition severity (risk.get? (py "verification_test")) (risk.get? (py "waiver_id")) =
      dispositionOf severity waiver := by
  rw [disposition, dispositionOf, h.test_eq, h.waiver_eq]
  have hwaiver : (waiver.map Json.str).any Json.truthy = waiver.isSome := by
    cases hw : waiver with
    | none => rfl
    | some s => exact truthy_str fun hs => h.waiver_nonempty (hw.trans (congrArg some hs))
  rw [hwaiver, Option.any_some, truthy_str h.test_nonempty, if_pos rfl]

/-- The entry of such a risk; a mitigated one names its test. -/
def entryOf (id severity test : PyStr) (waiver : Option PyStr) : Mapping :=
  [(py "risk_id", .str id), (py "severity", .str severity),
    (py "disposition", .str (dispositionOf severity waiver))] ++
  if dispositionOf severity waiver = py "mitigated" then
    [(py "verification_evidence", .str test)] else []

theorem riskDisposition_entryOf (rt : Runtime) (h : RiskMembers risk id severity test waiver) :
    riskDisposition rt risk =
      .ok (dispositionOf severity waiver, entryOf id severity test waiver) := by
  have hdisposition := disposition_eq h
  obtain ⟨fields, rfl⟩ := h.object
  have hseverity := h.severity_eq
  have hid := h.id_eq
  have htest := h.test_eq
  simp only [Json.get?] at hseverity hid htest hdisposition
  have hevidence : verificationEvidence rt (dispositionOf severity waiver) (some (.str test)) =
      .ok (if dispositionOf severity waiver = py "mitigated" then
        [(py "verification_evidence", .str test)] else []) := by
    simp only [verificationEvidence, truthy_str h.test_nonempty, and_true]
    split
    · rfl
    · rfl
  simp only [riskDisposition, Json.getMember, hseverity, hid, htest, bind, Except.bind,
    Option.getD_some, Json.text_str]
  rw [← htest, hdisposition, htest, hevidence]
  rfl

/-- A risk of a schema-valid threat model always gets an entry. -/
theorem riskDisposition_eq (rt : Runtime) (h : RiskMembers risk id severity test waiver) :
    ∃ evidence, riskDisposition rt risk = .ok (dispositionOf severity waiver,
      [(py "risk_id", .str id), (py "severity", .str severity),
        (py "disposition", .str (dispositionOf severity waiver))] ++ evidence) :=
  ⟨_, riskDisposition_entryOf rt h⟩

/-- The review of a schema-valid threat model: an entry for every risk, and no others. -/
structure Reviewed (rt : Runtime) (threatModel review : Mapping)
    (dispositions : List (PyStr × Mapping)) : Prop where
  each : ∀ risk ∈ itemsAt threatModel (py "risks"), ∃ entry ∈ dispositions,
    riskDisposition rt risk = .ok entry
  only : ∀ entry ∈ dispositions, ∃ risk ∈ itemsAt threatModel (py "risks"),
    riskDisposition rt risk = .ok entry
  entries : itemsAt review (py "risk_dispositions") = dispositions.map fun entry => .obj entry.2
  verdict : Assoc.get review (py "verdict") = some (.str
    (if dispositions.any fun entry => decide (entry.1 = py "open_blocking") then
      py "changes_requested" else py "approved"))

theorem reviewed_of_ok {featureId artifactId createdAt runId href : PyStr}
    {threatModel actor review : Mapping} {risks : List Json}
    (hrisks : Assoc.get threatModel (py "risks") = some (.arr risks))
    (h : buildSecurityReview rt featureId threatModel artifactId createdAt actor runId href =
      .ok review) : ∃ dispositions, Reviewed rt threatModel review dispositions := by
  obtain ⟨items, hitems, h⟩ := exists_ok_of_bind h
  obtain ⟨dispositions, hdispositions, h⟩ := exists_ok_of_bind h
  obtain ⟨threatModelId, -, h⟩ := exists_ok_of_bind h
  cases h
  simp only [iterateMember, hrisks] at hitems
  cases hitems
  obtain ⟨heach, honly⟩ := mem_of_mapM_ok hdispositions
  refine ⟨dispositions, ?_, ?_, rfl, rfl⟩
  · simp only [itemsAt, hrisks]
    exact heach
  · simp only [itemsAt, hrisks]
    exact honly

theorem buildSecurityReview_ok (rt : Runtime) {threatModel : Mapping}
    (h : Contracts.threatModel.valid (.obj threatModel) = true)
    (featureId artifactId createdAt : PyStr) (actor : Mapping) (runId href : PyStr) :
    ∃ review, buildSecurityReview rt featureId threatModel artifactId createdAt actor runId href =
      .ok review := by
  obtain ⟨risks, hrisks, hmembers⟩ := riskMembers_of_valid h
  obtain ⟨dispositions, hdispositions⟩ : ∃ dispositions,
      risks.mapM (riskDisposition rt) = .ok dispositions := by
    apply exists_mapM_ok
    intro risk hrisk
    obtain ⟨id, severity, test, waiver, hrisk⟩ := hmembers risk hrisk
    obtain ⟨evidence, heq⟩ := riskDisposition_eq rt hrisk
    exact ⟨_, heq⟩
  obtain ⟨id, hid, -⟩ := valid_artifact_id h
  simp only [buildSecurityReview, iterateMember, hrisks, Json.iterate, hdispositions, hid,
    Option.getD_some, Json.text_str, bind, Except.bind]
  exact ⟨_, rfl⟩

/-- The platform's own members of a security review, as far as the schema asks. -/
structure ReviewEnvelope (featureId artifactId createdAt : PyStr) (actor : Mapping)
    (runId href : PyStr) : Prop where
  feature : Schema.Sound identifier (.str featureId)
  artifact : Schema.Sound identifier (.str artifactId)
  createdAt : Schema.Sound isoDateTime (.str createdAt)
  actor : Schema.Sound Contracts.actor (.obj actor)
  run : Schema.Sound Contracts.runId (.str runId)
  href : Schema.Sound nonEmpty (.str href)

theorem dispositionOf_mem (severity : PyStr) (waiver : Option PyStr) :
    dispositionOf severity waiver ∈
      ["mitigated", "waived_medium", "accepted_low", "open_blocking"].map py := by
  rw [dispositionOf]
  split
  · simp
  · split
    · split
      · simp
      · simp
    · simp

theorem sound_oneOf {texts : List String} {value : PyStr} (h : value ∈ texts.map py)
    (htexts : ∀ text ∈ texts.map py, PyStr.encodable text = true) :
    Schema.Sound (oneOf texts) (.str value) :=
  Schema.sound_str (decide_eq_true h) (htexts value h)

/-- The entry of a risk, under the schema of entries. -/
theorem sound_entryOf {id severity test : PyStr} (hid : Schema.Sound identifier (.str id))
    (hseverity : Schema.Sound Contracts.severity (.str severity))
    (htest : Schema.Sound nonEmpty (.str test)) (waiver : Option PyStr) :
    Schema.Sound (closed [("risk_id", identifier), ("severity", Contracts.severity),
        ("disposition", oneOf ["mitigated", "waived_medium", "accepted_low", "open_blocking"])]
      [("waiver_id", identifier), ("verification_evidence", Contracts.text)])
      (.obj (entryOf id severity test waiver)) := by
  have hdisposition := sound_oneOf (dispositionOf_mem severity waiver) (by decide)
  rw [entryOf]
  split
  · refine Schema.sound_object [py "risk_id", py "severity", py "disposition",
      py "verification_evidence"] (by decide) rfl ?_
    simp only [List.cons_append, List.nil_append, List.forall_mem_cons, List.not_mem_nil,
      false_implies, implies_true, and_true]
    exact ⟨⟨_, rfl, hid⟩, ⟨_, rfl, hseverity⟩, ⟨_, rfl, hdisposition⟩,
      ⟨_, rfl, Schema.sound_str rfl htest.texts⟩⟩
  · refine Schema.sound_object [py "risk_id", py "severity", py "disposition"] (by decide) rfl ?_
    simp only [List.append_nil, List.forall_mem_cons, List.not_mem_nil, false_implies,
      implies_true, and_true]
    exact ⟨⟨_, rfl, hid⟩, ⟨_, rfl, hseverity⟩, ⟨_, rfl, hdisposition⟩⟩

theorem riskDispositions_sound (rt : Runtime) {threatModel : Mapping}
    (h : Schema.Sound Contracts.threatModel (.obj threatModel)) {risks : List Json}
    (hrisks : Assoc.get threatModel (py "risks") = some (.arr risks)) :
    ∀ entry, (∃ risk ∈ risks, riskDisposition rt risk = .ok entry) →
      Schema.Sound (closed [("risk_id", identifier), ("severity", Contracts.severity),
          ("disposition", oneOf ["mitigated", "waived_medium", "accepted_low", "open_blocking"])]
        [("waiver_id", identifier), ("verification_evidence", Contracts.text)])
        (.obj entry.2) := by
  rintro entry ⟨risk, hrisk, hentry⟩
  obtain ⟨risks', hrisks', hmembers⟩ := riskMembers_of_valid h.valid
  obtain rfl : risks' = risks := Json.arr.inj (Option.some.inj (hrisks'.symm.trans hrisks))
  obtain ⟨id, severity, test, waiver, hmember⟩ := hmembers risk hrisk
  rw [riskDisposition_entryOf rt hmember] at hentry
  cases hentry
  have hsound := (Schema.sound_arr.mp (h.present rfl hrisks)).2 risk hrisk
  obtain ⟨fields, rfl⟩ := hmember.object
  exact sound_entryOf (hsound.present rfl hmember.id_eq) (hsound.present rfl hmember.severity_eq)
    (hsound.present rfl hmember.test_eq) waiver

theorem sound_link {rel : PyStr} {href : PyStr}
    (hrel : rel ∈ ["requirement", "threat", "control", "task", "code", "test", "review",
      "specification", "plan", "evidence", "policy-decision", "waiver", "pr", "commit"].map py)
    (hhref : Schema.Sound nonEmpty (.str href)) :
    Schema.Sound link (Link.entry ⟨rel, href⟩) := by
  refine Schema.sound_object [py "rel", py "href"] (by decide) rfl ?_
  simp only [List.forall_mem_cons, List.not_mem_nil, false_implies, implies_true, and_true]
  exact ⟨⟨_, rfl, sound_oneOf hrel (by decide)⟩, ⟨_, rfl, hhref⟩⟩

/-- The review of a sound threat model is there, and sound. -/
theorem buildSecurityReview_sound (rt : Runtime) {threatModel : Mapping}
    (h : Schema.Sound Contracts.threatModel (.obj threatModel))
    {featureId artifactId createdAt : PyStr} {actor : Mapping} {runId href : PyStr}
    (envelope : ReviewEnvelope featureId artifactId createdAt actor runId href) :
    ∃ review, buildSecurityReview rt featureId threatModel artifactId createdAt actor runId href =
        .ok review ∧ Schema.Sound Contracts.securityReview (.obj review) := by
  obtain ⟨review, hreview⟩ :=
    buildSecurityReview_ok rt h.valid featureId artifactId createdAt actor runId href
  refine ⟨review, hreview, ?_⟩
  obtain ⟨risks, hrisks, -⟩ := riskMembers_of_valid h.valid
  obtain ⟨id, hid, -⟩ := valid_artifact_id h.valid
  obtain ⟨items, hitems, hrest⟩ := exists_ok_of_bind hreview
  obtain ⟨dispositions, hdispositions, hlast⟩ := exists_ok_of_bind hrest
  rw [hid, Option.getD_some, Json.text_str] at hlast
  simp only [iterateMember, hrisks] at hitems
  cases hitems
  cases hlast
  refine Schema.sound_object [py "schema_version", py "artifact_type", py "id", py "created_at",
    py "created_by", py "run_id", py "links", py "feature_id", py "threat_model_id",
    py "verdict", py "risk_dispositions"] (by decide) rfl ?_
  simp only [List.forall_mem_cons, List.not_mem_nil, false_implies, implies_true, and_true]
  refine ⟨⟨_, rfl, Schema.sound_str rfl (by decide)⟩, ⟨_, rfl, Schema.sound_str rfl (by decide)⟩,
    ⟨_, rfl, envelope.artifact⟩, ⟨_, rfl, envelope.createdAt⟩, ⟨_, rfl, envelope.actor⟩,
    ⟨_, rfl, envelope.run⟩, ⟨_, rfl, ?_⟩, ⟨_, rfl, envelope.feature⟩, ⟨_, rfl, h.present rfl hid⟩,
    ⟨_, rfl, ?_⟩, ⟨_, rfl, ?_⟩⟩
  · refine Schema.sound_arr.mpr ⟨Nat.zero_le _, fun v hv => ?_⟩
    rw [List.mem_singleton.mp hv]
    exact sound_link (by decide) envelope.href
  · refine sound_oneOf ?_ (by decide)
    split
    · decide
    · decide
  · refine Schema.sound_arr.mpr ⟨Nat.zero_le _, fun v hv => ?_⟩
    obtain ⟨entry, hentry, rfl⟩ := List.mem_map.mp hv
    exact riskDispositions_sound rt h hrisks entry ((mem_of_mapM_ok hdispositions).2 entry hentry)

end SecureSdlc.Orchestrator

import SecureSdlc.Metatheory.PipelineProgress
import SecureSdlc.Waiver.Enforcement

/-!
The waivers that a compiled security review takes for granted. The review is compiled
from the threat model alone, and the model that wrote it may have named a waiver in any
of its risks; no waiver is looked up. So a medium risk is waived under a waiver in force
exactly as far as the threat model happens to name such waivers only.
-/

namespace SecureSdlc.Orchestrator

open Core Skills Tools Artifacts Contracts Waiver

variable (rt : Runtime)

/-- One of these waivers is for the risk, and in force when the review is made. -/
def WaivedBy (waivers : List Mapping) (createdAt riskId : PyStr) : Prop :=
  ∃ waiver ∈ waivers, Assoc.get waiver (py "risk_id") = some (.str riskId) ∧
    ∃ now check, parseTimestamp rt createdAt = .ok now ∧ checkWaiver rt waiver now = .ok check ∧
      check.valid = true

/-- The review waives a medium risk, or approves in spite of it, only under a waiver. -/
structure WaivesInForce (waivers : List Mapping) (createdAt : PyStr)
    (threatModel review : Mapping) : Prop where
  entries : ∀ entry ∈ itemsAt review (py "risk_dispositions"),
    memberText entry (py "disposition") = some (py "waived_medium") →
      ∃ riskId, memberText entry (py "risk_id") = some riskId ∧
        WaivedBy rt waivers createdAt riskId
  verdict : Assoc.get review (py "verdict") = some (.str (py "approved")) →
    ∀ risk ∈ itemsAt threatModel (py "risks"),
      memberText risk (py "severity") = some (py "medium") →
        ∃ riskId, memberText risk (py "id") = some riskId ∧ WaivedBy rt waivers createdAt riskId

/-- Where the threat model names a waiver for a medium risk, there is one. -/
def NamesWaiversInForce (waivers : List Mapping) (createdAt : PyStr) (threatModel : Mapping) :
    Prop :=
  ∀ risk ∈ itemsAt threatModel (py "risks"),
    memberText risk (py "severity") = some (py "medium") →
      (risk.get? (py "waiver_id")).isSome = true →
        ∃ riskId, memberText risk (py "id") = some riskId ∧ WaivedBy rt waivers createdAt riskId

variable {rt}

/-- A compiled review keeps to waivers in force exactly where its threat model names
such waivers only. -/
theorem waivesInForce_iff {waivers : List Mapping} {createdAt : PyStr}
    {threatModel review : Mapping} {dispositions : List (PyStr × Mapping)}
    (hmembers : ∀ risk ∈ itemsAt threatModel (py "risks"),
      ∃ id severity test waiver, RiskMembers risk id severity test waiver)
    (h : Reviewed rt threatModel review dispositions) :
    WaivesInForce rt waivers createdAt threatModel review ↔
      NamesWaiversInForce rt waivers createdAt threatModel := by
  have hentry : ∀ entry ∈ dispositions, ∃ risk ∈ itemsAt threatModel (py "risks"),
      ∃ id severity test waiver evidence, RiskMembers risk id severity test waiver ∧
        entry = (dispositionOf severity waiver, [(py "risk_id", .str id),
          (py "severity", .str severity),
          (py "disposition", .str (dispositionOf severity waiver))] ++ evidence) := by
    intro entry hentry
    obtain ⟨risk, hrisk, hok⟩ := h.only entry hentry
    obtain ⟨id, severity, test, waiver, hmember⟩ := hmembers risk hrisk
    obtain ⟨evidence, heq⟩ := riskDisposition_eq rt hmember
    exact ⟨risk, hrisk, id, severity, test, waiver, evidence, hmember,
      Except.ok.inj (hok.symm.trans heq)⟩
  constructor
  · intro hwaives risk hrisk hmedium hnamed
    obtain ⟨id, severity, test, waiver, hmember⟩ := hmembers risk hrisk
    obtain ⟨evidence, heq⟩ := riskDisposition_eq rt hmember
    obtain ⟨entry, hentry, hok⟩ := h.each risk hrisk
    obtain rfl := Except.ok.inj (hok.symm.trans heq)
    have hin := List.mem_map_of_mem (f := fun entry : PyStr × Mapping => Json.obj entry.2) hentry
    rw [← h.entries] at hin
    have hwaived : dispositionOf severity waiver = py "waived_medium" := by
      rw [hmember.waiver_eq, Option.isSome_map] at hnamed
      rw [memberText, hmember.severity_eq] at hmedium
      obtain rfl : severity = py "medium" := Option.some.inj hmedium
      rw [dispositionOf_medium, hnamed, if_pos rfl]
    obtain ⟨riskId, hid, hwaiver⟩ := hwaives.entries _ hin (congrArg some hwaived)
    obtain rfl : id = riskId := Option.some.inj hid
    exact ⟨id, by rw [memberText, hmember.id_eq]; rfl, hwaiver⟩
  · intro hnames
    refine ⟨?_, ?_⟩
    · intro item hitem hwaived
      rw [h.entries] at hitem
      obtain ⟨entry, hmem, rfl⟩ := List.mem_map.mp hitem
      obtain ⟨risk, hrisk, id, severity, test, waiver, evidence, hmember, rfl⟩ := hentry entry hmem
      obtain ⟨rfl, hsome⟩ := medium_of_waived (Option.some.inj hwaived)
      obtain ⟨riskId, hid, hwaiver⟩ := hnames risk hrisk
        (by rw [memberText, hmember.severity_eq]; rfl)
        (by rw [hmember.waiver_eq, Option.isSome_map, hsome])
      rw [memberText, hmember.id_eq] at hid
      obtain rfl : id = riskId := Option.some.inj hid
      exact ⟨id, rfl, hwaiver⟩
    · intro hverdict risk hrisk hmedium
      obtain ⟨id, severity, test, waiver, hmember⟩ := hmembers risk hrisk
      obtain ⟨evidence, heq⟩ := riskDisposition_eq rt hmember
      obtain ⟨entry, hentry, hok⟩ := h.each risk hrisk
      obtain rfl := Except.ok.inj (hok.symm.trans heq)
      apply hnames risk hrisk hmedium
      rw [hmember.waiver_eq, Option.isSome_map]
      rw [memberText, hmember.severity_eq] at hmedium
      obtain rfl : severity = py "medium" := Option.some.inj hmedium
      by_contra hnone
      have hblocking : (dispositions.any fun entry =>
          decide (entry.1 = py "open_blocking")) = true := by
        rw [List.any_eq_true]
        refine ⟨_, hentry, ?_⟩
        rw [dispositionOf_medium, if_neg hnone]
        exact decide_eq_true rfl
      rw [h.verdict, hblocking, if_pos rfl] at hverdict
      exact absurd (Json.str.inj (Option.some.inj hverdict)) (by decide)

/-- The threat model that a run persists is schema-valid. -/
theorem threatModel_valid {source : SchemaSource} {root : Path} {job : Job rt source root}
    {start : State} {docs : List (Kind × Mapping)} {disk : Disk} {threatModel : Mapping}
    (h : Wrote job start docs disk) (hmem : (.threatModel, threatModel) ∈ docs) :
    Contracts.threatModel.valid (.obj threatModel) = true := by
  obtain ⟨tick, before, granted⟩ := h.granted _ hmem
  have htype := Job.fits_artifactType (h.fits _ hmem) (by simp)
  exact valid_of_validateArtifact (by simp [schemaFiles, Kind.name]) htype granted.valid

/-- Every schema-valid threat model has a review, and that keeps to waivers in force
exactly where the threat model names such waivers only; a run that returns persists a
schema-valid threat model and the review of it. -/
theorem review_waives_in_force_iff (rt : Runtime) (waivers : List Mapping) :
    (∀ threatModel, Contracts.threatModel.valid (.obj threatModel) = true →
      ∀ featureId artifactId createdAt actor runId href, ∃ review,
        buildSecurityReview rt featureId threatModel artifactId createdAt actor runId href =
            .ok review ∧
          (WaivesInForce rt waivers createdAt threatModel review ↔
            NamesWaiversInForce rt waivers createdAt threatModel)) ∧
    ∀ (source : SchemaSource) (root : Path) (job : Job rt source root) (start : State),
      (job.result start).isSome = true → ∃ threatModel review,
        writeCall threatModel ∈ (job.final start).tools.handled ∧
        writeCall review ∈ (job.final start).tools.handled ∧
        Contracts.threatModel.valid (.obj threatModel) = true ∧
        Compiled job start threatModel review ∧
        (WaivesInForce rt waivers job.createdAt threatModel review ↔
          NamesWaiversInForce rt waivers job.createdAt threatModel) := by
  have hiff : ∀ threatModel, Contracts.threatModel.valid (.obj threatModel) = true →
      ∀ featureId artifactId createdAt actor runId href review,
        buildSecurityReview rt featureId threatModel artifactId createdAt actor runId href =
            .ok review →
          (WaivesInForce rt waivers createdAt threatModel review ↔
            NamesWaiversInForce rt waivers createdAt threatModel) := by
    intro threatModel hvalid featureId artifactId createdAt actor runId href review hreview
    obtain ⟨risks, hrisks, hmembers⟩ := riskMembers_of_valid hvalid
    obtain ⟨dispositions, hreviewed⟩ := reviewed_of_ok hrisks hreview
    apply waivesInForce_iff _ hreviewed
    rw [itemsAt, hrisks]
    exact hmembers
  refine ⟨?_, ?_⟩
  · intro threatModel hvalid featureId artifactId createdAt actor runId href
    obtain ⟨review, hreview⟩ :=
      buildSecurityReview_ok rt hvalid featureId artifactId createdAt actor runId href
    exact ⟨review, hreview, hiff _ hvalid _ _ _ _ _ _ _ hreview⟩
  · intro source root job start hreturns
    obtain ⟨result, hresult⟩ := Option.isSome_iff_exists.mp hreturns
    obtain ⟨docs, hfinished⟩ := Job.finished_of_result hresult
    obtain ⟨threatModel, review, hmodel, hreview, hcompiled⟩ := hfinished.compiled
    have hvalid := threatModel_valid hfinished.wrote hmodel
    refine ⟨threatModel, review, ?_, ?_, hvalid, hcompiled, hiff _ hvalid _ _ _ _ _ _ _ hcompiled⟩
    · rw [hfinished.handled]
      exact List.mem_append_right _ (List.mem_map_of_mem hmodel)
    · rw [hfinished.handled]
      exact List.mem_append_right _ (List.mem_map_of_mem hreview)

/-- The sample run waives a medium risk, and there is no waiver at all. -/
theorem exportJob_waives_without_waiver : ∃ threatModel review,
    writeCall review ∈ (exportJob.final sampleState).tools.handled ∧
    Contracts.threatModel.valid (.obj threatModel) = true ∧
    Compiled exportJob sampleState threatModel review ∧
    ¬ WaivesInForce sampleRuntime [] exportJob.createdAt threatModel review := by
  obtain ⟨result, hresult, hwaived⟩ := exportJob_returns
  obtain ⟨docs, hfinished⟩ := Job.finished_of_result hresult
  obtain ⟨threatModel, review, hmodel, hreview, hcompiled⟩ := hfinished.compiled
  have hhandled : writeCall review ∈ (exportJob.final sampleState).tools.handled := by
    rw [hfinished.handled]
    exact List.mem_append_right _ (List.mem_map_of_mem hreview)
  refine ⟨threatModel, review, hhandled, threatModel_valid hfinished.wrote hmodel, hcompiled, ?_⟩
  have htype := Job.fits_artifactType (hfinished.wrote.fits _ hreview) (by simp)
  have hrisks : waivedRisks review = [py "RISK-0001"] := by
    apply hwaived _ hhandled
    change (Assoc.get review (py "artifact_type")).bind Json.str? = _
    rw [htype]
    rfl
  intro h
  have hrisk : py "RISK-0001" ∈ waivedRisks review := hrisks ▸ List.mem_cons_self
  obtain ⟨entry, hentry, hnamed⟩ := List.mem_filterMap.mp hrisk
  split at hnamed
  · rename_i hdisposition
    obtain ⟨riskId, -, waiver, hwaiver, -⟩ := h.entries entry hentry hdisposition
    cases hwaiver
  · cases hnamed

end SecureSdlc.Orchestrator

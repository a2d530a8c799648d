import SecureSdlc.Metatheory.StageFrames
import SecureSdlc.Metatheory.TraceSelection

/-!
The links of a stage's document, as the trace reads them: one to the document of the
stage before it, by its href, and none from the idea.
-/

namespace SecureSdlc.Orchestrator

open Core Skills Tools Artifacts Contracts Traceability

variable {rt : Runtime} {source : SchemaSource} {root : Path}

/-- The kind of the document that a stage's document links. -/
def Kind.target : Kind → Option Kind
  | .idea => none
  | .specification => some .idea
  | .threatModel => some .specification
  | .plan => some .threatModel
  | .task => some .plan
  | .securityReview => some .threatModel
  | .review => some .task

theorem mem_stageOrder (kind : Kind) : kind ∈ stageOrder := by
  cases kind <;> decide

theorem links_not_opened (kind : Kind) : py "links" ∉ kind.opened := by
  cases kind <;> decide

theorem featureId_not_opened (kind : Kind) : py "feature_id" ∉ kind.opened := by
  cases kind <;> decide

theorem chainOrder_names : chainOrder =
    [Kind.idea, .specification, .threatModel, .plan, .task, .review, .securityReview].map
      Kind.name := rfl

namespace Job

variable {job : Job rt source root} {start : State} {kind target : Kind} {document : Mapping}

/-- The links of a stage's document are the one to its target. -/
theorem fits_links (h : (job.frame start kind).Fits document)
    (htarget : kind.target = some target) :
    ∃ rel, Assoc.get document (py "links") =
      some (.arr [Link.entry ⟨rel, job.hrefOf start target⟩]) := by
  rw [h.get (links_not_opened kind)]
  cases kind with
  | idea => cases htarget
  | _ =>
      cases htarget
      exact ⟨_, rfl⟩

theorem localLinkTargets_fits (h : (job.frame start kind).Fits document)
    (htarget : kind.target = some target) :
    localLinkTargets rt document = .ok [job.hrefOf start target] := by
  obtain ⟨rel, hlinks⟩ := fits_links h htarget
  have hjson : PyStr.endsWith (job.hrefOf start target) (py ".json") = true :=
    decide_eq_true (List.suffix_append _ _)
  have hget : Assoc.get [(py "rel", Json.str rel), (py "href", .str (job.hrefOf start target))]
      (py "href") = some (.str (job.hrefOf start target)) := rfl
  simp only [localLinkTargets, iterateMember, hlinks, Json.iterate, List.mapM_cons, List.mapM_nil,
    Link.entry, Json.getMember, bind, Except.bind, pure, Except.pure, hget, Option.getD_some,
    Json.text_str, List.filter_cons, hjson, if_true, List.filter_nil]

theorem localLinkTargets_idea (hvalid : Contracts.idea.valid (.obj job.idea) = true)
    (h : (job.frame start .idea).Fits document) : localLinkTargets rt document = .ok [] := by
  have hlinks : Assoc.get document (py "links") = none := by
    rw [fits_idea h]
    exact Schema.valid_unknown hvalid rfl
  simp only [localLinkTargets, iterateMember, hlinks, bind, Except.bind, List.mapM_nil, pure,
    Except.pure, List.filter_nil]

/-- The type of a document is the name of its kind. -/
theorem typeOf_fits (hvalid : Contracts.idea.valid (.obj job.idea) = true)
    (h : (job.frame start kind).Fits document) :
    Assoc.get document (py "artifact_type") = some (.str kind.name) := by
  cases kind with
  | idea =>
      rw [fits_idea h]
      have htype : py "artifact_type" ∈
          [py "schema_version", py "artifact_type", py "id", py "created_at"] := by decide
      obtain ⟨value, hvalue, hconst⟩ := Schema.valid_member hvalid
        (List.mem_append_left _ htype) rfl
      obtain ⟨text, rfl, htext⟩ := (Schema.valid_string_iff _ value).mp hconst
      obtain rfl : text = py "idea" := of_decide_eq_true htext
      exact hvalue
  | _ => exact fits_artifactType h (by decide)

end Job

theorem realPath_parts (text : PyStr) : RealPath (Path.parts text) := by
  intro c hc
  obtain ⟨hsplit, hkept⟩ := List.mem_filter.mp hc
  exact ⟨PyStr.sep_not_mem_of_mem_split hsplit, by simpa using hkept⟩

theorem realPath_append {p q : Path} (hp : RealPath p) (hq : RealPath q) : RealPath (p ++ q) :=
  fun c hc => (List.mem_append.mp hc).elim (hp c) (hq c)

theorem storePath_of_no_slash {id : PyStr} (h : Path.slash ∉ id) :
    storePath root id = root ++ [ArtifactStore.fileName id] := by
  simp only [storePath, fileName_relative h, fileName_parts h, Bool.false_eq_true, if_false]

end SecureSdlc.Orchestrator

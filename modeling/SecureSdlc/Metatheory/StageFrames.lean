import SecureSdlc.Metatheory.ArtifactWrites
import SecureSdlc.Pipeline.Orchestrator

/-!
What the platform fixes of the documents that a pipeline run persists. A stage has a
frame that is known before any model is asked: the members of its document that the
platform writes, with the keys of those that follow the model's output. Values that a
model may choose are not looked at.
-/

namespace SecureSdlc.Skills

open Core

theorem addLinks_of_absent {rt : Runtime} {document : Mapping}
    (h : Assoc.get document (py "links") = none) (link : Link) :
    addLinks rt document [link] = .ok (document ++ [(py "links", .arr [link.entry])]) := by
  simp only [addLinks, iterateMember, h, List.mapM_nil, bind, Except.bind, pure, Except.pure,
    Assoc.set_of_get_none _ h]
  rfl

end SecureSdlc.Skills

namespace SecureSdlc.Orchestrator

open Core Runner Skills Tools Artifacts Contracts

/-- The members of a document that are fixed, around the keys of those that are open. -/
structure Frame where
  front : Mapping
  opened : List PyStr
  back : Mapping

namespace Frame

def Fits (frame : Frame) (document : Mapping) : Prop :=
  ∃ content : Mapping, content.map Prod.fst = frame.opened ∧
    document = frame.front ++ content ++ frame.back

variable {frame : Frame} {document document' : Mapping}

/-- A fixed member is what the frame says. -/
theorem Fits.get (h : frame.Fits document) {key : PyStr} (hkey : key ∉ frame.opened) :
    Assoc.get document key = (Assoc.get frame.front key).or (Assoc.get frame.back key) := by
  obtain ⟨content, hkeys, rfl⟩ := h
  have hnone : Assoc.get content key = none := Assoc.get_of_not_mem (hkeys ▸ hkey)
  rw [Assoc.get_append, Assoc.get_append, hnone, Option.or_none]

theorem Fits.keys (h : frame.Fits document) (h' : frame.Fits document') :
    document.map Prod.fst = document'.map Prod.fst := by
  obtain ⟨content, hkeys, rfl⟩ := h
  obtain ⟨content', hkeys', rfl⟩ := h'
  simp only [List.map_append, hkeys, hkeys']

end Frame

/-- What a run is made with, but for the state it starts in: a pipeline with the role
skills over the store at `root`, and the arguments of `run`. -/
structure Job (rt : Runtime) (source : SchemaSource) (root : Path) where
  pipeline : Pipeline
  idea : Mapping
  createdAt : PyStr
  source_eq : pipeline.source = source
  root_eq : pipeline.storeRoot = root
  skills_eq : pipeline.skills = defaultRegistry
  tool_eq : ∀ tick, (pipeline.moments tick).executor.tools.get (py "write_artifact") =
    .ok (writeArtifactTool rt source root)

/-- The stages, in the order of a run. -/
def stageOrder : List Kind :=
  [.idea, .specification, .threatModel, .plan, .task, .securityReview, .review]

/-- How many calls of its collaborators a run has made when it asks for this document. -/
def Kind.turn : Kind → Nat
  | .specification => 3
  | .threatModel => 7
  | .plan => 11
  | .task => 15
  | .review => 21
  | .idea | .securityReview => 0

/-- The keys that a stage's document has between those that the platform writes. -/
def Kind.opened : Kind → List PyStr
  | .idea => []
  | .specification =>
      [py "actor_goal", py "scope_boundary", py "data_model", py "api_contract",
        py "state_lifecycle", py "dependencies", py "non_goals", py "acceptance_criteria"]
  | .threatModel => [py "data_flows", py "risks"]
  | .plan => [py "slices"]
  | .task =>
      [py "title", py "requirement_ids", py "control_ids", py "contract_changes",
        py "code_changes", py "tests"]
  | .securityReview => [py "verdict", py "risk_dispositions"]
  | .review => [py "subject_digest", py "verdict", py "findings"]

theorem id_not_opened (kind : Kind) : py "id" ∉ kind.opened := by
  cases kind <;> decide

theorem artifactType_not_opened (kind : Kind) : py "artifact_type" ∉ kind.opened := by
  cases kind <;> decide

namespace Job

variable {rt : Runtime} {source : SchemaSource} {root : Path} (job : Job rt source root)
  (start : State)

/-- The id of a stage's document: the idea's own, or the next one of the kind. -/
def idOf : Kind → PyStr
  | .idea => documentId job.idea
  | kind => numbered kind.idPrefix ((Assoc.get start.counters kind).getD 0 + 1)

/-- The actor on whose behalf a stage's document is made. -/
def actor : Kind → Mapping
  | .securityReview => Pipeline.securityReviewer
  | kind =>
      (((job.pipeline.moments (start.tick + kind.turn)).capabilities.get
        job.pipeline.runId).map Run.actor).getD []

def hrefOf (kind : Kind) : PyStr :=
  job.pipeline.hrefPrefix ++ py "/" ++ job.idOf start kind ++ py ".json"

def head (kind : Kind) : Mapping :=
  [(py "schema_version", .str (py "1.0.0")), (py "artifact_type", .str kind.name),
    (py "id", .str (job.idOf start kind)), (py "created_at", .str job.createdAt),
    (py "created_by", .obj (job.actor start kind)), (py "run_id", .str job.pipeline.runId)]

def feature : PyStr × Json := (py "feature_id", .str job.pipeline.featureId)

/-- The one link of a stage's document. -/
def link (rel : String) (target : Kind) : PyStr × Json :=
  (py "links", .arr [Link.entry ⟨py rel, job.hrefOf start target⟩])

/-- The id of another stage's document, as a member. -/
def reference (key : String) (target : Kind) : PyStr × Json :=
  (py key, .str (job.idOf start target))

def status (text : String) : PyStr × Json := (py "status", .str (py text))

/-- The members that the platform writes first. -/
def front : Kind → Mapping
  | .idea => job.idea
  | .specification => job.head start .specification ++ [job.feature, status "draft"]
  | .threatModel =>
      job.head start .threatModel ++
        [job.feature, status "draft", (py "method", .str (py "STRIDE"))]
  | .plan => job.head start .plan ++ [job.feature, status "draft"]
  | .task =>
      job.head start .task ++ [job.feature, job.reference start "plan_id" .plan, status "todo"]
  | .securityReview =>
      job.head start .securityReview ++ [job.link start "threat" .threatModel, job.feature,
        job.reference start "threat_model_id" .threatModel]
  | .review => job.head start .review ++ [job.reference start "task_id" .task]

/-- The members that the platform writes last. -/
def back : Kind → Mapping
  | .specification => [job.link start "requirement" .idea]
  | .threatModel => [job.link start "requirement" .specification]
  | .plan => [job.link start "threat" .threatModel]
  | .task => [job.link start "plan" .plan]
  | .review => [job.link start "task" .task]
  | .idea | .securityReview => []

/-- The frame of a stage's document. -/
def frame (kind : Kind) : Frame := ⟨job.front start kind, kind.opened, job.back start kind⟩

variable {job start} {kind : Kind} {document : Mapping}

theorem fits_id (h : (job.frame start kind).Fits document) (hkind : kind ≠ .idea) :
    Assoc.get document (py "id") = some (.str (job.idOf start kind)) := by
  rw [h.get (id_not_opened kind)]
  cases kind with
  | idea => exact absurd rfl hkind
  | _ => rfl

theorem fits_artifactType (h : (job.frame start kind).Fits document) (hkind : kind ≠ .idea) :
    Assoc.get document (py "artifact_type") = some (.str kind.name) := by
  rw [h.get (artifactType_not_opened kind)]
  cases kind with
  | idea => exact absurd rfl hkind
  | _ => rfl

theorem fits_documentId (h : (job.frame start kind).Fits document) :
    documentId document = job.idOf start kind := by
  cases kind with
  | idea =>
      obtain ⟨content, hkeys, rfl⟩ := h
      rw [List.map_eq_nil_iff.mp hkeys]
      simp [frame, front, back, idOf]
  | _ => exact documentId_of_get (fits_id h (by decide))

theorem fits_idea (h : (job.frame start .idea).Fits document) : document = job.idea := by
  obtain ⟨content, hkeys, rfl⟩ := h
  rw [List.map_eq_nil_iff.mp hkeys]
  simp [frame, front, back]

theorem actor_of_run (hreview : kind ≠ .securityReview) {run : Run}
    (h : (job.pipeline.moments (start.tick + kind.turn)).capabilities.get job.pipeline.runId =
      some run) : job.actor start kind = run.actor := by
  rw [actor, h]
  · rfl
  · exact hreview

/-- The envelope in which a skill assembles a stage's document. -/
def envelope (job : Job rt source root) (start : State) (kind : Kind) (bindings : Mapping) :
    Mapping :=
  [(py "artifact_id", .str (job.idOf start kind)), (py "created_at", .str job.createdAt),
    (py "actor", .obj (job.actor start kind)), (py "run_id", .str job.pipeline.runId),
    (py "bindings", .obj bindings)]

/-- The document has everything of its frame but the last members. -/
def Assembled (job : Job rt source root) (start : State) (kind : Kind) (document : Mapping) :
    Prop :=
  ∃ content : Mapping, content.map Prod.fst = kind.opened ∧
    document = job.front start kind ++ content

section Skills

variable {content : Mapping}

theorem assembleSpecification_assembled
    (h : assembleSpecification content (job.envelope start .specification [job.feature]) =
      .ok document) : job.Assembled start .specification document := by
  cases h
  exact ⟨_, rfl, rfl⟩

theorem assembleThreatModel_assembled
    (h : assembleThreatModel content (job.envelope start .threatModel [job.feature]) =
      .ok document) : job.Assembled start .threatModel document := by
  cases h
  exact ⟨_, rfl, rfl⟩

theorem assemblePlan_assembled
    (h : assemblePlan content (job.envelope start .plan [job.feature]) = .ok document) :
    job.Assembled start .plan document := by
  cases h
  exact ⟨_, rfl, rfl⟩

theorem assembleTask_assembled
    (h : assembleTask content (job.envelope start .task
      [job.feature, job.reference start "plan_id" .plan]) = .ok document) :
    job.Assembled start .task document := by
  cases h
  exact ⟨_, rfl, rfl⟩

theorem assembleReview_assembled {digest : PyStr}
    (h : assembleReview content (job.envelope start .review
      [job.feature, job.reference start "task_id" .task, (py "subject_digest", .str digest)]) =
      .ok document) : job.Assembled start .review document := by
  cases h
  exact ⟨(py "subject_digest", .str digest) :: _, rfl, rfl⟩

end Skills

theorem get_links_of_assembled (h : job.Assembled start kind document) (hidea : kind ≠ .idea)
    (hreview : kind ≠ .securityReview) : Assoc.get document (py "links") = none := by
  obtain ⟨content, hkeys, rfl⟩ := h
  have hcontent : Assoc.get content (py "links") = none := by
    apply Assoc.get_of_not_mem
    rw [hkeys]
    cases kind <;> decide
  rw [Assoc.get_append, hcontent, Option.or_none]
  cases kind with
  | idea => exact absurd rfl hidea
  | securityReview => exact absurd rfl hreview
  | _ => rfl

/-- With its link attached, an assembled document fits its frame. -/
theorem fits_of_addLinks {rel : String} {target : Kind} {linked : Mapping}
    (hback : job.back start kind = [job.link start rel target])
    (h : job.Assembled start kind document)
    (hlinked : addLinks rt document [⟨py rel, job.hrefOf start target⟩] = .ok linked) :
    (job.frame start kind).Fits linked := by
  have hidea : kind ≠ .idea := by
    rintro rfl
    cases hback
  have hreview : kind ≠ .securityReview := by
    rintro rfl
    cases hback
  rw [addLinks_of_absent (get_links_of_assembled h hidea hreview)] at hlinked
  cases hlinked
  obtain ⟨content, hkeys, rfl⟩ := h
  refine ⟨content, hkeys, ?_⟩
  rw [frame, hback]
  rfl

theorem buildSecurityReview_fits {threatModel review : Mapping}
    (hmodel : (job.frame start .threatModel).Fits threatModel)
    (h : buildSecurityReview rt job.pipeline.featureId threatModel
      (job.idOf start .securityReview) job.createdAt Pipeline.securityReviewer
      job.pipeline.runId (job.hrefOf start .threatModel) = .ok review) :
    (job.frame start .securityReview).Fits review := by
  obtain ⟨risks, -, h⟩ := exists_ok_of_bind h
  obtain ⟨dispositions, -, h⟩ := exists_ok_of_bind h
  rw [fits_id hmodel (by decide), Option.getD_some, Json.text_str] at h
  cases h
  exact ⟨[(py "verdict", _), (py "risk_dispositions", _)], rfl, rfl⟩

/-- The href that a run makes of a document it has persisted. -/
theorem hrefOf_of_fits (h : (job.frame start kind).Fits document) (hkind : kind ≠ .idea)
    {href : PyStr} (hhref : job.pipeline.hrefOf rt document = .ok href) :
    href = job.hrefOf start kind := by
  simp only [Pipeline.hrefOf, item, fits_id h hkind] at hhref
  cases hhref
  rfl

theorem item_of_fits (h : (job.frame start kind).Fits document) (hkind : kind ≠ .idea)
    {id : Json} (hid : item document (py "id") = .ok id) : id = .str (job.idOf start kind) := by
  rw [item, fits_id h hkind] at hid
  cases hid
  rfl

end Job

end SecureSdlc.Orchestrator

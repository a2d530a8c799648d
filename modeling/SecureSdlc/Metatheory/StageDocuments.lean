import SecureSdlc.Metatheory.AuditSchemas
import SecureSdlc.Metatheory.SecurityReviews

/-!
The documents of the stages against their schemas. A skill writes an artifact around the
members that it takes from the model's answer; the artifact is valid exactly when these
are, one by one, for the members that the platform writes always are.
-/

namespace SecureSdlc.Orchestrator

open Core Core.Schema Skills Tools Artifacts Contracts Traceability

variable {rt : Runtime} {source : SchemaSource} {root : Path}

namespace Kind

def schema : Kind → Schema
  | .idea => Contracts.idea
  | .specification => Contracts.specification
  | .threatModel => Contracts.threatModel
  | .plan => Contracts.plan
  | .task => Contracts.task
  | .review => Contracts.review
  | .securityReview => Contracts.securityReview

theorem schema_mem (kind : Kind) : (kind.name, kind.schema) ∈ schemaFiles := by
  cases kind <;> simp [schemaFiles, name, schema]

def required (kind : Kind) : List PyStr :=
  match kind.schema with
  | .object _ required _ => required
  | _ => []

def properties (kind : Kind) : List (PyStr × Schema) :=
  match kind.schema with
  | .object _ _ properties => properties
  | _ => []

theorem schema_eq (kind : Kind) : kind.schema = .object true kind.required kind.properties := by
  cases kind <;> rfl

theorem plain_schema (kind : Kind) : plainWithin 4 kind.schema = true := by
  cases kind <;> decide

variable {kind : Kind} {document : Mapping}

theorem plain_of_sound (h : Sound kind.schema (.obj document)) : Plain 4 (.obj document) :=
  plain_of_valid kind.plain_schema h.valid h.distinct

theorem id_of_sound (h : Sound kind.schema (.obj document)) :
    ∃ id, Assoc.get document (py "id") = some (.str id) ∧ isIdentifier id = true := by
  have hvalid := h.valid
  cases kind <;> exact valid_artifact_id hvalid

theorem artifactType_of_sound (h : Sound kind.schema (.obj document)) :
    Assoc.get document (py "artifact_type") = some (.str kind.name) := by
  have htype : ∃ v, Assoc.get document (py "artifact_type") = some v ∧
      Sound (.string (.const kind.name)) v := by
    rw [schema_eq] at h
    cases kind <;> exact h.member (by decide) rfl
  obtain ⟨v, hv, hsound⟩ := htype
  obtain ⟨text, rfl, htext⟩ := (valid_string_iff _ v).mp hsound.valid
  rw [hv, of_decide_eq_true htext]

/-- The hrefs of a sound document can be read. -/
theorem localLinkTargets_of_sound (h : Sound kind.schema (.obj document)) :
    ∃ targets, localLinkTargets rt document = .ok targets := by
  have hlinks : ∀ v, Assoc.get document (py "links") = some v → Sound (listOf link) v := by
    intro v hv
    cases kind with
    | idea =>
        rw [valid_unknown h.valid rfl] at hv
        cases hv
    | _ => exact h.present rfl hv
  rw [localLinkTargets, iterateMember]
  cases hget : Assoc.get document (py "links") with
  | none => exact ⟨_, rfl⟩
  | some v =>
      have hsound := hlinks v hget
      obtain ⟨items, rfl, -, -⟩ := valid_array hsound.valid
      obtain ⟨hrefs, hhrefs⟩ : ∃ hrefs, (items.mapM fun link => do
          let href ← link.getMember (py "href")
          (href.getD (.str [])).text rt) = .ok hrefs := by
        apply exists_mapM_ok
        intro item hitem
        have hlink := (sound_arr.mp hsound).2 item hitem
        obtain ⟨fields, rfl, -⟩ := valid_object hlink.valid
        obtain ⟨href, hhref, hvalid⟩ := hlink.member (k := py "href") (by decide) rfl
        obtain ⟨text, rfl, -⟩ := (valid_string_iff _ href).mp hvalid.valid
        exact ⟨text, by simp only [Json.getMember, hhref]; rfl⟩
      simp only [Json.iterate, bind, Except.bind]
      simp only [bind, Except.bind] at hhrefs
      rw [hhrefs]
      exact ⟨_, rfl⟩

/-- The members that a skill takes from the model's answer. -/
def chosen (content : Mapping) : Kind → Mapping
  | .specification =>
      [contentField content "actor_goal" (.obj [(py "actors", .arr []), (py "goal", .str [])]),
        contentField content "scope_boundary"
          (.obj [(py "in_scope", .arr []), (py "out_of_scope", .arr [])]),
        contentField content "data_model" (.arr []),
        contentField content "api_contract" (.arr []),
        contentField content "state_lifecycle" (.arr []),
        contentField content "dependencies" (.arr []),
        contentField content "non_goals" (.arr []),
        contentField content "acceptance_criteria" (.arr [])]
  | .threatModel =>
      [contentField content "data_flows" (.arr []), contentField content "risks" (.arr [])]
  | .plan => [contentField content "slices" (.arr [])]
  | .task =>
      [contentField content "title" (.str []), contentField content "requirement_ids" (.arr []),
        contentField content "control_ids" (.arr []),
        contentField content "contract_changes" (.arr []),
        contentField content "code_changes" (.arr []), contentField content "tests" (.arr [])]
  | .review =>
      [contentField content "verdict" (.str (py "changes_requested")),
        contentField content "findings" (.arr [])]
  | .idea | .securityReview => []

def skill : Kind → Option Skill
  | .specification => some grill
  | .threatModel => some grillSecurity
  | .plan => some planner
  | .task => some taskWriter
  | .review => some reviewer
  | .idea | .securityReview => none

/-- The keys of an assembled document, in their order. -/
def keys (kind : Kind) : List PyStr :=
  let head := [py "schema_version", py "artifact_type", py "id", py "created_at",
    py "created_by", py "run_id"]
  match kind with
  | .specification | .plan => head ++ [py "feature_id", py "status"] ++ kind.opened
  | .threatModel => head ++ [py "feature_id", py "status", py "method"] ++ kind.opened
  | .task => head ++ [py "feature_id", py "plan_id", py "status"] ++ kind.opened
  | .review => head ++ [py "task_id"] ++ kind.opened
  | .idea | .securityReview => []

theorem keyed (kind : Kind) (h : kind.skill.isSome = true) :
    Keyed kind.required (kind.properties.map Prod.fst) kind.keys ∧
      Keyed kind.required (kind.properties.map Prod.fst) (kind.keys ++ [py "links"]) := by
  cases kind with
  | idea | securityReview => cases h
  | _ => exact ⟨by decide, by decide⟩

/-- A member that a stage's schema knows, with a value that the schema admits. -/
def Admits (kind : Kind) (member : PyStr × Json) : Prop :=
  ∃ s, Assoc.get kind.properties member.1 = some s ∧ s.valid member.2 = true

end Kind

namespace Job

variable (job : Job rt source root) (start : State)

/-- The bindings of a skill's call; the review's come with the digest of the task. -/
def bindings (digest : PyStr) : Kind → Mapping
  | .task => [job.feature, job.reference start "plan_id" .plan]
  | .review =>
      [job.feature, job.reference start "task_id" .task, (py "subject_digest", .str digest)]
  | _ => [job.feature]

/-- The digest that a review opens with. -/
def subject (digest : PyStr) : Kind → Mapping
  | .review => [(py "subject_digest", .str digest)]
  | _ => []

/-- What a skill assembles from an answer, and with its link what a run persists. -/
def assembled (digest : PyStr) (content : Mapping) (kind : Kind) : Mapping :=
  job.front start kind ++ (subject digest kind ++ kind.chosen content)

def document (digest : PyStr) (content : Mapping) (kind : Kind) : Mapping :=
  job.assembled start digest content kind ++ job.back start kind

theorem assemble_eq {kind : Kind} {skill : Skill} (hskill : kind.skill = some skill)
    (digest : PyStr) (content : Mapping) :
    skill.assemble content (job.envelope start kind (job.bindings start digest kind)) =
      .ok (job.assembled start digest content kind) := by
  cases kind <;> cases hskill <;> rfl

/-- What the platform writes into the documents of a run, as far as the schemas ask. -/
structure Platform : Prop where
  feature : Sound identifier (.str job.pipeline.featureId)
  run : Sound Contracts.runId (.str job.pipeline.runId)
  createdAt : Sound isoDateTime (.str job.createdAt)
  actor : ∀ kind, Sound Contracts.actor (.obj (job.actor start kind))
  ids : ∀ kind, Sound identifier (.str (job.idOf start kind))
  hrefs : ∀ kind, Sound nonEmpty (.str (job.hrefOf start kind))

variable {job start} {kind : Kind}

theorem document_fits (hskill : kind.skill.isSome = true) (digest : PyStr) (content : Mapping) :
    (job.frame start kind).Fits (job.document start digest content kind) := by
  refine ⟨subject digest kind ++ kind.chosen content, ?_, rfl⟩
  cases kind with
  | idea | securityReview => cases hskill
  | _ => rfl

section Members

variable (platform : job.Platform start)

include platform

theorem sound_head (hkind : kind ≠ .idea) :
    ∀ member ∈ job.head start kind, SoundMember kind.properties member := by
  have htype : Sound (.string (.const kind.name)) (.str kind.name) :=
    sound_str (decide_eq_true rfl) (by cases kind <;> decide)
  have hversion : Sound (exactly "1.0.0") (.str (py "1.0.0")) := sound_str rfl (by decide)
  simp only [head, List.forall_mem_cons, List.not_mem_nil, false_implies, implies_true, and_true]
  cases kind with
  | idea => exact absurd rfl hkind
  | _ =>
      exact ⟨⟨_, rfl, hversion⟩, ⟨_, rfl, htype⟩, ⟨_, rfl, platform.ids _⟩,
        ⟨_, rfl, platform.createdAt⟩, ⟨_, rfl, platform.actor _⟩, ⟨_, rfl, platform.run⟩⟩

/-- The link of a document is sound under every schema that knows links. -/
theorem sound_link_member
    (hlinks : Assoc.get kind.properties (py "links") = some (listOf Contracts.link))
    {rel : String} (hrel : py rel ∈ ["requirement", "threat", "control", "task", "code", "test",
      "review", "specification", "plan", "evidence", "policy-decision", "waiver", "pr",
      "commit"].map py) (target : Kind) :
    SoundMember kind.properties (job.link start rel target) := by
  refine ⟨_, hlinks, sound_arr.mpr ⟨Nat.zero_le _, fun v hv => ?_⟩⟩
  rw [List.mem_singleton.mp hv]
  exact sound_link hrel (platform.hrefs target)

/-- The members that the platform writes are sound, whatever the model answers. -/
theorem sound_front (hkind : kind ≠ .idea) :
    ∀ member ∈ job.front start kind, SoundMember kind.properties member := by
  have hhead := sound_head platform hkind
  have hfeature := platform.feature
  cases kind with
  | idea => exact absurd rfl hkind
  | specification | plan =>
      rw [front, List.forall_mem_append]
      refine ⟨hhead, ?_⟩
      simp only [List.forall_mem_cons, List.not_mem_nil, false_implies, implies_true, and_true]
      exact ⟨⟨_, rfl, hfeature⟩, ⟨_, rfl, sound_oneOf (by decide) (by decide)⟩⟩
  | threatModel =>
      rw [front, List.forall_mem_append]
      refine ⟨hhead, ?_⟩
      simp only [List.forall_mem_cons, List.not_mem_nil, false_implies, implies_true, and_true]
      exact ⟨⟨_, rfl, hfeature⟩, ⟨_, rfl, sound_oneOf (by decide) (by decide)⟩,
        ⟨_, rfl, sound_str rfl (by decide)⟩⟩
  | task =>
      rw [front, List.forall_mem_append]
      refine ⟨hhead, ?_⟩
      simp only [List.forall_mem_cons, List.not_mem_nil, false_implies, implies_true, and_true]
      exact ⟨⟨_, rfl, hfeature⟩, ⟨_, rfl, platform.ids .plan⟩,
        ⟨_, rfl, sound_oneOf (by decide) (by decide)⟩⟩
  | securityReview =>
      rw [front, List.forall_mem_append]
      refine ⟨hhead, ?_⟩
      simp only [List.forall_mem_cons, List.not_mem_nil, false_implies, implies_true, and_true]
      exact ⟨sound_link_member platform rfl (by decide) .threatModel, ⟨_, rfl, hfeature⟩,
        ⟨_, rfl, platform.ids .threatModel⟩⟩
  | review =>
      rw [front, List.forall_mem_append]
      refine ⟨hhead, ?_⟩
      simp only [List.forall_mem_cons, List.not_mem_nil, false_implies, implies_true, and_true]
      exact ⟨_, rfl, platform.ids .task⟩

theorem sound_back : ∀ member ∈ job.back start kind, SoundMember kind.properties member := by
  cases kind with
  | idea | securityReview => exact fun _ hmember => nomatch hmember
  | _ =>
      simp only [back, List.forall_mem_cons, List.not_mem_nil, false_implies, implies_true,
        and_true]
      exact sound_link_member platform rfl (by decide) _

end Members

section Assembled

variable (hskill : kind.skill.isSome = true) (digest : PyStr) (content : Mapping)

include hskill

theorem assembled_keys : (job.assembled start digest content kind).map Prod.fst = kind.keys := by
  cases kind with
  | idea | securityReview => cases hskill
  | _ => rfl

theorem document_keys :
    (job.document start digest content kind).map Prod.fst = kind.keys ++ [py "links"] := by
  rw [document, List.map_append, assembled_keys hskill]
  cases kind with
  | idea | securityReview => cases hskill
  | _ => rfl

/-- An assembled document is valid exactly when its schema admits what the model chose. -/
theorem assembled_valid_iff (platform : job.Platform start)
    (hdigest : kind = .review → isSha256 digest = true) :
    kind.schema.valid (.obj (job.assembled start digest content kind)) = true ↔
      ∀ member ∈ kind.chosen content, kind.Admits member := by
  obtain ⟨⟨hproperties, -, hkeys, hrequired⟩, -⟩ := kind.keyed hskill
  have hassembled : (job.assembled start digest content kind).map Prod.fst = kind.keys :=
    assembled_keys hskill digest content
  rw [← hassembled] at hkeys hrequired
  have hidea : kind ≠ .idea := by
    rintro rfl
    cases hskill
  have hsubject : ∀ member ∈ subject digest kind, kind.Admits member := by
    cases kind with
    | review =>
        intro member hmember
        rw [List.mem_singleton.mp hmember]
        exact ⟨_, rfl, hdigest rfl⟩
    | _ => exact fun _ hmember => nomatch hmember
  have hfront : ∀ member ∈ job.front start kind, kind.Admits member := by
    intro member hmember
    obtain ⟨s, hs, hsound⟩ := sound_front platform hidea member hmember
    exact ⟨s, hs, hsound.valid⟩
  rw [Kind.schema_eq, valid_closed_iff hproperties hkeys]
  constructor
  · rintro ⟨-, hmembers⟩ member hmember
    exact hmembers member (by simp [assembled, hmember])
  · intro hchosen
    refine ⟨hrequired, ?_⟩
    simp only [assembled, List.forall_mem_append]
    exact ⟨hfront, hsubject, hchosen⟩

/-- With its link, the document of sound choices is sound. -/
theorem document_sound (platform : job.Platform start)
    (hdigest : kind = .review → Sound sha256 (.str digest))
    (h : ∀ member ∈ kind.chosen content, SoundMember kind.properties member) :
    Sound kind.schema (.obj (job.document start digest content kind)) := by
  have hidea : kind ≠ .idea := by
    rintro rfl
    cases hskill
  have hsubject : ∀ member ∈ subject digest kind, SoundMember kind.properties member := by
    cases kind with
    | review =>
        intro member hmember
        rw [List.mem_singleton.mp hmember]
        exact ⟨_, rfl, hdigest rfl⟩
    | _ => exact fun _ hmember => nomatch hmember
  rw [Kind.schema_eq]
  refine sound_object _ (kind.keyed hskill).2 (document_keys hskill digest content) ?_
  simp only [document, assembled, List.forall_mem_append]
  exact ⟨⟨sound_front platform hidea, hsubject, h⟩, sound_back platform⟩

end Assembled

end Job

end SecureSdlc.Orchestrator

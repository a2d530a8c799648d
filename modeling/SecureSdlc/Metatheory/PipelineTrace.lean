import SecureSdlc.Metatheory.ArtifactRetention
import SecureSdlc.Metatheory.PipelineProgress

/-!
The trace of a run that returns. The orchestrator writes its links as text, from the
prefix it is given, and the trace reads paths back as `pathlib` spells them: the two
agree, and every returning run is traced completely, exactly when the prefix is
spelled as `pathlib` would.
-/

namespace SecureSdlc.Orchestrator

open Core Skills Tools Artifacts Contracts Traceability

variable {rt : Runtime} {source : SchemaSource} {root : Path}

/-- A text is taken apart in one way at its last separator. -/
theorem append_sep_inj {c : CodePoint} {a b s t : PyStr} (hs : c ∉ s) (ht : c ∉ t)
    (h : a ++ [c] ++ s = b ++ [c] ++ t) : a = b ∧ s = t := by
  have hcut : ∀ {a b s t : PyStr}, c ∉ s → ∀ mid, b = a ++ mid →
      [c] ++ s = mid ++ ([c] ++ t) → mid = [] := by
    intro a b s t hs mid _ heq
    cases mid with
    | nil => rfl
    | cons d mid =>
        rw [List.singleton_append, List.cons_append, List.cons.injEq] at heq
        exact absurd (heq.2 ▸ List.mem_append_right _ List.mem_cons_self) hs
  rw [List.append_assoc, List.append_assoc] at h
  rcases List.append_eq_append_iff.mp h with ⟨mid, hb, heq⟩ | ⟨mid, ha, heq⟩
  · obtain rfl := hcut hs mid hb heq
    simp_all
  · obtain rfl := hcut ht mid ha heq
    simp_all

/-- The prefix is relative, not empty, and spelled as `pathlib` spells it. -/
def NormalPrefix (text : PyStr) : Prop :=
  Path.parts text ≠ [] ∧ PyStr.join (py "/") (Path.parts text) = text

instance (text : PyStr) : Decidable (NormalPrefix text) :=
  inferInstanceAs (Decidable (_ ∧ _))

theorem parts_join {names : Path} (hne : names ≠ []) (hreal : RealPath names) :
    Path.parts (PyStr.join (py "/") names) = names := by
  have hsplit : PyStr.split (PyStr.join (py "/") names) Path.slash = names :=
    List.splitOn_intercalate _ (fun c hc => (hreal c hc).1) hne
  rw [Path.parts, hsplit, List.filter_eq_self]
  intro c hc
  simp [(hreal c hc).2]

theorem NormalPrefix.relative {text : PyStr} (h : NormalPrefix text) :
    Path.isAbsolute text = false := by
  obtain ⟨hne, hjoin⟩ := h
  obtain ⟨name, rest, hparts⟩ := List.exists_cons_of_ne_nil hne
  have hname : name ∈ Path.parts text := hparts ▸ List.mem_cons_self
  have hfront : name <+: text := by
    have hjoined := PyStr.join_front (py "/") [name] rest
    rw [List.singleton_append, ← hparts, hjoin] at hjoined
    simpa [PyStr.join] using hjoined
  rw [← Bool.not_eq_true, Path.isAbsolute, PyStr.startsWith, decide_eq_true_eq]
  intro hslash
  have hlength : [Path.slash].length ≤ name.length :=
    List.length_pos_iff.mpr (Path.parts_mem hname).1
  have hbegins := List.prefix_of_prefix_length_le hslash hfront hlength
  exact (realPath_parts text name hname).1 (hbegins.subset List.mem_cons_self)

/-- The store of the launch is where its prefix leads from the repository. -/
structure Placed (launch : Launch rt source root) : Prop where
  store : root = (if Path.isAbsolute launch.pipeline.hrefPrefix then []
    else launch.pipeline.repoRoot) ++ Path.parts launch.pipeline.hrefPrefix
  real : RealPath launch.pipeline.repoRoot

theorem Placed.realPath {launch : Launch rt source root} (h : Placed launch) : RealPath root := by
  rw [h.store]
  refine realPath_append ?_ (realPath_parts _)
  split
  · exact fun _ hc => nomatch hc
  · exact h.real

namespace Launch

variable (launch : Launch rt source root) (disk : Disk)

abbrev idFor (kind : Kind) : PyStr := launch.idOf (launch.start disk) kind

theorem idFor_mem (kind : Kind) : launch.idFor disk kind ∈ launch.ids := by
  rw [← launch.stageOrder_ids disk]
  exact List.mem_map_of_mem (mem_stageOrder kind)

def pathFor (kind : Kind) : Path := root ++ [ArtifactStore.fileName (launch.idFor disk kind)]

/-- The documents that a run of the launch has persisted, by their kinds. -/
structure Persisted (result : PipelineResult) (doc : Kind → Mapping) : Prop where
  fits : ∀ kind, (launch.frame (launch.start disk) kind).Fits (doc kind)
  artifacts : result.artifacts = stageOrder.map fun kind => (launch.idFor disk kind, doc kind)
  traced : traceFeature rt launch.pipeline.repoRoot launch.pipeline.featureId
    (stageOrder.map fun kind => (launch.pathFor disk kind, doc kind)) = .ok result.trace

variable {launch disk}

theorem idFor_inj (hfresh : launch.ideaId ∉ stageIds) {kind kind' : Kind}
    (h : launch.idFor disk kind = launch.idFor disk kind') : kind = kind' := by
  have hnodup : (stageOrder.map (launch.idFor disk)).Nodup := by
    rw [launch.stageOrder_ids disk]
    exact List.nodup_cons.mpr ⟨hfresh, by decide⟩
  exact List.inj_on_of_nodup_map hnodup (mem_stageOrder kind) (mem_stageOrder kind') h

theorem pathFor_inj (hfresh : launch.ideaId ∉ stageIds) {kind kind' : Kind}
    (h : launch.pathFor disk kind = launch.pathFor disk kind') : kind = kind' := by
  have hid : launch.idFor disk kind = launch.idFor disk kind' := by
    simpa [pathFor, ArtifactStore.fileName] using h
  exact idFor_inj hfresh hid

theorem unique_stages {κ : Type} [DecidableEq κ] {key : Kind → κ}
    (hinj : ∀ kind kind', key kind = key kind' → kind = kind') (doc : Kind → Mapping) :
    Assoc.Unique (stageOrder.map fun kind => (key kind, doc kind)) := by
  rw [Assoc.Unique, List.map_map]
  have horder : stageOrder.Nodup := by decide
  exact horder.map_on fun kind _ kind' _ => hinj kind kind'

/-- Stages that are assigned to distinct keys are all kept. -/
theorem foldl_set_stages {κ : Type} [DecidableEq κ] {key : Kind → κ}
    (hinj : ∀ kind kind', key kind = key kind' → kind = kind') (doc : Kind → Mapping) :
    stageOrder.foldl (fun m kind => Assoc.set m (key kind) (doc kind)) [] =
      stageOrder.map fun kind => (key kind, doc kind) := by
  have hfold : (stageOrder.map fun kind => (key kind, doc kind)).foldl
      (fun m entry => Assoc.set m entry.1 entry.2) [] = _ :=
    Assoc.foldl_set_of_unique (unique_stages hinj doc)
  rw [List.foldl_map] at hfold
  exact hfold

theorem persisted_of_result (hfresh : launch.ideaId ∉ stageIds) {result : PipelineResult}
    (h : launch.result disk = some result) : ∃ doc, Persisted launch disk result doc := by
  obtain ⟨docs, hfinished⟩ := Job.finished_of_result h
  have hunique : Assoc.Unique docs := by
    rw [Assoc.Unique, hfinished.order]
    decide
  have hdocs := Assoc.eq_map_get hunique ([] : Mapping)
  rw [hfinished.order] at hdocs
  obtain ⟨doc, rfl⟩ : ∃ doc : Kind → Mapping,
      docs = stageOrder.map fun kind => (kind, doc kind) := ⟨_, hdocs⟩
  have hfits : ∀ kind, (launch.frame (launch.start disk) kind).Fits (doc kind) := fun kind =>
    hfinished.wrote.fits (kind, doc kind) (List.mem_map_of_mem (mem_stageOrder kind))
  have hartifacts : result.artifacts =
      stageOrder.map fun kind => (launch.idFor disk kind, doc kind) := by
    rw [hfinished.artifacts, List.foldl_map, ← foldl_set_stages (fun _ _ => idFor_inj hfresh) doc]
    simp only [register, Job.fits_documentId (hfits _)]
    rfl
  refine ⟨doc, hfits, hartifacts, ?_⟩
  have hpath : ∀ kind, storePath root (launch.idFor disk kind) = launch.pathFor disk kind :=
    fun kind => storePath_of_no_slash (launch.slash_not_mem_ids _ (launch.idFor_mem disk kind))
  rw [← hfinished.traced, hartifacts, List.foldl_map,
    ← foldl_set_stages (fun _ _ => pathFor_inj hfresh) doc]
  simp only [hpath]

variable {result : PipelineResult} {doc : Kind → Mapping}

theorem slash_not_mem_fileName (kind : Kind) :
    Path.slash ∉ ArtifactStore.fileName (launch.idFor disk kind) :=
  fileName_no_slash (launch.slash_not_mem_ids _ (launch.idFor_mem disk kind))

theorem pathFor_real (hplaced : Placed launch) (kind : Kind) :
    RealPath (launch.pathFor disk kind) := by
  refine realPath_append hplaced.realPath fun c hc => ?_
  rw [List.mem_singleton.mp hc]
  exact ⟨slash_not_mem_fileName kind, skipped_fileName _⟩

/-- The index that the run traces. -/
def catalog (hplaced : Placed launch) (hfresh : launch.ideaId ∉ stageIds) (disk : Disk)
    (doc : Kind → Mapping) : Catalog where
  entries := stageOrder.map fun kind => (launch.pathFor disk kind, doc kind)
  unique := unique_stages (fun _ _ => pathFor_inj hfresh) doc
  real := by
    intro entry hentry
    obtain ⟨kind, -, rfl⟩ := List.mem_map.mp hentry
    exact pathFor_real hplaced kind

theorem hrefOf_eq (kind : Kind) : launch.hrefOf (launch.start disk) kind =
    launch.pipeline.hrefPrefix ++ [Path.slash] ++
      ArtifactStore.fileName (launch.idFor disk kind) := by
  rw [Job.hrefOf, ArtifactStore.fileName, List.append_assoc _ (launch.idFor disk kind)]
  rfl

/-- Under a prefix that `pathlib` spells alike, the links are the paths. -/
theorem posixOf_pathFor (hplaced : Placed launch)
    (hnormal : NormalPrefix launch.pipeline.hrefPrefix) (kind : Kind) :
    launch.pipeline.repoRoot <+: launch.pathFor disk kind ∧
      posixOf launch.pipeline.repoRoot (launch.pathFor disk kind) =
        launch.hrefOf (launch.start disk) kind := by
  have hpath : launch.pathFor disk kind = launch.pipeline.repoRoot ++
      (Path.parts launch.pipeline.hrefPrefix ++
        [ArtifactStore.fileName (launch.idFor disk kind)]) := by
    refine (congrArg (· ++ _) hplaced.store).trans ?_
    rw [hnormal.relative, if_neg Bool.false_ne_true, List.append_assoc]
  rw [hpath, hrefOf_eq]
  refine ⟨List.prefix_append _ _, ?_⟩
  rw [posixOf_append (by simp), PyStr.join_concat _ _ _ hnormal.1, hnormal.2]
  rfl

/-- No other prefix makes a link a path. -/
theorem normal_of_posixOf (hplaced : Placed launch) {kind kind' : Kind}
    (hbelow : launch.pipeline.repoRoot <+: launch.pathFor disk kind')
    (h : posixOf launch.pipeline.repoRoot (launch.pathFor disk kind') =
      launch.hrefOf (launch.start disk) kind) : NormalPrefix launch.pipeline.hrefPrefix := by
  have hreal : RealPath (launch.pathFor disk kind') := pathFor_real hplaced kind'
  obtain ⟨rest, hrest⟩ := hbelow
  rw [← hrest] at h hreal
  rw [hrefOf_eq] at h
  have hslash :
      Path.slash ∈ posixOf launch.pipeline.repoRoot (launch.pipeline.repoRoot ++ rest) := by
    rw [h]
    simp
  rcases List.eq_nil_or_concat rest with rfl | ⟨names, last, rfl⟩
  · rw [List.append_nil, posixOf_self] at hslash
    exact absurd hslash (by decide)
  · have hnames : RealPath names := fun c hc => hreal c (by simp [hc])
    have hlast := (hreal last (by simp)).1
    rw [List.concat_eq_append, posixOf_append (by simp)] at h hslash
    have hne : names ≠ [] := by
      rintro rfl
      exact hlast (by simpa [PyStr.join] using hslash)
    rw [PyStr.join_concat _ _ _ hne] at h
    obtain ⟨hfront, -⟩ := append_sep_inj hlast (launch.slash_not_mem_fileName kind) h
    rw [NormalPrefix, ← hfront, parts_join hne hnames]
    exact ⟨hne, rfl⟩

section Trace

variable (hplaced : Placed launch) (hfresh : launch.ideaId ∉ stageIds)

theorem mem_catalog {p : Path} {document : Mapping} :
    (p, document) ∈ (catalog hplaced hfresh disk doc).entries ↔
      ∃ kind, p = launch.pathFor disk kind ∧ document = doc kind := by
  rw [catalog, List.mem_map]
  constructor
  · rintro ⟨kind, -, heq⟩
    cases heq
    exact ⟨kind, rfl, rfl⟩
  · rintro ⟨kind, rfl, rfl⟩
    exact ⟨kind, mem_stageOrder kind, rfl⟩

theorem traced_catalog (h : Persisted launch disk result doc) :
    traceFeature rt launch.pipeline.repoRoot launch.pipeline.featureId
      (catalog hplaced hfresh disk doc).entries = .ok result.trace :=
  h.traced

theorem documentAt_pathFor (kind : Kind) :
    documentAt (catalog hplaced hfresh disk doc) (launch.pathFor disk kind) = doc kind :=
  documentAt_of_mem ((mem_catalog hplaced hfresh).mpr ⟨kind, rfl, rfl⟩)

/-- The feature's id is on every document but the idea and the review. -/
theorem tagged_fits (h : Persisted launch disk result doc) {kind : Kind} (hidea : kind ≠ .idea)
    (hreview : kind ≠ .review) : Tagged launch.pipeline.featureId (doc kind) := by
  rw [Tagged, (h.fits kind).get (featureId_not_opened kind)]
  cases kind with
  | idea => exact absurd rfl hidea
  | review => exact absurd rfl hreview
  | _ => rfl

theorem readLinks (h : Persisted launch disk result doc) (kind : Kind) :
    localLinkTargets rt (doc kind) =
      .ok (kind.target.toList.map (launch.hrefOf (launch.start disk))) := by
  cases htarget : kind.target with
  | none =>
      obtain rfl : kind = .idea := by cases kind <;> simp_all [Kind.target]
      exact Job.localLinkTargets_idea launch.valid (h.fits .idea)
  | some target => exact Job.localLinkTargets_fits (h.fits kind) htarget

theorem linked_target (hnormal : NormalPrefix launch.pipeline.hrefPrefix)
    (h : Persisted launch disk result doc) {kind target : Kind}
    (htarget : kind.target = some target) :
    Linked rt launch.pipeline.repoRoot (catalog hplaced hfresh disk doc)
      (launch.pathFor disk kind) (launch.pathFor disk target) := by
  refine ⟨⟨doc target, (mem_catalog hplaced hfresh).mpr ⟨target, rfl, rfl⟩⟩, ?_⟩
  rw [documentAt_pathFor, (posixOf_pathFor hplaced hnormal target).2, targetsOf, readLinks h kind,
    htarget]
  exact List.mem_singleton_self _

/-- The idea is reached from the specification, the review from its task. -/
theorem connected_stage (hnormal : NormalPrefix launch.pipeline.hrefPrefix)
    (h : Persisted launch disk result doc) (kind : Kind) :
    Connected rt launch.pipeline.repoRoot (catalog hplaced hfresh disk doc)
      launch.pipeline.featureId (launch.pathFor disk kind) := by
  have hown : ∀ kind, (doc kind, launch.pathFor disk kind).swap ∈
      (catalog hplaced hfresh disk doc).entries :=
    fun kind => (mem_catalog hplaced hfresh).mpr ⟨kind, rfl, rfl⟩
  cases kind with
  | idea =>
      refine ⟨_, _, hown .specification, tagged_fits h (by decide) (by decide), .single ?_⟩
      exact Or.inl (linked_target hplaced hfresh hnormal h rfl)
  | review =>
      refine ⟨_, _, hown .task, tagged_fits h (by decide) (by decide), .single ?_⟩
      exact Or.inr (linked_target hplaced hfresh hnormal h rfl)
  | _ => exact ⟨_, _, hown _, tagged_fits h (by decide) (by decide), .refl⟩

theorem textAt_id (h : Persisted launch disk result doc) (kind : Kind) :
    textAt rt (doc kind) (py "id") = .ok (launch.idFor disk kind) := by
  cases kind with
  | idea =>
      rw [textAt, Job.fits_idea (h.fits .idea), launch.ideaId_spec.1, Option.getD_some,
        Json.text_str]
      rfl
  | _ => rw [textAt, Job.fits_id (h.fits _) (by decide), Option.getD_some, Json.text_str]

theorem textAt_type (h : Persisted launch disk result doc) (kind : Kind) :
    textAt rt (doc kind) (py "artifact_type") = .ok kind.name := by
  rw [textAt, Job.typeOf_fits launch.valid (h.fits kind), Option.getD_some, Json.text_str]

theorem chain_of_normal (hnormal : NormalPrefix launch.pipeline.hrefPrefix)
    (h : Persisted launch disk result doc) :
    ConnectedChain rt launch.pipeline.repoRoot (catalog hplaced hfresh disk doc)
      launch.pipeline.featureId := by
  have hmem : ∀ p, Connected rt launch.pipeline.repoRoot (catalog hplaced hfresh disk doc)
      launch.pipeline.featureId p → ∃ kind, p = launch.pathFor disk kind := by
    intro p hp
    obtain ⟨document, hdocument⟩ := mem_of_connected hp
    obtain ⟨kind, hkind, -⟩ := (mem_catalog hplaced hfresh).mp hdocument
    exact ⟨kind, hkind⟩
  have hreadable : Readable rt launch.pipeline.repoRoot (catalog hplaced hfresh disk doc) := by
    refine ⟨?_, ?_⟩
    · intro entry hentry
      obtain ⟨kind, hpath, -⟩ := (mem_catalog hplaced hfresh).mp hentry
      rw [hpath]
      exact (posixOf_pathFor hplaced hnormal kind).1
    · intro entry hentry
      obtain ⟨kind, -, hdoc⟩ := (mem_catalog hplaced hfresh).mp hentry
      rw [hdoc]
      exact ⟨_, readLinks h kind⟩
  refine ⟨hreadable, ?_, ?_, ?_⟩
  · intro p hp
    obtain ⟨kind, rfl⟩ := hmem p hp
    rw [documentAt_pathFor]
    exact ⟨⟨_, textAt_id h kind⟩, ⟨_, textAt_type h kind⟩⟩
  · intro name hname
    obtain ⟨kind, -, rfl⟩ := List.mem_map.mp (chainOrder_names ▸ hname)
    refine ⟨launch.pathFor disk kind, connected_stage hplaced hfresh hnormal h kind, ?_⟩
    rw [documentAt_pathFor]
    exact textAt_type h kind
  · intro p hp
    obtain ⟨kind, rfl⟩ := hmem p hp
    rw [documentAt_pathFor, targetsOf, readLinks h kind]
    intro href hhref
    obtain ⟨target, -, rfl⟩ := List.mem_map.mp hhref
    exact ⟨_, _, (mem_catalog hplaced hfresh).mpr ⟨target, rfl, rfl⟩,
      (posixOf_pathFor hplaced hnormal target).2⟩

end Trace

end Launch

/-- The node that a persisted artifact should have in a trace. -/
def nodeOf (repoRoot root : Path) (entry : PyStr × Mapping) : TraceNode where
  artifactId := entry.1
  artifactType := ((Assoc.get entry.2 (py "artifact_type")).bind Json.str?).getD []
  path := posixOf repoRoot (storePath root entry.1)
  featureId := (Assoc.get entry.2 (py "feature_id")).getD .null

/-- The persisted documents of a kind name, at the key, one that is persisted too. -/
def References (result : PipelineResult) (key : PyStr) (kind target : Kind) : Prop :=
  ∀ entry ∈ result.artifacts, Assoc.get entry.2 (py "artifact_type") = some (.str kind.name) →
    ∃ other ∈ result.artifacts,
      Assoc.get other.2 (py "artifact_type") = some (.str target.name) ∧
      Assoc.get other.2 (py "id") = some (.str other.1) ∧
      Assoc.get entry.2 key = some (.str other.1)

/-- The trace of a run is complete, and of its seven artifacts exactly. -/
structure FullyTraced (launch : Launch rt source root) (result : PipelineResult) : Prop where
  complete : result.trace.complete = true
  ordered : result.trace.orderedTypes = chainOrder
  dangling : result.trace.dangling = []
  seven : result.artifacts.length = 7
  distinct : Assoc.Unique result.artifacts
  nodes : result.trace.nodes.Perm (result.artifacts.map (nodeOf launch.pipeline.repoRoot root))
  taskPlan : References result (py "plan_id") .task .plan
  reviewTask : References result (py "task_id") .review .task
  reviewThreatModel : References result (py "threat_model_id") .securityReview .threatModel

section Returned

open Launch

variable {launch : Launch rt source root} {disk : Disk} {result : PipelineResult}
  {doc : Kind → Mapping}

theorem references_of_persisted (h : Persisted launch disk result doc) {key : PyStr}
    {kind target : Kind} (htarget : target ≠ .idea)
    (hkey : Assoc.get (doc kind) key = some (.str (launch.idFor disk target))) :
    References result key kind target := by
  rw [References, h.artifacts]
  intro entry hentry hkind
  obtain ⟨kind', -, rfl⟩ := List.mem_map.mp hentry
  have hname := Job.typeOf_fits launch.valid (h.fits kind')
  obtain rfl : kind' = kind := by
    rw [hkind] at hname
    have hinj : ∀ a b : Kind, a.name = b.name → a = b := by
      intro a b
      cases a <;> cases b <;> decide
    exact (hinj _ _ (Json.str.inj (Option.some.inj hname))).symm
  exact ⟨_, List.mem_map_of_mem (mem_stageOrder target),
    Job.typeOf_fits launch.valid (h.fits target), Job.fits_id (h.fits target) htarget, hkey⟩

theorem traceNode_pathFor (hplaced : Placed launch) (hfresh : launch.ideaId ∉ stageIds)
    (hnormal : NormalPrefix launch.pipeline.hrefPrefix) (h : Persisted launch disk result doc)
    (kind : Kind) :
    traceNode rt launch.pipeline.repoRoot (catalog hplaced hfresh disk doc).entries
      (launch.pathFor disk kind) =
        .ok (nodeOf launch.pipeline.repoRoot root (launch.idFor disk kind, doc kind)) := by
  have hid := textAt_id h kind
  have htype := textAt_type h kind
  have hdocument : documentAt (catalog hplaced hfresh disk doc) (launch.pathFor disk kind) =
      doc kind := documentAt_pathFor hplaced hfresh kind
  rw [← hdocument] at hid htype
  rw [traceNode_ok (posixOf_pathFor hplaced hnormal kind).1 hid htype, hdocument, nodeOf,
    Job.typeOf_fits launch.valid (h.fits kind),
    storePath_of_no_slash (launch.slash_not_mem_ids _ (launch.idFor_mem disk kind))]
  rfl

/-- The nodes of a trace that has met every path of the index. -/
theorem nodes_perm (hplaced : Placed launch) (hfresh : launch.ideaId ∉ stageIds)
    (hnormal : NormalPrefix launch.pipeline.hrefPrefix) (h : Persisted launch disk result doc)
    {selected : List Path} {nodes : List TraceNode}
    (traced : Traced rt launch.pipeline.repoRoot (catalog hplaced hfresh disk doc)
      launch.pipeline.featureId result.trace selected nodes) :
    nodes.Perm (result.artifacts.map (nodeOf launch.pipeline.repoRoot root)) := by
  have hpaths : selected.Perm (stageOrder.map (launch.pathFor disk)) := by
    have horder : stageOrder.Nodup := by decide
    have hinj : ∀ kind kind', launch.pathFor disk kind = launch.pathFor disk kind' →
        kind = kind' := fun kind kind' => pathFor_inj hfresh
    have hnodup := horder.map_on fun kind _ kind' _ => hinj kind kind'
    apply (List.perm_ext_iff_of_nodup traced.nodup hnodup).mpr
    intro p
    rw [traced.connected, List.mem_map]
    constructor
    · intro hp
      obtain ⟨document, hdocument⟩ := mem_of_connected hp
      obtain ⟨kind, rfl, -⟩ := (mem_catalog hplaced hfresh).mp hdocument
      exact ⟨kind, mem_stageOrder kind, rfl⟩
    · rintro ⟨kind, -, rfl⟩
      exact connected_stage hplaced hfresh hnormal h kind
  let nodeAt (p : Path) : TraceNode :=
    (traceNode rt launch.pipeline.repoRoot
      (catalog hplaced hfresh disk doc).entries p).toOption.getD ⟨[], [], [], .null⟩
  have hnode : ∀ p ∈ selected, traceNode rt launch.pipeline.repoRoot
      (catalog hplaced hfresh disk doc).entries p = .ok (nodeAt p) := by
    intro p hp
    obtain ⟨node, -, hok⟩ := (mem_of_mapM_ok traced.read).1 p hp
    simp only [nodeAt, hok, Except.toOption, Option.getD_some]
  obtain rfl : nodes = selected.map nodeAt :=
    Except.ok.inj (traced.read.symm.trans (mapM_ok hnode))
  refine (hpaths.map nodeAt).trans (List.Perm.of_eq ?_)
  rw [h.artifacts, List.map_map, List.map_map]
  apply List.map_congr_left
  intro kind _
  simp only [Function.comp_apply, nodeAt, traceNode_pathFor hplaced hfresh hnormal h kind,
    Except.toOption, Option.getD_some]

/-- Only links that are spelled as the paths are read back lead on from the
specification. -/
theorem normal_of_complete (hplaced : Placed launch) (hfresh : launch.ideaId ∉ stageIds)
    (h : Persisted launch disk result doc) (hcomplete : result.trace.complete = true) :
    NormalPrefix launch.pipeline.hrefPrefix := by
  have hchain := (complete_iff_chain launch.pipeline.featureId).mp
    ⟨result.trace, traced_catalog hplaced hfresh h, hcomplete⟩
  have hspec : Connected rt launch.pipeline.repoRoot (catalog hplaced hfresh disk doc)
      launch.pipeline.featureId (launch.pathFor disk .specification) :=
    ⟨_, _, (mem_catalog hplaced hfresh).mpr ⟨.specification, rfl, rfl⟩,
      tagged_fits h (by decide) (by decide), .refl⟩
  have hresolved := hchain.resolved _ hspec
  rw [documentAt_pathFor, targetsOf, readLinks h] at hresolved
  obtain ⟨q, document, hmem, hposix⟩ := hresolved _ (List.mem_singleton_self _)
  obtain ⟨kind, rfl, -⟩ := (mem_catalog hplaced hfresh).mp hmem
  exact normal_of_posixOf hplaced (hchain.readable.below _ hmem) hposix

theorem fullyTraced_of_normal (hplaced : Placed launch) (hfresh : launch.ideaId ∉ stageIds)
    (hnormal : NormalPrefix launch.pipeline.hrefPrefix) (h : Persisted launch disk result doc) :
    FullyTraced launch result := by
  have htrace := traced_catalog hplaced hfresh h
  obtain ⟨report, hreport, hcomplete⟩ := (complete_iff_chain launch.pipeline.featureId).mpr
    (chain_of_normal hplaced hfresh hnormal h)
  obtain rfl : report = result.trace := Except.ok.inj (hreport.symm.trans htrace)
  obtain ⟨selected, nodes, traced⟩ := traceFeature_traced htrace
  have hclean := hcomplete
  rw [Report.complete, Bool.and_eq_true, List.isEmpty_iff, List.isEmpty_iff] at hclean
  obtain ⟨hmissing, hdangling⟩ := hclean
  refine ⟨hcomplete, ?_, hdangling, ?_, ?_, ?_, ?_, ?_, ?_⟩
  · rw [traced.missing, List.filter_eq_nil_iff] at hmissing
    rw [traced.ordered, List.filter_eq_self]
    intro kind hkind
    simpa using hmissing kind hkind
  · rw [h.artifacts, List.length_map]
    rfl
  · rw [h.artifacts]
    exact unique_stages (fun _ _ => idFor_inj hfresh) doc
  · exact traced.nodes.trans (nodes_perm hplaced hfresh hnormal h traced)
  · apply references_of_persisted h (by decide)
    have hkey : py "plan_id" ∉ Kind.task.opened := by decide
    rw [(h.fits .task).get hkey]
    rfl
  · apply references_of_persisted h (by decide)
    have hkey : py "task_id" ∉ Kind.review.opened := by decide
    rw [(h.fits .review).get hkey]
    rfl
  · apply references_of_persisted h (by decide)
    have hkey : py "threat_model_id" ∉ Kind.securityReview.opened := by decide
    rw [(h.fits .securityReview).get hkey]
    rfl

end Returned

open Launch

/-- A run that returns is fully traced exactly where the links of its documents are
spelled as the paths are read back. -/
theorem returning_runs_fully_traced_iff (rt : Runtime) (source : SchemaSource) (root : Path)
    (launch : Launch rt source root) (disk : Disk) (result : PipelineResult)
    (hplaced : Placed launch) (hfresh : launch.ideaId ∉ stageIds)
    (hresult : launch.result disk = some result) :
    FullyTraced launch result ↔ NormalPrefix launch.pipeline.hrefPrefix := by
  obtain ⟨doc, hpersisted⟩ := persisted_of_result hfresh hresult
  constructor
  · intro hfull
    exact normal_of_complete hplaced hfresh hpersisted hfull.complete
  · intro hnormal
    exact fullyTraced_of_normal hplaced hfresh hnormal hpersisted

/-- The sample run, with its links below such a prefix. -/
abbrev exportLaunch (hrefPrefix : String) : Launch sampleRuntime sampleSource sampleRoot :=
  sampleLaunch "FEAT-0001" hrefPrefix "IDEA-0001" sampleAnswer sampleIdea_valid

theorem exportLaunch_placed {hrefPrefix : String}
    (h : Path.isAbsolute (py hrefPrefix) = false ∧ Path.parts (py hrefPrefix) = [py "specs"]) :
    Placed (exportLaunch hrefPrefix) := by
  refine ⟨?_, ?_⟩
  · change sampleRoot = (if Path.isAbsolute (py hrefPrefix) then [] else [py "repo"]) ++
      Path.parts (py hrefPrefix)
    rw [h.1, h.2]
    rfl
  · intro c hc
    obtain rfl := List.mem_singleton.mp hc
    decide

theorem exportLaunch_fresh (hrefPrefix : String) : (exportLaunch hrefPrefix).ideaId ∉ stageIds := by
  have hid : documentId (sampleIdea "IDEA-0001") ∉ stageIds := by decide +kernel
  exact hid

theorem exportLaunch_fully_traced : ∃ result,
    (exportLaunch "specs").result { fs := sampleFiles } = some result ∧
      FullyTraced (exportLaunch "specs") result := by
  obtain ⟨result, hresult, -⟩ := exportJob_returns
  refine ⟨result, hresult, ?_⟩
  exact (returning_runs_fully_traced_iff _ _ _ (exportLaunch "specs") { fs := sampleFiles } result
    (exportLaunch_placed (by decide)) (exportLaunch_fresh "specs") hresult).mpr (by decide)

/-- With a slash at the end of the prefix, the links have two. -/
theorem trailingSlash_not_traced : Placed (exportLaunch "specs/") ∧
    (exportLaunch "specs/").ideaId ∉ stageIds ∧ ∃ result,
      (exportLaunch "specs/").result { fs := sampleFiles } = some result ∧
        ¬ FullyTraced (exportLaunch "specs/") result := by
  have hplaced : Placed (exportLaunch "specs/") := exportLaunch_placed (by decide)
  have hfresh := exportLaunch_fresh "specs/"
  have hcooperates : (exportLaunch "specs/").toJob.Cooperates sampleState := by
    refine sample_cooperates (by decide +kernel) ?_ sampleContent_sound (by decide +kernel)
    exact ⟨.idea, by decide +kernel, by decide +kernel⟩
  obtain ⟨result, docs, hresult, -⟩ := finished_of_cooperates hcooperates
  refine ⟨hplaced, hfresh, result, hresult, ?_⟩
  intro hfull
  obtain ⟨doc, hpersisted⟩ := persisted_of_result hfresh hresult
  have hnormal := normal_of_complete hplaced hfresh hpersisted hfull.complete
  revert hnormal
  decide

end SecureSdlc.Orchestrator

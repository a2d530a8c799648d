import SecureSdlc.Core.Run
import SecureSdlc.Metatheory.PipelineRuns

/-!
Sequences of pipeline runs over one artifact store, each by a fresh pipeline on an idea
of its own. A run leaves every other file of the store alone, so an artifact is lost
only when a later stage or a later run takes its id again.
-/

namespace SecureSdlc.Orchestrator

open Core Evidence Policy Runner Skills Tools Artifacts Contracts

variable {rt : Runtime} {source : SchemaSource} {root : Path}

/-- A fresh pipeline, and the schema-valid idea it is run on. -/
structure Launch (rt : Runtime) (source : SchemaSource) (root : Path) extends
    Job rt source root where
  toolEvidence : EvidenceStore := {}
  modelEvidence : EvidenceStore := {}
  valid : Contracts.idea.valid (.obj idea) = true

/-- The kinds that a run counts, in the order of its stages. -/
def stageKinds : List Kind := stageOrder.tail

/-- The ids that every fresh run gives its stages. -/
def stageIds : List PyStr := stageKinds.map fun kind => numbered kind.idPrefix 1

example : stageIds = [py "SPEC-0001", py "TM-0001", py "PLAN-0001", py "TASK-0001",
    py "SECREV-0001", py "REV-0001"] := by decide

theorem slash_not_mem_stageIds : ∀ id ∈ stageIds, Path.slash ∉ id := by decide

namespace Launch

variable (launch : Launch rt source root) (disk : Disk)

def start : State where
  tools := { world := disk, store := launch.toolEvidence }
  model := { store := launch.modelEvidence }

/-- The result of a run that returns. -/
def result : Option PipelineResult := launch.toJob.result (launch.start disk)

def ideaId : PyStr := documentId launch.idea

/-- The ids of the idea and of the stages, as the run would store them. -/
def ids : List PyStr := launch.ideaId :: stageIds

theorem ideaId_spec : Assoc.get launch.idea (py "id") = some (.str launch.ideaId) ∧
    isIdentifier launch.ideaId = true := by
  obtain ⟨id, hid, hidentifier⟩ := valid_artifact_id launch.valid
  rw [ideaId, documentId_of_get hid]
  exact ⟨hid, hidentifier⟩

theorem slash_not_mem_ids : ∀ id ∈ launch.ids, Path.slash ∉ id := by
  intro id hid
  rcases List.mem_cons.mp hid with rfl | hstage
  · exact slash_not_mem_identifier launch.ideaId_spec.2
  · exact slash_not_mem_stageIds id hstage

/-- The disk that a run leaves, whether it returns or raises. -/
def after (disk : Disk) (launch : Launch rt source root) : Disk :=
  (launch.toJob.final (launch.start disk)).tools.world

theorem stageOrder_ids :
    stageOrder.map (launch.idOf (launch.start disk)) = launch.ids := rfl

/-- A run stores documents under the first of its ids, and under all when it returns. -/
theorem after_stored : ∃ docs, Stored rt root docs disk (after disk launch) ∧
    docs.map documentId <+: launch.ids ∧
    ∀ result, launch.result disk = some result → docs.map documentId = launch.ids ∧
      result.artifacts =
        docs.foldl (fun written doc => Assoc.set written (documentId doc) doc) [] := by
  have hids : ∀ docs : List (Kind × Mapping), Wrote launch.toJob (launch.start disk) docs
      (after disk launch) → (docs.map Prod.snd).map documentId =
        (docs.map Prod.fst).map (launch.idOf (launch.start disk)) := by
    intro docs hwrote
    rw [List.map_map, List.map_map]
    apply List.map_congr_left
    intro doc hdoc
    exact Job.fits_documentId (hwrote.fits doc hdoc)
  cases hresult : launch.result disk with
  | none =>
      obtain ⟨docs, horder, hwrote⟩ := Job.stopped_of_error hresult
      refine ⟨docs.map Prod.snd, hwrote.stored, ?_, fun _ h => nomatch h⟩
      rw [hids docs hwrote, ← launch.stageOrder_ids disk]
      exact horder.map _
  | some result =>
      obtain ⟨docs, hfinished⟩ := Job.finished_of_result hresult
      have hall : (docs.map Prod.snd).map documentId = launch.ids := by
        rw [hids docs hfinished.wrote, hfinished.order, launch.stageOrder_ids disk]
      refine ⟨docs.map Prod.snd, hfinished.wrote.stored, hall ▸ List.prefix_rfl, ?_⟩
      intro other hother
      cases hother
      refine ⟨hall, ?_⟩
      rw [hfinished.artifacts, List.foldl_map]
      rfl

/-- The seven ids are distinct, and none was stored under before. -/
def Fresh (disk : Disk) (launch : Launch rt source root) : Prop :=
  launch.ideaId ∉ stageIds ∧ ∀ id ∈ launch.ids, filePath root id ∉ disk.writes

theorem paths_nodup_iff : (launch.ids.map (filePath root)).Nodup ↔ launch.ideaId ∉ stageIds := by
  constructor
  · intro h
    exact (List.nodup_cons.mp (List.Nodup.of_map _ h)).1
  · intro h
    have hids : launch.ids.Nodup := List.nodup_cons.mpr ⟨h, by decide⟩
    apply hids.map_on
    intro id hid id' hid'
    exact (filePath_inj root (launch.slash_not_mem_ids id hid)
      (launch.slash_not_mem_ids id' hid')).mp

end Launch

open Launch

/-- The disk after a sequence of runs. -/
abbrev afterAll (disk : Disk) (launches : List (Launch rt source root)) : Disk :=
  Core.run Launch.after disk launches

theorem afterAll_writes (disk : Disk) (launches : List (Launch rt source root)) :
    disk.writes <+: (afterAll disk launches).writes := by
  induction launches generalizing disk with
  | nil => exact List.prefix_rfl
  | cons launch launches ih =>
      obtain ⟨docs, hstored, -⟩ := launch.after_stored disk
      have hone : disk.writes <+: (Launch.after disk launch).writes :=
        hstored.writes ▸ List.prefix_append _ _
      exact hone.trans (ih _)

/-- Fresh runs write to files that are distinct and new. -/
theorem afterAll_stored {disk : Disk} {launches : List (Launch rt source root)}
    (hfresh : AllSteps Launch.after Fresh disk launches) :
    ∃ docs, Stored rt root docs disk (afterAll disk launches) ∧ (paths root docs).Nodup ∧
      ∀ p ∈ paths root docs, p ∉ disk.writes := by
  induction launches generalizing disk with
  | nil => exact ⟨[], stored_refl disk, List.nodup_nil, fun _ h => nomatch h⟩
  | cons launch launches ih =>
      obtain ⟨docs, hstored, hids, -⟩ := launch.after_stored disk
      obtain ⟨later, hlater, hnodup, hnew⟩ := ih hfresh.2
      have hpaths : paths root docs <+: launch.ids.map (filePath root) :=
        paths_eq docs ▸ hids.map _
      have hfirst : ∀ p ∈ paths root docs, p ∉ disk.writes := by
        intro p hmem
        obtain ⟨id, hid, rfl⟩ := List.mem_map.mp (hpaths.subset hmem)
        exact hfresh.1.2 id hid
      rw [hstored.writes] at hnew
      refine ⟨docs ++ later, stored_trans hstored hlater, ?_, ?_⟩
      · rw [paths, List.map_append, List.nodup_append]
        refine ⟨(launch.paths_nodup_iff.mpr hfresh.1.1).sublist hpaths.sublist, hnodup, ?_⟩
        rintro p hmem _ hmem' rfl
        exact hnew p hmem' (List.mem_append_right _ hmem)
      · intro p hmem
        rw [paths, List.map_append, List.mem_append] at hmem
        rcases hmem with hold | hmore
        · exact hfirst p hold
        · exact fun h => hnew p hmore (List.mem_append_left _ h)

/-- The seven artifacts of a result are distinct, and the store holds each of them. -/
structure Present (rt : Runtime) (root : Path) (result : PipelineResult) (disk : Disk) :
    Prop where
  seven : result.artifacts.length = 7
  distinct : Assoc.Unique result.artifacts
  held : ∀ entry ∈ result.artifacts, ∃ data, canonicalBytes rt entry.2 = some data ∧
    disk.fs.content (filePath root entry.1) = some data

/-- No file was written twice, and the artifacts of every run that returned are there. -/
structure Kept (disk : Disk) (launches : List (Launch rt source root)) : Prop where
  single : (afterAll disk launches).writes.Nodup
  present : ∀ earlier launch later result, launches = earlier ++ launch :: later →
    launch.result (afterAll disk earlier) = some result →
    Present rt root result (afterAll disk launches)

theorem present_of_stored {result : PipelineResult} {docs later : List Mapping}
    {before mid after : Disk} (hstored : Stored rt root docs before mid)
    (hlater : Stored rt root later mid after)
    (hdistinct : (paths root docs).Nodup) (hseven : docs.length = 7)
    (hartifacts : result.artifacts =
      docs.foldl (fun written doc => Assoc.set written (documentId doc) doc) [])
    (hnew : ∀ p ∈ paths root later, p ∉ mid.writes) :
    Present rt root result after := by
  have hunique : Assoc.Unique (docs.map fun doc => (documentId doc, doc)) := by
    rw [paths_eq] at hdistinct
    rw [Assoc.Unique, List.map_map]
    exact List.Nodup.of_map _ hdistinct
  have hsame : result.artifacts = docs.map fun doc => (documentId doc, doc) := by
    have hfold := Assoc.foldl_set_of_unique hunique (m := [])
    rw [List.foldl_map] at hfold
    exact hartifacts.trans hfold
  refine ⟨?_, hsame ▸ hunique, ?_⟩
  · rw [hsame, List.length_map, hseven]
  rw [hsame]
  intro entry hentry
  obtain ⟨document, hdoc, rfl⟩ := List.mem_map.mp hentry
  obtain ⟨data, hdata⟩ := Option.isSome_iff_exists.mp (hstored.encodable document hdoc)
  refine ⟨data, hdata, ?_⟩
  have hpath : filePath root (documentId document) ∈ paths root docs := List.mem_map_of_mem hdoc
  have huntouched : filePath root (documentId document) ∉ (cells rt root later).map Prod.fst := by
    rw [cells_keys]
    intro hmem
    refine hnew _ hmem ?_
    rw [hstored.writes]
    exact List.mem_append_right _ hpath
  have hcells : ((cells rt root docs).map Prod.fst).Nodup := cells_keys docs ▸ hdistinct
  have hcell : (filePath root (documentId document), canonicalBytes rt document) ∈
      cells rt root docs := List.mem_map_of_mem hdoc
  rw [hlater.files, Updates.replay_of_not_mem huntouched, hstored.files,
    Updates.replay_of_mem hcells hcell, hdata]

theorem kept_of_fresh (fs : FileSystem) {launches : List (Launch rt source root)}
    (hfresh : AllSteps Launch.after Fresh { fs } launches) : Kept { fs } launches := by
  refine ⟨?_, ?_⟩
  · obtain ⟨docs, hstored, hnodup, -⟩ := afterAll_stored hfresh
    rw [hstored.writes]
    exact hnodup
  · rintro earlier launch later result rfl hresult
    rw [allSteps_append] at hfresh
    obtain ⟨hlaunch, hrest⟩ := hfresh.2
    obtain ⟨docs, hstored, -, hreturned⟩ := launch.after_stored (afterAll { fs } earlier)
    obtain ⟨hids, hartifacts⟩ := hreturned result hresult
    obtain ⟨more, hmore, -, hnew⟩ := afterAll_stored hrest
    have hseven : docs.length = 7 := by
      rw [← List.length_map documentId, hids]
      rfl
    have hdistinct : (paths root docs).Nodup := by
      rw [paths_eq, hids]
      exact launch.paths_nodup_iff.mpr hlaunch.1
    rw [afterAll, run_append]
    exact present_of_stored hstored hmore hdistinct hseven hartifacts hnew

/-- The run returns. -/
def Returns (disk : Disk) (launch : Launch rt source root) : Prop :=
  (launch.result disk).isSome = true

theorem fresh_of_single {disk : Disk} {launches : List (Launch rt source root)}
    (hreturn : AllSteps Launch.after Returns disk launches)
    (hsingle : (afterAll disk launches).writes.Nodup) :
    AllSteps Launch.after Fresh disk launches := by
  induction launches generalizing disk with
  | nil => trivial
  | cons launch launches ih =>
      refine ⟨?_, ih hreturn.2 hsingle⟩
      obtain ⟨docs, hstored, -, hreturned⟩ := launch.after_stored disk
      obtain ⟨result, hresult⟩ := Option.isSome_iff_exists.mp hreturn.1
      have hnodup : (disk.writes ++ launch.ids.map (filePath root)).Nodup := by
        rw [← (hreturned result hresult).1, ← paths_eq, ← hstored.writes]
        exact hsingle.sublist (afterAll_writes _ launches).sublist
      rw [List.nodup_append] at hnodup
      refine ⟨launch.paths_nodup_iff.mp hnodup.2.1, ?_⟩
      intro id hid hmem
      exact hnodup.2.2 _ hmem _ (List.mem_map_of_mem hid) rfl

/-- In every sequence of runs that are fresh nothing is lost, in any state reached; and
where every run returns, nothing is lost only if they are. -/
theorem fresh_runs_keep_artifacts (rt : Runtime) (source : SchemaSource) (root : Path)
    (fs : FileSystem) (launches : List (Launch rt source root)) :
    (AllSteps Launch.after Fresh { fs } launches →
      ∀ reached later, launches = reached ++ later → Kept { fs } reached) ∧
    (AllSteps Launch.after Returns { fs } launches → Kept { fs } launches →
      AllSteps Launch.after Fresh { fs } launches) := by
  refine ⟨?_, fun hreturn hkept => fresh_of_single hreturn hkept.single⟩
  rintro hfresh reached later rfl
  exact kept_of_fresh fs ((allSteps_append _ _ _ reached later).mp hfresh).1

def sampleLaunch (featureId hrefPrefix id : String)
    (complete : LLMRequest → Except PyError LLMResponse)
    (valid : Contracts.idea.valid (.obj (sampleIdea id)) = true) :
    Launch sampleRuntime sampleSource sampleRoot where
  toJob := sampleJob featureId hrefPrefix (sampleIdea id) complete
  valid := valid

/-- A model that gives up after the specification. -/
def grillOnly (request : LLMRequest) : Except PyError LLMResponse :=
  if request.role = py "grill" then sampleAnswer request else .error { kind := .runtimeError }

theorem sampleIdea_valid : Contracts.idea.valid (.obj (sampleIdea "IDEA-0001")) = true := by
  decide +kernel

def twoFeatures : List (Launch sampleRuntime sampleSource sampleRoot) :=
  [sampleLaunch "FEAT-0001" "specs" "IDEA-0001" grillOnly sampleIdea_valid,
    sampleLaunch "FEAT-0002" "specs" "IDEA-0002" grillOnly (by decide +kernel)]

/-- The second feature's specification takes the place of the first one's. -/
theorem twoFeatures_share_specification : ¬ Kept { fs := sampleFiles } twoFeatures := by
  intro h
  have hsingle := h.single
  revert hsingle
  decide +kernel

end SecureSdlc.Orchestrator

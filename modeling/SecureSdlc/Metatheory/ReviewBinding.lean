import SecureSdlc.Core.Numerals
import SecureSdlc.Metatheory.PipelineProgress

/-!
The review of a run against the task as it is stored: no stage after the task takes its
file again, and the orchestrator and the store make one digest of one document.
-/

namespace SecureSdlc.Orchestrator

open Core Tools Artifacts

variable {rt : Runtime} {source : SchemaSource} {root : Path} {job : Job rt source root}
  {start : State} {docs : List (Kind × Mapping)}

theorem dash_not_mem_idPrefix (kind : Kind) : cp '-' ∉ kind.idPrefix := by
  cases kind <;> decide

theorem slash_not_mem_idPrefix (kind : Kind) : Path.slash ∉ kind.idPrefix := by
  cases kind <;> decide

theorem idPrefix_injective : Function.Injective Kind.idPrefix := by
  intro kind kind'
  cases kind <;> cases kind' <;> decide

theorem not_mem_fourDigits {c : CodePoint} (h : JsonText.isDigit c = false) (n : Nat) :
    c ∉ fourDigits n := by
  intro hmem
  have hpadded : c ∈ PyStr.zeroPadded 4 n := hmem
  have hdigit := PyStr.isDigit_zeroPadded c hpadded
  rw [h] at hdigit
  cases hdigit

/-- The number of an id says nothing of its kind, the prefix everything. -/
theorem kind_of_numbered {kind kind' : Kind} {n n' : Nat}
    (h : numbered kind.idPrefix n = numbered kind'.idPrefix n') : kind = kind' := by
  simp only [numbered, List.append_assoc] at h
  have hsplit := (List.append_cons_inj_of_notMem (dash_not_mem_idPrefix kind)
    (not_mem_fourDigits (by decide) n)).mp h
  exact idPrefix_injective hsplit.1

theorem slash_not_mem_numbered (kind : Kind) (n : Nat) :
    Path.slash ∉ numbered kind.idPrefix n := by
  rw [numbered, List.mem_append, List.mem_append, not_or, not_or]
  exact ⟨⟨slash_not_mem_idPrefix kind, by decide⟩, not_mem_fourDigits (by decide) n⟩

theorem idOf_numbered (job : Job rt source root) (start : State) {kind : Kind}
    (hkind : kind ≠ .idea) : ∃ n, job.idOf start kind = numbered kind.idPrefix n := by
  cases kind with
  | idea => exact absurd rfl hkind
  | _ => exact ⟨_, rfl⟩

/-- The ids that a run counts lead to files of their own. -/
theorem filePath_idOf_inj {kind kind' : Kind} (hkind : kind ≠ .idea) (hkind' : kind' ≠ .idea)
    (h : filePath root (job.idOf start kind) = filePath root (job.idOf start kind')) :
    kind = kind' := by
  obtain ⟨n, hn⟩ := idOf_numbered job start hkind
  obtain ⟨n', hn'⟩ := idOf_numbered job start hkind'
  rw [hn, hn', filePath_inj root (slash_not_mem_numbered kind n)
    (slash_not_mem_numbered kind' n')] at h
  exact kind_of_numbered h

/-- What comes after a stage of a run that went through all of them. -/
theorem later_stages (horder : docs.map Prod.fst = stageOrder) {kind : Kind} {document : Mapping}
    (hkind : kind ≠ .idea) (hmem : (kind, document) ∈ docs) :
    ∃ front later, docs = front ++ (kind, document) :: later ∧
      ∀ doc ∈ later, doc.1 ≠ .idea ∧ doc.1 ≠ kind := by
  obtain ⟨front, later, rfl⟩ := List.append_of_mem hmem
  have hnodup : stageOrder.Nodup := by decide
  refine ⟨front, later, rfl, fun doc hdoc => ?_⟩
  have hlater : doc.1 ∈ later.map Prod.fst := List.mem_map_of_mem hdoc
  rw [List.map_append, List.map_cons] at horder
  constructor
  · rintro hidea
    cases front with
    | nil => exact hkind (List.cons.inj horder).1
    | cons first front =>
        rw [List.map_cons, List.cons_append] at horder
        have hfirst : first.1 = .idea := (List.cons.inj horder).1
        rw [← horder, List.nodup_cons, hfirst, ← hidea] at hnodup
        exact hnodup.1 (List.mem_append_right _ (List.mem_cons_of_mem _ hlater))
  · intro hsame
    rw [← horder, List.nodup_middle, List.nodup_cons, ← hsame] at hnodup
    exact hnodup.1 (List.mem_append_right _ hlater)

theorem get_foldl_register {id : PyStr} {written : List (PyStr × Mapping)}
    (h : ∀ doc ∈ docs, documentId doc.2 ≠ id) :
    Assoc.get (docs.foldl register written) id = Assoc.get written id := by
  induction docs generalizing written with
  | nil => rfl
  | cons doc docs ih =>
      rw [List.forall_mem_cons] at h
      rw [List.foldl_cons, ih h.2, register, Assoc.get_set_of_ne _ _ h.1]

theorem handled_of_finished {result : PipelineResult} {s : State}
    (h : Finished job start docs result s) {kind : Kind} {document : Mapping}
    (hmem : (kind, document) ∈ docs) : writeCall document ∈ s.tools.handled := by
  rw [h.handled]
  exact List.mem_append_right _ (List.mem_map.mpr ⟨_, hmem, rfl⟩)

section Finished

variable {result : PipelineResult} {s : State} (h : Finished job start docs result s) {kind : Kind}
  {document : Mapping} (hkind : kind ≠ .idea) (hmem : (kind, document) ∈ docs)

include h hkind hmem

/-- The result lists the document that a stage has stored. -/
theorem get_artifacts : Assoc.get result.artifacts (job.idOf start kind) = some document := by
  obtain ⟨front, later, rfl, hlater⟩ := later_stages h.order hkind hmem
  have hid := Job.fits_documentId (h.wrote.fits _ hmem)
  have hothers : ∀ doc ∈ later, documentId doc.2 ≠ job.idOf start kind := by
    intro doc hdoc hsame
    have hin : doc ∈ front ++ (kind, document) :: later :=
      List.mem_append_right _ (List.mem_cons_of_mem _ hdoc)
    rw [Job.fits_documentId (h.wrote.fits doc hin)] at hsame
    exact (hlater doc hdoc).2 (filePath_idOf_inj (hlater doc hdoc).1 hkind (congrArg _ hsame))
  rw [h.artifacts, List.foldl_append, List.foldl_cons, get_foldl_register hothers, register, hid,
    Assoc.get_set_self]

/-- The store holds the canonical bytes of the document that a stage has stored. -/
theorem content_of_finished :
    s.tools.world.fs.content (filePath root (job.idOf start kind)) =
      canonicalBytes rt document := by
  obtain ⟨front, later, rfl, hlater⟩ := later_stages h.order hkind hmem
  have hid := Job.fits_documentId (h.wrote.fits _ hmem)
  rw [h.wrote.stored.files]
  simp only [cells, List.map_append, List.map_cons, List.map_map, hid]
  apply Updates.replay_of_last
  intro hin
  rw [List.map_map, List.mem_map] at hin
  obtain ⟨doc, hdoc, hpath⟩ := hin
  have hfits := h.wrote.fits doc (List.mem_append_right _ (List.mem_cons_of_mem _ hdoc))
  simp only [Function.comp_apply, Job.fits_documentId hfits] at hpath
  exact (hlater doc hdoc).2 (filePath_idOf_inj (hlater doc hdoc).1 hkind hpath)

end Finished

/-- The orchestrator makes the digest that the store makes. -/
theorem canonicalDigest_ok {document : Mapping} {digest : PyStr}
    (h : Pipeline.canonicalDigest rt document = .ok digest) :
    ∃ data, canonicalBytes rt document = some data ∧ digest = rt.hexdigest data := by
  obtain ⟨canonical, hdumps, h⟩ := exists_ok_of_bind h
  cases hdata : PyStr.encodeUtf8 canonical with
  | none =>
      rw [hdata] at h
      cases h
  | some data =>
      rw [hdata] at h
      refine ⟨data, ?_, (Except.ok.inj h).symm⟩
      rw [canonicalBytes, hdumps]
      exact hdata

/-- The task and the review of a result, both persisted: the review names the digest of
the bytes that the store holds for the task, which is what its write answers. -/
structure ReviewBound (job : Job rt source root) (start : State) (result : PipelineResult)
    (task review : Mapping) (data : Bytes) : Prop where
  taskListed : Assoc.get result.artifacts (job.idOf start .task) = some task
  reviewListed : Assoc.get result.artifacts (job.idOf start .review) = some review
  taskWritten : writeCall task ∈ (job.final start).tools.handled
  reviewWritten : writeCall review ∈ (job.final start).tools.handled
  held : (job.final start).tools.world.fs.content (filePath root (job.idOf start .task)) = some data
  subject : Assoc.get review (py "subject_digest") = some (.str (rt.hexdigest data))
  answered : ∀ disk output, (writeHandler rt source root (writeCall task).2 disk).1 = .ok output →
    Assoc.get output (py "digest") = some (.str (rt.hexdigest data))

/-- In every run that returns the review is bound to the stored task. -/
theorem review_bound_to_task (job : Job rt source root) (start : State) {result : PipelineResult}
    (h : job.result start = some result) :
    ∃ task review data, ReviewBound job start result task review data := by
  obtain ⟨docs, hfinished, task, review, digest, htask, hreview, hdigest, hsubject⟩ :=
    Job.bound_of_result h
  obtain ⟨data, hdata, rfl⟩ := canonicalDigest_ok hdigest
  refine ⟨task, review, data, get_artifacts hfinished (by decide) htask,
    get_artifacts hfinished (by decide) hreview, handled_of_finished hfinished htask,
    handled_of_finished hfinished hreview, ?_, hsubject, ?_⟩
  · rw [content_of_finished hfinished (by decide) htask, hdata]
  · intro disk output houtput
    obtain ⟨data', hdata', hanswer⟩ := writeHandler_digest houtput
    obtain rfl : data = data' := Option.some.inj (hdata.symm.trans hdata')
    exact hanswer

theorem exportJob_review_bound : ∃ result, exportJob.result sampleState = some result ∧
    ∃ task review data, ReviewBound exportJob sampleState result task review data := by
  obtain ⟨result, hresult, -⟩ := exportJob_returns
  exact ⟨result, hresult, review_bound_to_task exportJob sampleState hresult⟩

end SecureSdlc.Orchestrator

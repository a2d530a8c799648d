import SecureSdlc.Core.Program
import SecureSdlc.Metatheory.StageFrames

/-!
Pipeline runs, stage by stage, from any state and on any idea. Wherever a run stops, it
has changed the store by the writes of its first stages, each a document that fits its
stage's frame; a run that returns has gone through all of them. Nothing is said about
which runs return.
-/

namespace SecureSdlc.Orchestrator

open Core Evidence Policy Runner Skills Tools Artifacts Contracts

variable {rt : Runtime} {source : SchemaSource} {root : Path}

/-- How the stages of a run have changed the disk: each has written a document that fits
its frame in a granted call. Directories may have been made besides. -/
inductive Wrote (job : Job rt source root) (start : State) : List (Kind × Mapping) → Disk → Prop
  | start : Wrote job start [] start.tools.world
  | quiet {docs : List (Kind × Mapping)} {disk after : Disk} (h : Wrote job start docs disk)
      (stored : Stored rt root [] disk after) : Wrote job start docs after
  | stage {docs : List (Kind × Mapping)} {disk after : Disk} (h : Wrote job start docs disk)
      {kind : Kind} {document : Mapping} (tick : Nat)
      (fits : (job.frame start kind).Fits document)
      (granted : WriteGranted rt source root (job.pipeline.moments tick).executor
        (job.pipeline.moments tick).now document disk)
      (stored : Stored rt root [document] disk after) :
      Wrote job start (docs ++ [(kind, document)]) after

variable {job : Job rt source root} {start : State} {docs : List (Kind × Mapping)}

theorem Wrote.stored {disk : Disk} (h : Wrote job start docs disk) :
    Stored rt root (docs.map Prod.snd) start.tools.world disk := by
  induction h with
  | start => exact stored_refl _
  | quiet _ hstored ih => simpa using stored_trans ih hstored
  | stage _ _ _ _ hstored ih =>
      rw [List.map_append]
      exact stored_trans ih hstored

theorem Wrote.fits {disk : Disk} (h : Wrote job start docs disk) :
    ∀ doc ∈ docs, (job.frame start doc.1).Fits doc.2 := by
  induction h with
  | start => exact fun _ hmem => nomatch hmem
  | quiet _ _ ih => exact ih
  | stage _ _ hfits _ _ ih =>
      intro doc hmem
      rcases List.mem_append.mp hmem with hold | hnew
      · exact ih doc hold
      · rw [List.mem_singleton.mp hnew]
        exact hfits

theorem Wrote.granted {disk : Disk} (h : Wrote job start docs disk) :
    ∀ doc ∈ docs, ∃ tick before, WriteGranted rt source root
      (job.pipeline.moments tick).executor (job.pipeline.moments tick).now doc.2 before := by
  induction h with
  | start => exact fun _ hmem => nomatch hmem
  | quiet _ _ ih => exact ih
  | stage _ tick _ hgranted _ ih =>
      intro doc hmem
      rcases List.mem_append.mp hmem with hold | hnew
      · exact ih doc hold
      · rw [List.mem_singleton.mp hnew]
        exact ⟨tick, _, hgranted⟩

/-- The call that writes a document, as the executor's host records it. -/
def writeCall (document : Mapping) : PyStr × Mapping :=
  (py "write_artifact", [(py "document", .obj document)])

def register (written : List (PyStr × Mapping)) (doc : Kind × Mapping) :
    List (PyStr × Mapping) :=
  Assoc.set written (documentId doc.2) doc.2

/-- The books of a run that is still going: what it has persisted, which kinds it may
have counted, and how many calls of its collaborators it has made. -/
structure Books (job : Job rt source root) (start : State) (docs : List (Kind × Mapping))
    (counted : List Kind) (turn : Nat) (s : State) : Prop where
  written : s.written = docs.foldl register start.written
  counters : ∀ kind ∉ counted, Assoc.get s.counters kind = Assoc.get start.counters kind
  createdAt : s.createdAt = job.createdAt
  tick : s.tick = start.tick + turn

structure Reached (job : Job rt source root) (start : State) (docs : List (Kind × Mapping))
    (counted : List Kind) (turn : Nat) (s : State) : Prop extends
    Books job start docs counted turn s where
  wrote : Wrote job start docs s.tools.world
  handled : s.tools.handled = start.tools.handled ++ docs.map fun doc => writeCall doc.2

/-- A run that stopped has gone through its first stages only. -/
def Stopped (job : Job rt source root) (start : State) (s : State) : Prop :=
  ∃ docs, docs.map Prod.fst <+: stageOrder ∧ Wrote job start docs s.tools.world

/-- What the books and the store are kept in. -/
def State.ledger (s : State) : Disk × List (PyStr × Mapping) × List (Kind × Nat) ×
    List (PyStr × Mapping) × PyStr × Nat :=
  (s.tools.world, s.tools.handled, s.counters, s.written, s.createdAt, s.tick)

theorem nextDecisionId_keeps : Keeps State.ledger nextDecisionId := fun _ => rfl

theorem nextEvidenceId_keeps : Keeps State.ledger nextEvidenceId := fun _ => rfl

section Stages

variable {counted : List Kind} {turn : Nat}

theorem reached_congr {s s' : State} (h : s'.ledger = s.ledger)
    (hs : Reached job start docs counted turn s) : Reached job start docs counted turn s' := by
  simp only [State.ledger, Prod.mk.injEq] at h
  obtain ⟨hworld, hhandled, hcounters, hwritten, hcreated, htick⟩ := h
  exact ⟨⟨hwritten ▸ hs.written, hcounters ▸ hs.counters, hcreated ▸ hs.createdAt,
    htick ▸ hs.tick⟩, hworld ▸ hs.wrote, hhandled ▸ hs.handled⟩

theorem Reached.more {s : State} {kind : Kind} (hs : Reached job start docs counted turn s) :
    Reached job start docs (kind :: counted) turn s :=
  ⟨⟨hs.written, fun other hother => hs.counters other (not_or.mp (List.mem_cons.not.mp hother)).2,
    hs.createdAt, hs.tick⟩, hs.wrote, hs.handled⟩

theorem stopped_of_reached (horder : docs.map Prod.fst <+: stageOrder) {s : State}
    (hs : Reached job start docs counted turn s) : Stopped job start s :=
  ⟨docs, horder, hs.wrote⟩

/-- Steps that leave the ledger alone. -/
theorem reached_of_keeps {α : Type} {prog : PipelineM α} (h : Keeps State.ledger prog)
    (horder : docs.map Prod.fst <+: stageOrder) :
    Meets (Reached job start docs counted turn) prog
      (fun _ => Reached job start docs counted turn) (Stopped job start) :=
  meets_of_keeps h (fun _ _ => reached_congr) fun _ => stopped_of_reached horder

theorem raising_reached {α : Type} {outcome : Except PyError α} {P : α → Prop}
    (h : ∀ a, outcome = .ok a → P a) (horder : docs.map Prod.fst <+: stageOrder) :
    Meets (Reached job start docs counted turn) (raising outcome)
      (fun a s => P a ∧ Reached job start docs counted turn s) (Stopped job start) :=
  meets_raising outcome (fun _ => stopped_of_reached horder) fun a ha _ hs => ⟨h a ha, hs⟩

theorem moment_reached (fail : State → Prop) :
    Meets (Reached job start docs counted turn) job.pipeline.moment
      (fun moment s => moment = job.pipeline.moments (start.tick + turn) ∧
        Reached job start docs counted (turn + 1) s) fail := by
  intro s hs
  refine ⟨congrArg _ hs.tick, ⟨hs.written, hs.counters, hs.createdAt, ?_⟩, hs.wrote, hs.handled⟩
  change s.tick + 1 = start.tick + (turn + 1)
  rw [hs.tick, Nat.add_assoc]

theorem issue_reached (tool scope : PyStr) (horder : docs.map Prod.fst <+: stageOrder) :
    Meets (Reached job start docs counted turn) (job.pipeline.issue rt tool scope)
      (fun _ => Reached job start docs counted (turn + 1)) (Stopped job start) := by
  refine meets_bind (moment_reached _) fun moment => ?_
  apply meets_of_and
  intro _
  exact reached_of_keeps (keeps_raising _ _) horder

theorem nextArtifactId_reached {kind : Kind} (hidea : kind ≠ .idea) (hkind : kind ∉ counted)
    (fail : State → Prop) :
    Meets (Reached job start docs counted turn) (nextArtifactId kind)
      (fun id s => id = job.idOf start kind ∧
        Reached job start docs (kind :: counted) turn s) fail := by
  intro s hs
  simp only [nextArtifactId, get, getThe, MonadStateOf.get, bind, EStateM.bind, estate_get, set,
    estate_set, pure, EStateM.pure, hs.counters kind hkind]
  refine ⟨?_, ⟨hs.written, ?_, hs.createdAt, hs.tick⟩, hs.wrote, hs.handled⟩
  · cases kind with
    | idea => exact absurd rfl hidea
    | _ => rfl
  · intro other hother
    rw [List.mem_cons, not_or] at hother
    rw [Assoc.get_set_of_ne _ _ (Ne.symm hother.1)]
    exact hs.counters other hother.2

section Persist

variable {kind : Kind} {document : Mapping} (hfits : (job.frame start kind).Fits document)
  (horder : docs.map Prod.fst ++ [kind] <+: stageOrder)

/-- After the executor's call: the document is stored, or the call was refused. -/
structure Executed (job : Job rt source root) (start : State) (docs : List (Kind × Mapping))
    (counted : List Kind) (turn : Nat) (doc : Kind × Mapping) (result : ExecutionResult)
    (s : State) : Prop extends Books job start docs counted turn s where
  store : Wrote job start (docs ++ [doc]) s.tools.world ∧
      s.tools.handled = start.tools.handled ++ (docs ++ [doc]).map (fun doc => writeCall doc.2) ∨
    Wrote job start docs s.tools.world ∧ result.allowed = false

theorem stopped_of_next {s : State}
    (horder : docs.map Prod.fst ++ [kind] <+: stageOrder)
    (h : Wrote job start (docs ++ [(kind, document)]) s.tools.world) : Stopped job start s := by
  refine ⟨_, ?_, h⟩
  rw [List.map_append]
  exact horder

include hfits horder

theorem execute_reached {call : Invocation} (htool : call.tool = py "write_artifact")
    (hargs : call.args = [(py "document", .obj document)]) :
    Meets (Reached job start docs counted turn) (job.pipeline.execute rt call)
      (Executed job start docs counted (turn + 1) (kind, document)) (Stopped job start) := by
  have hsofar : docs.map Prod.fst <+: stageOrder := (List.prefix_append _ _).trans horder
  refine meets_bind (moment_reached _) fun moment => ?_
  apply meets_of_and
  rintro rfl
  intro s hs
  have hends := execute_stores (job.tool_eq (start.tick + turn)) htool hargs
    (job.pipeline.moments (start.tick + turn)).now s.tools
  simp only [get, getThe, MonadStateOf.get, bind, EStateM.bind, estate_get, set, estate_set]
  cases hrun : Runner.execute rt (job.pipeline.moments (start.tick + turn)).executor call
      (job.pipeline.moments (start.tick + turn)).now s.tools with
  | mk outcome tools =>
      rw [hrun] at hends
      cases hends with
      | written hgranted hstored hhandled =>
          have hnew := Wrote.stage hs.wrote _ hfits hgranted hstored
          cases outcome with
          | error e => exact stopped_of_next horder hnew
          | ok result =>
              refine ⟨⟨hs.written, hs.counters, hs.createdAt, hs.tick⟩, Or.inl ⟨hnew, ?_⟩⟩
              change tools.handled = _
              rw [hhandled, hs.handled, List.map_append, List.append_assoc]
              rfl
      | refused hstored hrefused =>
          have hold := Wrote.quiet hs.wrote hstored
          cases outcome with
          | error e => exact ⟨_, hsofar, hold⟩
          | ok result =>
              exact ⟨⟨hs.written, hs.counters, hs.createdAt, hs.tick⟩,
                Or.inr ⟨hold, hrefused result rfl⟩⟩

/-- A stage that is persisted is stored, under the id of its document. -/
theorem persist_reached {id : PyStr}
    (hid : ∀ id', Assoc.get document (py "id") = some (.str id') → id' ≠ [] → id' = id) :
    Meets (Reached job start docs counted turn) (job.pipeline.persist rt kind id document)
      (fun _ => Reached job start (docs ++ [(kind, document)]) counted (turn + 2))
      (Stopped job start) := by
  have hsofar : docs.map Prod.fst <+: stageOrder := (List.prefix_append _ _).trans horder
  refine meets_bind (meets_get fun s hs => hs) fun s => ?_
  refine meets_bind (reached_of_keeps (keeps_raising _ _) hsofar) fun valid => ?_
  cases valid with
  | false => exact meets_throw _ fun _ => stopped_of_reached hsofar
  | true =>
      refine meets_bind (issue_reached _ _ hsofar) fun token => ?_
      refine meets_bind (reached_of_keeps nextDecisionId_keeps hsofar) fun decisionId => ?_
      refine meets_bind (reached_of_keeps nextEvidenceId_keeps hsofar) fun evidenceId => ?_
      refine meets_bind (execute_reached hfits horder rfl rfl) fun result => ?_
      cases hallowed : result.allowed with
      | false =>
          refine meets_throw _ ?_
          intro s hs
          rcases hs.store with ⟨hnew, -⟩ | ⟨hold, -⟩
          · exact stopped_of_next horder hnew
          · exact ⟨_, hsofar, hold⟩
      | true =>
          refine meets_bind (meets_modify _ ?_) fun _ => meets_pure _ fun _ hs => hs
          intro s hs
          obtain ⟨hnew, hhandled⟩ := hs.store.resolve_right fun h => by simp [h.2] at hallowed
          refine ⟨⟨?_, hs.counters, hs.createdAt, hs.tick⟩, hnew, hhandled⟩
          obtain ⟨id', hget, hne⟩ := hnew.stored.named document (by simp)
          obtain rfl := hid id' hget hne
          rw [List.foldl_append, ← hs.written, ← documentId_of_get hget]
          rfl

end Persist

/-- The call of the skill runner for a stage. -/
theorem runSkill_reached (call : SkillCall) (horder : docs.map Prod.fst <+: stageOrder) :
    Meets (Reached job start docs counted turn) (job.pipeline.runSkill rt call)
      (fun result s => (∀ artifact, result.artifact = some artifact →
          ∃ skill run content, defaultRegistry.get call.skillName = .ok skill ∧
            (job.pipeline.moments (start.tick + turn)).capabilities.get call.runId = some run ∧
            skill.assemble content (call.envelope run.actor) = .ok artifact) ∧
        Reached job start docs counted (turn + 1) s)
      (Stopped job start) := by
  refine meets_bind (moment_reached _) fun moment => ?_
  apply meets_of_and
  rintro rfl
  intro s hs
  simp only [get, getThe, MonadStateOf.get, bind, EStateM.bind, estate_get, set, estate_set]
  cases hrun : Skills.runSkill rt
      (job.pipeline.skillRunner (job.pipeline.moments (start.tick + turn))) call
      (job.pipeline.moments (start.tick + turn)).now s.model with
  | mk outcome model =>
      cases outcome with
      | error e => exact ⟨docs, horder, hs.wrote⟩
      | ok result =>
          refine ⟨?_, ⟨hs.written, hs.counters, hs.createdAt, hs.tick⟩, hs.wrote, hs.handled⟩
          intro artifact hartifact
          obtain ⟨skill, run, content, hget, hrun', hassemble, -⟩ :=
            runSkill_artifact (congrArg Prod.fst hrun) hartifact
          exact ⟨skill, run, content, job.skills_eq ▸ hget, hrun', hassemble⟩

/-- The document is what the skill assembles from some model output and these bindings,
with the stage's link. -/
def Produced (job : Job rt source root) (start : State) (kind : Kind) (skill : Skill)
    (bindings document : Mapping) : Prop :=
  ∃ content assembled, skill.assemble content (job.envelope start kind bindings) = .ok assembled ∧
    document = assembled ++ job.back start kind

theorem produced_of_addLinks {kind target : Kind} {rel : String} {skill : Skill}
    {bindings content document linked : Mapping}
    (hback : job.back start kind = [job.link start rel target])
    (hassembled : job.Assembled start kind document)
    (hdocument : skill.assemble content (job.envelope start kind bindings) = .ok document)
    (hlinked : addLinks rt document [⟨py rel, job.hrefOf start target⟩] = .ok linked) :
    Produced job start kind skill bindings linked := by
  have hidea : kind ≠ .idea := by
    rintro rfl
    cases hback
  have hreview : kind ≠ .securityReview := by
    rintro rfl
    cases hback
  rw [addLinks_of_absent (Job.get_links_of_assembled hassembled hidea hreview)] at hlinked
  refine ⟨content, document, hdocument, ?_⟩
  rw [← Except.ok.inj hlinked, hback]
  rfl

/-- A stage that a skill produces is stored, and its document fits the stage's frame. -/
theorem skill_reached {kind target : Kind} {rel : String} {skillName : PyStr} {skill : Skill}
    {bindings : Mapping} (hskill : defaultRegistry.get skillName = .ok skill)
    (hassemble : ∀ content document,
      skill.assemble content (job.envelope start kind bindings) = .ok document →
        job.Assembled start kind document)
    (hback : job.back start kind = [job.link start rel target]) (hturn : kind.turn = turn + 1)
    (hkind : kind ∉ counted) (horder : docs.map Prod.fst ++ [kind] <+: stageOrder)
    (inputs : List ContextInput) {href : PyStr} (hhref : href = job.hrefOf start target) :
    Meets (Reached job start docs counted turn)
      (job.pipeline.skill rt skillName kind inputs bindings [⟨py rel, href⟩])
      (fun result s => ((job.frame start kind).Fits result.2 ∧
          Produced job start kind skill bindings result.2) ∧
        Reached job start (docs ++ [(kind, result.2)]) (kind :: counted) (turn + 4) s)
      (Stopped job start) := by
  have hsofar : docs.map Prod.fst <+: stageOrder := (List.prefix_append _ _).trans horder
  have hidea : kind ≠ .idea := by
    rintro rfl
    cases hback
  have hreview : kind ≠ .securityReview := by
    rintro rfl
    cases hback
  refine meets_bind (reached_of_keeps (keeps_raising _ _) hsofar) fun registered => ?_
  refine meets_bind (nextArtifactId_reached hidea hkind _) fun artifactId => ?_
  apply meets_of_and
  rintro rfl
  refine meets_bind (issue_reached _ _ hsofar) fun token => ?_
  refine meets_bind (M := fun s s' => s.createdAt = job.createdAt ∧
    Reached job start docs (kind :: counted) (turn + 1) s')
    (meets_get fun s hs => ⟨hs.createdAt, hs⟩) fun s => ?_
  apply meets_of_and
  intro hcreated
  refine meets_bind (reached_of_keeps nextDecisionId_keeps hsofar) fun decisionId => ?_
  refine meets_bind (reached_of_keeps nextEvidenceId_keeps hsofar) fun evidenceId => ?_
  refine meets_bind (runSkill_reached _ hsofar) fun result => ?_
  apply meets_of_and
  intro hartifact
  split
  · rename_i artifact _ hsome
    obtain ⟨skill', run, content, hskill', hrun, hdocument⟩ := hartifact artifact hsome
    obtain rfl : skill' = skill := Except.ok.inj (hskill'.symm.trans hskill)
    rw [← hturn] at hrun
    have hassembly : skill'.assemble content (job.envelope start kind bindings) =
        .ok artifact := by
      rw [Job.envelope, Job.actor_of_run hreview hrun, ← hcreated]
      exact hdocument
    have hassembled := hassemble content artifact hassembly
    refine meets_bind (raising_reached (fun linked hlinked =>
      And.intro (Job.fits_of_addLinks hback hassembled (hhref ▸ hlinked))
        (produced_of_addLinks hback hassembled hassembly (hhref ▸ hlinked))) hsofar)
      fun linked => ?_
    apply meets_of_and
    rintro ⟨hfits, hlinked⟩
    refine meets_bind (persist_reached hfits horder ?_) fun stage => ?_
    · intro id hid _
      rw [Job.fits_id hfits hidea] at hid
      cases hid
      rfl
    · exact meets_pure _ fun _ hs => ⟨⟨hfits, hlinked⟩, hs⟩
  · exact meets_throw _ fun _ => stopped_of_reached hsofar

/-- The review is the one that is compiled from this threat model. -/
def Compiled (job : Job rt source root) (start : State) (threatModel review : Mapping) : Prop :=
  buildSecurityReview rt job.pipeline.featureId threatModel (job.idOf start .securityReview)
    job.createdAt Pipeline.securityReviewer job.pipeline.runId (job.hrefOf start .threatModel) =
      .ok review

/-- The security review is stored as it is compiled. -/
theorem securityReview_reached {threatModel : Mapping}
    (hmodel : (job.frame start .threatModel).Fits threatModel)
    (hkind : .securityReview ∉ counted)
    (horder : docs.map Prod.fst ++ [.securityReview] <+: stageOrder) :
    Meets (Reached job start docs counted turn)
      (job.pipeline.securityReview rt threatModel job.createdAt)
      (fun _ s => ∃ review, Compiled job start threatModel review ∧
        Reached job start (docs ++ [(.securityReview, review)]) (.securityReview :: counted)
          (turn + 2) s)
      (Stopped job start) := by
  have hsofar : docs.map Prod.fst <+: stageOrder := (List.prefix_append _ _).trans horder
  refine meets_bind (nextArtifactId_reached (by decide) hkind _) fun artifactId => ?_
  apply meets_of_and
  rintro rfl
  refine meets_bind (raising_reached (fun href => Job.hrefOf_of_fits hmodel (by decide)) hsofar)
    fun href => ?_
  apply meets_of_and
  rintro rfl
  refine meets_bind (raising_reached (P := Compiled job start threatModel)
    (fun _ hreview => hreview) hsofar) fun review => ?_
  apply meets_of_and
  intro hcompiled
  have hfits := Job.buildSecurityReview_fits hmodel hcompiled
  refine meets_imp (persist_reached hfits horder ?_) (fun _ hs => hs)
    (fun _ _ hs => ⟨review, hcompiled, hs⟩) fun _ hs => hs
  intro id hid _
  rw [Job.fits_id hfits (by decide)] at hid
  cases hid
  rfl

end Stages

theorem ideaIdOf_reached {counted : List Kind} {turn : Nat}
    (horder : docs.map Prod.fst <+: stageOrder) :
    Meets (Reached job start docs counted turn) (Pipeline.ideaIdOf rt job.idea)
      (fun ideaId s => (∀ id, Assoc.get job.idea (py "id") = some (.str id) → id ≠ [] →
          id = ideaId) ∧ Reached job start docs (.idea :: counted) turn s)
      (Stopped job start) := by
  have hcount : Meets (Reached job start docs counted turn) (nextArtifactId .idea)
      (fun _ => Reached job start docs (.idea :: counted) turn) (Stopped job start) := by
    intro s hs
    refine ⟨⟨hs.written, ?_, hs.createdAt, hs.tick⟩, hs.wrote, hs.handled⟩
    intro kind hkind
    rw [List.mem_cons, not_or] at hkind
    exact (Assoc.get_set_of_ne _ _ (Ne.symm hkind.1)).trans (hs.counters kind hkind.2)
  rw [Pipeline.ideaIdOf]
  split
  · rename_i value hvalue
    split
    · have hraised : ∀ P : PyStr → Prop, (∀ ideaId, value.text rt = .ok ideaId → P ideaId) →
          Meets (Reached job start docs counted turn) (raising (value.text rt))
            (fun ideaId s => P ideaId ∧ Reached job start docs counted turn s)
            (Stopped job start) := fun _ h => raising_reached h horder
      refine meets_imp (hraised _ ?_) (fun _ hs => hs) (fun _ _ hs => ⟨hs.1, hs.2.more⟩)
        fun _ hs => hs
      rintro ideaId htext id hid -
      rw [hvalue] at hid
      cases hid
      exact Except.ok.inj htext
    · rename_i hfalsy
      refine meets_imp hcount (fun _ hs => hs) (fun _ _ hs => ⟨?_, hs⟩) fun _ hs => hs
      intro id hid hne
      rw [hvalue] at hid
      cases hid
      simp [Json.truthy, hne] at hfalsy
  · rename_i hnone
    refine meets_imp hcount (fun _ hs => hs) (fun _ _ hs => ⟨?_, hs⟩) fun _ hs => hs
    intro id hid
    rw [hnone] at hid
    cases hid

/-- What a run that returned has gone through. -/
structure Finished (job : Job rt source root) (start : State) (docs : List (Kind × Mapping))
    (result : PipelineResult) (s : State) : Prop where
  order : docs.map Prod.fst = stageOrder
  wrote : Wrote job start docs s.tools.world
  handled : s.tools.handled = start.tools.handled ++ docs.map fun doc => writeCall doc.2
  artifacts : result.artifacts = docs.foldl register start.written
  compiled : ∃ threatModel review, (.threatModel, threatModel) ∈ docs ∧
    (.securityReview, review) ∈ docs ∧ Compiled job start threatModel review
  traced : Traceability.traceFeature rt job.pipeline.repoRoot job.pipeline.featureId
    (result.artifacts.foldl (fun index entry =>
      Assoc.set index (storePath root entry.1) entry.2) []) = .ok result.trace

/-- The review among the documents names the digest of the task among them. -/
def ReviewNamesTask (rt : Runtime) (docs : List (Kind × Mapping)) : Prop :=
  ∃ task review digest, (.task, task) ∈ docs ∧ (.review, review) ∈ docs ∧
    Pipeline.canonicalDigest rt task = .ok digest ∧
    Assoc.get review (py "subject_digest") = some (.str digest)

theorem subjectDigest_of_produced {digest : PyStr} {skill : Skill} {document : Mapping}
    (hskill : defaultRegistry.get (py "reviewer") = .ok skill)
    (h : Produced job start .review skill [job.feature, job.reference start "task_id" .task,
      (py "subject_digest", .str digest)] document) :
    Assoc.get document (py "subject_digest") = some (.str digest) := by
  obtain ⟨content, assembled, hassembled, rfl⟩ := h
  cases hskill
  cases hassembled
  rfl

/-- A run goes through the stages in order, and through all of them when it returns; the
review is then made for the task as it was stored. -/
theorem run_bound (job : Job rt source root) (start : State) :
    Meets (fun s => s = start) (job.pipeline.run rt job.idea job.createdAt)
      (fun result s => ∃ docs, Finished job start docs result s ∧ ReviewNamesTask rt docs)
      (Stopped job start) := by
  have hbegin : Meets (fun s => s = start)
      (modify fun s => { s with createdAt := job.createdAt } : PipelineM PUnit)
      (fun _ => Reached job start [] [] 0) (Stopped job start) := by
    apply meets_modify
    rintro s rfl
    exact ⟨⟨rfl, fun _ _ => rfl, rfl, rfl⟩, .start, (List.append_nil _).symm⟩
  have hidea : (job.frame start .idea).Fits job.idea :=
    ⟨[], rfl, by simp [Job.frame, Job.front, Job.back]⟩
  refine meets_bind hbegin fun _ => ?_
  refine meets_bind (ideaIdOf_reached List.nil_prefix) fun ideaId => ?_
  apply meets_of_and
  intro hid
  refine meets_bind (persist_reached hidea ⟨_, rfl⟩ hid) fun ideaStage => ?_
  refine meets_of_pre (F := ideaId = documentId job.idea) ?_ ?_
  · intro s hs
    obtain ⟨id, hget, hne⟩ := hs.wrote.stored.named job.idea (by simp)
    rw [documentId_of_get hget, hid id hget hne]
  rintro rfl
  have hhref : ∀ href, job.pipeline.href rt (.str (documentId job.idea)) = .ok href →
      href = job.hrefOf start .idea := by
    intro href h
    cases h
    rfl
  refine meets_bind (raising_reached hhref ⟨_, rfl⟩) fun ideaHref => ?_
  apply meets_of_and
  intro hideaHref
  refine meets_bind (skill_reached rfl (fun _ _ => Job.assembleSpecification_assembled) rfl rfl
    (by decide) ⟨_, rfl⟩ _ hideaHref) ?_
  rintro ⟨specificationStage, specification⟩
  apply meets_of_and
  rintro ⟨hspecification, -⟩
  refine meets_bind (raising_reached (fun _ => Job.hrefOf_of_fits hspecification (by decide))
    ⟨_, rfl⟩) fun specificationHref => ?_
  apply meets_of_and
  intro hspecificationHref
  refine meets_bind (skill_reached rfl (fun _ _ => Job.assembleThreatModel_assembled) rfl rfl
    (by decide) ⟨_, rfl⟩ _ hspecificationHref) ?_
  rintro ⟨threatModelStage, threatModel⟩
  apply meets_of_and
  rintro ⟨hthreatModel, -⟩
  refine meets_bind (raising_reached (fun _ => Job.hrefOf_of_fits hthreatModel (by decide))
    ⟨_, rfl⟩) fun threatModelHref => ?_
  apply meets_of_and
  intro hthreatModelHref
  refine meets_bind (skill_reached rfl (fun _ _ => Job.assemblePlan_assembled) rfl rfl
    (by decide) ⟨_, rfl⟩ _ hthreatModelHref) ?_
  rintro ⟨planStage, plan⟩
  apply meets_of_and
  rintro ⟨hplan, -⟩
  refine meets_bind (raising_reached (fun _ => Job.item_of_fits hplan (by decide)) ⟨_, rfl⟩)
    fun planId => ?_
  apply meets_of_and
  rintro rfl
  refine meets_bind (raising_reached (fun _ => Job.hrefOf_of_fits hplan (by decide)) ⟨_, rfl⟩)
    fun planHref => ?_
  apply meets_of_and
  intro hplanHref
  refine meets_bind (skill_reached rfl (fun _ _ => Job.assembleTask_assembled) rfl rfl
    (by decide) ⟨_, rfl⟩ _ hplanHref) ?_
  rintro ⟨taskStage, task⟩
  apply meets_of_and
  rintro ⟨htask, -⟩
  refine meets_bind (securityReview_reached hthreatModel (by decide) ⟨_, rfl⟩) fun _ => ?_
  apply meets_of_exists
  intro securityReview
  apply meets_of_and
  intro hcompiled
  refine meets_bind (raising_reached (fun _ hdigest => hdigest) ⟨_, rfl⟩) fun taskDigest => ?_
  apply meets_of_and
  intro hdigest
  refine meets_bind (raising_reached (fun _ => Job.item_of_fits htask (by decide)) ⟨_, rfl⟩)
    fun taskId => ?_
  apply meets_of_and
  rintro rfl
  refine meets_bind (raising_reached (fun _ => Job.hrefOf_of_fits htask (by decide)) ⟨_, rfl⟩)
    fun taskHref => ?_
  apply meets_of_and
  intro htaskHref
  refine meets_bind (skill_reached rfl (fun _ _ => Job.assembleReview_assembled) rfl rfl
    (by decide) ⟨_, rfl⟩ _ htaskHref) ?_
  rintro ⟨reviewStage, review⟩
  apply meets_of_and
  rintro ⟨hreview, hproduced⟩ s hs
  simp only [get, getThe, MonadStateOf.get, bind, EStateM.bind, estate_get, job.root_eq]
  cases htrace : Traceability.traceFeature rt job.pipeline.repoRoot job.pipeline.featureId
      (s.written.foldl (fun index entry =>
        Assoc.set index (storePath root entry.1) entry.2) []) with
  | error e => exact ⟨_, List.prefix_rfl, hs.wrote⟩
  | ok trace =>
      refine ⟨_, ⟨rfl, hs.wrote, hs.handled, hs.written, ?_, htrace⟩, ?_⟩
      · exact ⟨threatModel, securityReview, by simp, by simp, hcompiled⟩
      · exact ⟨task, review, taskDigest, by simp, by simp, hdigest,
          subjectDigest_of_produced rfl hproduced⟩

/-- A run goes through the stages in order, and through all of them when it returns. -/
theorem run_reached (job : Job rt source root) (start : State) :
    Meets (fun s => s = start) (job.pipeline.run rt job.idea job.createdAt)
      (fun result s => ∃ docs, Finished job start docs result s) (Stopped job start) :=
  meets_imp (run_bound job start) (fun _ hs => hs) (fun _ _ ⟨docs, hs, _⟩ => ⟨docs, hs⟩)
    fun _ hs => hs

namespace Job

def outcome (job : Job rt source root) (start : State) :
    EStateM.Result PyError State PipelineResult :=
  job.pipeline.run rt job.idea job.createdAt start

/-- The result of a run that returns. -/
def result (job : Job rt source root) (start : State) : Option PipelineResult :=
  match job.outcome start with
  | .ok result _ => some result
  | .error _ _ => none

/-- The state that a run leaves, whether it returns or raises. -/
def final (job : Job rt source root) (start : State) : State :=
  match job.outcome start with
  | .ok _ s => s
  | .error _ s => s

theorem bound_of_result {result : PipelineResult} (h : job.result start = some result) :
    ∃ docs, Finished job start docs result (job.final start) ∧ ReviewNamesTask rt docs := by
  have hrun := run_bound job start start rfl
  simp only [Job.result, outcome] at h
  simp only [final, outcome]
  cases houtcome : job.pipeline.run rt job.idea job.createdAt start with
  | ok result' s =>
      rw [houtcome] at h hrun
      cases h
      exact hrun
  | error e s =>
      rw [houtcome] at h
      cases h

theorem finished_of_result {result : PipelineResult} (h : job.result start = some result) :
    ∃ docs, Finished job start docs result (job.final start) := by
  obtain ⟨docs, hfinished, -⟩ := bound_of_result h
  exact ⟨docs, hfinished⟩

theorem stopped_of_error (h : job.result start = none) : Stopped job start (job.final start) := by
  have hrun := run_reached job start start rfl
  simp only [Job.result, outcome] at h
  simp only [final, outcome]
  cases houtcome : job.pipeline.run rt job.idea job.createdAt start with
  | ok result s =>
      rw [houtcome] at h
      cases h
  | error e s =>
      rw [houtcome] at hrun
      exact hrun

/-- What a run has done to the store, wherever it ends: the writes of its first stages, in
order, and of all of them when it returns. Each was of a valid document, by a call that
the policy allowed. -/
structure StoredPrefix (job : Job rt source root) (start : State) (docs : List (Kind × Mapping)) :
    Prop where
  stages : docs.map Prod.fst <+: stageOrder
  files : (job.final start).tools.world.fs.content =
    Updates.replay (cells rt root (docs.map Prod.snd)) start.tools.world.fs.content
  fits : ∀ doc ∈ docs, (job.frame start doc.1).Fits doc.2
  granted : ∀ doc ∈ docs, ∃ tick disk, WriteGranted rt source root
    (job.pipeline.moments tick).executor (job.pipeline.moments tick).now doc.2 disk
  wrote : Wrote job start docs (job.final start).tools.world
  complete : (job.result start).isSome = true → docs.map Prod.fst = stageOrder

theorem storedPrefix_of_wrote (horder : docs.map Prod.fst <+: stageOrder)
    (hwrote : Wrote job start docs (job.final start).tools.world)
    (hcomplete : (job.result start).isSome = true → docs.map Prod.fst = stageOrder) :
    StoredPrefix job start docs :=
  ⟨horder, hwrote.stored.files, hwrote.fits, hwrote.granted, hwrote, hcomplete⟩

/-- A run leaves the store with the writes of a prefix of its stages. -/
theorem runs_store_stage_prefixes (job : Job rt source root) (start : State) :
    ∃ docs, StoredPrefix job start docs := by
  cases hresult : job.result start with
  | none =>
      obtain ⟨docs, horder, hwrote⟩ := stopped_of_error hresult
      exact ⟨docs, storedPrefix_of_wrote horder hwrote (by simp [hresult])⟩
  | some result =>
      obtain ⟨docs, hfinished⟩ := finished_of_result hresult
      have hall := hfinished.order
      exact ⟨docs, storedPrefix_of_wrote (hall ▸ List.prefix_rfl) hfinished.wrote fun _ => hall⟩

end Job

/-- The digests of the texts that the sample runs hash, by checksum. -/
def sampleDigests : List (Nat × Nat) := [
  (801291, 0x138a110ff131e0497da6773b9a105fecbb12e3833d9fd19dafec063b41b3445a),
  (982997, 0x1b669d54c4b139df1f5c3863eea6eec40b3fcdd1905c5b95a5151525851e2e5e),
  (724749, 0xe3d941f4a9f9f995ab9b2e9ce64875d92f52941357d49a4f7543a62a3715df08),
  (545759, 0xfe374d36f04c81d71ec0ccace5a1f30c31e0363ccd57131f40bddaf41560d7e5),
  (13447, 0xcd58d12ed72420c22a2bd73f07ae4f2225505b231053607ff76041fc7a1b2e17),
  (766657, 0x1eef4ab8bc41c0ff20e05b91f4b7b1372eaa7966fa9c0877400261559826af36),
  (265672, 0xa6458e6ca82e28b9ed78fdf861f90742aa779582f3c4680651b5fffa1d840443),
  (577776, 0xfc5cc4ec41d11a26923a81a472de33063f1231b9de656b26b7f64be0091f579e),
  (45079, 0xe1f3ced6d4e5ff8ed0d0c6efea791e4ddea5f8735119f22bdb47d163d3259012),
  (553658, 0x82d11c85d419fb37edd362993da8c1d7eef6ad65eeadabe01e9c0a67fa60bc25),
  (504715, 0x88ece735094feb2c79e5ac227b6c12c96f2d40353c576ab537bb05b323208a2a),
  (42256, 0x2488549bbd475fd51346122deb748ebf6e9b533ee339ca95f2091700d4e8a2d7),
  (673174, 0x355c3ef8bff9b7c926ec40403cd8cde2bfba525a47c970f3aef9038520cfee94),
  (27870, 0x3f6404bf0a3b206e9df7e9a43b8025cf205350fe0fbf1792f1278de9f56f4821),
  (256240, 0x44741e15a6f5d2992456b5380c12311de3da7c38912f8804538202099742efc0),
  (603921, 0x177d48afb1b91e37aa9a507f9e78250a95ef9c91da591e899066ef7fb37a5ea5),
  (659811, 0x13c529a331973c85d5a46ee388659323eb6e8dd30c07482561bfb3bb15218358),
  (943070, 0x79f17cd71f77161ce6c868bc3d4f2ed343ca86ccd69b0df8fc73182165e1aab9),
  (582623, 0x0f0408b98a3c13eff4b215f1a8b7167e58e0c28bb308e337cda2d816ce389751),
  (900266, 0xffab313b2f00c203cfe8bcf195aeddf5a49b9f3b0e0b387ed6bddc91462be46b),
  (546113, 0x36ec135a97153d70cfeae58fce707b6da49f59a725c61e3adeca39fef7870a2d),
  (387974, 0x59e3c1d502dc9f32d99adb697310b3cd5ecf87fc9c69ed83dfe43d96ebe43b76),
  (994171, 0x3b387cbf9ed875b2aed82359ac50227997169f17c26c5090e2cb351f678abccf),
  (584118, 0x280f5820c1d88c4f5df9ebb499358c3151586d6f2f22dca2fbe3dd7cdcff5a56),
  (248251, 0x6f2a233e415a13603d73f09b092e719d6009a635bb5407fe54498af2668bb696),
  (82454, 0xfbc264364e991a09aaed35fcd1870b276b923304355be6acf5c149736bdd313c),
  (971053, 0xf527e547afa7601b545c6a20c72a9e1a79902bdd9355527240d5a0f802e526cc),
  (877321, 0x4387c087cf7e7af6211498bd4a5dd99ca623140fcc2b24ee838651a7e821c388),
  (444867, 0xa018f790c843dec8f91799c828b78ed1bc99aed1e69f2b98282030ee693d0c6c),
  (863296, 0x998784ea2ba8004f60f21af5cf2d553cbcb2480e7a19c035c88df812bfc4ac42),
  (545834, 0x898548a32defa82308896487b6849c19df05ff568a629d758829b32b552c8b46),
  (37079, 0x81e237fc8a71f992e285da018d49a17328b12b8dd7b0244cdea45bf97b8a278d),
  (663138, 0xda0bca97cb6d1488b800d33f7ece2e77f78162e5ea3027a8122b7cd6ae4b6a16),
  (842354, 0xefe20fc7f3faf55a9ede577546ce79d82336c6514e2133dd128dfe9282508fb7),
  (339898, 0x48ca7c0137398aa73bc6af1c46da462f2b748a613d9d86202f2efa59efd20c1d),
  (896035, 0x0083320bea0f0f8cdd75f7493599b64418fc32e686e581f8b6e2ba433e1b4619),
  (646888, 0x4c626c70ab39b53a0558fa6444a68660666e1db168ff61ce255575abafe9e841),
  (168527, 0x640478e9266ed33cf123aeddb2a5543ba366744221c83dd4564c9b50ae02a64b),
  (728531, 0xf9d4a7446c9774462c607b5a8138ebc0cd25fe1752182f3d6305cdc990530a6f),
  (93964, 0x0a427057b168ba6ac9a404bcf7098a339dbdcf05e9571f0c6061a7b3bddf892e),
  (688986, 0x777ce7954dd0af252d25759e0b20220150dec7018e465d0f91bc334edc6dee29),
  (288263, 0xb53dfa26a1731ac0992fefada3c21a9dbd957d5894639bf58ef1da07103d096a),
  (29460, 0x996f2dbbec688c46c5ce94c25fd9e5e10040b55b077ccd56f43a96aab3ac17b7),
  (232729, 0x2f73d36365fc930aeb3a773294d42cf31f16d26c6101a6be154258b348fb2598),
  (324208, 0xc56cf59a67210cabbf1e4f674d60490c4de92076ab70ffe29e401f821acc2c46),
  (286494, 0xa64a5ed0151c751dd5ec7c84bc11f842386157996c111f7039e26201f038fcc3)]

/-- The signatures of the tokens of the sample runs. -/
def sampleSignatures : List (Nat × Nat) := [
  (967474, 0x2b6f6911e5e2ad9fe273225aa2ab385b3720cb2d02a90eb31ad9a7dab5fb883e),
  (852578, 0xa70af4807ad4e4972be041c22baa4b9e04e85a1bd72ef918d83903d89b3c833d),
  (993917, 0xd7a9aa236c1aa96294a077902175efb3b58fbd3220f9ad25ac8f056a16d3c4e2),
  (152285, 0xffbf94341d31c95c0ff964a167e4b868db9777a352fc374b8fc11ef1cd13bab9),
  (137542, 0x3897e3868a4bdd5d6e14480f936f6eec199e95fbdbf99db9f94c4043d43a1d2f),
  (674138, 0x07f763cf3bb518d1b9fd51985be77d8059f171da039d8da75de5eed005313a32)]

def sampleRuntime : Runtime := .recording sampleDigests sampleSignatures

def sampleSource : SchemaSource where
  dir := [py "repo", py "contracts", py "schemas"]
  elsewhere := fun _ _ => .ok false

def sampleRoot : Path := [py "repo", py "specs"]

/-- The schema files of the stages. -/
def sampleFiles : FileSystem :=
  (schemaFiles.filter fun entry => decide (entry.1 ∈ stageOrder.map Kind.name)).foldl
    (fun fs entry => (fs.writeBytes (sampleSource.dir ++ [entry.1 ++ schemaSuffix]) []).getD fs)
    (FileSystem.bare sampleSource.dir)

def object (members : List (String × Json)) : Json :=
  .obj (members.map fun member => (py member.1, member.2))

def text (s : String) : Json := .str (py s)

/-- What a cooperative model answers; its threat model names a waiver. -/
def sampleContent (role : PyStr) : Json :=
  if role = py "grill" then object [("actor_goal", object [("actors", .arr [text "user"]),
      ("goal", text "export")]),
    ("acceptance_criteria", .arr [object [("requirement_id", text "REQ-0001"),
      ("criterion", text "exports")]])]
  else if role = py "grill-security" then object [("risks", .arr [object
    [("id", text "RISK-0001"), ("category", text "spoofing"), ("scenario", text "forgery"),
      ("severity", text "medium"), ("control_id", text "CTRL-0001"),
      ("verification_test", text "forge"), ("waiver_id", text "WAIVER-0001")]])]
  else if role = py "planner" then object [("slices", .arr [object [("slice_id", text "S1"),
    ("title", text "export"), ("requirement_ids", .arr []), ("control_ids", .arr [])]])]
  else if role = py "task-writer" then object [("title", text "export"),
    ("requirement_ids", .arr [text "REQ-0001"]),
    ("tests", .arr [object [("kind", text "unit"), ("ref", text "test_export"),
      ("requirement_id", text "REQ-0001")]])]
  else object [("verdict", text "approved")]

/-- A model that answers each role with one text. -/
def answering (contents : PyStr → Json) (request : LLMRequest) : Except PyError LLMResponse := do
  pure ⟨← JsonText.dumps sampleRuntime {} (contents request.role), py "stub"⟩

abbrev sampleAnswer : LLMRequest → Except PyError LLMResponse := answering sampleContent

def sampleIdea (id : String) : Mapping :=
  [(py "schema_version", text "1.0.0"), (py "artifact_type", text "idea"), (py "id", text id),
    (py "created_at", text "2026-09-24"),
    (py "created_by", object [("type", text "human"), ("id", text "owner"),
      ("role", text "author")]),
    (py "title", text "export"), (py "problem", text "no export"), (py "actor_goal", text "export"),
    (py "source", object [("kind", text "issue"), ("trust_tier", text "untrusted")])]

def sampleRuns : RunRegistry where
  secret := (py "test-secret").flatMap PyStr.utf8Bytes
  runs := [(py "RUN-aaaaaa", {
    runId := py "RUN-aaaaaa"
    actor := [(py "type", text "agent"), (py "id", text "pipeline"),
      (py "role", text "implementer")]
    createdAt := 1000 })]

def samplePolicy : PolicyEvaluator := fun _ _ => .ok ⟨true, [py "ALLOWED"], py "unknown", []⟩

def sampleMoment (complete : LLMRequest → Except PyError LLMResponse) : Moment where
  now := 1000
  policy := samplePolicy
  capabilities := sampleRuns
  complete
  executor := {
    policy := samplePolicy
    capabilities := sampleRuns
    tools := ⟨[(py "write_artifact", writeArtifactTool sampleRuntime sampleSource sampleRoot)]⟩ }

/-- A run for a feature, in the repository at `/repo`. -/
def sampleJob (featureId hrefPrefix : String) (idea : Mapping)
    (complete : LLMRequest → Except PyError LLMResponse) :
    Job sampleRuntime sampleSource sampleRoot where
  pipeline := {
    featureId := py featureId
    runId := py "RUN-aaaaaa"
    skills := defaultRegistry
    storeRoot := sampleRoot
    repoRoot := [py "repo"]
    hrefPrefix := py hrefPrefix
    source := sampleSource
    validateDocument := documentValidator sampleSource sampleFiles
    moments := fun _ => sampleMoment complete }
  idea
  createdAt := py "2026-09-24"
  source_eq := rfl
  root_eq := rfl
  skills_eq := rfl
  tool_eq := fun _ => rfl

def sampleState : State where
  tools := { world := { fs := sampleFiles } }
  model := {}

def itemsAt (document : Mapping) (key : PyStr) : List Json :=
  match Assoc.get document key with
  | some (.arr items) => items
  | _ => []

def memberText (value : Json) (key : PyStr) : Option PyStr := (value.get? key).bind Json.str?

def calledDocument (call : PyStr × Mapping) : Mapping :=
  match Assoc.get call.2 (py "document") with
  | some (.obj document) => document
  | _ => []

/-- The risks that a document waives. -/
def waivedRisks (document : Mapping) : List PyStr :=
  (itemsAt document (py "risk_dispositions")).filterMap fun entry =>
    if memberText entry (py "disposition") = some (py "waived_medium") then
      memberText entry (py "risk_id")
    else none

abbrev exportJob : Job sampleRuntime sampleSource sampleRoot :=
  sampleJob "FEAT-0001" "specs" (sampleIdea "IDEA-0001") sampleAnswer

end SecureSdlc.Orchestrator

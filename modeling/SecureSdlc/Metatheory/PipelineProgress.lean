import SecureSdlc.Metatheory.StageCalls
import SecureSdlc.Metatheory.StageLinks

/-!
A run whose collaborators cooperate returns. The policies allow, the registries know the
run and share their secret, the clock is no slower than a token lasts, and the model answers
every request with members that the stage's schema admits; then each stage is persisted,
with a document made from such an answer, and the trace is made. What a run does when one
of them does not cooperate is not looked at.
-/

namespace SecureSdlc.Orchestrator

open Core Core.Schema Evidence Policy Runner Skills Tools Artifacts Contracts Traceability

variable {rt : Runtime} {source : SchemaSource} {root : Path}

/-- The policy allows every payload. -/
def Allows (policy : PolicyEvaluator) : Prop :=
  ∀ payload, ∃ verdict, policy policyPoint payload = .ok verdict ∧ verdict.allow = true

/-- The calls that a pipeline asks tokens for: their tools and scopes. -/
def tokenCalls : List (PyStr × PyStr) :=
  (py "write_artifact", py "workspace") ::
    defaultSkills.map fun skill => (skill.toolName, py "skills")

/-- A context of documents that can be recorded. -/
def Apt (context : Mapping) : Prop :=
  ∀ entry ∈ context, ∃ kind document, Recordable kind document ∧ entry.2 = .obj document

theorem Kind.outputSchema_eq {kind : Kind} {skill : Skill} (h : kind.skill = some skill) :
    skill.outputSchema = kind.schemaName := by
  cases kind <;> cases h <;> decide

theorem Kind.tokenCall {kind : Kind} {skill : Skill} (h : kind.skill = some skill) :
    (skill.toolName, py "skills") ∈ tokenCalls := by
  cases kind <;> cases h <;> decide

namespace Job

variable (job : Job rt source root) (start : State)

def momentAt (tick : Nat) : Moment := job.pipeline.moments (start.tick + tick)

/-- The model answers the request of a stage with this content. -/
def Answered (kind : Kind) (context content : Mapping) : Prop :=
  ∃ skill response, kind.skill = some skill ∧
    (job.momentAt start kind.turn).complete ⟨skill.role, skill.systemPrompt, context⟩ =
      .ok response ∧
    PyStr.encodable response.text = true ∧ extractJson rt response.text = .ok content

/-- What a run asks of the registries and of the clock from one call to the next. -/
structure Served (tick : Nat) : Prop where
  live : Live (job.momentAt start tick).capabilities job.pipeline.runId
  liveTools : Live (job.momentAt start tick).executor.capabilities job.pipeline.runId
  secret : (job.momentAt start (tick + 1)).capabilities.secret =
    (job.momentAt start tick).capabilities.secret
  secretTools : (job.momentAt start (tick + 1)).executor.capabilities.secret =
    (job.momentAt start tick).capabilities.secret
  clock : (job.momentAt start (tick + 1)).now ≤ (job.momentAt start tick).now + defaultTtlSeconds
  short : JsonText.shortInt ((job.momentAt start tick).now + defaultTtlSeconds) = true
  signs : ∀ call ∈ tokenCalls, signs rt (job.momentAt start tick).capabilities.secret
    ⟨job.pipeline.runId, call.1, call.2, (job.momentAt start tick).now + defaultTtlSeconds⟩ = true
  allows : Allows (job.momentAt start tick).policy
  allowsTools : Allows (job.momentAt start tick).executor.policy

/-- What a run asks of its model: an answer to every request whose members the schema of the
stage admits, and a task whose digest is one. -/
structure Advised : Prop where
  answers : ∀ kind : Kind, kind.skill.isSome = true → ∀ context, Apt context →
    ∃ content, job.Answered start kind context content ∧
      ∀ member ∈ kind.chosen content, SoundMember kind.properties member
  digests : ∀ context content digest, job.Answered start .task context content →
    Pipeline.canonicalDigest rt (job.document start [] content .task) = .ok digest →
      isSha256 digest = true

/-- Everything that a run needs to return. -/
structure Cooperates : Prop where
  writeRoom : 6 ≤ rt.dumpsRoom
  readRoom : 0 < rt.loadsRoom
  fresh : start.written = []
  platform : job.Platform start
  idea : ∃ kind, Recordable kind job.idea
  ready : Ready source root start.tools.world
  placed : job.pipeline.repoRoot <+: root ∧ RealPath root
  validator : ∀ (kind : Kind) document, job.pipeline.validateDocument kind.schemaName
    (.obj document) = .ok (kind.schema.valid (.obj document))
  served : ∀ tick, job.Served start tick
  advised : job.Advised start

/-- Where a persisted document of a run comes from: a stage of a skill has one that is made
from an answer of the model. -/
structure Supplied (doc : Kind × Mapping) : Prop where
  recordable : ∃ kind, Recordable kind doc.2 ∧ (doc.1 ≠ .idea → kind = doc.1)
  answered : doc.1.skill.isSome = true → ∃ context content digest,
    job.Answered start doc.1 context content ∧ doc.2 = job.document start digest content doc.1

variable {job start} {kind : Kind}

/-- No number ends in a newline, so the ids of the stages are plain identifiers. -/
theorem identifierBody_idOf (platform : job.Platform start) (hidea : kind ≠ .idea) :
    identifierBody (job.idOf start kind) = true := by
  have hid : isIdentifier (job.idOf start kind) = true := (platform.ids kind).valid
  cases kind with
  | idea => exact absurd rfl hidea
  | _ => exact (upToNewline_zeroPadded identifierBody _ _).symm.trans hid

theorem get_links_of_assembled_document (hskill : kind.skill.isSome = true) (digest : PyStr)
    (content : Mapping) :
    Assoc.get (job.assembled start digest content kind) (py "links") = none := by
  apply Assoc.get_of_not_mem
  rw [assembled_keys hskill]
  cases kind with
  | idea | securityReview => cases hskill
  | _ => decide

theorem hrefOf_ok {document : Mapping} (h : (job.frame start kind).Fits document)
    (hidea : kind ≠ .idea) : job.pipeline.hrefOf rt document = .ok (job.hrefOf start kind) := by
  simp only [Pipeline.hrefOf, item, fits_id h hidea]
  rfl

theorem item_ok {document : Mapping} (h : (job.frame start kind).Fits document)
    (hidea : kind ≠ .idea) : item document (py "id") = .ok (.str (job.idOf start kind)) := by
  rw [item, fits_id h hidea]

end Job

variable {job : Job rt source root} {start : State} {docs : List (Kind × Mapping)}
  {counted : List Kind} {turn : Nat}

/-- A run that is still going, as it goes when everything cooperates. -/
structure Going (job : Job rt source root) (start : State) (docs : List (Kind × Mapping))
    (counted : List Kind) (turn : Nat) (s : State) : Prop extends
    Books job start docs counted turn s where
  ready : Ready source root s.tools.world
  handled : s.tools.handled = start.tools.handled ++ docs.map fun doc => writeCall doc.2
  supplied : ∀ doc ∈ docs, job.Supplied start doc

/-- After the executor's call: the document is in the store, and not yet in the books. -/
structure Entered (job : Job rt source root) (start : State) (docs : List (Kind × Mapping))
    (counted : List Kind) (turn : Nat) (document : Mapping) (s : State) : Prop extends
    Books job start docs counted turn s where
  ready : Ready source root s.tools.world
  handled : s.tools.handled =
    start.tools.handled ++ (docs.map fun doc => writeCall doc.2) ++ [writeCall document]
  supplied : ∀ doc ∈ docs, job.Supplied start doc

/-- From these states the program returns, into those. -/
def Succeeds {α : Type} (pre : State → Prop) (prog : PipelineM α) (post : α → State → Prop) :
    Prop :=
  Meets pre prog post fun _ => False

/-- A token that both hosts accept at this call. -/
def Usable (job : Job rt source root) (start : State) (tick : Nat) (tool scope token : PyStr) :
    Prop :=
  (∃ capability holder, TokenAccepted rt (job.momentAt start tick).capabilities token tool scope
    (job.momentAt start tick).now capability holder) ∧
  ∃ capability holder, TokenAccepted rt (job.momentAt start tick).executor.capabilities
    token tool scope (job.momentAt start tick).now capability holder

section Calls

variable (h : job.Cooperates start)

theorem moment_going : Succeeds (Going job start docs counted turn) job.pipeline.moment
    (fun moment s => moment = job.momentAt start turn ∧
      Going job start docs counted (turn + 1) s) := by
  intro s hs
  refine ⟨congrArg _ hs.tick, ⟨hs.written, hs.counters, hs.createdAt, ?_⟩, hs.ready, hs.handled,
    hs.supplied⟩
  change s.tick + 1 = start.tick + (turn + 1)
  rw [hs.tick, Nat.add_assoc]

theorem raising_going {α : Type} {outcome : Except PyError α} {a : α} (h : outcome = .ok a) :
    Succeeds (Going job start docs counted turn) (raising outcome)
      (fun b s => b = a ∧ Going job start docs counted turn s) :=
  meets_raising_of_ok h fun _ hs => ⟨rfl, hs⟩

theorem nextDecisionId_going : Succeeds (Going job start docs counted turn) nextDecisionId
    (fun _ => Going job start docs counted turn) :=
  fun _ hs => ⟨⟨hs.written, hs.counters, hs.createdAt, hs.tick⟩, hs.ready, hs.handled, hs.supplied⟩

theorem nextEvidenceId_going : Succeeds (Going job start docs counted turn) nextEvidenceId
    (fun _ => Going job start docs counted turn) :=
  fun _ hs => ⟨⟨hs.written, hs.counters, hs.createdAt, hs.tick⟩, hs.ready, hs.handled, hs.supplied⟩

theorem nextArtifactId_going {kind : Kind} (hidea : kind ≠ .idea) (hkind : kind ∉ counted) :
    Succeeds (Going job start docs counted turn) (nextArtifactId kind)
      (fun id s => id = job.idOf start kind ∧ Going job start docs (kind :: counted) turn s) := by
  intro s hs
  simp only [nextArtifactId, get, getThe, MonadStateOf.get, bind, EStateM.bind, estate_get, set,
    estate_set, pure, EStateM.pure, hs.counters kind hkind]
  refine ⟨?_, ⟨hs.written, ?_, hs.createdAt, hs.tick⟩, hs.ready, hs.handled, hs.supplied⟩
  · cases kind with
    | idea => exact absurd rfl hidea
    | _ => rfl
  · intro other hother
    rw [List.mem_cons, not_or] at hother
    rw [Assoc.get_set_of_ne _ _ (Ne.symm hother.1)]
    exact hs.counters other hother.2

include h

theorem issue_going {tool scope : PyStr} (hcall : (tool, scope) ∈ tokenCalls) :
    Succeeds (Going job start docs counted turn) (job.pipeline.issue rt tool scope)
      (fun token s => Usable job start (turn + 1) tool scope token ∧
        Going job start docs counted (turn + 1) s) := by
  refine meets_bind moment_going fun moment => ?_
  apply meets_of_and
  rintro rfl
  have hnow := h.served turn
  have hnext := h.served (turn + 1)
  have htexts : ∀ call ∈ tokenCalls, PyStr.encodable call.1 = true ∧
      PyStr.encodable call.2 = true := by decide
  have hroom := h.writeRoom
  obtain ⟨token, htoken, haccepted⟩ := issue_accepted (by omega) h.readRoom hnow.short
    (hnow.signs _ hcall) h.platform.run.texts (htexts _ hcall).1 (htexts _ hcall).2 hnow.live
  refine meets_raising_of_ok htoken fun s hs => ⟨⟨?_, ?_⟩, hs⟩
  · exact haccepted _ _ hnow.secret hnext.live hnow.clock
  · exact haccepted _ _ hnow.secretTools hnext.liveTools hnow.clock

/-- The executor writes a document that can be recorded. -/
theorem execute_going {kind : Kind} {document : Mapping} {call : Invocation}
    (hrecordable : Recordable kind document) (hrun : call.runId = job.pipeline.runId)
    (htool : call.tool = py "write_artifact") (hscope : call.scope = py "workspace")
    (hresource : call.resource = []) (hargs : call.args = [(py "document", .obj document)])
    (htoken : Usable job start turn (py "write_artifact") (py "workspace") call.token) :
    Succeeds (Going job start docs counted turn) (job.pipeline.execute rt call)
      (fun result s => result.allowed = true ∧
        Entered job start docs counted (turn + 1) document s) := by
  refine meets_bind moment_going fun moment => ?_
  apply meets_of_and
  rintro rfl s hs
  have hnow := h.served turn
  obtain ⟨run, hrunning, -⟩ := hnow.liveTools
  obtain ⟨verdict, hverdict, hallow⟩ := hnow.allowsTools
    (policyPayload call.tool [] call.scope run.actor)
  have gates : ToolGates rt (job.momentAt start turn).executor call (job.momentAt start turn).now
      run [] verdict (writeArtifactTool rt source root) := by
    refine ⟨hrun ▸ hrunning, ?_, hverdict, hallow, ?_, ?_, ?_, ?_⟩
    · rw [hresource, hargs]
      rfl
    · rw [htool, hscope]
      exact htoken.2
    · rw [htool]
      exact job.tool_eq _
    · rw [hscope]
      rfl
    · rw [hargs]
      rfl
  obtain ⟨result, after, hexecute, hallowed, hready, hhandled⟩ :=
    execute_writes gates htool hargs hs.ready hrecordable h.writeRoom
  simp only [get, getThe, MonadStateOf.get, bind, EStateM.bind, estate_get, set, estate_set,
    hexecute]
  refine ⟨hallowed, ⟨hs.written, hs.counters, hs.createdAt, hs.tick⟩, hready, ?_, hs.supplied⟩
  change after.handled = _
  rw [hhandled, hs.handled]

/-- A stage whose document can be recorded is persisted. -/
theorem persist_going {stage kind : Kind} {document : Mapping}
    (hrecordable : Recordable kind document) (hsupplied : job.Supplied start (stage, document)) :
    Succeeds (Going job start docs counted turn)
      (job.pipeline.persist rt stage (documentId document) document)
      (fun _ => Going job start (docs ++ [(stage, document)]) counted (turn + 2)) := by
  refine meets_bind (M := fun s s' => Ready source root s.tools.world ∧
    Going job start docs counted turn s') (meets_get fun s hs => ⟨hs.ready, hs⟩) fun s => ?_
  apply meets_of_and
  intro hready
  have hvalid := hready.validateArtifact (Kind.artifactType_of_sound hrecordable.sound)
  rw [hrecordable.sound.valid, ← job.source_eq] at hvalid
  refine meets_bind (raising_going hvalid) fun valid => ?_
  apply meets_of_and
  rintro rfl
  refine meets_bind (issue_going h (by decide)) fun token => ?_
  apply meets_of_and
  intro htoken
  refine meets_bind nextDecisionId_going fun decisionId => ?_
  refine meets_bind nextEvidenceId_going fun evidenceId => ?_
  refine meets_bind (execute_going h hrecordable rfl rfl rfl rfl rfl htoken) fun result => ?_
  apply meets_of_and
  intro hallowed
  rw [hallowed]
  refine meets_bind (meets_modify _ ?_) fun _ => meets_pure _ fun _ hs => hs
  intro s hs
  refine ⟨⟨?_, hs.counters, hs.createdAt, hs.tick⟩, hs.ready, ?_, ?_⟩
  · rw [List.foldl_append, ← hs.written]
    rfl
  · exact hs.handled.trans (by rw [List.map_append, List.append_assoc]; rfl)
  · rw [List.forall_mem_append]
    exact ⟨hs.supplied, fun doc hdoc => List.mem_singleton.mp hdoc ▸ hsupplied⟩

/-- A model's answer to the request of a stage is assembled. -/
theorem runSkill_going {kind : Kind} {skill : Skill} {digest : PyStr} {call : SkillCall}
    (hskill : kind.skill = some skill) (hget : defaultRegistry.get call.skillName = .ok skill)
    (htool : call.tool = skill.toolName) (hrun : call.runId = job.pipeline.runId)
    (hscope : call.scope = py "skills") (hturn : kind.turn = turn)
    (hinputs : ∀ item ∈ call.inputs, classifySource item.source ≠ .sensitive ∧
      ∃ kind, Recordable kind item.document)
    (hnames : skill.contextKeys = call.inputs.map ContextInput.name)
    (henvelope : call.envelope (job.actor start kind) =
      job.envelope start kind (job.bindings start digest kind))
    (hdigest : kind = .review → isSha256 digest = true)
    (htoken : Usable job start turn skill.toolName (py "skills") call.token) :
    Succeeds (Going job start docs counted turn) (job.pipeline.runSkill rt call)
      (fun result s => (result.allowed = true ∧ ∃ context content,
          job.Answered start kind context content ∧
          (∀ member ∈ kind.chosen content, SoundMember kind.properties member) ∧
          result.artifact = some (job.assembled start digest content kind)) ∧
        Going job start docs counted (turn + 1) s) := by
  refine meets_bind moment_going fun moment => ?_
  apply meets_of_and
  rintro rfl s hs
  have hnow := h.served turn
  obtain ⟨run, hrunning, -⟩ := hnow.live
  obtain ⟨verdict, hverdict, hallow⟩ := hnow.allows
    (policyPayload call.tool [] call.scope run.actor)
  obtain ⟨context, hcontext, hkeys, hentries⟩ :=
    buildContext_ok rt fun item hitem => (hinputs item hitem).1
  have hapt : Apt context := by
    intro entry hentry
    obtain ⟨item, hitem, heq⟩ := hentries entry hentry
    obtain ⟨kind, hrecordable⟩ := (hinputs item hitem).2
    exact ⟨kind, item.document, hrecordable, heq⟩
  have gates : SkillGates rt (job.pipeline.skillRunner (job.momentAt start turn)) call
      (job.momentAt start turn).now run verdict skill context := by
    refine ⟨hrun ▸ hrunning, hverdict, hallow, ?_, ?_, hcontext, fun key hkey =>
      hkeys key (hnames ▸ hkey)⟩
    · rw [htool, hscope]
      exact htoken.1
    · change job.pipeline.skills.get call.skillName = _
      rw [job.skills_eq, hget]
  have hsome : kind.skill.isSome = true := by rw [hskill]; rfl
  obtain ⟨content, hanswered, hchosen⟩ := h.advised.answers kind hsome context hapt
  obtain ⟨skill', response, hskill', hcomplete, htext, hextract⟩ := hanswered
  obtain rfl : skill' = skill := Option.some.inj (hskill'.symm.trans hskill)
  have hreview : kind ≠ .securityReview := by
    rintro rfl
    cases hskill
  have hactor : job.actor start kind = run.actor := by
    refine Job.actor_of_run hreview ?_
    rw [hturn]
    exact hrunning
  have hassemble : skill'.assemble content (call.envelope run.actor) =
      .ok (job.assembled start digest content kind) := by
    rw [← hactor, henvelope]
    exact job.assemble_eq start hskill digest content
  have hvalid : job.pipeline.validateDocument skill'.outputSchema
      (.obj (job.assembled start digest content kind)) = .ok true := by
    rw [Kind.outputSchema_eq hskill, h.validator,
      (Job.assembled_valid_iff hsome digest content h.platform hdigest).mpr]
    exact fun member hmember => (hchosen member hmember).imp fun _ hs => ⟨hs.1, hs.2.valid⟩
  rw [hturn] at hcomplete
  obtain ⟨result, after, hrun', hallowed, hartifact⟩ := runSkill_answers gates hcomplete htext
    hextract hassemble hvalid s.model
  simp only [get, getThe, MonadStateOf.get, bind, EStateM.bind, estate_get, set, estate_set,
    hrun']
  refine ⟨⟨hallowed, context, content, ?_, hchosen, hartifact⟩, ⟨hs.written, hs.counters,
    hs.createdAt, hs.tick⟩, hs.ready, hs.handled, hs.supplied⟩
  exact ⟨skill', response, hskill, hturn ▸ hcomplete, htext, hextract⟩

/-- The document of an answer can be recorded. -/
theorem recordable_document {kind : Kind} (hskill : kind.skill.isSome = true) {digest : PyStr}
    (hdigest : kind = .review → Sound sha256 (.str digest))
    {content : Mapping}
    (hchosen : ∀ member ∈ kind.chosen content, SoundMember kind.properties member) :
    Recordable kind (job.document start digest content kind) := by
  have hidea : kind ≠ .idea := by
    rintro rfl
    cases hskill
  refine ⟨Job.document_sound hskill digest content h.platform hdigest hchosen, ?_⟩
  rw [Job.fits_documentId (Job.document_fits hskill digest content)]
  exact Job.identifierBody_idOf h.platform hidea

/-- A stage of a skill is persisted, with the document of an answer. -/
theorem skill_going (digest : PyStr) {kind target : Kind} {rel : String} {skillName : PyStr}
    {skill : Skill} {inputs : List ContextInput} (hskill : kind.skill = some skill)
    (hget : defaultRegistry.get skillName = .ok skill)
    (htool : py "skill." ++ skillName = skill.toolName)
    (hback : job.back start kind = [job.link start rel target]) (hturn : kind.turn = turn + 1)
    (hkind : kind ∉ counted)
    (hinputs : ∀ item ∈ inputs, classifySource item.source ≠ .sensitive ∧
      ∃ kind, Recordable kind item.document)
    (hnames : skill.contextKeys = inputs.map ContextInput.name)
    (hdigest : kind = .review → Sound sha256 (.str digest))
    {href : PyStr} (hhref : href = job.hrefOf start target) :
    Succeeds (Going job start docs counted turn)
      (job.pipeline.skill rt skillName kind inputs (job.bindings start digest kind)
        [⟨py rel, href⟩])
      (fun result s => (Recordable kind result.2 ∧ (job.frame start kind).Fits result.2 ∧
          ∃ context content, job.Answered start kind context content ∧
            result.2 = job.document start digest content kind) ∧
        Going job start (docs ++ [(kind, result.2)]) (kind :: counted) (turn + 4) s) := by
  have hsome : kind.skill.isSome = true := by rw [hskill]; rfl
  have hidea : kind ≠ .idea := by
    rintro rfl
    cases hskill
  have hregistered : job.pipeline.skills.get skillName = .ok skill := job.skills_eq ▸ hget
  refine meets_bind (raising_going hregistered) fun found => ?_
  apply meets_of_and
  rintro rfl
  refine meets_bind (nextArtifactId_going hidea hkind) fun artifactId => ?_
  apply meets_of_and
  rintro rfl
  refine meets_bind (issue_going h (Kind.tokenCall hskill)) fun token => ?_
  apply meets_of_and
  intro htoken
  refine meets_bind (M := fun s s' => s.createdAt = job.createdAt ∧
    Going job start docs (kind :: counted) (turn + 1) s')
    (meets_get fun s hs => ⟨hs.createdAt, hs⟩) fun s => ?_
  apply meets_of_and
  intro hcreated
  refine meets_bind nextDecisionId_going fun decisionId => ?_
  refine meets_bind nextEvidenceId_going fun evidenceId => ?_
  refine meets_bind (runSkill_going h hskill hget htool rfl rfl hturn hinputs hnames
    (by rw [SkillCall.envelope, hcreated]; rfl) (fun hreview => (hdigest hreview).valid) htoken)
    fun result => ?_
  apply meets_of_and
  rintro ⟨hallowed, context, content, hanswered, hchosen, hartifact⟩
  have hrecordable := recordable_document h hsome hdigest hchosen
  have hlinked : addLinks rt (job.assembled start digest content kind) [⟨py rel, href⟩] =
      .ok (job.document start digest content kind) := by
    rw [addLinks_of_absent (Job.get_links_of_assembled_document hsome digest content), hhref,
      Job.document, hback]
    rfl
  have hid : documentId (job.document start digest content kind) = job.idOf start kind :=
    Job.fits_documentId (Job.document_fits hsome digest content)
  rw [hallowed, hartifact]
  refine meets_bind (raising_going hlinked) fun linked => ?_
  apply meets_of_and
  rintro rfl
  rw [← hid]
  refine meets_bind (persist_going h hrecordable ⟨⟨kind, hrecordable, fun _ => rfl⟩, fun _ =>
    ⟨context, content, digest, hanswered, rfl⟩⟩) fun stage => ?_
  exact meets_pure _ fun s hs =>
    ⟨⟨hrecordable, Job.document_fits hsome digest content, context, content, hanswered, rfl⟩, hs⟩

/-- The security review of a sound threat model is compiled and persisted. -/
theorem securityReview_going {threatModel : Mapping}
    (hmodel : (job.frame start .threatModel).Fits threatModel)
    (hsound : Recordable .threatModel threatModel) (hkind : .securityReview ∉ counted) :
    Succeeds (Going job start docs counted turn)
      (job.pipeline.securityReview rt threatModel job.createdAt)
      (fun _ s => ∃ review, Going job start (docs ++ [(.securityReview, review)])
        (.securityReview :: counted) (turn + 2) s) := by
  refine meets_bind (nextArtifactId_going (by decide) hkind) fun artifactId => ?_
  apply meets_of_and
  rintro rfl
  refine meets_bind (raising_going (Job.hrefOf_ok hmodel (by decide))) fun href => ?_
  apply meets_of_and
  rintro rfl
  have platform := h.platform
  have envelope : ReviewEnvelope job.pipeline.featureId (job.idOf start .securityReview)
      job.createdAt Pipeline.securityReviewer job.pipeline.runId
      (job.hrefOf start .threatModel) :=
    ⟨platform.feature, platform.ids .securityReview, platform.createdAt,
      platform.actor .securityReview, platform.run, platform.hrefs .threatModel⟩
  obtain ⟨review, hreview, hvalid⟩ := buildSecurityReview_sound rt hsound.sound envelope
  have hfits := Job.buildSecurityReview_fits hmodel hreview
  have hid : documentId review = job.idOf start .securityReview := Job.fits_documentId hfits
  have hrecordable : Recordable .securityReview review :=
    ⟨hvalid, hid ▸ Job.identifierBody_idOf platform (by decide)⟩
  refine meets_bind (raising_going hreview) fun compiled => ?_
  apply meets_of_and
  rintro rfl
  rw [← hid]
  refine meets_imp (persist_going h hrecordable
    ⟨⟨_, hrecordable, fun _ => rfl⟩, fun hskill => nomatch hskill⟩)
    (fun _ hs => hs) (fun _ _ hs => ⟨_, hs⟩) fun _ hs => hs

theorem ideaIdOf_going : Succeeds (Going job start docs counted turn)
    (Pipeline.ideaIdOf rt job.idea)
    (fun ideaId s => ideaId = documentId job.idea ∧ Going job start docs counted turn s) := by
  obtain ⟨kind, hrecordable⟩ := h.idea
  have hne : documentId job.idea ≠ [] := by
    intro hnil
    have hidentifier := hrecordable.identified
    rw [hnil] at hidentifier
    cases hidentifier
  simp only [Pipeline.ideaIdOf, hrecordable.id_eq, Json.text_str, truthy_str hne, if_true]
  exact meets_pure _ fun s hs => ⟨rfl, hs⟩

omit h in
/-- The digest of a document that can be recorded is there, and is encodable. -/
theorem canonicalDigest_recordable {kind : Kind} {document : Mapping} (hroom : 4 ≤ rt.dumpsRoom)
    (hrecordable : Recordable kind document) :
    ∃ digest, Pipeline.canonicalDigest rt document = .ok digest ∧
      PyStr.encodable digest = true := by
  obtain ⟨text, htext⟩ := (JsonText.exists_write_iff JsonText.canonical rt.dumpsRoom _).mpr
    (hrecordable.writable hroom)
  have hencodable : PyStr.encodable text = true :=
    (JsonText.encodable_write rfl (by decide) (by decide) htext).trans hrecordable.sound.texts
  refine ⟨rt.hexdigest (text.flatMap PyStr.utf8Bytes), ?_,
    DeployVerify.encodable_hexdigest rt _⟩
  simp only [Pipeline.canonicalDigest, JsonText.dumps, htext, bind, Except.bind, PyStr.encodeUtf8,
    hencodable, if_true]
  rfl

end Calls

/-- The index of a run's trace has the documents that the run has persisted. -/
def indexOf (root : Path) (written : List (PyStr × Mapping)) : Index :=
  written.foldl (fun index entry => Assoc.set index (storePath root entry.1) entry.2) []

/-- The documents of a run can be traced. -/
theorem traceFeature_recordable (rt : Runtime) {repoRoot : Path} (featureId : PyStr)
    (hbelow : repoRoot <+: root) (hreal : RealPath root)
    (hdocs : ∀ doc ∈ docs, ∃ kind, Recordable kind doc.2) :
    ∃ report, traceFeature rt repoRoot featureId (indexOf root (docs.foldl register [])) =
      .ok report := by
  have hentries : ∀ entry ∈ indexOf root (docs.foldl register []), ∃ kind id,
      Recordable kind entry.2 ∧ entry.1 = root ++ [ArtifactStore.fileName id] ∧
        Path.slash ∉ id := by
    intro entry hentry
    obtain ⟨stored, hstored, rfl⟩ := (Assoc.mem_foldl_set hentry).resolve_left (by simp)
    obtain ⟨doc, hdoc, rfl⟩ := (Assoc.mem_foldl_set hstored).resolve_left (by simp)
    obtain ⟨kind, hrecordable⟩ := hdocs doc hdoc
    have hslash := slash_not_mem_identifierBody hrecordable.identified
    exact ⟨kind, _, hrecordable, storePath_of_no_slash hslash, hslash⟩
  let catalog : Catalog := {
    entries := indexOf root (docs.foldl register [])
    unique := Assoc.unique_foldl_set _ List.nodup_nil
    real := by
      intro entry hentry
      obtain ⟨kind, id, -, hpath, hslash⟩ := hentries entry hentry
      rw [hpath]
      refine realPath_append hreal fun c hc => ?_
      rw [List.mem_singleton.mp hc]
      exact ⟨fileName_no_slash hslash, skipped_fileName _⟩ }
  have hreadable : Readable rt repoRoot catalog := by
    refine ⟨?_, ?_⟩
    · intro entry hentry
      obtain ⟨kind, id, -, hpath, -⟩ := hentries entry hentry
      rw [hpath]
      exact hbelow.trans (List.prefix_append _ _)
    · intro entry hentry
      obtain ⟨kind, -, hrecordable, -⟩ := hentries entry hentry
      exact Kind.localLinkTargets_of_sound hrecordable.sound
  have hnodes : ∀ p, Connected rt repoRoot catalog featureId p →
      ∃ node, traceNode rt repoRoot catalog.entries p = .ok node := by
    intro p hp
    obtain ⟨document, hdocument⟩ := mem_of_connected hp
    obtain ⟨kind, -, hrecordable, -⟩ := hentries _ hdocument
    have hat : documentAt catalog p = document := documentAt_of_mem hdocument
    have hid : textAt rt (documentAt catalog p) (py "id") = .ok (documentId document) := by
      rw [hat, textAt, hrecordable.id_eq, Option.getD_some, Json.text_str]
    have htype : textAt rt (documentAt catalog p) (py "artifact_type") = .ok kind.name := by
      rw [hat, textAt, Kind.artifactType_of_sound hrecordable.sound, Option.getD_some,
        Json.text_str]
    exact ⟨_, traceNode_ok (connected_below hreadable hp) hid htype⟩
  exact traceFeature_ok hreadable hnodes

/-- From a state in which everything cooperates, a run returns: it has persisted a document
for each stage, the idea as it is, and for the stage of a skill one made from an answer. -/
theorem run_going (h : job.Cooperates start) :
    Succeeds (fun s => s = start) (job.pipeline.run rt job.idea job.createdAt)
      (fun _ s => ∃ docs : List (Kind × Mapping), docs.map Prod.fst = stageOrder ∧
        (∀ doc ∈ docs, job.Supplied start doc) ∧
        s.tools.handled = start.tools.handled ++ docs.map fun doc => writeCall doc.2) := by
  have hbegin : Succeeds (fun s => s = start)
      (modify fun s => { s with createdAt := job.createdAt } : PipelineM PUnit)
      (fun _ => Going job start [] [] 0) := by
    apply meets_modify
    rintro s rfl
    exact ⟨⟨rfl, fun _ _ => rfl, rfl, rfl⟩, h.ready, (List.append_nil _).symm,
      fun _ hdoc => nomatch hdoc⟩
  obtain ⟨ideaKind, hidea⟩ := h.idea
  have happroved : classifySource (py "approved_artifact") ≠ .sensitive := by decide
  refine meets_bind hbegin fun _ => ?_
  refine meets_bind (ideaIdOf_going h) fun ideaId => ?_
  apply meets_of_and
  rintro rfl
  refine meets_bind (persist_going h hidea
    ⟨⟨_, hidea, fun hne => absurd rfl hne⟩, fun hskill => nomatch hskill⟩)
    fun ideaStage => ?_
  have hhref : job.pipeline.href rt (.str (documentId job.idea)) = .ok (job.hrefOf start .idea) :=
    rfl
  refine meets_bind (raising_going hhref) fun ideaHref => ?_
  apply meets_of_and
  intro hideaHref
  refine meets_bind (skill_going h [] (rfl : Kind.specification.skill = some grill) rfl rfl rfl rfl
    (by decide) ?_ rfl (fun hreview => nomatch hreview) hideaHref) ?_
  · exact List.forall_mem_cons.mpr ⟨⟨happroved, _, hidea⟩, fun _ hitem => nomatch hitem⟩
  rintro ⟨specificationStage, specification⟩
  apply meets_of_and
  rintro ⟨hspecification, hspecificationFits, -⟩
  refine meets_bind (raising_going (Job.hrefOf_ok hspecificationFits (by decide)))
    fun specificationHref => ?_
  apply meets_of_and
  intro hspecificationHref
  refine meets_bind (skill_going h [] (rfl : Kind.threatModel.skill = some grillSecurity)
    rfl rfl rfl rfl (by decide) ?_ rfl (fun hreview => nomatch hreview) hspecificationHref) ?_
  · exact List.forall_mem_cons.mpr ⟨⟨happroved, _, hspecification⟩, fun _ hitem => nomatch hitem⟩
  rintro ⟨threatModelStage, threatModel⟩
  apply meets_of_and
  rintro ⟨hthreatModel, hthreatModelFits, -⟩
  refine meets_bind (raising_going (Job.hrefOf_ok hthreatModelFits (by decide)))
    fun threatModelHref => ?_
  apply meets_of_and
  intro hthreatModelHref
  refine meets_bind (skill_going h [] (rfl : Kind.plan.skill = some planner) rfl rfl rfl rfl
    (by decide) ?_ rfl (fun hreview => nomatch hreview) hthreatModelHref) ?_
  · exact List.forall_mem_cons.mpr ⟨⟨happroved, _, hspecification⟩,
      List.forall_mem_cons.mpr ⟨⟨happroved, _, hthreatModel⟩, fun _ hitem => nomatch hitem⟩⟩
  rintro ⟨planStage, plan⟩
  apply meets_of_and
  rintro ⟨hplan, hplanFits, -⟩
  refine meets_bind (raising_going (Job.item_ok hplanFits (by decide))) fun planId => ?_
  apply meets_of_and
  rintro rfl
  refine meets_bind (raising_going (Job.hrefOf_ok hplanFits (by decide))) fun planHref => ?_
  apply meets_of_and
  intro hplanHref
  refine meets_bind (skill_going h [] (rfl : Kind.task.skill = some taskWriter) rfl rfl rfl rfl
    (by decide) ?_ rfl (fun hreview => nomatch hreview) hplanHref) ?_
  · exact List.forall_mem_cons.mpr ⟨⟨happroved, _, hspecification⟩,
      List.forall_mem_cons.mpr ⟨⟨happroved, _, hplan⟩, fun _ hitem => nomatch hitem⟩⟩
  rintro ⟨taskStage, task⟩
  apply meets_of_and
  rintro ⟨htask, htaskFits, context, content, hanswered, htaskDocument⟩
  refine meets_bind (securityReview_going h hthreatModelFits hthreatModel (by decide)) fun _ => ?_
  apply meets_of_exists
  intro securityReview
  obtain ⟨digest, hdigest, hencodable⟩ :=
    canonicalDigest_recordable (le_trans (by decide) h.writeRoom) htask
  have hsha : isSha256 digest = true :=
    h.advised.digests context content digest hanswered (htaskDocument ▸ hdigest)
  refine meets_bind (raising_going hdigest) fun taskDigest => ?_
  apply meets_of_and
  rintro rfl
  refine meets_bind (raising_going (Job.item_ok htaskFits (by decide))) fun taskId => ?_
  apply meets_of_and
  rintro rfl
  refine meets_bind (raising_going (Job.hrefOf_ok htaskFits (by decide))) fun taskHref => ?_
  apply meets_of_and
  intro htaskHref
  refine meets_bind (skill_going h taskDigest (rfl : Kind.review.skill = some reviewer) rfl rfl rfl
    rfl (by decide) ?_ rfl (fun _ => sound_str hsha hencodable) htaskHref) ?_
  · exact List.forall_mem_cons.mpr ⟨⟨happroved, _, htask⟩, fun _ hitem => nomatch hitem⟩
  rintro ⟨reviewStage, review⟩
  apply meets_of_and
  rintro - s hs
  obtain ⟨hbelow, hreal⟩ := h.placed
  obtain ⟨trace, htrace⟩ := traceFeature_recordable rt job.pipeline.featureId hbelow hreal
    fun doc hdoc => (hs.supplied doc hdoc).recordable.imp fun _ => And.left
  rw [← h.fresh, ← hs.written, indexOf] at htrace
  simp only [get, getThe, MonadStateOf.get, bind, EStateM.bind, estate_get, job.root_eq, htrace]
  exact ⟨_, rfl, hs.supplied, hs.handled⟩

theorem writeCall_injective : Function.Injective writeCall := by
  intro document document' heq
  simpa [writeCall] using heq

/-- The documents that a completed run has persisted are supplied. -/
theorem finished_of_cooperates (h : job.Cooperates start) : ∃ result docs,
    job.result start = some result ∧ Finished job start docs result (job.final start) ∧
      ∀ doc ∈ docs, job.Supplied start doc := by
  have hrun := run_going h start rfl
  obtain ⟨result, hresult, docs, horder, hsupplied, hhandled⟩ : ∃ result,
      job.result start = some result ∧ ∃ docs : List (Kind × Mapping),
        docs.map Prod.fst = stageOrder ∧ (∀ doc ∈ docs, job.Supplied start doc) ∧
        (job.final start).tools.handled =
          start.tools.handled ++ docs.map fun doc => writeCall doc.2 := by
    rw [Job.result, Job.final, Job.outcome]
    cases houtcome : job.pipeline.run rt job.idea job.createdAt start with
    | ok result s =>
        rw [houtcome] at hrun
        exact ⟨result, rfl, hrun⟩
    | error e s =>
        rw [houtcome] at hrun
        exact hrun.elim
  obtain ⟨docs', hfinished⟩ := Job.finished_of_result hresult
  have hdocs : docs' = docs := by
    have hcalls := List.append_cancel_left (hfinished.handled.symm.trans hhandled)
    have hdocuments : docs'.map Prod.snd = docs.map Prod.snd := by
      refine (List.map_injective_iff.mpr writeCall_injective) ?_
      rw [List.map_map, List.map_map]
      exact hcalls
    have hkinds := hfinished.order.trans horder.symm
    rw [← List.zip_unzip docs', ← List.zip_unzip docs]
    simp only [List.unzip_eq_map, hkinds, hdocuments]
  exact ⟨result, docs, hresult, hdocs ▸ hfinished, hsupplied⟩

/-- What a run that completes leaves: the documents of its stages, valid under their schemas
and in the store, those of the skills around the answers of the model. -/
structure Completed (job : Job rt source root) (start : State) (result : PipelineResult)
    (docs : List (Kind × Mapping)) : Prop where
  returned : job.result start = some result
  finished : Finished job start docs result (job.final start)
  valid : ∀ doc ∈ docs, doc.1 ≠ .idea → doc.1.schema.valid (.obj doc.2) = true
  answered : ∀ doc ∈ docs, doc.1.skill.isSome = true → ∃ context content digest,
    job.Answered start doc.1 context content ∧ doc.2 = job.document start digest content doc.1

/-- A run whose collaborators cooperate completes. -/
theorem cooperative_runs_complete (job : Job rt source root) (start : State)
    (h : job.Cooperates start) : ∃ result docs, Completed job start result docs := by
  obtain ⟨result, docs, hresult, hfinished, hsupplied⟩ := finished_of_cooperates h
  refine ⟨result, docs, hresult, hfinished, fun doc hdoc hidea => ?_, fun doc hdoc =>
    (hsupplied doc hdoc).answered⟩
  obtain ⟨kind, hrecordable, hkind⟩ := (hsupplied doc hdoc).recordable
  exact hkind hidea ▸ hrecordable.sound.valid

/-- The members of what a sample model answers for a stage. -/
def sampleMembers (contents : PyStr → Json) (kind : Kind) : Option Mapping :=
  kind.skill.bind fun skill =>
    (JsonText.dumps sampleRuntime {} (contents skill.role)).toOption.bind fun text =>
      if PyStr.encodable text then (extractJson sampleRuntime text).toOption else none

/-- What the stage takes of an answer can be checked by computation. -/
def answersSoundly (contents : PyStr → Json) (kind : Kind) : Option Bool :=
  (sampleMembers contents kind).map fun content =>
    decide (∀ member ∈ kind.chosen content, SoundMember kind.properties member)

theorem sampleContent_sound (kind : Kind) (hskill : kind.skill.isSome = true) :
    answersSoundly sampleContent kind = some true := by
  cases kind with
  | idea | securityReview => cases hskill
  | _ => decide +kernel

theorem sample_ready : Ready sampleSource sampleRoot { fs := sampleFiles } := by
  have hmade : (sampleFiles.mkdirs [] sampleRoot).isSome = true := by decide +kernel
  have hroot : sampleFiles.node sampleRoot = none := by decide +kernel
  refine ⟨Option.isSome_iff_exists.mp hmade, ?_, by decide +kernel, ?_⟩
  · intro id _ hnode
    have hclosed : sampleFiles.node sampleRoot = some .dir := by
      apply sampleFiles.closed sampleRoot (ArtifactStore.fileName id)
      rw [← FileSystem.node]
      simp [hnode]
    cases hroot.symm.trans hclosed
  · intro kind
    cases kind <;> decide +kernel

section Sample

variable {contents : PyStr → Json} {hrefPrefix : String} {idea : Mapping}

theorem sample_answered {kind : Kind} {context content : Mapping} :
    (sampleJob "FEAT-0001" hrefPrefix idea (answering contents)).Answered sampleState kind
      context content ↔ sampleMembers contents kind = some content := by
  simp only [sampleMembers, Option.bind_eq_some_iff, Option.ite_none_right_eq_some]
  constructor
  · rintro ⟨skill, response, hskill, hcomplete, htext, hextract⟩
    change answering contents _ = _ at hcomplete
    obtain ⟨text, hdumps, hresponse⟩ := exists_ok_of_bind hcomplete
    cases hresponse
    exact ⟨skill, hskill, text, by rw [hdumps]; rfl, htext, by rw [hextract]; rfl⟩
  · rintro ⟨skill, hskill, text, hdumps, htext, hextract⟩
    refine ⟨skill, ⟨text, py "stub"⟩, hskill, ?_, htext, ok_of_toOption hextract⟩
    change answering contents _ = _
    simp only [answering, ok_of_toOption hdumps, bind, Except.bind]
    rfl

theorem sample_served (tick : Nat) :
    (sampleJob "FEAT-0001" hrefPrefix idea (answering contents)).Served sampleState tick where
  live := ⟨_, rfl, rfl⟩
  liveTools := ⟨_, rfl, rfl⟩
  secret := rfl
  secretTools := rfl
  clock := by
    change (1000 : Int) ≤ 1000 + defaultTtlSeconds
    decide
  short := by
    change JsonText.shortInt (1000 + defaultTtlSeconds) = true
    decide +kernel
  signs := by
    change ∀ call ∈ tokenCalls, signs sampleRuntime sampleRuns.secret
      ⟨py "RUN-aaaaaa", call.1, call.2, 1000 + defaultTtlSeconds⟩ = true
    decide +kernel
  allows := fun _ => ⟨_, rfl, rfl⟩
  allowsTools := fun _ => ⟨_, rfl, rfl⟩

/-- The sample run cooperates, with any idea that can be recorded and any sound answers. -/
theorem sample_cooperates
    (hnames : ∀ kind ∈ stageOrder, Sound identifier
        (.str ((sampleJob "FEAT-0001" hrefPrefix idea (answering contents)).idOf sampleState
          kind)) ∧
      Sound nonEmpty
        (.str ((sampleJob "FEAT-0001" hrefPrefix idea (answering contents)).hrefOf sampleState
          kind)) ∧
      Sound Contracts.actor
        (.obj ((sampleJob "FEAT-0001" hrefPrefix idea (answering contents)).actor sampleState
          kind)))
    (hidea : ∃ kind, Recordable kind idea)
    (hsound : ∀ kind : Kind, kind.skill.isSome = true → answersSoundly contents kind = some true)
    (hdigest : ((sampleMembers contents .task).bind fun content =>
      (Pipeline.canonicalDigest sampleRuntime
        ((sampleJob "FEAT-0001" hrefPrefix idea (answering contents)).document sampleState []
          content .task)).toOption).all isSha256 = true) :
    (sampleJob "FEAT-0001" hrefPrefix idea (answering contents)).Cooperates sampleState where
  writeRoom := by decide
  readRoom := by decide
  fresh := rfl
  platform := by
    refine ⟨?_, ?_, ?_, fun kind => (hnames kind (mem_stageOrder kind)).2.2,
      fun kind => (hnames kind (mem_stageOrder kind)).1,
      fun kind => (hnames kind (mem_stageOrder kind)).2.1⟩
    · change Sound identifier (.str (py "FEAT-0001"))
      decide +kernel
    · change Sound Contracts.runId (.str (py "RUN-aaaaaa"))
      decide +kernel
    · change Sound isoDateTime (.str (py "2026-09-24"))
      decide +kernel
  idea := hidea
  ready := sample_ready
  placed := by
    refine ⟨⟨[py "specs"], rfl⟩, fun c hc => ?_⟩
    revert c
    decide
  validator := fun kind document => sample_ready.documentValidator kind (.obj document)
  served := sample_served
  advised := by
    refine ⟨fun kind hskill _ _ => ?_, fun context content digest hanswered hcanonical => ?_⟩
    · obtain ⟨content, hcontent, hchosen⟩ := Option.map_eq_some_iff.mp (hsound kind hskill)
      exact ⟨content, sample_answered.mpr hcontent, of_decide_eq_true hchosen⟩
    · rw [sample_answered] at hanswered
      rw [hanswered, Option.bind_some, hcanonical] at hdigest
      exact hdigest

end Sample

theorem exportJob_cooperates : exportJob.Cooperates sampleState := by
  refine sample_cooperates (by decide +kernel) ?_ sampleContent_sound (by decide +kernel)
  exact ⟨.idea, by decide +kernel, by decide +kernel⟩

theorem exportJob_completes : ∃ result docs, Completed exportJob sampleState result docs :=
  cooperative_runs_complete exportJob sampleState exportJob_cooperates

/-- The sample run returns, and its security review waives the medium risk. -/
theorem exportJob_returns : ∃ result, exportJob.result sampleState = some result ∧
    ∀ call ∈ (exportJob.final sampleState).tools.handled,
      (Assoc.get (calledDocument call) (py "artifact_type")).bind Json.str? =
          some (py "security-review") →
        waivedRisks (calledDocument call) = [py "RISK-0001"] := by
  obtain ⟨result, docs, hresult, hfinished, hsupplied⟩ :=
    finished_of_cooperates exportJob_cooperates
  refine ⟨result, hresult, fun call hcall htype => ?_⟩
  obtain ⟨threatModel, review, hmodel, hreview, hcompiled⟩ := hfinished.compiled
  obtain ⟨context, content, digest, hanswered, hdocument⟩ := (hsupplied _ hmodel).answered rfl
  have hwaived : ((sampleMembers sampleContent .threatModel).bind fun content =>
      (buildSecurityReview sampleRuntime exportJob.pipeline.featureId
      (exportJob.document sampleState [] content .threatModel)
      (exportJob.idOf sampleState .securityReview) exportJob.createdAt Pipeline.securityReviewer
      exportJob.pipeline.runId (exportJob.hrefOf sampleState .threatModel)).toOption).all
        (fun review => decide (waivedRisks review = [py "RISK-0001"])) = true := by
    decide +kernel
  have hbuilt : buildSecurityReview sampleRuntime exportJob.pipeline.featureId
      (exportJob.document sampleState [] content .threatModel)
      (exportJob.idOf sampleState .securityReview) exportJob.createdAt Pipeline.securityReviewer
      exportJob.pipeline.runId (exportJob.hrefOf sampleState .threatModel) = .ok review :=
    hdocument ▸ hcompiled
  rw [sample_answered.mp hanswered, Option.bind_some, hbuilt] at hwaived
  rw [hfinished.handled] at hcall
  obtain ⟨doc, hdoc, rfl⟩ := List.mem_map.mp ((List.mem_append.mp hcall).resolve_left
    fun h => nomatch h)
  change (Assoc.get doc.2 (py "artifact_type")).bind Json.str? = _ at htype
  change waivedRisks doc.2 = _
  have hkind : doc.1 = .securityReview := by
    have hfits := hfinished.wrote.fits doc hdoc
    by_cases hidea : doc.1 = .idea
    · rw [hidea] at hfits
      rw [Job.fits_idea hfits] at htype
      exact absurd htype (by decide +kernel)
    · rw [Job.fits_artifactType hfits hidea] at htype
      have hname : doc.1.name = py "security-review" := Option.some.inj htype
      revert hname
      cases doc.1 <;> decide
  have hnodup : (docs.map Prod.fst).Nodup := hfinished.order ▸ by decide
  rw [List.inj_on_of_nodup_map hnodup hdoc hreview hkind]
  exact of_decide_eq_true hwaived

end SecureSdlc.Orchestrator

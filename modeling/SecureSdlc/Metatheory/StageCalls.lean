import SecureSdlc.Metatheory.ArtifactMap
import SecureSdlc.Metatheory.ReleaseEvidence
import SecureSdlc.Metatheory.StageDocuments
import SecureSdlc.Metatheory.TokenMeaning

/-!
The calls that a pipeline makes of its collaborators, when these let it through: an issued
token is accepted at the next call, a sound document is written and its call recorded, and
a model's answer is assembled. Each result says what the call returns and leaves.
-/

namespace SecureSdlc.Runner

open Core Evidence Policy Tools

universe u

variable {rt : Runtime} {σ : Type u}

/-- A handler that succeeds is recorded, if its output can be. -/
theorem invoke_succeeds {spec : ToolSpec σ} {call : Invocation} {host : Host σ}
    {output : Mapping} {world : σ}
    (hhandler : spec.handler call.args host.world = (.ok output, world))
    (hresult : spec.resultSchema (.obj output) = .ok true) (hcall : StorableCall rt call)
    (houtput : Storable rt (.obj [(py "output", .obj output)])) (actor decision : Mapping) :
    ∃ evidence store, invoke rt spec call actor decision host =
      (.ok ⟨true, reasonExecuted, decision, evidence, some output⟩,
        { host with world, store, handled := host.handled ++ [(call.tool, call.args)] }) := by
  obtain ⟨evidence, store, hrecord, -⟩ := record_ok hcall houtput actor host.store
  refine ⟨evidence, store, ?_⟩
  simp only [invoke, hhandler, hresult, conclude, hrecord]

/-- The signature of the capability's token is not empty. -/
def signs (rt : Runtime) (secret : Bytes) (capability : Capability) : Bool :=
  (JsonText.dumps rt payloadStyle capability.payload).toOption.all fun text =>
    !(rt.hmacSha256 secret ((signingInput (Base64.encode
      (text.map fun c => UInt8.ofNat c.val))).map fun c => UInt8.ofNat c.val)).isEmpty

theorem issueToken_ok (secret : Bytes) (capability : Capability) (hroom : 1 ≤ rt.dumpsRoom)
    (hshort : JsonText.shortInt capability.expiresAt = true) :
    ∃ token, issueToken rt secret capability = .ok token := by
  have hwritable : JsonText.Writable rt.dumpsRoom capability.payload := by
    refine ⟨hroom, ?_⟩
    simp only [Capability.payload, Json.allScalars, Json.allScalarsFields, hshort, Bool.and_self]
  obtain ⟨text, htext⟩ := (JsonText.exists_write_iff payloadStyle rt.dumpsRoom _).mpr hwritable
  have hprintable : Printable text :=
    JsonText.printable_write rfl (by decide) (by decide) (floatFree_payload capability) htext
  simp only [issueToken, JsonText.dumps, htext, bind, Except.bind, hprintable.encodeUtf8,
    sign_encode]
  exact ⟨_, rfl⟩

/-- A token with a signature is decoded to what it was issued for, if its texts are encodable. -/
theorem decodeToken_of_signs {secret : Bytes} {capability : Capability} {token : PyStr}
    (hroom : 0 < rt.loadsRoom) (hsigns : signs rt secret capability = true)
    (hrun : PyStr.encodable capability.runId = true)
    (htool : PyStr.encodable capability.tool = true)
    (hscope : PyStr.encodable capability.scope = true)
    (h : issueToken rt secret capability = .ok token) :
    decodeToken rt secret token = .ok ⟨some capability, none⟩ := by
  obtain ⟨text, hissued⟩ := issued_of_issueToken h
  obtain ⟨inner, -, -, htext⟩ := JsonText.write_obj hissued.dumped
  have hreread : capability.reread = capability := by
    simp only [Capability.reread,
      (JsonText.joinSurrogates_eq_iff _).mpr (unpaired_of_encodable hrun),
      (JsonText.joinSurrogates_eq_iff _).mpr (unpaired_of_encodable htool),
      (JsonText.joinSurrogates_eq_iff _).mpr (unpaired_of_encodable hscope)]
  simp only [signs, hissued.dumped, Except.toOption, Option.all_some, Bool.not_eq_true',
    List.isEmpty_eq_false_iff] at hsigns
  rw [decodeToken_issued hissued, if_neg, decodePayload_issued hissued hroom, hreread]
  have hne : text ≠ [] := by
    rw [htext]
    exact List.cons_ne_nil _ _
  rw [Base64.encode_eq_nil, Base64.encode_eq_nil, not_or, List.map_eq_nil_iff]
  exact ⟨hne, hsigns⟩

/-- The run is there, and not finished. -/
def Live (registry : RunRegistry) (runId : PyStr) : Prop :=
  ∃ run, registry.get runId = some run ∧ run.finished = false

/-- A token is issued, and accepted at a later call by any registry of the secret in which
the run is still live. -/
theorem issue_accepted {registry : RunRegistry} {runId tool scope : PyStr} {now : Int}
    (hroom : 1 ≤ rt.dumpsRoom) (hreads : 0 < rt.loadsRoom)
    (hshort : JsonText.shortInt (now + defaultTtlSeconds) = true)
    (hsigns : signs rt registry.secret ⟨runId, tool, scope, now + defaultTtlSeconds⟩ = true)
    (hrun : PyStr.encodable runId = true) (htool : PyStr.encodable tool = true)
    (hscope : PyStr.encodable scope = true) (hlive : Live registry runId) :
    ∃ token, registry.issue rt runId tool scope defaultTtlSeconds now = .ok token ∧
      ∀ (next : RunRegistry) (later : Int), next.secret = registry.secret → Live next runId →
        later ≤ now + defaultTtlSeconds →
        ∃ capability holder, TokenAccepted rt next token tool scope later capability holder := by
  obtain ⟨run, hget, hunfinished⟩ := hlive
  obtain ⟨token, htoken⟩ := issueToken_ok registry.secret
    ⟨runId, tool, scope, now + defaultTtlSeconds⟩ hroom hshort
  refine ⟨token, ?_, ?_⟩
  · simp only [RunRegistry.issue, hget, hunfinished, htoken]
    rfl
  · rintro next later hsecret ⟨holder, hholder, hheld⟩ htime
    have hdecoded := decodeToken_of_signs hreads hsigns hrun htool hscope htoken
    exact ⟨_, holder, ⟨none, hsecret ▸ hdecoded⟩, hholder, hheld, htime, rfl, rfl⟩

end SecureSdlc.Runner

namespace SecureSdlc.Skills

open Core Evidence Policy Runner

variable {rt : Runtime}

theorem buildContextFrom_ok (rt : Runtime) {inputs : List ContextInput} (context : Mapping)
    (h : ∀ item ∈ inputs, classifySource item.source ≠ .sensitive) :
    ∃ built, buildContextFrom rt context inputs = .ok built ∧
      (∀ key, (Assoc.get context key).isSome = true ∨ key ∈ inputs.map ContextInput.name →
        (Assoc.get built key).isSome = true) ∧
      ∀ entry ∈ built, entry ∈ context ∨ ∃ item ∈ inputs, entry.2 = .obj item.document := by
  induction inputs generalizing context with
  | nil => exact ⟨context, rfl, fun key hkey => hkey.resolve_right (by simp), fun _ => Or.inl⟩
  | cons item rest ih =>
      rw [List.forall_mem_cons] at h
      obtain ⟨built, hbuilt, hkeys, hentries⟩ :=
        ih (Assoc.set context item.name (.obj item.document)) h.2
      refine ⟨built, ?_, ?_, ?_⟩
      · rw [buildContextFrom, if_neg h.1, hbuilt]
      · intro key hkey
        refine hkeys key ?_
        rw [Assoc.get_set]
        by_cases hname : item.name = key
        · simp [hname]
        · rw [if_neg hname]
          refine hkey.imp_right fun hmem => ?_
          exact (List.mem_cons.mp hmem).resolve_left (Ne.symm hname)
      · intro entry hentry
        rcases hentries entry hentry with hold | ⟨other, hother, heq⟩
        · rcases Assoc.mem_set hold with rfl | hmem
          · exact Or.inr ⟨item, List.mem_cons_self, rfl⟩
          · exact Or.inl hmem
        · exact Or.inr ⟨other, List.mem_cons_of_mem _ hother, heq⟩

/-- Inputs of which none is sensitive make a context that has each of them. -/
theorem buildContext_ok (rt : Runtime) {inputs : List ContextInput}
    (h : ∀ item ∈ inputs, classifySource item.source ≠ .sensitive) :
    ∃ context, buildContext rt inputs = .ok context ∧
      (∀ key ∈ inputs.map ContextInput.name, (Assoc.get context key).isSome = true) ∧
      ∀ entry ∈ context, ∃ item ∈ inputs, entry.2 = .obj item.document := by
  obtain ⟨context, hcontext, hkeys, hentries⟩ := buildContextFrom_ok rt [] h
  exact ⟨context, hcontext, fun key hkey => hkeys key (Or.inr hkey),
    fun entry hentry => (hentries entry hentry).resolve_left fun hmem => nomatch hmem⟩

/-- An answer that assembles to a valid document becomes the artifact. -/
theorem runSkill_answers {runner : SkillRunner} {call : SkillCall} {now : Int} {run : Run}
    {verdict : PolicyResult} {skill : Skill} {context content document : Mapping}
    {response : LLMResponse} (gates : SkillGates rt runner call now run verdict skill context)
    (hcomplete : runner.complete ⟨skill.role, skill.systemPrompt, context⟩ = .ok response)
    (htext : PyStr.encodable response.text = true)
    (hextract : extractJson rt response.text = .ok content)
    (hassemble : skill.assemble content (call.envelope run.actor) = .ok document)
    (hvalid : runner.validateDocument skill.outputSchema (.obj document) = .ok true)
    (host : SkillHost) :
    ∃ result after, runSkill rt runner call now host = (.ok result, after) ∧
      result.allowed = true ∧ result.artifact = some document := by
  obtain ⟨outcome, store, hprocess, -⟩ := processToolOutput_encodable rt htext
    (skill.toolName ++ py ".output") run.actor call.runId call.evidenceId call.createdAt
    call.decisionId host.store
  let decision := buildPolicyDecision verdict call.decisionId call.createdAt run.actor call.runId
    policyPoint []
  let consulted := host.consult (policyPayload call.tool [] call.scope run.actor)
  refine ⟨⟨true, reasonCompleted, decision, outcome.record, some document⟩,
    { consulted with
      prompted := consulted.prompted ++ [⟨skill.role, skill.systemPrompt, context⟩], store },
    ?_, rfl, rfl⟩
  rw [runSkill_of_gates gates]
  simp only [prompt, hcomplete, SkillHost.consult, recordText, hprocess, bind, Except.bind, pure,
    Except.pure, assembleArtifact, hextract, hassemble, hvalid, if_true, consulted, decision]

end SecureSdlc.Skills

namespace SecureSdlc.Orchestrator

open Core Core.Schema Evidence Policy Runner Skills Tools Artifacts Contracts JsonText

variable {rt : Runtime} {source : SchemaSource} {root : Path} {disk : Disk} {kind : Kind}
  {document : Mapping}

/-- The path of a plain name below a directory. -/
theorem locate_name {fs : FileSystem} {base : Path} {name : PyStr}
    (haccepts : Path.osAccepts name = true) (hrelative : Path.isAbsolute name = false)
    (hparts : Path.parts name = [name]) (hup : name ≠ Path.up) (hdir : fs.isDir base = true) :
    locate fs base name = some (base ++ [name]) := by
  rw [locate, if_pos haccepts, hrelative, hparts, if_neg Bool.false_ne_true, FileSystem.walk,
    if_pos hdir, if_neg hup]
  rfl

def Kind.schemaName (kind : Kind) : PyStr := kind.name ++ schemaSuffix

/-- The store can take documents, and the schemas of the stages are at hand. -/
structure Ready (source : SchemaSource) (root : Path) (disk : Disk) : Prop where
  made : ∃ made, disk.fs.mkdirs [] root = some made
  free : ∀ id, identifierBody id = true →
    disk.fs.node (root ++ [ArtifactStore.fileName id]) ≠ some .dir
  schemas : disk.fs.node source.dir = some .dir
  files : ∀ kind : Kind, disk.fs.isFile (source.dir ++ [kind.schemaName]) = true

section Store

variable (ready : Ready source root disk)

include ready

/-- `validate_document` checks a document against the schema of the stage it is told. -/
theorem Ready.documentValidator (kind : Kind) (document : Json) :
    documentValidator source disk.fs kind.schemaName document =
      .ok (kind.schema.valid document) := by
  have hlocate : locate disk.fs source.dir kind.schemaName =
      some (source.dir ++ [kind.schemaName]) := by
    apply locate_name _ _ _ _ (decide_eq_true ready.schemas)
    all_goals cases kind <;> decide
  have hat : source.schemaAt (source.dir ++ [kind.schemaName]) = schemaOf kind.schema :=
    schemaAt_of_mem source kind.schema_mem
  simp only [Artifacts.documentValidator, loadSchema, hlocate, ready.files kind, if_true, hat,
    bind, Except.bind]
  rfl

/-- A document is checked against the schema of its stage. -/
theorem Ready.validateArtifact
    (htype : Assoc.get document (py "artifact_type") = some (.str kind.name)) :
    validateArtifact source disk.fs document = .ok (kind.schema.valid (.obj document)) := by
  have hname : kind.name ≠ [] := by cases kind <;> decide
  have hvalid := ready.documentValidator kind (.obj document)
  rw [Kind.schemaName] at hvalid
  simp only [Artifacts.validateArtifact, artifactSchemaName, htype, hname, if_false,
    validateDocument, hvalid, bind, Except.bind]

/-- A write returns, and leaves the store ready. -/
theorem Ready.write (h : Tools.Storable rt document)
    (hwritable : Writable rt.dumpsRoom (.obj document)) :
    ∃ data after, ArtifactStore.write rt root document disk = (.ok (rt.hexdigest data), after) ∧
      Ready source root after := by
  obtain ⟨made, hmade⟩ := ready.made
  obtain ⟨hdir, -, hnodes⟩ := FileSystem.mkdirs_spec hmade disk.fs.rooted
  rw [List.nil_append] at hdir hnodes
  have hidentifier := h.id_spec.2
  obtain ⟨data, -, parent, free, hwrite⟩ := write_returns h hwritable hmade
    (by rw [hnodes]; exact ready.free _ hidentifier)
  have hnode : ∀ q, (made.put root (ArtifactStore.fileName (documentId document)) (.file data)
      parent free).node q = if root ++ [ArtifactStore.fileName (documentId document)] = q then
        some (.file data) else made.node q :=
    fun q => FileSystem.node_put _ _ _ _ _ _ q
  refine ⟨data, _, hwrite, ?_, ?_, ?_, ?_⟩
  · refine ⟨_, FileSystem.mkdirs_of_dir ?_⟩
    rw [List.nil_append, hnode, if_neg (by simp), hdir]
  · intro id hid
    rw [hnode]
    split
    · exact fun heq => nomatch heq
    · rw [hnodes]
      exact ready.free id hid
  · rw [hnode, if_neg]
    · exact FileSystem.mkdirs_keeps hmade ready.schemas
    · intro heq
      exact ready.free _ hidentifier (heq ▸ ready.schemas)
  · intro kind
    have hold := ready.files kind
    simp only [FileSystem.isFile, hnode] at hold ⊢
    by_cases heq : root ++ [ArtifactStore.fileName (documentId document)] =
        source.dir ++ [kind.schemaName]
    · rw [if_pos heq]
    · rw [if_neg heq]
      cases hget : disk.fs.node (source.dir ++ [kind.schemaName]) with
      | none => simp [hget] at hold
      | some node =>
          rw [hget] at hold
          rw [FileSystem.mkdirs_keeps hmade hget]
          exact hold

end Store

/-- A document that the store and the records can take. -/
structure Recordable (kind : Kind) (document : Mapping) : Prop where
  sound : Sound kind.schema (.obj document)
  identified : identifierBody (documentId document) = true

namespace Recordable

variable (h : Recordable kind document)

include h

theorem digestible : DeployVerify.Digestible 4 (.obj document) :=
  ⟨Kind.plain_of_sound h.sound, h.sound.texts⟩

theorem id_eq : Assoc.get document (py "id") = some (.str (documentId document)) := by
  obtain ⟨id, hid, -⟩ := Kind.id_of_sound h.sound
  rw [hid, documentId_of_get hid]

theorem writable {room : Nat} (hroom : 4 ≤ room) : Writable room (.obj document) :=
  (h.digestible.toPlain.mono hroom).writable

theorem storable : Tools.Storable rt document := by
  refine ⟨⟨_, h.id_eq, h.identified⟩, h.sound.distinct, ?_⟩
  exact Json.allScalars_of_numberFree _ h.digestible.numberFree h.sound.texts

theorem storableArgs (hroom : 6 ≤ rt.dumpsRoom) :
    Runner.Storable rt (.obj [(py "document", .obj document)]) := by
  have hargs : DeployVerify.Digestible 5 (.obj [(py "document", .obj document)]) := by
    rw [DeployVerify.digestible_obj]
    simp only [List.forall_mem_cons, List.not_mem_nil, false_implies, implies_true, and_true]
    exact ⟨by decide, h.digestible⟩
  exact ⟨Nat.lt_of_le_of_lt hargs.depth hroom, hargs.toPlain.writable.ints, hargs.free⟩

end Recordable

/-- The tool writes a document that can be recorded, and the store stays ready. -/
theorem Ready.writeHandler (ready : Ready source root disk) (h : Recordable kind document)
    (hroom : 6 ≤ rt.dumpsRoom) :
    ∃ data after, writeHandler rt source root [(py "document", .obj document)] disk =
        (.ok [(py "artifact_id", .str (documentId document)),
          (py "digest", .str (rt.hexdigest data))], after) ∧
      Ready source root after := by
  have hstorable : Tools.Storable rt document := h.storable
  obtain ⟨data, after, hwrite, hready⟩ := ready.write hstorable (h.writable (by omega))
  refine ⟨data, after, ?_, hready⟩
  have hargs : Assoc.get [(py "document", Json.obj document)] (py "document") =
      some (.obj document) := by
    simp [Assoc.get]
  have hvalid := ready.validateArtifact (Kind.artifactType_of_sound h.sound)
  rw [h.sound.valid] at hvalid
  simp only [Tools.writeHandler, hargs, hvalid, hwrite, h.id_eq, Json.text_str]

/-- What is recorded of an output can be. -/
theorem storable_written {artifactId digest : PyStr} (hid : PyStr.encodable artifactId = true)
    (hdigest : PyStr.encodable digest = true) (hroom : 6 ≤ rt.dumpsRoom) :
    Runner.Storable rt (.obj [(py "output",
      .obj [(py "artifact_id", .str artifactId), (py "digest", .str digest)])]) := by
  have houtput : DeployVerify.Digestible 2 (.obj [(py "output",
      .obj [(py "artifact_id", .str artifactId), (py "digest", .str digest)])]) := by
    rw [DeployVerify.digestible_obj]
    simp only [List.forall_mem_cons, List.not_mem_nil, false_implies, implies_true, and_true]
    refine ⟨by decide, ?_⟩
    rw [DeployVerify.digestible_obj]
    simp only [List.forall_mem_cons, List.not_mem_nil, false_implies, implies_true, and_true]
    exact ⟨⟨by decide, DeployVerify.digestible_str hid⟩, by decide,
      DeployVerify.digestible_str hdigest⟩
  exact ⟨Nat.lt_of_le_of_lt houtput.depth (by omega), houtput.toPlain.writable.ints,
    houtput.free⟩

/-- A call of the write tool that passes the gates writes its document and is recorded. -/
theorem execute_writes {executor : RunnerExecutor Disk} {call : Invocation} {now : Int}
    {run : Run} {resource : PyStr} {verdict : PolicyResult} {host : Host Disk}
    (gates : ToolGates rt executor call now run resource verdict (writeArtifactTool rt source root))
    (htool : call.tool = py "write_artifact")
    (hargs : call.args = [(py "document", .obj document)])
    (ready : Ready source root host.world) (h : Recordable kind document)
    (hroom : 6 ≤ rt.dumpsRoom) :
    ∃ result after, execute rt executor call now host = (.ok result, after) ∧
      result.allowed = true ∧ Ready source root after.world ∧
      after.handled = host.handled ++ [writeCall document] := by
  obtain ⟨data, after, hhandler, hready⟩ := ready.writeHandler h hroom
  have hcall : StorableCall rt call := by
    refine ⟨?_, hargs ▸ h.storableArgs hroom⟩
    rw [htool]
    decide
  have houtput : Runner.Storable rt (.obj [(py "output", .obj [(py "artifact_id",
      .str (documentId document)), (py "digest", .str (rt.hexdigest data))])]) := by
    refine storable_written ?_ (DeployVerify.encodable_hexdigest rt data) hroom
    have hid := h.sound.texts
    rw [Json.allScalars, JsonText.allScalarsFields_iff] at hid
    exact (hid _ (Assoc.mem_of_get h.id_eq)).2
  have hspec : (writeArtifactTool rt source root).handler call.args
      (host.consult (policyPayload call.tool resource call.scope run.actor)).world =
        (.ok [(py "artifact_id", .str (documentId document)),
          (py "digest", .str (rt.hexdigest data))], after) := by
    rw [hargs]
    exact hhandler
  obtain ⟨evidence, store, hinvoke⟩ := invoke_succeeds hspec rfl hcall houtput run.actor
    (buildPolicyDecision verdict call.decisionId call.createdAt run.actor call.runId policyPoint [])
  refine ⟨_, _, (execute_of_gates gates host).trans hinvoke, rfl, hready, ?_⟩
  rw [htool, hargs]
  rfl

end SecureSdlc.Orchestrator

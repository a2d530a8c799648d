import SecureSdlc.Core.FileTree
import SecureSdlc.Core.Updates
import SecureSdlc.Metatheory.ArtifactConfinement
import SecureSdlc.Metatheory.Mediation

/-!
The artifact store as a store of cells: whatever a call of `write_artifact` comes to,
it has assigned the document's canonical bytes to the cell of its id, or has left
every cell alone. Directories that a call makes are no cells.
-/

namespace SecureSdlc.Tools

open Core Artifacts Runner

variable {rt : Runtime} {source : SchemaSource} {root : Path}

/-- The id under which the store takes a document. -/
def documentId (document : Mapping) : PyStr :=
  ((Assoc.get document (py "id")).bind Json.str?).getD []

theorem documentId_of_get {document : Mapping} {id : PyStr}
    (h : Assoc.get document (py "id") = some (.str id)) : documentId document = id := by
  rw [documentId, h]
  rfl

/-- The file an id leads to. -/
def filePath (root : Path) (id : PyStr) : Path := Path.join root (ArtifactStore.fileName id)

theorem filePath_of_no_slash (root : Path) {id : PyStr} (h : Path.slash ∉ id) :
    filePath root id = root ++ [ArtifactStore.fileName id] :=
  join_of_no_slash root h

theorem filePath_inj (root : Path) {id id' : PyStr} (h : Path.slash ∉ id)
    (h' : Path.slash ∉ id') : filePath root id = filePath root id' ↔ id = id' := by
  rw [filePath_of_no_slash root h, filePath_of_no_slash root h']
  simp [ArtifactStore.fileName]

/-- The files that documents are written to. -/
def paths (root : Path) (docs : List Mapping) : List Path :=
  docs.map fun document => filePath root (documentId document)

theorem paths_eq (docs : List Mapping) :
    paths root docs = (docs.map documentId).map (filePath root) := by
  rw [paths, List.map_map]
  rfl

/-- What a document is stored as. -/
def canonicalBytes (rt : Runtime) (document : Mapping) : Option Bytes :=
  match JsonText.dumps rt JsonText.canonical (.obj document) with
  | .ok canonical => PyStr.encodeUtf8 canonical
  | .error _ => none

/-- The cells that documents are assigned to. -/
def cells (rt : Runtime) (root : Path) (docs : List Mapping) : List (Path × Option Bytes) :=
  docs.map fun document => (filePath root (documentId document), canonicalBytes rt document)

theorem cells_keys (docs : List Mapping) : (cells rt root docs).map Prod.fst = paths root docs := by
  rw [cells, List.map_map]
  rfl

/-- These documents were written in this order between two states of the disk, and no
other file changed. -/
structure Stored (rt : Runtime) (root : Path) (docs : List Mapping) (before after : Disk) :
    Prop where
  writes : after.writes = before.writes ++ paths root docs
  files : after.fs.content = Updates.replay (cells rt root docs) before.fs.content
  named : ∀ document ∈ docs, ∃ id, Assoc.get document (py "id") = some (.str id) ∧ id ≠ []
  encodable : ∀ document ∈ docs, (canonicalBytes rt document).isSome = true

theorem stored_refl (disk : Disk) : Stored rt root [] disk disk :=
  ⟨(List.append_nil _).symm, rfl, by simp, by simp⟩

theorem stored_trans {docs more : List Mapping} {before mid after : Disk}
    (h : Stored rt root docs before mid) (h' : Stored rt root more mid after) :
    Stored rt root (docs ++ more) before after := by
  refine ⟨?_, ?_, ?_, ?_⟩
  · rw [h'.writes, h.writes, List.append_assoc, paths, paths, paths, List.map_append]
  · rw [h'.files, h.files, ← Updates.replay_append, cells, cells, cells, List.map_append]
  · intro document hmem
    exact (List.mem_append.mp hmem).elim (h.named document) (h'.named document)
  · intro document hmem
    exact (List.mem_append.mp hmem).elim (h.encodable document) (h'.encodable document)

/-- One document was written and the outcome is a return, or none was and it is not. -/
def StoredIff {α : Type} (rt : Runtime) (root : Path) (document : Mapping) (before : Disk)
    (outcome : Except PyError α × Disk) : Prop :=
  match outcome.1 with
  | .ok _ => Stored rt root [document] before outcome.2
  | .error _ => Stored rt root [] before outcome.2

theorem persist_stores {document : Mapping} {id canonical : PyStr}
    (hid : Assoc.get document (py "id") = some (.str id)) (hne : id ≠ [])
    (hdumps : JsonText.dumps rt JsonText.canonical (.obj document) = .ok canonical)
    (disk : Disk) :
    StoredIff rt root document disk (ArtifactStore.persist rt root id canonical disk) := by
  rw [ArtifactStore.persist]
  split
  · exact stored_refl disk
  · rename_i made hmade
    have hdirs : Stored rt root [] disk { disk with fs := made } :=
      ⟨(List.append_nil _).symm, FileSystem.content_mkdirs hmade, by simp, by simp⟩
    simp only
    split
    · exact hdirs
    · rename_i data hdata
      split
      · exact hdirs
      · rename_i p hp
        split
        · exact hdirs
        · rename_i written hwritten
          have hcell : canonicalBytes rt document = some data := by
            rw [canonicalBytes, hdumps]
            exact hdata
          have hpath : p = filePath root (documentId document) := by
            rw [documentId_of_get hid]
            exact locate_eq_join hp
          subst hpath
          refine ⟨rfl, ?_, ?_, ?_⟩
          · rw [FileSystem.content_writeBytes hwritten, FileSystem.content_mkdirs hmade, cells,
              List.map_singleton, hcell]
            rfl
          · intro other hother
            rw [List.mem_singleton.mp hother]
            exact ⟨id, hid, hne⟩
          · intro other hother
            rw [List.mem_singleton.mp hother, hcell]
            rfl

theorem write_stores (rt : Runtime) (root : Path) (document : Mapping) (disk : Disk) :
    StoredIff rt root document disk (ArtifactStore.write rt root document disk) := by
  rw [ArtifactStore.write]
  split
  · rename_i id hid
    split
    · exact stored_refl disk
    · rename_i hne
      split
      · exact stored_refl disk
      · rename_i canonical hdumps
        exact persist_stores hid hne hdumps disk
  · exact stored_refl disk

/-- The tool stores a document that it finds valid, or nothing. -/
theorem writeHandler_stores (rt : Runtime) (source : SchemaSource) (root : Path)
    (document : Mapping) (disk : Disk) :
    StoredIff rt root document disk
        (writeHandler rt source root [(py "document", .obj document)] disk) ∧
      ∀ output, (writeHandler rt source root [(py "document", .obj document)] disk).1 =
        .ok output → validateArtifact source disk.fs document = .ok true := by
  have hargs : Assoc.get [(py "document", Json.obj document)] (py "document") =
      some (.obj document) := by
    simp [Assoc.get]
  simp only [writeHandler, hargs]
  cases hvalid : validateArtifact source disk.fs document with
  | error e => exact ⟨stored_refl disk, fun _ h => by cases h⟩
  | ok valid =>
      cases valid with
      | false => exact ⟨stored_refl disk, fun _ h => by cases h⟩
      | true =>
          refine ⟨?_, fun _ _ => rfl⟩
          have hwrite := write_stores rt root document disk
          cases hout : ArtifactStore.write rt root document disk with
          | mk output after =>
              rw [hout] at hwrite
              cases output with
              | error e => exact hwrite
              | ok digest =>
                  obtain ⟨id, hid, -⟩ := hwrite.named document (List.mem_singleton_self _)
                  simp only [hid, Json.text_str]
                  exact hwrite

/-- The digest of a write is that of the bytes a document is stored as. -/
theorem write_digest {document : Mapping} {disk : Disk} {digest : PyStr}
    (h : (ArtifactStore.write rt root document disk).1 = .ok digest) :
    ∃ data, canonicalBytes rt document = some data ∧ digest = rt.hexdigest data := by
  rw [ArtifactStore.write] at h
  split at h
  · split at h
    · cases h
    · split at h
      · cases h
      · rename_i canonical hdumps
        simp only [ArtifactStore.persist] at h
        split at h
        · cases h
        · split at h
          · cases h
          · rename_i data hdata
            split at h
            · cases h
            · split at h
              · cases h
              · refine ⟨data, ?_, (Except.ok.inj h).symm⟩
                rw [canonicalBytes, hdumps]
                exact hdata
  · cases h

/-- What the tool answers when it has stored a document. -/
theorem writeHandler_digest {document output : Mapping} {disk : Disk}
    (h : (writeHandler rt source root [(py "document", .obj document)] disk).1 = .ok output) :
    ∃ data, canonicalBytes rt document = some data ∧
      Assoc.get output (py "digest") = some (.str (rt.hexdigest data)) := by
  have hargs : Assoc.get [(py "document", Json.obj document)] (py "document") =
      some (.obj document) := by
    simp [Assoc.get]
  simp only [writeHandler, hargs] at h
  split at h
  · cases h
  · cases h
  · split at h
    · cases h
    · rename_i digest after hwrite
      obtain ⟨data, hdata, rfl⟩ := write_digest (congrArg Prod.fst hwrite)
      split at h
      · cases h
      · split at h
        · cases h
        · rw [← Except.ok.inj h]
          exact ⟨data, hdata, rfl⟩

theorem locate_schema {fs : FileSystem} {p : Path} {entry : PyStr × Schema}
    (hentry : entry ∈ Contracts.schemaFiles)
    (h : locate fs source.dir (entry.1 ++ schemaSuffix) = some p) :
    p = source.dir ++ [entry.1 ++ schemaSuffix] := by
  have hnames : ∀ name ∈ Contracts.schemaFiles.map Prod.fst,
      Path.parts (name ++ schemaSuffix) = [name ++ schemaSuffix] ∧
        Path.isAbsolute (name ++ schemaSuffix) = false ∧
        Path.up ∉ [name ++ schemaSuffix] := by decide
  obtain ⟨hparts, habsolute, hup⟩ := hnames _ (List.mem_map_of_mem hentry)
  rw [locate_eq_join h, Path.join, hparts, habsolute]
  exact Path.resolve_of_no_up hup

/-- A validated document of a known type meets the schema of its type. -/
theorem valid_of_validateArtifact {fs : FileSystem} {document : Mapping} {kind : PyStr}
    {schema : Schema} (hentry : (kind, schema) ∈ Contracts.schemaFiles)
    (htype : Assoc.get document (py "artifact_type") = some (.str kind))
    (h : validateArtifact source fs document = .ok true) : schema.valid (.obj document) = true := by
  obtain ⟨kind', p, htype', -, hlocate, -, hvalid⟩ := (validateArtifact_iff _ _ _).mp h
  rw [htype] at htype'
  cases htype'
  have hp := locate_schema hentry hlocate
  rw [hp, schemaAt_of_mem source hentry, schemaOf] at hvalid
  exact Except.ok.inj hvalid

/-- The document is valid on this disk, and a call with it has passed every gate of the
write tool. -/
structure WriteGranted (rt : Runtime) (source : SchemaSource) (root : Path)
    (executor : RunnerExecutor Disk) (now : Int) (document : Mapping) (disk : Disk) : Prop where
  valid : validateArtifact source disk.fs document = .ok true
  gates : ∃ call run resource verdict, call.tool = py "write_artifact" ∧
    call.args = [(py "document", .obj document)] ∧
    ToolGates rt executor call now run resource verdict (writeArtifactTool rt source root)

/-- Under the executor a granted write was made, or nothing was written and no success is
reported. An exception may follow a write: evidence is recorded after it. -/
inductive WriteEnds (rt : Runtime) (source : SchemaSource) (root : Path)
    (executor : RunnerExecutor Disk) (now : Int) (document : Mapping) (host : Host Disk)
    (outcome : Except PyError ExecutionResult × Host Disk) : Prop
  | written (granted : WriteGranted rt source root executor now document host.world)
      (stored : Stored rt root [document] host.world outcome.2.world)
      (handled : outcome.2.handled = host.handled ++
        [(py "write_artifact", [(py "document", .obj document)])])
  | refused (stored : Stored rt root [] host.world outcome.2.world)
      (refused : ∀ result, outcome.1 = .ok result → result.allowed = false)

theorem execute_stores {executor : RunnerExecutor Disk} {call : Invocation}
    {document : Mapping}
    (hspec : executor.tools.get (py "write_artifact") = .ok (writeArtifactTool rt source root))
    (htool : call.tool = py "write_artifact")
    (hargs : call.args = [(py "document", .obj document)])
    (now : Int) (host : Host Disk) :
    WriteEnds rt source root executor now document host (execute rt executor call now host) := by
  by_cases hgates : ∃ run resource verdict spec,
      ToolGates rt executor call now run resource verdict spec
  · obtain ⟨run, resource, verdict, spec, gates⟩ := hgates
    obtain rfl : spec = writeArtifactTool rt source root := by
      have hregistered := gates.registered
      rw [htool, hspec] at hregistered
      exact (Except.ok.inj hregistered).symm
    obtain ⟨hstores, hvalid⟩ := writeHandler_stores rt source root document host.world
    have hworld : (execute rt executor call now host).2.world =
        (writeHandler rt source root [(py "document", .obj document)] host.world).2 := by
      rw [execute_of_gates gates host, invoke_world, hargs]
      rfl
    cases hout : (writeHandler rt source root [(py "document", .obj document)] host.world).1 with
    | ok output =>
        rw [StoredIff, hout] at hstores
        refine .written ⟨hvalid output hout, call, run, resource, verdict, htool, hargs, gates⟩
          (hworld ▸ hstores) ?_
        rw [execute_of_gates gates host, invoke_handled, htool, hargs]
        rfl
    | error e =>
        rw [StoredIff, hout] at hstores
        refine .refused (hworld ▸ hstores) ?_
        intro result hresult
        rw [execute_of_gates gates host] at hresult
        rcases invoke_result hresult with ⟨-, output, hsucceeds, -⟩ | ⟨hrefused, -⟩
        · have hok := hsucceeds.1
          rw [hargs] at hok
          exact absurd (hout.symm.trans hok) (by simp)
        · exact hrefused
  · have quiet := execute_quiet hgates host
    refine .refused ?_ fun result hresult => (quiet.refused result hresult).1
    rw [quiet.world]
    exact stored_refl _

end SecureSdlc.Tools

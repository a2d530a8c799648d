import SecureSdlc.Tools.Builtin

/-!
Confinement of the artifact tools to their store. Neither tool checks the path it
builds from an id; the write tool relies on the schema that the document selects for
itself. Only artifact files count as read: the validator's schema files do not.
-/

namespace SecureSdlc.Tools

open Core Artifacts Contracts

/-- The file of an id, directly in the store. -/
def fileOf (root : Path) (id : PyStr) : Path := root ++ [ArtifactStore.fileName id]

theorem parts_of_no_slash {name : PyStr} (h : Path.slash ∉ name)
    (hname : Path.skipped name = false) : Path.parts name = [name] := by
  simp [Path.parts, PyStr.split, List.splitOn_eq_singleton h, hname]

theorem fileName_ne (id : PyStr) {name : PyStr} (h : name.length < 5) :
    ArtifactStore.fileName id ≠ name := by
  intro heq
  have hlen := congrArg List.length heq
  simp only [ArtifactStore.fileName, List.length_append] at hlen
  have hjson : (py ".json").length = 5 := by decide
  omega

theorem skipped_fileName (id : PyStr) : Path.skipped (ArtifactStore.fileName id) = false := by
  rw [Path.skipped, decide_eq_false_iff_not, not_or]
  exact ⟨fileName_ne id (by decide), fileName_ne id (by decide)⟩

theorem fileName_no_slash {id : PyStr} (h : Path.slash ∉ id) :
    Path.slash ∉ ArtifactStore.fileName id := by
  rw [ArtifactStore.fileName, List.mem_append, not_or]
  exact ⟨h, by decide⟩

theorem fileName_relative {id : PyStr} (h : Path.slash ∉ id) :
    Path.isAbsolute (ArtifactStore.fileName id) = false := by
  rw [← Bool.not_eq_true]
  intro hstart
  simp only [Path.isAbsolute, PyStr.startsWith, decide_eq_true_eq] at hstart
  exact fileName_no_slash h (hstart.subset (List.mem_singleton_self _))

theorem fileName_parts {id : PyStr} (h : Path.slash ∉ id) :
    Path.parts (ArtifactStore.fileName id) = [ArtifactStore.fileName id] :=
  parts_of_no_slash (fileName_no_slash h) (skipped_fileName id)

/-- An id without a slash stays in the directory. -/
theorem join_of_no_slash (root : Path) {id : PyStr} (h : Path.slash ∉ id) :
    Path.join root (ArtifactStore.fileName id) = fileOf root id := by
  rw [Path.join, fileName_parts h, fileName_relative h, if_neg (by simp)]
  refine Path.resolve_of_no_up ?_
  rw [List.mem_singleton]
  exact (fileName_ne id (by decide)).symm

theorem parts_fileName (id : PyStr) :
    ∃ front stem, Path.parts (ArtifactStore.fileName id) =
      front ++ [ArtifactStore.fileName stem] := by
  obtain ⟨front, stem, hsplit⟩ :=
    PyStr.split_append_tail id (show Path.slash ∉ py ".json" by decide)
  have hskipped : Path.skipped (ArtifactStore.fileName stem) = false := skipped_fileName stem
  simp only [ArtifactStore.fileName] at hskipped
  refine ⟨front.filter fun c => !Path.skipped c, stem, ?_⟩
  rw [Path.parts, ArtifactStore.fileName, hsplit, List.filter_append,
    List.filter_cons_of_pos (by simp [hskipped]), List.filter_nil]
  rfl

/-- Only an id without a slash leads to its own file. -/
theorem join_eq_fileOf_iff (root : Path) (id : PyStr) :
    Path.join root (ArtifactStore.fileName id) = fileOf root id ↔ Path.slash ∉ id := by
  constructor
  · intro heq
    obtain ⟨front, stem, hparts⟩ := parts_fileName id
    have hup : ArtifactStore.fileName stem ≠ Path.up := fileName_ne stem (by decide)
    rw [Path.join, hparts, Path.resolve_concat _ _ hup, fileOf] at heq
    obtain ⟨-, hlast⟩ := List.append_inj' heq rfl
    have hmem : ArtifactStore.fileName id ∈ Path.parts (ArtifactStore.fileName id) := by
      rw [hparts, ← List.head_eq_of_cons_eq hlast]
      exact List.mem_append_right _ (List.mem_singleton_self _)
    have hno := Path.slash_not_mem_parts hmem
    rw [ArtifactStore.fileName, List.mem_append, not_or] at hno
    exact hno.1
  · exact join_of_no_slash root

/-- An identifier is made of capital letters, digits and dashes. -/
theorem identifierBody_chars {id : PyStr} (h : identifierBody id = true) :
    ∀ c ∈ id, isUpper c = true ∨ isDigit c = true ∨ c = cp '-' := by
  cases id with
  | nil => simp
  | cons c rest =>
      simp only [identifierBody, Bool.and_eq_true] at h
      obtain ⟨hc, htail⟩ := h
      have hsplit := List.takeWhile_append_dropWhile (p := fun c => isUpper c || isDigit c)
        (l := rest)
      rw [← hsplit, List.forall_mem_cons, List.forall_mem_append]
      refine ⟨.inl hc, ?_, ?_⟩
      · intro d hd
        have hall := List.all_takeWhile (p := fun c => isUpper c || isDigit c) (l := rest)
        have hupper := List.all_eq_true.mp hall d hd
        rw [Bool.or_eq_true] at hupper
        exact hupper.imp_right .inl
      · cases hdrop : rest.dropWhile fun c => isUpper c || isDigit c with
        | nil => simp
        | cons dash number =>
            rw [hdrop] at htail
            simp only [Bool.and_eq_true, decide_eq_true_eq, digits, List.all_eq_true] at htail
            obtain ⟨rfl, -, hdigits⟩ := htail
            rw [List.forall_mem_cons]
            exact ⟨.inr (.inr rfl), fun d hd => .inr (.inl (hdigits d hd))⟩

theorem slash_not_mem_identifierBody {id : PyStr} (h : identifierBody id = true) :
    Path.slash ∉ id := by
  intro hmem
  have hslash := identifierBody_chars h _ hmem
  revert hslash
  decide

/-- An identifier, or one with a newline after it. -/
theorem isIdentifier_cases {id : PyStr} (h : isIdentifier id = true) :
    identifierBody id = true ∨
      id.getLast? = some (cp '\n') ∧ identifierBody id.dropLast = true := by
  rw [isIdentifier, upToNewline, Bool.or_eq_true, Bool.and_eq_true, decide_eq_true_eq] at h
  exact h

theorem slash_not_mem_identifier {id : PyStr} (h : isIdentifier id = true) :
    Path.slash ∉ id := by
  cases isIdentifier_cases h with
  | inl hbody => exact slash_not_mem_identifierBody hbody
  | inr hline =>
      obtain ⟨hlast, hbody⟩ := hline
      obtain ⟨front, rfl⟩ := List.getLast?_eq_some_iff.mp hlast
      rw [List.dropLast_concat] at hbody
      rw [List.mem_append, List.mem_singleton, not_or]
      exact ⟨slash_not_mem_identifierBody hbody, by decide⟩

theorem identifierBody_last {id : PyStr} (h : identifierBody id = true) :
    id.getLast? ≠ some (cp '\n') := by
  intro hlast
  have hline := identifierBody_chars h _ (List.mem_of_getLast? hlast)
  revert hline
  decide

theorem locate_eq_join {fs : FileSystem} {base p : Path} {name : PyStr}
    (h : locate fs base name = some p) : p = Path.join base name := by
  simp only [locate] at h
  split at h
  · exact FileSystem.walk_eq_resolve h
  · cases h

/-- The id names a regular file. -/
def Present (fs : FileSystem) (root : Path) (id : PyStr) : Prop :=
  ∃ p, locate fs root (ArtifactStore.fileName id) = some p ∧ fs.isFile p = true

/-- What a read leaves: it has read the file the id names, if there is one. -/
theorem read_disk (rt : Runtime) (root : Path) (id : PyStr) (disk : Disk) :
    (Present disk.fs root id ∧ (ArtifactStore.read rt root id disk).2 =
        { disk with reads := disk.reads ++ [Path.join root (ArtifactStore.fileName id)] }) ∨
      (¬ Present disk.fs root id ∧ (ArtifactStore.read rt root id disk).2 = disk) := by
  simp only [ArtifactStore.read]
  cases hlocate : locate disk.fs root (ArtifactStore.fileName id) with
  | none =>
      refine Or.inr ⟨?_, rfl⟩
      rintro ⟨p, hp, -⟩
      rw [hlocate] at hp
      cases hp
  | some p =>
      have hjoin := locate_eq_join hlocate
      simp only
      split
      · rename_i content hnode
        refine Or.inl ⟨⟨p, hlocate, by simp [FileSystem.isFile, hnode]⟩, ?_⟩
        rw [← hjoin]
        split
        · rfl
        · split <;> rfl
      · rename_i hnode
        refine Or.inr ⟨?_, rfl⟩
        rintro ⟨p', hp', hfile⟩
        rw [hlocate] at hp'
        cases hp'
        simp [FileSystem.isFile] at hfile

theorem readHandler_disk {rt : Runtime} {root : Path} {args : Mapping} {id : PyStr}
    (h : Assoc.get args (py "artifact_id") = some (.str id)) (disk : Disk) :
    (readHandler rt root args disk).2 = (ArtifactStore.read rt root id disk).2 := by
  simp only [readHandler, h, Json.text_str]
  split <;> simp_all

/-- Accepted arguments make the read tool touch nothing but the file of their id. -/
def ReadConfined (rt : Runtime) (root : Path) (disk : Disk) (args : Mapping) : Prop :=
  readSchema.valid (.obj args) = true →
    ∃ new, (readHandler rt root args disk).2 = { disk with reads := disk.reads ++ new } ∧
      ∀ p ∈ new, ∃ id, Assoc.get args (py "artifact_id") = some (.str id) ∧ p = fileOf root id

/-- The id has no slash, or names no file. -/
def ReadHarmless (root : Path) (disk : Disk) (args : Mapping) : Prop :=
  ∀ id, Assoc.get args (py "artifact_id") = some (.str id) →
    Path.slash ∉ id ∨ ¬ Present disk.fs root id

theorem readSchema_valid {args : Mapping} (h : readSchema.valid (.obj args) = true) :
    ∃ id, Assoc.get args (py "artifact_id") = some (.str id) := by
  obtain ⟨v, hv, hvalid⟩ := Schema.valid_member h (List.mem_singleton_self _) rfl
  obtain ⟨id, rfl, -⟩ := (Schema.valid_string_iff _ v).mp hvalid
  exact ⟨id, hv⟩

theorem readConfined_iff (rt : Runtime) (root : Path) (disk : Disk) (args : Mapping) :
    ReadConfined rt root disk args ↔
      (readSchema.valid (.obj args) = true → ReadHarmless root disk args) := by
  refine imp_congr_right fun hvalid => ?_
  obtain ⟨id, hid⟩ := readSchema_valid hvalid
  have honly : ReadHarmless root disk args ↔
      Path.join root (ArtifactStore.fileName id) = fileOf root id ∨
        ¬ Present disk.fs root id := by
    simp [ReadHarmless, hid, join_eq_fileOf_iff]
  rw [honly, readHandler_disk hid]
  rcases read_disk rt root id disk with ⟨present, hdisk⟩ | ⟨absent, hdisk⟩
  · rw [hdisk]
    simp [present, hid]
  · rw [hdisk]
    exact ⟨fun _ => Or.inr absent, fun _ => ⟨[], by simp, by simp⟩⟩

/-- The schema that the document selects does not look at its id: the file of shared
definitions, or one outside of `contracts/schemas` that takes the document. -/
def Unguarded (source : SchemaSource) (fs : FileSystem) (document : Mapping) : Prop :=
  ∃ kind p, Assoc.get document (py "artifact_type") = some (.str kind) ∧ kind ≠ [] ∧
    locate fs source.dir (kind ++ schemaSuffix) = some p ∧ fs.isFile p = true ∧
    (p = source.dir ++ [py "common" ++ schemaSuffix] ∨
      (∀ entry ∈ schemaFiles, p ≠ source.dir ++ [entry.1 ++ schemaSuffix]) ∧
        source.elsewhere p (.obj document) = .ok true)

/-- The document can be serialised, and the file system takes it at `p`. -/
def StoredAt (rt : Runtime) (root : Path) (fs : FileSystem) (document : Mapping) (id : PyStr)
    (p : Path) : Prop :=
  ∃ canonical data made written,
    JsonText.dumps rt JsonText.canonical (.obj document) = .ok canonical ∧
    PyStr.encodeUtf8 canonical = some data ∧ fs.mkdirs [] root = some made ∧
    locate made root (ArtifactStore.fileName id) = some p ∧ made.writeBytes p data = some written

/-- Every schema file but that of the shared definitions refuses a typed document
without a well-formed id. -/
theorem schemaFiles_guard {entry : PyStr × Schema} (hentry : entry ∈ schemaFiles)
    (hcommon : entry.1 ≠ py "common") {document : Mapping} {kind : Json}
    (hkind : Assoc.get document (py "artifact_type") = some kind)
    (hvalid : entry.2.valid (.obj document) = true) :
    ∃ id, Assoc.get document (py "id") = some (.str id) ∧ isIdentifier id = true := by
  have hbaseline : baseline.valid (.obj document) ≠ true := by
    intro h
    obtain ⟨fields, heq, -, -, hclosed⟩ := Schema.valid_object h
    cases heq
    have hmember := hclosed rfl _ (Assoc.mem_of_get hkind)
    simp only at hmember
    revert hmember
    decide
  simp only [schemaFiles, List.mem_cons, List.not_mem_nil, or_false] at hentry
  rcases hentry with rfl | rfl | rfl | rfl | rfl | rfl | rfl | rfl | rfl | rfl | rfl | rfl | rfl |
    rfl
  · exact absurd hvalid hbaseline
  · exact absurd rfl hcommon
  all_goals exact valid_artifact_id hvalid

theorem validateArtifact_iff (source : SchemaSource) (fs : FileSystem) (document : Mapping) :
    validateArtifact source fs document = .ok true ↔
      ∃ kind p, Assoc.get document (py "artifact_type") = some (.str kind) ∧ kind ≠ [] ∧
        locate fs source.dir (kind ++ schemaSuffix) = some p ∧ fs.isFile p = true ∧
        source.schemaAt p (.obj document) = .ok true := by
  constructor
  · intro h
    obtain ⟨name, hname, h⟩ := exists_ok_of_bind h
    obtain ⟨validator, hload, h⟩ := exists_ok_of_bind h
    simp only [artifactSchemaName] at hname
    split at hname
    · rename_i kind hkind
      split at hname
      · cases hname
      · rename_i hne
        cases hname
        simp only [loadSchema] at hload
        split at hload
        · rename_i p hp
          split at hload
          · rename_i hfile
            cases hload
            exact ⟨kind, p, hkind, hne, hp, hfile, h⟩
          · cases hload
        · cases hload
    · cases hname
  · rintro ⟨kind, p, hkind, hne, hp, hfile, h⟩
    simp only [validateArtifact, artifactSchemaName, hkind, hne, if_false, validateDocument,
      documentValidator, loadSchema, hp, hfile, if_true, bind, Except.bind]
    exact h

/-- A validated document has a well-formed id, or its schema does not look at the id. -/
theorem validateArtifact_ok {source : SchemaSource} {fs : FileSystem} {document : Mapping}
    (h : validateArtifact source fs document = .ok true) :
    (∃ id, Assoc.get document (py "id") = some (.str id) ∧ isIdentifier id = true) ∨
      Unguarded source fs document := by
  obtain ⟨kind, p, hkind, hne, hp, hfile, hvalid⟩ := (validateArtifact_iff _ _ _).mp h
  rcases schemaAt_cases source p with ⟨entry, hentry, rfl, hschema⟩ | ⟨hother, hschema⟩
  · by_cases hcommon : entry.1 = py "common"
    · exact Or.inr ⟨kind, _, hkind, hne, hp, hfile, Or.inl (by rw [hcommon])⟩
    · rw [hschema] at hvalid
      exact Or.inl (schemaFiles_guard hentry hcommon hkind (Except.ok.inj hvalid))
  · rw [hschema] at hvalid
    exact Or.inr ⟨kind, p, hkind, hne, hp, hfile, Or.inr ⟨hother, hvalid⟩⟩

theorem validateArtifact_of_unguarded {source : SchemaSource} {fs : FileSystem}
    {document : Mapping} (h : Unguarded source fs document) :
    validateArtifact source fs document = .ok true := by
  obtain ⟨kind, p, hkind, hne, hp, hfile, hschema⟩ := h
  refine (validateArtifact_iff _ _ _).mpr ⟨kind, p, hkind, hne, hp, hfile, ?_⟩
  rcases schemaAt_cases source p with ⟨entry, hentry, heq, hat⟩ | ⟨hother, hat⟩
  · rcases hschema with hcommon | ⟨hother, -⟩
    · have hname : entry.1 = py "common" := by
        rw [heq] at hcommon
        simpa using hcommon
      have hopen : ∀ entry ∈ schemaFiles, entry.1 = py "common" → entry.2 = .anything := by
        simp only [schemaFiles, List.mem_cons, List.not_mem_nil, or_false]
        rintro entry (rfl | rfl | rfl | rfl | rfl | rfl | rfl | rfl | rfl | rfl | rfl | rfl | rfl |
          rfl) hname
        all_goals first | rfl | exact absurd hname (by decide)
      rw [hat, schemaOf, hopen entry hentry hname]
      rfl
    · exact absurd heq (hother entry hentry)
  · rcases hschema with hcommon | ⟨-, hvalid⟩
    · exact absurd hcommon (hother (py "common", .anything) (by simp [schemaFiles]))
    · rw [hat]
      exact hvalid

/-- A write leaves one more file, or none. -/
theorem write_disk (rt : Runtime) (root : Path) (document : Mapping) (disk : Disk) :
    (ArtifactStore.write rt root document disk).2.reads = disk.reads ∧
      ((ArtifactStore.write rt root document disk).2.writes = disk.writes ∨
        ∃ id p, Assoc.get document (py "id") = some (.str id) ∧ id ≠ [] ∧
          StoredAt rt root disk.fs document id p ∧
          (ArtifactStore.write rt root document disk).2.writes = disk.writes ++ [p]) := by
  simp only [ArtifactStore.write]
  split
  · rename_i id hid
    split
    · exact ⟨rfl, Or.inl rfl⟩
    · rename_i hne
      cases hdumps : JsonText.dumps rt JsonText.canonical (.obj document) with
      | error e => exact ⟨rfl, Or.inl rfl⟩
      | ok canonical =>
          simp only [ArtifactStore.persist]
          cases hmade : disk.fs.mkdirs [] root with
          | none => exact ⟨rfl, Or.inl rfl⟩
          | some made =>
              cases hdata : PyStr.encodeUtf8 canonical with
              | none => exact ⟨rfl, Or.inl rfl⟩
              | some data =>
                  cases hp : locate made root (ArtifactStore.fileName id) with
                  | none => simp [hp]
                  | some p =>
                      cases hwritten : made.writeBytes p data with
                      | none => simp [hp, hwritten]
                      | some written =>
                          have stored : StoredAt rt root disk.fs document id p :=
                            ⟨canonical, data, made, written, hdumps, hdata, hmade, hp, hwritten⟩
                          refine ⟨by simp [hp, hwritten], Or.inr ⟨id, p, hid, hne, stored, ?_⟩⟩
                          simp [hp, hwritten]
  · exact ⟨rfl, Or.inl rfl⟩

theorem write_stored {rt : Runtime} {root : Path} {document : Mapping} {disk : Disk} {id : PyStr}
    {p : Path} (hid : Assoc.get document (py "id") = some (.str id)) (hne : id ≠ [])
    (stored : StoredAt rt root disk.fs document id p) :
    (ArtifactStore.write rt root document disk).2.writes = disk.writes ++ [p] := by
  obtain ⟨canonical, data, made, written, hdumps, hdata, hmade, hp, hwritten⟩ := stored
  simp only [ArtifactStore.write, hid, hne, if_false, hdumps, ArtifactStore.persist, hmade, hdata,
    hp, hwritten]

/-- Behind the validation, the handler leaves what the store leaves. -/
theorem writeHandler_disk {rt : Runtime} {source : SchemaSource} {root : Path}
    {args document : Mapping} (h : Assoc.get args (py "document") = some (.obj document))
    (disk : Disk) :
    (writeHandler rt source root args disk).2 =
      if validateArtifact source disk.fs document = .ok true then
        (ArtifactStore.write rt root document disk).2
      else disk := by
  simp only [writeHandler, h]
  cases hvalid : validateArtifact source disk.fs document with
  | error e => rw [if_neg (by simp)]
  | ok accepted =>
      cases accepted with
      | false => rw [if_neg (by simp)]
      | true =>
          rw [if_pos rfl]
          cases hwrite : ArtifactStore.write rt root document disk with
          | mk out after =>
              cases out with
              | error e => rfl
              | ok digest =>
                  simp only
                  split
                  · rfl
                  · split <;> rfl

/-- Accepted arguments make the write tool touch nothing but the file of the document's
id, and only for an id of the pattern `[A-Z][A-Z0-9]*-[0-9]{4}`. -/
def WriteConfined (rt : Runtime) (source : SchemaSource) (root : Path) (disk : Disk)
    (args : Mapping) : Prop :=
  writeSchema.valid (.obj args) = true →
    ∃ new, (writeHandler rt source root args disk).2.reads = disk.reads ∧
      (writeHandler rt source root args disk).2.writes = disk.writes ++ new ∧
      ∀ p ∈ new, ∃ document id, Assoc.get args (py "document") = some (.obj document) ∧
        Assoc.get document (py "id") = some (.str id) ∧ identifierBody id = true ∧
        p = fileOf root id

/-- A document that can be stored has an id of the pattern where its schema does not
look at the id, and is refused by its schema where the id ends in a newline. -/
def WriteHarmless (rt : Runtime) (source : SchemaSource) (root : Path) (disk : Disk)
    (args : Mapping) : Prop :=
  ∀ document id p, Assoc.get args (py "document") = some (.obj document) →
    Assoc.get document (py "id") = some (.str id) → id ≠ [] →
    StoredAt rt root disk.fs document id p →
      (Unguarded source disk.fs document → identifierBody id = true) ∧
      (id.getLast? = some (cp '\n') → validateArtifact source disk.fs document ≠ .ok true)

theorem writeSchema_valid {args : Mapping} (h : writeSchema.valid (.obj args) = true) :
    ∃ document, Assoc.get args (py "document") = some (.obj document) := by
  obtain ⟨v, hv, hvalid⟩ := Schema.valid_member h (List.mem_singleton_self _) rfl
  obtain ⟨document, rfl, -⟩ := Schema.valid_object hvalid
  exact ⟨document, hv⟩

/-- A document with an id of the pattern is stored in the file of that id. -/
theorem stored_identifier {rt : Runtime} {root p : Path} {fs : FileSystem} {document : Mapping}
    {id : PyStr} (hid : identifierBody id = true) (stored : StoredAt rt root fs document id p) :
    p = fileOf root id := by
  obtain ⟨_, _, _, _, -, -, -, hlocate, -⟩ := stored
  rw [locate_eq_join hlocate, join_of_no_slash root (slash_not_mem_identifierBody hid)]

/-- Behind the validation, the harmless ids are those of the pattern. -/
theorem identifierBody_of_harmless {source : SchemaSource} {fs : FileSystem} {document : Mapping}
    {id : PyStr} (haccepted : validateArtifact source fs document = .ok true)
    (hid : Assoc.get document (py "id") = some (.str id))
    (hunguarded : Unguarded source fs document → identifierBody id = true)
    (hline : id.getLast? = some (cp '\n') → validateArtifact source fs document ≠ .ok true) :
    identifierBody id = true := by
  cases validateArtifact_ok haccepted with
  | inr unguarded => exact hunguarded unguarded
  | inl guarded =>
      obtain ⟨id', hid', hidentifier⟩ := guarded
      cases hid.symm.trans hid'
      cases isIdentifier_cases hidentifier with
      | inl hbody => exact hbody
      | inr hlast => exact absurd haccepted (hline hlast.1)

theorem writeConfined_iff (rt : Runtime) (source : SchemaSource) (root : Path) (disk : Disk)
    (args : Mapping) :
    WriteConfined rt source root disk args ↔
      (writeSchema.valid (.obj args) = true → WriteHarmless rt source root disk args) := by
  refine imp_congr_right fun hvalid => ?_
  obtain ⟨document, hdocument⟩ := writeSchema_valid hvalid
  rw [writeHandler_disk hdocument]
  constructor
  · rintro ⟨new, -, hnew, hconfined⟩ document' id p hdocument' hid hne stored
    cases hdocument.symm.trans hdocument'
    have hbody : validateArtifact source disk.fs document = .ok true →
        identifierBody id = true := by
      intro haccepted
      rw [if_pos haccepted, write_stored hid hne stored] at hnew
      obtain rfl : new = [p] := (List.append_cancel_left hnew).symm
      obtain ⟨document', id', hdocument', hid', hbody, -⟩ :=
        hconfined p (List.mem_singleton_self p)
      cases hdocument.symm.trans hdocument'
      cases hid.symm.trans hid'
      exact hbody
    refine ⟨fun unguarded => hbody (validateArtifact_of_unguarded unguarded), ?_⟩
    intro hlast haccepted
    exact identifierBody_last (hbody haccepted) hlast
  · intro harmless
    by_cases haccepted : validateArtifact source disk.fs document = .ok true
    · rw [if_pos haccepted]
      obtain ⟨hreads, hsame | ⟨id, p, hid, hne, stored, hwrites⟩⟩ :=
        write_disk rt root document disk
      · exact ⟨[], hreads, by simpa using hsame, by simp⟩
      · obtain ⟨hunguarded, hline⟩ := harmless document id p hdocument hid hne stored
        have hbody := identifierBody_of_harmless haccepted hid hunguarded hline
        refine ⟨[p], hreads, hwrites, ?_⟩
        intro q hq
        obtain rfl := List.mem_singleton.mp hq
        exact ⟨document, id, hdocument, hid, hbody, stored_identifier hbody stored⟩
    · rw [if_neg haccepted]
      exact ⟨[], rfl, by simp, by simp⟩

/-- Exactly when the artifact tools stay in their store. -/
theorem artifactTools_confined_iff (rt : Runtime) (source : SchemaSource) (root : Path)
    (disk : Disk) (args : Mapping) :
    (ReadConfined rt root disk args ↔
        (readSchema.valid (.obj args) = true → ReadHarmless root disk args)) ∧
      (WriteConfined rt source root disk args ↔
        (writeSchema.valid (.obj args) = true → WriteHarmless rt source root disk args)) :=
  ⟨readConfined_iff rt root disk args, writeConfined_iff rt source root disk args⟩

def sampleSource : SchemaSource where
  dir := [py "repo", py "contracts", py "schemas"]
  elsewhere := fun _ _ => .ok false

/-- The schema files of the shared definitions and of ideas, a store and a file beside
it. -/
def sampleDisk : Disk where
  fs :=
    let bare := FileSystem.bare sampleSource.dir
    let common := bare.put sampleSource.dir (py "common" ++ schemaSuffix) (.file []) (by decide)
      (by decide)
    let schemas := common.put sampleSource.dir (py "idea" ++ schemaSuffix) (.file []) (by decide)
      (by decide)
    let store := schemas.put [py "repo"] (py "artifacts") .dir (by decide) (by decide)
    store.put [py "repo"] (py "package.json") (.file []) (by decide) (by decide)

def strayRead : Mapping := [(py "artifact_id", .str (py "../package"))]

def strayWrite : Mapping :=
  [(py "document",
    .obj [(py "artifact_type", .str (py "common")), (py "id", .str (py "../package"))])]

/-- An idea whose id ends in a newline. -/
def lineIdea : Mapping :=
  [(py "document",
    .obj [(py "schema_version", .str (py "1.0.0")), (py "artifact_type", .str (py "idea")),
      (py "id", .str (py "IDEA-0001\n")), (py "created_at", .str (py "2024-05-01T10:00:00Z")),
      (py "created_by", .obj [(py "type", .str (py "human")), (py "id", .str (py "alice")),
        (py "role", .str (py "author"))]),
      (py "title", .str (py "Export")), (py "problem", .str (py "No export")),
      (py "actor_goal", .str (py "Export data")),
      (py "source",
        .obj [(py "kind", .str (py "issue")), (py "trust_tier", .str (py "untrusted"))])])]

/-- Both tools leave the store by an id with `..`, the write tool with `common` as the
artifact type; and an idea is stored under an id that ends in a newline. -/
theorem strayCalls_leave_store :
    ¬ ReadConfined .ascii [py "repo", py "artifacts"] sampleDisk strayRead ∧
      ¬ WriteConfined .ascii sampleSource [py "repo", py "artifacts"] sampleDisk strayWrite ∧
      ¬ WriteConfined .ascii sampleSource [py "repo", py "artifacts"] sampleDisk lineIdea := by
  have houtside (id : PyStr) :
      [py "repo", py "package.json"] ≠ fileOf [py "repo", py "artifacts"] id := by
    intro h
    have hlen := congrArg List.length h
    simp [fileOf] at hlen
  refine ⟨?_, ?_, ?_⟩
  · intro h
    obtain ⟨new, hdisk, hnew⟩ := h (by decide)
    have hreads : (readHandler .ascii [py "repo", py "artifacts"] strayRead sampleDisk).2.reads =
        [[py "repo", py "package.json"]] := by decide +kernel
    rw [hdisk] at hreads
    have hmem : [py "repo", py "package.json"] ∈ new := by
      simp only [sampleDisk, List.nil_append] at hreads
      simp [hreads]
    obtain ⟨id, -, hfile⟩ := hnew _ hmem
    exact houtside id hfile
  · intro h
    obtain ⟨new, -, hwrites, hnew⟩ := h (by decide)
    have hwritten : (writeHandler .ascii sampleSource [py "repo", py "artifacts"] strayWrite
        sampleDisk).2.writes = [[py "repo", py "package.json"]] := by decide +kernel
    rw [hwrites] at hwritten
    have hmem : [py "repo", py "package.json"] ∈ new := by
      simp only [sampleDisk, List.nil_append] at hwritten
      simp [hwritten]
    obtain ⟨_, id, -, -, -, hfile⟩ := hnew _ hmem
    exact houtside id hfile
  · intro h
    obtain ⟨new, -, hwrites, hnew⟩ := h (by decide)
    have hwritten : (writeHandler .ascii sampleSource [py "repo", py "artifacts"] lineIdea
        sampleDisk).2.writes = [[py "repo", py "artifacts", py "IDEA-0001\n.json"]] := by
      decide +kernel
    rw [hwrites] at hwritten
    have hmem : [py "repo", py "artifacts", py "IDEA-0001\n.json"] ∈ new := by
      simp only [sampleDisk, List.nil_append] at hwritten
      simp [hwritten]
    obtain ⟨_, id, -, -, hbody, hfile⟩ := hnew _ hmem
    obtain rfl : id = py "IDEA-0001\n" := by
      have hname : [py "IDEA-0001\n.json"] = [ArtifactStore.fileName id] :=
        List.tail_eq_of_cons_eq (List.tail_eq_of_cons_eq hfile)
      exact (List.append_cancel_right (List.head_eq_of_cons_eq hname)).symm
    revert hbody
    decide

end SecureSdlc.Tools

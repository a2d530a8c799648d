import SecureSdlc.Core.JsonCanonical
import SecureSdlc.Core.JsonReaders
import SecureSdlc.Core.Run
import SecureSdlc.Metatheory.ArtifactWrites

/-!
The artifact store as a map from ids to documents. A run of writes on an empty root is
followed on the map, where a write assigns its document to its id, or does nothing when the
document cannot be dumped. Reading goes through UTF-8 and JSON, listing through file names.
-/

namespace SecureSdlc.Tools

open Core Artifacts Contracts JsonText

variable {rt : Runtime} {root : Path} {disk : Disk} {document : Mapping} {id : PyStr}

/-- The `repr` of a finite float: it is printable, and read as that float. -/
structure FiniteFloat (rt : Runtime) (repr : PyStr) : Prop where
  finite : repr ∉ [py "nan", py "inf", py "-inf"]
  printable : Printable repr
  reads : FloatText rt repr

open Classical in
noncomputable def isFinite (rt : Runtime) (repr : PyStr) : Bool := decide (FiniteFloat rt repr)

/-- A `dict` with an identifier, finite numbers and no lone surrogates. -/
structure Storable (rt : Runtime) (document : Mapping) : Prop where
  identified : ∃ id, Assoc.get document (py "id") = some (.str id) ∧ identifierBody id = true
  distinct : (Json.obj document).distinctKeys = true
  scalars : (Json.obj document).allScalars PyStr.encodable (isFinite rt) (fun _ => true) = true

instance (room : Nat) (v : Json) : Decidable (Writable room v) :=
  decidable_of_iff (v.depth ≤ room ∧ v.allScalars (fun _ => true) (fun _ => true) shortInt = true)
    ⟨fun h => ⟨h.1, h.2⟩, fun h => ⟨h.depth, h.ints⟩⟩

theorem isFinite_iff {repr : PyStr} : isFinite rt repr = true ↔ FiniteFloat rt repr := by
  simp only [isFinite, decide_eq_true_eq]

theorem FiniteFloat.floatText {repr : PyStr} (h : FiniteFloat rt repr) :
    floatText repr = repr := by
  have hne := h.finite
  simp only [List.mem_cons, List.not_mem_nil, or_false, not_or] at hne
  rw [JsonText.floatText, if_neg hne.1, if_neg hne.2.1, if_neg hne.2.2]

section Documents

variable (h : Storable rt document)

include h

theorem Storable.floatsRead : FloatsRead rt (.obj document) :=
  allScalars_mono (fun _ _ => rfl) (fun _ hrepr => readsBack_iff.mpr (isFinite_iff.mp hrepr).reads)
    (fun _ _ => rfl) _ h.scalars

theorem Storable.id_spec : Assoc.get document (py "id") = some (.str (documentId document)) ∧
    identifierBody (documentId document) = true := by
  obtain ⟨id, hid, hidentifier⟩ := h.identified
  rw [documentId_of_get hid]
  exact ⟨hid, hidentifier⟩

/-- The canonical text of a document is encoded. -/
theorem Storable.encodeUtf8 {text : PyStr}
    (hdumps : dumps rt canonical (.obj document) = .ok text) :
    ∃ data, PyStr.encodeUtf8 text = some data := by
  have hencodable := encodable_write rfl (by decide) (by decide) hdumps
  rw [allScalars_mono (fun _ ht => ht) (fun _ hrepr =>
    encodable_of_printable (isFinite_iff.mp hrepr).printable) (fun _ _ => rfl) _ h.scalars]
    at hencodable
  exact ⟨_, by rw [PyStr.encodeUtf8, if_pos hencodable]⟩

/-- It is a text of one line. -/
theorem Storable.universalNewlines {text : PyStr}
    (hdumps : dumps rt canonical (.obj document) = .ok text) :
    PyStr.universalNewlines text = text := by
  have hplain : text.all isPlain = true := by
    refine isPlain_write (by decide) (by decide) ?_ hdumps
    refine allScalars_mono (fun _ _ => rfl) (fun repr hrepr => ?_) (fun _ _ => rfl) _ h.scalars
    have hfinite := isFinite_iff.mp hrepr
    rw [hfinite.floatText]
    exact isPlain_of_printable hfinite.printable
  exact universalNewlines_of_plain hplain

end Documents

theorem osAccepts_of_printable {text : PyStr} (h : Printable text) :
    Path.osAccepts text = true := by
  have hencodable := encodable_of_printable h
  rw [PyStr.encodable, List.all_eq_true] at hencodable
  simp only [Path.osAccepts, Path.fsEncodable, Bool.and_eq_true, List.all_eq_true,
    Bool.or_eq_true, decide_eq_true_eq]
  refine ⟨fun c hc => .inl (hencodable c hc), fun c hc => ?_⟩
  have := h c hc
  omega

theorem printable_fileName (h : identifierBody id = true) :
    Printable (ArtifactStore.fileName id) := by
  intro c hc
  rcases List.mem_append.mp hc with hid | hsuffix
  · rcases identifierBody_chars h c hid with hupper | hdigit | rfl
    · have hbounds : (cp 'A').val ≤ c.val ∧ c.val ≤ (cp 'Z').val := of_decide_eq_true hupper
      have hA : (cp 'A').val = 65 := rfl
      have hZ : (cp 'Z').val = 90 := rfl
      omega
    · have hbounds : (cp '0').val ≤ c.val ∧ c.val ≤ (cp '9').val := of_decide_eq_true hdigit
      have hzero : (cp '0').val = 48 := rfl
      have hnine : (cp '9').val = 57 := rfl
      omega
    · decide
  · have hprintable : Printable (py ".json") := by decide
    exact hprintable c hsuffix

/-- What `read` makes of what stands at the path of an id. -/
def contents (rt : Runtime) (id : PyStr) : Option Node → Except PyError Mapping
  | some (.file content) =>
      match Utf8.decodeStrict content with
      | none => raised .valueError
      | some text =>
          match loads rt (PyStr.universalNewlines text) with
          | .error e => .error e
          | .ok (.obj fields) => .ok fields
          | .ok _ => raised .typeError (py "artifact " ++ id ++ py " is not a JSON object")
  | _ => raised .keyError id

theorem locate_fileName {fs : FileSystem} (hslash : Path.slash ∉ id)
    (haccepts : Path.osAccepts (ArtifactStore.fileName id) = true) :
    locate fs root (ArtifactStore.fileName id) =
      if fs.isDir root then some (root ++ [ArtifactStore.fileName id]) else none := by
  have hup : ArtifactStore.fileName id ≠ Path.up := fileName_ne id (by decide)
  rw [locate, if_pos haccepts, fileName_relative hslash, fileName_parts hslash,
    if_neg Bool.false_ne_true, FileSystem.walk, if_neg hup]
  rfl

/-- A read depends on its own file only. -/
theorem read_eq (rt : Runtime) (hslash : Path.slash ∉ id) (disk : Disk) :
    (ArtifactStore.read rt root id disk).1 =
      if Path.osAccepts (ArtifactStore.fileName id) = true then
        contents rt id (disk.fs.node (root ++ [ArtifactStore.fileName id]))
      else raised .keyError id := by
  by_cases haccepts : Path.osAccepts (ArtifactStore.fileName id) = true
  · rw [if_pos haccepts, ArtifactStore.read, locate_fileName hslash haccepts]
    by_cases hdir : disk.fs.isDir root = true
    · simp only [if_pos hdir]
      cases hnode : disk.fs.node (root ++ [ArtifactStore.fileName id]) with
      | none => rfl
      | some node =>
          cases node with
          | dir => rfl
          | file content =>
              simp only [contents]
              cases Utf8.decodeStrict content with
              | none => rfl
              | some text =>
                  simp only
                  cases loads rt (PyStr.universalNewlines text) with
                  | error e => rfl
                  | ok v =>
                      cases v with
                      | obj fields => rfl
                      | _ => rfl
    · have hnone : disk.fs.node (root ++ [ArtifactStore.fileName id]) = none := by
        by_contra hsome
        have hclosed := disk.fs.closed root _ (Option.isSome_iff_ne_none.mpr hsome)
        exact hdir (decide_eq_true hclosed)
      simp only [if_neg hdir, hnone]
      rfl
  · rw [if_neg haccepts, ArtifactStore.read, locate, if_neg haccepts]

/-- What a stored document is read back as. -/
theorem contents_canonical (hroom : rt.dumpsRoom ≤ rt.loadsRoom) (h : Storable rt document)
    {data : Bytes} (hdata : canonicalBytes rt document = some data) (id : PyStr) :
    ∃ fields, contents rt id (some (.file data)) = .ok fields ∧
      Json.Agree (.obj document) (.obj fields) := by
  rw [canonicalBytes] at hdata
  cases hdumps : dumps rt canonical (.obj document) with
  | error e =>
      rw [hdumps] at hdata
      cases hdata
  | ok text =>
      rw [hdumps] at hdata
      have hdepth := ((exists_write_iff canonical rt.dumpsRoom _).mp ⟨text, hdumps⟩).depth
      have hloads := h.floatsRead.loads_dumps readable_canonical (hdepth.trans hroom) hdumps
      have hagree : Json.Agree (.obj document) (reread canonical (.obj document)) :=
        agree_reread rfl _ h.distinct
      rw [reread_obj rfl (Json.distinctKeys_of_field h.distinct).1] at hloads hagree
      refine ⟨_, ?_, hagree⟩
      simp only [contents, Utf8.decodeStrict_encodeUtf8 hdata, h.universalNewlines hdumps, hloads]

/-- A document that can be dumped is written below a root that can be made. -/
theorem write_returns (h : Storable rt document)
    (hwritable : Writable rt.dumpsRoom (.obj document)) {made : FileSystem}
    (hmade : disk.fs.mkdirs [] root = some made)
    (hfree : made.node (root ++ [ArtifactStore.fileName (documentId document)]) ≠ some .dir) :
    ∃ data, canonicalBytes rt document = some data ∧ ∃ parent free,
      ArtifactStore.write rt root document disk = (.ok (rt.hexdigest data),
        { disk with
          fs := made.put root (ArtifactStore.fileName (documentId document)) (.file data)
            parent free
          writes := disk.writes ++ [root ++ [ArtifactStore.fileName (documentId document)]] }) := by
  obtain ⟨hid, hidentifier⟩ := h.id_spec
  have hne : documentId document ≠ [] := by
    intro hnil
    rw [hnil] at hidentifier
    cases hidentifier
  obtain ⟨text, htext⟩ : ∃ text, dumps rt canonical (.obj document) = .ok text :=
    (exists_write_iff canonical rt.dumpsRoom _).mpr hwritable
  obtain ⟨data, hdata⟩ := h.encodeUtf8 htext
  have hcell : canonicalBytes rt document = some data := by
    rw [canonicalBytes, htext]
    exact hdata
  have hdir : made.node root = some .dir := by
    have hspec := (FileSystem.mkdirs_spec hmade disk.fs.rooted).1
    rwa [List.nil_append] at hspec
  have hisDir : made.isDir root = true := decide_eq_true hdir
  have hlocate : locate made root (ArtifactStore.fileName (documentId document)) =
      some (root ++ [ArtifactStore.fileName (documentId document)]) := by
    rw [locate_fileName (slash_not_mem_identifierBody hidentifier)
      (osAccepts_of_printable (printable_fileName hidentifier)), if_pos hisDir]
  have hwrite : made.writeBytes (root ++ [ArtifactStore.fileName (documentId document)]) data =
      some (made.put root (ArtifactStore.fileName (documentId document)) (.file data) hdir
        fun hnode => absurd hnode hfree) := by
    simp only [FileSystem.writeBytes, List.getLast?_concat, List.dropLast_concat, hdir, hfree,
      ne_eq, not_false_eq_true, and_self, dif_pos]
  refine ⟨data, hcell, hdir, fun hnode => absurd hnode hfree, ?_⟩
  simp only [ArtifactStore.write, hid, hne, if_false, htext, ArtifactStore.persist, hmade, hdata,
    hlocate, hwrite]

theorem write_raises (h : Storable rt document)
    (hunwritable : ¬ Writable rt.dumpsRoom (.obj document)) :
    ∃ e, ArtifactStore.write rt root document disk = (.error e, disk) := by
  obtain ⟨hid, hidentifier⟩ := h.id_spec
  have hne : documentId document ≠ [] := by
    intro hnil
    rw [hnil] at hidentifier
    cases hidentifier
  cases hdumps : dumps rt canonical (.obj document) with
  | error e =>
      refine ⟨e, ?_⟩
      simp only [ArtifactStore.write, hid, hne, if_false, hdumps]
  | ok text =>
      exact absurd ((exists_write_iff canonical rt.dumpsRoom _).mp ⟨text, hdumps⟩) hunwritable

/-- The root can be made, and nothing stands below it. -/
def EmptyRoot (fs : FileSystem) (root : Path) : Prop :=
  (∃ made, fs.mkdirs [] root = some made) ∧ fs.children root = []

/-- The map after a write. -/
def assign (rt : Runtime) (m : PyStr → Option Mapping) (document : Mapping) :
    PyStr → Option Mapping :=
  if Writable rt.dumpsRoom (.obj document) then
    Function.update m (documentId document) (some document)
  else m

/-- The disk after a write. -/
def put (rt : Runtime) (root : Path) (disk : Disk) (document : Mapping) : Disk :=
  (ArtifactStore.write rt root document disk).2

/-- The files below the root are the documents of the map. -/
structure Holds (rt : Runtime) (root : Path) (disk : Disk) (m : PyStr → Option Mapping) :
    Prop where
  made : ∃ made, disk.fs.mkdirs [] root = some made
  once : (disk.fs.children root).Nodup
  named : ∀ name ∈ disk.fs.children root, ∃ id, m id ≠ none ∧ name = ArtifactStore.fileName id
  stored : ∀ id document, m id = some document → Storable rt document ∧
    documentId document = id ∧ ∃ data, canonicalBytes rt document = some data ∧
      disk.fs.node (root ++ [ArtifactStore.fileName id]) = some (.file data)

theorem fileName_injective : Function.Injective ArtifactStore.fileName :=
  fun _ _ h => List.append_cancel_right h

theorem holds_start (h : EmptyRoot disk.fs root) : Holds rt root disk fun _ => none := by
  obtain ⟨hmade, hempty⟩ := h
  refine ⟨hmade, ?_, ?_, fun _ _ h => nomatch h⟩
  · rw [hempty]
    exact List.nodup_nil
  · intro name hname
    rw [hempty] at hname
    cases hname

theorem stem_fileName (h : id ≠ []) : ArtifactStore.stem (ArtifactStore.fileName id) = id := by
  have hreverse : (ArtifactStore.fileName id).reverse =
      cp 'n' :: cp 'o' :: cp 's' :: cp 'j' :: cp '.' :: id.reverse := by
    rw [ArtifactStore.fileName, List.reverse_append]
    rfl
  have hlength : (ArtifactStore.fileName id).length = id.length + 5 := by
    rw [ArtifactStore.fileName, List.length_append]
    rfl
  have hdot : PyStr.rfind (ArtifactStore.fileName id) (cp '.') = some id.length := by
    have hfind : (cp 'n' :: cp 'o' :: cp 's' :: cp 'j' :: cp '.' :: id.reverse).findIdx?
        (· == cp '.') = some 4 := rfl
    rw [PyStr.rfind, hreverse, hfind, Option.map_some, hlength]
    rfl
  have hpositive := List.length_pos_iff.mpr h
  rw [ArtifactStore.stem, hdot]
  simp only [hlength]
  rw [if_pos ⟨hpositive, by omega⟩, ArtifactStore.fileName, List.take_left]

section Steps

variable {m : PyStr → Option Mapping} (holds : Holds rt root disk m)

include holds

theorem Holds.node_eq_none (hnone : m id = none) :
    disk.fs.node (root ++ [ArtifactStore.fileName id]) = none := by
  by_contra hsome
  obtain ⟨other, hother, heq⟩ := holds.named _ (FileSystem.mem_children.mpr hsome)
  exact hother (fileName_injective heq ▸ hnone)

theorem Holds.node_ne_dir : disk.fs.node (root ++ [ArtifactStore.fileName id]) ≠ some .dir := by
  cases hm : m id with
  | none =>
      rw [holds.node_eq_none hm]
      exact fun h => nomatch h
  | some document =>
      obtain ⟨-, -, data, -, hnode⟩ := holds.stored id document hm
      rw [hnode]
      exact fun h => nomatch h

/-- What a write of a document that can be dumped does to the files below the root. -/
theorem Holds.write (h : Storable rt document)
    (hwritable : Writable rt.dumpsRoom (.obj document)) :
    ∃ data after, canonicalBytes rt document = some data ∧
      ArtifactStore.write rt root document disk = (.ok (rt.hexdigest data), after) ∧
      after.fs.node root = some .dir ∧
      (∀ name, after.fs.node (root ++ [name]) =
        if ArtifactStore.fileName (documentId document) = name then some (.file data)
        else disk.fs.node (root ++ [name])) ∧
      after.fs.children root =
        if m (documentId document) = none then
          disk.fs.children root ++ [ArtifactStore.fileName (documentId document)]
        else disk.fs.children root := by
  obtain ⟨made, hmade⟩ := holds.made
  obtain ⟨hdir, hchildren, hnodes⟩ := FileSystem.mkdirs_spec hmade disk.fs.rooted
  rw [List.nil_append] at hdir hchildren hnodes
  obtain ⟨data, hdata, parent, free, hwrite⟩ := write_returns h hwritable hmade
    (by rw [hnodes]; exact holds.node_ne_dir)
  refine ⟨data, _, hdata, hwrite, ?_, ?_, ?_⟩
  · change (made.put root _ _ parent free).node root = _
    rw [FileSystem.node_put, if_neg (by simp), hdir]
  · intro name
    change (made.put root _ _ parent free).node _ = _
    rw [FileSystem.node_put, hnodes]
    by_cases hname : ArtifactStore.fileName (documentId document) = name
    · rw [if_pos hname, if_pos (by rw [hname])]
    · rw [if_neg hname, if_neg fun heq => hname (List.cons.inj (List.append_cancel_left heq)).1]
  · change (made.put root _ _ parent free).children root = _
    rw [FileSystem.children_put, hchildren, hnodes]
    cases hm : m (documentId document) with
    | none => rw [if_pos ⟨rfl, holds.node_eq_none hm⟩, if_pos rfl]
    | some old =>
        obtain ⟨-, -, oldData, -, hnode⟩ := holds.stored _ old hm
        rw [if_neg (by rw [hnode]; exact fun h => nomatch h.2), if_neg (fun h => nomatch h)]

theorem Holds.put (h : Storable rt document) :
    Holds rt root (put rt root disk document) (assign rt m document) := by
  by_cases hwritable : Writable rt.dumpsRoom (.obj document)
  · obtain ⟨data, after, hdata, hwrite, hdir, hnodes, hchildren⟩ := holds.write h hwritable
    rw [Tools.put, hwrite, assign, if_pos hwritable]
    refine ⟨⟨after.fs, ?_⟩, ?_, ?_, ?_⟩
    · exact FileSystem.mkdirs_of_dir hdir
    · rw [hchildren]
      split
      · rename_i hnone
        rw [List.nodup_append]
        refine ⟨holds.once, List.nodup_singleton _, ?_⟩
        intro name hname other hother heq
        rw [List.mem_singleton] at hother
        rw [heq, hother, FileSystem.mem_children, holds.node_eq_none hnone] at hname
        exact hname rfl
      · exact holds.once
    · intro name hname
      rw [FileSystem.mem_children, hnodes] at hname
      by_cases hown : ArtifactStore.fileName (documentId document) = name
      · exact ⟨documentId document, by rw [Function.update_self]; exact Option.some_ne_none _,
          hown.symm⟩
      · rw [if_neg hown] at hname
        obtain ⟨id, hid, rfl⟩ := holds.named name (FileSystem.mem_children.mpr hname)
        refine ⟨id, ?_, rfl⟩
        rw [Function.update_of_ne fun heq => hown (congrArg _ heq.symm)]
        exact hid
    · intro id other hget
      rw [hnodes]
      by_cases hown : id = documentId document
      · subst hown
        rw [Function.update_self, Option.some.injEq] at hget
        subst hget
        exact ⟨h, rfl, data, hdata, if_pos rfl⟩
      · rw [Function.update_of_ne hown] at hget
        rw [if_neg fun heq => hown (fileName_injective heq).symm]
        exact holds.stored id other hget
  · obtain ⟨e, hwrite⟩ : ∃ e, ArtifactStore.write rt root document disk = (.error e, disk) :=
      write_raises h hwritable
    rw [Tools.put, hwrite, assign, if_neg hwritable]
    exact holds

theorem Holds.id_ne_nil (h : m id ≠ none) : id ≠ [] := by
  obtain ⟨document, hdocument⟩ := Option.ne_none_iff_exists'.mp h
  obtain ⟨hstorable, rfl, -⟩ := holds.stored id document hdocument
  intro hnil
  have hidentifier := hstorable.id_spec.2
  rw [hnil] at hidentifier
  cases hidentifier

theorem Holds.mem_children_iff {name : PyStr} :
    name ∈ disk.fs.children root ↔ ∃ id, m id ≠ none ∧ name = ArtifactStore.fileName id := by
  constructor
  · exact holds.named name
  · rintro ⟨id, hid, rfl⟩
    obtain ⟨document, hdocument⟩ := Option.ne_none_iff_exists'.mp hid
    obtain ⟨-, -, data, -, hnode⟩ := holds.stored id document hdocument
    rw [FileSystem.mem_children, hnode]
    exact Option.some_ne_none _

theorem Holds.listIds_spec :
    (ArtifactStore.listIds root disk).Pairwise (fun a b => PyStr.le a b = true ∧ a ≠ b) ∧
      ∀ id, id ∈ ArtifactStore.listIds root disk ↔ m id ≠ none := by
  have hstem : ∀ name ∈ disk.fs.children root,
      ArtifactStore.fileName (ArtifactStore.stem name) = name := by
    intro name hname
    obtain ⟨id, hid, rfl⟩ := holds.named name hname
    rw [stem_fileName (holds.id_ne_nil hid)]
  have hall : (disk.fs.children root).filter (fun name => PyStr.endsWith name (py ".json")) =
      disk.fs.children root := by
    refine List.filter_eq_self.mpr fun name hname => ?_
    obtain ⟨id, -, rfl⟩ := holds.named name hname
    exact decide_eq_true (List.suffix_append _ _)
  rw [ArtifactStore.listIds, hall]
  refine ⟨PyStr.strict_insertionSort (holds.once.map_on ?_), fun id => ?_⟩
  · intro name hname other hother heq
    rw [← hstem name hname, ← hstem other hother, heq]
  · rw [List.mem_insertionSort, List.mem_map]
    constructor
    · rintro ⟨name, hname, rfl⟩
      obtain ⟨id, hid, rfl⟩ := holds.named name hname
      rwa [stem_fileName (holds.id_ne_nil hid)]
    · intro hid
      exact ⟨ArtifactStore.fileName id, holds.mem_children_iff.mpr ⟨id, hid, rfl⟩,
        stem_fileName (holds.id_ne_nil hid)⟩

theorem Holds.read_of_some (hroom : rt.dumpsRoom ≤ rt.loadsRoom) (h : m id = some document) :
    ∃ fields, (ArtifactStore.read rt root id disk).1 = .ok fields ∧
      Json.Agree (.obj document) (.obj fields) := by
  obtain ⟨hstorable, rfl, data, hdata, hnode⟩ := holds.stored id document h
  have hidentifier := hstorable.id_spec.2
  rw [read_eq rt (slash_not_mem_identifierBody hidentifier),
    if_pos (osAccepts_of_printable (printable_fileName hidentifier)), hnode]
  exact contents_canonical hroom hstorable hdata _

theorem Holds.read_of_none (hslash : Path.slash ∉ id) (h : m id = none) :
    (ArtifactStore.read rt root id disk).1 = raised .keyError id := by
  rw [read_eq rt hslash, holds.node_eq_none h]
  split
  · rfl
  · rfl

end Steps

/-- A write answers with the digest of what it stored, or raises, and changes what is read
under no other id. -/
def WriteAnswers (rt : Runtime) (root : Path) (disk : Disk) (document : Mapping) : Prop :=
  (if Writable rt.dumpsRoom (.obj document) then
    ∃ data, (ArtifactStore.write rt root document disk).1 = .ok (rt.hexdigest data) ∧
      (put rt root disk document).fs.node (filePath root (documentId document)) =
        some (.file data)
  else ∃ e, (ArtifactStore.write rt root document disk).1 = .error e) ∧
    ∀ other, Path.slash ∉ other → other ≠ documentId document →
      (ArtifactStore.read rt root other (put rt root disk document)).1 =
        (ArtifactStore.read rt root other disk).1

/-- What is read and listed is what the map has. -/
structure IsMap (rt : Runtime) (root : Path) (disk : Disk) (m : PyStr → Option Mapping) :
    Prop where
  read : ∀ id document, m id = some document →
    ∃ fields, (ArtifactStore.read rt root id disk).1 = .ok fields ∧
      Json.Agree (.obj document) (.obj fields)
  missing : ∀ id, Path.slash ∉ id → m id = none →
    (ArtifactStore.read rt root id disk).1 = raised .keyError id
  sorted : (ArtifactStore.listIds root disk).Pairwise fun a b => PyStr.le a b = true ∧ a ≠ b
  listed : ∀ id, id ∈ ArtifactStore.listIds root disk ↔ m id ≠ none

theorem Holds.isMap {m : PyStr → Option Mapping} (holds : Holds rt root disk m)
    (hroom : rt.dumpsRoom ≤ rt.loadsRoom) : IsMap rt root disk m :=
  ⟨fun _ _ => holds.read_of_some hroom, fun _ => holds.read_of_none, holds.listIds_spec.1,
    holds.listIds_spec.2⟩

theorem Holds.writeAnswers {m : PyStr → Option Mapping} (holds : Holds rt root disk m)
    (h : Storable rt document) : WriteAnswers rt root disk document := by
  have hslash := slash_not_mem_identifierBody h.id_spec.2
  by_cases hwritable : Writable rt.dumpsRoom (.obj document)
  · obtain ⟨data, after, -, hwrite, -, hnodes, -⟩ := holds.write h hwritable
    rw [WriteAnswers, if_pos hwritable, Tools.put, hwrite]
    refine ⟨⟨data, rfl, ?_⟩, fun other hother hne => ?_⟩
    · rw [filePath_of_no_slash root hslash, hnodes, if_pos rfl]
    · rw [read_eq rt hother, read_eq rt hother, hnodes,
        if_neg fun heq => hne (fileName_injective heq).symm]
  · obtain ⟨e, hwrite⟩ : ∃ e, ArtifactStore.write rt root document disk = (.error e, disk) :=
      write_raises h hwritable
    rw [WriteAnswers, if_neg hwritable, Tools.put, hwrite]
    exact ⟨⟨e, rfl⟩, fun _ _ _ => rfl⟩

/-- On an empty root, whatever documents are written: the store is the map of the last
documents that could be dumped, and every write answers for itself. -/
theorem artifactStore_is_map (hroom : rt.dumpsRoom ≤ rt.loadsRoom) (root : Path) (disk : Disk)
    (hempty : EmptyRoot disk.fs root) (docs : List Mapping)
    (hdocs : ∀ document ∈ docs, Storable rt document) :
    IsMap rt root (run (put rt root) disk docs) (run (assign rt) (fun _ => none) docs) ∧
      AllSteps (put rt root) (WriteAnswers rt root) disk docs := by
  have hrun : ∀ (disk : Disk) (m : PyStr → Option Mapping), Holds rt root disk m →
      Holds rt root (run (put rt root) disk docs) (run (assign rt) m docs) ∧
        AllSteps (put rt root) (WriteAnswers rt root) disk docs := by
    induction docs with
    | nil => exact fun disk m holds => ⟨holds, trivial⟩
    | cons document docs ih =>
        intro disk m holds
        rw [List.forall_mem_cons] at hdocs
        obtain ⟨hafter, hsteps⟩ := ih hdocs.2 _ _ (holds.put hdocs.1)
        exact ⟨hafter, holds.writeAnswers hdocs.1, hsteps⟩
  obtain ⟨holds, hsteps⟩ := hrun disk _ (holds_start hempty)
  exact ⟨holds.isMap hroom, hsteps⟩

def emptyStore : Disk := { fs := FileSystem.bare [py "store"] }

/-- The third document takes the place of the first. -/
def threeWrites : List Mapping :=
  [[(py "id", .str (py "TASK-0001")), (py "title", .str (py "first"))],
    [(py "title", .str (py "other")), (py "id", .str (py "TASK-0002"))],
    [(py "weight", .int 2), (py "id", .str (py "TASK-0001"))]]

theorem storable_threeWrites : ∀ document ∈ threeWrites, Storable Runtime.ascii document := by
  simp only [threeWrites, List.forall_mem_cons, List.not_mem_nil, false_implies, implies_true,
    and_true]
  exact ⟨⟨⟨py "TASK-0001", rfl, by decide⟩, by decide, rfl⟩,
    ⟨⟨py "TASK-0002", rfl, by decide⟩, by decide, rfl⟩,
    ⟨⟨py "TASK-0001", rfl, by decide⟩, by decide, rfl⟩⟩

theorem threeWrites_is_map :
    IsMap Runtime.ascii [py "store"] (run (put Runtime.ascii [py "store"]) emptyStore threeWrites)
        (run (assign Runtime.ascii) (fun _ => none) threeWrites) ∧
      AllSteps (put Runtime.ascii [py "store"]) (WriteAnswers Runtime.ascii [py "store"]) emptyStore
        threeWrites :=
  artifactStore_is_map (by decide) [py "store"] emptyStore
    ⟨⟨_, FileSystem.mkdirs_of_dir (by decide)⟩, by decide⟩ threeWrites storable_threeWrites

end SecureSdlc.Tools

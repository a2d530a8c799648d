import SecureSdlc.Metatheory.ProtectedZones

/-!
Writes through `write_file`: the policy reads the path as the caller spells it, the
writer follows its components. The result quantifies over every state of the
workspace, so a spelling counts as safe only when no state lets it into a zone.
-/

namespace SecureSdlc.Tools

open Core Core.Rego Policy Runner

/-- The paths the workspace writer takes. -/
structure Accepted (path : PyStr) : Prop where
  nonempty : path ≠ []
  relative : WorkspaceWriter.startsAbsolute path = false
  noUp : Path.up ∉ Path.parts path
  os : Path.osAccepts path = true

theorem join_accepted {path : PyStr} (h : Accepted path) (root : Path) :
    Path.join root path = root ++ Path.parts path := by
  have habs : Path.isAbsolute path = false := by
    have hrel := h.relative
    simp only [WorkspaceWriter.startsAbsolute, Bool.or_eq_false_iff] at hrel
    exact hrel.1
  simp only [Path.join, habs, Bool.false_eq_true, if_false]
  exact Path.resolve_of_no_up h.noUp

theorem target_iff (root : Path) (path : PyStr) (t : Path) :
    WorkspaceWriter.target root path = .ok t ↔ Accepted path ∧ t = root ++ Path.parts path := by
  constructor
  · intro h
    simp only [WorkspaceWriter.target] at h
    split at h
    · cases h
    · rename_i hfirst
      split at h
      · cases h
      · rename_i hup
        split at h
        · rename_i hos
          have accepted : Accepted path := by
            simp only [not_or, Bool.not_eq_true] at hfirst
            exact ⟨hfirst.1, hfirst.2, hup, hos⟩
          split at h
          · cases h
            exact ⟨accepted, join_accepted accepted root⟩
          · cases h
        · cases h
  · rintro ⟨accepted, rfl⟩
    simp only [WorkspaceWriter.target, accepted.nonempty, accepted.relative, accepted.noUp,
      accepted.os, join_accepted accepted root]
    simp

theorem write_ok {rt : Runtime} {root : Path} {path content : PyStr} {disk disk' : Disk}
    {out : Mapping}
    (h : WorkspaceWriter.write rt root path content disk = (.ok out, disk')) :
    Accepted path ∧ PyStr.encodable content = true ∧
      disk'.writes = disk.writes ++ [root ++ Path.parts path] := by
  simp only [WorkspaceWriter.write] at h
  cases ht : WorkspaceWriter.target root path with
  | error e => simp [ht] at h
  | ok t =>
      obtain ⟨accepted, rfl⟩ := (target_iff root path t).mp ht
      simp only [ht, PyStr.encodeUtf8] at h
      cases hm : disk.fs.mkdirs [] (root ++ Path.parts path).dropLast with
      | none => simp [hm, raised] at h
      | some fs =>
          simp only [hm] at h
          by_cases henc : PyStr.encodable content = true
          · simp only [henc, if_true] at h
            cases hw : fs.writeBytes (root ++ Path.parts path)
                (content.flatMap PyStr.utf8Bytes) with
            | none => simp [hw, raised] at h
            | some fs' =>
                simp only [hw, Prod.mk.injEq] at h
                refine ⟨accepted, henc, ?_⟩
                rw [← h.2]
          · simp [henc, raised] at h

/-- In an empty workspace an accepted path that names a file is written. -/
theorem write_bare (rt : Runtime) (root : Path) {path content : PyStr} (accepted : Accepted path)
    (hparts : Path.parts path ≠ []) (henc : PyStr.encodable content = true) :
    ∃ out disk', WorkspaceWriter.write rt root path content ⟨.bare root, [], []⟩ =
        (.ok out, disk') ∧
      disk'.writes = [root ++ Path.parts path] := by
  have ht := (target_iff root path _).mpr ⟨accepted, rfl⟩
  have hlen : root.length < (root ++ Path.parts path).length := by
    have := List.length_pos_iff.mpr hparts
    simp only [List.length_append]
    omega
  generalize root ++ Path.parts path = file at ht hlen ⊢
  have hnode (q : Path) (n : Node) (hq : (FileSystem.bare root).node q = some n) :
      n = .dir ∧ q <+: root := by
    rw [FileSystem.node_bare] at hq
    split at hq
    · rename_i hpre
      exact ⟨(Option.some.inj hq).symm, hpre⟩
    · cases hq
  obtain ⟨fs, hmk, hdir, honly⟩ := FileSystem.mkdirs_of_no_file (.bare root) [] file.dropLast
    (fun q content hq => by simpa using (hnode q _ hq).1) (by simp [FileSystem.node_bare])
  have hne : file ≠ [] := List.ne_nil_of_length_pos (by omega)
  obtain ⟨name, hlast⟩ : ∃ name, file.getLast? = some name :=
    ⟨_, List.getLast?_eq_some_getLast hne⟩
  have hfile : file.dropLast ++ [name] = file := List.dropLast_append_getLast? name hlast
  have hfree : fs.node (file.dropLast ++ [name]) ≠ some .dir := by
    intro hd
    rw [hfile] at hd
    rcases honly _ hd with hold | hpre
    · have := (hnode _ _ hold).2.length_le
      omega
    · have := hpre.length_le
      simp only [List.nil_append, List.length_dropLast] at this
      omega
  obtain ⟨fs', hw⟩ : ∃ fs', fs.writeBytes file (content.flatMap PyStr.utf8Bytes) = some fs' := by
    simp only [FileSystem.writeBytes, hlast]
    rw [dif_pos ⟨by simpa using hdir, hfree⟩]
    exact ⟨_, rfl⟩
  have hresult : ∃ out, WorkspaceWriter.write rt root path content ⟨.bare root, [], []⟩ =
      (.ok out, ⟨fs', [], [file]⟩) := by
    simp only [WorkspaceWriter.write, ht, hmk, PyStr.encodeUtf8, henc, if_true, hw,
      List.nil_append]
    exact ⟨_, rfl⟩
  obtain ⟨out, hout⟩ := hresult
  exact ⟨out, _, hout, rfl⟩

/-- The policy allows `write_file` exactly on paths without a marker. -/
theorem allow_write_file_iff (opa : Engine) (path scope : PyStr) (actor : Mapping) :
    (PreToolCall.decision opa (policyPayload (py "write_file") path scope actor)).allow = true ↔
      Unmarked path ∧ ∀ marker ∈ PreToolCall.sensitiveMarkers, ¬ marker <:+: path := by
  have hpath (markers : List PyStr) :
      PreToolCall.pathContains (policyPayload (py "write_file") path scope actor) markers = false ↔
        ∀ marker ∈ markers, ¬ marker <:+: path := by
    change (markers.any fun marker => PyStr.hasSubstr path marker) = false ↔ _
    simp [List.any_eq_false, PyStr.hasSubstr]
  have htool : PreToolCall.fires opa (policyPayload (py "write_file") path scope actor)
      .toolNotInAllowlist = false := by
    change (!inSet PreToolCall.allowedTools (.str (py "write_file"))) = false
    decide
  have hprotected : PreToolCall.fires opa (policyPayload (py "write_file") path scope actor)
      .protectedPath = PreToolCall.pathContains
        (policyPayload (py "write_file") path scope actor) protectedPathMarkers := by
    change (isText (some (.str (py "write_file"))) (py "write_file") && _) = _
    rw [(isText_iff _ _).mpr rfl, Bool.true_and]
    rfl
  rw [PreToolCall.decision, PreToolCall.denyReasons,
    Decision.of_allow_iff (by intro r; cases r <;> decide)]
  constructor
  · intro h
    have hp := h .protectedPath
    rw [hprotected, hpath] at hp
    exact ⟨hp, (hpath _).mp (h .sensitivePath)⟩
  · rintro ⟨hunmarked, hsensitive⟩ r
    cases r with
    | protectedPath => rw [hprotected, hpath]; exact hunmarked
    | sensitivePath => exact (hpath _).mpr hsensitive
    | toolNotInAllowlist => exact htool

/-- The policy is asked about `resource` for a call of `write_file`, and allows it. -/
def AllowsWrite (opa : Engine) (resource : PyStr) : Prop :=
  ∃ scope actor,
    (PreToolCall.decision opa (policyPayload (py "write_file") resource scope actor)).allow = true

/-- In every state of the workspace, for all arguments with this path and content: if
the policy allows the call and the write succeeds, the one file written is outside of
the protected zones. -/
def WriteStaysOut (rt : Runtime) (opa : Engine) (root : Path) (path content : PyStr) : Prop :=
  ∀ args resource disk out disk',
    Assoc.get args (py "path") = some (.str path) →
    Assoc.get args (py "content") = some (.str content) →
    deriveResource rt [] args = .ok resource → AllowsWrite opa resource →
    writeFileHandler rt root args disk = (.ok out, disk') →
    ∃ file, disk'.writes = disk.writes ++ [root ++ file] ∧ ¬ Protected file

theorem deriveResource_path (rt : Runtime) {args : Mapping} {path : PyStr} (h : path ≠ [])
    (hpath : Assoc.get args (py "path") = some (.str path)) :
    deriveResource rt [] args = .ok path := by
  obtain ⟨c, rest, rfl⟩ := List.exists_cons_of_ne_nil h
  simp only [deriveResource, hpath]
  rfl

theorem writeFileHandler_eq (rt : Runtime) (root : Path) {args : Mapping} {path content : PyStr}
    (hpath : Assoc.get args (py "path") = some (.str path))
    (hcontent : Assoc.get args (py "content") = some (.str content)) (disk : Disk) :
    writeFileHandler rt root args disk = WorkspaceWriter.write rt root path content disk := by
  simp only [writeFileHandler, hpath, hcontent]
  rfl

def writeArgs (path content : PyStr) : Mapping :=
  [(py "path", .str path), (py "content", .str content)]

/-- A spelling that the policy allows and the writer takes into a zone. -/
structure SlipsIn (path content : PyStr) : Prop where
  disguised : Disguised path
  unmarked : Unmarked path
  insensitive : ∀ marker ∈ PreToolCall.sensitiveMarkers, ¬ marker <:+: path
  accepted : Accepted path
  encodable : PyStr.encodable content = true

theorem SlipsIn.written {path content : PyStr} (slips : SlipsIn path content) (rt : Runtime)
    (opa : Engine) (root : Path) : ¬ WriteStaysOut rt opa root path content := by
  intro h
  have inside := (protected_iff_disguised slips.unmarked).mpr slips.disguised
  have hparts : Path.parts path ≠ [] := by
    intro hnil
    rw [hnil] at inside
    revert inside
    decide
  obtain ⟨out, disk', hwrite, hwrites⟩ := write_bare rt root slips.accepted hparts
    slips.encodable
  have hpath : Assoc.get (writeArgs path content) (py "path") = some (.str path) := rfl
  have hcontent : Assoc.get (writeArgs path content) (py "content") = some (.str content) := rfl
  obtain ⟨file, hfile, hout⟩ := h (writeArgs path content) path ⟨.bare root, [], []⟩ out disk'
    hpath hcontent (deriveResource_path rt slips.accepted.nonempty hpath)
    ⟨[], [], (allow_write_file_iff opa path [] []).mpr ⟨slips.unmarked, slips.insensitive⟩⟩
    (by rw [writeFileHandler_eq rt root hpath hcontent, hwrite])
  have hsame : file = Path.parts path := by
    rw [hwrites] at hfile
    simpa using hfile.symm
  exact hout (hsame ▸ inside)

/-- Writes through `write_file` stay out of the protected zones unless the path is a
disguised one that shows no marker. -/
theorem writeStaysOut_iff (rt : Runtime) (opa : Engine) (root : Path) (path content : PyStr) :
    WriteStaysOut rt opa root path content ↔ ¬ SlipsIn path content := by
  constructor
  · intro h slips
    exact slips.written rt opa root h
  · rintro h args resource disk out disk' hpath hcontent hres ⟨scope, actor, hallow⟩ hwrite
    rw [writeFileHandler_eq rt root hpath hcontent] at hwrite
    obtain ⟨accepted, henc, hwrites⟩ := write_ok hwrite
    rw [deriveResource_path rt accepted.nonempty hpath] at hres
    cases hres
    obtain ⟨unmarked, insensitive⟩ := (allow_write_file_iff opa path scope actor).mp hallow
    refine ⟨Path.parts path, hwrites, ?_⟩
    intro inside
    exact h ⟨(protected_iff_disguised unmarked).mp inside, unmarked, insensitive, accepted, henc⟩

/-- `docs//adr/0001.md` is allowed and written to `docs/adr/0001.md`. -/
theorem doubledSlash_written_into_adr :
    ¬ ∃ rt opa, WriteStaysOut rt opa [py "workspace"] (py "docs//adr/0001.md") (py "x") := by
  rintro ⟨rt, opa, h⟩
  have slips : SlipsIn (py "docs//adr/0001.md") (py "x") :=
    { disguised := Or.inl ⟨[], [[]], [py "0001.md"], by decide, by decide, by decide, by decide,
        by decide⟩
      unmarked := by
        simp only [Unmarked]
        decide
      insensitive := by decide
      accepted := ⟨by decide, by decide, by decide, by decide⟩
      encodable := by decide }
  exact slips.written rt opa _ h

end SecureSdlc.Tools

import SecureSdlc.Metatheory.ZoneWrites

/-!
Commits through `open_pr`: the tool checks each path it is given, git stages every
changed file at or below it. The results hold for every behaviour of git and of the
pull request service, and for every reading of `..`, which the tool lets through
when it is written with backslashes.
-/

namespace SecureSdlc.Tools

open Core Runner

universe u

namespace GitM

variable {ρ : Type u} {α β : Type} {Q : List PyStr → Prop}

/-- The computation runs git only with argument vectors in `Q`. -/
def Emits (Q : List PyStr → Prop) (m : GitM ρ α) : Prop :=
  ∀ host, ∃ new, (m host).2.argvs = host.argvs ++ new ∧ ∀ argv ∈ new, Q argv

theorem emits_done (a : α) : Emits Q (done a : GitM ρ α) := fun _ => ⟨[], by simp [done], by simp⟩

theorem emits_lift (x : Except PyError α) : Emits Q (lift x : GitM ρ α) :=
  fun _ => ⟨[], by simp [lift], by simp⟩

theorem emits_andThen {m : GitM ρ α} {f : α → GitM ρ β} (hm : Emits Q m)
    (hf : ∀ a host, (m host).1 = .ok a → Emits Q (f a)) : Emits Q (m.andThen f) := by
  intro host
  obtain ⟨new, hnew, hQ⟩ := hm host
  cases hrun : m host with
  | mk out host' =>
      rw [hrun] at hnew
      cases out with
      | error e => exact ⟨new, by simpa [andThen, hrun] using hnew, hQ⟩
      | ok a =>
          obtain ⟨more, hmore, hQ'⟩ := hf a host (by rw [hrun]) host'
          refine ⟨new ++ more, ?_, ?_⟩
          · simp only at hnew
            simp only [andThen, hrun]
            rw [hmore, hnew, List.append_assoc]
          · intro argv hargv
            rcases List.mem_append.mp hargv with h | h
            · exact hQ argv h
            · exact hQ' argv h

end GitM

namespace OpenPRTool

variable {ρ : Type u} {Q : List PyStr → Prop}

theorem emits_runGit (tool : OpenPRTool ρ) {argv : List PyStr} (h : Q argv) :
    (tool.runGit argv).Emits Q := by
  intro host
  exact ⟨[argv], rfl, by simpa using h⟩

theorem emits_openRequest (tool : OpenPRTool ρ) (payload : Mapping) :
    (tool.openRequest payload).Emits Q := by
  intro host
  exact ⟨[], by simp [openRequest], by simp⟩

/-- An argument vector of `git add` names the paths of the request. -/
def AddsOnly (paths : List PyStr) (argv : List PyStr) : Prop :=
  argv.head? = some (py "add") → argv = [py "add", py "--"] ++ paths

theorem land_emits (rt : Runtime) (tool : OpenPRTool ρ) (request : Request) (args : Mapping) :
    (tool.land rt request args).Emits (AddsOnly request.paths) := by
  have other {command : PyStr} {rest : List PyStr} (h : command ≠ py "add") :
      AddsOnly request.paths (command :: rest) := fun hadd => absurd (Option.some.inj hadd) h
  refine GitM.emits_andThen ?_ fun _ _ _ => GitM.emits_andThen ?_ fun _ _ _ =>
    GitM.emits_andThen (tool.emits_runGit (other (by decide))) fun _ _ _ =>
      GitM.emits_andThen (tool.emits_runGit (other (by decide))) fun _ _ _ =>
        GitM.emits_andThen (GitM.emits_lift _) fun _ _ _ =>
          GitM.emits_andThen (tool.emits_openRequest _) fun _ _ _ => GitM.emits_done _
  · refine GitM.emits_andThen (tool.emits_runGit (other (by decide))) fun out _ _ => ?_
    split
    · exact tool.emits_runGit (other (by decide))
    · exact tool.emits_runGit (other (by decide))
  · refine GitM.emits_andThen (tool.emits_runGit fun _ => rfl) fun _ _ _ =>
      GitM.emits_andThen (tool.emits_runGit (other (by decide))) fun out _ _ => ?_
    split
    · exact tool.emits_runGit (other (by decide))
    · exact GitM.emits_done _

/-- Git runs only for validated arguments, and adds no paths but theirs. -/
theorem call_emits (rt : Runtime) (tool : OpenPRTool ρ) (args : Mapping) :
    (tool.call rt args).Emits fun argv =>
      ∃ request, validate rt tool.root args = .ok request ∧ AddsOnly request.paths argv := by
  refine GitM.emits_andThen (GitM.emits_lift _) fun request _ hrequest => ?_
  intro host
  obtain ⟨new, hnew, hadds⟩ := land_emits rt tool request args host
  exact ⟨new, hnew, fun argv hargv => ⟨request, hrequest, hadds argv hargv⟩⟩

/-- A path as it is handed to git. -/
def slashes (text : PyStr) : PyStr := PyStr.replaceChar text (cp '\\') (cp '/')

theorem slashes_slashes (text : PyStr) : slashes (slashes text) = slashes text := by
  have hne : cp '/' ≠ cp '\\' := by decide
  simp only [slashes, PyStr.replaceChar, List.map_map, List.map_inj_left, Function.comp_apply]
  intro c _
  by_cases hc : c = cp '\\'
  · simp [hc, hne]
  · simp [hc]

theorem confine_ok {root : Path} {text p : PyStr} (h : confine root text = .ok p) :
    Accepted text ∧ p = slashes text := by
  obtain ⟨t, ht, hp⟩ := exists_ok_of_bind h
  exact ⟨((target_iff root text t).mp ht).1, (Except.ok.inj hp).symm⟩

theorem mapM_confine_ok {root : Path} {texts paths : List PyStr}
    (h : texts.mapM (confine root) = .ok paths) :
    (∀ t ∈ texts, Accepted t) ∧ paths = texts.map slashes := by
  induction texts generalizing paths with
  | nil =>
      rw [List.mapM_nil] at h
      exact ⟨by simp, (Except.ok.inj h).symm⟩
  | cons t rest ih =>
      rw [List.mapM_cons] at h
      obtain ⟨p, hp, h⟩ := exists_ok_of_bind h
      obtain ⟨ps, hps, h⟩ := exists_ok_of_bind h
      obtain ⟨haccepted, rfl⟩ := confine_ok hp
      obtain ⟨hrest, rfl⟩ := ih hps
      refine ⟨?_, (Except.ok.inj h).symm⟩
      intro t' ht'
      rcases List.mem_cons.mp ht' with rfl | ht'
      · exact haccepted
      · exact hrest t' ht'

theorem rejectProtected_ok {rt : Runtime} {paths : List PyStr}
    (h : rejectProtected rt paths = .ok ()) : ∀ p ∈ paths, Unmarked (slashes p) := by
  induction paths with
  | nil => simp
  | cons p rest ih =>
      simp only [rejectProtected] at h
      split at h
      · cases h
      · rename_i hnone
        intro p' hp'
        rcases List.mem_cons.mp hp' with rfl | hp'
        · intro marker hmarker hwithin
          have hsubstr := List.find?_eq_none.mp hnone marker hmarker
          exact hsubstr (decide_eq_true hwithin)
        · exact ih h p' hp'

/-- What the tool has checked of a request. -/
theorem validate_ok {rt : Runtime} {root : Path} {args : Mapping} {request : Request}
    (h : validate rt root args = .ok request) :
    ∃ texts, pathTexts rt args = .ok texts ∧ request.paths = texts.map slashes ∧
      ∀ t ∈ texts, Accepted t ∧ Unmarked (slashes t) := by
  obtain ⟨branchText, -, h⟩ := exists_ok_of_bind h
  obtain ⟨branch, -, h⟩ := exists_ok_of_bind h
  obtain ⟨message, -, h⟩ := exists_ok_of_bind h
  split at h
  · cases h
  · obtain ⟨texts, htexts, h⟩ := exists_ok_of_bind h
    obtain ⟨paths, hpaths, h⟩ := exists_ok_of_bind h
    split at h
    · cases h
    · obtain ⟨_, hreject, h⟩ := exists_ok_of_bind h
      obtain ⟨base, -, h⟩ := exists_ok_of_bind h
      cases h
      obtain ⟨haccepted, rfl⟩ := mapM_confine_ok hpaths
      refine ⟨texts, htexts, rfl, ?_⟩
      intro t ht
      have hunmarked := rejectProtected_ok hreject (slashes t) (List.mem_map_of_mem ht)
      rw [slashes_slashes] at hunmarked
      exact ⟨haccepted t ht, hunmarked⟩

/-- Git does as it is told, and says nothing. -/
def obedient (root : Path) : OpenPRTool Unit where
  root := root
  git := fun _ repo => (.ok [], repo)
  openPullRequest := fun _ repo => (.ok [], repo)

theorem obedient_adds {rt : Runtime} {root : Path} {args : Mapping} {request : Request}
    (h : validate rt root args = .ok request) :
    [py "add", py "--"] ++ request.paths ∈
      ((obedient root).call rt args { repo := () }).2.argvs := by
  have hstrip : PyStr.strip [] = [] := rfl
  have hroot : (obedient root).root = root := rfl
  have hgit (argv : List PyStr) (host : GitHost Unit) :
      (obedient root).runGit argv host = (.ok [], ⟨(), host.argvs ++ [argv]⟩) := rfl
  have hopen (payload : Mapping) (host : GitHost Unit) :
      (obedient root).openRequest payload host = (.ok [], ⟨(), host.argvs⟩) := rfl
  cases hp : pullRequest rt request args with
  | error e =>
      simp [call, land, switch, commitPaths, GitM.andThen, GitM.lift, GitM.done, h, hp, hstrip,
        hroot, hgit]
  | ok payload =>
      simp [call, land, switch, commitPaths, GitM.andThen, GitM.lift, GitM.done, h, hp, hstrip,
        hroot, hgit, hopen]

end OpenPRTool

open OpenPRTool

/-- A file of a work tree, by its components. -/
def WorkTreeFile (file : Path) : Prop :=
  ∀ c ∈ file, c ≠ [] ∧ c ≠ py "." ∧ c ≠ Path.up ∧ Path.slash ∉ c ∧ Path.osAccepts c = true

instance (file : Path) : Decidable (WorkTreeFile file) :=
  inferInstanceAs (Decidable (∀ c ∈ file, _))

/-- Some protected file is at or below the path. -/
def Reaches (q : Path) : Prop := ∃ file, WorkTreeFile file ∧ q <+: file ∧ Protected file

/-- The path names a protected file, or a directory at or above a zone. -/
def Above (q : Path) : Prop := ∃ zone ∈ zoneDirs ++ zoneFiles, q <+: zone

theorem Above.reaches {q : Path} (h : Above q) : Reaches q := by
  have hdirs : ∀ zone ∈ zoneDirs,
      WorkTreeFile (zone ++ [py "x"]) ∧ Protected (zone ++ [py "x"]) := by decide
  have hfiles : ∀ file ∈ zoneFiles, WorkTreeFile file ∧ Protected file := by decide
  obtain ⟨zone, hzone, hq⟩ := h
  rcases List.mem_append.mp hzone with hdir | hfile
  · exact ⟨zone ++ [py "x"], (hdirs zone hdir).1, hq.trans (List.prefix_append zone _),
      (hdirs zone hdir).2⟩
  · exact ⟨zone, (hfiles zone hfile).1, hq, (hfiles zone hfile).2⟩

theorem workTreeFile_parts {p : PyStr} (noUp : Path.up ∉ Path.parts p)
    (os : Path.osAccepts p = true) : WorkTreeFile (Path.parts p) := by
  intro c hc
  have hsplit : c ∈ PyStr.split p Path.slash := (List.mem_filter.mp hc).1
  obtain ⟨before, after, heq⟩ := List.append_of_mem hsplit
  have hwithin := PyStr.infix_of_split before [c] after (by simpa using heq) (by simp)
  refine ⟨(Path.parts_mem hc).1, (Path.parts_mem hc).2, ?_, ?_, ?_⟩
  · rintro rfl
    exact noUp hc
  · exact PyStr.sep_not_mem_of_mem_split hsplit
  · refine Path.osAccepts_of_subset ?_ os
    simpa [PyStr.join] using hwithin.subset

/-- Without a marker in it and without `..`, a path reaches a protected file from above
or in disguise. -/
theorem reaches_parts_iff {p : PyStr} (unmarked : Unmarked p) (os : Path.osAccepts p = true)
    (noUp : Path.up ∉ Path.parts p) :
    Reaches (Path.parts p) ↔ Above (Path.parts p) ∨ Disguised p := by
  constructor
  · rintro ⟨file, -, hp, ⟨zone, hzone, hbelow, -⟩ | hfile⟩
    · rcases List.prefix_or_prefix_of_prefix hp hbelow with hq | hq
      · exact Or.inl ⟨zone, List.mem_append_left _ hzone, hq⟩
      · by_cases heq : zone = Path.parts p
        · exact Or.inl ⟨zone, List.mem_append_left _ hzone, heq ▸ List.prefix_rfl⟩
        · exact Or.inr ((protected_iff_disguised unmarked).mp (Or.inl ⟨zone, hzone, hq, heq⟩))
    · exact Or.inl ⟨file, List.mem_append_right _ hfile, hp⟩
  · rintro (above | disguised)
    · exact above.reaches
    · exact ⟨Path.parts p, workTreeFile_parts noUp os, List.prefix_rfl,
        (protected_iff_disguised unmarked).mpr disguised⟩

/-- Git is led by the path to a protected file. -/
def Leads (dots : DotDot) (p : PyStr) : Prop :=
  (Path.up ∉ Path.parts p ∧ (Above (Path.parts p) ∨ Disguised p)) ∨
    (Path.up ∈ Path.parts p ∧ ∃ q, dots.follow (Path.parts p) = some q ∧ Reaches q)

theorem leads_iff {dots : DotDot} {p : PyStr} (unmarked : Unmarked p)
    (os : Path.osAccepts p = true) :
    Leads dots p ↔ ∃ q, dots.follow (Path.parts p) = some q ∧ Reaches q := by
  by_cases noUp : Path.up ∉ Path.parts p
  · have hq := reaches_parts_iff unmarked os noUp
    simp [Leads, noUp, dots.plain _ noUp, hq]
  · simp [Leads, not_not.mp noUp]

theorem mem_staged {dots : DotDot} {changed : List Path} {paths : List PyStr} {file : Path} :
    file ∈ staged dots changed paths ↔
      file ∈ changed ∧ ∃ p ∈ paths, ∃ q, dots.follow (Path.parts p) = some q ∧ q <+: file := by
  simp only [staged, List.mem_filter, List.any_eq_true]
  refine and_congr_right fun _ => exists_congr fun p => and_congr_right fun _ => ?_
  cases dots.follow (Path.parts p) <;> simp

/-- Whatever git answers and whichever files of the work tree have changed, no file that
a `git add` of the call stages is protected. -/
def CommitStaysOut (rt : Runtime) (dots : DotDot) (root : Path) (args : Mapping) : Prop :=
  ∀ (ρ : Type) (tool : OpenPRTool ρ) repo changed paths, tool.root = root →
    (∀ file ∈ changed, WorkTreeFile file) →
    [py "add", py "--"] ++ paths ∈ (tool.call rt args { repo }).2.argvs →
    ∀ file ∈ staged dots changed paths, ¬ Protected file

/-- The text is one of the `paths` of the arguments. -/
def Listed (rt : Runtime) (args : Mapping) (text : PyStr) : Prop :=
  ∃ texts, pathTexts rt args = .ok texts ∧ text ∈ texts

theorem osAccepts_slashes {text : PyStr} (h : Path.osAccepts text = true) :
    Path.osAccepts (slashes text) = true := by
  have hchars : slashes text ⊆ cp '/' :: text := by
    intro c hc
    obtain ⟨x, hx, rfl⟩ := List.mem_map.mp hc
    split
    · exact List.mem_cons_self
    · exact List.mem_cons_of_mem _ hx
  refine Path.osAccepts_of_subset hchars ?_
  simp only [Path.osAccepts, Path.fsEncodable, List.all_cons, Bool.and_eq_true] at h ⊢
  exact ⟨⟨by decide, h.1⟩, by decide, h.2⟩

theorem not_staysOut_of_leads {rt : Runtime} {dots : DotDot} {root : Path} {args : Mapping}
    {request : Request} (hvalid : validate rt root args = .ok request) {text : PyStr}
    (listed : Listed rt args text) (leads : Leads dots (slashes text)) :
    ¬ CommitStaysOut rt dots root args := by
  intro h
  obtain ⟨texts, htexts, hpaths, hchecked⟩ := validate_ok hvalid
  obtain ⟨texts', htexts', hmem⟩ := listed
  cases htexts.symm.trans htexts'
  obtain ⟨accepted, unmarked⟩ := hchecked text hmem
  obtain ⟨q, hq, file, hfile, hbelow, inside⟩ :=
    (leads_iff unmarked (osAccepts_slashes accepted.os)).mp leads
  have hstaged : file ∈ staged dots [file] request.paths := by
    refine mem_staged.mpr ⟨List.mem_singleton_self file, slashes text, ?_, q, hq, hbelow⟩
    rw [hpaths]
    exact List.mem_map_of_mem hmem
  exact h Unit (obedient root) () [file] request.paths rfl (by simpa using hfile)
    (obedient_adds hvalid) file hstaged inside

/-- Commits through `open_pr` stay out of the protected zones exactly when validation
refuses the arguments or none of the paths leads git to a protected file. -/
theorem commitStaysOut_iff (rt : Runtime) (dots : DotDot) (root : Path) (args : Mapping) :
    CommitStaysOut rt dots root args ↔
      (∀ request, validate rt root args ≠ .ok request) ∨
        ∀ text, Listed rt args text → ¬ Leads dots (slashes text) := by
  constructor
  · intro h
    by_cases hvalid : ∃ request, validate rt root args = .ok request
    · obtain ⟨request, hvalid⟩ := hvalid
      exact Or.inr fun text listed leads => not_staysOut_of_leads hvalid listed leads h
    · exact Or.inl fun request hrequest => hvalid ⟨request, hrequest⟩
  · rintro h ρ tool repo changed paths rfl hchanged hadd file hstaged inside
    obtain ⟨new, hnew, hemits⟩ := call_emits rt tool args { repo }
    rw [hnew] at hadd
    obtain ⟨request, hvalid, hpaths⟩ := hemits _ (by simpa using hadd)
    obtain rfl : paths = request.paths := by simpa using hpaths rfl
    obtain ⟨texts, htexts, hslashes, hchecked⟩ := validate_ok hvalid
    obtain ⟨hfile, p, hp, q, hq, hbelow⟩ := mem_staged.mp hstaged
    rw [hslashes] at hp
    obtain ⟨text, htext, rfl⟩ := List.mem_map.mp hp
    obtain ⟨accepted, unmarked⟩ := hchecked text htext
    rcases h with refused | quiet
    · exact refused request hvalid
    · refine quiet text ⟨texts, htexts, htext⟩ ?_
      exact (leads_iff unmarked (osAccepts_slashes accepted.os)).mpr
        ⟨q, hq, file, hchanged file hfile, hbelow, inside⟩

def wholeDocs : Mapping :=
  [(py "branch", .str (py "feature/FEAT-0006-TASK-0009-open-pr-tool")),
    (py "commit_message", .str (py "docs")), (py "paths", .arr [.str (py "docs")])]

/-- With `docs` as its one path, the tool stages the files below `docs/adr`. -/
theorem wholeDocs_stages_adr :
    openPrSchema.valid (.obj wholeDocs) = true ∧
      ¬ ∃ dots, CommitStaysOut .ascii dots [py "workspace"] wholeDocs := by
  refine ⟨by decide, ?_⟩
  rintro ⟨dots, h⟩
  have hvalid : validate .ascii [py "workspace"] wholeDocs =
      .ok ⟨py "feature/FEAT-0006-TASK-0009-open-pr-tool", py "docs", [py "docs"], py "main"⟩ := by
    rfl
  have leads : Leads dots (slashes (py "docs")) :=
    Or.inl ⟨by decide, Or.inl ⟨[py "docs", py "adr"], by decide, by decide⟩⟩
  exact not_staysOut_of_leads hvalid ⟨[py "docs"], rfl, by decide⟩ leads h

end SecureSdlc.Tools

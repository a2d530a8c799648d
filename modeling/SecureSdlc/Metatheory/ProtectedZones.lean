import SecureSdlc.Policy.PreToolCall
import SecureSdlc.Runner.Executor
import SecureSdlc.Tools.Vcs

/-!
Protected zones of the workspace against the two path checks. Both checks look for
markers in the spelling of a path, while files are written and staged by its
components: the results say exactly which spellings get through. Symbolic links
and pathspec magic are outside of the model.
-/

namespace SecureSdlc.Tools

open Core Policy

/-- Protected directories, by their components below the workspace root. -/
def zoneDirs : List Path :=
  [[py ".github"], [py "contracts"], [py "policies"], [py "security"], [py "infra"],
    [py "specs"], [py ".opencode"], [py "docs", py "adr"]]

def zoneFiles : List Path :=
  [[py "docs", py "roadmap.md"], [py "baseline.json"], [py "ARCHITECTURE_BASELINE.md"]]

/-- A file, by its components below the root, is in a protected zone. -/
def Protected (file : Path) : Prop :=
  (∃ zone ∈ zoneDirs, zone <+: file ∧ zone ≠ file) ∨ file ∈ zoneFiles

instance (file : Path) : Decidable (Protected file) :=
  inferInstanceAs (Decidable (_ ∨ _))

/-- The raw components spell `docs`, then skipped components, at least one, then
`second`; `rest` is about the components that follow. -/
def SplitAfterDocs (second : PyStr) (rest : List PyStr → Prop) (raw : List PyStr) : Prop :=
  ∃ before between after, raw = before ++ py "docs" :: (between ++ second :: after) ∧
    (∀ c ∈ before, Path.skipped c = true) ∧ (∀ c ∈ between, Path.skipped c = true) ∧
    between ≠ [] ∧ rest (after.filter fun c => !Path.skipped c)

/-- A spelling of a file below `docs/adr`, or of `docs/roadmap.md`, that sets the two
components apart. -/
def Disguised (path : PyStr) : Prop :=
  SplitAfterDocs (py "adr") (· ≠ []) (PyStr.split path Path.slash) ∨
    SplitAfterDocs (py "roadmap.md") (· = []) (PyStr.split path Path.slash)

/-- No protected marker stands in the path. -/
def Unmarked (path : PyStr) : Prop := ∀ marker ∈ protectedPathMarkers, ¬ marker <:+: path

theorem parts_eq_cons {path c : PyStr} {rest : List PyStr} (h : Path.parts path = c :: rest) :
    ∃ before after, PyStr.split path Path.slash = before ++ c :: after ∧
      (∀ x ∈ before, Path.skipped x = true) ∧
      after.filter (fun c => !Path.skipped c) = rest := by
  obtain ⟨before, after, hsplit, hbefore, -, hafter⟩ := List.filter_eq_cons_iff.mp h
  exact ⟨before, after, hsplit, fun x hx => by simpa using hbefore x hx, hafter⟩

/-- A first component that something follows stands in the path with its slash. -/
theorem first_marked {path c : PyStr} {rest : List PyStr} (h : Path.parts path = c :: rest)
    (hrest : rest ≠ []) : c ++ [Path.slash] <:+: path := by
  obtain ⟨before, after, hsplit, -, hafter⟩ := parts_eq_cons h
  have hne : after ≠ [] := by
    rintro rfl
    exact hrest hafter.symm
  have hwithin := PyStr.infix_sep_of_split before [c] after (by simpa using hsplit) (by simp) hne
  simpa [PyStr.join] using hwithin

/-- The second component follows `docs` at once, or the spelling sets them apart. -/
theorem second_adjacent_or_split {path second : PyStr} {rest : List PyStr}
    (h : Path.parts path = py "docs" :: second :: rest) :
    (∃ before after, PyStr.split path Path.slash =
        before ++ ([py "docs", second] ++ after) ∧
        after.filter (fun c => !Path.skipped c) = rest) ∨
      SplitAfterDocs second (· = rest) (PyStr.split path Path.slash) := by
  obtain ⟨before, tail, hsplit, hbefore, htail⟩ := parts_eq_cons h
  obtain ⟨between, after, rfl, hbetween, -, hafter⟩ := List.filter_eq_cons_iff.mp htail
  by_cases hnil : between = []
  · subst hnil
    exact Or.inl ⟨before, after, by simpa using hsplit, hafter⟩
  · exact Or.inr ⟨before, between, after, hsplit, hbefore,
      fun x hx => by simpa using hbetween x hx, hnil, hafter⟩

theorem parts_of_split {path second : PyStr} {rest : List PyStr}
    (hsecond : Path.skipped second = false)
    (h : SplitAfterDocs second (· = rest) (PyStr.split path Path.slash)) :
    Path.parts path = py "docs" :: second :: rest := by
  obtain ⟨before, between, after, hsplit, hbefore, hbetween, -, hafter⟩ := h
  have hskip (xs : List PyStr) (hxs : ∀ c ∈ xs, Path.skipped c = true) :
      xs.filter (fun c => !Path.skipped c) = [] := by
    rw [List.filter_eq_nil_iff]
    intro c hc
    simp [hxs c hc]
  have hdocs : Path.skipped (py "docs") = false := by decide
  rw [Path.parts, hsplit, List.filter_append, hskip before hbefore, List.nil_append,
    List.filter_cons_of_pos (by simp [hdocs]), List.filter_append, hskip between hbetween,
    List.nil_append, List.filter_cons_of_pos (by simp [hsecond]), hafter]

theorem splitAfterDocs_iff {second : PyStr} {P : List PyStr → Prop} {raw : List PyStr} :
    SplitAfterDocs second P raw ↔ ∃ rest, P rest ∧ SplitAfterDocs second (· = rest) raw := by
  constructor
  · rintro ⟨before, between, after, hraw, hbefore, hbetween, hne, hP⟩
    exact ⟨_, hP, before, between, after, hraw, hbefore, hbetween, hne, rfl⟩
  · rintro ⟨rest, hP, before, between, after, hraw, hbefore, hbetween, hne, rfl⟩
    exact ⟨before, between, after, hraw, hbefore, hbetween, hne, hP⟩

/-- Without a marker in it, a path leads into a protected zone exactly when it is
disguised: zones of one component always show. -/
theorem protected_iff_disguised {path : PyStr} (unmarked : Unmarked path) :
    Protected (Path.parts path) ↔ Disguised path := by
  constructor
  · rintro (⟨zone, hz, ⟨rest, hrest⟩, hne⟩ | hfile)
    · have hzone : (∃ z, zone = [z] ∧ z ++ [Path.slash] ∈ protectedPathMarkers) ∨
          zone = [py "docs", py "adr"] := by
        simp only [zoneDirs, List.mem_cons, List.not_mem_nil, or_false] at hz
        rcases hz with rfl | rfl | rfl | rfl | rfl | rfl | rfl | rfl
        all_goals first | exact Or.inr rfl | exact Or.inl ⟨_, rfl, by decide⟩
      have hrestne : rest ≠ [] := by
        rintro rfl
        exact hne (by simpa using hrest)
      rcases hzone with ⟨z, rfl, hmarker⟩ | rfl
      · exact absurd (first_marked hrest.symm hrestne) (unmarked _ hmarker)
      · rcases second_adjacent_or_split hrest.symm with ⟨before, after, hsplit, hafter⟩ | hsplit
        · have hafterne : after ≠ [] := by
            rintro rfl
            exact hrestne hafter.symm
          have hwithin := PyStr.infix_sep_of_split before [py "docs", py "adr"] after hsplit
            (by simp) hafterne
          exact absurd hwithin (unmarked _ (by decide))
        · exact Or.inl (splitAfterDocs_iff.mpr ⟨rest, hrestne, hsplit⟩)
    · simp only [zoneFiles, List.mem_cons, List.not_mem_nil, or_false] at hfile
      rcases hfile with hroadmap | hbase | harch
      · rcases second_adjacent_or_split hroadmap with ⟨before, after, hsplit, -⟩ | hsplit
        · have hwithin := PyStr.infix_of_split before [py "docs", py "roadmap.md"] after hsplit
            (by simp)
          exact absurd hwithin (unmarked _ (by decide))
        · exact Or.inr hsplit
      · obtain ⟨before, after, hsplit, -, -⟩ := parts_eq_cons hbase
        have hwithin := PyStr.infix_of_split before [py "baseline.json"] after
          (by simpa using hsplit) (by simp)
        exact absurd hwithin (unmarked _ (by decide))
      · obtain ⟨before, after, hsplit, -, -⟩ := parts_eq_cons harch
        have hwithin := PyStr.infix_of_split before [py "ARCHITECTURE_BASELINE.md"] after
          (by simpa using hsplit) (by simp)
        exact absurd hwithin (unmarked _ (by decide))
  · rintro (hadr | hroadmap)
    · obtain ⟨rest, hne, hsplit⟩ := splitAfterDocs_iff.mp hadr
      rw [parts_of_split (by decide) hsplit]
      exact Or.inl ⟨[py "docs", py "adr"], by decide, ⟨rest, rfl⟩, by simpa using hne.symm⟩
    · rw [parts_of_split (by decide) hroadmap]
      exact Or.inr (by decide)

end SecureSdlc.Tools

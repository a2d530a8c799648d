import Mathlib.Data.List.TakeWhile
import SecureSdlc.Core.Run
import SecureSdlc.Tools.Git

/-!
Calls of `open_pr` in a workspace. A call is one step of the workspace: the branch is
checked out, what lies at or under the paths is staged, and the whole index is committed
and pushed. A sequence of calls keeps the branches apart exactly when every call finds
nothing foreign in the index and on the branch it continues. Nothing is said about calls
that fail half way.
-/

namespace SecureSdlc.Tools

open Core

universe u

namespace GitM

variable {ρ : Type u} {α β : Type}

/-- The computation ends like this, whatever git has been run with before. -/
def Runs (m : GitM ρ α) (repo : ρ) (out : Except PyError α) (repo' : ρ) : Prop :=
  ∀ argvs, ∃ argvs', m ⟨repo, argvs⟩ = (out, ⟨repo', argvs'⟩)

theorem runs_done (a : α) (repo : ρ) : Runs (done a) repo (.ok a) repo := fun argvs => ⟨argvs, rfl⟩

theorem runs_lift (x : Except PyError α) (repo : ρ) : Runs (lift x) repo x repo :=
  fun argvs => ⟨argvs, rfl⟩

theorem runs_andThen {m : GitM ρ α} {f : α → GitM ρ β} {repo mid repo' : ρ} {a : α}
    {out : Except PyError β} (hm : Runs m repo (.ok a) mid) (hf : Runs (f a) mid out repo') :
    Runs (m.andThen f) repo out repo' := by
  intro argvs
  obtain ⟨between, hbetween⟩ := hm argvs
  obtain ⟨argvs', hend⟩ := hf between
  exact ⟨argvs', by simp only [andThen, hbetween, hend]⟩

theorem runs_andThen_error {m : GitM ρ α} {f : α → GitM ρ β} {repo repo' : ρ} {e : PyError}
    (hm : Runs m repo (.error e) repo') : Runs (m.andThen f) repo (.error e) repo' := by
  intro argvs
  obtain ⟨argvs', hend⟩ := hm argvs
  exact ⟨argvs', by simp only [andThen, hend]⟩

end GitM

theorem strip_ne_nil {s : PyStr} {c : CodePoint} (hc : c ∈ s) (hspace : PyStr.isSpace c = false) :
    PyStr.strip s ≠ [] := by
  intro hempty
  rw [PyStr.strip, List.reverse_eq_nil_iff, List.dropWhile_eq_nil_iff] at hempty
  have hsplit := List.takeWhile_append_dropWhile (p := PyStr.isSpace) (l := s)
  rw [← hsplit] at hc
  rcases List.mem_append.mp hc with hfront | hback
  · have hblank := List.mem_takeWhile_imp hfront
    rw [hspace] at hblank
    cases hblank
  · have hblank := hempty c (List.mem_reverse.mpr hback)
    rw [hspace] at hblank
    cases hblank

namespace OpenPRTool

variable (rt : Runtime) {γ ω : Type} (git : Git γ) (root : Path)
  (opener : Mapping → ω → Except PyError PyStr × ω)

/-- The tool, with git in order. -/
def steady : OpenPRTool (Workspace γ × ω) := workspaceTool git root (fun _ => none) opener

section Commands

variable {w : Workspace γ} {service : ω}

theorem runs_git {argv : List PyStr} (command : GitCommand) {out : Except GitFailure PyStr}
    {w' : Workspace γ} (hparse : GitCommand.parse argv = some command)
    (hexec : git.exec w command = (out, w')) :
    ((steady git root opener).runGit argv).Runs (w, service) (gitOutput argv out)
      (w', service) := by
  intro argvs
  refine ⟨argvs ++ [argv], ?_⟩
  simp only [runGit, steady, workspaceTool, Git.run, hparse, hexec]

theorem mem_of_isBranch {b : PyStr} (hb : isBranch rt b = true) : cp 'f' ∈ b := by
  rw [isBranch, Bool.and_eq_true, PyStr.startsWith, decide_eq_true_eq] at hb
  exact hb.1.subset (by decide)

theorem listBranch_ne_nil {b : PyStr} (hb : isBranch rt b = true) :
    PyStr.strip (w.listBranch b) ≠ [] ↔ (w.branches b).isSome = true := by
  rw [Workspace.listBranch]
  split
  · rename_i hsome
    refine iff_of_true (strip_ne_nil (c := cp 'f') ?_ (by decide)) hsome
    exact List.mem_append_left _ (List.mem_append_right _ (mem_of_isBranch rt hb))
  · rename_i hnone
    exact iff_of_false (by simp [PyStr.strip]) hnone

/-- `_switch` checks the branch out. -/
theorem runs_switch {b : PyStr} (hb : isBranch rt b = true) :
    ((steady git root opener).switch b).Runs (w, service) (.ok []) (w.checkout b, service) := by
  refine GitM.runs_andThen (runs_git git root opener (.listBranch b) rfl rfl) ?_
  have hlisted := listBranch_ne_nil rt (w := w) hb
  split
  · rename_i hsome
    have hexec : git.exec w (.switch b) = (.ok [], w.checkout b) := by
      rw [Git.exec, if_pos (hlisted.mp hsome)]
    exact runs_git git root opener _ rfl hexec
  · rename_i hnone
    have hexec : git.exec w (.create b) = (.ok [], w.checkout b) := by
      rw [Git.exec, if_neg fun hsome => hnone (hlisted.mpr hsome)]
    exact runs_git git root opener _ rfl hexec

end Commands

end OpenPRTool

namespace Workspace

variable {γ : Type} (w : Workspace γ) (git : Git γ) (request : OpenPRTool.Request)

/-- The workspace with the request's files staged on its branch. -/
def gathered : Workspace γ := (w.checkout request.branch).stage git.dots request.paths

/-- The workspace with the request's commit, if there is something to commit. -/
def prepared : Workspace γ :=
  if (w.gathered git request).Dirty then (w.gathered git request).record request.message
  else w.gathered git request

theorem prepared_head : (w.prepared git request).head = request.branch := by
  rw [prepared]
  split <;> rfl

/-- What the call commits. -/
def newCommits : List (Commit γ) :=
  if (w.gathered git request).Dirty then
    [⟨w.next, request.message, (w.gathered git request).index⟩]
  else []

theorem history_gathered (b : PyStr) :
    (w.gathered git request).history b =
      if b = request.branch then w.start request.branch else w.history b := by
  rw [gathered, history_stage, history_checkout]

theorem history_prepared_self : (w.prepared git request).history request.branch =
    w.start request.branch ++ w.newCommits git request := by
  have hgathered := w.history_gathered git request request.branch
  rw [if_pos rfl] at hgathered
  rw [prepared, newCommits]
  split
  · rw [history_record, if_pos (by rfl)]
    change (w.gathered git request).history request.branch ++ _ = _
    rw [hgathered]
    rfl
  · rw [hgathered, List.append_nil]

theorem history_prepared_of_ne {b : PyStr} (h : b ≠ request.branch) :
    (w.prepared git request).history b = w.history b := by
  have hgathered := w.history_gathered git request b
  rw [if_neg h] at hgathered
  rw [prepared]
  split
  · rw [history_record, if_neg (by exact h), hgathered]
  · exact hgathered

theorem subset_history_prepared (b : PyStr) :
    w.history b ⊆ (w.prepared git request).history b := by
  by_cases hb : b = request.branch
  · subst hb
    rw [history_prepared_self]
    refine List.Subset.trans ?_ (List.subset_append_left _ _)
    rw [history, start]
    cases w.branches request.branch with
    | none => exact List.nil_subset _
    | some history => exact List.Subset.refl history
  · rw [w.history_prepared_of_ne git request hb]
    exact List.Subset.refl _

theorem not_mem_history_of_new {b : PyStr} {c : Commit γ} (h : c ∈ w.newCommits git request) :
    c ∉ w.history b := by
  rw [newCommits] at h
  split at h
  · rw [List.mem_singleton.mp h]
    exact fun hmem => Nat.lt_irrefl w.next (w.id_lt_of_mem_history hmem)
  · cases h

theorem index_ne_nil (h : w.Dirty) : w.index ≠ [] := by
  intro hempty
  apply h
  rw [stagedNames, hempty]
  rfl

end Workspace

namespace OpenPRTool

variable (rt : Runtime) {γ ω : Type} (git : Git γ) (root : Path)
  (opener : Mapping → ω → Except PyError PyStr × ω)

section Landing

variable {w : Workspace γ} {service : ω} (request : Request)

theorem runs_commitPaths :
    ((steady git root opener).commitPaths request).Runs (w.checkout request.branch, service)
      (.ok []) (w.prepared git request, service) := by
  refine GitM.runs_andThen (runs_git git root opener (.add request.paths) rfl rfl) ?_
  refine GitM.runs_andThen (runs_git git root opener .stagedNames rfl rfl) ?_
  change GitM.Runs (if (w.gathered git request).Dirty then _ else _)
    (w.gathered git request, service) _ _
  rw [Workspace.prepared]
  split
  · rename_i hdirty
    have hexec : git.exec (w.gathered git request) (.commit request.message) =
        (.ok [], (w.gathered git request).record request.message) := by
      rw [Git.exec, if_neg ((w.gathered git request).index_ne_nil hdirty)]
    exact runs_git git root opener _ rfl hexec
  · exact GitM.runs_done [] _

/-- What follows once the branch is pushed. -/
def announce (args : Mapping) (world : Workspace γ × ω) :
    Except PyError Mapping × (Workspace γ × ω) :=
  match pullRequest rt request args with
  | .error e => (.error e, world)
  | .ok payload =>
      match opener payload world.2 with
      | (.error e, service) => (.error e, (world.1, service))
      | (.ok url, service) =>
          (.ok [(py "branch", .str request.branch),
            (py "commit", .str (PyStr.strip
              (git.revision (world.1.history world.1.head) ++ py "\n"))),
            (py "pr_url", .str url)], (world.1, service))

/-- What the tool raises when the remote refuses the branch. -/
def pushRejected (b : PyStr) : PyError where
  kind := .valueError
  message := py "git " ++ PyStr.join (py " ") [py "push", py "-u", py "origin", b] ++
    py " failed: " ++ PyStr.strip (py "error: failed to push some refs")

/-- What a call does with a request, in one step. -/
def landing (args : Mapping) (world : Workspace γ × ω) :
    Except PyError Mapping × (Workspace γ × ω) :=
  let w := world.1.prepared git request
  if w.FastForward request.branch then
    announce rt git opener request args (w.publish request.branch, world.2)
  else
    (.error (pushRejected request.branch), (w, world.2))

theorem runs_announce (args : Mapping) :
    (((steady git root opener).runGit [py "rev-parse", py "HEAD"]).andThen fun head =>
      (GitM.lift (pullRequest rt request args)).andThen fun payload =>
        ((steady git root opener).openRequest payload).andThen fun url =>
          GitM.done [(py "branch", .str request.branch),
            (py "commit", .str (PyStr.strip head)), (py "pr_url", .str url)]).Runs (w, service)
      (announce rt git opener request args (w, service)).1
      (announce rt git opener request args (w, service)).2 := by
  refine GitM.runs_andThen (runs_git git root opener .revision rfl rfl) ?_
  have hopen : ∀ payload, ((steady git root opener).openRequest payload).Runs (w, service)
      (opener payload service).1 (w, (opener payload service).2) :=
    fun payload argvs => ⟨argvs, rfl⟩
  rw [announce]
  cases hpayload : pullRequest rt request args with
  | error e => exact GitM.runs_andThen_error (GitM.runs_lift _ _)
  | ok payload =>
      refine GitM.runs_andThen (GitM.runs_lift _ _) ?_
      have hopened := hopen payload
      simp only
      cases hanswer : opener payload service with
      | mk answer service' =>
          rw [hanswer] at hopened
          cases answer with
          | error e => exact GitM.runs_andThen_error hopened
          | ok url => exact GitM.runs_andThen hopened (GitM.runs_done _ _)

theorem announce_workspace (args : Mapping) (world : Workspace γ × ω) :
    (announce rt git opener request args world).2.1 = world.1 := by
  rw [announce]
  split
  · rfl
  · split <;> rfl

/-- What is left of a call that returns. -/
theorem landing_ok {args : Mapping} {world : Workspace γ × ω}
    (h : (landing rt git opener request args world).1.isOk = true) :
    (landing rt git opener request args world).2.1 =
      (world.1.prepared git request).publish request.branch := by
  simp only [landing] at h ⊢
  split at h
  · rename_i hforward
    rw [if_pos hforward, announce_workspace]
  · cases h

theorem runs_land (hb : isBranch rt request.branch = true) (args : Mapping) :
    ((steady git root opener).land rt request args).Runs (w, service)
      (landing rt git opener request args (w, service)).1
      (landing rt git opener request args (w, service)).2 := by
  have hsome : ((w.prepared git request).branches request.branch).isSome = true := by
    have hheaded := (w.prepared git request).headed
    rwa [Workspace.prepared_head] at hheaded
  refine GitM.runs_andThen (runs_switch rt git root opener hb) ?_
  refine GitM.runs_andThen (runs_commitPaths git root opener request) ?_
  simp only [landing]
  split
  · rename_i hforward
    have hexec : git.exec (w.prepared git request) (.push request.branch) =
        (.ok [], (w.prepared git request).publish request.branch) := by
      rw [Git.exec, if_pos ⟨hsome, hforward⟩]
    exact GitM.runs_andThen (runs_git git root opener _ rfl hexec)
      (runs_announce rt git root opener request args)
  · rename_i hbehind
    have hexec : git.exec (w.prepared git request) (.push request.branch) =
        (.error (.exited (py "error: failed to push some refs")), w.prepared git request) := by
      rw [Git.exec, if_neg fun h => hbehind h.2]
    exact GitM.runs_andThen_error (runs_git git root opener _ rfl hexec)

end Landing

theorem isBranch_of_validate {args : Mapping} {request : Request}
    (h : validate rt root args = .ok request) : isBranch rt request.branch = true := by
  obtain ⟨branchText, -, h⟩ := exists_ok_of_bind h
  obtain ⟨branch, hbranch, h⟩ := exists_ok_of_bind h
  obtain ⟨message, -, h⟩ := exists_ok_of_bind h
  split at h
  · cases h
  · obtain ⟨texts, -, h⟩ := exists_ok_of_bind h
    obtain ⟨paths, -, h⟩ := exists_ok_of_bind h
    split at h
    · cases h
    · obtain ⟨_, -, h⟩ := exists_ok_of_bind h
      obtain ⟨base, -, h⟩ := exists_ok_of_bind h
      cases h
      rw [OpenPRTool.branch] at hbranch
      split at hbranch
      · rename_i hb
        cases hbranch
        exact hb
      · cases hbranch

/-- A call, as one step. -/
def outcome (args : Mapping) (world : Workspace γ × ω) :
    Except PyError Mapping × (Workspace γ × ω) :=
  match validate rt root args with
  | .error e => (.error e, world)
  | .ok request => landing rt git opener request args world

/-- With git in order, a call is its one step. -/
theorem runs_call (args : Mapping) (world : Workspace γ × ω) :
    ((steady git root opener).call rt args).Runs world
      (outcome rt git root opener args world).1 (outcome rt git root opener args world).2 := by
  rw [outcome]
  cases hvalid : validate rt root args with
  | error e =>
      refine GitM.runs_andThen_error fun argvs => ⟨argvs, ?_⟩
      exact Prod.ext hvalid rfl
  | ok request =>
      refine GitM.runs_andThen (a := request) (fun argvs => ⟨argvs, ?_⟩)
        (runs_land rt git root opener request (isBranch_of_validate rt root hvalid) args)
      exact Prod.ext hvalid rfl

end OpenPRTool

open OpenPRTool

/-- A workspace in use, with the requests that were landed in it. -/
structure Session (γ ω : Type) where
  host : GitHost (Workspace γ × ω)
  journal : List Request := []

inductive Event (γ : Type) where
  /-- The work tree is edited at will. -/
  | edit (edits : List (Change γ))
  | call (args : Mapping)

namespace Session

variable (rt : Runtime) {γ ω : Type} (git : Git γ) (root : Path)
  (opener : Mapping → ω → Except PyError PyStr × ω)

def workspace (s : Session γ ω) : Workspace γ := s.host.repo.1

def step (s : Session γ ω) : Event γ → Session γ ω
  | .edit edits =>
      { s with host := { s.host with repo := ({ s.workspace with edits }, s.host.repo.2) } }
  | .call args =>
      { host := ((steady git root opener).call rt args s.host).2
        journal := s.journal ++ (validate rt root args).toOption.toList }

/-- The call returns. -/
def Succeeds (s : Session γ ω) : Event γ → Prop
  | .edit _ => True
  | .call args => ((steady git root opener).call rt args s.host).1.isOk = true

instance (s : Session γ ω) (event : Event γ) : Decidable (Succeeds rt git root opener s event) :=
  match event with
  | .edit _ => isTrue trivial
  | .call _ => inferInstanceAs (Decidable (_ = true))

/-- The paths that calls have given for a branch. -/
def given (journal : List Request) (b : PyStr) : List PyStr :=
  (journal.filter fun request => decide (request.branch = b)).flatMap Request.paths

def TouchesOnly (paths : List PyStr) (c : Commit γ) : Prop :=
  ∀ change ∈ c.changes, git.dots.covers paths change.1 = true

instance (paths : List PyStr) (c : Commit γ) : Decidable (TouchesOnly git paths c) :=
  inferInstanceAs (Decidable (∀ change ∈ c.changes, _))

/-- Beyond the base branch, the branch of a call holds commits of files at or under paths
given for that branch only. -/
def Isolated (base : PyStr) (s : Session γ ω) : Prop :=
  ∀ request ∈ s.journal, ∀ c ∈ s.workspace.history request.branch,
    c ∉ s.workspace.history base → TouchesOnly git (given s.journal request.branch) c

instance [DecidableEq γ] (base : PyStr) (s : Session γ ω) : Decidable (Isolated git base s) :=
  inferInstanceAs (Decidable (∀ request ∈ s.journal, ∀ c ∈ s.workspace.history request.branch, _))

/-- The call finds nothing foreign on the branch it continues, or starts from, and in the
index, if it commits. -/
structure FindsOwn (base : PyStr) (s : Session γ ω) (request : Request) : Prop where
  inherited : ∀ c ∈ s.workspace.start request.branch, c ∉ s.workspace.history base →
    TouchesOnly git (given s.journal request.branch ++ request.paths) c
  staged : (s.workspace.gathered git request).Dirty → ∀ change ∈ s.workspace.index,
    git.dots.covers (given s.journal request.branch ++ request.paths) change.1 = true

/-- The calls for the base branch itself are exempt. -/
def Clean (base : PyStr) (s : Session γ ω) : Event γ → Prop
  | .edit _ => True
  | .call args => ∀ request, validate rt root args = .ok request → request.branch ≠ base →
      FindsOwn git base s request

theorem mem_keys_foldl_set {changes index : List (Change γ)} {file : Path} :
    file ∈ (changes.foldl (fun index change => Assoc.set index change.1 change.2) index).map
        Prod.fst ↔ file ∈ index.map Prod.fst ∨ file ∈ changes.map Prod.fst := by
  induction changes generalizing index with
  | nil => simp
  | cons change changes ih =>
      rw [List.foldl_cons, ih, Assoc.keys_set, List.map_cons, List.mem_cons]
      split
      · rename_i hmem
        constructor
        · exact fun h => h.imp_right Or.inr
        · rintro (h | rfl | h)
          · exact Or.inl h
          · exact Or.inl hmem
          · exact Or.inr h
      · rw [List.mem_append, List.mem_singleton, or_assoc]

theorem covers_mono {paths more : List PyStr} (h : paths ⊆ more) {file : Path}
    (hfile : git.dots.covers paths file = true) : git.dots.covers more file = true := by
  rw [DotDot.covers, List.any_eq_true] at hfile ⊢
  obtain ⟨p, hp, hcovered⟩ := hfile
  exact ⟨p, h hp, hcovered⟩

/-- What the call stages is its own. -/
theorem forall_index_gathered {w : Workspace γ} {request : Request} {paths : List PyStr}
    (hpaths : request.paths ⊆ paths) :
    (∀ change ∈ (w.gathered git request).index, git.dots.covers paths change.1 = true) ↔
      ∀ change ∈ w.index, git.dots.covers paths change.1 = true := by
  have hkeys : ∀ changes : List (Change γ),
      (∀ change ∈ changes, git.dots.covers paths change.1 = true) ↔
        ∀ file ∈ changes.map Prod.fst, git.dots.covers paths file = true := by
    intro changes
    rw [List.forall_mem_map]
  rw [hkeys, hkeys]
  constructor
  · exact fun h file hfile => h file (mem_keys_foldl_set.mpr (Or.inl hfile))
  · intro h file hfile
    rcases mem_keys_foldl_set.mp hfile with hold | hnew
    · exact h file hold
    · obtain ⟨change, hchange, rfl⟩ := List.mem_map.mp hnew
      exact covers_mono git hpaths (List.mem_filter.mp hchange).2

theorem forall_newCommits {w : Workspace γ} {request : Request} {paths : List PyStr}
    (hpaths : request.paths ⊆ paths) :
    (∀ c ∈ w.newCommits git request, TouchesOnly git paths c) ↔
      ((w.gathered git request).Dirty →
        ∀ change ∈ w.index, git.dots.covers paths change.1 = true) := by
  rw [← forall_index_gathered git hpaths, Workspace.newCommits]
  split
  · rename_i hdirty
    rw [List.forall_mem_singleton]
    exact ⟨fun h _ => h, fun h => h hdirty⟩
  · rename_i hclean
    exact ⟨fun _ hdirty => absurd hdirty hclean, fun _ _ hmem => nomatch hmem⟩

/-- A call that returns has checked out, committed and pushed. -/
theorem step_call_of_succeeds {s : Session γ ω} {args : Mapping}
    (h : Succeeds rt git root opener s (.call args)) :
    ∃ request, validate rt root args = .ok request ∧
      (step rt git root opener s (.call args)).workspace =
        (s.workspace.prepared git request).publish request.branch ∧
      (step rt git root opener s (.call args)).journal = s.journal ++ [request] := by
  obtain ⟨⟨world, argvs⟩, journal⟩ := s
  obtain ⟨argvs', hcall⟩ := runs_call rt git root opener args world argvs
  rw [Succeeds, hcall, outcome] at h
  cases hvalid : validate rt root args with
  | error e =>
      rw [hvalid] at h
      cases h
  | ok request =>
      rw [hvalid] at h
      refine ⟨request, rfl, ?_, ?_⟩
      · rw [step, workspace, hcall, outcome, hvalid]
        exact landing_ok rt git opener request h
      · rw [step, hvalid]
        rfl

theorem given_append (journal : List Request) (request : Request) (b : PyStr) :
    given (journal ++ [request]) b =
      given journal b ++ if request.branch = b then request.paths else [] := by
  rw [given, List.filter_append, List.flatMap_append]
  congr 1
  by_cases hb : request.branch = b
  · simp [hb]
  · simp [hb]

section Step

variable {base : PyStr} {s : Session γ ω} {args : Mapping}

theorem isolated_step_edit {edits : List (Change γ)} (h : Isolated git base s) :
    Isolated git base (step rt git root opener s (.edit edits)) := h

/-- A call that finds its own keeps the branches apart. -/
theorem isolated_step_call (h : Isolated git base s)
    (hok : Succeeds rt git root opener s (.call args))
    (hclean : Clean rt git root base s (.call args)) :
    Isolated git base (step rt git root opener s (.call args)) := by
  obtain ⟨request, hvalid, hworkspace, hjournal⟩ := step_call_of_succeeds rt git root opener hok
  intro other hother c hc hbase
  rw [hworkspace, Workspace.history_publish] at hc hbase
  rw [hjournal] at hother ⊢
  rw [given_append]
  have hold : c ∉ s.workspace.history base :=
    fun hmem => hbase (s.workspace.subset_history_prepared git request base hmem)
  by_cases hbranch : other.branch = request.branch
  · rw [hbranch] at hc ⊢
    rw [if_pos rfl]
    have hne : request.branch ≠ base := by
      rintro rfl
      exact hbase hc
    have hown := hclean request hvalid hne
    rw [Workspace.history_prepared_self] at hc
    rcases List.mem_append.mp hc with hstart | hnew
    · exact hown.inherited c hstart hold
    · exact (forall_newCommits git (List.subset_append_right _ _)).mpr hown.staged c hnew
  · rw [if_neg (Ne.symm hbranch), List.append_nil]
    rw [s.workspace.history_prepared_of_ne git request hbranch] at hc
    have hearlier : other ∈ s.journal := by
      rcases List.mem_append.mp hother with hmem | hmem
      · exact hmem
      · rw [List.mem_singleton.mp hmem] at hbranch
        exact absurd rfl hbranch
    exact h other hearlier c hc hold

theorem clean_of_isolated (hok : Succeeds rt git root opener s (.call args))
    (h : Isolated git base (step rt git root opener s (.call args))) :
    Clean rt git root base s (.call args) := by
  obtain ⟨request, hvalid, hworkspace, hjournal⟩ := step_call_of_succeeds rt git root opener hok
  intro request' hvalid' hne
  rw [hvalid] at hvalid'
  cases hvalid'
  have hcommits := h request
    (by rw [hjournal]; exact List.mem_append_right _ (List.mem_singleton_self _))
  rw [hworkspace, hjournal, given_append, if_pos rfl] at hcommits
  simp only [Workspace.history_publish, Workspace.history_prepared_self,
    s.workspace.history_prepared_of_ne git request (Ne.symm hne)] at hcommits
  refine ⟨fun c hc => hcommits c (List.mem_append_left _ hc), ?_⟩
  rw [← forall_newCommits git (List.subset_append_right _ _)]
  intro c hc
  exact hcommits c (List.mem_append_right _ hc) (s.workspace.not_mem_history_of_new git request hc)

end Step

/-- In a run of calls that return, the branches stay apart throughout exactly when every
call finds its own. -/
theorem isolated_throughout_iff (base : PyStr) (host : GitHost (Workspace γ × ω))
    (events : List (Event γ))
    (hok : AllSteps (step rt git root opener) (Succeeds rt git root opener) { host } events) :
    (∀ pre post, events = pre ++ post →
        Isolated git base (run (step rt git root opener) { host } pre)) ↔
      AllSteps (step rt git root opener) (Clean rt git root base) { host } events := by
  have hstart : Isolated git base ({ host } : Session γ ω) := fun _ hmem => nomatch hmem
  rw [allSteps_iff_split]
  rw [allSteps_iff_split] at hok
  constructor
  · intro h pre event post heq
    cases event with
    | edit edits => trivial
    | call args =>
        refine clean_of_isolated rt git root opener (hok pre _ post heq) ?_
        have hafter := h (pre ++ [.call args]) post (by rw [heq, List.append_assoc]; rfl)
        rwa [run_append] at hafter
  · intro h pre post heq
    induction pre using List.reverseRecOn generalizing post with
    | nil => exact hstart
    | append_singleton pre event ih =>
        have heq' : events = pre ++ event :: post := by rw [heq, List.append_assoc]; rfl
        rw [run_append]
        cases event with
        | edit edits => exact isolated_step_edit rt git root opener (ih _ heq')
        | call args =>
            exact isolated_step_call rt git root opener (ih _ heq') (hok pre _ post heq')
              (h pre _ post heq')

/-- Two changed files, with HEAD on `main`. -/
def twoChanges : Workspace PyStr where
  branches := Function.update (fun _ => none) (py "main") (some [])
  head := py "main"
  index := []
  edits := [([py "apps", py "a.go"], py "a"), ([py "apps", py "b.go"], py "b")]
  remote := fun _ => none
  next := 0
  headed := rfl
  fresh := by
    intro b history hb c hc
    rw [Function.update_apply] at hb
    split at hb
    · cases hb
      cases hc
    · cases hb

def sampleGit : Git PyStr where
  dots := .literal
  revision := fun history => hexDigits 40 history.length

/-- A service that has one pull request. -/
def onePull (_ : Mapping) (service : Unit) : Except PyError PyStr × Unit :=
  (.ok (py "https://github.com/o/r/pull/1"), service)

def landCall (slug path : String) : Event PyStr :=
  .call [(py "branch", .str (py "feature/FEAT-0006-TASK-0009-" ++ py slug)),
    (py "commit_message", .str (py "x")), (py "paths", .arr [.str (py path)])]

theorem firstCall_isolated : Isolated sampleGit (py "main")
    (run (step .ascii sampleGit [py "workspace"] onePull) { host := ⟨(twoChanges, ()), []⟩ }
      [landCall "a" "apps/a.go"]) := by
  refine (isolated_throughout_iff .ascii sampleGit [py "workspace"] onePull (py "main")
    ⟨(twoChanges, ()), []⟩ [landCall "a" "apps/a.go"] ⟨?_, trivial⟩).mpr ⟨?_, trivial⟩ _ [] rfl
  · decide +kernel
  · intro request hvalid _
    cases hvalid
    exact ⟨by decide +kernel, by decide +kernel⟩

/-- The branch of the second call starts from the first call's, where HEAD was left. -/
theorem secondCall_carries_first :
    AllSteps (step .ascii sampleGit [py "workspace"] onePull)
        (Succeeds .ascii sampleGit [py "workspace"] onePull) { host := ⟨(twoChanges, ()), []⟩ }
        [landCall "a" "apps/a.go", landCall "b" "apps/b.go"] ∧
      twoChanges.head = py "main" ∧
      ¬ Isolated sampleGit (py "main")
        (run (step .ascii sampleGit [py "workspace"] onePull) { host := ⟨(twoChanges, ()), []⟩ }
          [landCall "a" "apps/a.go", landCall "b" "apps/b.go"]) := by
  refine ⟨⟨?_, ?_, trivial⟩, rfl, ?_⟩
  · decide +kernel
  · decide +kernel
  · decide +kernel

end Session

end SecureSdlc.Tools

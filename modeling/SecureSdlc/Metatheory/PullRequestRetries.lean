import SecureSdlc.Core.Program
import SecureSdlc.Metatheory.PullRequests
import SecureSdlc.Tools.GitHub

/-!
Retries of `open_pr`. An attempt may be cut short by git, or by the pull request service
before or after it has taken effect. Whatever attempts go before, the one that goes
through leaves the workspace and the pull requests as it would have on its own: the
steps of a call change nothing where they have been taken already. Changes by others
between the attempts are not looked at.
-/

namespace SecureSdlc.Tools

open Core

namespace GitM

variable {ρ α β : Type}

/-- The computation as a program on the host. -/
def program (m : GitM ρ α) : EStateM PyError (GitHost ρ) α := fun host =>
  match m host with
  | (.ok a, host) => .ok a host
  | (.error e, host) => .error e host

theorem program_andThen (m : GitM ρ α) (f : α → GitM ρ β) :
    (m.andThen f).program = m.program >>= fun a => (f a).program := by
  funext host
  simp only [program, andThen, bind, EStateM.bind]
  cases m host with
  | mk out host => cases out <;> rfl

/-- A condition on the repository. -/
def At (P : ρ → Prop) (host : GitHost ρ) : Prop := P host.repo

theorem meets_andThen {pre : GitHost ρ → Prop} {M : α → GitHost ρ → Prop}
    {post : β → GitHost ρ → Prop} {fail : GitHost ρ → Prop} {m : GitM ρ α} {f : α → GitM ρ β}
    (hm : Meets pre m.program M fail) (hf : ∀ a, Meets (M a) (f a).program post fail) :
    Meets pre (m.andThen f).program post fail := by
  rw [program_andThen]
  exact meets_bind hm hf

theorem meets_lift_of_at {repo : ρ} {fail : ρ → Prop} (x : Except PyError α) (hfail : fail repo) :
    Meets (At (· = repo)) (lift x).program (fun a host => x = .ok a ∧ At (· = repo) host)
      (At fail) := by
  have hprogram : (lift x : GitM ρ α).program = raising x := by
    cases x <;> rfl
  rw [hprogram]
  refine meets_raising x ?_ fun a ha host hpre => ⟨ha, hpre⟩
  intro host hpre
  rw [At, hpre]
  exact hfail

end GitM

namespace Workspace

variable {γ : Type} (w : Workspace γ)

/-- Checking out HEAD's own branch changes nothing. -/
theorem checkout_head : w.checkout w.head = w := by
  obtain ⟨history, hhistory⟩ := Option.isSome_iff_exists.mp w.headed
  refine Workspace.ext ?_ rfl rfl rfl rfl rfl
  have hstart : some (w.start w.head) = w.branches w.head := by
    rw [start, hhistory, Option.getD_some]
  change Function.update w.branches w.head (some (w.start w.head)) = w.branches
  rw [hstart, Function.update_eq_self]

theorem stage_of_no_edits {dots : DotDot} {paths : List PyStr}
    (h : ∀ change ∈ w.edits, dots.covers paths change.1 = false) : w.stage dots paths = w := by
  have hnone : w.edits.filter (fun change => dots.covers paths change.1) = [] := by
    rw [List.filter_eq_nil_iff]
    intro change hchange
    rw [h change hchange]
    exact Bool.false_ne_true
  have hall : w.edits.filter (fun change => !dots.covers paths change.1) = w.edits := by
    rw [List.filter_eq_self]
    intro change hchange
    rw [h change hchange]
    rfl
  refine Workspace.ext rfl rfl ?_ ?_ rfl rfl
  · change List.foldl _ w.index (w.edits.filter _) = w.index
    rw [hnone]
    rfl
  · exact hall

/-- The request has been taken as far as its commit. -/
structure Settled (git : Git γ) (request : OpenPRTool.Request) : Prop where
  head : w.head = request.branch
  edits : ∀ change ∈ w.edits, git.dots.covers request.paths change.1 = false

section Settled

variable {w} {git : Git γ} {request : OpenPRTool.Request}

theorem Settled.gathered (h : w.Settled git request) : w.gathered git request = w := by
  rw [Workspace.gathered, ← h.head, checkout_head]
  exact w.stage_of_no_edits h.edits

theorem settled_gathered : (w.gathered git request).Settled git request := by
  refine ⟨rfl, ?_⟩
  intro change hchange
  have huncovered := (List.mem_filter.mp hchange).2
  rwa [Bool.not_eq_true'] at huncovered

theorem settled_prepared : (w.prepared git request).Settled git request := by
  have hgathered : (w.gathered git request).Settled git request := settled_gathered
  rw [Workspace.prepared]
  split
  · exact ⟨hgathered.head, hgathered.edits⟩
  · exact hgathered

theorem not_dirty_prepared : ¬ (w.prepared git request).Dirty := by
  rw [Workspace.prepared]
  split
  · exact fun hdirty => hdirty rfl
  · assumption

theorem Settled.prepared_of_not_dirty (h : w.Settled git request) (hclean : ¬ w.Dirty) :
    w.prepared git request = w := by
  rw [Workspace.prepared, h.gathered, if_neg hclean]

theorem prepared_prepared :
    (w.prepared git request).prepared git request = w.prepared git request :=
  settled_prepared.prepared_of_not_dirty not_dirty_prepared

theorem prepared_gathered :
    (w.gathered git request).prepared git request = w.prepared git request := by
  rw [Workspace.prepared, settled_gathered.gathered, Workspace.prepared]

theorem prepared_checkout :
    (w.checkout request.branch).prepared git request = w.prepared git request := by
  have hhead : (w.checkout request.branch).checkout request.branch = w.checkout request.branch :=
    (w.checkout request.branch).checkout_head
  have hgathered : (w.checkout request.branch).gathered git request = w.gathered git request := by
    rw [Workspace.gathered, hhead, Workspace.gathered]
  rw [Workspace.prepared, hgathered, Workspace.prepared]

theorem prepared_publish {b : PyStr} :
    ((w.prepared git request).publish b).prepared git request =
      (w.prepared git request).publish b := by
  have hsettled : ((w.prepared git request).publish b).Settled git request :=
    ⟨settled_prepared.head, settled_prepared.edits⟩
  exact hsettled.prepared_of_not_dirty not_dirty_prepared

end Settled

theorem publish_publish (b : PyStr) : (w.publish b).publish b = w.publish b := by
  refine Workspace.ext rfl rfl rfl rfl ?_ rfl
  exact Function.update_idem _ _ _

theorem fastForward_publish (b : PyStr) : (w.publish b).FastForward b := by
  rw [FastForward]
  change (((Function.update w.remote b (w.branches b)) b).getD []).map _ <+: (w.history b).map _
  rw [Function.update_self]
  exact List.prefix_refl _

end Workspace

namespace Forge

variable (forge : Forge) (repo branch : PyStr)

theorem nextUrl_ne_nil : forge.nextUrl repo ≠ [] := by
  rw [nextUrl, List.append_assoc, List.append_assoc]
  exact List.append_ne_nil_of_left_ne_nil (by decide) _

theorem headLabel_inj {a b : PyStr} :
    GitHub.headLabel repo a = GitHub.headLabel repo b ↔ a = b := by
  rw [GitHub.headLabel, GitHub.headLabel, List.append_cancel_left_eq]

/-- The lookup of a branch answers with its open pull requests. -/
theorem send_openPulls :
    Forge.send (.openPulls repo (GitHub.headLabel repo branch)) forge =
      (.answered (.arr ((forge.openPulls branch).map pullJson)), forge) := by
  simp only [Forge.send, headLabel_inj, openPulls]

/-- What a `POST` for the branch leaves. -/
def opened : Forge :=
  if h : forge.openPulls branch = [] then forge.create repo branch h else forge

theorem send_create {body : Mapping} (hbody : Assoc.get body (py "head") = some (.str branch)) :
    (Forge.send (.create repo body) forge).2 = forge.opened repo branch := by
  simp only [Forge.send, hbody, opened]
  split <;> rfl

theorem openPulls_create (h : forge.openPulls branch = []) :
    (forge.create repo branch h).openPulls branch = [⟨forge.nextUrl repo, branch, true⟩] := by
  have hold : forge.pulls.filter (fun pull => pull.isOpen && decide (pull.head = branch)) = [] := h
  rw [openPulls, create, List.filter_append, hold]
  simp

theorem length_openPulls_opened : ((forge.opened repo branch).openPulls branch).length = 1 := by
  rw [opened]
  split
  · rename_i hnone
    rw [openPulls_create]
    rfl
  · rename_i hsome
    have hmost : (forge.openPulls branch).length ≤ 1 := forge.single branch
    have hleast := List.length_pos_iff.mpr hsome
    omega

end Forge

namespace GitHub

variable (rt : Runtime) (env : PyStr → Option PyStr)

/-- The tool's request for a pull request, against the service itself. -/
def openPull (payload : Mapping) (forge : Forge) : Except PyError PyStr × Forge :=
  openGithubPullRequest rt env Forge.send payload forge

/-- The payload asks for a pull request of this branch. -/
structure Asks (payload : Mapping) (repo : PyStr) (body : Mapping) (branch : PyStr) : Prop where
  prepared : prepare env payload = .ok (repo, body, .str branch)
  head : Assoc.get body (py "head") = some (.str branch)

variable {env} {payload body : Mapping} {repo branch : PyStr} {forge : Forge}

theorem openPull_created (h : Asks env payload repo body branch)
    (hnone : forge.openPulls branch = []) :
    openPull rt env payload forge =
      (.ok (forge.nextUrl repo), forge.create repo branch hnone) := by
  simp only [openPull, openGithubPullRequest, h.prepared, Forge.send, h.head, hnone, dite_true,
    conclude, createdUrl, Forge.pullJson]
  have hurl : (Json.str (forge.nextUrl repo)).truthy = true := by
    rw [Json.truthy, Bool.not_eq_true', List.isEmpty_eq_false_iff]
    exact forge.nextUrl_ne_nil repo
  have hget : Assoc.get [(py "html_url", Json.str (forge.nextUrl repo)),
      (py "state", Json.str (py "open"))] (py "html_url") = some (.str (forge.nextUrl repo)) := rfl
  simp only [hget, hurl, if_true, Json.text_str]

theorem findExistingPullRequest_found {pull : Pull} {rest : List Pull}
    (hsome : forge.openPulls branch = pull :: rest) :
    findExistingPullRequest rt Forge.send repo branch forge = (.ok pull.url, forge) := by
  have hget : Assoc.get [(py "html_url", Json.str pull.url), (py "state", Json.str (py "open"))]
      (py "html_url") = some (.str pull.url) := rfl
  simp only [findExistingPullRequest, Forge.send_openPulls, hsome, List.map_cons, Forge.pullJson,
    hget, Option.getD_some, Json.text_str]

theorem openPull_found (h : Asks env payload repo body branch) {pull : Pull} {rest : List Pull}
    (hsome : forge.openPulls branch = pull :: rest) :
    openPull rt env payload forge =
      (if pull.url = [] then httpFailure 422 else .ok pull.url, forge) := by
  have hopen : ¬ forge.openPulls branch = [] := by
    rw [hsome]
    exact List.cons_ne_nil pull rest
  have hconflict : Forge.send (.create repo body) forge = (.httpError 422, forge) := by
    simp only [Forge.send, h.head, hopen, dite_false]
  simp only [openPull, openGithubPullRequest, h.prepared, hconflict, conclude, if_true,
    returnExisting, Json.text_str, findExistingPullRequest_found rt hsome]
  cases pull.url with
  | nil => rfl
  | cons c url => rfl

/-- Once the `POST` has taken effect, asking again is asking for the first time. -/
theorem openPull_opened (h : Asks env payload repo body branch) :
    openPull rt env payload (forge.opened repo branch) = openPull rt env payload forge := by
  rw [Forge.opened]
  split
  · rename_i hnone
    rw [openPull_created rt h hnone,
      openPull_found rt h (forge.openPulls_create repo branch hnone),
      if_neg (forge.nextUrl_ne_nil repo)]
  · rfl

/-- What is left of a request that returns. -/
theorem openPull_service (h : Asks env payload repo body branch) :
    (openPull rt env payload forge).2 = forge.opened repo branch := by
  rw [Forge.opened]
  split
  · rename_i hnone
    rw [openPull_created rt h hnone]
  · rename_i hsome
    obtain ⟨pull, rest, hpulls⟩ := List.exists_cons_of_ne_nil hsome
    rw [openPull_found rt h hpulls]

/-- Whoever gets as far as a request asks for the branch of the call. -/
theorem asks_of_prepare {request : OpenPRTool.Request} {args : Mapping}
    (hpayload : OpenPRTool.pullRequest rt request args = .ok payload) {b : Json}
    (h : prepare env payload = .ok (repo, body, b)) :
    Asks env payload repo body request.branch := by
  obtain ⟨title, -, hpayload⟩ := exists_ok_of_bind hpayload
  obtain ⟨text, -, hpayload⟩ := exists_ok_of_bind hpayload
  cases hpayload
  obtain ⟨repo', hrepo, h⟩ := exists_ok_of_bind h
  cases h
  refine ⟨?_, rfl⟩
  rw [prepare, hrepo]
  rfl

end GitHub

/-- What goes wrong in an attempt: the git steps that fail, without effect, and what becomes
of the two requests to the service. -/
structure Faults where
  down : List PyStr → Option GitFailure := fun _ => none
  /-- Whether the `POST` has taken effect, and what arrives instead of its answer. -/
  create : Option (Bool × GitHubResponse) := none
  lookup : Option GitHubResponse := none

def Faults.send (faults : Faults) : GitHubRequest → Forge → GitHubResponse × Forge
  | .create repo body, forge =>
      match faults.create with
      | none => Forge.send (.create repo body) forge
      | some (true, response) => (response, (Forge.send (.create repo body) forge).2)
      | some (false, response) => (response, forge)
  | .openPulls repo head, forge =>
      match faults.lookup with
      | none => Forge.send (.openPulls repo head) forge
      | some response => (response, forge)

section Attempts

variable (rt : Runtime) (env : PyStr → Option PyStr) {γ : Type} (git : Git γ) (root : Path)

def faultyTool (faults : Faults) : OpenPRTool (Workspace γ × Forge) :=
  workspaceTool git root faults.down (GitHub.openGithubPullRequest rt env faults.send)

/-- One attempt of a call. -/
def attempt (faults : Faults) (args : Mapping) (world : Workspace γ × Forge) :
    Except PyError Mapping × (Workspace γ × Forge) :=
  let (out, host) := (faultyTool rt env git root faults).call rt args ⟨world, []⟩
  (out, host.repo)

/-- How far an attempt may have got. -/
inductive Checkpoint (request : OpenPRTool.Request) (args : Mapping)
    (world : Workspace γ × Forge) : Workspace γ × Forge → Prop where
  | started : Checkpoint request args world world
  | switched : Checkpoint request args world (world.1.checkout request.branch, world.2)
  | staged : Checkpoint request args world (world.1.gathered git request, world.2)
  | committed : Checkpoint request args world (world.1.prepared git request, world.2)
  | pushed (h : (world.1.prepared git request).FastForward request.branch) :
      Checkpoint request args world
        ((world.1.prepared git request).publish request.branch, world.2)
  | opened (h : (world.1.prepared git request).FastForward request.branch)
      {payload body : Mapping} {repo : PyStr}
      (hpayload : OpenPRTool.pullRequest rt request args = .ok payload)
      (hasks : GitHub.Asks env payload repo body request.branch) :
      Checkpoint request args world
        ((world.1.prepared git request).publish request.branch,
          world.2.opened repo request.branch)

theorem attempt_faultless (args : Mapping) (world : Workspace γ × Forge) :
    attempt rt env git root {} args world =
      OpenPRTool.outcome rt git root (GitHub.openPull rt env) args world := by
  have hsend : ({} : Faults).send = Forge.send := by
    funext request forge
    cases request <;> rfl
  obtain ⟨argvs, hcall⟩ := OpenPRTool.runs_call rt git root (GitHub.openPull rt env) args world []
  have htool : faultyTool rt env git root {} =
      OpenPRTool.steady git root (GitHub.openPull rt env) := by
    rw [faultyTool, hsend]
    rfl
  rw [attempt, htool, hcall]

/-- From wherever an attempt has got to, the call does what it does from the start. -/
theorem landing_of_checkpoint {request : OpenPRTool.Request} {args : Mapping}
    {world world' : Workspace γ × Forge}
    (h : Checkpoint rt env git request args world world') :
    OpenPRTool.landing rt git (GitHub.openPull rt env) request args world' =
      OpenPRTool.landing rt git (GitHub.openPull rt env) request args world := by
  cases h with
  | started => rfl
  | switched => simp only [OpenPRTool.landing, Workspace.prepared_checkout]
  | staged => simp only [OpenPRTool.landing, Workspace.prepared_gathered]
  | committed => simp only [OpenPRTool.landing, Workspace.prepared_prepared]
  | pushed hforward =>
      simp only [OpenPRTool.landing, Workspace.prepared_publish, Workspace.publish_publish,
        if_pos hforward, if_pos (Workspace.fastForward_publish _ _)]
  | opened hforward hpayload hasks =>
      simp only [OpenPRTool.landing, Workspace.prepared_publish, Workspace.publish_publish,
        if_pos hforward, if_pos (Workspace.fastForward_publish _ _), OpenPRTool.announce, hpayload,
        GitHub.openPull_opened rt hasks]

section Interrupted

variable {rt env git root} {faults : Faults} {request : OpenPRTool.Request} {args : Mapping}
  {world : Workspace γ × Forge} {fail : Workspace γ × Forge → Prop}

theorem exec_error {w w' : Workspace γ} {command : GitCommand} {failure : GitFailure}
    (h : git.exec w command = (.error failure, w')) : w' = w := by
  cases command with
  | switch b | create b | commit message | push b =>
      simp only [Git.exec] at h
      split at h <;> cases h
      rfl
  | listBranch b | add paths | stagedNames | revision => cases h

/-- A git step takes effect or is the end of the attempt. -/
theorem meets_runGit {argv : List PyStr} (command : GitCommand)
    {post : PyStr → GitHost (Workspace γ × Forge) → Prop}
    (hparse : GitCommand.parse argv = some command) (hfail : fail world)
    (h : ∀ out w, git.exec world.1 command = (.ok out, w) →
      ∀ argvs, post out ⟨(w, world.2), argvs⟩) :
    Meets (GitM.At (· = world)) ((faultyTool rt env git root faults).runGit argv).program post
      (GitM.At fail) := by
  rintro ⟨repo, argvs⟩ rfl
  simp only [GitM.program, OpenPRTool.runGit, faultyTool, workspaceTool, Git.run, hparse]
  cases hdown : faults.down argv with
  | some failure =>
      cases failure <;> exact hfail
  | none =>
      cases hexec : git.exec repo.1 command with
      | mk out w =>
          cases out with
          | ok out => exact h out w hexec _
          | error failure =>
              have hkept := exec_error hexec
              subst hkept
              cases failure <;> exact hfail

/-- A git step that leaves this workspace, if it takes effect. -/
theorem meets_step {argv : List PyStr} (command : GitCommand) {w : Workspace γ}
    (hparse : GitCommand.parse argv = some command) (hfail : fail world)
    (h : ∀ out w', git.exec world.1 command = (.ok out, w') → w' = w) :
    Meets (GitM.At (· = world)) ((faultyTool rt env git root faults).runGit argv).program
      (fun _ => GitM.At (· = (w, world.2))) (GitM.At fail) := by
  apply meets_runGit command hparse hfail
  intro out w' hexec argvs
  rw [h out w' hexec]
  rfl

/-- A git step that only looks. -/
theorem meets_look {argv : List PyStr} (command : GitCommand)
    (hparse : GitCommand.parse argv = some command) (hfail : fail world)
    (h : (git.exec world.1 command).2 = world.1) :
    Meets (GitM.At (· = world)) ((faultyTool rt env git root faults).runGit argv).program
      (fun _ => GitM.At (· = world)) (GitM.At fail) := by
  apply meets_step command hparse hfail
  intro out w hexec
  rw [hexec] at h
  exact h

theorem meets_switch (b : PyStr) (hfail : fail world) :
    Meets (GitM.At (· = world)) ((faultyTool rt env git root faults).switch b).program
      (fun _ => GitM.At (· = (world.1.checkout b, world.2))) (GitM.At fail) := by
  refine GitM.meets_andThen (meets_look (.listBranch b) rfl hfail rfl) fun out => ?_
  split
  · apply meets_step (.switch b) rfl hfail
    intro out w hexec
    rw [Git.exec] at hexec
    split at hexec <;> cases hexec
    rfl
  · apply meets_step (.create b) rfl hfail
    intro out w hexec
    rw [Git.exec] at hexec
    split at hexec <;> cases hexec
    rfl

/-- The names that the tool is shown are those of the index. -/
theorem meets_stagedNames (hfail : fail world) :
    Meets (GitM.At (· = world)) ((faultyTool rt env git root faults).runGit
        [py "diff", py "--cached", py "--name-only"]).program
      (fun out host => out = world.1.stagedNames ∧ GitM.At (· = world) host) (GitM.At fail) := by
  apply meets_runGit .stagedNames rfl hfail
  intro out w hexec argvs
  cases hexec
  exact ⟨rfl, rfl⟩

theorem meets_commitPaths (hswitched : fail (world.1.checkout request.branch, world.2))
    (hstaged : fail (world.1.gathered git request, world.2)) :
    Meets (GitM.At (· = (world.1.checkout request.branch, world.2)))
      ((faultyTool rt env git root faults).commitPaths request).program
      (fun _ => GitM.At (· = (world.1.prepared git request, world.2))) (GitM.At fail) := by
  have hadd : ∀ out w, git.exec (world.1.checkout request.branch) (.add request.paths) =
      (.ok out, w) → w = world.1.gathered git request := by
    intro out w hexec
    cases hexec
    rfl
  refine GitM.meets_andThen (meets_step (.add request.paths) rfl hswitched hadd) fun _ => ?_
  refine GitM.meets_andThen (meets_stagedNames hstaged) fun out => ?_
  apply meets_of_and
  rintro rfl
  rw [Workspace.prepared]
  change Meets _ (if (world.1.gathered git request).Dirty then _ else _ : GitM _ _).program _ _
  split
  · apply meets_step (.commit request.message) rfl hstaged
    intro out w hexec
    rw [Git.exec] at hexec
    split at hexec <;> cases hexec
    rfl
  · exact meets_pure [] fun _ hpre => hpre

/-- A push goes through only where the remote is behind. -/
theorem meets_push (b : PyStr) (hfail : fail world) :
    Meets (GitM.At (· = world)) ((faultyTool rt env git root faults).runGit
        [py "push", py "-u", py "origin", b]).program
      (fun _ host => world.1.FastForward b ∧ GitM.At (· = (world.1.publish b, world.2)) host)
      (GitM.At fail) := by
  apply meets_runGit (.push b) rfl hfail
  intro out w hexec argvs
  rw [Git.exec] at hexec
  split at hexec
  · rename_i hforward
    cases hexec
    exact ⟨hforward.2, rfl⟩
  · cases hexec

theorem findExistingPullRequest_service (repo branch : PyStr) (forge : Forge) :
    (GitHub.findExistingPullRequest rt faults.send repo branch forge).2 = forge := by
  have hlookup :
      (faults.send (.openPulls repo (GitHub.headLabel repo branch)) forge).2 = forge := by
    rw [Faults.send]
    cases faults.lookup <;> rfl
  rw [GitHub.findExistingPullRequest]
  split
  · rename_i hanswer
    rw [hanswer] at hlookup
    exact hlookup
  · rename_i hanswer
    rw [hanswer] at hlookup
    exact hlookup

theorem conclude_service (repo : PyStr) (branch : Json) (response : GitHubResponse)
    (forge : Forge) : (GitHub.conclude rt faults.send repo branch response forge).2 = forge := by
  cases response with
  | answered data | failed text => rfl
  | httpError code =>
      rw [GitHub.conclude]
      split
      · rw [GitHub.returnExisting]
        split
        · rfl
        · rename_i branch _
          have hkept :
              (GitHub.findExistingPullRequest rt faults.send repo branch forge).2 = forge :=
            findExistingPullRequest_service repo branch forge
          split
          · rename_i hfound
            rw [hfound] at hkept
            exact hkept
          · exact hkept
      · rfl

/-- The `POST` takes effect or it does not; nothing else does. -/
theorem openGithub_effect (payload : Mapping) (forge : Forge) :
    (GitHub.openGithubPullRequest rt env faults.send payload forge).2 = forge ∨
      ∃ repo body branch, GitHub.prepare env payload = .ok (repo, body, branch) ∧
        (GitHub.openGithubPullRequest rt env faults.send payload forge).2 =
          (Forge.send (.create repo body) forge).2 := by
  rw [GitHub.openGithubPullRequest]
  split
  · rename_i repo body branch hprepare
    simp only [conclude_service, Faults.send]
    split
    · exact Or.inr ⟨repo, body, branch, hprepare, rfl⟩
    · exact Or.inr ⟨repo, body, branch, hprepare, rfl⟩
    · exact Or.inl rfl
  · exact Or.inl rfl

theorem meets_openRequest {payload : Mapping} (hfail : fail world)
    (hopened : ∀ repo body branch, GitHub.prepare env payload = .ok (repo, body, branch) →
      fail (world.1, (Forge.send (.create repo body) world.2).2)) :
    Meets (GitM.At (· = world)) ((faultyTool rt env git root faults).openRequest payload).program
      (fun _ => GitM.At fail) (GitM.At fail) := by
  rintro ⟨repo, argvs⟩ rfl
  have hleft :
      fail (repo.1, (GitHub.openGithubPullRequest rt env faults.send payload repo.2).2) := by
    rcases openGithub_effect payload repo.2 with hsame | ⟨name, body, branch, hprepare, heffect⟩
    · rw [hsame]
      exact hfail
    · rw [heffect]
      exact hopened name body branch hprepare
  simp only [GitM.program, OpenPRTool.openRequest, faultyTool, workspaceTool]
  cases hanswer : GitHub.openGithubPullRequest rt env faults.send payload repo.2 with
  | mk out forge =>
      rw [hanswer] at hleft
      cases out <;> exact hleft

/-- An attempt stops at a checkpoint, whether it returns or not. -/
theorem meets_land :
    Meets (GitM.At (· = world)) ((faultyTool rt env git root faults).land rt request args).program
      (fun _ => GitM.At (Checkpoint rt env git request args world))
      (GitM.At (Checkpoint rt env git request args world)) := by
  have hcommitted : Checkpoint rt env git request args world
      (world.1.prepared git request, world.2) := .committed
  refine GitM.meets_andThen (meets_switch request.branch .started) fun _ => ?_
  refine GitM.meets_andThen (meets_commitPaths .switched .staged) fun _ => ?_
  refine GitM.meets_andThen (meets_push request.branch hcommitted) fun _ => ?_
  apply meets_of_and
  intro hforward
  have hpushed : Checkpoint rt env git request args world
      ((world.1.prepared git request).publish request.branch, world.2) := .pushed hforward
  refine GitM.meets_andThen (meets_look .revision rfl hpushed rfl) fun _ => ?_
  refine GitM.meets_andThen (GitM.meets_lift_of_at _ hpushed) fun payload => ?_
  apply meets_of_and
  intro hpayload
  refine GitM.meets_andThen (meets_openRequest hpushed ?_) fun url => ?_
  · intro repo body branch hprepare
    have hasks := GitHub.asks_of_prepare rt hpayload hprepare
    rw [Forge.send_create _ _ _ hasks.head]
    exact .opened hforward hpayload hasks
  · exact meets_pure _ fun _ hpre => hpre

end Interrupted

theorem attempt_checkpoint {faults : Faults} {args : Mapping} {world : Workspace γ × Forge}
    {request : OpenPRTool.Request} (hvalid : OpenPRTool.validate rt root args = .ok request) :
    Checkpoint rt env git request args world (attempt rt env git root faults args world).2 := by
  have hmeets : Meets (GitM.At (· = world))
      ((faultyTool rt env git root faults).land rt request args).program
      (fun _ => GitM.At (Checkpoint rt env git request args world))
      (GitM.At (Checkpoint rt env git request args world)) := meets_land
  have hland := hmeets ⟨world, []⟩ rfl
  have hroot : (faultyTool rt env git root faults).root = root := rfl
  simp only [attempt, OpenPRTool.call, GitM.andThen, GitM.lift, hroot, hvalid]
  simp only [GitM.program] at hland
  cases hrun : (faultyTool rt env git root faults).land rt request args ⟨world, []⟩ with
  | mk out host =>
      rw [hrun] at hland
      cases out <;> exact hland

/-- An attempt, however it ends, changes nothing about what the call would do. -/
theorem outcome_attempt (faults : Faults) (args : Mapping) (world : Workspace γ × Forge) :
    OpenPRTool.outcome rt git root (GitHub.openPull rt env) args
        (attempt rt env git root faults args world).2 =
      OpenPRTool.outcome rt git root (GitHub.openPull rt env) args world := by
  cases hvalid : OpenPRTool.validate rt root args with
  | error e =>
      have hroot : (faultyTool rt env git root faults).root = root := rfl
      have hkept : (attempt rt env git root faults args world).2 = world := by
        simp only [attempt, OpenPRTool.call, GitM.andThen, GitM.lift, hroot, hvalid]
      rw [hkept]
  | ok request =>
      simp only [OpenPRTool.outcome, hvalid]
      exact landing_of_checkpoint rt env git (attempt_checkpoint rt env git root hvalid)

/-- A call that returns leaves one open pull request for its branch. -/
theorem announce_openPulls {request : OpenPRTool.Request} {args : Mapping}
    {world last : Workspace γ × Forge} {result : Mapping}
    (h : OpenPRTool.announce rt git (GitHub.openPull rt env) request args world =
      (.ok result, last)) : (last.2.openPulls request.branch).length = 1 := by
  rw [OpenPRTool.announce] at h
  split at h
  · cases h
  · rename_i payload hpayload
    cases hprepare : GitHub.prepare env payload with
    | error e =>
        simp only [GitHub.openPull, GitHub.openGithubPullRequest, hprepare] at h
        cases h
    | ok prepared =>
        obtain ⟨repo, body, branch⟩ := prepared
        have hasks := GitHub.asks_of_prepare rt hpayload hprepare
        have hservice : (GitHub.openPull rt env payload world.2).2 =
            world.2.opened repo request.branch := GitHub.openPull_service rt hasks
        split at h
        · cases h
        · rename_i url service hopened
          rw [hopened] at hservice
          cases h
          rw [show service = world.2.opened repo request.branch from hservice]
          exact world.2.length_openPulls_opened repo request.branch

/-- The attempt that goes through leaves what a single call would have left, and with it
one open pull request for the branch. -/
theorem retries_as_one_call (args : Mapping) (world last : Workspace γ × Forge)
    (attempts : List Faults) (result : Mapping)
    (h : attempt rt env git root {} args
        (run (fun world faults => (attempt rt env git root faults args world).2) world attempts) =
      (.ok result, last)) :
    attempt rt env git root {} args world = (.ok result, last) ∧
      ∃ request, OpenPRTool.validate rt root args = .ok request ∧
        (last.2.openPulls request.branch).length = 1 := by
  have hsame := run_keeps (fun world faults => (attempt rt env git root faults args world).2)
    (fun world' => OpenPRTool.outcome rt git root (GitHub.openPull rt env) args world' =
      OpenPRTool.outcome rt git root (GitHub.openPull rt env) args world)
    (fun world' faults hsame => (outcome_attempt rt env git root faults args world').trans hsame)
    world attempts rfl
  rw [attempt_faultless, hsame] at h
  refine ⟨(attempt_faultless rt env git root args world).trans h, ?_⟩
  rw [OpenPRTool.outcome] at h
  cases hvalid : OpenPRTool.validate rt root args with
  | error e =>
      rw [hvalid] at h
      cases h
  | ok request =>
      refine ⟨request, rfl, ?_⟩
      simp only [hvalid, OpenPRTool.landing] at h
      split at h
      · exact announce_openPulls rt env git h
      · cases h

end Attempts

def panelEnv (name : PyStr) : Option PyStr :=
  if name = py "SDLC_GITHUB_TOKEN" then some (py "test-token")
  else if name = py "SDLC_GITHUB_REPOSITORY" then some (py "o/r")
  else none

def noPulls : Forge where
  pulls := []
  single := fun _ => Nat.zero_le 1

def landArgs : Mapping :=
  [(py "branch", .str (py "feature/FEAT-0006-TASK-0009-a")), (py "commit_message", .str (py "x")),
    (py "paths", .arr [.str (py "apps/a.go")])]

/-- An attempt in which the remote is not reached. -/
def pushDown : Faults where
  down := fun argv =>
    if argv.head? = some (py "push") then some (.exited (py "fatal: unable to access")) else none

/-- An attempt in which the pull request is opened, and nobody hears of it. -/
def answerLost : Faults where
  create := some (true, .failed (py "timed out"))

def landAttempt (faults : Faults) (world : Workspace PyStr × Forge) :
    Except PyError Mapping × (Workspace PyStr × Forge) :=
  attempt .ascii panelEnv Session.sampleGit [py "workspace"] faults landArgs world

theorem interruptedCall_lands_once :
    landAttempt {} (Session.twoChanges, noPulls) =
        landAttempt {} (run (fun world faults => (landAttempt faults world).2)
          (Session.twoChanges, noPulls) [pushDown, answerLost]) ∧
      (landAttempt {} (Session.twoChanges, noPulls)).1.isOk = true := by
  have hok : (landAttempt {} (run (fun world faults => (landAttempt faults world).2)
      (Session.twoChanges, noPulls) [pushDown, answerLost])).1.isOk = true := by decide +kernel
  cases hlast : landAttempt {} (run (fun world faults => (landAttempt faults world).2)
      (Session.twoChanges, noPulls) [pushDown, answerLost]) with
  | mk out last =>
      rw [hlast] at hok
      cases out with
      | error e => cases hok
      | ok result =>
          have honce := (retries_as_one_call .ascii panelEnv Session.sampleGit [py "workspace"]
            landArgs (Session.twoChanges, noPulls) last [pushDown, answerLost] result hlast).1
          exact ⟨honce, congrArg (fun landed => landed.1.isOk) honce⟩

end SecureSdlc.Tools

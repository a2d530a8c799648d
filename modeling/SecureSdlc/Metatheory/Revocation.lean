import SecureSdlc.Metatheory.CapabilityBinding
import SecureSdlc.Metatheory.TokenRoundTrip

/-!
Revocation over histories of the run registry. `start` writes its record whatever the
id held before, so a finished run can come back to life under its old id; histories
that only start new ids keep every actor and every finished run. `check` changes
nothing and is asked at the end of a history. Times and signatures are arbitrary.
-/

namespace SecureSdlc.Runner

open Core

variable {rt : Runtime} {secret : Bytes}

theorem issueToken_of_issue {registry : RunRegistry} {runId tool scope token : PyStr}
    {ttl now : Int} (h : registry.issue rt runId tool scope ttl now = .ok token) :
    issueToken rt registry.secret ⟨runId, tool, scope, now + ttl⟩ = .ok token := by
  rw [RunRegistry.issue] at h
  split at h
  · cases h
  · split at h
    · cases h
    · exact h

/-- The id that `start` registers. -/
def startId (runId : Option PyStr) (fresh : PyStr) : PyStr :=
  match runId with
  | some id => if id = [] then py "RUN-" ++ fresh else id
  | none => py "RUN-" ++ fresh

theorem get_start (registry : RunRegistry) (actor : Mapping) (runId : Option PyStr)
    (fresh : PyStr) (now : Int) (id : PyStr) :
    (registry.start actor runId fresh now).2.get id =
      if startId runId fresh = id then some ⟨startId runId fresh, actor, now, false⟩
      else registry.get id :=
  Assoc.get_set _ _ _ _

theorem get_finish {registry registry' : RunRegistry} {runId : PyStr}
    (h : registry.finish runId = .ok registry') (id : PyStr) :
    ∃ run, registry.get runId = some run ∧
      registry'.get id = if runId = id then some { run with finished := true }
        else registry.get id := by
  rw [RunRegistry.finish] at h
  cases hrun : registry.get runId with
  | none =>
      rw [hrun] at h
      cases h
  | some run =>
      rw [hrun] at h
      cases h
      exact ⟨run, rfl, Assoc.get_set _ _ _ _⟩

/-- A call that starts no registered id and issues for no id whose surrogate pairs
JSON would join. -/
def RegistryCall.Proper (registry : RunRegistry) : RegistryCall → Prop
  | .start _ runId fresh _ => registry.get (startId runId fresh) = none
  | .issue runId _ _ _ _ => JsonText.joinSurrogates runId = runId
  | .finish _ => True

/-- Every run is still there, with its actor, and stays finished once it is. -/
def RunsKept (registry registry' : RunRegistry) : Prop :=
  ∀ id run, registry.get id = some run →
    ∃ run', registry'.get id = some run' ∧ run'.actor = run.actor ∧
      (run.finished = true → run'.finished = true)

theorem runsKept_refl (registry : RunRegistry) : RunsKept registry registry :=
  fun _ run h => ⟨run, h, rfl, id⟩

theorem runsKept_trans {first second third : RunRegistry} (h : RunsKept first second)
    (h' : RunsKept second third) : RunsKept first third := by
  intro id run hrun
  obtain ⟨run', hrun', hactor, hfinished⟩ := h id run hrun
  obtain ⟨run'', hrun'', hactor', hfinished'⟩ := h' id run' hrun'
  exact ⟨run'', hrun'', hactor'.trans hactor, fun hf => hfinished' (hfinished hf)⟩

theorem runsKept_after {registry : RunRegistry} {call : RegistryCall}
    (h : call.Proper registry) : RunsKept registry (registry.after call) := by
  cases call with
  | start actor runId fresh now =>
      intro id run hrun
      have hne : startId runId fresh ≠ id := by
        rintro rfl
        rw [RegistryCall.Proper] at h
        rw [h] at hrun
        cases hrun
      refine ⟨run, ?_, rfl, fun hf => hf⟩
      rw [RunRegistry.after, get_start, if_neg hne, hrun]
  | issue runId tool scope ttl now => exact runsKept_refl registry
  | finish runId =>
      rw [RunRegistry.after]
      cases hfinish : registry.finish runId with
      | error e => exact runsKept_refl registry
      | ok registry' =>
          intro id run hrun
          obtain ⟨stopped, hstopped, hget⟩ := get_finish hfinish id
          by_cases hid : runId = id
          · subst hid
            rw [hrun] at hstopped
            cases hstopped
            rw [if_pos rfl] at hget
            exact ⟨_, hget, rfl, fun _ => rfl⟩
          · exact ⟨run, by rw [hget, if_neg hid, hrun], rfl, fun hf => hf⟩

/-- Along a proper history nothing is lost. -/
theorem runsKept_run {registry : RunRegistry} {history : List RegistryCall}
    (h : AllSteps RunRegistry.after (fun registry call => call.Proper registry) registry history) :
    RunsKept registry (run RunRegistry.after registry history) := by
  induction history generalizing registry with
  | nil => exact runsKept_refl registry
  | cons call history ih => exact runsKept_trans (runsKept_after h.1) (ih h.2)

theorem replay_append (secret : Bytes) (earlier later : List RegistryCall) :
    RunRegistry.replay secret (earlier ++ later) =
      run RunRegistry.after (RunRegistry.replay secret earlier) later :=
  run_append _ _ _ _

/-- A history whose calls are all proper where they are made. -/
def ProperHistory (secret : Bytes) (history : List RegistryCall) : Prop :=
  AllSteps RunRegistry.after (fun registry call => call.Proper registry) { secret } history

theorem runsKept_replay {earlier later : List RegistryCall}
    (h : ProperHistory secret (earlier ++ later)) :
    RunsKept (.replay secret earlier) (.replay secret (earlier ++ later)) := by
  rw [replay_append]
  exact runsKept_run ((allSteps_append _ _ _ earlier later).mp h).2

/-- `finish` of this run returned somewhere in the history. -/
def Finished (secret : Bytes) (history : List RegistryCall) (runId : PyStr) : Prop :=
  ∃ before after registry, history = before ++ .finish runId :: after ∧
    (RunRegistry.replay secret before).finish runId = .ok registry

/-- `issue` for this run returned the token somewhere in the history. -/
def TokenIssued (rt : Runtime) (secret : Bytes) (history : List RegistryCall)
    (runId token : PyStr) : Prop :=
  ∃ before after tool scope ttlSeconds now,
    history = before ++ .issue runId tool scope ttlSeconds now :: after ∧
      (RunRegistry.replay secret before).issue rt runId tool scope ttlSeconds now = .ok token

/-- No token of a run that was finished checks as valid at the end of the history. -/
def Revoked (rt : Runtime) (secret : Bytes) (history : List RegistryCall) : Prop :=
  ∀ runId token, Finished secret history runId → TokenIssued rt secret history runId token →
    ∀ tool scope now check,
      (RunRegistry.replay secret history).check rt token tool scope now = .ok check →
        check.valid = false

/-- Whatever actor an id had on the way is the one it has at the end. -/
def ActorsStable (secret : Bytes) (history : List RegistryCall) : Prop :=
  ∀ earlier later, history = earlier ++ later → ∀ runId run,
    (RunRegistry.replay secret earlier).get runId = some run →
      ∃ run', (RunRegistry.replay secret history).get runId = some run' ∧ run'.actor = run.actor

theorem tokenNames_of_issued {history : List RegistryCall} {runId token : PyStr}
    (hproper : ProperHistory secret history)
    (h : TokenIssued rt secret history runId token) : TokenNames rt secret token runId := by
  obtain ⟨before, after, tool, scope, ttl, now, rfl, hissue⟩ := h
  have hjoined : JsonText.joinSurrogates runId = runId :=
    ((allSteps_append _ _ _ before _).mp hproper).2.1
  intro capability error hdecoded
  have hissued := issueToken_of_issue hissue
  rw [replay_secret] at hissued
  rw [decoded_issueToken hissued hdecoded]
  exact hjoined

theorem finished_stays {history : List RegistryCall} {runId : PyStr}
    (hproper : ProperHistory secret history) (h : Finished secret history runId) :
    ∃ run, (RunRegistry.replay secret history).get runId = some run ∧ run.finished = true := by
  obtain ⟨before, after, registry, rfl, hfinish⟩ := h
  obtain ⟨stopped, -, hget⟩ := get_finish hfinish runId
  rw [if_pos rfl] at hget
  have hstep : RunRegistry.replay secret (before ++ [.finish runId]) = registry := by
    rw [replay_append, run_cons, run_nil, RunRegistry.after, hfinish]
  rw [List.append_cons] at hproper ⊢
  obtain ⟨run, hrun, -, hstays⟩ := runsKept_replay hproper runId _ (hstep ▸ hget)
  exact ⟨run, hrun, hstays rfl⟩

theorem revoked_of_proper {history : List RegistryCall} (hproper : ProperHistory secret history) :
    Revoked rt secret history := by
  intro runId token hfinished hissued tool scope now check hcheck
  by_contra hvalid
  obtain ⟨capability, holder, haccepted⟩ := (check_valid_iff rt _ token tool scope now).mp
    ⟨check, hcheck, Bool.eq_true_of_not_eq_false hvalid⟩
  obtain ⟨error, hdecoded⟩ := haccepted.decoded
  rw [replay_secret] at hdecoded
  have hnamed := tokenNames_of_issued hproper hissued capability error hdecoded
  obtain ⟨run, hrun, hstopped⟩ := finished_stays hproper hfinished
  have hregistered := haccepted.registered
  rw [hnamed, hrun] at hregistered
  cases hregistered
  rw [haccepted.live] at hstopped
  cases hstopped

theorem actorsStable_of_proper {history : List RegistryCall}
    (hproper : ProperHistory secret history) : ActorsStable secret history := by
  intro earlier later heq runId run hrun
  subst heq
  obtain ⟨run', hrun', hactor, -⟩ := runsKept_replay hproper runId run hrun
  exact ⟨run', hrun', hactor⟩

/-- In every state that a history of proper calls passes through, finished runs are
revoked and actors are those of the first start. -/
theorem revocation_permanent (rt : Runtime) (secret : Bytes) (history : List RegistryCall)
    (hproper : ProperHistory secret history) (reached later : List RegistryCall)
    (heq : history = reached ++ later) :
    Revoked rt secret reached ∧ ActorsStable secret reached := by
  subst heq
  have hreached : ProperHistory secret reached :=
    ((allSteps_append _ _ _ reached later).mp hproper).1
  exact ⟨revoked_of_proper hreached, actorsStable_of_proper hreached⟩

end SecureSdlc.Runner

namespace SecureSdlc.Skills

open Core Runner

/-- A run is started, given a token and finished. -/
def finishedRun : List RegistryCall :=
  [.start (sampleActor "implementer" "implementer") (some (py "RUN-aaaaaa")) [] 1000,
    .issue (py "RUN-aaaaaa") (py "read_artifact") (py "workspace") 300 1000,
    .finish (py "RUN-aaaaaa")]

theorem finishedRun_issues (later : List RegistryCall) :
    TokenIssued signingRuntime sampleSecret (finishedRun ++ later) (py "RUN-aaaaaa")
      borrowedToken :=
  ⟨[.start (sampleActor "implementer" "implementer") (some (py "RUN-aaaaaa")) [] 1000],
    .finish (py "RUN-aaaaaa") :: later, py "read_artifact", py "workspace", 300, 1000, rfl,
    ok_of_toOption (by decide +kernel)⟩

theorem finishedRun_finishes (later : List RegistryCall) :
    Finished sampleSecret (finishedRun ++ later) (py "RUN-aaaaaa") :=
  ⟨finishedRun.take 2, later, _, rfl, rfl⟩

theorem finishedRun_revoked :
    TokenIssued signingRuntime sampleSecret finishedRun (py "RUN-aaaaaa") borrowedToken ∧
      Finished sampleSecret finishedRun (py "RUN-aaaaaa") ∧
      Revoked signingRuntime sampleSecret finishedRun ∧
      ActorsStable sampleSecret finishedRun := by
  refine ⟨finishedRun_issues [], finishedRun_finishes [], ?_⟩
  exact revocation_permanent signingRuntime sampleSecret finishedRun
    ⟨rfl, rfl, trivial, trivial⟩ finishedRun [] rfl

/-- Another agent is then started under the same id. -/
def restartedRun : List RegistryCall :=
  finishedRun ++ [.start (sampleActor "reviewer" "reviewer") (some (py "RUN-aaaaaa")) [] 1100]

/-- The old token works again, and for another actor. -/
theorem restartedRun_revives_token :
    ¬ Revoked signingRuntime sampleSecret restartedRun ∧
      ¬ ActorsStable sampleSecret restartedRun := by
  refine ⟨?_, ?_⟩
  · intro h
    have hvalid : ((RunRegistry.replay sampleSecret restartedRun).check signingRuntime
        borrowedToken (py "read_artifact") (py "workspace") 1200).toOption =
          some ⟨true, capabilityValid, some (py "RUN-aaaaaa"), some (py "read_artifact"),
            some (py "workspace")⟩ := by
      decide +kernel
    exact absurd (h _ _ (finishedRun_finishes _) (finishedRun_issues _) _ _ _ _
      (ok_of_toOption hvalid)) (by decide)
  · intro h
    obtain ⟨run, hrun, hactor⟩ := h finishedRun _ rfl (py "RUN-aaaaaa") _ rfl
    have hroles : ((RunRegistry.replay sampleSecret restartedRun).get (py "RUN-aaaaaa")).map
        (fun run => (Assoc.get run.actor (py "role")).bind Json.str?) =
          some (some (py "reviewer")) := by
      decide +kernel
    rw [hrun, Option.map_some, hactor] at hroles
    revert hroles
    decide +kernel

end SecureSdlc.Skills

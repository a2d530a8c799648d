import SecureSdlc.Tools.Vcs

/-!
Pull requests on GitHub, `_open_github_pull_request` of `tools/vcs.py`. The service is a
state that answers requests; the transport has decoded the body of an answer, and the
headers are left out.
-/

namespace SecureSdlc.Tools

open Core

inductive GitHubRequest where
  /-- `POST /repos/{repo}/pulls`. -/
  | create (repo : PyStr) (body : Mapping)
  /-- `GET /repos/{repo}/pulls?state=open&head={head}`. -/
  | openPulls (repo head : PyStr)

inductive GitHubResponse where
  | answered (data : Json)
  | httpError (code : Nat)
  /-- `URLError`, `OSError`, `TimeoutError` or `JSONDecodeError`. -/
  | failed (text : PyStr)

namespace GitHub

variable {ω : Type} (rt : Runtime) (env : PyStr → Option PyStr)
  (send : GitHubRequest → ω → GitHubResponse × ω)

/-- `_github_credentials`; the token stays in the headers. -/
def githubCredentials : Except PyError PyStr :=
  match env (py "SDLC_GITHUB_TOKEN"), env (py "SDLC_GITHUB_REPOSITORY") with
  | some (_ :: _), some (c :: repo) => .ok (c :: repo)
  | _, _ =>
      raised .valueError (py "SDLC_GITHUB_TOKEN and SDLC_GITHUB_REPOSITORY are required")

/-- The `head` of the lookup. -/
def headLabel (repo branch : PyStr) : PyStr :=
  repo.takeWhile (fun c => decide (c ≠ cp '/')) ++ py ":" ++ branch

/-- `_find_existing_pull_request`. -/
def findExistingPullRequest (repo branch : PyStr) (service : ω) : Except PyError PyStr × ω :=
  match send (.openPulls repo (headLabel repo branch)) service with
  | (.answered (.arr (.obj first :: _)), service) =>
      (((Assoc.get first (py "html_url")).getD (.str [])).text rt, service)
  | (_, service) => (.ok [], service)

def requestBody (payload : Mapping) : Except PyError Mapping := do
  pure [(py "title", ← item payload (py "title")), (py "head", ← item payload (py "branch")),
    (py "base", ← item payload (py "base")), (py "body", ← item payload (py "body"))]

/-- The `html_url` of a created pull request. -/
def createdUrl : Json → Except PyError PyStr
  | .obj data =>
      match Assoc.get data (py "html_url") with
      | some url =>
          if url.truthy then url.text rt
          else raised .valueError (py "pull request response is missing html_url")
      | none => raised .valueError (py "pull request response is missing html_url")
  | _ => raised .valueError (py "pull request response is missing html_url")

def httpFailure {α : Type} (code : Nat) : Except PyError α :=
  raised .valueError (py "failed to open pull request: HTTP " ++ py (toString code))

/-- After a 422, which means that there is a pull request for this head. -/
def returnExisting (repo : PyStr) (branch : Json) (service : ω) : Except PyError PyStr × ω :=
  match branch.text rt with
  | .error e => (.error e, service)
  | .ok branch =>
      match findExistingPullRequest rt send repo branch service with
      | (.ok [], service) => (httpFailure 422, service)
      | found => found

/-- What is made of the answer to the `POST`. -/
def conclude (repo : PyStr) (branch : Json) : GitHubResponse → ω → Except PyError PyStr × ω
  | .answered data, service => (createdUrl rt data, service)
  | .httpError code, service =>
      if code = 422 then returnExisting rt send repo branch service
      else (httpFailure code, service)
  | .failed text, service =>
      (raised .valueError (py "failed to open pull request: " ++ text), service)

/-- What is sent, and for which branch. -/
def prepare (payload : Mapping) : Except PyError (PyStr × Mapping × Json) := do
  let repo ← githubCredentials env
  let body ← requestBody payload
  let branch ← item payload (py "branch")
  pure (repo, body, branch)

/-- `_open_github_pull_request`. -/
def openGithubPullRequest (payload : Mapping) (service : ω) : Except PyError PyStr × ω :=
  match prepare env payload with
  | .ok (repo, body, branch) =>
      let (response, service) := send (.create repo body) service
      conclude rt send repo branch response service
  | .error e => (.error e, service)

end GitHub

structure Pull where
  url : PyStr
  head : PyStr
  isOpen : Bool
deriving DecidableEq

/-- The pull requests of a repository, at most one of them open for a head. -/
@[ext] structure Forge where
  pulls : List Pull
  single : ∀ branch,
    (pulls.filter fun pull => pull.isOpen && decide (pull.head = branch)).length ≤ 1

namespace Forge

variable (forge : Forge)

def openPulls (branch : PyStr) : List Pull :=
  forge.pulls.filter fun pull => pull.isOpen && decide (pull.head = branch)

/-- The url of the next pull request. -/
def nextUrl (repo : PyStr) : PyStr :=
  py "https://github.com/" ++ repo ++ py "/pull/" ++ py (toString (forge.pulls.length + 1))

/-- A pull request for a head that has none. -/
def create (repo branch : PyStr) (h : forge.openPulls branch = []) : Forge where
  pulls := forge.pulls ++ [⟨forge.nextUrl repo, branch, true⟩]
  single := by
    intro b
    have hold := forge.single b
    rw [openPulls] at h
    rw [List.filter_append, List.length_append]
    by_cases hb : branch = b
    · subst hb
      simp [h]
    · simpa [List.filter_cons, hb] using hold

def pullJson (pull : Pull) : Json :=
  .obj [(py "html_url", .str pull.url), (py "state", .str (py "open"))]

/-- The service, as far as the tool depends on it. -/
def send : GitHubRequest → Forge → GitHubResponse × Forge
  | .create repo body, forge =>
      match Assoc.get body (py "head") with
      | some (.str branch) =>
          if h : forge.openPulls branch = [] then
            (.answered (pullJson ⟨forge.nextUrl repo, branch, true⟩), forge.create repo branch h)
          else (.httpError 422, forge)
      | _ => (.httpError 400, forge)
  | .openPulls repo head, forge =>
      (.answered (.arr ((forge.pulls.filter fun pull =>
        pull.isOpen && decide (GitHub.headLabel repo pull.head = head)).map pullJson)), forge)

end Forge

end SecureSdlc.Tools

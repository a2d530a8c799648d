import SecureSdlc.Tools.Builtin

/-!
The pull request tool, `tools/vcs.py`. Git and the pull request service are
functions of a repository `ρ`; the host keeps the argument vectors git was run
with. Credentials and transport are not modelled.
-/

namespace SecureSdlc.Tools

open Core

universe u

def protectedPathMarkers : List PyStr :=
  [py ".github/", py "contracts/", py "policies/", py "security/", py "infra/", py "specs/",
    py ".opencode/", py "docs/adr/", py "docs/roadmap.md", py "baseline.json",
    py "ARCHITECTURE_BASELINE.md"]

def openPrSchema : Schema :=
  .object true [py "branch", py "commit_message", py "paths"]
    [(py "branch", .string .free), (py "commit_message", .string (.minLength 1)),
      (py "paths", .array 1 (.string .free)), (py "base", .string .free),
      (py "title", .string .free), (py "body", .string .free)]

def openPrResult : Schema :=
  .object false [py "branch", py "commit", py "pr_url"]
    [(py "branch", .string .free), (py "commit", .string .free), (py "pr_url", .string .free)]

structure GitHost (ρ : Type u) where
  repo : ρ
  argvs : List (List PyStr) := []

/-- A computation that runs git. -/
def GitM (ρ : Type u) (α : Type) := GitHost ρ → Except PyError α × GitHost ρ

namespace GitM

variable {ρ : Type u} {α β : Type}

def done (a : α) : GitM ρ α := fun host => (.ok a, host)

def andThen (m : GitM ρ α) (f : α → GitM ρ β) : GitM ρ β := fun host =>
  match m host with
  | (.ok a, host) => f a host
  | (.error e, host) => (.error e, host)

def lift (x : Except PyError α) : GitM ρ α := fun host => (x, host)

end GitM

structure OpenPRTool (ρ : Type u) where
  root : Path
  git : List PyStr → ρ → Except PyError PyStr × ρ
  openPullRequest : Mapping → ρ → Except PyError PyStr × ρ

namespace OpenPRTool

variable {ρ : Type u} (rt : Runtime)

/-- `\d` of the regular expressions. -/
def isDecimal (c : CodePoint) : Bool := JsonText.isDigit c || rt.isDecimal c

/-- `[A-Z][A-Z0-9]*-\d+-` at the head of the text, and what follows it. -/
def afterId (s : PyStr) : Option PyStr :=
  match s with
  | [] => none
  | c :: _ =>
      if Contracts.isUpper c then
        match s.dropWhile fun c => Contracts.isUpper c || Contracts.isDigit c with
        | dash :: number =>
            if dash = cp '-' ∧ number.takeWhile (isDecimal rt) ≠ [] then
              match number.dropWhile (isDecimal rt) with
              | dash :: rest => if dash = cp '-' then some rest else none
              | [] => none
            else none
        | [] => none
      else none

/-- `[a-z0-9][a-z0-9-]*$`; the anchor also matches before a final newline. -/
def isSlug (s : PyStr) : Bool :=
  let body := if s.getLast? = some (cp '\n') then s.dropLast else s
  let plain (c : CodePoint) := Contracts.isLower c || Contracts.isDigit c
  match body with
  | [] => false
  | c :: rest => plain c && rest.all fun c => plain c || decide (c = cp '-')

/-- `BRANCH_PATTERN.match(branch)`. -/
def isBranch (s : PyStr) : Bool :=
  PyStr.startsWith s (py "feature/") &&
    match (afterId rt (s.drop 8)).bind (afterId rt) with
    | some slug => isSlug slug
    | none => false

/-- `_branch`. -/
def branch (s : PyStr) : Except PyError PyStr :=
  if isBranch rt s then .ok s
  else raised .valueError (py "branch must match feature/\x7bFEATURE_ID\x7d-\x7bTASK_ID\x7d-slug")

/-- `_confine`: the checks of the workspace writer, then forward slashes. -/
def confine (root : Path) (relativePath : PyStr) : Except PyError PyStr := do
  let _ ← WorkspaceWriter.target root relativePath
  pure (PyStr.replaceChar relativePath (cp '\\') (cp '/'))

/-- `_reject_protected`. -/
def rejectProtected : List PyStr → Except PyError Unit
  | [] => .ok ()
  | path :: rest =>
      match protectedPathMarkers.find? fun marker =>
          PyStr.hasSubstr (PyStr.replaceChar path (cp '\\') (cp '/')) marker with
      | some marker =>
          raised .valueError (py "PROTECTED_PR_PATH: " ++ path ++ py " touches protected zone " ++
            reprStr rt marker)
      | none => rejectProtected rest

/-- The items a `for` loop over the value yields, as strings. -/
def iterateTexts : Json → Except PyError (List PyStr)
  | .arr items => items.mapM (Json.text rt)
  | .str s => .ok (s.map fun c => [c])
  | .obj fields => .ok (fields.map Prod.fst)
  | _ => raised .typeError

def textAt (args : Mapping) (key : PyStr) : Except PyError PyStr :=
  match Assoc.get args key with
  | some v => v.text rt
  | none => raised .keyError key

/-- `str(args.get(key) or dflt)`. -/
def textOr (args : Mapping) (key : PyStr) (dflt : PyStr) : Except PyError PyStr :=
  match Assoc.get args key with
  | some v => if v.truthy then v.text rt else .ok dflt
  | none => .ok dflt

/-- The strings of `for path in args["paths"]`. -/
def pathTexts (args : Mapping) : Except PyError (List PyStr) :=
  match Assoc.get args (py "paths") with
  | some v => iterateTexts rt v
  | none => raised .keyError (py "paths")

/-- What the validation of the arguments leaves. -/
structure Request where
  branch : PyStr
  message : PyStr
  paths : List PyStr
  base : PyStr

/-- The part of `__call__` before git is run. -/
def validate (root : Path) (args : Mapping) : Except PyError Request := do
  let branchText ← textAt rt args (py "branch")
  let branch ← branch rt branchText
  let message ← textAt rt args (py "commit_message")
  if PyStr.strip message = [] then
    raised .valueError (py "commit_message must be non-empty")
  else do
    let texts ← pathTexts rt args
    let paths ← texts.mapM (confine root)
    if paths = [] then raised .valueError (py "paths must be non-empty")
    else do
      rejectProtected rt paths
      let base ← textOr rt args (py "base") (py "main")
      let base := if PyStr.strip base = [] then py "main" else PyStr.strip base
      pure ⟨branch, message, paths, base⟩

variable (tool : OpenPRTool ρ)

/-- `self._git(argv, self._root)`. -/
def runGit (argv : List PyStr) : GitM ρ PyStr := fun host =>
  let (out, repo) := tool.git argv host.repo
  (out, { repo, argvs := host.argvs ++ [argv] })

def openRequest (payload : Mapping) : GitM ρ PyStr := fun host =>
  let (out, repo) := tool.openPullRequest payload host.repo
  (out, { host with repo })

/-- `_switch`. -/
def switch (branch : PyStr) : GitM ρ PyStr :=
  (tool.runGit [py "branch", py "--list", branch]).andThen fun out =>
    if PyStr.strip out ≠ [] then tool.runGit [py "switch", branch]
    else tool.runGit [py "switch", py "-c", branch]

/-- `git add`, and `git commit` when something is staged. -/
def commitPaths (request : Request) : GitM ρ PyStr :=
  (tool.runGit ([py "add", py "--"] ++ request.paths)).andThen fun _ =>
    (tool.runGit [py "diff", py "--cached", py "--name-only"]).andThen fun out =>
      if PyStr.strip out ≠ [] then tool.runGit [py "commit", py "-m", request.message]
      else GitM.done []

/-- The title falls back to the first line of the message. -/
def pullRequest (request : Request) (args : Mapping) : Except PyError Mapping := do
  let title ← textOr rt args (py "title") ((PyStr.splitlines request.message).headD [])
  let body ← textOr rt args (py "body") []
  pure [(py "branch", .str request.branch), (py "base", .str request.base),
    (py "title", .str title), (py "body", .str body)]

/-- The part of `__call__` that runs git and opens the pull request. -/
def land (request : Request) (args : Mapping) : GitM ρ Mapping :=
  (tool.switch request.branch).andThen fun _ =>
    (tool.commitPaths request).andThen fun _ =>
      (tool.runGit [py "push", py "-u", py "origin", request.branch]).andThen fun _ =>
        (tool.runGit [py "rev-parse", py "HEAD"]).andThen fun head =>
          (GitM.lift (pullRequest rt request args)).andThen fun payload =>
            (tool.openRequest payload).andThen fun url =>
              GitM.done [(py "branch", .str request.branch),
                (py "commit", .str (PyStr.strip head)), (py "pr_url", .str url)]

/-- `__call__`. -/
def call (args : Mapping) : GitM ρ Mapping :=
  (GitM.lift (validate rt tool.root args)).andThen fun request => tool.land rt request args

end OpenPRTool

def openPrTool (rt : Runtime) {ρ : Type u} (tool : OpenPRTool ρ) : ToolSpec (GitHost ρ) where
  name := py "open_pr"
  scope := py "vcs"
  description := py "Create a feature branch, commit the given paths, push it, and open a " ++
    py "pull request against the base branch"
  argsSchema := Artifacts.schemaOf openPrSchema
  resultSchema := Artifacts.schemaOf openPrResult
  handler := tool.call rt

/-- How git reads the components of a path: without a `..` they stand for themselves. -/
structure DotDot where
  follow : List PyStr → Option Path
  plain : ∀ cs, Path.up ∉ cs → follow cs = some cs

/-- A `..` is a name like any other, and so names nothing. -/
def DotDot.literal : DotDot where
  follow := some
  plain := fun _ _ => rfl

/-- The changed files that `git add -- paths` stages: those at or under one of the
paths, without its empty and `.` components. -/
def staged (dots : DotDot) (changed : List Path) (paths : List PyStr) : List Path :=
  changed.filter fun file => paths.any fun p =>
    match dots.follow (Path.parts p) with
    | some q => decide (q <+: file)
    | none => false

end SecureSdlc.Tools

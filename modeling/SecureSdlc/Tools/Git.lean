import Mathlib.Logic.Function.Basic
import SecureSdlc.Tools.Vcs

/-!
Git as the pull request tool uses it, and `_run_git`. A history is linear, a commit is
the changes it records, and the index and the work tree are what differs from HEAD.
Switching keeps both. How git reads `..` and what it calls a commit are parameters. A
pathspec that names nothing is accepted, conflicts do not arise.
-/

namespace SecureSdlc.Tools

open Core

/-- A changed file, and what it has become. -/
abbrev Change (γ : Type) := Path × γ

structure Commit (γ : Type) where
  id : Nat
  message : PyStr
  changes : List (Change γ)
deriving DecidableEq

/-- Why a git process did not do its work. -/
inductive GitFailure where
  /-- A non-zero exit code. -/
  | exited (stderr : PyStr)
  /-- `OSError` or `SubprocessError`. -/
  | raised (text : PyStr)

/-- `_run_git`, for a process that has ended. -/
def gitOutput (argv : List PyStr) : Except GitFailure PyStr → Except PyError PyStr
  | .ok stdout => .ok stdout
  | .error (.exited stderr) =>
      raised .valueError (py "git " ++ PyStr.join (py " ") argv ++ py " failed: " ++
        PyStr.strip stderr)
  | .error (.raised text) => raised .valueError (py "git failed: " ++ text)

/-- The file is at or under one of the paths. -/
def DotDot.covers (dots : DotDot) (paths : List PyStr) (file : Path) : Bool :=
  paths.any fun p =>
    match dots.follow (Path.parts p) with
    | some q => decide (q <+: file)
    | none => false

/-- A clone with its remote; commits are numbered as they are made. -/
@[ext] structure Workspace (γ : Type) where
  branches : PyStr → Option (List (Commit γ))
  head : PyStr
  index : List (Change γ)
  edits : List (Change γ)
  remote : PyStr → Option (List (Commit γ))
  next : Nat
  headed : (branches head).isSome = true
  fresh : ∀ b history, branches b = some history → ∀ c ∈ history, c.id < next

namespace Workspace

variable {γ : Type} (w : Workspace γ)

def history (b : PyStr) : List (Commit γ) := (w.branches b).getD []

/-- The history a branch has, or would get from HEAD. -/
def start (b : PyStr) : List (Commit γ) := (w.branches b).getD (w.history w.head)

theorem id_lt_of_mem_history {b : PyStr} {c : Commit γ} (h : c ∈ w.history b) : c.id < w.next := by
  rw [history] at h
  cases hb : w.branches b with
  | none =>
      rw [hb] at h
      cases h
  | some history =>
      rw [hb] at h
      exact w.fresh b history hb c h

theorem id_lt_of_mem_start {b : PyStr} {c : Commit γ} (h : c ∈ w.start b) : c.id < w.next := by
  rw [start] at h
  cases hb : w.branches b with
  | none =>
      rw [hb] at h
      exact w.id_lt_of_mem_history h
  | some history =>
      rw [hb] at h
      exact w.fresh b history hb c h

/-- `git switch`, with `-c` for a branch that is not there. -/
def checkout (b : PyStr) : Workspace γ where
  __ := w
  branches := Function.update w.branches b (some (w.start b))
  head := b
  headed := by rw [Function.update_self, Option.isSome_some]
  fresh := by
    intro b' history hb' c hc
    rw [Function.update_apply] at hb'
    split at hb'
    · cases hb'
      exact w.id_lt_of_mem_start hc
    · exact w.fresh b' history hb' c hc

/-- `git add -- paths`. -/
def stage (dots : DotDot) (paths : List PyStr) : Workspace γ where
  __ := w
  index := (w.edits.filter fun change => dots.covers paths change.1).foldl
    (fun index change => Assoc.set index change.1 change.2) w.index
  edits := w.edits.filter fun change => !dots.covers paths change.1

/-- `git commit -m message`. -/
def record (message : PyStr) : Workspace γ where
  __ := w
  branches := Function.update w.branches w.head
    (some (w.history w.head ++ [⟨w.next, message, w.index⟩]))
  index := []
  next := w.next + 1
  headed := by rw [Function.update_self, Option.isSome_some]
  fresh := by
    intro b history hb c hc
    rw [Function.update_apply] at hb
    split at hb
    · cases hb
      rcases List.mem_append.mp hc with hold | hnew
      · exact Nat.lt_succ_of_lt (w.id_lt_of_mem_history hold)
      · rw [List.mem_singleton.mp hnew]
        exact Nat.lt_succ_self w.next
    · exact Nat.lt_succ_of_lt (w.fresh b history hb c hc)

/-- `git push -u origin b`. -/
def publish (b : PyStr) : Workspace γ where
  __ := w
  remote := Function.update w.remote b (w.branches b)

theorem history_checkout (b b' : PyStr) :
    (w.checkout b).history b' = if b' = b then w.start b else w.history b' := by
  simp only [history, checkout, Function.update_apply]
  split <;> rfl

@[simp] theorem history_stage (dots : DotDot) (paths : List PyStr) (b : PyStr) :
    (w.stage dots paths).history b = w.history b := rfl

theorem history_record (message b : PyStr) :
    (w.record message).history b =
      if b = w.head then w.history w.head ++ [⟨w.next, message, w.index⟩] else w.history b := by
  simp only [history, record, Function.update_apply]
  split <;> rfl

@[simp] theorem history_publish (b b' : PyStr) : (w.publish b).history b' = w.history b' := rfl

/-- The remote has nothing that the branch does not build on. -/
def FastForward (b : PyStr) : Prop :=
  ((w.remote b).getD []).map Commit.id <+: (w.history b).map Commit.id

instance (b : PyStr) : Decidable (w.FastForward b) := inferInstanceAs (Decidable (_ <+: _))

/-- `git diff --cached --name-only`. -/
def stagedNames : PyStr :=
  w.index.flatMap fun change => PyStr.join (py "/") change.1 ++ py "\n"

/-- Something is staged, as far as the tool can see. -/
def Dirty : Prop := PyStr.strip w.stagedNames ≠ []

instance : Decidable w.Dirty := inferInstanceAs (Decidable (_ ≠ _))

/-- `git branch --list b`. -/
def listBranch (b : PyStr) : PyStr :=
  if (w.branches b).isSome then (if b = w.head then py "* " else py "  ") ++ b ++ py "\n" else []

end Workspace

/-- The commands of the tool. -/
inductive GitCommand where
  | listBranch (b : PyStr)
  | switch (b : PyStr)
  | create (b : PyStr)
  | add (paths : List PyStr)
  | stagedNames
  | commit (message : PyStr)
  | push (b : PyStr)
  | revision

def GitCommand.parse : List PyStr → Option GitCommand
  | command :: a :: rest =>
      if command = py "add" ∧ a = py "--" then some (.add rest)
      else match rest with
        | [] =>
            if command = py "switch" then some (.switch a)
            else if command = py "rev-parse" ∧ a = py "HEAD" then some .revision
            else none
        | [b] =>
            if command = py "branch" ∧ a = py "--list" then some (.listBranch b)
            else if command = py "switch" ∧ a = py "-c" then some (.create b)
            else if command = py "commit" ∧ a = py "-m" then some (.commit b)
            else if command = py "diff" ∧ a = py "--cached" ∧ b = py "--name-only" then
              some .stagedNames
            else none
        | [b, c] =>
            if command = py "push" ∧ a = py "-u" ∧ b = py "origin" then some (.push c) else none
        | _ => none
  | _ => none

structure Git (γ : Type) where
  dots : DotDot
  /-- What names the last commit of a history. -/
  revision : List (Commit γ) → PyStr

namespace Git

variable {γ : Type} (git : Git γ)

def exec (w : Workspace γ) : GitCommand → Except GitFailure PyStr × Workspace γ
  | .listBranch b => (.ok (w.listBranch b), w)
  | .switch b =>
      if (w.branches b).isSome then (.ok [], w.checkout b)
      else (.error (.exited (py "fatal: invalid reference: " ++ b)), w)
  | .create b =>
      if (w.branches b).isSome then
        (.error (.exited (py "fatal: a branch named '" ++ b ++ py "' already exists")), w)
      else (.ok [], w.checkout b)
  | .add paths => (.ok [], w.stage git.dots paths)
  | .stagedNames => (.ok w.stagedNames, w)
  | .commit message =>
      if w.index = [] then (.error (.exited []), w) else (.ok [], w.record message)
  | .push b =>
      if (w.branches b).isSome ∧ w.FastForward b then (.ok [], w.publish b)
      else (.error (.exited (py "error: failed to push some refs")), w)
  | .revision => (.ok (git.revision (w.history w.head) ++ py "\n"), w)

def run (argv : List PyStr) (w : Workspace γ) : Except GitFailure PyStr × Workspace γ :=
  match GitCommand.parse argv with
  | some command => git.exec w command
  | none => (.error (.exited []), w)

end Git

/-- The tool in a workspace, beside the state of the pull request service. Some argument
vectors may find git out of order; it has no effect then. -/
def workspaceTool {γ ω : Type} (git : Git γ) (root : Path)
    (down : List PyStr → Option GitFailure)
    (opener : Mapping → ω → Except PyError PyStr × ω) : OpenPRTool (Workspace γ × ω) where
  root
  git := fun argv world =>
    match down argv with
    | some failure => (gitOutput argv (.error failure), world)
    | none =>
        let (out, w) := git.run argv world.1
        (gitOutput argv out, (w, world.2))
  openPullRequest := fun payload world =>
    let (out, service) := opener payload world.2
    (out, (world.1, service))

end SecureSdlc.Tools

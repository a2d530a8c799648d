import SecureSdlc.Tools.Vcs

/-!
The allowlisted command runner, `tools/commands.py`. The programs are a parameter: what a
process does to the files, how it exits and what it prints. The shell keeps the processes that
were asked for.
-/

namespace SecureSdlc.Tools

open Core Artifacts

def defaultAllowedPrograms : List PyStr :=
  [py "ruff", py "mypy", py "pytest", py "opa", py "gofmt", py "go"]

def maxOutputChars : Nat := 20000

def runSchema : Schema :=
  .object true [py "argv"] [(py "argv", .array 1 (.string .free)), (py "cwd", .string .free)]

def runResult : Schema :=
  .object false [py "exit_code", py "stdout", py "stderr", py "truncated"]
    [(py "exit_code", .integer none), (py "stdout", .string .free), (py "stderr", .string .free),
      (py "truncated", .boolean)]

/-- What `subprocess.run` is asked for. -/
structure Launch where
  argv : List PyStr
  cwd : Path
  deriving DecidableEq

structure Completed where
  returncode : Int
  stdout : Option PyStr
  stderr : Option PyStr

/-- The files of the host, and the processes that were asked for. -/
structure Shell where
  fs : FileSystem
  launched : List Launch := []

structure CommandRunner where
  root : Path
  allowlist : List PyStr := defaultAllowedPrograms
  run : Launch → FileSystem → Except PyError Completed × FileSystem

namespace CommandRunner

variable (runner : CommandRunner)

def validate (argv : List PyStr) : Except PyError Unit :=
  match argv with
  | [] => raised .valueError (py "argv must be a non-empty list of strings")
  | program :: _ =>
      if program.contains (cp '/') ∨ program.contains (cp '\\') then
        raised .valueError (py "program must be a bare name on the allowlist")
      else if program ∉ runner.allowlist then
        raised .valueError (py "program not allowed: " ++ program)
      else if argv.any fun item => item.contains (codePoint 0) then
        raised .valueError (py "argv must not contain NUL")
      else .ok ()

def resolveCwd (fs : FileSystem) (cwd : PyStr) : Except PyError Path :=
  if cwd = [] ∨ cwd = py "." then .ok runner.root
  else if WorkspaceWriter.startsAbsolute cwd ∨ Path.up ∈ Path.parts cwd then
    raised .valueError (py "cwd must be relative to the workspace root")
  else if Path.osAccepts cwd then
    let target := Path.join runner.root cwd
    if runner.root <+: target then
      if fs.isDir target then .ok target
      else raised .valueError (py "cwd is not a directory")
    else raised .valueError (py "cwd escapes the workspace root")
  else raised (pathError cwd)

def report (completed : Completed) : Mapping :=
  let stdout := completed.stdout.getD []
  let stderr := completed.stderr.getD []
  [(py "exit_code", .int completed.returncode),
    (py "stdout", .str (stdout.take maxOutputChars)),
    (py "stderr", .str (stderr.take maxOutputChars)),
    (py "truncated", .bool (decide (maxOutputChars < stdout.length ∨
      maxOutputChars < stderr.length)))]

def execute (argv : List PyStr) (cwd : PyStr) (shell : Shell) : Except PyError Mapping × Shell :=
  match runner.validate argv with
  | .error e => (.error e, shell)
  | .ok _ =>
      match runner.resolveCwd shell.fs cwd with
      | .error e => (.error e, shell)
      | .ok cwd =>
          let (completed, fs) := runner.run ⟨argv, cwd⟩ shell.fs
          (completed.map report, ⟨fs, shell.launched ++ [⟨argv, cwd⟩]⟩)

end CommandRunner

variable (rt : Runtime) (runner : CommandRunner)

/-- The strings of `args["argv"]`. -/
def argvTexts (args : Mapping) : Except PyError (List PyStr) :=
  match Assoc.get args (py "argv") with
  | some v => OpenPRTool.iterateTexts rt v
  | none => raised .keyError (py "argv")

/-- `str(args.get("cwd", ""))` -/
def cwdText (args : Mapping) : Except PyError PyStr :=
  match Assoc.get args (py "cwd") with
  | some v => v.text rt
  | none => .ok []

/-- `_run_handler`. -/
def runHandler (args : Mapping) (shell : Shell) : Except PyError Mapping × Shell :=
  match argvTexts rt args with
  | .error e => (.error e, shell)
  | .ok argv =>
      match cwdText rt args with
      | .error e => (.error e, shell)
      | .ok cwd => runner.execute argv cwd shell

def runTestsTool : ToolSpec Shell where
  name := py "run_tests"
  scope := py "workspace"
  description := py "Run an allowlisted repository check (pytest/ruff/mypy/opa) via explicit argv"
  argsSchema := schemaOf runSchema
  resultSchema := schemaOf runResult
  handler := runHandler rt runner

end SecureSdlc.Tools

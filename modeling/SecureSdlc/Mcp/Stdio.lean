import SecureSdlc.Core.Run
import SecureSdlc.Mcp.Bootstrap
import SecureSdlc.Mcp.Server

/-!
The stdio loop of the bridge, `serve_stdio` of `cli.py`, and the streams that it serves:
`_force_utf8` switches those over bytes to UTF-8 with replacement characters and leaves a
`StringIO` as it is. A stream that refuses to be switched is left out. The exception of the
fallback response, if it raises one, ends the loop.
-/

namespace SecureSdlc.Mcp

open Core Runner Tools

universe u

/-- A stream of text after `_force_utf8`: over bytes, or without `reconfigure`. -/
inductive Stream where
  | utf8
  | text

/-- A line with its line end, as it stands in the stream. -/
inductive Line where
  | bytes (data : Bytes)
  | text (s : PyStr)

/-- What the stream yields of a line. -/
def Line.read : Line → PyStr
  | .bytes data => Utf8.decodeReplace data
  | .text s => s

/-- `stream.write(s)` -/
def Stream.write : Stream → PyStr → Line
  | .utf8, s => .bytes (Utf8.encodeReplace s)
  | .text, s => .text s

/-- The arguments of `serve_stdio` but the input. -/
structure Bridge (σ : Type u) where
  server : MCPServer σ
  capabilities : RunRegistry
  tools : ToolRegistry σ
  runId : PyStr
  stdout : Stream

/-- A line, when the bridge reads the clock for it and when the server does. -/
structure Input where
  line : Line
  issued : Int
  clock : Clock

structure Stdio (σ : Type u) where
  session : Session σ
  written : List Line := []
  died : Option PyError := none

variable (rt : Runtime) {σ : Type u} (bridge : Bridge σ)

/-- The body of the `try` statement. -/
def Bridge.attempt (stripped : PyStr) (input : Input) (session : Session σ) :
    Except PyError PyStr × Session σ :=
  match injectCapability rt bridge.capabilities bridge.tools bridge.runId stripped input.issued with
  | .error e => (.error e, session)
  | .ok bridged => bridge.server.handleLine rt bridged input.clock session

def internalErrorResponse : Except PyError PyStr :=
  JsonText.dumps rt {} (.obj (error .null internalError (py "internal error")))

/-- The response to a line that is not blank, with its `except` clause. -/
def Bridge.respond (stripped : PyStr) (input : Input) (session : Session σ) :
    Except PyError PyStr × Session σ :=
  match bridge.attempt rt stripped input session with
  | (.ok response, session) => (.ok response, session)
  | (.error _, session) => (internalErrorResponse rt, session)

/-- One turn of the loop. -/
def Bridge.serveLine (state : Stdio σ) (input : Input) : Stdio σ :=
  if state.died.isSome then state
  else
    let stripped := PyStr.strip input.line.read
    if stripped = [] then state
    else
      match bridge.respond rt stripped input state.session with
      | (.ok response, session) =>
          { state with
            session, written := state.written ++ [bridge.stdout.write (response ++ py "\n")] }
      | (.error e, session) => { state with session, died := some e }

/-- The loop over the lines of the input. -/
def Bridge.serveStdio (host : Host σ) (inputs : List Input) : Stdio σ :=
  run (bridge.serveLine rt) { session := { host } } inputs

end SecureSdlc.Mcp

import SecureSdlc.Core.JsonText

/-!
The JSON-RPC 2.0 messages of the bridge, `mcp/protocol.py`. The client's `request` is
left out.
-/

namespace SecureSdlc.Mcp

open Core

def jsonrpcVersion : PyStr := py "2.0"

def parseError : Int := -32700
def invalidRequest : Int := -32600
def methodNotFound : Int := -32601
def invalidParams : Int := -32602
def internalError : Int := -32603

/-- A response: its version, the id of its request and one member more. -/
def envelope (requestId : Json) (key : PyStr) (value : Json) : Mapping :=
  [(py "jsonrpc", .str jsonrpcVersion), (py "id", requestId), (key, value)]

def result (requestId : Json) (payload : Mapping) : Mapping :=
  envelope requestId (py "result") (.obj payload)

def error (requestId : Json) (code : Int) (message : PyStr) : Mapping :=
  envelope requestId (py "error") (.obj [(py "code", .int code), (py "message", .str message)])

/-- `parse_line`; only `JSONDecodeError` is caught. -/
def parseLine (rt : Runtime) (line : PyStr) : Except PyError (Option Mapping) :=
  match JsonText.loads rt line with
  | .ok (.obj message) => .ok (some message)
  | .ok _ => .ok none
  | .error e => if e.kind = .jsonDecodeError then .ok none else .error e

end SecureSdlc.Mcp

import SecureSdlc.Core.JsonText

/-!
Scoped capability tokens, `runner/capability.py`. Decoding may raise: signing
encodes the payload part as ASCII, and `hmac.compare_digest` refuses strings
outside ASCII.
-/

namespace SecureSdlc.Runner

open Core

def tokenVersion : PyStr := py "v1"

def capabilityValid : PyStr := py "CAPABILITY_VALID"
def reasonMalformedToken : PyStr := py "MALFORMED_TOKEN"
def reasonSignatureInvalid : PyStr := py "SIGNATURE_INVALID"
def reasonRunUnknown : PyStr := py "RUN_UNKNOWN"
def reasonRunFinished : PyStr := py "RUN_FINISHED"
def reasonCapabilityExpired : PyStr := py "CAPABILITY_EXPIRED"
def reasonToolMismatch : PyStr := py "TOOL_NOT_ALLOWED"
def reasonScopeMismatch : PyStr := py "SCOPE_MISMATCH"

structure Capability where
  runId : PyStr
  tool : PyStr
  scope : PyStr
  expiresAt : Int
deriving DecidableEq

structure CapabilityCheck where
  valid : Bool
  reason : PyStr
  runId : Option PyStr := none
  tool : Option PyStr := none
  scope : Option PyStr := none
deriving DecidableEq

structure DecodeResult where
  capability : Option Capability
  error : Option PyStr
deriving DecidableEq

def DecodeResult.failed (reason : PyStr) : DecodeResult := ⟨none, some reason⟩

variable (rt : Runtime) (secret : Bytes)

def sign (signingInput : PyStr) : Except PyError PyStr :=
  match PyStr.encodeAscii signingInput with
  | some data => .ok (Base64.encode (rt.hmacSha256 secret data))
  | none => .error { kind := .unicodeEncodeError }

def signingInput (encoded : PyStr) : PyStr := tokenVersion ++ py "." ++ encoded

def Capability.payload (c : Capability) : Json :=
  .obj [(py "run_id", .str c.runId), (py "tool", .str c.tool), (py "scope", .str c.scope),
    (py "exp", .int c.expiresAt)]

/-- `sort_keys=True, separators=(",", ":")`. -/
def payloadStyle : JsonText.Style :=
  { sortKeys := true, itemSeparator := py ",", keySeparator := py ":" }

def issueToken (capability : Capability) : Except PyError PyStr := do
  let text ← JsonText.dumps rt payloadStyle capability.payload
  match PyStr.encodeUtf8 text with
  | none => .error { kind := .unicodeEncodeError }
  | some raw =>
      let signing := signingInput (Base64.encode raw)
      let signature ← sign rt secret signing
      pure (signing ++ py "." ++ signature)

/-- `hmac.compare_digest(expected, given)` of two strings. -/
def compareDigest (expected given : PyStr) : Except PyError Bool :=
  if PyStr.isAscii expected && PyStr.isAscii given then .ok (decide (expected = given))
  else .error { kind := .typeError }

/-- The capability a decoded payload carries; a boolean is no `exp`. -/
def capabilityOf (decoded : Json) : Option Capability :=
  match decoded.get? (py "run_id"), decoded.get? (py "tool"), decoded.get? (py "scope"),
      decoded.get? (py "exp") with
  | some (.str runId), some (.str tool), some (.str scope), some (.int exp) =>
      some ⟨runId, tool, scope, exp⟩
  | _, _, _, _ => none

/-- The payload part of a token whose signature holds. -/
def decodePayload (encoded : PyStr) : Except PyError DecodeResult :=
  match Base64.decode encoded with
  | none => .ok (.failed reasonMalformedToken)
  | some raw =>
      match JsonText.loadsBytes rt raw with
      | .error e => if e.isValueError then .ok (.failed reasonMalformedToken) else .error e
      | .ok decoded =>
          match capabilityOf decoded with
          | some capability => .ok ⟨some capability, none⟩
          | none => .ok (.failed reasonMalformedToken)

def decodeToken (token : PyStr) : Except PyError DecodeResult :=
  match PyStr.split token (cp '.') with
  | [version, encoded, signature] =>
      if version ≠ tokenVersion ∨ encoded = [] ∨ signature = [] then
        .ok (.failed reasonMalformedToken)
      else do
        let expected ← sign rt secret (signingInput encoded)
        let same ← compareDigest expected signature
        if same then decodePayload rt encoded else pure (.failed reasonSignatureInvalid)
  | _ => .ok (.failed reasonMalformedToken)

end SecureSdlc.Runner

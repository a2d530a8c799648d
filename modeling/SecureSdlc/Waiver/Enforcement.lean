import SecureSdlc.Core.Python

/-!
Waiver rules of the control plane, `waiver/enforcement.py`. A waiver is any
mapping with JSON values; reading a member of a value that is not a mapping raises
`AttributeError`, and `str` of a member may raise as well.
-/

namespace SecureSdlc.Waiver

open Core

inductive Reason where
  | agentMayNotCreate
  | agentMayNotApprove
  | approverNotSecurityReviewer
  | approverIsRiskOwner
  | expiresBeforeCreated
  | severityNotWaivable
  | waiverExpired
  | waiverRevoked
  | waiverMissing
  | criticalNeverWaived
  | highNeverWaived
  | invalidWaiver
deriving DecidableEq, Repr

def Reason.code : Reason → PyStr
  | .agentMayNotCreate => py "AGENT_MAY_NOT_CREATE"
  | .agentMayNotApprove => py "AGENT_MAY_NOT_APPROVE"
  | .approverNotSecurityReviewer => py "APPROVER_NOT_SECURITY_REVIEWER"
  | .approverIsRiskOwner => py "APPROVER_IS_RISK_OWNER"
  | .expiresBeforeCreated => py "EXPIRES_BEFORE_CREATED"
  | .severityNotWaivable => py "SEVERITY_NOT_WAIVABLE"
  | .waiverExpired => py "WAIVER_EXPIRED"
  | .waiverRevoked => py "WAIVER_REVOKED"
  | .waiverMissing => py "WAIVER_MISSING"
  | .criticalNeverWaived => py "CRITICAL_NEVER_WAIVED"
  | .highNeverWaived => py "HIGH_NEVER_WAIVED"
  | .invalidWaiver => py "INVALID_WAIVER"

def securityReviewerRole : PyStr := py "security-reviewer"

structure WaiverCheck where
  valid : Bool
  state : PyStr
  reasonCodes : List Reason
deriving DecidableEq

structure BlockDecision where
  blocked : Bool
  reasonCodes : List Reason
deriving DecidableEq, Repr

variable (rt : Runtime)

/-- `parse_timestamp`: a naive moment is taken to be in UTC. -/
def parseTimestamp (value : PyStr) : Except PyError Datetime :=
  let text := PyStr.strip value
  let text := if PyStr.endsWith text (py "Z") then text.dropLast ++ py "+00:00" else text
  match rt.fromisoformat text with
  | some parsed => .ok parsed.asUtc
  | none => .error { kind := .valueError }

def isWaivable (severity : PyStr) : Bool := decide (severity = py "medium")

/-- `str(waiver.get(key, dflt))`. -/
def textOr (waiver : Mapping) (key dflt : PyStr) : Except PyError PyStr :=
  match Assoc.get waiver key with
  | some v => v.text rt
  | none => .ok dflt

/-- `waiver.get(key) or {}`. -/
def memberOrEmpty (waiver : Mapping) (key : PyStr) : Json :=
  match Assoc.get waiver key with
  | some v => if v.truthy then v else .obj []
  | none => .obj []

/-- `party.get(key) == text`. -/
def partyHas (party : Json) (key text : PyStr) : Except PyError Bool :=
  match party with
  | .obj fields => .ok <| match Assoc.get fields key with
      | some (.str s) => decide (s = text)
      | _ => false
  | _ => .error { kind := .attributeError }

/-- `parse_timestamp(str(waiver[key]))`. -/
def timestampAt (waiver : Mapping) (key : PyStr) : Except PyError Datetime :=
  match Assoc.get waiver key with
  | some v => do parseTimestamp rt (← v.text rt)
  | none => .error { kind := .keyError }

/-- `except (KeyError, ValueError)`. -/
def caught (e : PyError) : Bool := decide (e.kind = .keyError) || e.isValueError

def timeReasons (waiver : Mapping) : Except PyError (List Reason) :=
  let times := do
    let createdAt ← timestampAt rt waiver (py "created_at")
    let expiresAt ← timestampAt rt waiver (py "expires_at")
    pure (createdAt, expiresAt)
  match times with
  | .ok (createdAt, expiresAt) =>
      .ok (if expiresAt.instant ≤ createdAt.instant then [.expiresBeforeCreated] else [])
  | .error e => if caught e then .ok [.invalidWaiver] else .error e

def validateWaiver (waiver : Mapping) : Except PyError (List Reason) := do
  let severity ← textOr rt waiver (py "severity") []
  let createdBy := memberOrEmpty waiver (py "created_by")
  let approvedBy := memberOrEmpty waiver (py "approved_by")
  let owner := memberOrEmpty waiver (py "owner")
  let creatorHuman ← partyHas createdBy (py "type") (py "human")
  let approverHuman ← partyHas approvedBy (py "type") (py "human")
  let approverReviews ← partyHas approvedBy (py "role") securityReviewerRole
  let ownerReviews ← if approverReviews then partyHas owner (py "role") securityReviewerRole
    else pure false
  let times ← timeReasons rt waiver
  pure ((if isWaivable severity then [] else [.severityNotWaivable])
    ++ (if creatorHuman then [] else [.agentMayNotCreate])
    ++ (if approverHuman then [] else [.agentMayNotApprove])
    ++ (if approverReviews then (if ownerReviews then [.approverIsRiskOwner] else [])
      else [.approverNotSecurityReviewer])
    ++ times)

def waiverState (waiver : Mapping) (now : Datetime) : Except PyError PyStr := do
  let status ← textOr rt waiver (py "status") (py "active")
  if status ≠ py "active" then pure status
  else
    match timestampAt rt waiver (py "expires_at") with
    | .ok expiresAt =>
        pure (if expiresAt.instant ≤ now.asUtc.instant then py "expired" else py "active")
    | .error e => if caught e then pure (py "invalid") else .error e

def checkWaiver (waiver : Mapping) (now : Datetime) : Except PyError WaiverCheck := do
  let reasons ← validateWaiver rt waiver
  let state ← waiverState rt waiver now
  let reasons := reasons ++
    (if state = py "expired" then [.waiverExpired]
      else if state = py "revoked" then [.waiverRevoked]
      else if state ≠ py "active" then [.invalidWaiver]
      else [])
  pure ⟨reasons.isEmpty, state, reasons⟩

/-- The waivers whose `str(waiver.get("risk_id", ""))` is the given id. -/
def matchingWaivers (riskId : PyStr) : List Mapping → Except PyError (List Mapping)
  | [] => .ok []
  | waiver :: rest => do
      let id ← textOr rt waiver (py "risk_id") []
      let others ← matchingWaivers riskId rest
      pure (if id = riskId then waiver :: others else others)

/-- The loop over the matching waivers, with the reasons collected so far. -/
def firstInForce (now : Datetime) (collected : List Reason) :
    List Mapping → Except PyError BlockDecision
  | [] => .ok ⟨true, collected.eraseDups⟩
  | waiver :: rest => do
      let check ← checkWaiver rt waiver now
      if check.valid then pure ⟨false, []⟩
      else firstInForce now (collected ++ check.reasonCodes) rest

def evaluateRisk (riskId severity : PyStr) (waivers : List Mapping) (now : Datetime) :
    Except PyError BlockDecision :=
  if severity = py "critical" then .ok ⟨true, [.criticalNeverWaived]⟩
  else if severity = py "high" then .ok ⟨true, [.highNeverWaived]⟩
  else if severity = py "low" then .ok ⟨false, []⟩
  else if severity ≠ py "medium" then .ok ⟨true, [.severityNotWaivable]⟩
  else do
    let matching_ ← matchingWaivers rt riskId waivers
    if matching_.isEmpty then pure ⟨true, [.waiverMissing]⟩
    else firstInForce rt now [] matching_

end SecureSdlc.Waiver

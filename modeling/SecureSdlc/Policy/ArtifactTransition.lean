import SecureSdlc.Core.Rego

/-!
The artifact transition gate, `policies/artifact_transition.rego`, rule by rule,
and the input that `policy/artifact_transition.py` builds for it. The transport to
the engine is not part of this module.
-/

namespace SecureSdlc.Policy.ArtifactTransition

open Core Core.Rego

def approvalStatuses : List PyStr := [py "approved", py "done"]

def blockingSeverities : List PyStr := [py "critical", py "high"]

def statuses : List (PyStr × List PyStr) :=
  [(py "specification",
      [py "draft", py "in_review", py "approved", py "rejected", py "superseded"]),
    (py "threat-model",
      [py "draft", py "in_review", py "approved", py "rejected", py "superseded"]),
    (py "plan", [py "draft", py "approved", py "superseded"]),
    (py "task",
      [py "todo", py "in_progress", py "implemented", py "in_review", py "done", py "blocked"]),
    (py "waiver", [py "active", py "expired", py "revoked"])]

def lifecycles : List (PyStr × List (PyStr × List PyStr)) :=
  [(py "specification",
      [(py "draft", [py "in_review", py "superseded"]),
        (py "in_review", [py "approved", py "rejected"]),
        (py "approved", [py "superseded"]),
        (py "rejected", [py "draft", py "superseded"])]),
    (py "threat-model",
      [(py "draft", [py "in_review", py "superseded"]),
        (py "in_review", [py "approved", py "rejected"]),
        (py "approved", [py "superseded"]),
        (py "rejected", [py "draft", py "superseded"])]),
    (py "plan",
      [(py "draft", [py "approved", py "superseded"]),
        (py "approved", [py "superseded"])]),
    (py "task",
      [(py "todo", [py "in_progress", py "blocked"]),
        (py "in_progress", [py "implemented", py "blocked"]),
        (py "implemented", [py "in_review", py "blocked"]),
        (py "in_review", [py "done", py "implemented", py "blocked"]),
        (py "blocked", [py "todo", py "in_progress"]),
        (py "done", [])]),
    (py "waiver",
      [(py "active", [py "expired", py "revoked"]),
        (py "expired", []),
        (py "revoked", [])])]

/-- `table[ref]` for a table keyed by strings. -/
def lookup {α : Type} (table : List (PyStr × α)) : Json → Option α
  | .str s => Assoc.get table s
  | _ => none

variable (opa : Engine) (input : Json)

def artifactType : Option Json := field (some input) (py "artifact_type")

def fromStatus : Option Json := field (some input) (py "from_status")

def toStatus : Option Json := field (some input) (py "to_status")

def actorType : Option Json := field (field (some input) (py "actor")) (py "type")

def findings : Option Json := objectGet input (py "findings") (.arr [])

def waivers : Option Json := objectGet input (py "waivers") (.arr [])

/-- `lifecycles[input.artifact_type]`. -/
def lifecycle : Option (List (PyStr × List PyStr)) :=
  (artifactType input).bind (lookup lifecycles)

inductive DenyReason where
  | agentMayNotApprove
  | blockingFinding
  | illegalTransition
  | unknownArtifactType
  | unknownStatus
  | unresolvedMedium
deriving DecidableEq, Repr

def DenyReason.code : DenyReason → PyStr
  | .agentMayNotApprove => py "AGENT_MAY_NOT_APPROVE"
  | .blockingFinding => py "BLOCKING_FINDING"
  | .illegalTransition => py "ILLEGAL_TRANSITION"
  | .unknownArtifactType => py "UNKNOWN_ARTIFACT_TYPE"
  | .unknownStatus => py "UNKNOWN_STATUS"
  | .unresolvedMedium => py "UNRESOLVED_MEDIUM"

/-- `not statuses[input.artifact_type][input.x]`, below `lifecycles[input.artifact_type]`. -/
def statusUnknown (status : Option Json) : Bool :=
  (lifecycle input).isSome &&
    opa.absent status fun s =>
      ((artifactType input).bind (lookup statuses)).any fun known => inSet known s

def waiverIsUnexpired (waiver : Json) : Bool :=
  match field (some input) (py "now"), field (some waiver) (py "expires_at") with
  | some (.str now), some (.str expires) =>
      match opa.parseRfc3339Ns now, opa.parseRfc3339Ns expires with
      | some n, some e => decide (n < e)
      | _, _ => false
  | _, _ => false

def mediumIsWaived (riskId : Json) : Bool :=
  (elements (waivers input)).any fun waiver =>
    (field (some waiver) (py "risk_id")).any (opa.eq · riskId) &&
      isText (field (some waiver) (py "severity")) (py "medium") &&
      isText (field (some waiver) (py "status")) (py "active") &&
      waiverIsUnexpired opa input waiver

/-- The bodies of the `deny_reasons` rules; `UNKNOWN_STATUS` has two. -/
def fires : DenyReason → Bool
  | .unknownArtifactType =>
      opa.absent (artifactType input) fun t => (lookup lifecycles t).isSome
  | .unknownStatus =>
      statusUnknown opa input (fromStatus input) || statusUnknown opa input (toStatus input)
  | .illegalTransition =>
      ((lifecycle input).getD []).any fun entry =>
        isText (fromStatus input) entry.1 &&
          opa.absent (toStatus input) fun target => inSet entry.2 target
  | .agentMayNotApprove =>
      isText (actorType input) (py "agent") && (toStatus input).any (inSet approvalStatuses)
  | .blockingFinding =>
      (elements (findings input)).any fun finding =>
        (field (some finding) (py "severity")).any (inSet blockingSeverities)
  | .unresolvedMedium =>
      (elements (findings input)).any fun finding =>
        isText (field (some finding) (py "severity")) (py "medium") &&
          opa.absent (field (some finding) (py "risk_id")) (mediumIsWaived opa input)

def denyReasons : List DenyReason :=
  [.agentMayNotApprove, .blockingFinding, .illegalTransition, .unknownArtifactType,
    .unknownStatus, .unresolvedMedium].filter (fires opa input)

def decision : Decision := Decision.of ((denyReasons opa input).map DenyReason.code)

/-- `build_transition_input`; empty findings and waivers are left out. -/
def buildTransitionInput (artifactType fromStatus toStatus : PyStr)
    (actor : List (PyStr × Json)) (now : Option PyStr)
    (findings waivers : List (List (PyStr × Json))) : Json :=
  .obj ([(py "artifact_type", .str artifactType), (py "from_status", .str fromStatus),
      (py "to_status", .str toStatus), (py "actor", .obj actor)]
    ++ (match now with
      | some text => [(py "now", .str text)]
      | none => [])
    ++ (if findings.isEmpty then [] else [(py "findings", .arr (findings.map .obj))])
    ++ (if waivers.isEmpty then [] else [(py "waivers", .arr (waivers.map .obj))]))

end SecureSdlc.Policy.ArtifactTransition

import SecureSdlc.Contracts.Events

/-!
The external REST contract, `contracts/openapi/requests.yaml`: the responses of each
operation by their status, with the schema of a body that has one, and the bodies that are
taken. `format` is asserted here, as for the events.
-/

namespace SecureSdlc.Contracts

open Core

abbrev requestStatus : Schema :=
  oneOf ["created", "triaged", "in_progress", "resolved", "closed", "cancelled"]

/-- `components.schemas.Request` -/
def requestSchema : Schema :=
  closed [("id", uuid), ("title", nonEmpty), ("status", requestStatus), ("created_at", dateTime)] []

/-- `components.schemas.RequestList` -/
def requestListSchema : Schema := closed [("requests", listOf requestSchema)] []

/-- `minLength` and `maxLength` of a string. -/
def boundedText (minLength maxLength : Nat) : Schema :=
  .string (.pattern fun s => decide (minLength ≤ s.length) && decide (s.length ≤ maxLength))

/-- `components.schemas.CreateRequest` -/
def createRequestSchema : Schema :=
  closed [("title", boundedText 1 200)] [("description", boundedText 0 4000)]

/-- `components.schemas.UpdateRequestStatus` -/
def updateRequestStatusSchema : Schema := closed [("status", requestStatus)] []

/-- The responses of an operation. -/
abbrev Responses := List (Nat × Option Schema)

def listRequestsResponses : Responses := [(200, some requestListSchema), (400, none), (401, none)]

def createRequestResponses : Responses := [(201, some requestSchema), (400, none), (401, none)]

def getRequestResponses : Responses := [(200, some requestSchema), (401, none), (404, none)]

def updateRequestStatusResponses : Responses :=
  [(200, some requestSchema), (400, none), (401, none), (403, none), (404, none), (409, none)]

end SecureSdlc.Contracts

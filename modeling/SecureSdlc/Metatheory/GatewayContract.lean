import SecureSdlc.Metatheory.ApiContract

/-!
When the gateway leaves its contract, over each store. The in-memory store fails on an id
that it has; the database also fails on text with NUL, on an id that is no `UUID`, and on an
event id that it has.
-/

namespace SecureSdlc.Domain

open Core GoText

namespace MemoryStore

/-- The calls whose replies are outside the contract. -/
def Refuses (m : MemoryStore) : Operation → Prop
  | .createRequest input _ requestID _ =>
      input.subject = "" ∨ Assoc.get m.requests requestID ≠ none
  | .getRequest input => trimSpace input.requestId = "" ∨ trimSpace input.actorSubject = ""
  | .updateRequestStatus _ _ _ | .listRequests _ => False

variable {m : MemoryStore}

end MemoryStore

namespace PostgresStore

variable {C : OrderedColumns}

/-- The table has a row under the id that the text denotes. -/
def Has {ρ : Type} (table : List (C.Uuid × ρ)) (id : String) : Prop :=
  ∃ uuid, C.castUuid id = some uuid ∧ Assoc.get table uuid ≠ none

/-- The calls whose replies are outside the contract. -/
def Refuses (p : PostgresStore C.toColumns) : Operation → Prop
  | .createRequest input _ requestID eventID =>
      input.subject = "" ∨
        [trimSpace input.title, input.description, input.subject].any hasNul = true ∨
        Has p.requests requestID ∨ Has p.outbox eventID
  | .getRequest input =>
      trimSpace input.requestId = "" ∨ trimSpace input.actorSubject = "" ∨
        C.castUuid (trimSpace input.requestId) = none
  | .updateRequestStatus input _ eventID =>
      ∃ id newStatus, Service.checkUpdate input = .ok (id, newStatus) ∧
        (C.castUuid id = none ∨ Has p.outbox eventID ∧
          ∃ current, Service.decideUpdate newStatus (p.getRequest id) = .ok current)
  | .listRequests input =>
      ∃ filter, Service.listFilter input = .ok filter ∧
        [filter.status, filter.subject].any hasNul = true

variable {p : PostgresStore C.toColumns}

end PostgresStore

end SecureSdlc.Domain

namespace SecureSdlc.Gateway

open Core GoText GoJson Domain Contracts

section Outside

variable {verify : String → Except String Identity} {request : HttpRequest} {draws : Draws}
  {endpoint : Endpoint} {op : Operation}

end Outside

/-- A token that is the subject of a plain user. -/
def subjectToken (raw : String) : Except String Identity := .ok ⟨raw, []⟩

/-- A request of alice under the first id. -/
def aliceCreates : Exchange :=
  (⟨"POST", ["requests"], [], "Bearer alice",
    encode (py "\x7b\"title\": \"Reset VPN\", \"description\": \"please\"\x7d")⟩,
    ⟨noon, evenId 1, evenId 2⟩)

end SecureSdlc.Gateway

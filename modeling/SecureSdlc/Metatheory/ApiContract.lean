import SecureSdlc.Contracts.OpenApi
import SecureSdlc.Metatheory.EventPayloads
import SecureSdlc.Metatheory.GatewayCalls
import SecureSdlc.Metatheory.ServiceOutcomes

/-!
The gateway keeps to its REST contract. What a store holds can be shown, because the
service made it; a status outside the contract comes of a caller or an id that is blank, or
of a store that fails.
-/

namespace SecureSdlc.Domain

open Core GoText

/-- The clock and the id source of a call are sound. -/
def Operation.Timely : Operation → Prop
  | .createRequest _ now requestID eventID =>
      now.onCalendar = true ∧ Canonical requestID ∧ Canonical eventID
  | .updateRequestStatus _ now eventID => now.onCalendar = true ∧ Canonical eventID
  | .getRequest _ | .listRequests _ => True

section Service

variable {σ : Type} {S : RequestStore σ} {Inv : σ → Prop}

/-- The requests in a response. -/
def Response.shown : Response → List RequestProto
  | .request (.ok shown) => [shown]
  | .requests (.ok shown) => shown
  | .request (.error _) | .requests (.error _) => []

end Service

end SecureSdlc.Domain

namespace SecureSdlc.Gateway

open Core GoText GoJson JsonText Domain Contracts

section Bodies

end Bodies

section Replies

/-- The responses of the operation that an endpoint serves. -/
def Endpoint.responses : Endpoint → Option Responses
  | .health => none
  | .listRequests => some listRequestsResponses
  | .createRequest => some createRequestResponses
  | .getRequest _ => some getRequestResponses
  | .updateStatus _ => some updateRequestStatusResponses

variable {responses : Responses} {reply : Reply}

variable {verify : String → Except String Identity} {request : HttpRequest} {draws : Draws}

end Replies

section Answers

variable {σ : Type} {S : RequestStore σ} {Inv : σ → Prop} {s : σ}

/-- The draws of an exchange are sound. -/
def Draws.Timely (draws : Draws) : Prop :=
  draws.now.onCalendar = true ∧ Canonical draws.requestID ∧ Canonical draws.eventID

variable {verify : String → Except String Identity} {x : Exchange} {endpoint : Endpoint}
  {op : Operation}

theorem timely_of_call (ht : x.2.Timely) (h : call verify x.1 x.2 endpoint = .ok op) :
    op.Timely := by
  cases forwards_of_call h with
  | list | get => exact trivial
  | create => exact ht
  | update => exact ⟨ht.1, ht.2.2⟩

end Answers

end SecureSdlc.Gateway

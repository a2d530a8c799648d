import SecureSdlc.Domain.Service

/-!
The gateway's calls on one request, `server.go`. The verifier of tokens is a parameter, and
the body of an update is given as it was decoded: `none` is a malformed or oversized one.
-/

namespace SecureSdlc.Gateway

open Core GoText Domain

def roleUser : String := "user"

/-- What the verifier reads off a token. -/
structure Identity where
  subject : String
  roles : List String
  deriving DecidableEq, Repr

structure RequestResponse where
  id : String
  title : String
  status : String
  createdAt : String
  deriving DecidableEq, Repr

def toRequestResponse (request : RequestProto) : RequestResponse :=
  ⟨request.id, request.title, request.status, request.createdAt⟩

inductive Body where
  | request (response : RequestResponse)
  | error (code message : String)
  deriving DecidableEq, Repr

structure HttpResponse where
  status : Nat
  body : Body
  deriving DecidableEq, Repr

def writeError (status : Nat) (code message : String) : HttpResponse :=
  ⟨status, .error code message⟩

def codeText : Code → String
  | .invalidArgument => "InvalidArgument"
  | .permissionDenied => "PermissionDenied"
  | .notFound => "NotFound"
  | .failedPrecondition => "FailedPrecondition"
  | .internal => "Internal"

/-- `err.Error()` of a gRPC status. -/
def errorText (e : StatusError) : String :=
  "rpc error: code = " ++ codeText e.code ++ " desc = " ++ e.message

def writeDomainError (e : StatusError) : HttpResponse :=
  match e.code with
  | .notFound => writeError 404 "not_found" "request not found"
  | .invalidArgument => writeError 400 "invalid_input" (errorText e)
  | .permissionDenied => writeError 403 "forbidden" (errorText e)
  | .failedPrecondition => writeError 409 "illegal_transition" (errorText e)
  | .internal => writeError 502 "domain_unavailable" (errorText e)

def roleOf (caller : Identity) : String :=
  if roleOperator ∈ caller.roles then roleOperator else roleUser

/-- `bearerIdentity` of the `Authorization` header. -/
def bearerIdentity (verify : String → Except String Identity) (header : String) :
    Except String Identity :=
  if "Bearer ".toList.isPrefixOf header.toList then
    let raw := trimSpace (String.ofList (header.toList.drop 7))
    if raw = "" then .error "missing bearer token" else verify raw
  else .error "missing bearer token"

section Handlers

variable {σ : Type} (S : Store σ) (verify : String → Except String Identity)

def handleGetRequest (s : σ) (header id : String) : HttpResponse :=
  match bearerIdentity verify header with
  | .error e => writeError 401 "unauthenticated" e
  | .ok caller =>
      match Service.getRequest S s ⟨id, caller.subject, roleOf caller⟩ with
      | .error e => writeDomainError e
      | .ok request => ⟨200, .request (toRequestResponse request)⟩

def handleUpdateStatus (s : σ) (header id : String) (payload : Option String) (now : UtcTime)
    (eventID : String) : HttpResponse × σ :=
  match bearerIdentity verify header with
  | .error e => (writeError 401 "unauthenticated" e, s)
  | .ok caller =>
      if roleOf caller ≠ roleOperator then
        (writeError 403 "forbidden" "operator role required", s)
      else
        match payload with
        | none => (writeError 400 "invalid_input" "malformed or oversized JSON body", s)
        | some status =>
            if trimSpace status = "" then
              (writeError 400 "invalid_input" "status is required", s)
            else
              match Service.updateRequestStatus S s
                ⟨id, trimSpace status, caller.subject, roleOf caller⟩ now eventID with
              | (.error e, s) => (writeDomainError e, s)
              | (.ok request, s) => (⟨200, .request (toRequestResponse request)⟩, s)

end Handlers

end SecureSdlc.Gateway

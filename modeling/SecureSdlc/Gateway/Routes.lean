import SecureSdlc.Core.GoDecode
import SecureSdlc.Core.Run
import SecureSdlc.Domain.Payload
import SecureSdlc.Gateway.Server

/-!
The gateway as a whole, `server.go`: the routes, the bodies it decodes and encodes, and the
handlers that `Gateway.Server` leaves out. A request is given as `net/http` hands it over,
with its path cleaned, split and unescaped, and its texts are Unicode.
-/

namespace SecureSdlc.Gateway

open Core GoText GoJson Domain

def maxTitleLen : Nat := 200
def maxDescriptionLen : Nat := 4000
def maxBodyBytes : Nat := 64 * 1024
def maxListLimit : Int := 200

structure HttpRequest where
  method : String
  /-- A trailing slash is a segment of its own, `"/"`. -/
  path : List String
  query : List (String × String)
  authorization : String
  body : Bytes

inductive Endpoint where
  | health
  | listRequests
  | createRequest
  | getRequest (id : String)
  | updateStatus (id : String)
  deriving DecidableEq, Repr

/-- What is written to the client. -/
inductive Reply where
  /-- `ServeMux` has no handler for the request. -/
  | unrouted (status : Nat) (text : String)
  | health
  | requests (list : List RequestResponse)
  | one (response : HttpResponse)
  deriving DecidableEq, Repr

def Reply.status : Reply → Nat
  | .unrouted status _ => status
  | .health => 200
  | .requests _ => 200
  | .one response => response.status

section Bodies

def RequestResponse.fields (r : RequestResponse) : List (String × String) :=
  [("id", r.id), ("title", r.title), ("status", r.status), ("created_at", r.createdAt)]

/-- `json.Marshal` of a struct of strings. -/
def marshalStrings (fields : List (String × String)) : PyStr :=
  marshalStruct (fields.map marshalField)

def Body.text : Body → PyStr
  | .request response => marshalStrings response.fields
  | .error code message => marshalStrings [("code", code), ("message", message)]

/-- The body that goes over the wire. -/
def Reply.bytes : Reply → Bytes
  | .unrouted _ text => encode (py text)
  | .health => encoded (marshalStrings [("status", "ok")])
  | .requests list => encoded (marshalStruct
      [(py "requests", marshalSlice (list.map fun r => marshalStrings r.fields))])
  | .one response => encoded response.body.text

structure CreateRequestPayload where
  title : String
  description : String
  deriving DecidableEq, Repr

def createRequestFields : Fields CreateRequestPayload :=
  [stringField "title" CreateRequestPayload.title fun p s => { p with title := s },
    stringField "description" CreateRequestPayload.description fun p s =>
      { p with description := s }]

/-- The one field of `updateStatusPayload`. -/
def updateStatusFields : Fields String :=
  [stringField "status" (fun status => status) fun _ s => s]

def decodeCreate (body : Bytes) : Option CreateRequestPayload :=
  decodeWithin maxBodyBytes createRequestFields ⟨"", ""⟩ body

def decodeUpdate (body : Bytes) : Option String :=
  decodeWithin maxBodyBytes updateStatusFields "" body

/-- The problem with a payload; empty when there is none. -/
def validatePayload (payload : CreateRequestPayload) : String :=
  if trimSpace payload.title = "" then "title is required"
  else if runeCount payload.title > maxTitleLen then "title exceeds maximum length"
  else if runeCount payload.description > maxDescriptionLen then
    "description exceeds maximum length"
  else ""

end Bodies

section Queries

/-- `strconv.Atoi`; `none` is an error. -/
def atoi (raw : String) : Option Int :=
  let number (negative : Bool) (digits : List Char) : Option Int :=
    if digits = [] ∨ digits.any fun c => !c.isDigit then none
    else
      let n : Int := digits.foldl (fun acc c => acc * 10 + (c.toNat - 48)) 0
      let n := if negative then -n else n
      if -9223372036854775808 ≤ n ∧ n ≤ 9223372036854775807 then some n else none
  match raw.toList with
  | '-' :: digits => number true digits
  | '+' :: digits => number false digits
  | digits => number false digits

/-- `query.Get(key)` -/
def queryGet (query : List (String × String)) (key : String) : String :=
  (Assoc.get query key).getD ""

/-- The limit asked for, zero when there is none; `none` is refused. -/
def listLimit (query : List (String × String)) : Option Int :=
  let raw := trimSpace (queryGet query "limit")
  if raw = "" then some 0
  else
    match atoi raw with
    | some parsed => if parsed < 1 ∨ maxListLimit < parsed then none else some parsed
    | none => none

end Queries

section Handlers

variable {σ : Type}

def handleCreateRequest (S : Store σ) (verify : String → Except String Identity) (s : σ)
    (header : String) (body : Bytes) (now : UtcTime) (requestID eventID : String) :
    HttpResponse × σ :=
  match bearerIdentity verify header with
  | .error e => (writeError 401 "unauthenticated" e, s)
  | .ok caller =>
      match decodeCreate body with
      | none => (writeError 400 "invalid_input" "malformed or oversized JSON body", s)
      | some payload =>
          if validatePayload payload ≠ "" then
            (writeError 400 "invalid_input" (validatePayload payload), s)
          else
            match Service.createRequest S s ⟨payload.title, payload.description, caller.subject⟩
              now requestID eventID with
            | (.error e, s) => (writeError 502 "domain_unavailable" (errorText e), s)
            | (.ok created, s) => (⟨201, .request (toRequestResponse created)⟩, s)

def handleListRequests (S : RequestStore σ) (verify : String → Except String Identity) (s : σ)
    (header : String) (query : List (String × String)) : Reply :=
  match bearerIdentity verify header with
  | .error e => .one (writeError 401 "unauthenticated" e)
  | .ok caller =>
      match listLimit query with
      | none => .one (writeError 400 "invalid_input" "limit must be between 1 and 200")
      | some limit =>
          match Service.listRequests S s ⟨trimSpace (queryGet query "status"),
            trimSpace (queryGet query "subject"), limit, caller.subject, roleOf caller⟩ with
          | .error e => .one (writeDomainError e)
          | .ok requests => .requests (requests.map toRequestResponse)

end Handlers

/-- The patterns of `routes`. A `GET` pattern takes `HEAD` too, and `{id}` is one segment that
is no slash. -/
def routes (method : String) (path : List String) : Except Reply Endpoint :=
  let allow (methods : List String) (endpoint : Endpoint) (others : Except Reply Endpoint) :
      Except Reply Endpoint :=
    if method ∈ methods then .ok endpoint else others
  let notAllowed := .error (.unrouted 405 "Method Not Allowed\n")
  let notFound := .error (.unrouted 404 "404 page not found\n")
  match path with
  | ["healthz"] => allow ["GET", "HEAD"] .health notAllowed
  | ["requests"] =>
      allow ["GET", "HEAD"] .listRequests (allow ["POST"] .createRequest notAllowed)
  | ["requests", id] =>
      if id = "/" then notFound else allow ["GET", "HEAD"] (.getRequest id) notAllowed
  | ["requests", id, "status"] =>
      if id = "/" then notFound else allow ["PATCH"] (.updateStatus id) notAllowed
  | _ => notFound

/-- The clock reading and the ids that a call of the domain service draws, if it comes to it. -/
structure Draws where
  now : UtcTime
  requestID : String
  eventID : String

section Server

variable {σ : Type} (S : RequestStore σ) (verify : String → Except String Identity)

def handle (s : σ) (request : HttpRequest) (draws : Draws) : Endpoint → Reply × σ
  | .health => (.health, s)
  | .listRequests => (handleListRequests S verify s request.authorization request.query, s)
  | .createRequest =>
      let (response, s) := handleCreateRequest S.toStore verify s request.authorization
        request.body draws.now draws.requestID draws.eventID
      (.one response, s)
  | .getRequest id =>
      (.one (handleGetRequest S.toStore verify s request.authorization id), s)
  | .updateStatus id =>
      let (response, s) := handleUpdateStatus S.toStore verify s request.authorization id
        (decodeUpdate request.body) draws.now draws.eventID
      (.one response, s)

def serveHTTP (s : σ) (request : HttpRequest) (draws : Draws) : Reply × σ :=
  match routes request.method request.path with
  | .error reply => (reply, s)
  | .ok endpoint => handle S verify s request draws endpoint

/-- A request of a session, with what the service draws for it. -/
abbrev Exchange := HttpRequest × Draws

def stepHTTP (s : σ) (x : Exchange) : σ := (serveHTTP S verify s x.1 x.2).2

/-- The replies to requests that come in one after another. -/
def replies : σ → List Exchange → List Reply
  | _, [] => []
  | s, x :: xs => (serveHTTP S verify s x.1 x.2).1 :: replies (stepHTTP S verify s x) xs

end Server

end SecureSdlc.Gateway

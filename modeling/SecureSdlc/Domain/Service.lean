import SecureSdlc.Domain.Store

/-!
The domain service over any store. `UpdateRequestStatus` is split where it waits on
its store: the arguments checked before the read, the decision taken on the request
read, and the answer to the write. The schedule of an interleaving runs the pieces
apart; `updateRequestStatus` runs them in one go. `serve` runs whole calls one after
another.
-/

namespace SecureSdlc.Domain

open Core GoText

def maxTitleLen : Nat := 200
def maxDescriptionLen : Nat := 4000
def maxListLimit : Int := 200
def roleOperator : String := "operator"

inductive Code where
  | invalidArgument | permissionDenied | notFound | failedPrecondition | internal
  deriving DecidableEq, Repr

/-- A gRPC status error. -/
structure StatusError where
  code : Code
  message : String
  deriving DecidableEq, Repr

/-- The request as the API shows it. -/
structure RequestProto where
  id : String
  title : String
  status : String
  createdAt : String
  deriving DecidableEq, Repr

def requestProto (request : Request) : RequestProto :=
  ⟨request.id, request.title, request.status, request.createdAt⟩

def validLength (value : String) (minLen maxLen : Nat) : Bool :=
  minLen ≤ runeCount value && runeCount value ≤ maxLen

structure CreateRequestRequest where
  title : String
  description : String
  subject : String
  deriving DecidableEq, Repr

structure UpdateRequestStatusRequest where
  requestId : String
  newStatus : String
  actorSubject : String
  actorRole : String
  deriving DecidableEq, Repr

structure GetRequestRequest where
  requestId : String
  actorSubject : String
  actorRole : String
  deriving DecidableEq, Repr

structure ListRequestsRequest where
  status : String
  subject : String
  limit : Int
  actorSubject : String
  actorRole : String
  deriving DecidableEq, Repr

namespace Service

/-- The request and event `CreateRequest` hands to its store. -/
def newRequest (input : CreateRequestRequest) (now : UtcTime) (requestID eventID : String) :
    Except StatusError (Request × Event) :=
  let title := trimSpace input.title
  if !validLength title 1 maxTitleLen then
    .error ⟨.invalidArgument, "title must be between 1 and 200 characters"⟩
  else if runeCount input.description > maxDescriptionLen then
    .error ⟨.invalidArgument, "description exceeds maximum length"⟩
  else if input.subject = "" then
    .error ⟨.invalidArgument, "subject is required"⟩
  else
    let occurredAt := formatRFC3339 now
    let request : Request :=
      ⟨requestID, title, input.description, input.subject, statusCreated, occurredAt⟩
    .ok (request, ⟨eventID, eventTypeRequestCreated, occurredAt, request, ""⟩)

theorem newRequest_ok {input : CreateRequestRequest} {now : UtcTime} {requestID eventID : String}
    {r : Request} {e : Event} (h : newRequest input now requestID eventID = .ok (r, e)) :
    r = ⟨requestID, trimSpace input.title, input.description, input.subject, statusCreated,
      formatRFC3339 now⟩ ∧
    e = ⟨eventID, eventTypeRequestCreated, formatRFC3339 now, r, ""⟩ := by
  simp only [newRequest] at h
  split at h
  · cases h
  split at h
  · cases h
  split at h
  · cases h
  · cases h
    exact ⟨rfl, rfl⟩

theorem newRequest_subject_ne {input : CreateRequestRequest} {now : UtcTime}
    {requestID eventID : String} {pair : Request × Event}
    (h : newRequest input now requestID eventID = .ok pair) : input.subject ≠ "" := by
  simp only [newRequest] at h
  split at h
  · cases h
  split at h
  · cases h
  split at h
  · cases h
  · assumption

theorem newRequest_title_ne {input : CreateRequestRequest} {now : UtcTime}
    {requestID eventID : String} {pair : Request × Event}
    (h : newRequest input now requestID eventID = .ok pair) :
    1 ≤ runeCount (trimSpace input.title) := by
  simp only [newRequest] at h
  split at h
  · cases h
  · rename_i hlength
    rw [Bool.not_eq_true, Bool.not_eq_false', validLength, Bool.and_eq_true,
      decide_eq_true_eq] at hlength
    exact hlength.1

def createRequest {σ : Type} (S : Store σ) (s : σ) (input : CreateRequestRequest)
    (now : UtcTime) (requestID eventID : String) : Except StatusError RequestProto × σ :=
  match newRequest input now requestID eventID with
  | .error e => (.error e, s)
  | .ok (request, event) =>
      match S.createRequestWithEvent s request event with
      | .error _ => (.error ⟨.internal, "failed to persist request"⟩, s)
      | .ok s' => (.ok (requestProto request), s')

/-- The checks of `UpdateRequestStatus` before its first store step: the trimmed
request id and target status. -/
def checkUpdate (input : UpdateRequestStatusRequest) : Except StatusError (String × String) :=
  let requestID := trimSpace input.requestId
  if requestID = "" then
    .error ⟨.invalidArgument, "request_id is required"⟩
  else if trimSpace input.actorSubject = "" then
    .error ⟨.invalidArgument, "actor subject is required"⟩
  else if trimSpace input.actorRole ≠ roleOperator then
    .error ⟨.permissionDenied, "operator role required"⟩
  else
    let newStatus := trimSpace input.newStatus
    match Assoc.get transitions newStatus with
    | none => .error ⟨.invalidArgument, "unknown target status"⟩
    | some _ => .ok (requestID, newStatus)

theorem checkUpdate_ok {input : UpdateRequestStatusRequest} {requestID newStatus : String}
    (h : checkUpdate input = .ok (requestID, newStatus)) :
    requestID = trimSpace input.requestId := by
  simp only [checkUpdate] at h
  split at h
  · cases h
  split at h
  · cases h
  split at h
  · cases h
  split at h
  · cases h
  · cases h
    rfl

/-- The decision on the answer of `GetRequest`: go on with the request read, or stop. -/
def decideUpdate (newStatus : String) : Except StoreError Request → Except StatusError Request
  | .error .requestNotFound => .error ⟨.notFound, "request not found"⟩
  | .error (.failure _) => .error ⟨.internal, "failed to load request"⟩
  | .ok current =>
      if canTransition current.status newStatus then .ok current
      else .error ⟨.failedPrecondition,
        "illegal transition " ++ current.status ++ " -> " ++ newStatus⟩

theorem decideUpdate_ok {newStatus : String} {result : Except StoreError Request}
    {current : Request} (h : decideUpdate newStatus result = .ok current) :
    result = .ok current ∧ canTransition current.status newStatus = true := by
  cases result with
  | error e => cases e <;> simp [decideUpdate] at h
  | ok r =>
      simp only [decideUpdate] at h
      split at h
      · cases h
        exact ⟨rfl, ‹_›⟩
      · cases h

/-- The updated record and its event, both made from the copy read earlier. -/
def statusChange (current : Request) (newStatus : String) (now : UtcTime) (eventID : String) :
    Request × Event :=
  let updated := { current with status := newStatus }
  (updated, ⟨eventID, eventTypeRequestStatusChanged, formatRFC3339 now, updated, current.status⟩)

def updateRequestStatus {σ : Type} (S : Store σ) (s : σ) (input : UpdateRequestStatusRequest)
    (now : UtcTime) (eventID : String) : Except StatusError RequestProto × σ :=
  match checkUpdate input with
  | .error e => (.error e, s)
  | .ok (requestID, newStatus) =>
      match decideUpdate newStatus (S.getRequest s requestID) with
      | .error e => (.error e, s)
      | .ok current =>
          let (updated, event) := statusChange current newStatus now eventID
          match S.updateRequestStatusWithEvent s updated event with
          | .error _ => (.error ⟨.internal, "failed to persist status change"⟩, s)
          | .ok s' => (.ok (requestProto updated), s')

def getRequest {σ : Type} (S : Store σ) (s : σ) (input : GetRequestRequest) :
    Except StatusError RequestProto :=
  let requestID := trimSpace input.requestId
  let actor := trimSpace input.actorSubject
  if requestID = "" then .error ⟨.invalidArgument, "request_id is required"⟩
  else if actor = "" then .error ⟨.invalidArgument, "actor subject is required"⟩
  else
    match S.getRequest s requestID with
    | .error .requestNotFound => .error ⟨.notFound, "request not found"⟩
    | .error (.failure _) => .error ⟨.internal, "failed to load request"⟩
    | .ok request =>
        if trimSpace input.actorRole ≠ roleOperator ∧ request.subject ≠ actor then
          .error ⟨.notFound, "request not found"⟩
        else .ok (requestProto request)

theorem getRequest_eq_ok {σ : Type} {S : Store σ} {s : σ} {input : GetRequestRequest}
    {proto : RequestProto} : getRequest S s input = .ok proto ↔
      trimSpace input.requestId ≠ "" ∧ trimSpace input.actorSubject ≠ "" ∧
      ∃ r, S.getRequest s (trimSpace input.requestId) = .ok r ∧
        (trimSpace input.actorRole = roleOperator ∨ r.subject = trimSpace input.actorSubject) ∧
        proto = requestProto r := by
  simp only [getRequest]
  generalize trimSpace input.requestId = id, trimSpace input.actorSubject = actor,
    trimSpace input.actorRole = role
  by_cases hid : id = ""
  · simp [hid]
  rw [if_neg hid]
  by_cases hactor : actor = ""
  · simp [hactor]
  rw [if_neg hactor]
  cases hg : S.getRequest s id with
  | error e => cases e <;> simp
  | ok r =>
      by_cases hrole : role = roleOperator
      · simp [hid, hactor, hrole, eq_comm]
      · by_cases hown : r.subject = actor
        · simp [hid, hactor, hown, eq_comm]
        · simp [hrole, hown]

/-- The filter `ListRequests` hands to its store. -/
def listFilter (input : ListRequestsRequest) : Except StatusError ListFilter :=
  let statusFilter := trimSpace input.status
  let actor := trimSpace input.actorSubject
  if statusFilter ≠ "" ∧ (Assoc.get transitions statusFilter).isNone then
    .error ⟨.invalidArgument, "unknown status filter"⟩
  else if actor = "" then .error ⟨.invalidArgument, "actor subject is required"⟩
  else
    -- a subject filter only counts for operators
    let subjectFilter :=
      if trimSpace input.actorRole ≠ roleOperator then actor else trimSpace input.subject
    let limit := if input.limit ≤ 0 then defaultListLimit else input.limit
    .ok ⟨statusFilter, subjectFilter, if maxListLimit < limit then maxListLimit else limit⟩

def listRequests {σ : Type} (S : RequestStore σ) (s : σ) (input : ListRequestsRequest) :
    Except StatusError (List RequestProto) :=
  match listFilter input with
  | .error e => .error e
  | .ok filter =>
      match S.listRequests s filter with
      | .error _ => .error ⟨.internal, "failed to list requests"⟩
      | .ok requests => .ok (requests.map requestProto)

/-- The filter of a caller who is not an operator is on the caller's own subject. -/
theorem listFilter_subject (input : ListRequestsRequest) {filter : ListFilter}
    (hrole : trimSpace input.actorRole ≠ roleOperator) (h : listFilter input = .ok filter) :
    filter.subject = trimSpace input.actorSubject ∧ filter.subject ≠ "" := by
  simp only [listFilter, if_pos hrole] at h
  split at h
  · cases h
  split at h
  · cases h
  · rename_i hactor
    cases h
    exact ⟨rfl, hactor⟩

theorem listRequests_ok {σ : Type} {S : RequestStore σ} {s : σ} {input : ListRequestsRequest}
    {protos : List RequestProto} (h : listRequests S s input = .ok protos) :
    ∃ filter rs, listFilter input = .ok filter ∧ S.listRequests s filter = .ok rs ∧
      protos = rs.map requestProto := by
  simp only [listRequests] at h
  cases hf : listFilter input with
  | error e => simp [hf] at h
  | ok filter =>
      cases hl : S.listRequests s filter with
      | error e => simp [hf, hl] at h
      | ok rs =>
          simp only [hf, hl, Except.ok.injEq] at h
          exact ⟨filter, rs, rfl, hl, h.symm⟩

end Service

/-- A whole call of the service, with the clock reading and the ids it will draw. -/
inductive Operation where
  | createRequest (input : CreateRequestRequest) (now : UtcTime) (requestID eventID : String)
  | updateRequestStatus (input : UpdateRequestStatusRequest) (now : UtcTime) (eventID : String)
  | getRequest (input : GetRequestRequest)
  | listRequests (input : ListRequestsRequest)

inductive Response where
  | request (result : Except StatusError RequestProto)
  | requests (result : Except StatusError (List RequestProto))

def serve {σ : Type} (S : RequestStore σ) (s : σ) : Operation → Response × σ
  | .createRequest input now requestID eventID =>
      let (result, s) := Service.createRequest S.toStore s input now requestID eventID
      (.request result, s)
  | .updateRequestStatus input now eventID =>
      let (result, s) := Service.updateRequestStatus S.toStore s input now eventID
      (.request result, s)
  | .getRequest input => (.request (Service.getRequest S.toStore s input), s)
  | .listRequests input => (.requests (Service.listRequests S s input), s)

/-- The store after a call. -/
def after {σ : Type} (S : RequestStore σ) (s : σ) (op : Operation) : σ :=
  (serve S s op).2

/-- The responses to calls made one after another. -/
def responses {σ : Type} (S : RequestStore σ) : σ → List Operation → List Response
  | _, [] => []
  | s, op :: ops => (serve S s op).1 :: responses S (after S s op) ops

/-- A call of `UpdateRequestStatus` between its two store steps: its local copy of
the request and its target. `overtaken` is bookkeeping of the schedule: another call
has committed to the same request since this one read it. -/
structure Pending where
  current : Request
  newStatus : String
  overtaken : Bool

/-- The shared store and the calls waiting to write. -/
structure System (σ : Type) where
  store : σ
  pending : List Pending

/-- What a schedule may do next. `read` starts an `UpdateRequestStatus` call with its
`GetRequest` step; `write` takes the second step of the waiting call at an index, and
`abort` is that step failing in the database without effect. -/
inductive Action where
  | createRequest (input : CreateRequestRequest) (now : GoText.UtcTime)
      (requestID eventID : String)
  | read (input : UpdateRequestStatusRequest)
  | write (call : Nat) (now : GoText.UtcTime) (eventID : String)
  | abort (call : Nat)

/-- Mark the calls whose copy of `id` has become stale. -/
def overtake (id : String) (pending : List Pending) : List Pending :=
  pending.map fun p => { p with overtaken := p.overtaken || p.current.id == id }

/-- The store after the second step of a waiting call, if the store accepts it. -/
def commit {σ : Type} (S : Store σ) (s : σ) (p : Pending) (now : GoText.UtcTime)
    (eventID : String) : Except StoreError σ :=
  let (updated, event) := Service.statusChange p.current p.newStatus now eventID
  S.updateRequestStatusWithEvent s updated event

def step {σ : Type} (S : Store σ) (sys : System σ) : Action → System σ
  | .createRequest input now requestID eventID =>
      { sys with store := (Service.createRequest S sys.store input now requestID eventID).2 }
  | .read input =>
      match Service.checkUpdate input with
      | .error _ => sys
      | .ok (requestID, newStatus) =>
          match Service.decideUpdate newStatus (S.getRequest sys.store requestID) with
          | .error _ => sys
          | .ok current => { sys with pending := sys.pending ++ [⟨current, newStatus, false⟩] }
  | .write call now eventID =>
      match sys.pending[call]? with
      | none => sys
      | some p =>
          let waiting := sys.pending.eraseIdx call
          match commit S sys.store p now eventID with
          | .error _ => { sys with pending := waiting }
          | .ok s' => ⟨s', overtake p.current.id waiting⟩
  | .abort call => { sys with pending := sys.pending.eraseIdx call }

/-- What the call an action belongs to returns in this step; `none` when it goes on, or
when there is no such call. -/
def answer {σ : Type} (S : Store σ) (sys : System σ) :
    Action → Option (Except StatusError RequestProto)
  | .createRequest input now requestID eventID =>
      some (Service.createRequest S sys.store input now requestID eventID).1
  | .read input =>
      match Service.checkUpdate input with
      | .error e => some (.error e)
      | .ok (requestID, newStatus) =>
          match Service.decideUpdate newStatus (S.getRequest sys.store requestID) with
          | .error e => some (.error e)
          | .ok _ => none
  | .write call now eventID =>
      match sys.pending[call]? with
      | none => none
      | some p =>
          match commit S sys.store p now eventID with
          | .error _ => some (.error ⟨.internal, "failed to persist status change"⟩)
          | .ok _ => some (.ok (requestProto
              (Service.statusChange p.current p.newStatus now eventID).1))
  | .abort call =>
      sys.pending[call]?.map fun _ =>
        .error ⟨.internal, "failed to persist status change"⟩

/-- Everything one scheduled action can do. -/
theorem step_cases {σ : Type} (S : Store σ) (sys : System σ) (a : Action) :
    ((step S sys a).store = sys.store ∧ ∀ p ∈ (step S sys a).pending, p ∈ sys.pending) ∨
    (∃ input now requestID eventID r e s', a = .createRequest input now requestID eventID ∧
      Service.newRequest input now requestID eventID = .ok (r, e) ∧
      S.createRequestWithEvent sys.store r e = .ok s' ∧
      step S sys a = { sys with store := s' }) ∨
    (∃ id current newStatus, S.getRequest sys.store id = .ok current ∧
      canTransition current.status newStatus = true ∧
      step S sys a = { sys with pending := sys.pending ++ [⟨current, newStatus, false⟩] }) ∨
    (∃ call now eventID p s', a = .write call now eventID ∧ sys.pending[call]? = some p ∧
      commit S sys.store p now eventID = .ok s' ∧
      step S sys a = ⟨s', overtake p.current.id (sys.pending.eraseIdx call)⟩) := by
  cases a with
  | createRequest input now requestID eventID =>
      simp only [step, Service.createRequest]
      cases hnew : Service.newRequest input now requestID eventID with
      | error e => exact .inl ⟨rfl, fun p hp => hp⟩
      | ok pair =>
          obtain ⟨r, e⟩ := pair
          cases hs : S.createRequestWithEvent sys.store r e with
          | error err => exact .inl ⟨by simp [hs], fun p hp => hp⟩
          | ok s' =>
              exact .inr (.inl ⟨input, now, requestID, eventID, r, e, s', rfl, hnew, hs,
                by simp [hs]⟩)
  | read input =>
      simp only [step]
      cases hc : Service.checkUpdate input with
      | error e => exact .inl ⟨rfl, fun p hp => hp⟩
      | ok pair =>
          obtain ⟨requestID, newStatus⟩ := pair
          cases hd : Service.decideUpdate newStatus (S.getRequest sys.store requestID) with
          | error e => exact .inl ⟨by simp [hd], by simp [hd]⟩
          | ok current =>
              obtain ⟨hg, ht⟩ := Service.decideUpdate_ok hd
              exact .inr (.inr (.inl ⟨requestID, current, newStatus, hg, ht, by simp [hd]⟩))
  | write call now eventID =>
      simp only [step]
      cases hp : sys.pending[call]? with
      | none => exact .inl ⟨rfl, fun p hp => hp⟩
      | some p =>
          cases hc : commit S sys.store p now eventID with
          | error e => exact .inl ⟨by simp [hc], fun q hq => List.mem_of_mem_eraseIdx
              (by simpa [hc] using hq)⟩
          | ok s' => exact .inr (.inr (.inr ⟨call, now, eventID, p, s', rfl, hp, hc, by simp [hc]⟩))
  | abort call => exact .inl ⟨rfl, fun q hq => List.mem_of_mem_eraseIdx hq⟩

end SecureSdlc.Domain

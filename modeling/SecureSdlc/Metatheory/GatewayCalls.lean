import SecureSdlc.Gateway.Routes

/-!
The gateway as a front of the domain service: a request is either answered by the gateway
itself, without a call, or becomes one call, whose response is translated. What the gateway
lets through the service does not refuse for its title or its description.
-/

namespace SecureSdlc.Gateway

open Core GoText GoJson Domain

/-- The gateway's own reply to a request, or the call that it makes. -/
def call (verify : String → Except String Identity) (request : HttpRequest) (draws : Draws) :
    Endpoint → Except Reply Operation
  | .health => .error .health
  | .listRequests =>
      match bearerIdentity verify request.authorization with
      | .error e => .error (.one (writeError 401 "unauthenticated" e))
      | .ok caller =>
          match listLimit request.query with
          | none => .error (.one (writeError 400 "invalid_input" "limit must be between 1 and 200"))
          | some limit => .ok (.listRequests ⟨trimSpace (queryGet request.query "status"),
              trimSpace (queryGet request.query "subject"), limit, caller.subject, roleOf caller⟩)
  | .createRequest =>
      match bearerIdentity verify request.authorization with
      | .error e => .error (.one (writeError 401 "unauthenticated" e))
      | .ok caller =>
          match decodeCreate request.body with
          | none => .error (.one (writeError 400 "invalid_input"
              "malformed or oversized JSON body"))
          | some payload =>
              if validatePayload payload ≠ "" then
                .error (.one (writeError 400 "invalid_input" (validatePayload payload)))
              else .ok (.createRequest ⟨payload.title, payload.description, caller.subject⟩
                draws.now draws.requestID draws.eventID)
  | .getRequest id =>
      match bearerIdentity verify request.authorization with
      | .error e => .error (.one (writeError 401 "unauthenticated" e))
      | .ok caller => .ok (.getRequest ⟨id, caller.subject, roleOf caller⟩)
  | .updateStatus id =>
      match bearerIdentity verify request.authorization with
      | .error e => .error (.one (writeError 401 "unauthenticated" e))
      | .ok caller =>
          if roleOf caller ≠ roleOperator then
            .error (.one (writeError 403 "forbidden" "operator role required"))
          else
            match decodeUpdate request.body with
            | none =>
                .error (.one (writeError 400 "invalid_input" "malformed or oversized JSON body"))
            | some status =>
                if trimSpace status = "" then
                  .error (.one (writeError 400 "invalid_input" "status is required"))
                else .ok (.updateRequestStatus
                  ⟨id, trimSpace status, caller.subject, roleOf caller⟩ draws.now draws.eventID)

/-- What is known of a request that becomes a call. -/
inductive Forwards (verify : String → Except String Identity) (request : HttpRequest)
    (draws : Draws) : Endpoint → Operation → Prop where
  | list {caller : Identity} {limit : Int}
      (hcaller : bearerIdentity verify request.authorization = .ok caller)
      (hlimit : listLimit request.query = some limit) :
      Forwards verify request draws .listRequests (.listRequests
        ⟨trimSpace (queryGet request.query "status"), trimSpace (queryGet request.query "subject"),
          limit, caller.subject, roleOf caller⟩)
  | create {caller : Identity} {payload : CreateRequestPayload}
      (hcaller : bearerIdentity verify request.authorization = .ok caller)
      (hpayload : decodeCreate request.body = some payload)
      (hvalid : validatePayload payload = "") :
      Forwards verify request draws .createRequest (.createRequest
        ⟨payload.title, payload.description, caller.subject⟩
        draws.now draws.requestID draws.eventID)
  | get {caller : Identity} {id : String}
      (hcaller : bearerIdentity verify request.authorization = .ok caller) :
      Forwards verify request draws (.getRequest id)
        (.getRequest ⟨id, caller.subject, roleOf caller⟩)
  | update {caller : Identity} {id status : String}
      (hcaller : bearerIdentity verify request.authorization = .ok caller)
      (hrole : roleOf caller = roleOperator) (hstatus : decodeUpdate request.body = some status)
      (hne : trimSpace status ≠ "") :
      Forwards verify request draws (.updateStatus id) (.updateRequestStatus
        ⟨id, trimSpace status, caller.subject, roleOf caller⟩ draws.now draws.eventID)

theorem forwards_of_call {verify : String → Except String Identity} {request : HttpRequest}
    {draws : Draws} {endpoint : Endpoint} {op : Operation}
    (h : call verify request draws endpoint = .ok op) :
    Forwards verify request draws endpoint op := by
  cases endpoint with
  | health => cases h
  | listRequests =>
      simp only [call] at h
      split at h
      · cases h
      split at h
      · cases h
      · cases h
        exact .list ‹_› ‹_›
  | createRequest =>
      simp only [call] at h
      split at h
      · cases h
      split at h
      · cases h
      split at h
      · cases h
      · rename_i hvalid
        cases h
        exact .create ‹_› ‹_› (not_not.mp hvalid)
  | getRequest id =>
      simp only [call] at h
      split at h
      · cases h
      · cases h
        exact .get ‹_›
  | updateStatus id =>
      simp only [call] at h
      split at h
      · cases h
      split at h
      · cases h
      rename_i hrole
      split at h
      · cases h
      split at h
      · cases h
      · cases h
        exact .update ‹_› (not_not.mp hrole) ‹_› ‹_›

/-- Whether a request of the endpoint has input for the gateway to refuse. -/
def Endpoint.takesInput : Endpoint → Bool
  | .listRequests | .createRequest | .updateStatus _ => true
  | .health | .getRequest _ => false

/-- What the gateway replies without a call. -/
inductive Refuses : Endpoint → Reply → Prop where
  | health : Refuses .health .health
  | unauthenticated {endpoint : Endpoint} {message : String} (h : endpoint ≠ .health) :
      Refuses endpoint (.one (writeError 401 "unauthenticated" message))
  | invalid {endpoint : Endpoint} {message : String} (h : endpoint.takesInput = true) :
      Refuses endpoint (.one (writeError 400 "invalid_input" message))
  | forbidden {id : String} :
      Refuses (.updateStatus id) (.one (writeError 403 "forbidden" "operator role required"))

theorem refuses_of_call {verify : String → Except String Identity} {request : HttpRequest}
    {draws : Draws} {endpoint : Endpoint} {reply : Reply}
    (h : call verify request draws endpoint = .error reply) : Refuses endpoint reply := by
  cases endpoint with
  | health =>
      cases h
      exact .health
  | listRequests =>
      simp only [call] at h
      split at h
      · cases h
        exact .unauthenticated (by simp)
      split at h
      · cases h
        exact .invalid rfl
      · cases h
  | createRequest =>
      simp only [call] at h
      split at h
      · cases h
        exact .unauthenticated (by simp)
      split at h
      · cases h
        exact .invalid rfl
      split at h
      · cases h
        exact .invalid rfl
      · cases h
  | getRequest id =>
      simp only [call] at h
      split at h
      · cases h
        exact .unauthenticated (by simp)
      · cases h
  | updateStatus id =>
      simp only [call] at h
      split at h
      · cases h
        exact .unauthenticated (by simp)
      split at h
      · cases h
        exact .forbidden
      split at h
      · cases h
        exact .invalid rfl
      split at h
      · cases h
        exact .invalid rfl
      · cases h

section Validation

theorem validatePayload_eq {payload : CreateRequestPayload} : validatePayload payload = "" ↔
    trimSpace payload.title ≠ "" ∧ runeCount payload.title ≤ 200 ∧
      runeCount payload.description ≤ 4000 := by
  rw [validatePayload]
  split
  · simp_all
  split
  · simp_all [maxTitleLen]
  split
  · simp_all [maxDescriptionLen]
  · simp_all [maxTitleLen, maxDescriptionLen]

end Validation

/-- The reply made of the service's response. -/
def answer (endpoint : Endpoint) : Response → Reply
  | .request (.ok request) =>
      .one ⟨if endpoint = .createRequest then 201 else 200, .request (toRequestResponse request)⟩
  | .request (.error e) =>
      .one (if endpoint = .createRequest then writeError 502 "domain_unavailable" (errorText e)
        else writeDomainError e)
  | .requests (.ok requests) => .requests (requests.map toRequestResponse)
  | .requests (.error e) => .one (writeDomainError e)

section Server

variable {σ : Type} (S : RequestStore σ) (verify : String → Except String Identity)

theorem handle_eq (s : σ) (request : HttpRequest) (draws : Draws) (endpoint : Endpoint) :
    handle S verify s request draws endpoint =
      match call verify request draws endpoint with
      | .error reply => (reply, s)
      | .ok op => (answer endpoint (serve S s op).1, (serve S s op).2) := by
  cases endpoint with
  | health => rfl
  | listRequests =>
      simp only [handle, handleListRequests, call]
      cases bearerIdentity verify request.authorization with
      | error e => rfl
      | ok caller =>
          cases listLimit request.query with
          | none => rfl
          | some limit =>
              simp only [serve]
              generalize Service.listRequests S s _ = result
              cases result <;> rfl
  | createRequest =>
      simp only [handle, handleCreateRequest, call]
      cases bearerIdentity verify request.authorization with
      | error e => rfl
      | ok caller =>
          cases decodeCreate request.body with
          | none => rfl
          | some payload =>
              by_cases hproblem : validatePayload payload = ""
              · simp only [hproblem, ne_eq, not_true_eq_false, if_false, serve]
                generalize Service.createRequest S.toStore s _ _ _ _ = outcome
                obtain ⟨result, s'⟩ := outcome
                cases result <;> rfl
              · simp only [hproblem, ne_eq, not_false_eq_true, if_true]
  | getRequest id =>
      simp only [handle, handleGetRequest, call]
      cases bearerIdentity verify request.authorization with
      | error e => rfl
      | ok caller =>
          simp only [serve]
          generalize Service.getRequest S.toStore s _ = result
          cases result <;> rfl
  | updateStatus id =>
      simp only [handle, handleUpdateStatus, call]
      cases bearerIdentity verify request.authorization with
      | error e => rfl
      | ok caller =>
          by_cases hrole : roleOf caller = roleOperator
          · simp only [hrole, ne_eq, not_true_eq_false, if_false]
            cases decodeUpdate request.body with
            | none => rfl
            | some status =>
                by_cases hblank : trimSpace status = ""
                · simp only [hblank, if_true]
                · simp only [hblank, if_false, serve]
                  generalize Service.updateRequestStatus S.toStore s _ _ _ = outcome
                  obtain ⟨result, s'⟩ := outcome
                  cases result <;> rfl
          · simp only [hrole, ne_eq, not_false_eq_true, if_true]

/-- The reply to a request without a call, or its endpoint and the call made for it. -/
def forward (x : Exchange) : Except Reply (Endpoint × Operation) :=
  match routes x.1.method x.1.path with
  | .error reply => .error reply
  | .ok endpoint =>
      match call verify x.1 x.2 endpoint with
      | .error reply => .error reply
      | .ok op => .ok (endpoint, op)

theorem serveHTTP_eq (s : σ) (x : Exchange) :
    serveHTTP S verify s x.1 x.2 =
      match forward verify x with
      | .error reply => (reply, s)
      | .ok (endpoint, op) => (answer endpoint (serve S s op).1, (serve S s op).2) := by
  simp only [serveHTTP, forward]
  cases routes x.1.method x.1.path with
  | error reply => rfl
  | ok endpoint =>
      dsimp only
      rw [handle_eq]
      cases call verify x.1 x.2 endpoint with
      | error reply => rfl
      | ok op => rfl

variable {S verify}

theorem serveHTTP_of_error {s : σ} {x : Exchange} {reply : Reply}
    (h : forward verify x = .error reply) : serveHTTP S verify s x.1 x.2 = (reply, s) := by
  rw [serveHTTP_eq, h]

theorem serveHTTP_of_ok {s : σ} {x : Exchange} {endpoint : Endpoint} {op : Operation}
    (h : forward verify x = .ok (endpoint, op)) :
    serveHTTP S verify s x.1 x.2 = (answer endpoint (serve S s op).1, after S s op) := by
  rw [serveHTTP_eq, h]
  rfl

theorem forward_eq_ok {x : Exchange} {endpoint : Endpoint} {op : Operation} :
    forward verify x = .ok (endpoint, op) ↔
      routes x.1.method x.1.path = .ok endpoint ∧ call verify x.1 x.2 endpoint = .ok op := by
  constructor
  · intro h
    rw [forward] at h
    cases hroute : routes x.1.method x.1.path with
    | error reply =>
        rw [hroute] at h
        cases h
    | ok e =>
        rw [hroute] at h
        dsimp only at h
        cases hcall : call verify x.1 x.2 e with
        | error reply =>
            rw [hcall] at h
            cases h
        | ok o =>
            rw [hcall] at h
            cases h
            exact ⟨rfl, hcall⟩
  · intro h
    simp only [forward, h.1, h.2]

end Server

end SecureSdlc.Gateway

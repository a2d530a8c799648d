import SecureSdlc.Metatheory.RequestTable

/-!
What a call of the domain service can come to: refused by its checks, stopped by what the
store holds, failed in the store, or done. Only a write that is done changes the table and
the log of the store, and then as its response says.
-/

namespace SecureSdlc.Domain

open Core GoText

section Writes

variable {σ : Type} (S : Store σ) (s : σ)

inductive CreateOutcome (input : CreateRequestRequest) (now : UtcTime)
    (requestID eventID : String) : Except StatusError RequestProto × σ → Prop where
  | refused {e} (hnew : Service.newRequest input now requestID eventID = .error e) :
      CreateOutcome input now requestID eventID (.error e, s)
  | failed {r event err} (hnew : Service.newRequest input now requestID eventID = .ok (r, event))
      (hstore : S.createRequestWithEvent s r event = .error err) :
      CreateOutcome input now requestID eventID
        (.error ⟨.internal, "failed to persist request"⟩, s)
  | done {r event s'} (hnew : Service.newRequest input now requestID eventID = .ok (r, event))
      (hstore : S.createRequestWithEvent s r event = .ok s') :
      CreateOutcome input now requestID eventID (.ok (requestProto r), s')

theorem createRequest_outcome (input : CreateRequestRequest) (now : UtcTime)
    (requestID eventID : String) : CreateOutcome S s input now requestID eventID
      (Service.createRequest S s input now requestID eventID) := by
  rw [Service.createRequest]
  cases hnew : Service.newRequest input now requestID eventID with
  | error e => exact .refused hnew
  | ok pair =>
      obtain ⟨r, event⟩ := pair
      dsimp only
      cases hstore : S.createRequestWithEvent s r event with
      | error err => exact .failed hnew hstore
      | ok s' => exact .done hnew hstore

inductive UpdateOutcome (input : UpdateRequestStatusRequest) (now : UtcTime) (eventID : String) :
    Except StatusError RequestProto × σ → Prop where
  | refused {e} (hcheck : Service.checkUpdate input = .error e) :
      UpdateOutcome input now eventID (.error e, s)
  | stopped {id newStatus e} (hcheck : Service.checkUpdate input = .ok (id, newStatus))
      (hdecide : Service.decideUpdate newStatus (S.getRequest s id) = .error e) :
      UpdateOutcome input now eventID (.error e, s)
  | failed {id newStatus current err} (hcheck : Service.checkUpdate input = .ok (id, newStatus))
      (hdecide : Service.decideUpdate newStatus (S.getRequest s id) = .ok current)
      (hstore : S.updateRequestStatusWithEvent s { current with status := newStatus }
        (Service.statusChange current newStatus now eventID).2 = .error err) :
      UpdateOutcome input now eventID (.error ⟨.internal, "failed to persist status change"⟩, s)
  | done {id newStatus current s'} (hcheck : Service.checkUpdate input = .ok (id, newStatus))
      (hdecide : Service.decideUpdate newStatus (S.getRequest s id) = .ok current)
      (hstore : S.updateRequestStatusWithEvent s { current with status := newStatus }
        (Service.statusChange current newStatus now eventID).2 = .ok s') :
      UpdateOutcome input now eventID
        (.ok (requestProto { current with status := newStatus }), s')

theorem updateRequestStatus_outcome (input : UpdateRequestStatusRequest) (now : UtcTime)
    (eventID : String) : UpdateOutcome S s input now eventID
      (Service.updateRequestStatus S s input now eventID) := by
  rw [Service.updateRequestStatus]
  cases hcheck : Service.checkUpdate input with
  | error e => exact .refused hcheck
  | ok pair =>
      obtain ⟨id, newStatus⟩ := pair
      dsimp only
      cases hdecide : Service.decideUpdate newStatus (S.getRequest s id) with
      | error e => exact .stopped hcheck hdecide
      | ok current =>
          dsimp only [Service.statusChange]
          cases hstore : S.updateRequestStatusWithEvent s { current with status := newStatus }
              (Service.statusChange current newStatus now eventID).2 with
          | error err =>
              rw [Service.statusChange] at hstore
              rw [hstore]
              exact .failed hcheck hdecide hstore
          | ok s' =>
              rw [Service.statusChange] at hstore
              rw [hstore]
              exact .done hcheck hdecide hstore

end Writes

section Reads

variable {σ : Type} (S : RequestStore σ) (s : σ)

inductive GetOutcome (input : GetRequestRequest) : Except StatusError RequestProto → Prop where
  | blank {message} (h : trimSpace input.requestId = "" ∨ trimSpace input.actorSubject = "") :
      GetOutcome input (.error ⟨.invalidArgument, message⟩)
  | failed {message} (hid : trimSpace input.requestId ≠ "")
      (hactor : trimSpace input.actorSubject ≠ "")
      (hstore : S.getRequest s (trimSpace input.requestId) = .error (.failure message)) :
      GetOutcome input (.error ⟨.internal, "failed to load request"⟩)
  | missing (hid : trimSpace input.requestId ≠ "") (hactor : trimSpace input.actorSubject ≠ "")
      (hstore : S.getRequest s (trimSpace input.requestId) = .error .requestNotFound) :
      GetOutcome input (.error ⟨.notFound, "request not found"⟩)
  | hidden {r} (hid : trimSpace input.requestId ≠ "") (hactor : trimSpace input.actorSubject ≠ "")
      (hstore : S.getRequest s (trimSpace input.requestId) = .ok r)
      (hrole : trimSpace input.actorRole ≠ roleOperator)
      (hother : r.subject ≠ trimSpace input.actorSubject) :
      GetOutcome input (.error ⟨.notFound, "request not found"⟩)
  | done {r} (hid : trimSpace input.requestId ≠ "") (hactor : trimSpace input.actorSubject ≠ "")
      (hstore : S.getRequest s (trimSpace input.requestId) = .ok r)
      (hallowed : trimSpace input.actorRole = roleOperator ∨
        r.subject = trimSpace input.actorSubject) :
      GetOutcome input (.ok (requestProto r))

theorem getRequest_outcome (input : GetRequestRequest) :
    GetOutcome S s input (Service.getRequest S.toStore s input) := by
  rw [Service.getRequest]
  by_cases hid : trimSpace input.requestId = ""
  · rw [if_pos hid]
    exact .blank (.inl hid)
  rw [if_neg hid]
  by_cases hactor : trimSpace input.actorSubject = ""
  · rw [if_pos hactor]
    exact .blank (.inr hactor)
  rw [if_neg hactor]
  cases hstore : S.getRequest s (trimSpace input.requestId) with
  | error err =>
      cases err with
      | requestNotFound => exact .missing hid hactor hstore
      | failure message => exact .failed hid hactor hstore
  | ok r =>
      dsimp only
      by_cases hforeign : trimSpace input.actorRole ≠ roleOperator ∧
          r.subject ≠ trimSpace input.actorSubject
      · rw [if_pos hforeign]
        exact .hidden hid hactor hstore hforeign.1 hforeign.2
      · rw [if_neg hforeign]
        refine .done hid hactor hstore ?_
        rw [not_and_or, not_not, not_not] at hforeign
        exact hforeign

end Reads

section Effects

variable {σ : Type} {S : RequestStore σ}

/-- The request that a call has created or changed, by its response. -/
def written : Operation → Response → Option RequestProto
  | .createRequest _ _ _ _, .request (.ok proto) => some proto
  | .updateRequestStatus _ _ _, .request (.ok proto) => some proto
  | _, _ => none

/-- The entry under one key is set and the rest of the table left alone, and one event is
logged. -/
structure Puts (V : TableView S.toStore) (s s' : σ) (k : V.Key) (rec : Record V.Stamp)
    (created : Bool) : Prop where
  inv : V.Inv s'
  up : V.Up s → V.Up s'
  record : V.record s' k = some rec
  others : ∀ k', k' ≠ k → V.record s' k' = V.record s k'
  log : V.log s' = V.log s ++ [⟨some k, created, rec.status⟩]

/-- What a call does to the table and the log of the store. -/
inductive Effect (V : TableView S.toStore) (s : σ) : Operation → Response → σ → Prop where
  | unchanged {op : Operation} {response : Response} (hquiet : written op response = none) :
      Effect V s op response s
  | created {input : CreateRequestRequest} {now : UtcTime} {requestID eventID : String}
      {s' : σ} {k : V.Key} {st : V.Stamp} (hkey : V.key requestID = some k)
      (hstamp : V.stamp (formatRFC3339 now) = some st) (hfree : V.record s k = none)
      (hputs : Puts V s s' k
        ⟨trimSpace input.title, input.description, input.subject, statusCreated, st⟩ true) :
      Effect V s (.createRequest input now requestID eventID)
        (.request (.ok ⟨requestID, trimSpace input.title, statusCreated, formatRFC3339 now⟩)) s'
  | changed {input : UpdateRequestStatusRequest} {now : UtcTime} {eventID : String} {s' : σ}
      {k : V.Key} {rec : Record V.Stamp} {newStatus : String}
      (hcheck : Service.checkUpdate input = .ok (trimSpace input.requestId, newStatus))
      (hkey : V.key (trimSpace input.requestId) = some k) (hrecord : V.record s k = some rec)
      (hedge : canTransition rec.status newStatus = true)
      (hputs : Puts V s s' k { rec with status := newStatus } false) :
      Effect V s (.updateRequestStatus input now eventID)
        (.request (.ok ⟨V.text k, rec.title, newStatus, V.stampText rec.createdAt⟩)) s'

theorem serve_effect (V : TableView S.toStore) {s : σ} (hs : V.Inv s) (op : Operation) :
    Effect V s op (serve S s op).1 (after S s op) := by
  rw [after]
  cases op with
  | createRequest input now requestID eventID =>
      have hcase := createRequest_outcome S.toStore s input now requestID eventID
      rw [serve]
      generalize Service.createRequest S.toStore s input now requestID eventID = outcome at hcase ⊢
      cases hcase with
      | refused => exact .unchanged rfl
      | failed => exact .unchanged rfl
      | done hnew hstore =>
          obtain ⟨hinv, hup, k, st, hkey, hstamp, hfree, hrecord, hothers, hlog⟩ :=
            create_effect hs hnew hstore
          obtain ⟨rfl, rfl⟩ := Service.newRequest_ok hnew
          exact .created hkey hstamp hfree ⟨hinv, hup, hrecord, hothers, hlog⟩
  | updateRequestStatus input now eventID =>
      have hcase := updateRequestStatus_outcome S.toStore s input now eventID
      rw [serve]
      generalize Service.updateRequestStatus S.toStore s input now eventID = outcome at hcase ⊢
      cases hcase with
      | refused => exact .unchanged rfl
      | stopped => exact .unchanged rfl
      | failed => exact .unchanged rfl
      | @done id newStatus current s' hcheck hdecide hstore =>
          obtain ⟨hget, hedge⟩ := Service.decideUpdate_ok hdecide
          obtain ⟨k, rec, hkey, hrecord, rfl⟩ := V.get_spec hs hget
          obtain rfl := Service.checkUpdate_ok hcheck
          obtain ⟨hinv, hup, hnew, hothers, hlog⟩ := V.update_spec hs hrecord hstore rfl rfl rfl
          exact .changed hcheck hkey hrecord hedge ⟨hinv, hup, hnew, hothers, hlog⟩
  | getRequest input => exact .unchanged rfl
  | listRequests input => exact .unchanged rfl

end Effects

end SecureSdlc.Domain

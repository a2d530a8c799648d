import SecureSdlc.Domain.Service
import SecureSdlc.Metatheory.StoreRefinement

/-!
A store as a table of requests next to the log of its outbox. The specifications give
the effect of every operation on the two; both stores meet them, the in-memory store
keyed by the request id and the database by the `UUID` the id's text denotes. A
creation time is whatever the store keeps of the text it is given.
-/

namespace SecureSdlc.Domain

open Core GoText

/-- A stored request, apart from its id. -/
structure Record (Stamp : Type) where
  title : String
  description : String
  subject : String
  status : String
  createdAt : Stamp

/-- An event of the outbox: the request its id denotes, whether it reports the creation,
and the status it carries. -/
structure LogEntry (Key : Type) where
  request : Option Key
  created : Bool
  status : String

/-- The reading of a store, with the effect of each operation on it. -/
structure TableView {σ : Type} (S : Store σ) where
  Key : Type
  Stamp : Type
  keyEq : DecidableEq Key
  key : String → Option Key
  text : Key → String
  key_text : ∀ k, key (text k) = some k
  stamp : String → Option Stamp
  stampText : Stamp → String
  Inv : σ → Prop
  /-- The store answers. -/
  Up : σ → Prop
  record : σ → Key → Option (Record Stamp)
  log : σ → List (LogEntry Key)
  get_spec : ∀ {s id r}, Inv s → S.getRequest s id = .ok r →
    ∃ k rec, key id = some k ∧ record s k = some rec ∧
      r = ⟨text k, rec.title, rec.description, rec.subject, rec.status, stampText rec.createdAt⟩
  get_found : ∀ {s id k rec}, Up s → key id = some k → record s k = some rec →
    ∃ r, S.getRequest s id = .ok r
  create_spec : ∀ {s s' r e}, Inv s → S.createRequestWithEvent s r e = .ok s' →
    e.eventType = eventTypeRequestCreated → e.request = r →
    Inv s' ∧ (Up s → Up s') ∧ ∃ k st, key r.id = some k ∧ stamp r.createdAt = some st ∧
      record s k = none ∧
      record s' k = some ⟨r.title, r.description, r.subject, r.status, st⟩ ∧
      (∀ k', k' ≠ k → record s' k' = record s k') ∧ log s' = log s ++ [⟨some k, true, r.status⟩]
  update_spec : ∀ {s s' k rec status e}, Inv s → record s k = some rec →
    S.updateRequestStatusWithEvent s
      ⟨text k, rec.title, rec.description, rec.subject, status, stampText rec.createdAt⟩ e =
        .ok s' →
    e.eventType = eventTypeRequestStatusChanged → e.request.id = text k →
    e.request.status = status →
    Inv s' ∧ (Up s → Up s') ∧ record s' k = some { rec with status := status } ∧
      (∀ k', k' ≠ k → record s' k' = record s k') ∧ log s' = log s ++ [⟨some k, false, status⟩]

instance {σ : Type} {S : Store σ} (V : TableView S) : DecidableEq V.Key := V.keyEq

theorem TableView.text_injective {σ : Type} {S : Store σ} (V : TableView S) {k k' : V.Key}
    (h : V.text k = V.text k') : k = k' := by
  have hk := V.key_text k
  rw [h, V.key_text k', Option.some.injEq] at hk
  exact hk.symm

section Effects

variable {σ : Type} {S : Store σ} (V : TableView S)

/-- The copy a waiting call holds shows the record under its key, the status apart. -/
def Copies (s : σ) (p : Pending) : Prop :=
  ∃ k rec, V.record s k = some rec ∧
    p.current = ⟨V.text k, rec.title, rec.description, rec.subject, p.current.status,
      V.stampText rec.createdAt⟩

variable {V}

theorem copies_of_read {s : σ} {id : String} {current : Request} (hinv : V.Inv s)
    (hg : S.getRequest s id = .ok current) (newStatus : String) (overtaken : Bool) :
    Copies V s ⟨current, newStatus, overtaken⟩ := by
  obtain ⟨k, rec, -, hrec, hcopy⟩ := V.get_spec hinv hg
  exact ⟨k, rec, hrec, by rw [hcopy]⟩

/-- The effect of a fresh request on the reading of the store. -/
theorem create_effect {s s' : σ} {input : CreateRequestRequest} {now : UtcTime}
    {requestID eventID : String} {r : Request} {e : Event} (hinv : V.Inv s)
    (hnew : Service.newRequest input now requestID eventID = .ok (r, e))
    (hc : S.createRequestWithEvent s r e = .ok s') :
    V.Inv s' ∧ (V.Up s → V.Up s') ∧ ∃ k st, V.key requestID = some k ∧
      V.stamp (formatRFC3339 now) = some st ∧ V.record s k = none ∧
      V.record s' k =
        some ⟨trimSpace input.title, input.description, input.subject, statusCreated, st⟩ ∧
      (∀ k', k' ≠ k → V.record s' k' = V.record s k') ∧
      V.log s' = V.log s ++ [⟨some k, true, statusCreated⟩] := by
  obtain ⟨rfl, rfl⟩ := Service.newRequest_ok hnew
  exact V.create_spec hinv hc rfl rfl

/-- The effect of a waiting call's write, whose copy may be stale. -/
theorem commit_effect {s s' : σ} {p : Pending} {now : UtcTime} {eventID : String}
    (hinv : V.Inv s) (hp : Copies V s p) (hc : commit S s p now eventID = .ok s') :
    V.Inv s' ∧ (V.Up s → V.Up s') ∧ ∃ k rec, p.current.id = V.text k ∧ V.record s k = some rec ∧
      V.record s' k = some { rec with status := p.newStatus } ∧
      (∀ k', k' ≠ k → V.record s' k' = V.record s k') ∧
      V.log s' = V.log s ++ [⟨some k, false, p.newStatus⟩] := by
  obtain ⟨k, rec, hrec, hcopy⟩ := hp
  have hid : p.current.id = V.text k := by rw [hcopy]
  have hupdated : { p.current with status := p.newStatus } =
      (⟨V.text k, rec.title, rec.description, rec.subject, p.newStatus,
        V.stampText rec.createdAt⟩ : Request) := by rw [hcopy]
  simp only [commit, Service.statusChange, hupdated] at hc
  obtain ⟨hinv', hup, hnew, hother, hlog⟩ := V.update_spec hinv hrec hc rfl rfl rfl
  exact ⟨hinv', hup, k, rec, hid, hrec, hnew, hother, hlog⟩

end Effects

/-- A table whose listings can be read too. -/
structure ListedTable {σ : Type} (S : RequestStore σ) where
  table : TableView S.toStore
  list_spec : ∀ {s filter rs}, table.Inv s → S.listRequests s filter = .ok rs → ∀ r ∈ rs,
    ∃ k rec, table.record s k = some rec ∧ filter.admits rec.status rec.subject = true ∧
      r = ⟨table.text k, rec.title, rec.description, rec.subject, rec.status,
        table.stampText rec.createdAt⟩

namespace MemoryStore

def recordOf (r : Request) : Record String :=
  ⟨r.title, r.description, r.subject, r.status, r.createdAt⟩

def logEntry (e : Event) : LogEntry String :=
  ⟨some e.request.id, e.eventType == eventTypeRequestCreated, e.request.status⟩

/-- Every request is filed once, under its own id. -/
def Filed (m : MemoryStore) : Prop :=
  m.Keyed ∧ Assoc.Unique m.requests

theorem filed_set {m : MemoryStore} (h : m.Filed) (r : Request) (events : List Event)
    (failWith : Option String) : Filed ⟨Assoc.set m.requests r.id r, events, failWith⟩ :=
  ⟨keyed_set h.1 r events failWith, Assoc.unique_set h.2 r.id r⟩

theorem filed_empty : Filed empty :=
  ⟨fun _ _ h => by simp [empty, Assoc.get] at h, List.nodup_nil⟩

theorem getRequest_eq_ok {m : MemoryStore} {id : String} {r : Request} (hup : m.failWith = none)
    (h : Assoc.get m.requests id = some r) : m.getRequest id = .ok r := by
  simp only [getRequest, hup, h]

theorem mem_truncate {limit : Int} {out : List Request} {r : Request}
    (h : r ∈ truncate limit out) : r ∈ out := by
  simp only [truncate] at h
  split at h
  · exact List.mem_of_mem_take h
  · exact h

/-- The in-memory store by request id. -/
def table : TableView store where
  Key := String
  Stamp := String
  keyEq := inferInstance
  key := some
  text := id
  key_text := key_text
  stamp := some
  stampText := id
  Inv := Filed
  Up m := m.failWith = none
  record m id := (Assoc.get m.requests id).map recordOf
  log m := m.events.map logEntry
  get_spec {s id r} hs h := by
    have hget := getRequest_ok h
    obtain rfl := hs.1 id r hget
    exact ⟨r.id, recordOf r, rfl, by simp [hget], rfl⟩
  get_found {s id k rec} hup hk hrec := by
    cases hk
    obtain ⟨r, hget, -⟩ := Option.map_eq_some_iff.mp hrec
    exact ⟨r, getRequest_eq_ok hup hget⟩
  create_spec {s s' r e} hs h he her := by
    obtain ⟨hnone, rfl⟩ := createRequestWithEvent_ok h
    refine ⟨filed_set hs _ _ _, fun hup => hup, r.id, r.createdAt, rfl, rfl, by simp [hnone],
      by simp [recordOf], fun k' hk => ?_, ?_⟩
    · simp only [Assoc.get_set_of_ne _ _ (Ne.symm hk)]
    · simp [logEntry, he, her]
  update_spec {s s' k rec status e} hs hrec h he hid hstatus := by
    obtain ⟨-, rfl⟩ := updateRequestStatusWithEvent_ok h
    refine ⟨filed_set hs ⟨k, _, _, _, _, _⟩ _ _, fun hup => hup, by simp [recordOf],
      fun k' hk => ?_, ?_⟩
    · simp only [id, Assoc.get_set_of_ne _ _ (Ne.symm hk)]
    · simp [logEntry, he, hid, hstatus, eventTypeRequestCreated, eventTypeRequestStatusChanged]

def listedTable : ListedTable requestStore where
  table := table
  list_spec {s filter rs} hs h r hr := by
    simp only [requestStore, listRequests] at h
    split at h
    · cases h
    · cases h
      have hmem := mem_truncate hr
      rw [List.mem_insertionSort, List.mem_filter, List.mem_map] at hmem
      obtain ⟨⟨⟨id, r⟩, hentry, rfl⟩, hadmits⟩ := hmem
      have hget := Assoc.get_of_mem hs.2 hentry
      obtain rfl := hs.1 id r hget
      exact ⟨r.id, recordOf r, by simp [table, hget], hadmits, rfl⟩

end MemoryStore

namespace PostgresStore

variable {C : Columns}

def recordOf (row : RequestRow C) : Record C.Instant :=
  ⟨row.title, row.description, row.subject, row.status, row.createdAt⟩

def logEntry (entry : C.Uuid × OutboxRow C) : LogEntry C.Uuid :=
  match entry.2.payload with
  | .requestCreated _ _ _ id _ status _ => ⟨C.castUuid id, true, status⟩
  | .requestStatusChanged _ _ _ id status _ _ => ⟨C.castUuid id, false, status⟩

/-- The database by the `UUID` of the request. -/
def table (C : Columns) : TableView (store C) where
  Key := C.Uuid
  Stamp := C.Instant
  keyEq := inferInstance
  key := C.castUuid
  text := C.uuidText
  key_text := C.cast_uuidText
  stamp := C.castTimestamp
  stampText := C.timestampText
  Inv p := Assoc.Unique p.requests
  Up p := p.failWith = none
  record p id := (Assoc.get p.requests id).map recordOf
  log p := p.outbox.map logEntry
  get_spec {s id r} _ h := by
    obtain ⟨uuid, row, hid, hget, rfl⟩ := getRequest_ok h
    exact ⟨uuid, recordOf row, hid, by simp [hget], rfl⟩
  get_found {s id k rec} hup hk hrec := by
    obtain ⟨row, hget, -⟩ := Option.map_eq_some_iff.mp hrec
    exact ⟨scan k row, by simp only [store, getRequest, hup, hk, hget]⟩
  create_spec {s s' r e} hs h he her := by
    obtain ⟨payload, id, createdAt, eventID, occurredAt, hpayload, hid, hat, -, -, hnone, -, rfl⟩ :=
      createRequestWithEvent_ok h
    simp only [buildPayload, he, if_true, Except.ok.injEq] at hpayload
    refine ⟨Assoc.unique_set hs _ _, fun hup => hup, id, createdAt, hid, hat, by simp [hnone],
      by simp [recordOf], fun k' hk => ?_, ?_⟩
    · simp only [Assoc.get_set_of_ne _ _ (Ne.symm hk)]
    · simp [logEntry, ← hpayload, her, hid]
  update_spec {s s' k rec status e} hs hrec h he hid hstatus := by
    obtain ⟨payload, id, row, eventID, occurredAt, hpayload, hcast, -, -, hget, -, rfl⟩ :=
      updateRequestStatusWithEvent_ok h
    rw [C.cast_uuidText, Option.some.injEq] at hcast
    subst hcast
    rw [hget, Option.map_some, Option.some.injEq] at hrec
    simp only [buildPayload, he, eventTypeRequestCreated, eventTypeRequestStatusChanged,
      String.reduceEq, if_false, if_true, Except.ok.injEq] at hpayload
    refine ⟨Assoc.unique_set hs _ _, fun hup => hup, by simp [recordOf, ← hrec],
      fun k' hk => ?_, ?_⟩
    · simp only [Assoc.get_set_of_ne _ _ (Ne.symm hk)]
    · simp [logEntry, ← hpayload, hid, hstatus, C.cast_uuidText]

def listedTable (C : OrderedColumns) : ListedTable (requestStore C) where
  table := table C.toColumns
  list_spec {s filter rs} hs h r hr := by
    simp only [requestStore, listRequests] at h
    split at h
    · cases h
    · split at h
      · cases h
      · cases h
        obtain ⟨⟨id, row⟩, hentry, rfl⟩ := List.mem_map.mp hr
        have hmem := List.mem_of_mem_take hentry
        rw [List.mem_insertionSort, List.mem_filter] at hmem
        have hget := Assoc.get_of_mem hs hmem.1
        exact ⟨id, recordOf row, by simp [table, hget], hmem.2, rfl⟩

end PostgresStore

end SecureSdlc.Domain

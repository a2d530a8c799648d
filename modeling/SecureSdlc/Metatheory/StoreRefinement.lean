import SecureSdlc.Domain.Service

/-!
What a store must do for the lifecycle, and that both stores do it. A view reads a
store as a status and a list of committed status changes for each request key; the
specifications say how the three operations move that reading. The in-memory store
is keyed by the request id, the database by the `UUID` the id's text denotes.
-/

namespace SecureSdlc.Domain

open Core

/-- The reading of a store, with the effect of each operation on it. -/
structure StoreView {σ : Type} (S : Store σ) where
  Key : Type
  key : String → Option Key
  text : Key → String
  key_text : ∀ k, key (text k) = some k
  Inv : σ → Prop
  status : σ → Key → Option String
  changes : σ → Key → List StatusChange
  get_spec : ∀ {s id r}, Inv s → S.getRequest s id = .ok r →
    ∃ k, r.id = text k ∧ status s k = some r.status
  create_spec : ∀ {s s' r e}, Inv s → S.createRequestWithEvent s r e = .ok s' →
    e.eventType = eventTypeRequestCreated →
    Inv s' ∧ ∃ k, status s k = none ∧ status s' k = some r.status ∧
      (∀ k', k' ≠ k → status s' k' = status s k') ∧ ∀ k', changes s' k' = changes s k'
  update_spec : ∀ {s s' k r e}, Inv s → r.id = text k →
    S.updateRequestStatusWithEvent s r e = .ok s' →
    e.eventType = eventTypeRequestStatusChanged → e.request = r →
    Inv s' ∧ status s k ≠ none ∧ status s' k = some r.status ∧
      (∀ k', k' ≠ k → status s' k' = status s k') ∧
      changes s' k = changes s k ++ [(e.previousStatus, r.status)] ∧
      ∀ k', k' ≠ k → changes s' k' = changes s k'

theorem StoreView.text_injective {σ : Type} {S : Store σ} (V : StoreView S) {k k' : V.Key}
    (h : V.text k = V.text k') : k = k' := by
  have hk := V.key_text k
  rw [h, V.key_text k', Option.some.injEq] at hk
  exact hk.symm

namespace MemoryStore

/-- The change an event of request `id` records, if it records one. -/
def changeOf (id : String) (e : Event) : Option StatusChange :=
  if e.eventType = eventTypeRequestStatusChanged ∧ e.request.id = id then
    some (e.previousStatus, e.request.status)
  else none

/-- The status changes committed for `id`, in commit order. -/
def statusChanges (m : MemoryStore) (id : String) : List StatusChange :=
  m.events.filterMap (changeOf id)

def storedStatus (m : MemoryStore) (id : String) : Option String :=
  (Assoc.get m.requests id).map Request.status

/-- Every request is filed under its own id. -/
def Keyed (m : MemoryStore) : Prop :=
  ∀ id r, Assoc.get m.requests id = some r → r.id = id

theorem keyed_set {m : MemoryStore} (h : m.Keyed) (r : Request) (events : List Event)
    (failWith : Option String) :
    Keyed ⟨Assoc.set m.requests r.id r, events, failWith⟩ := by
  intro id r' hr
  by_cases hid : r.id = id
  · subst hid
    rw [Assoc.get_set_self, Option.some.injEq] at hr
    rw [← hr]
  · rw [Assoc.get_set_of_ne _ _ hid] at hr
    exact h id r' hr

theorem createRequestWithEvent_ok {m m' : MemoryStore} {r : Request} {e : Event}
    (h : m.createRequestWithEvent r e = .ok m') :
    Assoc.get m.requests r.id = none ∧
      m' = { m with requests := Assoc.set m.requests r.id r, events := m.events ++ [e] } := by
  unfold createRequestWithEvent at h
  split at h
  · cases h
  · split at h
    · cases h
    · rename_i hget
      exact ⟨hget, (Except.ok.inj h).symm⟩

theorem updateRequestStatusWithEvent_ok {m m' : MemoryStore} {r : Request} {e : Event}
    (h : m.updateRequestStatusWithEvent r e = .ok m') :
    Assoc.get m.requests r.id ≠ none ∧
      m' = { m with requests := Assoc.set m.requests r.id r, events := m.events ++ [e] } := by
  unfold updateRequestStatusWithEvent at h
  split at h
  · cases h
  · split at h
    · cases h
    · rename_i hget
      exact ⟨by simp [hget], (Except.ok.inj h).symm⟩

theorem getRequest_ok {m : MemoryStore} {id : String} {r : Request}
    (h : m.getRequest id = .ok r) : Assoc.get m.requests id = some r := by
  unfold getRequest at h
  split at h
  · cases h
  · split at h
    · cases h
    · rename_i hget
      rw [hget, Except.ok.inj h]

/-- The in-memory store read by request id. -/
def view : StoreView store where
  Key := String
  key := some
  text := id
  key_text := key_text
  Inv := Keyed
  status := storedStatus
  changes := statusChanges
  get_spec {s id r} hs h := by
    have hget := getRequest_ok h
    have hid := hs id r hget
    subst hid
    exact ⟨r.id, rfl, by simp [storedStatus, hget]⟩
  create_spec {s s' r e} hs h he := by
    obtain ⟨hnone, rfl⟩ := createRequestWithEvent_ok h
    have hnew : ∀ id, changeOf id e = none := by
      intro id
      simp [changeOf, he, eventTypeRequestCreated, eventTypeRequestStatusChanged]
    refine ⟨keyed_set hs _ _ _, r.id, by simp [storedStatus, hnone], by simp [storedStatus],
      fun k' hk => ?_, fun k' => ?_⟩
    · simp only [storedStatus, Assoc.get_set_of_ne _ _ (Ne.symm hk)]
    · simp [statusChanges, hnew]
  update_spec {s s' k r e} hs hid h he her := by
    obtain ⟨hsome, rfl⟩ := updateRequestStatusWithEvent_ok h
    change r.id = k at hid
    subst hid
    refine ⟨keyed_set hs _ _ _, by simpa [storedStatus] using hsome, by simp [storedStatus],
      fun k' hk => ?_, ?_, fun k' hk => ?_⟩
    · simp only [storedStatus, Assoc.get_set_of_ne _ _ (Ne.symm hk)]
    · simp [statusChanges, changeOf, he, her]
    · simp [statusChanges, changeOf, he, her, Ne.symm hk]

end MemoryStore

namespace PostgresStore

variable {C : Columns}

/-- The change an outbox row of request `id` records, if it records one. -/
def changeOf (id : C.Uuid) (row : C.Uuid × OutboxRow C) : Option StatusChange :=
  match row.2.payload with
  | .requestStatusChanged _ _ _ rid status previousStatus _ =>
      if C.castUuid rid = some id then some (previousStatus, status) else none
  | .requestCreated .. => none

/-- The status changes committed for `id`, in commit order. -/
def statusChanges (p : PostgresStore C) (id : C.Uuid) : List StatusChange :=
  p.outbox.filterMap (changeOf id)

def storedStatus (p : PostgresStore C) (id : C.Uuid) : Option String :=
  (Assoc.get p.requests id).map RequestRow.status

theorem insertOutbox_ok {p p' : PostgresStore C} {e : Event} {payload : Payload}
    (h : p.insertOutbox e payload = .ok p') :
    ∃ eventID occurredAt, C.castUuid e.eventID = some eventID ∧
      C.castTimestamp e.occurredAt = some occurredAt ∧ Assoc.get p.outbox eventID = none ∧
      p' = { p with
        outbox := p.outbox ++ [(eventID, ⟨e.eventType, occurredAt, payload, none⟩)] } := by
  unfold insertOutbox at h
  split at h
  · rename_i eventID occurredAt hid hat
    split at h
    · cases h
    · rename_i hget
      have heq := (Except.ok.inj h).symm
      rw [Assoc.set_of_get_none _ hget] at heq
      exact ⟨eventID, occurredAt, hid, hat, hget, heq⟩
  · cases h

/-- Everything an accepted `CreateRequestWithEvent` has done. -/
theorem createRequestWithEvent_ok {p p' : PostgresStore C} {r : Request} {e : Event}
    (h : p.createRequestWithEvent r e = .ok p') :
    ∃ payload id createdAt eventID occurredAt, buildPayload e = .ok payload ∧
      C.castUuid r.id = some id ∧ C.castTimestamp r.createdAt = some createdAt ∧
      C.castUuid e.eventID = some eventID ∧ C.castTimestamp e.occurredAt = some occurredAt ∧
      Assoc.get p.requests id = none ∧ Assoc.get p.outbox eventID = none ∧
      p' = { p with
        requests := Assoc.set p.requests id
          ⟨r.title, r.description, r.subject, r.status, createdAt⟩
        outbox := p.outbox ++ [(eventID, ⟨e.eventType, occurredAt, payload, none⟩)] } := by
  unfold createRequestWithEvent at h
  split at h
  · cases h
  · rename_i payload hpayload
    split at h
    · cases h
    · split at h
      · cases h
      · split at h
        · rename_i id createdAt hid hat
          split at h
          · cases h
          · rename_i hget
            obtain ⟨eventID, occurredAt, hevent, hoccurred, hfresh, rfl⟩ := insertOutbox_ok h
            exact ⟨payload, id, createdAt, eventID, occurredAt, hpayload, hid, hat, hevent,
              hoccurred, hget, hfresh, rfl⟩
        · cases h

/-- Everything an accepted `UpdateRequestStatusWithEvent` has done. -/
theorem updateRequestStatusWithEvent_ok {p p' : PostgresStore C} {r : Request} {e : Event}
    (h : p.updateRequestStatusWithEvent r e = .ok p') :
    ∃ payload id row eventID occurredAt, buildPayload e = .ok payload ∧
      C.castUuid r.id = some id ∧ C.castUuid e.eventID = some eventID ∧
      C.castTimestamp e.occurredAt = some occurredAt ∧
      Assoc.get p.requests id = some row ∧ Assoc.get p.outbox eventID = none ∧
      p' = { p with
        requests := Assoc.set p.requests id { row with status := r.status }
        outbox := p.outbox ++ [(eventID, ⟨e.eventType, occurredAt, payload, none⟩)] } := by
  unfold updateRequestStatusWithEvent at h
  split at h
  · cases h
  · rename_i payload hpayload
    split at h
    · cases h
    · split at h
      · cases h
      · rename_i id hid
        split at h
        · cases h
        · rename_i row hget
          obtain ⟨eventID, occurredAt, hevent, hoccurred, hfresh, rfl⟩ := insertOutbox_ok h
          exact ⟨payload, id, row, eventID, occurredAt, hpayload, hid, hevent, hoccurred, hget,
            hfresh, rfl⟩

theorem getRequest_ok {p : PostgresStore C} {id : String} {r : Request}
    (h : p.getRequest id = .ok r) :
    ∃ uuid row, C.castUuid id = some uuid ∧ Assoc.get p.requests uuid = some row ∧
      r = scan uuid row := by
  unfold getRequest at h
  split at h
  · cases h
  · split at h
    · cases h
    · rename_i uuid huuid
      split at h
      · cases h
      · rename_i row hget
        exact ⟨uuid, row, huuid, hget, (Except.ok.inj h).symm⟩

private theorem storedStatus_set (p : PostgresStore C) (id k : C.Uuid) (row : RequestRow C)
    (outbox : List (C.Uuid × OutboxRow C)) :
    storedStatus { p with requests := Assoc.set p.requests id row, outbox := outbox } k =
      if id = k then some row.status else p.storedStatus k := by
  simp only [storedStatus, Assoc.get_set]
  split <;> rfl

/-- The database read by the `UUID` of the request. -/
def view (C : Columns) : StoreView (store C) where
  Key := C.Uuid
  key := C.castUuid
  text := C.uuidText
  key_text := C.cast_uuidText
  Inv _ := True
  status := storedStatus
  changes := statusChanges
  get_spec _ h := by
    obtain ⟨uuid, row, -, hget, rfl⟩ := getRequest_ok h
    exact ⟨uuid, rfl, by simp [storedStatus, hget, scan]⟩
  create_spec {s s' r e} _ h he := by
    obtain ⟨payload, id, createdAt, eventID, occurredAt, hpayload, hid, -, -, -, hnone, -, rfl⟩ :=
      createRequestWithEvent_ok h
    have hnew : ∀ k, changeOf k (eventID, ⟨e.eventType, occurredAt, payload, none⟩) = none := by
      intro k
      simp only [buildPayload, he, if_true, Except.ok.injEq] at hpayload
      simp [changeOf, ← hpayload]
    refine ⟨trivial, id, by simp [storedStatus, hnone], ?_, fun k hk => ?_, fun k => ?_⟩
    · rw [storedStatus_set, if_pos rfl]
    · rw [storedStatus_set, if_neg (Ne.symm hk)]
    · simp [statusChanges, hnew]
  update_spec {s s' k r e} _ hid h he her := by
    obtain ⟨payload, id, row, eventID, occurredAt, hpayload, hcast, -, -, hsome, -, rfl⟩ :=
      updateRequestStatusWithEvent_ok h
    rw [hid, C.cast_uuidText, Option.some.injEq] at hcast
    subst hcast
    have hchange : ∀ k', changeOf k' (eventID, ⟨e.eventType, occurredAt, payload, none⟩) =
        if k = k' then some (e.previousStatus, r.status) else none := by
      intro k'
      simp only [buildPayload, he, eventTypeRequestCreated,
        eventTypeRequestStatusChanged] at hpayload
      simp only [String.reduceEq, if_false, if_true, Except.ok.injEq] at hpayload
      simp [changeOf, ← hpayload, her, hid, C.cast_uuidText]
    refine ⟨trivial, by simp [storedStatus, hsome], ?_, fun k' hk => ?_, ?_, fun k' hk => ?_⟩
    · rw [storedStatus_set, if_pos rfl]
    · rw [storedStatus_set, if_neg (Ne.symm hk)]
    · simp [statusChanges, hchange]
    · simp [statusChanges, hchange, Ne.symm hk]

end PostgresStore

end SecureSdlc.Domain

import SecureSdlc.Core.GoJson
import SecureSdlc.Worker.Handler

/-!
The decoding of a message: `json.Unmarshal` into the wire representation of an event.
Members the worker does not know are left out, and a field that is not there stays empty.
-/

namespace SecureSdlc.Worker

open Core GoJson

def EventRequest.zero : EventRequest := ⟨"", "", "", ""⟩

def Event.zero : Event := ⟨"", "", "", EventRequest.zero⟩

/-- The fields of `EventRequest` by their JSON names. -/
def requestFields : Fields EventRequest :=
  [stringField "id" EventRequest.id fun r s => { r with id := s },
    stringField "title" EventRequest.title fun r s => { r with title := s },
    stringField "status" EventRequest.status fun r s => { r with status := s },
    stringField "created_at" EventRequest.createdAt fun r s => { r with createdAt := s }]

/-- The fields of `Event` by their JSON names. -/
def eventFields : Fields Event :=
  [stringField "event_id" Event.eventID fun e s => { e with eventID := s },
    stringField "event_type" Event.eventType fun e s => { e with eventType := s },
    stringField "occurred_at" Event.occurredAt fun e s => { e with occurredAt := s },
    structField "request" requestFields Event.request fun e r => { e with request := r }]

/-- `json.Unmarshal(data, &event)` -/
def unmarshal (data : List UInt8) : Option Event :=
  GoJson.unmarshal eventFields Event.zero data

/-- Where the members of a request are stored. -/
theorem requestFields_index :
    fieldIndex (requestFields.map Prod.fst) (py "id") = some 0 ∧
    fieldIndex (requestFields.map Prod.fst) (py "title") = some 1 ∧
    fieldIndex (requestFields.map Prod.fst) (py "status") = some 2 ∧
    fieldIndex (requestFields.map Prod.fst) (py "created_at") = some 3 ∧
    fieldIndex (requestFields.map Prod.fst) (py "previous_status") = none ∧
    fieldIndex (requestFields.map Prod.fst) (py "updated_at") = none := by
  decide +kernel

/-- Where the members of an event are stored. -/
theorem eventFields_index :
    fieldIndex (eventFields.map Prod.fst) (py "event_id") = some 0 ∧
    fieldIndex (eventFields.map Prod.fst) (py "event_type") = some 1 ∧
    fieldIndex (eventFields.map Prod.fst) (py "occurred_at") = some 2 ∧
    fieldIndex (eventFields.map Prod.fst) (py "request") = some 3 := by
  decide +kernel

/-- The request of a creation. -/
theorem store_created (id title status createdAt : String) :
    storeStruct requestFields EventRequest.zero (.obj [(py "id", .str (py id)),
      (py "title", .str (py title)), (py "status", .str (py status)),
      (py "created_at", .str (py createdAt))]) = some ⟨id, title, status, createdAt⟩ := by
  obtain ⟨hid, htitle, hstatus, hcreatedAt, -, -⟩ := requestFields_index
  simp only [storeStruct, List.foldlM_cons, List.foldlM_nil, storeMember_string hid rfl,
    storeMember_string htitle rfl, storeMember_string hstatus rfl,
    storeMember_string hcreatedAt rfl, Option.bind_eq_bind, Option.bind_some]
  rfl

/-- The request of a status change: what only that event has is left out. -/
theorem store_known (id status : String) {unknown : List (PyStr × Json)}
    (h : ∀ m ∈ unknown, fieldIndex (requestFields.map Prod.fst) m.1 = none) :
    storeStruct requestFields EventRequest.zero (.obj ((py "id", .str (py id)) ::
      (py "status", .str (py status)) :: unknown)) = some ⟨id, "", status, ""⟩ := by
  obtain ⟨hid, -, hstatus, -, -, -⟩ := requestFields_index
  simp only [storeStruct, List.foldlM_cons, storeMember_string hid rfl,
    storeMember_string hstatus rfl, Option.bind_eq_bind, Option.bind_some, storeMembers_unknown h]
  rfl

theorem store_changed (id status previousStatus updatedAt : String) :
    storeStruct requestFields EventRequest.zero (.obj [(py "id", .str (py id)),
      (py "status", .str (py status)), (py "previous_status", .str (py previousStatus)),
      (py "updated_at", .str (py updatedAt))]) = some ⟨id, "", status, ""⟩ := by
  obtain ⟨-, -, -, -, hprevious, hupdatedAt⟩ := requestFields_index
  exact store_known id status (List.forall_mem_cons.mpr
    ⟨hprevious, List.forall_mem_singleton.mpr hupdatedAt⟩)

theorem store_event {v : Json} {r : EventRequest} (eventID eventType occurredAt : String)
    (h : storeStruct requestFields EventRequest.zero v = some r) :
    storeStruct eventFields Event.zero (.obj [(py "event_id", .str (py eventID)),
      (py "event_type", .str (py eventType)), (py "occurred_at", .str (py occurredAt)),
      (py "request", v)]) = some ⟨eventID, eventType, occurredAt, r⟩ := by
  obtain ⟨heventID, heventType, hoccurredAt, hrequest⟩ := eventFields_index
  simp only [storeStruct, List.foldlM_cons, List.foldlM_nil, storeMember_string heventID rfl,
    storeMember_string heventType rfl, storeMember_string hoccurredAt rfl, Option.bind_eq_bind,
    Option.bind_some]
  rw [storeMember_struct hrequest rfl h]
  rfl

end SecureSdlc.Worker

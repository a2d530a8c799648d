import SecureSdlc.Core.GoJson
import SecureSdlc.Domain.Store

/-!
The bytes of a payload. The two structs that are marshalled share the members of an
event and differ in those of its request; what is written is parsed as the document
with these members, whatever characters the strings have. The column `payload JSONB` keeps
the document and not its spelling, so it is read with the spelling of the database.
-/

namespace SecureSdlc.Domain

open Core GoJson

/-- A field of a struct that holds a string. -/
def marshalField (field : String × String) : PyStr × PyStr :=
  (py field.1, marshalString (py field.2))

/-- `outboxPayload` and `statusChangedPayload`, from the fields of their request. -/
def marshalEvent (eventID eventType occurredAt : String) (request : List (String × String)) :
    PyStr :=
  marshalStruct
    [marshalField ("event_id", eventID), marshalField ("event_type", eventType),
      marshalField ("occurred_at", occurredAt),
      (py "request", marshalStruct (request.map marshalField))]

/-- `json.Marshal(payload)` as text. -/
def Payload.text : Payload → PyStr
  | .requestCreated eventID eventType occurredAt id title status createdAt =>
      marshalEvent eventID eventType occurredAt
        [("id", id), ("title", title), ("status", status), ("created_at", createdAt)]
  | .requestStatusChanged eventID eventType occurredAt id status previousStatus updatedAt =>
      marshalEvent eventID eventType occurredAt
        [("id", id), ("status", status), ("previous_status", previousStatus),
          ("updated_at", updatedAt)]

/-- `json.Marshal(payload)` -/
def Payload.bytes (payload : Payload) : Bytes := encode payload.text

/-- The writing of `jsonb`: only controls are written by their number, and a blank stands after
each colon and comma. -/
def jsonb : Writing where
  quote s := cp '"' :: (s.flatMap (escapeBy fun c => decide (c.val < 0x20)) ++ [cp '"'])
  gap := [cp ' ']

def storedField (field : String × String) : PyStr × PyStr :=
  (py field.1, jsonb.quote (py field.2))

/-- An event in the column: the members of an object by the length of their names. -/
def storedEvent (eventID eventType occurredAt : String) (request : List (String × String)) :
    PyStr :=
  jsonb.object
    [(py "request", jsonb.object (request.map storedField)), storedField ("event_id", eventID),
      storedField ("event_type", eventType), storedField ("occurred_at", occurredAt)]

/-- The column `payload` as it is read. -/
def Payload.stored : Payload → Bytes
  | .requestCreated eventID eventType occurredAt id title status createdAt =>
      encode (storedEvent eventID eventType occurredAt
        [("id", id), ("title", title), ("status", status), ("created_at", createdAt)])
  | .requestStatusChanged eventID eventType occurredAt id status previousStatus updatedAt =>
      encode (storedEvent eventID eventType occurredAt
        [("id", id), ("status", status), ("updated_at", updatedAt),
          ("previous_status", previousStatus)])

/-- An object of strings. -/
def stringsValue (fields : List (String × String)) : Json :=
  .obj (fields.map fun field => (py field.1, .str (py field.2)))

def eventValue (eventID eventType occurredAt : String) (request : Json) : Json :=
  .obj [(py "event_id", .str (py eventID)), (py "event_type", .str (py eventType)),
    (py "occurred_at", .str (py occurredAt)), (py "request", request)]

/-- The document a payload is written as. -/
def Payload.value : Payload → Json
  | .requestCreated eventID eventType occurredAt id title status createdAt =>
      eventValue eventID eventType occurredAt (stringsValue
        [("id", id), ("title", title), ("status", status), ("created_at", createdAt)])
  | .requestStatusChanged eventID eventType occurredAt id status previousStatus updatedAt =>
      eventValue eventID eventType occurredAt (stringsValue
        [("id", id), ("status", status), ("previous_status", previousStatus),
          ("updated_at", updatedAt)])

/-- A field of a struct that holds a string, in either writing. -/
def stringMember (w : Writing) (field : String × String) : Member :=
  ⟨py field.1, w.quote (py field.2), .str (py field.2)⟩

section Writings

variable {w : Writing} (hw : w.Legible)

include hw

theorem spells_fields (depth : Nat) (fields : List (String × String)) :
    Spells (depth + 1) (w.object (fields.map fun field => (py field.1, w.quote (py field.2))))
      (stringsValue fields) := by
  have hspells := spells_object hw (fields.map (stringMember w))
    (List.forall_mem_map.mpr fun field _ => scalars_py field.1)
    (List.forall_mem_map.mpr fun field _ => spells_quote hw (scalars_py field.2) depth)
  rw [List.map_map, List.map_map] at hspells
  exact hspells

/-- An object of strings and of one more member. -/
theorem spells_members (depth : Nat) (members : List Member)
    (h : ∀ m ∈ members, (∃ field, m = stringMember w field) ∨
      Scalars m.name ∧ Spells depth m.text m.value) :
    Spells (depth + 1) (w.object (members.map fun m => (m.name, m.text)))
      (.obj (members.map fun m => (m.name, m.value))) := by
  refine spells_object hw members (fun m hm => ?_) fun m hm => ?_
  · rcases h m hm with ⟨field, rfl⟩ | hmember
    · exact scalars_py _
    · exact hmember.1
  · rcases h m hm with ⟨field, rfl⟩ | hmember
    · exact spells_quote hw (scalars_py _) depth
    · exact hmember.2

end Writings

theorem spells_strings (depth : Nat) (fields : List (String × String)) :
    Spells (depth + 1) (marshalStruct (fields.map marshalField)) (stringsValue fields) :=
  spells_fields marshalled_legible depth fields

theorem spells_marshalEvent (depth : Nat) (eventID eventType occurredAt : String)
    (request : List (String × String)) :
    Spells (depth + 2) (marshalEvent eventID eventType occurredAt request)
      (eventValue eventID eventType occurredAt (stringsValue request)) := by
  have hspells := spells_members marshalled_legible (depth + 1)
    [stringMember marshalled ("event_id", eventID),
      stringMember marshalled ("event_type", eventType),
      stringMember marshalled ("occurred_at", occurredAt),
      ⟨py "request", marshalStruct (request.map marshalField), stringsValue request⟩] (by
    simp only [List.forall_mem_cons, List.not_mem_nil, false_implies, implies_true, and_true]
    exact ⟨.inl ⟨_, rfl⟩, .inl ⟨_, rfl⟩, .inl ⟨_, rfl⟩,
      .inr ⟨scalars_py _, spells_strings depth request⟩⟩)
  simpa only [List.map_cons, List.map_nil, stringMember, marshalEvent, marshalField, eventValue,
    marshalled_object, marshalled_quote] using hspells

theorem scalars_strings (fields : List (String × String)) :
    Scalars (marshalStruct (fields.map marshalField)) :=
  scalars_marshalStruct (List.forall_mem_map.mpr fun field _ =>
    ⟨scalars_py field.1, scalars_marshalString (scalars_py field.2)⟩)

theorem scalars_marshalEvent (eventID eventType occurredAt : String)
    (request : List (String × String)) :
    Scalars (marshalEvent eventID eventType occurredAt request) := by
  apply scalars_marshalStruct
  simp only [List.forall_mem_cons, List.not_mem_nil, false_implies, implies_true, and_true]
  exact ⟨⟨scalars_py _, scalars_marshalString (scalars_py _)⟩,
    ⟨scalars_py _, scalars_marshalString (scalars_py _)⟩,
    ⟨scalars_py _, scalars_marshalString (scalars_py _)⟩, ⟨scalars_py _, scalars_strings request⟩⟩

/-- The bytes of a payload are parsed as its document. -/
theorem Payload.parse_bytes (payload : Payload) :
    parse (runes payload.bytes) = some payload.value := by
  have hscalars : Scalars payload.text := by
    cases payload <;> exact scalars_marshalEvent _ _ _ _
  have hspells : Spells maxNestingDepth payload.text payload.value := by
    cases payload <;> exact spells_marshalEvent 9998 _ _ _ _
  rw [Payload.bytes, runes_encode hscalars, parse_of_spells hspells]

end SecureSdlc.Domain

import SecureSdlc.Contracts.Events
import SecureSdlc.Domain.Payload
import SecureSdlc.Metatheory.StoreEquivalence
import SecureSdlc.Worker.Wire

/-!
The three descriptions of an event agree. Whatever the service hands to its store is
marshalled, is valid under the schema of its type, and is decoded by the worker as the
event it was. The ids of the requests read back are canonical because the stores keep
them so, and the statuses are those of the lifecycle because an update is checked.
-/

namespace SecureSdlc.Domain

open Core GoText

section Events

/-- What the service promises of an event. -/
structure Sound (e : Event) : Prop where
  eventID : Canonical e.eventID
  id : Canonical e.request.id
  occurredAt : ∃ t : UtcTime, t.onCalendar = true ∧ e.occurredAt = formatRFC3339 t
  kind : (e.eventType = eventTypeRequestCreated ∧ 1 ≤ runeCount e.request.title ∧
      e.request.status = statusCreated ∧ e.request.createdAt = e.occurredAt) ∨
    (e.eventType = eventTypeRequestStatusChanged ∧
      canTransition e.previousStatus e.request.status = true)

/-- What the worker makes of the bytes is the event, as far as the worker has its fields. -/
structure Carries (received : Worker.Event) (e : Event) : Prop where
  eventID : received.eventID = e.eventID
  eventType : received.eventType = e.eventType
  occurredAt : received.occurredAt = e.occurredAt
  id : received.request.id = e.request.id
  status : received.request.status = e.request.status
  created : e.eventType = eventTypeRequestCreated →
    received.request.title = e.request.title ∧ received.request.createdAt = e.request.createdAt

/-- The payload of an event, under its schema and in the worker. -/
structure Conforms (e : Event) (payload : Payload) : Prop where
  built : buildPayload e = .ok payload
  valid : ∃ v schema, GoJson.parse (GoJson.runes payload.bytes) = some v ∧
    Assoc.get Contracts.eventSchemas e.eventType = some schema ∧ schema.valid v = true
  handled : ∃ received, Worker.unmarshal payload.bytes = some received ∧ Carries received e ∧
    ∀ {δ : Type} (D : Worker.Dedupe δ) (state : Worker.State δ) (d : Worker.Delivery),
      d.data = payload.bytes →
        Worker.handle D Worker.unmarshal state d = Worker.handleEvent D state d received

theorem Canonical.isUuid {id : String} (h : Canonical id) : Contracts.isUuid (py id) = true := by
  obtain ⟨bytes, hlength, rfl⟩ := h
  exact Contracts.isUuid_hyphenated hlength

theorem Canonical.ne_empty {id : String} (h : Canonical id) : id ≠ "" := by
  rintro rfl
  exact absurd h.isUuid (by decide)

/-- Both ends of a transition are statuses of the lifecycle. -/
theorem known_of_canTransition {source target : String}
    (h : canTransition source target = true) :
    source ∈ transitions.map Prod.fst ∧ target ∈ transitions.map Prod.fst := by
  obtain ⟨rfl, rfl | rfl⟩ | ⟨rfl, rfl | rfl⟩ | ⟨rfl, rfl | rfl⟩ | ⟨rfl, rfl⟩ :=
    canTransition_cases h <;> decide

/-- A payload conforms when its document does. -/
theorem conforms_of_value (schema : Schema) {e : Event} {payload : Payload}
    {received : Worker.Event} (hid : e.eventID ≠ "") (hbuilt : buildPayload e = .ok payload)
    (hschema : Assoc.get Contracts.eventSchemas e.eventType = some schema)
    (hvalid : schema.valid payload.value = true)
    (hstored : GoJson.storeStruct Worker.eventFields Worker.Event.zero payload.value =
      some received)
    (hcarries : Carries received e) (htype : e.eventType ∈ Worker.supportedEventTypes) :
    Conforms e payload := by
  have hdecoded : Worker.unmarshal payload.bytes = some received := by
    rw [Worker.unmarshal, GoJson.unmarshal, payload.parse_bytes, Option.bind_some, hstored]
  refine ⟨hbuilt, ⟨_, schema, payload.parse_bytes, hschema, hvalid⟩, received, hdecoded,
    hcarries, ?_⟩
  intro δ D state d hdata
  rw [← hcarries.eventID] at hid
  rw [← hcarries.eventType] at htype
  simp only [Worker.handle, hdata, hdecoded, hid, htype, not_true_eq_false, if_false]

section Schemas

open Contracts

theorem valid_strings (fields : List (String × Schema × String))
    (hnames : ((fields.map Prod.fst).map py).Nodup)
    (h : ∀ field ∈ fields, field.2.1.valid (.str (py field.2.2)) = true) :
    (closed (fields.map fun field => (field.1, field.2.1)) []).valid
      (stringsValue (fields.map fun field => (field.1, field.2.2))) = true := by
  have hvalid := valid_closed (fields.map fun field => (field.1, field.2.1, .str (py field.2.2)))
    (by
      have hfirst : (fields.map fun field => (field.1, field.2.1,
          Json.str (py field.2.2))).map Prod.fst = fields.map Prod.fst := by
        rw [List.map_map]
        rfl
      rw [hfirst]
      exact hnames) (List.forall_mem_map.mpr h)
  rw [List.map_map, List.map_map] at hvalid
  rw [stringsValue, List.map_map]
  exact hvalid

theorem valid_event (eventType : String) {eventID occurredAt : String} {schema : Schema}
    {request : Json}
    (hid : Canonical eventID) (hoccurredAt : isDateTime (py occurredAt) = true)
    (hrequest : schema.valid request = true) :
    (closed [("event_id", uuid), ("event_type", exactly eventType), ("occurred_at", dateTime),
      ("request", schema)] []).valid (eventValue eventID eventType occurredAt request) = true := by
  have hnames : (["event_id", "event_type", "occurred_at", "request"].map py).Nodup := by
    decide +kernel
  refine valid_closed [("event_id", uuid, .str (py eventID)),
    ("event_type", exactly eventType, .str (py eventType)),
    ("occurred_at", dateTime, .str (py occurredAt)), ("request", schema, request)] hnames ?_
  simp only [List.forall_mem_cons, List.not_mem_nil, false_implies, implies_true, and_true]
  exact ⟨valid_str hid.isUuid, valid_str (decide_eq_true rfl), valid_str hoccurredAt, hrequest⟩

end Schemas

open Contracts in
theorem conforms_created {e : Event} (h : Sound e) (htype : e.eventType = eventTypeRequestCreated)
    (htitle : 1 ≤ runeCount e.request.title) (hstatus : e.request.status = statusCreated)
    (hcreatedAt : e.request.createdAt = e.occurredAt) :
    ∃ payload, Conforms e payload := by
  obtain ⟨t, ht, hoccurredAt⟩ := h.occurredAt
  have hdate : isDateTime (py e.occurredAt) = true := by
    rw [hoccurredAt]
    exact isDateTime_formatRFC3339 ht
  have hnames : (["id", "title", "status", "created_at"].map py).Nodup := by decide +kernel
  have hrequest := valid_strings [("id", uuid, e.request.id), ("title", nonEmpty, e.request.title),
    ("status", oneOf ["created"], e.request.status),
    ("created_at", dateTime, e.request.createdAt)] hnames (by
      simp only [List.forall_mem_cons, List.not_mem_nil, false_implies, implies_true, and_true]
      refine ⟨valid_str h.id.isUuid, valid_str ?_, valid_str ?_, valid_str ?_⟩
      · rw [StringRule.admits, py, List.length_map]
        exact decide_eq_true htitle
      · rw [hstatus]
        decide
      · rw [hcreatedAt]
        exact hdate)
  have hbuilt : buildPayload e = .ok (.requestCreated e.eventID e.eventType e.occurredAt
      e.request.id e.request.title e.request.status e.request.createdAt) := by
    rw [buildPayload, if_pos htype]
  have hvalid := valid_event eventTypeRequestCreated h.eventID hdate hrequest
  have hstored := Worker.store_event e.eventID e.eventType e.occurredAt
    (Worker.store_created e.request.id e.request.title e.request.status e.request.createdAt)
  refine ⟨_, conforms_of_value requestCreatedSchema h.eventID.ne_empty hbuilt ?_ ?_
    hstored ⟨rfl, rfl, rfl, rfl, rfl, fun _ => ⟨rfl, rfl⟩⟩ ?_⟩
  · rw [htype]
    rfl
  · rw [htype]
    exact hvalid
  · rw [htype]
    decide

open Contracts in
theorem conforms_changed {e : Event} (h : Sound e)
    (htype : e.eventType = eventTypeRequestStatusChanged)
    (hedge : canTransition e.previousStatus e.request.status = true) :
    ∃ payload, Conforms e payload := by
  obtain ⟨t, ht, hoccurredAt⟩ := h.occurredAt
  have hdate : isDateTime (py e.occurredAt) = true := by
    rw [hoccurredAt]
    exact isDateTime_formatRFC3339 ht
  have hlifecycle : ∀ status ∈ transitions.map Prod.fst, (oneOf ["created", "triaged",
      "in_progress", "resolved", "closed", "cancelled"]).valid (.str (py status)) = true := by
    decide +kernel
  have hstatuses := known_of_canTransition hedge
  have hnames : (["id", "status", "previous_status", "updated_at"].map py).Nodup := by
    decide +kernel
  have hrequest := valid_strings [("id", uuid, e.request.id),
    ("status", oneOf ["created", "triaged", "in_progress", "resolved", "closed", "cancelled"],
      e.request.status),
    ("previous_status",
      oneOf ["created", "triaged", "in_progress", "resolved", "closed", "cancelled"],
      e.previousStatus),
    ("updated_at", dateTime, e.occurredAt)] hnames (by
      simp only [List.forall_mem_cons, List.not_mem_nil, false_implies, implies_true, and_true]
      exact ⟨valid_str h.id.isUuid, hlifecycle _ hstatuses.2, hlifecycle _ hstatuses.1,
        valid_str hdate⟩)
  have hother : eventTypeRequestStatusChanged ≠ eventTypeRequestCreated := by decide
  have hbuilt : buildPayload e = .ok (.requestStatusChanged e.eventID e.eventType e.occurredAt
      e.request.id e.request.status e.previousStatus e.occurredAt) := by
    rw [buildPayload, htype, if_neg hother, if_pos rfl]
  have hvalid := valid_event eventTypeRequestStatusChanged h.eventID hdate hrequest
  have hstored := Worker.store_event e.eventID e.eventType e.occurredAt
    (Worker.store_changed e.request.id e.request.status e.previousStatus e.occurredAt)
  refine ⟨_, conforms_of_value requestStatusChangedSchema h.eventID.ne_empty hbuilt
    ?_ ?_ hstored ⟨rfl, rfl, rfl, rfl, rfl, fun hcreated => ?_⟩ ?_⟩
  · rw [htype]
    rfl
  · rw [htype]
    exact hvalid
  · exact absurd (htype.symm.trans hcreated) hother
  · rw [htype]
    decide

theorem Sound.conforms {e : Event} (h : Sound e) : ∃ payload, Conforms e payload := by
  rcases h.kind with ⟨htype, htitle, hstatus, hcreatedAt⟩ | ⟨htype, hedge⟩
  · exact conforms_created h htype htitle hstatus hcreatedAt
  · exact conforms_changed h htype hedge

end Events

section Runs

/-- Times of the calendar and canonical ids. -/
def Action.Plain : Action → Prop
  | .createRequest _ now requestID eventID =>
      now.onCalendar = true ∧ Canonical requestID ∧ Canonical eventID
  | .write _ now eventID => now.onCalendar = true ∧ Canonical eventID
  | .read _ | .abort _ => True

/-- The event that a step hands to the store, whatever the store makes of it. A step that
fails in the database had an event too, of some time and some id. -/
inductive Hands {σ : Type} (sys : System σ) : Action → Event → Prop where
  | created {input now requestID eventID r e}
      (h : Service.newRequest input now requestID eventID = .ok (r, e)) :
      Hands sys (.createRequest input now requestID eventID) e
  | changed {call now eventID p} (h : sys.pending[call]? = some p) :
      Hands sys (.write call now eventID)
        (Service.statusChange p.current p.newStatus now eventID).2
  | refused {call now eventID p} (h : sys.pending[call]? = some p)
      (hnow : now.onCalendar = true) (hid : Canonical eventID) :
      Hands sys (.abort call) (Service.statusChange p.current p.newStatus now eventID).2

/-- The store gives back requests with canonical ids, and keeps to this. -/
structure KeepsCanonical {σ : Type} (S : Store σ) (Inv : σ → Prop) : Prop where
  get : ∀ {s id r}, Inv s → S.getRequest s id = .ok r → Canonical r.id
  create : ∀ {s s' r e}, Inv s → Canonical r.id → S.createRequestWithEvent s r e = .ok s' → Inv s'
  update : ∀ {s s' r e}, Inv s → Canonical r.id →
    S.updateRequestStatusWithEvent s r e = .ok s' → Inv s'

def MemoryStore.AllCanonical (m : MemoryStore) : Prop :=
  ∀ entry ∈ m.requests, Canonical entry.2.id

theorem memory_keepsCanonical : KeepsCanonical MemoryStore.store MemoryStore.AllCanonical where
  get hs h := hs _ (Assoc.mem_of_get (MemoryStore.getRequest_ok h))
  create hs hid h := by
    obtain ⟨-, rfl⟩ := MemoryStore.createRequestWithEvent_ok h
    intro entry hentry
    rcases Assoc.mem_set hentry with rfl | hold
    · exact hid
    · exact hs entry hold
  update hs hid h := by
    obtain ⟨-, rfl⟩ := MemoryStore.updateRequestStatusWithEvent_ok h
    intro entry hentry
    rcases Assoc.mem_set hentry with rfl | hold
    · exact hid
    · exact hs entry hold

theorem postgres_keepsCanonical (C : OrderedColumns) :
    KeepsCanonical (PostgresStore.store C.toColumns) fun _ => True where
  get _ h := by
    obtain ⟨uuid, row, -, -, rfl⟩ := PostgresStore.getRequest_ok h
    exact ⟨C.uuidBytes uuid, C.uuidBytes_length uuid, C.uuidText_eq uuid⟩
  create _ _ _ := trivial
  update _ _ _ := trivial

variable {σ : Type} {S : Store σ} {Inv : σ → Prop}

/-- The waiting calls hold requests with canonical ids, and targets that were checked. -/
structure Prepared (Inv : σ → Prop) (sys : System σ) : Prop where
  store : Inv sys.store
  pending : ∀ p ∈ sys.pending, Canonical p.current.id ∧
    canTransition p.current.status p.newStatus = true

theorem Prepared.step (hS : KeepsCanonical S Inv) {sys : System σ} {a : Action}
    (h : Prepared Inv sys) (ha : a.Plain) : Prepared Inv (Domain.step S sys a) := by
  rcases step_cases S sys a with ⟨hstore, hpending⟩ |
    ⟨input, now, requestID, eventID, r, e, s', rfl, hnew, hcreate, hstep⟩ |
    ⟨id, current, newStatus, hget, hedge, hstep⟩ | ⟨call, now, eventID, p, s', rfl, hp, hc, hstep⟩
  · exact ⟨by rw [hstore]; exact h.store, fun p hp => h.pending p (hpending p hp)⟩
  · rw [hstep]
    refine ⟨hS.create h.store ?_ hcreate, h.pending⟩
    rw [(Service.newRequest_ok hnew).1]
    exact ha.2.1
  · rw [hstep]
    refine ⟨h.store, List.forall_mem_append.mpr ⟨h.pending, ?_⟩⟩
    exact List.forall_mem_singleton.mpr ⟨hS.get h.store hget, hedge⟩
  · rw [hstep]
    have hid := (h.pending p (List.mem_of_getElem? hp)).1
    refine ⟨hS.update (r := { p.current with status := p.newStatus }) h.store hid hc, ?_⟩
    intro q hq
    obtain ⟨q₀, hq₀, rfl⟩ := List.mem_map.mp hq
    exact h.pending q₀ (List.mem_of_mem_eraseIdx hq₀)

theorem Prepared.run (hS : KeepsCanonical S Inv) {sys : System σ} {acts : List Action}
    (h : Prepared Inv sys) (hacts : ∀ a ∈ acts, a.Plain) :
    Prepared Inv (Core.run (Domain.step S) sys acts) := by
  refine run_invariant (Domain.step S) (fun _ a => a.Plain) (Prepared Inv)
    (fun _ _ hs ha => hs.step hS ha) sys acts h ?_
  rw [allSteps_iff_split]
  intro pre a post heq
  exact hacts a (by rw [heq]; exact List.mem_append_right _ List.mem_cons_self)

theorem sound_statusChange {p : Pending} {now : UtcTime} {eventID : String}
    (hp : Canonical p.current.id ∧ canTransition p.current.status p.newStatus = true)
    (hnow : now.onCalendar = true) (hid : Canonical eventID) :
    Sound (Service.statusChange p.current p.newStatus now eventID).2 :=
  ⟨hid, hp.1, ⟨now, hnow, rfl⟩, .inr ⟨rfl, hp.2⟩⟩

theorem Prepared.sound {sys : System σ} {a : Action} {e : Event} (h : Prepared Inv sys)
    (ha : a.Plain) (he : Hands sys a e) : Sound e := by
  cases he with
  | created hnew =>
      obtain ⟨hr, he⟩ := Service.newRequest_ok hnew
      have htitle := Service.newRequest_title_ne hnew
      rw [he, hr]
      exact ⟨ha.2.2, ha.2.1, ⟨_, ha.1, rfl⟩, .inl ⟨rfl, htitle, rfl, rfl⟩⟩
  | changed hp => exact sound_statusChange (h.pending _ (List.mem_of_getElem? hp)) ha.1 ha.2
  | refused hp hnow hid => exact sound_statusChange (h.pending _ (List.mem_of_getElem? hp)) hnow hid

/-- Every event handed to either store, in any state a schedule leads to, has a payload that
conforms to its schema and that the worker takes as this event. -/
theorem handed_conforms (C : OrderedColumns) (acts : List Action) (a : Action)
    (hacts : ∀ b ∈ acts, b.Plain) (ha : a.Plain) :
    (∀ e, Hands (Core.run (step MemoryStore.store) ⟨MemoryStore.empty, []⟩ acts) a e →
      ∃ payload, Conforms e payload) ∧
    ∀ e, Hands (Core.run (step (PostgresStore.store C.toColumns)) ⟨PostgresStore.empty, []⟩ acts)
      a e → ∃ payload, Conforms e payload := by
  have hmemory : Prepared MemoryStore.AllCanonical ⟨MemoryStore.empty, []⟩ :=
    ⟨fun _ hentry => (nomatch hentry), fun _ hp => (nomatch hp)⟩
  have hpostgres : Prepared (fun _ : PostgresStore C.toColumns => True)
      ⟨PostgresStore.empty, []⟩ := ⟨trivial, fun _ hp => (nomatch hp)⟩
  refine ⟨fun e he => ?_, fun e he => ?_⟩
  · exact ((hmemory.run memory_keepsCanonical hacts).sound ha he).conforms
  · exact ((hpostgres.run (postgres_keepsCanonical C) hacts).sound ha he).conforms

/-- The id whose bytes are all `n`. -/
def evenId (n : UInt8) : String := Core.Uuid.hyphenated (List.replicate 16 n)

theorem canonical_evenId (n : UInt8) : Canonical (evenId n) :=
  ⟨List.replicate 16 n, rfl, rfl⟩

/-- A request with a quote and a line break in its title, and an operator about to triage it. -/
def triage : List Action :=
  [.createRequest ⟨"say \"hi\"\n& go", "", "alice"⟩ noon (evenId 1) (evenId 2),
    .read ⟨evenId 1, statusTriaged, "bob", roleOperator⟩]

theorem triage_conforms :
    (∃ e payload, Hands ⟨MemoryStore.empty, []⟩
      (.createRequest ⟨"say \"hi\"\n& go", "", "alice"⟩ noon (evenId 1) (evenId 2)) e ∧
      Conforms e payload) ∧
    ∃ e payload, Hands (Core.run (step (PostgresStore.store textualColumns.toColumns))
      ⟨PostgresStore.empty, []⟩ triage) (.write 0 noon (evenId 3)) e ∧ Conforms e payload := by
  have hplain : ∀ b ∈ triage, b.Plain :=
    List.forall_mem_cons.mpr ⟨⟨by decide, canonical_evenId 1, canonical_evenId 2⟩,
      List.forall_mem_singleton.mpr trivial⟩
  have hnew : ∃ r e, Service.newRequest ⟨"say \"hi\"\n& go", "", "alice"⟩ noon (evenId 1)
      (evenId 2) = .ok (r, e) := ⟨_, _, rfl⟩
  have hwaiting : ((Core.run (step (PostgresStore.store textualColumns.toColumns))
      ⟨PostgresStore.empty, []⟩ triage).pending[0]?).isSome = true := by
    decide +kernel
  obtain ⟨r, e, hnew⟩ := hnew
  obtain ⟨p, hp⟩ := Option.isSome_iff_exists.mp hwaiting
  have hcreated := handed_conforms textualColumns []
    (.createRequest ⟨"say \"hi\"\n& go", "", "alice"⟩ noon (evenId 1) (evenId 2))
    (fun _ hb => (nomatch hb)) ⟨by decide, canonical_evenId 1, canonical_evenId 2⟩
  have hchanged := handed_conforms textualColumns triage (.write 0 noon (evenId 3)) hplain
    ⟨by decide, canonical_evenId 3⟩
  obtain ⟨payload, hpayload⟩ := hcreated.1 e (.created hnew)
  obtain ⟨payload', hpayload'⟩ := hchanged.2 _ (.changed hp)
  exact ⟨⟨e, payload, .created hnew, hpayload⟩, _, payload', .changed hp, hpayload'⟩

end Runs

end SecureSdlc.Domain

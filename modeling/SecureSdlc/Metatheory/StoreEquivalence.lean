import SecureSdlc.Metatheory.RequestTable

/-!
The service over the database answers as over the in-memory store. The requests of the
one are the scanned rows of the other, in the same order of insertion: times are written
so that text order is time order and read back as they were written, and the text order
of canonical `UUID`s is the order of their bytes. What the database alone can refuse is
a repeated event id or text with NUL.
-/

namespace SecureSdlc.Domain

open Core GoText

/-- A `UUID` in the lower-case hyphenated form. -/
def Canonical (id : String) : Prop :=
  ∃ bytes : List UInt8, bytes.length = 16 ∧ id = Core.Uuid.hyphenated bytes

def NulFree (text : String) : Prop :=
  ∀ c ∈ text.toList, c.toNat ≠ 0

/-- The ids a call draws. -/
def Operation.draws : Operation → List String
  | .createRequest _ _ requestID eventID => [requestID, eventID]
  | .updateRequestStatus _ _ eventID => [eventID]
  | .getRequest _ => []
  | .listRequests _ => []

/-- Times of the calendar, canonical ids, and text without NUL. -/
def Operation.Plain : Operation → Prop
  | .createRequest input now requestID eventID =>
      now.onCalendar = true ∧ Canonical requestID ∧ Canonical eventID ∧
        NulFree input.title ∧ NulFree input.description ∧ NulFree input.subject
  | .updateRequestStatus input now eventID =>
      now.onCalendar = true ∧ Canonical input.requestId ∧ Canonical eventID
  | .getRequest input => Canonical input.requestId
  | .listRequests input =>
      NulFree input.status ∧ NulFree input.subject ∧ NulFree input.actorSubject

theorem Canonical.trimSpace_eq {id : String} (h : Canonical id) : trimSpace id = id := by
  obtain ⟨bytes, -, rfl⟩ := h
  exact Core.Uuid.trimSpace_hyphenated bytes

theorem NulFree.trimSpace {text : String} (h : NulFree text) : NulFree (trimSpace text) :=
  fun c hc => h c (mem_of_mem_trimSpace hc)

/-- A filter of the service has a positive limit and the caller's text only. -/
theorem listFilter_plain {input : ListRequestsRequest}
    (h : (Operation.listRequests input).Plain) {filter : ListFilter}
    (hf : Service.listFilter input = .ok filter) :
    0 < filter.limit ∧ NulFree filter.status ∧ NulFree filter.subject := by
  obtain ⟨hstatus, hsubject, hactor⟩ := h
  simp only [Service.listFilter] at hf
  split at hf
  · cases hf
  split at hf
  · cases hf
  cases hf
  refine ⟨?_, hstatus.trimSpace, ?_⟩
  · simp only [maxListLimit, defaultListLimit]
    split <;> split <;> omega
  · dsimp only
    split
    · exact hactor.trimSpace
    · exact hsubject.trimSpace

theorem NulFree.hasNul_eq {text : String} (h : NulFree text) :
    PostgresStore.hasNul text = false := by
  rw [PostgresStore.hasNul, List.any_eq_false]
  intro c hc
  simpa using h c hc

theorem Canonical.cast (C : OrderedColumns) {id : String} (h : Canonical id) :
    ∃ u, C.castUuid id = some u ∧ C.uuidText u = id := by
  obtain ⟨bytes, hlen, rfl⟩ := h
  obtain ⟨u, hcast, hbytes⟩ := C.cast_hyphenated bytes hlen
  exact ⟨u, hcast, by rw [C.uuidText_eq, hbytes]⟩

section Simulation

variable {C : OrderedColumns}

/-- The instant is the one a time of the calendar is stored as. -/
def Stamped (i : C.Instant) (t : UtcTime) : Prop :=
  t.onCalendar = true ∧ C.castTimestamp (formatRFC3339 t) = some i ∧
    C.timestampText i = formatRFC3339 t

/-- The in-memory store holds the scanned rows of the database. -/
structure Simulates (m : MemoryStore) (p : PostgresStore C.toColumns) : Prop where
  memoryUp : m.failWith = none
  postgresUp : p.failWith = none
  requests : m.requests = Assoc.rename PostgresStore.scan C.uuidText p.requests
  stamped : ∀ entry ∈ p.requests, ∃ t, Stamped entry.2.createdAt t

theorem stamped_of_onCalendar {t : UtcTime} (h : t.onCalendar = true) :
    ∃ i : C.Instant, Stamped i t := by
  obtain ⟨i, hcast, htext⟩ := C.cast_timestamp t h
  exact ⟨i, h, hcast, htext⟩

theorem Simulates.get {m : MemoryStore} {p : PostgresStore C.toColumns} (h : Simulates m p)
    (u : C.Uuid) : Assoc.get m.requests (C.uuidText u) =
      (Assoc.get p.requests u).map (PostgresStore.scan u) := by
  rw [h.requests]
  exact Assoc.get_rename C.uuidText_injective _ _ _

theorem Simulates.getRequest {m : MemoryStore} {p : PostgresStore C.toColumns}
    (h : Simulates m p) {id : String} (hid : Canonical id) :
    m.getRequest id = p.getRequest id := by
  obtain ⟨u, hcast, rfl⟩ := hid.cast C
  simp only [MemoryStore.getRequest, PostgresStore.getRequest, h.memoryUp, h.postgresUp, h.get,
    hcast]
  cases Assoc.get p.requests u <;> rfl

/-- The two listings order a pair of entries alike. -/
theorem less_scan_iff {a b : C.Uuid × RequestRow C.toColumns} {t t' : UtcTime}
    (ha : Stamped a.2.createdAt t) (hb : Stamped b.2.createdAt t') :
    PostgresStore.inOrder a b ↔ MemoryStore.less (PostgresStore.scan b.1 b.2)
      (PostgresStore.scan a.1 a.2) = false := by
  have htime : ∀ t t' : UtcTime, ¬ (formatRFC3339 t).toList < (formatRFC3339 t').toList ↔
      ¬ t.fields < t'.fields := by
    intro t t'
    have hiff := before_formatRFC3339 t t'
    rw [before, decide_eq_decide] at hiff
    rw [hiff]
  have hbytes : (C.uuidText a.1).toList < (C.uuidText b.1).toList ↔
      C.uuidBytes a.1 < C.uuidBytes b.1 := by
    have hiff := Core.Uuid.before_hyphenated
      ((C.uuidBytes_length a.1).trans (C.uuidBytes_length b.1).symm)
    rw [before, decide_eq_decide] at hiff
    rw [C.uuidText_eq, C.uuidText_eq, hiff]
  rw [MemoryStore.less_eq_false_iff]
  simp only [PostgresStore.inOrder, Lexicographic.thenBy, PostgresStore.scan, ha.2.2, hb.2.2,
    htime, hbytes, C.instantLe_cast t' t _ _ hb.1 ha.1 hb.2.1 ha.2.1,
    C.instantLe_cast t t' _ _ ha.1 hb.1 ha.2.1 hb.2.1]

theorem truncate_eq_take {limit : Int} (h : 0 < limit) (out : List Request) :
    MemoryStore.truncate limit out = out.take limit.toNat := by
  rw [MemoryStore.truncate]
  split
  · rfl
  · rw [List.take_of_length_le]
    omega

theorem Simulates.listRequests {m : MemoryStore} {p : PostgresStore C.toColumns}
    (h : Simulates m p) {filter : ListFilter} (hlimit : 0 < filter.limit)
    (hstatus : NulFree filter.status) (hsubject : NulFree filter.subject) :
    m.listRequests filter = p.listRequests filter := by
  have hsort : ((p.requests.filter fun entry =>
      filter.admits entry.2.status entry.2.subject).insertionSort PostgresStore.inOrder).map
        (fun entry => PostgresStore.scan entry.1 entry.2) =
      ((p.requests.filter fun entry => filter.admits entry.2.status entry.2.subject).map
        (fun entry => PostgresStore.scan entry.1 entry.2)).insertionSort
          (fun r s => MemoryStore.less s r = false) := by
    apply List.map_insertionSort
    intro a ha b hb
    obtain ⟨t, ht⟩ := h.stamped a (List.mem_of_mem_filter ha)
    obtain ⟨t', ht'⟩ := h.stamped b (List.mem_of_mem_filter hb)
    exact less_scan_iff ht ht'
  simp only [MemoryStore.listRequests, PostgresStore.listRequests, h.memoryUp, h.postgresUp,
    List.any_cons, List.any_nil, hstatus.hasNul_eq, hsubject.hasNul_eq, Bool.or_self,
    if_neg (not_le.mpr hlimit), Bool.false_eq_true, if_false]
  rw [truncate_eq_take hlimit, List.map_take, hsort, h.requests]
  simp only [Assoc.rename, List.map_map, List.filter_map]
  rfl

/-- The outcomes of one write on both sides: both refuse it, or both accept it and the
database adds the event `v`. -/
def WritesAlike (p : PostgresStore C.toColumns) (v : C.Uuid) :
    Except StoreError MemoryStore → Except StoreError (PostgresStore C.toColumns) → Prop
  | .ok m', .ok p' => Simulates m' p' ∧ ∃ row, p'.outbox = Assoc.set p.outbox v row
  | .error _, .error _ => True
  | _, _ => False

theorem writesAlike_cases {p : PostgresStore C.toColumns} {v : C.Uuid}
    {x : Except StoreError MemoryStore} {y : Except StoreError (PostgresStore C.toColumns)}
    (h : WritesAlike p v x y) :
    (∃ e e', x = .error e ∧ y = .error e') ∨
      ∃ m' p' row, x = .ok m' ∧ y = .ok p' ∧ Simulates m' p' ∧
        p'.outbox = Assoc.set p.outbox v row := by
  cases x with
  | error e =>
      cases y with
      | error e' => exact .inl ⟨e, e', rfl, rfl⟩
      | ok p' => exact h.elim
  | ok m' =>
      cases y with
      | error e' => exact h.elim
      | ok p' =>
          obtain ⟨hsim, row, hset⟩ := h
          exact .inr ⟨m', p', row, rfl, rfl, hsim, hset⟩

theorem insertOutbox_of_fresh {p : PostgresStore C.toColumns} {event : Event} {v : C.Uuid}
    {t : UtcTime} (hid : C.castUuid event.eventID = some v)
    (hat : event.occurredAt = formatRFC3339 t) (ht : t.onCalendar = true)
    (hfresh : Assoc.get p.outbox v = none) (payload : Payload) :
    ∃ row, p.insertOutbox event payload = .ok { p with outbox := Assoc.set p.outbox v row } := by
  obtain ⟨i, hcast, -⟩ := C.cast_timestamp t ht
  refine ⟨⟨event.eventType, i, payload, none⟩, ?_⟩
  simp only [PostgresStore.insertOutbox, hid, hat, hcast, hfresh]

theorem Simulates.set {m : MemoryStore} {p : PostgresStore C.toColumns} (h : Simulates m p)
    (u : C.Uuid) (row : RequestRow C.toColumns) {t : UtcTime} (hrow : Stamped row.createdAt t)
    (events : List Event) (outbox : List (C.Uuid × OutboxRow C.toColumns)) :
    Simulates ⟨Assoc.set m.requests (C.uuidText u) (PostgresStore.scan u row), events, none⟩
      (⟨Assoc.set p.requests u row, outbox, none⟩ : PostgresStore C.toColumns) := by
  refine ⟨rfl, rfl, ?_, fun entry hentry => ?_⟩
  · simp only [h.requests]
    exact Assoc.set_rename C.uuidText_injective _ _ _ _
  · rcases Assoc.mem_set hentry with rfl | hold
    · exact ⟨t, hrow⟩
    · exact h.stamped entry hold

theorem Simulates.createRequestWithEvent {m : MemoryStore} {p : PostgresStore C.toColumns}
    (h : Simulates m p) {r : Request} {e : Event} {u v : C.Uuid} {t : UtcTime}
    (ht : t.onCalendar = true) (hu : C.castUuid r.id = some u) (hutext : C.uuidText u = r.id)
    (hv : C.castUuid e.eventID = some v) (hfresh : Assoc.get p.outbox v = none)
    (hr : r.createdAt = formatRFC3339 t) (he : e.occurredAt = formatRFC3339 t)
    (htype : e.eventType = eventTypeRequestCreated)
    (hnul : [r.title, r.description, r.subject, r.status].any PostgresStore.hasNul = false) :
    WritesAlike p v (m.createRequestWithEvent r e) (p.createRequestWithEvent r e) := by
  obtain ⟨i, hi⟩ := stamped_of_onCalendar (C := C) ht
  have hget := h.get u
  rw [hutext] at hget
  simp only [MemoryStore.createRequestWithEvent, PostgresStore.createRequestWithEvent,
    buildPayload, htype, if_true, h.memoryUp, h.postgresUp, hnul, Bool.false_eq_true, if_false,
    hu, hr, hi.2.1, hget]
  cases hrow : Assoc.get p.requests u with
  | some row => trivial
  | none =>
      let filed : RequestRow C.toColumns := ⟨r.title, r.description, r.subject, r.status, i⟩
      obtain ⟨row, hinsert⟩ := insertOutbox_of_fresh
        (p := ⟨Assoc.set p.requests u filed, p.outbox, none⟩) hv he ht hfresh
        (.requestCreated e.eventID eventTypeRequestCreated e.occurredAt e.request.id
          e.request.title e.request.status e.request.createdAt)
      simp only [Option.map_none, filed] at hinsert ⊢
      rw [hinsert]
      have hscan : PostgresStore.scan u filed = r := by
        simp only [PostgresStore.scan, filed, hutext, hi.2.2, ← hr]
      have hset := h.set u filed hi (m.events ++ [e]) (Assoc.set p.outbox v row)
      rw [hscan, hutext] at hset
      exact ⟨hset, row, rfl⟩

theorem Simulates.updateRequestStatusWithEvent {m : MemoryStore}
    {p : PostgresStore C.toColumns} (h : Simulates m p) {u v : C.Uuid}
    {row : RequestRow C.toColumns} (hrow : Assoc.get p.requests u = some row) {status : String}
    {e : Event} {t : UtcTime} (ht : t.onCalendar = true) (hv : C.castUuid e.eventID = some v)
    (hfresh : Assoc.get p.outbox v = none) (he : e.occurredAt = formatRFC3339 t)
    (htype : e.eventType = eventTypeRequestStatusChanged) :
    WritesAlike p v
      (m.updateRequestStatusWithEvent { PostgresStore.scan u row with status := status } e)
      (p.updateRequestStatusWithEvent { PostgresStore.scan u row with status := status } e) := by
  obtain ⟨t₀, hstamped⟩ := h.stamped _ (Assoc.mem_of_get hrow)
  have hget := h.get u
  rw [hrow] at hget
  obtain ⟨added, hinsert⟩ := insertOutbox_of_fresh
    (p := ⟨Assoc.set p.requests u { row with status := status }, p.outbox, none⟩) hv he ht hfresh
    (.requestStatusChanged e.eventID eventTypeRequestStatusChanged e.occurredAt e.request.id
      e.request.status e.previousStatus e.occurredAt)
  simp only [MemoryStore.updateRequestStatusWithEvent,
    PostgresStore.updateRequestStatusWithEvent, buildPayload, htype, eventTypeRequestCreated,
    eventTypeRequestStatusChanged, String.reduceEq, if_false, if_true, h.memoryUp, h.postgresUp,
    PostgresStore.scan, C.cast_uuidText, hget, hrow, Option.map_some] at hinsert ⊢
  rw [hinsert]
  have hset := h.set u { row with status := status } hstamped (m.events ++ [e])
    (Assoc.set p.outbox v added)
  exact ⟨hset, added, rfl⟩

/-- The outbox has no event under any of the ids. -/
def Unused (p : PostgresStore C.toColumns) (ids : List String) : Prop :=
  ∀ id ∈ ids, ∀ u, C.uuidText u = id → Assoc.get p.outbox u = none

theorem unused_of_set {p p' : PostgresStore C.toColumns} {v : C.Uuid}
    {row : OutboxRow C.toColumns} (hset : p'.outbox = Assoc.set p.outbox v row)
    {ids : List String} (h : Unused p ids) (hv : C.uuidText v ∉ ids) : Unused p' ids := by
  intro id hid u hu
  have hne : v ≠ u := by
    rintro rfl
    exact hv (hu ▸ hid)
  rw [hset, Assoc.get_set_of_ne _ _ hne]
  exact h id hid u hu

/-- One call on both sides: the same answer, and states that correspond again. -/
structure ServesAlike (m : MemoryStore) (p : PostgresStore C.toColumns) (op : Operation) :
    Prop where
  response : (serve MemoryStore.requestStore m op).1 = (serve (PostgresStore.requestStore C) p op).1
  simulates : Simulates (after MemoryStore.requestStore m op)
    (after (PostgresStore.requestStore C) p op)
  unused : ∀ ids, Unused p ids → (∀ id ∈ op.draws, id ∉ ids) →
    Unused (after (PostgresStore.requestStore C) p op) ids

theorem servesAlike_createRequest {m : MemoryStore} {p : PostgresStore C.toColumns}
    (h : Simulates m p) {input : CreateRequestRequest} {now : UtcTime}
    {requestID eventID : String}
    (hplain : (Operation.createRequest input now requestID eventID).Plain)
    (hunused : Unused p (Operation.createRequest input now requestID eventID).draws) :
    ServesAlike m p (.createRequest input now requestID eventID) := by
  obtain ⟨hnow, hrequestID, heventID, htitle, hdescription, hsubject⟩ := hplain
  obtain ⟨u, hu, hutext⟩ := hrequestID.cast C
  obtain ⟨v, hv, hvtext⟩ := heventID.cast C
  have hfresh := hunused eventID (by simp [Operation.draws]) v hvtext
  cases hnew : Service.newRequest input now requestID eventID with
  | error e =>
      constructor <;> simp only [serve, after, Service.createRequest, hnew]
      · exact h
      · exact fun ids hids _ => hids
  | ok pair =>
      obtain ⟨r, e⟩ := pair
      obtain ⟨hr, he⟩ := Service.newRequest_ok hnew
      have hnul : [r.title, r.description, r.subject, r.status].any PostgresStore.hasNul =
          false := by
        rw [hr]
        simp only [List.any_cons, List.any_nil, htitle.trimSpace.hasNul_eq,
          hdescription.hasNul_eq, hsubject.hasNul_eq, Bool.false_or]
        decide
      have hwrite : WritesAlike p v (m.createRequestWithEvent r e)
          (p.createRequestWithEvent r e) := by
        apply h.createRequestWithEvent hnow
        case hu => rw [hr]; exact hu
        case hutext => rw [hr]; exact hutext
        case hnul => exact hnul
        all_goals simp [hr, he, hv, hfresh]
      rcases writesAlike_cases hwrite with ⟨ε, ε', hx, hy⟩ | ⟨m', p', row, hx, hy, hsim, hset⟩
      · constructor <;>
          simp only [serve, after, Service.createRequest, hnew, MemoryStore.requestStore,
            MemoryStore.store, PostgresStore.requestStore, PostgresStore.store, hx, hy]
        · exact h
        · exact fun ids hids _ => hids
      · constructor <;>
          simp only [serve, after, Service.createRequest, hnew, MemoryStore.requestStore,
            MemoryStore.store, PostgresStore.requestStore, PostgresStore.store, hx, hy]
        · exact hsim
        · intro ids hids hdraws
          exact unused_of_set hset hids (hvtext ▸ hdraws eventID (by simp [Operation.draws]))

theorem servesAlike_updateRequestStatus {m : MemoryStore} {p : PostgresStore C.toColumns}
    (h : Simulates m p) {input : UpdateRequestStatusRequest} {now : UtcTime} {eventID : String}
    (hplain : (Operation.updateRequestStatus input now eventID).Plain)
    (hunused : Unused p (Operation.updateRequestStatus input now eventID).draws) :
    ServesAlike m p (.updateRequestStatus input now eventID) := by
  obtain ⟨hnow, hrequestID, heventID⟩ := hplain
  obtain ⟨v, hv, hvtext⟩ := heventID.cast C
  have hfresh := hunused eventID (by simp [Operation.draws]) v hvtext
  cases hcheck : Service.checkUpdate input with
  | error e =>
      constructor <;> simp only [serve, after, Service.updateRequestStatus, hcheck]
      · exact h
      · exact fun ids hids _ => hids
  | ok pair =>
      obtain ⟨id, newStatus⟩ := pair
      have hid : Canonical id := by
        rw [Service.checkUpdate_ok hcheck, hrequestID.trimSpace_eq]
        exact hrequestID
      have hget := h.getRequest hid
      cases hd : Service.decideUpdate newStatus (p.getRequest id) with
      | error e =>
          constructor <;>
            simp only [serve, after, Service.updateRequestStatus, hcheck,
              MemoryStore.requestStore, MemoryStore.store, PostgresStore.requestStore,
              PostgresStore.store, hget, hd]
          · exact h
          · exact fun ids hids _ => hids
      | ok current =>
          obtain ⟨hread, -⟩ := Service.decideUpdate_ok hd
          obtain ⟨u, row, -, hrow, rfl⟩ := PostgresStore.getRequest_ok hread
          have hwrite : WritesAlike p v
              (m.updateRequestStatusWithEvent
                (Service.statusChange (PostgresStore.scan u row) newStatus now eventID).1
                (Service.statusChange (PostgresStore.scan u row) newStatus now eventID).2)
              (p.updateRequestStatusWithEvent
                (Service.statusChange (PostgresStore.scan u row) newStatus now eventID).1
                (Service.statusChange (PostgresStore.scan u row) newStatus now eventID).2) :=
            h.updateRequestStatusWithEvent hrow hnow hv hfresh rfl rfl
          rcases writesAlike_cases hwrite with ⟨ε, ε', hx, hy⟩ |
            ⟨m', p', row, hx, hy, hsim, hset⟩
          · constructor <;>
              simp only [serve, after, Service.updateRequestStatus, hcheck,
                MemoryStore.requestStore, MemoryStore.store, PostgresStore.requestStore,
                PostgresStore.store, hget, hd, hx, hy]
            · exact h
            · exact fun ids hids _ => hids
          · constructor <;>
              simp only [serve, after, Service.updateRequestStatus, hcheck,
                MemoryStore.requestStore, MemoryStore.store, PostgresStore.requestStore,
                PostgresStore.store, hget, hd, hx, hy]
            · exact hsim
            · intro ids hids hdraws
              exact unused_of_set hset hids (hvtext ▸ hdraws eventID (by simp [Operation.draws]))

theorem servesAlike {m : MemoryStore} {p : PostgresStore C.toColumns} (h : Simulates m p)
    {op : Operation} (hplain : op.Plain) (hunused : Unused p op.draws) : ServesAlike m p op := by
  cases op with
  | createRequest input now requestID eventID => exact servesAlike_createRequest h hplain hunused
  | updateRequestStatus input now eventID =>
      exact servesAlike_updateRequestStatus h hplain hunused
  | getRequest input =>
      refine ⟨?_, h, fun ids hids _ => hids⟩
      have hget := h.getRequest hplain
      rw [← Canonical.trimSpace_eq hplain] at hget
      simp only [serve, Service.getRequest, MemoryStore.requestStore, MemoryStore.store,
        PostgresStore.requestStore, PostgresStore.store, hget]
  | listRequests input =>
      refine ⟨?_, h, fun ids hids _ => hids⟩
      simp only [serve, Service.listRequests]
      cases hf : Service.listFilter input with
      | error e => rfl
      | ok filter =>
          obtain ⟨hlimit, hstatus, hsubject⟩ := listFilter_plain hplain hf
          simp only [MemoryStore.requestStore, PostgresStore.requestStore,
            h.listRequests hlimit hstatus hsubject]

/-- Calls made one after another get the same responses from both services. -/
theorem responses_eq {m : MemoryStore} {p : PostgresStore C.toColumns} (h : Simulates m p)
    {ops : List Operation} (hplain : ∀ op ∈ ops, op.Plain)
    (hunused : Unused p (ops.flatMap Operation.draws))
    (hdistinct : (ops.flatMap Operation.draws).Nodup) :
    responses MemoryStore.requestStore m ops = responses (PostgresStore.requestStore C) p ops := by
  induction ops generalizing m p with
  | nil => rfl
  | cons op ops ih =>
      rw [List.flatMap_cons] at hunused hdistinct
      obtain ⟨-, hrest, hapart⟩ := List.nodup_append.mp hdistinct
      have hstep := servesAlike h (hplain op List.mem_cons_self)
        fun id hid => hunused id (List.mem_append_left _ hid)
      have hlater := hstep.unused (ops.flatMap Operation.draws)
        (fun id hid => hunused id (List.mem_append_right _ hid))
        (fun id hid hmem => hapart id hid id hmem rfl)
      rw [responses, responses, hstep.response]
      rw [ih hstep.simulates (fun op hop => hplain op (List.mem_cons_of_mem _ hop)) hlater hrest]

end Simulation

/-- From empty, with the same clock and ids, the service over the database gives the
response of the service over the in-memory store at every call. -/
theorem postgres_responses_eq_memory (C : OrderedColumns) (ops : List Operation)
    (hplain : ∀ op ∈ ops, op.Plain) (hdistinct : (ops.flatMap Operation.draws).Nodup) :
    responses MemoryStore.requestStore MemoryStore.empty ops =
      responses (PostgresStore.requestStore C) PostgresStore.empty ops := by
  have hstart : Simulates MemoryStore.empty (PostgresStore.empty : PostgresStore C.toColumns) :=
    ⟨rfl, rfl, rfl, fun entry hentry => by simp [PostgresStore.empty] at hentry⟩
  exact responses_eq hstart hplain (fun _ _ _ _ => rfl) hdistinct

/-- A request is created and triaged, read by its owner, and all are listed. -/
def triageSession : List Operation :=
  [.createRequest ⟨"Reset VPN access", "", "user-1"⟩ noon
      "11111111-1111-1111-1111-111111111111" "22222222-2222-2222-2222-222222222222",
   .updateRequestStatus ⟨"11111111-1111-1111-1111-111111111111", "triaged", "operator-1",
      "operator"⟩ noon "33333333-3333-3333-3333-333333333333",
   .getRequest ⟨"11111111-1111-1111-1111-111111111111", "user-1", "user"⟩,
   .listRequests ⟨"triaged", "", 10, "operator-1", "operator"⟩]

theorem triageSession_plain : ∀ op ∈ triageSession, op.Plain := by
  have hone : Canonical "11111111-1111-1111-1111-111111111111" :=
    ⟨List.replicate 16 0x11, rfl, by decide⟩
  have htwo : Canonical "22222222-2222-2222-2222-222222222222" :=
    ⟨List.replicate 16 0x22, rfl, by decide⟩
  have hthree : Canonical "33333333-3333-3333-3333-333333333333" :=
    ⟨List.replicate 16 0x33, rfl, by decide⟩
  have hnul : ∀ text ∈ ["Reset VPN access", "", "user-1", "triaged", "operator-1"],
      NulFree text := by
    intro text htext c hc
    have hall : (["Reset VPN access", "", "user-1", "triaged", "operator-1"].all fun text =>
        text.toList.all fun c => decide (c.toNat ≠ 0)) = true := by
      decide
    have hchars := List.all_eq_true.mp hall text htext
    exact of_decide_eq_true (List.all_eq_true.mp hchars c hc)
  intro op hop
  simp only [triageSession, List.mem_cons, List.not_mem_nil, or_false] at hop
  rcases hop with rfl | rfl | rfl | rfl
  · exact ⟨by decide, hone, htwo, hnul _ (by simp), hnul _ (by simp), hnul _ (by simp)⟩
  · exact ⟨by decide, hone, hthree⟩
  · exact hone
  · exact ⟨hnul _ (by simp), hnul _ (by simp), hnul _ (by simp)⟩

theorem triageSession_answered_alike :
    (∀ op ∈ triageSession, op.Plain) ∧ (triageSession.flatMap Operation.draws).Nodup ∧
    responses MemoryStore.requestStore MemoryStore.empty triageSession =
      responses (PostgresStore.requestStore textualColumns) PostgresStore.empty triageSession :=
  ⟨triageSession_plain, by decide,
    postgres_responses_eq_memory textualColumns triageSession triageSession_plain (by decide)⟩

end SecureSdlc.Domain

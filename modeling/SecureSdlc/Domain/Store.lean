import SecureSdlc.Core.Assoc
import SecureSdlc.Core.Uuid
import SecureSdlc.Domain.Lifecycle

/-!
The aggregate, its outbox events, and the two stores that persist them together:
the in-memory store and the PostgreSQL store. Store operations are atomic; an
operation that returns an error leaves the store as it was.

The database is a parameter only where the source leaves work to it: the casts of
the text of a `UUID` or `TIMESTAMPTZ` column, the text it reads back, and the order of
the two types. `TEXT` is any text without NUL.
-/

namespace SecureSdlc.Domain

open Core GoText

def defaultListLimit : Int := 50

/-- The persisted aggregate. -/
structure Request where
  id : String
  title : String
  description : String
  subject : String
  status : String
  createdAt : String
  deriving DecidableEq, Repr

/-- A domain event persisted to the transactional outbox. -/
structure Event where
  eventID : String
  eventType : String
  occurredAt : String
  request : Request
  previousStatus : String
  deriving DecidableEq, Repr

def eventTypeRequestCreated : String := "request-created"
def eventTypeRequestStatusChanged : String := "request-status-changed"

inductive StoreError where
  | requestNotFound
  | failure (message : String)
  deriving DecidableEq, Repr

/-- The operations of the `Store` interface on the path of a request's lifecycle. -/
structure Store (σ : Type) where
  createRequestWithEvent : σ → Request → Event → Except StoreError σ
  getRequest : σ → String → Except StoreError Request
  updateRequestStatusWithEvent : σ → Request → Event → Except StoreError σ

/-- Narrows a listing; empty fields mean no filter. -/
structure ListFilter where
  status : String
  subject : String
  limit : Int
  deriving DecidableEq, Repr

def ListFilter.admits (filter : ListFilter) (status subject : String) : Bool :=
  (filter.status = "" || status = filter.status) &&
    (filter.subject = "" || subject = filter.subject)

theorem ListFilter.subject_of_admits {filter : ListFilter} {status subject : String}
    (hne : filter.subject ≠ "") (h : filter.admits status subject = true) :
    subject = filter.subject := by
  simp only [ListFilter.admits, hne, decide_false, Bool.false_or, Bool.and_eq_true,
    decide_eq_true_eq] at h
  exact h.2

/-- The `Store` interface. -/
structure RequestStore (σ : Type) extends Store σ where
  listRequests : σ → ListFilter → Except StoreError (List Request)

/-- The in-memory store; `failWith` is an injected failure of every operation. -/
structure MemoryStore where
  requests : List (String × Request)
  events : List Event
  failWith : Option String

namespace MemoryStore

def empty : MemoryStore := ⟨[], [], none⟩

def createRequestWithEvent (m : MemoryStore) (request : Request) (event : Event) :
    Except StoreError MemoryStore :=
  match m.failWith with
  | some message => .error (.failure message)
  | none =>
      match Assoc.get m.requests request.id with
      | some _ => .error (.failure "duplicate request id")
      | none =>
          .ok { m with
            requests := Assoc.set m.requests request.id request
            events := m.events ++ [event] }

def getRequest (m : MemoryStore) (id : String) : Except StoreError Request :=
  match m.failWith with
  | some message => .error (.failure message)
  | none =>
      match Assoc.get m.requests id with
      | none => .error .requestNotFound
      | some request => .ok request

def updateRequestStatusWithEvent (m : MemoryStore) (request : Request) (event : Event) :
    Except StoreError MemoryStore :=
  match m.failWith with
  | some message => .error (.failure message)
  | none =>
      match Assoc.get m.requests request.id with
      | none => .error .requestNotFound
      | some _ =>
          .ok { m with
            requests := Assoc.set m.requests request.id request
            events := m.events ++ [event] }

def store : Store MemoryStore :=
  ⟨createRequestWithEvent, getRequest, updateRequestStatusWithEvent⟩

/-- Ids are keys as they are. -/
theorem key_text (key : String) : some (id key) = some key := rfl

/-- The comparison handed to `sort.Slice`. -/
def less (r s : Request) : Bool :=
  if r.createdAt ≠ s.createdAt then before s.createdAt r.createdAt else before s.id r.id

theorem less_eq_false_iff (r s : Request) : less s r = false ↔
    Lexicographic.thenBy (fun r s : Request => ¬ r.createdAt.toList < s.createdAt.toList)
      (fun r s => ¬ r.id.toList < s.id.toList) r s := by
  simp only [less, before, Lexicographic.thenBy]
  by_cases h : s.createdAt = r.createdAt
  · simp [h, List.lt_irrefl]
  · have hties : r.createdAt.toList < s.createdAt.toList ∨
        s.createdAt.toList < r.createdAt.toList := by
      by_contra hno
      simp only [not_or, List.not_lt] at hno
      exact h (String.toList_inj.mp (List.le_antisymm hno.1 hno.2))
    simp only [ne_eq, h, not_false_eq_true, if_true, decide_eq_false_iff_not, iff_self_and]
    exact fun hle hge => absurd hties (not_or.mpr ⟨hle, hge⟩)

instance less_total : Std.Total fun r s => less s r = false where
  total r s := by
    rw [less_eq_false_iff, less_eq_false_iff]
    exact Std.Total.total r s

instance less_trans : IsTrans Request fun r s => less s r = false where
  trans r s t := by
    rw [less_eq_false_iff, less_eq_false_iff, less_eq_false_iff]
    exact IsTrans.trans r s t

/-- Requests that the order of a listing cannot tell apart have one id. -/
theorem id_eq_of_less {r s : Request} (h : less s r = false) (h' : less r s = false) :
    r.id = s.id := by
  rw [less_eq_false_iff] at h h'
  exact String.toList_inj.mp (List.le_antisymm (h'.2 h.1) (h.2 h'.1))

def truncate (limit : Int) (out : List Request) : List Request :=
  if 0 < limit ∧ limit < out.length then out.take limit.toNat else out

/-- The map is ranged over in the order of insertion here; a sorted listing does not
depend on it. -/
def listRequests (m : MemoryStore) (filter : ListFilter) : Except StoreError (List Request) :=
  match m.failWith with
  | some message => .error (.failure message)
  | none =>
      let out := (m.requests.map Prod.snd).filter fun r => filter.admits r.status r.subject
      .ok (truncate filter.limit (out.insertionSort fun r s => less s r = false))

def requestStore : RequestStore MemoryStore :=
  { store with listRequests := listRequests }

end MemoryStore

/-- The two payload shapes `buildPayload` marshals. -/
inductive Payload where
  | requestCreated (eventID eventType occurredAt : String)
      (id title status createdAt : String)
  | requestStatusChanged (eventID eventType occurredAt : String)
      (id status previousStatus updatedAt : String)
  deriving DecidableEq, Repr

/-- Serialise an event using the payload shape required by its contract. -/
def buildPayload (event : Event) : Except StoreError Payload :=
  if event.eventType = eventTypeRequestCreated then
    .ok (.requestCreated event.eventID event.eventType event.occurredAt
      event.request.id event.request.title event.request.status event.request.createdAt)
  else if event.eventType = eventTypeRequestStatusChanged then
    .ok (.requestStatusChanged event.eventID event.eventType event.occurredAt
      event.request.id event.request.status event.previousStatus event.occurredAt)
  else
    .error (.failure ("unsupported event type " ++ event.eventType))

/-- What the database does with `UUID` and `TIMESTAMPTZ` text: the casts, the text
a `UUID` reads back as, and the UTC text the service prints for a timestamp. -/
structure Columns where
  Uuid : Type
  Instant : Type
  uuidEq : DecidableEq Uuid
  castUuid : String → Option Uuid
  uuidText : Uuid → String
  castTimestamp : String → Option Instant
  timestampText : Instant → String
  cast_uuidText : ∀ u, castUuid (uuidText u) = some u

instance (C : Columns) : DecidableEq C.Uuid := C.uuidEq

theorem Columns.uuidText_injective (C : Columns) : Function.Injective C.uuidText := by
  intro u v h
  have hu := C.cast_uuidText u
  rw [h, C.cast_uuidText, Option.some.injEq] at hu
  exact hu.symm

/-- The order of the two column types, and the texts of the values the service stores:
a `UUID` is sixteen bytes, and a time of the calendar is kept to the second. -/
structure OrderedColumns extends Columns where
  uuidBytes : Uuid → List UInt8
  instantLe : Instant → Instant → Bool
  uuidBytes_length : ∀ u, (uuidBytes u).length = 16
  uuidText_eq : ∀ u, uuidText u = Core.Uuid.hyphenated (uuidBytes u)
  cast_hyphenated : ∀ bytes, bytes.length = 16 →
    ∃ u, castUuid (Core.Uuid.hyphenated bytes) = some u ∧ uuidBytes u = bytes
  instantLe_total : ∀ i j, instantLe i j = true ∨ instantLe j i = true
  instantLe_trans : ∀ i j k, instantLe i j = true → instantLe j k = true → instantLe i k = true
  cast_timestamp : ∀ t : UtcTime, t.onCalendar = true →
    ∃ i, castTimestamp (formatRFC3339 t) = some i ∧ timestampText i = formatRFC3339 t
  instantLe_cast : ∀ (t t' : UtcTime) (i j : Instant), t.onCalendar = true →
    t'.onCalendar = true → castTimestamp (formatRFC3339 t) = some i →
    castTimestamp (formatRFC3339 t') = some j →
    (instantLe i j = true ↔ ¬ t'.fields < t.fields)

/-- Columns with the `UUID` input of the database, which keep a time as the text it was
given. -/
def textualColumns : OrderedColumns where
  Uuid := { bytes : List UInt8 // bytes.length = 16 }
  Instant := String
  uuidEq := inferInstance
  castUuid text := (Core.Uuid.parse text).bind fun bytes =>
    if h : bytes.length = 16 then some ⟨bytes, h⟩ else none
  uuidText u := Core.Uuid.hyphenated u.1
  castTimestamp := some
  timestampText := id
  cast_uuidText u := by simp [Core.Uuid.parse_hyphenated u.2, u.2]
  uuidBytes u := u.1
  instantLe i j := !before j i
  uuidBytes_length u := u.2
  uuidText_eq _ := rfl
  cast_hyphenated bytes h := ⟨⟨bytes, h⟩, by simp [Core.Uuid.parse_hyphenated h, h], rfl⟩
  instantLe_total i j := by
    simp only [before, Bool.not_eq_true', decide_eq_false_iff_not, List.not_lt]
    exact List.le_total _ _
  instantLe_trans i j k := by
    simp only [before, Bool.not_eq_true', decide_eq_false_iff_not, List.not_lt]
    exact List.le_trans
  cast_timestamp t _ := ⟨formatRFC3339 t, rfl, rfl⟩
  instantLe_cast t t' i j _ _ hi hj := by
    cases hi
    cases hj
    rw [before_formatRFC3339, Bool.not_eq_true', decide_eq_false_iff_not]

/-- A row of the `requests` table, apart from its primary key. -/
structure RequestRow (C : Columns) where
  title : String
  description : String
  subject : String
  status : String
  createdAt : C.Instant

/-- A row of the `outbox` table, apart from its primary key. -/
structure OutboxRow (C : Columns) where
  eventType : String
  occurredAt : C.Instant
  payload : Payload
  publishedAt : Option C.Instant

/-- The two tables by primary key, rows in commit order; `failWith` is an outage. -/
structure PostgresStore (C : Columns) where
  requests : List (C.Uuid × RequestRow C)
  outbox : List (C.Uuid × OutboxRow C)
  failWith : Option String

namespace PostgresStore

variable {C : Columns}

def empty : PostgresStore C := ⟨[], [], none⟩

/-- The database refuses text with a NUL character. -/
def hasNul (text : String) : Bool :=
  text.toList.any fun c => c.toNat == 0

def invalidText : StoreError := .failure "invalid byte sequence for encoding UTF8: 0x00"

/-- `INSERT INTO outbox`: fails on a bad cast or a duplicate primary key. -/
def insertOutbox (p : PostgresStore C) (event : Event) (payload : Payload) :
    Except StoreError (PostgresStore C) :=
  match C.castUuid event.eventID, C.castTimestamp event.occurredAt with
  | some eventID, some occurredAt =>
      match Assoc.get p.outbox eventID with
      | some _ => .error (.failure "duplicate key value violates unique constraint")
      | none =>
          .ok { p with
            outbox := Assoc.set p.outbox eventID ⟨event.eventType, occurredAt, payload, none⟩ }
  | _, _ => .error (.failure "invalid input syntax")

def createRequestWithEvent (p : PostgresStore C) (request : Request) (event : Event) :
    Except StoreError (PostgresStore C) :=
  match buildPayload event with
  | .error e => .error e
  | .ok payload =>
      match p.failWith with
      | some message => .error (.failure message)
      | none =>
          if [request.title, request.description, request.subject, request.status].any hasNul then
            .error invalidText
          else
            match C.castUuid request.id, C.castTimestamp request.createdAt with
            | some id, some createdAt =>
                match Assoc.get p.requests id with
                | some _ => .error (.failure "duplicate key value violates unique constraint")
                | none =>
                    insertOutbox { p with
                      requests := Assoc.set p.requests id
                        ⟨request.title, request.description, request.subject, request.status,
                          createdAt⟩ } event payload
            | _, _ => .error (.failure "invalid input syntax")

/-- A row as it is scanned. -/
def scan (uuid : C.Uuid) (row : RequestRow C) : Request :=
  ⟨C.uuidText uuid, row.title, row.description, row.subject, row.status,
    C.timestampText row.createdAt⟩

def getRequest (p : PostgresStore C) (id : String) : Except StoreError Request :=
  match p.failWith with
  | some message => .error (.failure message)
  | none =>
      match C.castUuid id with
      | none => .error (.failure "invalid input syntax")
      | some uuid =>
          match Assoc.get p.requests uuid with
          | none => .error .requestNotFound
          | some row => .ok (scan uuid row)

/-- `UPDATE requests SET status = $2 WHERE id = $1` and the outbox insert. -/
def updateRequestStatusWithEvent (p : PostgresStore C) (request : Request) (event : Event) :
    Except StoreError (PostgresStore C) :=
  match buildPayload event with
  | .error e => .error e
  | .ok payload =>
      match p.failWith with
      | some message => .error (.failure message)
      | none =>
          match C.castUuid request.id with
          | none => .error (.failure "invalid input syntax")
          | some id =>
              match Assoc.get p.requests id with
              | none => .error .requestNotFound
              | some row =>
                  insertOutbox { p with
                    requests := Assoc.set p.requests id { row with status := request.status } }
                    event payload

def store (C : Columns) : Store (PostgresStore C) :=
  ⟨createRequestWithEvent, getRequest, updateRequestStatusWithEvent⟩

section Listing

variable {C : OrderedColumns}

/-- `ORDER BY created_at DESC, id DESC`: the first row may stand before the second. -/
def inOrder (a b : C.Uuid × RequestRow C.toColumns) : Prop :=
  C.instantLe b.2.createdAt a.2.createdAt = true ∧
    (C.instantLe a.2.createdAt b.2.createdAt = true → ¬ C.uuidBytes a.1 < C.uuidBytes b.1)

instance : DecidableRel (inOrder (C := C)) := fun _ _ => inferInstanceAs (Decidable (_ ∧ _))

instance instantLe_total : Std.Total fun a b : C.Uuid × RequestRow C.toColumns =>
    C.instantLe b.2.createdAt a.2.createdAt = true where
  total _ _ := C.instantLe_total _ _

instance instantLe_trans : IsTrans (C.Uuid × RequestRow C.toColumns) fun a b =>
    C.instantLe b.2.createdAt a.2.createdAt = true where
  trans _ _ _ hab hbc := C.instantLe_trans _ _ _ hbc hab

instance inOrder_total : Std.Total (inOrder (C := C)) :=
  Lexicographic.thenBy_total (fun a b : C.Uuid × RequestRow C.toColumns =>
    C.instantLe b.2.createdAt a.2.createdAt = true) fun a b => ¬ C.uuidBytes a.1 < C.uuidBytes b.1

instance inOrder_trans : IsTrans (C.Uuid × RequestRow C.toColumns) inOrder :=
  Lexicographic.thenBy_trans (fun a b : C.Uuid × RequestRow C.toColumns =>
    C.instantLe b.2.createdAt a.2.createdAt = true) fun a b => ¬ C.uuidBytes a.1 < C.uuidBytes b.1

theorem uuidBytes_injective {u v : C.Uuid} (h : C.uuidBytes u = C.uuidBytes v) : u = v := by
  apply C.uuidText_injective
  rw [C.uuidText_eq, C.uuidText_eq, h]

/-- Rows that the order of a listing cannot tell apart have one id. -/
theorem uuid_eq_of_inOrder {a b : C.Uuid × RequestRow C.toColumns} (h : inOrder a b)
    (h' : inOrder b a) : a.1 = b.1 :=
  uuidBytes_injective (List.le_antisymm (h'.2 h.1) (h.2 h'.1))

def listRequests (p : PostgresStore C.toColumns) (filter : ListFilter) :
    Except StoreError (List Request) :=
  let limit := if filter.limit ≤ 0 then defaultListLimit else filter.limit
  match p.failWith with
  | some message => .error (.failure message)
  | none =>
      if [filter.status, filter.subject].any hasNul then .error invalidText
      else
        let rows := p.requests.filter fun entry => filter.admits entry.2.status entry.2.subject
        .ok (((rows.insertionSort inOrder).take limit.toNat).map fun entry =>
          scan entry.1 entry.2)

def requestStore (C : OrderedColumns) : RequestStore (PostgresStore C.toColumns) :=
  { store C.toColumns with listRequests := listRequests }

end Listing

end PostgresStore

end SecureSdlc.Domain

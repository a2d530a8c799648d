import SecureSdlc.Domain.Store

/-!
The outbox publisher: the two statements of its store and the loop of `PublishBatch`.
Rows with one `occurred_at` are fetched in any order, which `ties` spells out. The
payload of a row leaves the database as `encode` of it, whatever that writes.

`PublishBatch` waits on the database or the broker three times for a row; between two
waits others may run, so the loop is also given as a machine that takes one of these
steps at a time.
-/

namespace SecureSdlc.Publisher

open Core Domain

def defaultBatchSize : Int := 100

/-- An unpublished outbox row. -/
structure Record where
  eventID : String
  eventType : String
  payload : List UInt8
  deriving DecidableEq, Repr

/-- The subject of each event type, and the size of a batch. -/
structure Poller where
  routes : List (String × String)
  limit : Int

def newPoller (routes : List (String × String)) (limit : Int) : Poller :=
  ⟨routes, if limit ≤ 0 then defaultBatchSize else limit⟩

/-- The routes of the publisher process. -/
def eventSubjects : List (String × String) :=
  [("request-created", "requests.created"), ("request-status-changed", "requests.status-changed")]

section Store

variable {C : OrderedColumns}

/-- The `outbox` table, rows in commit order. -/
abbrev Table (C : OrderedColumns) := List (C.Uuid × OutboxRow C.toColumns)

def isUnpublished (entry : C.Uuid × OutboxRow C.toColumns) : Bool :=
  entry.2.publishedAt.isNone

/-- `WHERE published_at IS NULL ORDER BY occurred_at LIMIT $1`. -/
def fetchRows (ties : List C.Uuid) (limit : Int) (outbox : Table C) : Table C :=
  let listed := (outbox.filter isUnpublished).insertionSort
    fun a b => ties.idxOf a.1 ≤ ties.idxOf b.1
  (listed.insertionSort fun a b => C.instantLe a.2.occurredAt b.2.occurredAt = true).take
    limit.toNat

def scan (encode : Payload → List UInt8) (entry : C.Uuid × OutboxRow C.toColumns) : Record :=
  ⟨C.uuidText entry.1, entry.2.eventType, encode entry.2.payload⟩

def fetchUnpublished (encode : Payload → List UInt8) (ties : List C.Uuid) (limit : Int)
    (outbox : Table C) : List Record :=
  (fetchRows ties limit outbox).map (scan encode)

/-- `UPDATE outbox SET published_at = now() WHERE event_id = $1::uuid`. -/
def markPublished (outbox : Table C) (eventID : String) (now : C.Instant) :
    Except String (Table C) :=
  match C.castUuid eventID with
  | none => .error "invalid input syntax for type uuid"
  | some u =>
      match Assoc.get outbox u with
      | none => .ok outbox
      | some row => .ok (Assoc.set outbox u { row with publishedAt := some now })

end Store

/-- Why a batch stopped. -/
inductive BatchError where
  | fetch (message : String)
  | route (eventID eventType : String)
  | publish (eventID message : String)
  | mark (eventID message : String)
  deriving DecidableEq, Repr

/-- What the broker and the table have seen of the publisher, in order. -/
inductive Effect where
  | accepted (record : Record) (subject : String)
  | marked (eventID : String)
  | markFailed (eventID : String)
  deriving DecidableEq, Repr

structure State (C : OrderedColumns) where
  outbox : Table C
  effects : List Effect

def State.note {C : OrderedColumns} (w : State C) (effect : Effect) : State C :=
  { w with effects := w.effects ++ [effect] }

/-- What the database and the broker do during one batch: the answers to the `n`th
publish and the `n`th mark. A failed publish is not accepted, a failed mark not made. -/
structure Call (C : OrderedColumns) where
  ties : List C.Uuid
  fetchError : Option String
  publishError : Nat → Option String
  markAnswer : Nat → Except String C.Instant

section Batch

variable {C : OrderedColumns}

/-- The loop of `PublishBatch`, with `published` records behind it. -/
def publishRecords (P : Poller) (call : Call C) :
    Nat → List Record → State C → (Nat × Option BatchError) × State C
  | published, [], w => ((published, none), w)
  | published, record :: records, w =>
      match Assoc.get P.routes record.eventType with
      | none => ((published, some (.route record.eventID record.eventType)), w)
      | some subject =>
          match call.publishError published with
          | some e => ((published, some (.publish record.eventID e)), w)
          | none =>
              let w := w.note (.accepted record subject)
              let marked := do
                let now ← call.markAnswer published
                markPublished w.outbox record.eventID now
              match marked with
              | .error e =>
                  ((published, some (.mark record.eventID e)), w.note (.markFailed record.eventID))
              | .ok outbox =>
                  publishRecords P call (published + 1) records
                    (State.note { w with outbox := outbox } (.marked record.eventID))

/-- The count and error a batch returns, and the world after it. -/
def publishBatch (encode : Payload → List UInt8) (P : Poller) (w : State C) (call : Call C) :
    (Nat × Option BatchError) × State C :=
  match call.fetchError with
  | some e => ((0, some (.fetch e)), w)
  | none => publishRecords P call 0 (fetchUnpublished encode call.ties P.limit w.outbox) w

/-- Where a poller stands between two waits. -/
inductive Phase where
  | idle
  | publishing (records : List Record)
  | marking (record : Record) (records : List Record)

/-- How a wait ends. A publish or a mark takes effect, and its reply may be lost;
`fail` is a wait refused without effect, or the end of the process. -/
inductive Poll (C : OrderedColumns) where
  | fetch (ties : List C.Uuid)
  | publish (answered : Bool)
  | mark (now : C.Instant) (answered : Bool)
  | fail

/-- One wait of `PublishBatch`; after the last record, or an error, the poller is idle. -/
def pollStep (encode : Payload → List UInt8) (P : Poller) (w : State C) :
    Phase → Poll C → State C × Phase
  | .idle, .fetch ties => (w, .publishing (fetchUnpublished encode ties P.limit w.outbox))
  | .publishing (record :: records), .publish answered =>
      match Assoc.get P.routes record.eventType with
      | none => (w, .idle)
      | some subject =>
          (w.note (.accepted record subject), if answered then .marking record records else .idle)
  | .marking record records, .mark now answered =>
      match markPublished w.outbox record.eventID now with
      | .error _ => (w.note (.markFailed record.eventID), .idle)
      | .ok outbox =>
          (State.note { w with outbox := outbox } (.marked record.eventID),
            if answered then .publishing records else .idle)
  | .marking record _, .fail => (w.note (.markFailed record.eventID), .idle)
  | .publishing [], _ => (w, .idle)
  | .publishing _, .fail => (w, .idle)
  | phase, _ => (w, phase)

end Batch

end SecureSdlc.Publisher

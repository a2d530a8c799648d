import SecureSdlc.Core.Run

/-!
The event worker: the idempotency gate, the handler, and the subscription callback
that acknowledges a message when the handler returns without error. The gate is
marked before the side effect runs.

Decoding of a message is a parameter here; every statement about the handler holds
for whatever the JSON decoder makes of the bytes.
-/

namespace SecureSdlc.Worker

open Core

def eventTypeRequestCreated : String := "request-created"
def eventTypeRequestStatusChanged : String := "request-status-changed"

def supportedEventTypes : List String :=
  [eventTypeRequestCreated, eventTypeRequestStatusChanged]

structure EventRequest where
  id : String
  title : String
  status : String
  createdAt : String
  deriving DecidableEq, Repr

/-- The wire representation of a domain event. -/
structure Event where
  eventID : String
  eventType : String
  occurredAt : String
  request : EventRequest
  deriving DecidableEq, Repr

/-- How the database answers one `MarkProcessed`: normally, by refusing it without
effect, or by losing the reply after the row was written. -/
inductive Outage where
  | up | refused | replyLost
  deriving DecidableEq, Repr

/-- The `Dedupe` interface: record an event id and report whether it is new. -/
structure Dedupe (δ : Type) where
  markProcessed : δ → String → Outage → Except String Bool × δ

/-- The ids recorded in memory; this gate never fails. -/
structure MemoryDedupe where
  seen : List String

def MemoryDedupe.markProcessed (m : MemoryDedupe) (eventID : String) (_ : Outage) :
    Except String Bool × MemoryDedupe :=
  if eventID ∈ m.seen then (.ok false, m) else (.ok true, ⟨eventID :: m.seen⟩)

def memoryDedupe : Dedupe MemoryDedupe := ⟨MemoryDedupe.markProcessed⟩

/-- The `processed_events` table, keyed by `UUID`. -/
structure PostgresDedupe (Uuid : Type) where
  seen : List Uuid

/-- `INSERT … VALUES ($1::uuid) ON CONFLICT (event_id) DO NOTHING`. -/
def PostgresDedupe.markProcessed {Uuid : Type} [DecidableEq Uuid]
    (castUuid : String → Option Uuid) (d : PostgresDedupe Uuid) (eventID : String)
    (outage : Outage) : Except String Bool × PostgresDedupe Uuid :=
  match castUuid eventID with
  | none => (.error "invalid input syntax for type uuid", d)
  | some id =>
      let written : PostgresDedupe Uuid := if id ∈ d.seen then d else ⟨id :: d.seen⟩
      match outage with
      | .refused => (.error "connection failure", d)
      | .replyLost => (.error "connection failure", written)
      | .up => (.ok (decide (id ∉ d.seen)), written)

def postgresDedupe {Uuid : Type} [DecidableEq Uuid] (castUuid : String → Option Uuid) :
    Dedupe (PostgresDedupe Uuid) :=
  ⟨PostgresDedupe.markProcessed castUuid⟩

/-- A message handed to the worker, with what the database and the applier will do:
`applyError` is the applier's answer should it be called. -/
structure Delivery where
  data : List UInt8
  outage : Outage
  applyError : Option String

/-- The gate and the events the applier has returned success for. -/
structure State (δ : Type) where
  dedupe : δ
  applied : List Event

/-- The part of `Handler.Handle` after its checks: mark the id, then apply a fresh event. -/
def handleEvent {δ : Type} (D : Dedupe δ) (w : State δ) (d : Delivery) (event : Event) :
    Except String Unit × State δ :=
  match D.markProcessed w.dedupe event.eventID d.outage with
  | (.error e, dedupe) => (.error ("dedupe: " ++ e), { w with dedupe := dedupe })
  | (.ok false, dedupe) => (.ok (), { w with dedupe := dedupe })
  | (.ok true, dedupe) =>
      match d.applyError with
      | some e => (.error e, { w with dedupe := dedupe })
      | none => (.ok (), ⟨dedupe, w.applied ++ [event]⟩)

/-- `Handler.Handle`: the error it returns, if any, and the worker afterwards. -/
def handle {δ : Type} (D : Dedupe δ) (unmarshal : List UInt8 → Option Event) (w : State δ)
    (d : Delivery) : Except String Unit × State δ :=
  match unmarshal d.data with
  | none => (.error "malformed event", w)
  | some event =>
      if event.eventID = "" then (.error "event_id is required", w)
      else if event.eventType ∉ supportedEventTypes then
        (.error ("unsupported event type " ++ event.eventType), w)
      else handleEvent D w d event

/-- The subscription callback acknowledges exactly when the handler returns nil. -/
def acks {δ : Type} (D : Dedupe δ) (unmarshal : List UInt8 → Option Event) (w : State δ)
    (d : Delivery) : Bool :=
  match (handle D unmarshal w d).1 with
  | .error _ => false
  | .ok () => true

def deliver {δ : Type} (D : Dedupe δ) (unmarshal : List UInt8 → Option Event) (w : State δ)
    (d : Delivery) : State δ :=
  (handle D unmarshal w d).2

/-- `Handler.Handle` up to its call of the applier: the fresh event it will apply. -/
def claim {δ : Type} (D : Dedupe δ) (unmarshal : List UInt8 → Option Event) (dedupe : δ)
    (data : List UInt8) (outage : Outage) : Option Event × δ :=
  match unmarshal data with
  | none => (none, dedupe)
  | some event =>
      if event.eventID = "" then (none, dedupe)
      else if event.eventType ∉ supportedEventTypes then (none, dedupe)
      else
        match D.markProcessed dedupe event.eventID outage with
        | (.error _, dedupe) => (none, dedupe)
        | (.ok false, dedupe) => (none, dedupe)
        | (.ok true, dedupe) => (some event, dedupe)

end SecureSdlc.Worker

import SecureSdlc.Publisher.Interleaving
import SecureSdlc.Worker.Handler

/-!
The platform with its workers. The broker may hand out any accepted message at any time
and as often as it likes; a handler call works through its message in two steps, the
mark at the shared gate and the call of the applier, between which everything else may
run. A call may also end early, with its process.
-/

namespace SecureSdlc.Worker

open Core Publisher
open Domain (OrderedColumns Payload)

variable {C : OrderedColumns} {ι δ : Type} [DecidableEq ι]

/-- A handler call in progress: before its mark, or with a fresh event to apply. -/
inductive Handling where
  | received (data : List UInt8)
  | claimed (event : Event)

/-- The platform, the gate, the calls in progress and the events given to the applier. -/
structure Exchange (C : OrderedColumns) (ι δ : Type) where
  platform : Platform C ι
  dedupe : δ
  handling : List Handling
  invoked : List Event

inductive Move (C : OrderedColumns) (ι : Type) where
  | turn (turn : Turn C ι)
  | deliver (message : Nat)
  | mark (call : Nat) (outage : Outage)
  | apply (call : Nat)
  | drop (call : Nat)

def Exchange.start (dedupe : δ) : Exchange C ι δ :=
  ⟨Platform.start, dedupe, [], []⟩

/-- The message an effect put on the broker. -/
def messageOf : Effect → Option (List UInt8)
  | .accepted record _ => some record.payload
  | _ => none

def move (D : Dedupe δ) (encode : Payload → List UInt8)
    (unmarshal : List UInt8 → Option Event) (P : ι → Poller) (s : Exchange C ι δ) :
    Move C ι → Exchange C ι δ
  | .turn turn => { s with platform := take encode P s.platform turn }
  | .deliver message =>
      match (s.platform.effects.filterMap messageOf)[message]? with
      | none => s
      | some data => { s with handling := s.handling ++ [.received data] }
  | .mark call outage =>
      match s.handling[call]? with
      | some (.received data) =>
          match claim D unmarshal s.dedupe data outage with
          | (none, dedupe) =>
              { s with dedupe := dedupe, handling := s.handling.eraseIdx call }
          | (some event, dedupe) =>
              { s with
                dedupe := dedupe
                handling := s.handling.eraseIdx call ++ [.claimed event] }
      | _ => s
  | .apply call =>
      match s.handling[call]? with
      | some (.claimed event) =>
          { s with handling := s.handling.eraseIdx call, invoked := s.invoked ++ [event] }
      | _ => s
  | .drop call => { s with handling := s.handling.eraseIdx call }

end SecureSdlc.Worker

import Mathlib.Logic.Function.Basic
import SecureSdlc.Domain.Service
import SecureSdlc.Publisher.Outbox

/-!
The domain service and its publishers over one database. A schedule lets any call of
the service or any poller take its next step; the pollers share the broker, whose
acceptances stand in the order of the effects.
-/

namespace SecureSdlc.Publisher

open Core Domain

variable {C : OrderedColumns} {ι : Type} [DecidableEq ι]

structure Platform (C : OrderedColumns) (ι : Type) where
  domain : System (PostgresStore C.toColumns)
  phases : ι → Phase
  effects : List Effect

inductive Turn (C : OrderedColumns) (ι : Type) where
  | domain (action : Action)
  | poll (poller : ι) (poll : Poll C)

/-- The part of the platform a poller works on. -/
def Platform.state (s : Platform C ι) : State C :=
  ⟨s.domain.store.outbox, s.effects⟩

def Platform.start : Platform C ι :=
  ⟨⟨PostgresStore.empty, []⟩, fun _ => .idle, []⟩

def take (encode : Payload → List UInt8) (P : ι → Poller) (s : Platform C ι) :
    Turn C ι → Platform C ι
  | .domain action =>
      { s with domain := Domain.step (PostgresStore.store C.toColumns) s.domain action }
  | .poll i poll =>
      let (w, phase) := pollStep encode (P i) s.state (s.phases i) poll
      ⟨{ s.domain with store := { s.domain.store with outbox := w.outbox } },
        Function.update s.phases i phase, w.effects⟩

end SecureSdlc.Publisher

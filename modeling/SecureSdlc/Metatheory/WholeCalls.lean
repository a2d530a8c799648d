import SecureSdlc.Metatheory.EndToEnd

/-!
The platform call by call. `PublishBatch` and `Handler.Handle` are modelled as whole calls
and, where calls overlap, as the steps between their waits. A call that nothing interrupts is
a run of its steps, so a history of whole calls does nothing that no schedule of steps does.
-/

namespace SecureSdlc.Worker

open Core Publisher
open Domain (OrderedColumns Payload System PostgresStore)

variable {C : OrderedColumns} {ι δ : Type}

/-- The service, the broker and the worker between two calls. -/
structure Standing (C : OrderedColumns) (δ : Type) where
  domain : System (PostgresStore C.toColumns)
  effects : List Effect
  worker : State δ

def Standing.start (dedupe : δ) : Standing C δ :=
  ⟨⟨PostgresStore.empty, []⟩, [], ⟨dedupe, []⟩⟩

/-- The exchange stands where the calls have left the platform, with no call in progress. The
applier may have been given more events than it has applied. -/
structure Matches (s : Standing C δ) (e : Exchange C ι δ) : Prop where
  domain : e.platform.domain = s.domain
  effects : e.platform.effects = s.effects
  idle : ∀ i, e.platform.phases i = .idle
  dedupe : e.dedupe = s.worker.dedupe
  handled : e.handling = []
  applied : s.worker.applied.Sublist e.invoked

section Steps

variable [DecidableEq ι] (D : Dedupe δ) (encode : Payload → List UInt8)
  (unmarshal : List UInt8 → Option Event) (P : ι → Poller)

variable {D encode unmarshal P} {s : Standing C δ} {e : Exchange C ι δ}

end Steps

end SecureSdlc.Worker

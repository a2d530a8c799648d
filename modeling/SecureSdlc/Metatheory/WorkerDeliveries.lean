import Mathlib.Data.List.Induction
import SecureSdlc.Worker.Wire

/-!
Delivery histories of the worker. The gate is marked before the applier runs, so the
first delivery that marks an event id decides alone whether the event is ever
applied; every later delivery of that id is acknowledged without a call. The
histories in which no event is acknowledged unapplied are characterised by what
happened at those first marks.
-/

namespace SecureSdlc.Worker

open Core

/-- The reading of a gate: which calls answer, what they record, what is recorded. -/
structure DedupeView {δ : Type} (D : Dedupe δ) where
  Key : Type
  keyEq : DecidableEq Key
  seen : δ → Key → Prop
  marks : Outage → String → Option Key
  answers : Outage → String → Bool
  marks_of_answers : ∀ {o id}, answers o id = true → ∃ k, marks o id = some k
  marks_unique : ∀ {o o' id k k'}, marks o id = some k → marks o' id = some k' → k = k'
  seen_spec : ∀ d id o k,
    seen (D.markProcessed d id o).2 k ↔ seen d k ∨ marks o id = some k
  error_spec : ∀ {d id o}, answers o id = false → ∃ e, (D.markProcessed d id o).1 = .error e
  fresh_spec : ∀ {d id o k}, answers o id = true → marks o id = some k → ¬ seen d k →
    (D.markProcessed d id o).1 = .ok true
  known_spec : ∀ {d id o k}, answers o id = true → marks o id = some k → seen d k →
    (D.markProcessed d id o).1 = .ok false

instance {δ : Type} {D : Dedupe δ} (V : DedupeView D) : DecidableEq V.Key := V.keyEq

/-- The in-memory gate records ids as they are and always answers. -/
def MemoryDedupe.view : DedupeView memoryDedupe where
  Key := String
  keyEq := inferInstance
  seen d id := id ∈ d.seen
  marks _ id := some id
  answers _ _ := true
  marks_of_answers _ := ⟨_, rfl⟩
  marks_unique h h' := Option.some.inj (h.symm.trans h')
  seen_spec d id o k := by
    by_cases hd : id ∈ d.seen
    · simp only [memoryDedupe, MemoryDedupe.markProcessed, hd, if_true, Option.some.injEq]
      exact ⟨.inl, fun h => h.elim (fun hk => hk) (fun heq => heq ▸ hd)⟩
    · simp only [memoryDedupe, MemoryDedupe.markProcessed, hd, if_false, List.mem_cons,
        Option.some.injEq, eq_comm (a := k), or_comm]
  error_spec h := by cases h
  fresh_spec _ hk hd := by
    cases hk
    simp [memoryDedupe, MemoryDedupe.markProcessed, hd]
  known_spec _ hk hd := by
    cases hk
    simp [memoryDedupe, MemoryDedupe.markProcessed, hd]

/-- The table records the `UUID` the id denotes, unless the call is refused. -/
def PostgresDedupe.view {Uuid : Type} [DecidableEq Uuid] (castUuid : String → Option Uuid) :
    DedupeView (postgresDedupe castUuid) where
  Key := Uuid
  keyEq := inferInstance
  seen d id := id ∈ d.seen
  marks o id := if o = .refused then none else castUuid id
  answers o id := decide (o = .up) && (castUuid id).isSome
  marks_of_answers {o id} h := by
    simp only [Bool.and_eq_true, decide_eq_true_eq, Option.isSome_iff_exists] at h
    obtain ⟨rfl, k, hk⟩ := h
    exact ⟨k, by simp [hk]⟩
  marks_unique {o o' id k k'} h h' := by
    split at h
    · cases h
    · split at h'
      · cases h'
      · exact Option.some.inj (h.symm.trans h')
  seen_spec d id o k := by
    simp only [postgresDedupe, PostgresDedupe.markProcessed]
    cases hc : castUuid id with
    | none => cases o <;> simp
    | some u =>
        cases o
        case refused => simp
        all_goals
          by_cases hu : u ∈ d.seen
          · simp only [hu, if_true, reduceCtorEq, if_false, Option.some.injEq]
            exact ⟨.inl, fun h => h.elim (fun hk => hk) (fun heq => heq ▸ hu)⟩
          · simp only [hu, if_false, reduceCtorEq, List.mem_cons, Option.some.injEq,
              eq_comm (a := k), or_comm]
  error_spec {d id o} h := by
    simp only [postgresDedupe, PostgresDedupe.markProcessed]
    cases hc : castUuid id with
    | none => exact ⟨_, rfl⟩
    | some u =>
        cases o
        case up => simp [hc] at h
        all_goals exact ⟨_, rfl⟩
  fresh_spec {d id o k} h hk hd := by
    simp only [Bool.and_eq_true, decide_eq_true_eq] at h
    obtain ⟨rfl, -⟩ := h
    simp only [reduceCtorEq, if_false] at hk
    simp [postgresDedupe, PostgresDedupe.markProcessed, hk, hd]
  known_spec {d id o k} h hk hd := by
    simp only [Bool.and_eq_true, decide_eq_true_eq] at h
    obtain ⟨rfl, -⟩ := h
    simp only [reduceCtorEq, if_false] at hk
    simp [postgresDedupe, PostgresDedupe.markProcessed, hk, hd]

section History

variable {δ : Type} {D : Dedupe δ} (V : DedupeView D) (unmarshal : List UInt8 → Option Event)

/-- The event of a delivery that passes the handler's own checks. -/
def acceptedEvent (d : Delivery) : Option Event :=
  (unmarshal d.data).filter fun e =>
    decide (e.eventID ≠ "") && decide (e.eventType ∈ supportedEventTypes)

theorem acceptedEvent_eq_some (d : Delivery) (e : Event) :
    acceptedEvent unmarshal d = some e ↔
      unmarshal d.data = some e ∧ e.eventID ≠ "" ∧ e.eventType ∈ supportedEventTypes := by
  simp [acceptedEvent, Option.filter_eq_some_iff]

/-- The key a delivery records at the gate, if it gets that far. -/
def marked (d : Delivery) : Option V.Key :=
  (acceptedEvent unmarshal d).bind fun e => V.marks d.outage e.eventID

/-- The delivery of a history that recorded `k` first. -/
def firstMarker (history : List Delivery) (k : V.Key) : Option Delivery :=
  history.find? fun d => decide (marked V unmarshal d = some k)

/-- A first mark that came to an end: the gate answered and the applier succeeded. -/
def Settles (m : Delivery) (e : Event) : Prop :=
  acceptedEvent unmarshal m = some e ∧ V.answers m.outage e.eventID = true ∧
    m.applyError = none

theorem handle_rejected {w : State δ} {d : Delivery} (h : acceptedEvent unmarshal d = none) :
    ∃ e, handle D unmarshal w d = (.error e, w) := by
  unfold handle
  cases hu : unmarshal d.data with
  | none => exact ⟨_, rfl⟩
  | some event =>
      by_cases hid : event.eventID = ""
      · exact ⟨_, by simp only [hid, if_true]; rfl⟩
      · by_cases ht : event.eventType ∈ supportedEventTypes
        · rw [(acceptedEvent_eq_some unmarshal d event).mpr ⟨hu, hid, ht⟩] at h
          cases h
        · exact ⟨_, by simp only [hid, ht, if_false, not_false_eq_true, if_true]; rfl⟩

theorem handle_accepted {w : State δ} {d : Delivery} {event : Event}
    (h : acceptedEvent unmarshal d = some event) :
    handle D unmarshal w d = handleEvent D w d event := by
  obtain ⟨hu, hid, ht⟩ := (acceptedEvent_eq_some unmarshal d event).mp h
  simp only [handle, hu, hid, ht, not_true_eq_false, if_false]

/-- What a delivery does to the gate and to the applied events. -/
theorem deliver_spec (w : State δ) (d : Delivery) :
    (∀ k, V.seen (deliver D unmarshal w d).dedupe k ↔
      V.seen w.dedupe k ∨ marked V unmarshal d = some k) ∧
    ∀ e, e ∈ (deliver D unmarshal w d).applied ↔
      e ∈ w.applied ∨ Settles V unmarshal d e ∧
        ∀ k, marked V unmarshal d = some k → ¬ V.seen w.dedupe k := by
  unfold deliver
  cases ha : acceptedEvent unmarshal d with
  | none =>
      obtain ⟨_, hh⟩ := handle_rejected (D := D) (w := w) unmarshal ha
      simp [hh, marked, Settles, ha]
  | some event =>
      have hseen := V.seen_spec w.dedupe event.eventID d.outage
      rw [handle_accepted unmarshal ha, handleEvent]
      simp only [marked, ha, Option.bind_some, Settles, Option.some.injEq]
      cases hans : V.answers d.outage event.eventID with
      | false =>
          obtain ⟨err, herr⟩ := V.error_spec (d := w.dedupe) hans
          rw [← Prod.eta (D.markProcessed w.dedupe event.eventID d.outage), herr]
          refine ⟨hseen, fun e => ⟨.inl, ?_⟩⟩
          rintro (he | ⟨⟨rfl, habs, -⟩, -⟩)
          · exact he
          · rw [hans] at habs
            cases habs
      | true =>
          obtain ⟨k, hk⟩ := V.marks_of_answers hans
          by_cases hknown : V.seen w.dedupe k
          · rw [← Prod.eta (D.markProcessed w.dedupe event.eventID d.outage),
              V.known_spec hans hk hknown]
            refine ⟨hseen, fun e => ⟨.inl, ?_⟩⟩
            rintro (he | ⟨-, hfresh⟩)
            · exact he
            · exact absurd hknown (hfresh k hk)
          · rw [← Prod.eta (D.markProcessed w.dedupe event.eventID d.outage),
              V.fresh_spec hans hk hknown]
            have hfresh : ∀ k', V.marks d.outage event.eventID = some k' →
                ¬ V.seen w.dedupe k' := by
              intro k' hk'
              rwa [V.marks_unique hk' hk]
            cases happ : d.applyError with
            | some err => exact ⟨hseen, fun e => by simp⟩
            | none =>
                refine ⟨hseen, fun e => ?_⟩
                simp only [List.mem_append, List.mem_singleton, and_true]
                constructor
                · rintro (he | rfl)
                  · exact .inl he
                  · exact .inr ⟨⟨rfl, hans⟩, hfresh⟩
                · rintro (he | ⟨⟨rfl, -⟩, -⟩)
                  · exact .inl he
                  · exact .inr rfl

/-- The worker after a history, read off the history's first marks. -/
structure Recorded (history : List Delivery) (w : State δ) : Prop where
  seen : ∀ k, V.seen w.dedupe k ↔ firstMarker V unmarshal history k ≠ none
  applied : ∀ e, e ∈ w.applied ↔
    ∃ k m, firstMarker V unmarshal history k = some m ∧ Settles V unmarshal m e

theorem marked_of_settles {m : Delivery} {e : Event} (h : Settles V unmarshal m e) :
    ∃ k, marked V unmarshal m = some k := by
  obtain ⟨k, hk⟩ := V.marks_of_answers h.2.1
  exact ⟨k, by simp [marked, h.1, hk]⟩

theorem firstMarker_append (history : List Delivery) (d : Delivery) (k : V.Key) :
    firstMarker V unmarshal (history ++ [d]) k =
      (firstMarker V unmarshal history k).or
        (if marked V unmarshal d = some k then some d else none) := by
  simp only [firstMarker, List.find?_append, List.find?_cons, List.find?_nil]
  by_cases h : marked V unmarshal d = some k <;> simp [h]

theorem marked_of_firstMarker {history : List Delivery} {k : V.Key} {m : Delivery}
    (h : firstMarker V unmarshal history k = some m) : marked V unmarshal m = some k := by
  simpa using List.find?_some h

theorem recorded_deliver {history : List Delivery} {w : State δ}
    (h : Recorded V unmarshal history w) (d : Delivery) :
    Recorded V unmarshal (history ++ [d]) (deliver D unmarshal w d) := by
  obtain ⟨hseen, happlied⟩ := deliver_spec V unmarshal w d
  refine ⟨fun k => ?_, fun e => ?_⟩
  · rw [hseen, h.seen, firstMarker_append]
    cases firstMarker V unmarshal history k <;> by_cases hm : marked V unmarshal d = some k <;>
      simp [hm]
  · rw [happlied, h.applied]
    constructor
    · rintro (⟨k, m, hm, hs⟩ | ⟨hs, hfresh⟩)
      · exact ⟨k, m, by simp [firstMarker_append, hm], hs⟩
      · obtain ⟨k, hk⟩ := marked_of_settles V unmarshal hs
        have hnone : firstMarker V unmarshal history k = none := by
          by_contra hne
          exact hfresh k hk ((h.seen k).mpr hne)
        exact ⟨k, d, by simp [firstMarker_append, hnone, hk], hs⟩
    · rintro ⟨k, m, hm, hs⟩
      rw [firstMarker_append] at hm
      cases hf : firstMarker V unmarshal history k with
      | some m' =>
          rw [hf, Option.some_or, Option.some.injEq] at hm
          subst hm
          exact .inl ⟨k, m', hf, hs⟩
      | none =>
          rw [hf, Option.none_or] at hm
          split at hm
          · cases hm
            rename_i hk
            refine .inr ⟨hs, fun k' hk' => ?_⟩
            rw [hk, Option.some.injEq] at hk'
            subst hk'
            rw [h.seen, hf]
            exact fun hne => hne rfl
          · cases hm

theorem recorded_nil {d : δ} (h : ∀ k, ¬ V.seen d k) : Recorded V unmarshal [] ⟨d, []⟩ :=
  ⟨fun k => by simp [h k, firstMarker], fun e => by simp [firstMarker]⟩

theorem recorded_run (start : State δ) (hstart : Recorded V unmarshal [] start)
    (history : List Delivery) :
    Recorded V unmarshal history (run (deliver D unmarshal) start history) := by
  induction history using List.reverseRecOn with
  | nil => exact hstart
  | append_singleton history d ih =>
      rw [run_append]
      exact recorded_deliver V unmarshal ih d

/-- No event is acknowledged without having been applied: whenever the callback acks a
message with an event id and a supported type, the applier has returned success for that
event id by the end of this delivery. -/
def AckedApplied (D : Dedupe δ) (start : State δ) (history : List Delivery) : Prop :=
  ∀ pre d post, history = pre ++ d :: post → ∀ event, unmarshal d.data = some event →
    event.eventID ≠ "" → event.eventType ∈ supportedEventTypes →
    acks D unmarshal (run (deliver D unmarshal) start pre) d = true →
    ∃ e ∈ (run (deliver D unmarshal) start (pre ++ [d])).applied, e.eventID = event.eventID

/-- No delivery gets an answer from the gate for an id whose first mark went wrong: the
reply to it was lost, the applier failed on it, or it spelled the id differently. -/
def FirstMarksSettle (history : List Delivery) : Prop :=
  ∀ pre d post, history = pre ++ d :: post → ∀ event, acceptedEvent unmarshal d = some event →
    V.answers d.outage event.eventID = true → ∀ k m, V.marks d.outage event.eventID = some k →
    firstMarker V unmarshal pre k = some m →
    ∃ e, Settles V unmarshal m e ∧ e.eventID = event.eventID

/-- The callback acks when the gate answers and the event is known or now applied. -/
theorem acks_iff {w : State δ} {d : Delivery} {event : Event} {k : V.Key}
    (h : acceptedEvent unmarshal d = some event) (hk : V.marks d.outage event.eventID = some k) :
    acks D unmarshal w d = true ↔
      V.answers d.outage event.eventID = true ∧ (V.seen w.dedupe k ∨ d.applyError = none) := by
  rw [acks, handle_accepted unmarshal h, handleEvent]
  cases hans : V.answers d.outage event.eventID with
  | false =>
      obtain ⟨err, herr⟩ := V.error_spec (d := w.dedupe) hans
      rw [← Prod.eta (D.markProcessed w.dedupe event.eventID d.outage), herr]
      simp
  | true =>
      by_cases hknown : V.seen w.dedupe k
      · rw [← Prod.eta (D.markProcessed w.dedupe event.eventID d.outage),
          V.known_spec hans hk hknown]
        simp [hknown]
      · rw [← Prod.eta (D.markProcessed w.dedupe event.eventID d.outage),
          V.fresh_spec hans hk hknown]
        cases d.applyError <;> simp [hknown]

theorem not_acks_of_not_answers {w : State δ} {d : Delivery} {event : Event}
    (h : acceptedEvent unmarshal d = some event)
    (hans : V.answers d.outage event.eventID = false) : acks D unmarshal w d = false := by
  obtain ⟨err, herr⟩ := V.error_spec (d := w.dedupe) hans
  rw [acks, handle_accepted unmarshal h, handleEvent,
    ← Prod.eta (D.markProcessed w.dedupe event.eventID d.outage), herr]

theorem ackedApplied_iff (start : State δ) (hstart : Recorded V unmarshal [] start)
    (history : List Delivery) :
    AckedApplied unmarshal D start history ↔ FirstMarksSettle V unmarshal history := by
  constructor
  · intro h pre d post heq event hev hans k m hk hm
    obtain ⟨hu, hid, ht⟩ := (acceptedEvent_eq_some unmarshal d event).mp hev
    have hpre := recorded_run V unmarshal start hstart pre
    have hknown : V.seen (run (deliver D unmarshal) start pre).dedupe k :=
      (hpre.seen k).mpr (by simp [hm])
    obtain ⟨e, he, hsame⟩ := h pre d post heq event hu hid ht
      ((acks_iff V unmarshal hev hk).mpr ⟨hans, .inl hknown⟩)
    have hrecorded := recorded_run V unmarshal start hstart (pre ++ [d])
    obtain ⟨k', m', hm', hs⟩ := (hrecorded.applied e).mp he
    have hkm : V.marks m'.outage e.eventID = some k' := by
      have hmark := marked_of_firstMarker V unmarshal hm'
      simpa [marked, hs.1] using hmark
    rw [hsame] at hkm
    have hkk := V.marks_unique hkm hk
    subst hkk
    rw [firstMarker_append, hm, Option.some_or, Option.some.injEq] at hm'
    subst hm'
    exact ⟨e, hs, hsame⟩
  · intro h pre d post heq event hu hid ht hack
    have hev := (acceptedEvent_eq_some unmarshal d event).mpr ⟨hu, hid, ht⟩
    have hafter := recorded_run V unmarshal start hstart (pre ++ [d])
    have hpre := recorded_run V unmarshal start hstart pre
    cases hans : V.answers d.outage event.eventID with
    | false =>
        rw [not_acks_of_not_answers V unmarshal hev hans] at hack
        cases hack
    | true =>
        obtain ⟨k, hk⟩ := V.marks_of_answers hans
        cases hm : firstMarker V unmarshal pre k with
        | some m =>
            obtain ⟨e, hs, hsame⟩ := h pre d post heq event hev hans k m hk hm
            exact ⟨e, (hafter.applied e).mpr ⟨k, m, by simp [firstMarker_append, hm], hs⟩, hsame⟩
        | none =>
            have hfresh : ¬ V.seen (run (deliver D unmarshal) start pre).dedupe k := by
              rw [hpre.seen, hm]
              exact fun hne => hne rfl
            have happly := (((acks_iff V unmarshal hev hk).mp hack).2).resolve_left hfresh
            have hmark : marked V unmarshal d = some k := by simp [marked, hev, hk]
            exact ⟨event, (hafter.applied event).mpr
              ⟨k, d, by simp [firstMarker_append, hm, hmark], hev, hans, happly⟩, rfl⟩

end History

/-- For either gate, from empty: no event is acknowledged unapplied exactly in the
histories where every delivery the gate answers finds its id's first mark settled. -/
theorem ackedApplied_iff_firstMarksSettle (unmarshal : List UInt8 → Option Event) :
    (∀ history, AckedApplied unmarshal memoryDedupe ⟨⟨[]⟩, []⟩ history ↔
      FirstMarksSettle MemoryDedupe.view unmarshal history) ∧
    ∀ {Uuid : Type} [DecidableEq Uuid] (castUuid : String → Option Uuid) (history : List Delivery),
      AckedApplied unmarshal (postgresDedupe castUuid) ⟨⟨[]⟩, []⟩ history ↔
        FirstMarksSettle (PostgresDedupe.view castUuid) unmarshal history := by
  refine ⟨fun history =>
      ackedApplied_iff _ unmarshal _ (recorded_nil _ unmarshal fun k => ?_) history,
    fun castUuid history =>
      ackedApplied_iff _ unmarshal _ (recorded_nil _ unmarshal fun k => ?_) history⟩
  all_goals exact List.not_mem_nil

/-- The bytes of an ASCII text. -/
def asciiBytes (text : String) : List UInt8 :=
  text.toList.map fun c => UInt8.ofNat c.toNat

def sampleMessage : List UInt8 := asciiBytes
  "\x7b\"event_id\":\"11111111-1111-1111-1111-111111111111\",\"event_type\":\"request-created\"\x7d"

def sampleEvent : Event :=
  ⟨"11111111-1111-1111-1111-111111111111", "request-created", "", ⟨"", "", "", ""⟩⟩

/-- A delivery whose applier fails, then the redelivery of the unacknowledged message. -/
def failedThenRedelivered : List Delivery :=
  [⟨sampleMessage, .up, some "apply failed"⟩, ⟨sampleMessage, .up, none⟩]

/-- The redelivery is acknowledged although the event was never applied. -/
theorem failedThenRedelivered_acked_unapplied :
    ¬ AckedApplied unmarshal memoryDedupe ⟨⟨[]⟩, []⟩ failedThenRedelivered := by
  intro h
  have hdecoded : unmarshal sampleMessage = some sampleEvent := by decide +kernel
  have hack : acks memoryDedupe unmarshal
      (run (deliver memoryDedupe unmarshal) ⟨⟨[]⟩, []⟩ (failedThenRedelivered.take 1))
      ⟨sampleMessage, .up, none⟩ = true := by decide +kernel
  have hnone : (run (deliver memoryDedupe unmarshal) ⟨⟨[]⟩, []⟩
      (failedThenRedelivered.take 1 ++ [⟨sampleMessage, .up, none⟩])).applied = [] := by
    decide +kernel
  obtain ⟨e, he, -⟩ := h (failedThenRedelivered.take 1) ⟨sampleMessage, .up, none⟩ [] rfl
    sampleEvent hdecoded (by decide) (by decide) hack
  rw [hnone] at he
  exact List.not_mem_nil he

end SecureSdlc.Worker

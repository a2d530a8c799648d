import SecureSdlc.Domain.Payload
import SecureSdlc.Metatheory.EventOrder
import SecureSdlc.Metatheory.WorkerDeliveries
import SecureSdlc.Worker.Interleaving
import SecureSdlc.Worker.Wire

/-!
From the outbox to the applier. Publishers and broker may repeat and reorder messages at
will; the gate hands out each event id once, and a claimed event is applied once or lost
with its call. What is on its way anywhere was read from a committed row, and rows are
never taken back, so nothing the applier sees is made up.
-/

namespace SecureSdlc.Worker

open Core Publisher
open Domain (OrderedColumns OutboxRow Payload buildPayload)

variable {C : OrderedColumns} {ι δ : Type}

/-- The event a payload decodes to: the fields the worker reads. -/
def wireEvent : Payload → Event
  | .requestCreated eventID eventType occurredAt id title status createdAt =>
      ⟨eventID, eventType, occurredAt, ⟨id, title, status, createdAt⟩⟩
  | .requestStatusChanged eventID eventType occurredAt id status _ _ =>
      ⟨eventID, eventType, occurredAt, ⟨id, "", status, ""⟩⟩

/-- The columns of a row say what its payload says. -/
def Faithful (entry : C.Uuid × OutboxRow C.toColumns) : Prop :=
  C.castUuid (wireEvent entry.2.payload).eventID = some entry.1 ∧
    (wireEvent entry.2.payload).eventType = entry.2.eventType ∧
    C.castTimestamp (wireEvent entry.2.payload).occurredAt = some entry.2.occurredAt

theorem wireEvent_buildPayload {e : Domain.Event} {payload : Payload}
    (h : buildPayload e = .ok payload) :
    (wireEvent payload).eventID = e.eventID ∧ (wireEvent payload).eventType = e.eventType ∧
      (wireEvent payload).occurredAt = e.occurredAt := by
  simp only [buildPayload] at h
  split at h
  · cases h
    exact ⟨rfl, rfl, rfl⟩
  · split at h
    · cases h
      exact ⟨rfl, rfl, rfl⟩
    · cases h

/-- The record was read from a committed row. -/
def FromRow (encode : Payload → List UInt8) (outbox : Table C) (record : Record) : Prop :=
  ∃ entry ∈ committed outbox, record = scan encode entry

/-- The records a poller holds. -/
def Phase.records : Phase → List Record
  | .idle => []
  | .publishing records => records
  | .marking record records => record :: records

/-- Everything on its way was read from a committed row. -/
structure Sourced (encode : Payload → List UInt8) (s : Platform C ι) : Prop where
  rows : ∀ entry ∈ committed s.domain.store.outbox, Faithful entry
  sent : ∀ record subject, .accepted record subject ∈ s.effects →
    FromRow encode s.domain.store.outbox record
  held : ∀ i, ∀ record ∈ Phase.records (s.phases i), FromRow encode s.domain.store.outbox record

theorem fromRow_scan (encode : Payload → List UInt8) {outbox : Table C}
    {entry : C.Uuid × OutboxRow C.toColumns} (h : entry ∈ outbox) :
    FromRow encode outbox (scan encode entry) :=
  ⟨(entry.1, { entry.2 with publishedAt := none }), List.mem_map_of_mem h, rfl⟩

theorem FromRow.mono {encode : Payload → List UInt8} {outbox outbox' more : Table C}
    {record : Record} (h : FromRow encode outbox record)
    (heq : committed outbox' = committed outbox ++ more) : FromRow encode outbox' record := by
  obtain ⟨entry, hentry, hrecord⟩ := h
  exact ⟨entry, heq ▸ List.mem_append_left _ hentry, hrecord⟩

/-- A poller sends and keeps what it held or has just read from the table. -/
theorem pollStep_sources (encode : Payload → List UInt8) (P : Poller)
    (w : Publisher.State C) (phase : Phase) (poll : Poll C) :
    committed (pollStep encode P w phase poll).1.outbox = committed w.outbox ∧
    (∀ record subject, .accepted record subject ∈ (pollStep encode P w phase poll).1.effects →
      .accepted record subject ∈ w.effects ∨ record ∈ Phase.records phase) ∧
    ∀ record ∈ Phase.records (pollStep encode P w phase poll).2,
      record ∈ Phase.records phase ∨ FromRow encode w.outbox record := by
  rcases pollStep_cases encode P w phase poll with
    ⟨hw, hkeep | hidle⟩ | ⟨ties, -, -, heq⟩ | ⟨record, records, subject, rfl, -, hw, hnext⟩ |
    ⟨record, records, now, outbox, rfl, hmark, hw, hnext⟩ | ⟨record, records, rfl, heq⟩
  · rw [hw, hkeep]
    exact ⟨rfl, fun _ _ h => .inl h, fun _ h => .inl h⟩
  · rw [hw, hidle]
    exact ⟨rfl, fun _ _ h => .inl h, by simp [Phase.records]⟩
  · rw [heq]
    refine ⟨rfl, fun _ _ h => .inl h, fun record hmem => .inr ?_⟩
    obtain ⟨entry, hentry, rfl⟩ := List.mem_map.mp hmem
    exact fromRow_scan encode ((fetchRows_fetches _ _ _).mem hentry).1
  · rw [hw]
    refine ⟨rfl, fun record' subject' hmem => ?_, fun record' hmem => .inl ?_⟩
    · rcases List.mem_append.mp hmem with hold | hlast
      · exact .inl hold
      · rw [List.mem_singleton, Effect.accepted.injEq] at hlast
        exact .inr (hlast.1 ▸ List.mem_cons_self)
    · rcases hnext with hnext | hnext <;> rw [hnext] at hmem
      · exact hmem
      · simp [Phase.records] at hmem
  · rw [hw]
    refine ⟨committed_markPublished hmark, fun record' subject' hmem => ?_,
      fun record' hmem => .inl ?_⟩
    · rcases List.mem_append.mp hmem with hold | hlast
      · exact .inl hold
      · simp at hlast
    · rcases hnext with hnext | hnext <;> rw [hnext] at hmem
      · exact List.mem_cons_of_mem _ hmem
      · simp [Phase.records] at hmem
  · rw [heq]
    refine ⟨rfl, fun record' subject' hmem => ?_, by simp [Phase.records]⟩
    rcases List.mem_append.mp hmem with hold | hlast
    · exact .inl hold
    · simp at hlast

/-- No step takes a committed row back, and a new row says what its payload says. -/
theorem committed_take [DecidableEq ι] (encode : Payload → List UInt8)
    (P : ι → Poller) (s : Platform C ι) (turn : Turn C ι) :
    ∃ more, committed (take encode P s turn).domain.store.outbox =
      committed s.domain.store.outbox ++ more ∧ ∀ entry ∈ more, Faithful entry := by
  cases turn with
  | domain action =>
      rcases outbox_domainStep s.domain action with hsame |
        ⟨u, e, payload, occurredAt, -, hpayload, hu, hat, hnew⟩
      · exact ⟨[], by simp only [take, hsame, List.append_nil], by simp⟩
      · refine ⟨[(u, ⟨e.eventType, occurredAt, payload, none⟩)], ?_, fun entry hentry => ?_⟩
        · simp only [take, hnew, committed_append]
          rfl
        · rw [List.mem_singleton] at hentry
          subst hentry
          obtain ⟨hid, htype, htime⟩ := wireEvent_buildPayload hpayload
          exact ⟨by rw [hid]; exact hu, htype, by rw [htime]; exact hat⟩
  | poll i poll =>
      refine ⟨[], ?_, by simp⟩
      rw [List.append_nil]
      exact (pollStep_sources encode (P i) s.state (s.phases i) poll).1

theorem sourced_take [DecidableEq ι] {encode : Payload → List UInt8} {P : ι → Poller}
    {s : Platform C ι} (h : Sourced encode s) (turn : Turn C ι) :
    Sourced encode (take encode P s turn) := by
  obtain ⟨more, hmore, hfaithful⟩ := committed_take encode P s turn
  have hrows : ∀ entry ∈ committed (take encode P s turn).domain.store.outbox, Faithful entry := by
    intro entry hentry
    rw [hmore] at hentry
    exact (List.mem_append.mp hentry).elim (h.rows entry) (hfaithful entry)
  cases turn with
  | domain action =>
      exact ⟨hrows, fun record subject hmem => (h.sent record subject hmem).mono hmore,
        fun i record hmem => (h.held i record hmem).mono hmore⟩
  | poll i poll =>
      obtain ⟨-, hsent, hheld⟩ := pollStep_sources encode (P i) s.state (s.phases i) poll
      refine ⟨hrows, fun record subject hmem => ?_, fun j record hmem => ?_⟩
      · rcases hsent record subject hmem with hold | hphase
        · exact (h.sent record subject hold).mono hmore
        · exact (h.held i record hphase).mono hmore
      · by_cases hj : j = i
        · subst hj
          simp only [take, Function.update_self] at hmem
          rcases hheld record hmem with hphase | hread
          · exact (h.held j record hphase).mono hmore
          · exact hread.mono hmore
        · simp only [take, Function.update_of_ne hj] at hmem
          exact (h.held j record hmem).mono hmore

def Handling.event : Handling → Option Event
  | .received _ => none
  | .claimed event => some event

/-- The events claimed and not yet given to the applier. -/
def claimedEvents (handling : List Handling) : List Event :=
  handling.filterMap Handling.event

theorem claimedEvents_append (first second : List Handling) :
    claimedEvents (first ++ second) = claimedEvents first ++ claimedEvents second :=
  List.filterMap_append

theorem claimedEvents_eraseIdx (handling : List Handling) (call : Nat) :
    (claimedEvents (handling.eraseIdx call)).Sublist (claimedEvents handling) :=
  (List.eraseIdx_sublist handling call).filterMap _

/-- Taking a claimed event out of the calls in progress. -/
theorem claimedEvents_perm {handling : List Handling} {call : Nat} {event : Event}
    (h : handling[call]? = some (.claimed event)) :
    (event :: claimedEvents (handling.eraseIdx call)).Perm (claimedEvents handling) := by
  obtain ⟨hlt, hget⟩ := List.getElem?_eq_some_iff.mp h
  have hsplit : handling = handling.take call ++ .claimed event :: handling.drop (call + 1) := by
    rw [← hget, ← List.drop_eq_getElem_cons hlt, List.take_append_drop]
  have hperm : (.claimed event :: handling.eraseIdx call).Perm handling := by
    rw [List.eraseIdx_eq_take_drop_succ]
    nth_rewrite 3 [hsplit]
    exact List.perm_middle.symm
  exact hperm.filterMap Handling.event

section Gate

variable {D : Dedupe δ} (V : DedupeView D) (unmarshal : List UInt8 → Option Event)

/-- The gate answers that an id is new only when it was not recorded. -/
theorem markProcessed_fresh {d : δ} {id : String} {o : Outage}
    (h : (D.markProcessed d id o).1 = .ok true) :
    ∃ k, V.marks o id = some k ∧ ¬ V.seen d k := by
  cases hanswers : V.answers o id with
  | false =>
      obtain ⟨e, he⟩ := V.error_spec (d := d) hanswers
      rw [he] at h
      cases h
  | true =>
      obtain ⟨k, hk⟩ := V.marks_of_answers hanswers
      refine ⟨k, hk, fun hseen => ?_⟩
      rw [V.known_spec hanswers hk hseen] at h
      cases h

/-- What a claim does: the gate forgets nothing, and a claimed event was decoded from
the message and not recorded before. -/
theorem claim_spec (d : δ) (data : List UInt8) (o : Outage) :
    (∀ k, V.seen d k → V.seen (claim D unmarshal d data o).2 k) ∧
    ∀ event, (claim D unmarshal d data o).1 = some event →
      unmarshal data = some event ∧ ∃ k, V.marks o event.eventID = some k ∧ ¬ V.seen d k ∧
        V.seen (claim D unmarshal d data o).2 k := by
  simp only [claim]
  cases hdata : unmarshal data with
  | none => exact ⟨fun _ h => h, fun _ h => by cases h⟩
  | some event =>
      by_cases hid : event.eventID = ""
      · simp only [hid, if_true]
        exact ⟨fun _ h => h, fun _ h => by cases h⟩
      by_cases htype : event.eventType ∉ supportedEventTypes
      · simp only [hid, htype, if_false, not_false_eq_true, if_true]
        exact ⟨fun _ h => h, fun _ h => by cases h⟩
      simp only [hid, htype, if_false]
      have hseen := V.seen_spec d event.eventID o
      cases hmark : D.markProcessed d event.eventID o with
      | mk answer dedupe =>
          rw [hmark] at hseen
          cases answer with
          | error e => exact ⟨fun k h => (hseen k).mpr (.inl h), fun _ h => by cases h⟩
          | ok fresh =>
              cases fresh with
              | false => exact ⟨fun k h => (hseen k).mpr (.inl h), fun _ h => by cases h⟩
              | true =>
                  refine ⟨fun k h => (hseen k).mpr (.inl h), fun event' h => ?_⟩
                  cases h
                  obtain ⟨k, hk, hnew⟩ := markProcessed_fresh V (by rw [hmark])
                  exact ⟨rfl, k, hk, hnew, (hseen k).mpr (.inr hk)⟩

variable (encode : Payload → List UInt8)

/-- The events given or about to be given to the applier. -/
def Exchange.taken (s : Exchange C ι δ) : List Event :=
  s.invoked ++ claimedEvents s.handling

/-- A message that was read from a committed row. -/
def FromOutbox (s : Exchange C ι δ) (data : List UInt8) : Prop :=
  ∃ entry ∈ committed s.platform.domain.store.outbox, data = encode entry.2.payload

structure Sound (s : Exchange C ι δ) : Prop where
  sourced : Sourced encode s.platform
  received : ∀ data, .received data ∈ s.handling → FromOutbox encode s data
  decoded : ∀ event ∈ s.taken, ∃ data, FromOutbox encode s data ∧ unmarshal data = some event
  recorded : ∀ event ∈ s.taken, ∃ o k, V.marks o event.eventID = some k ∧ V.seen s.dedupe k
  once : s.taken.Pairwise fun a b => a.eventID ≠ b.eventID

variable {V unmarshal encode}

theorem sound_turn [DecidableEq ι] {P : ι → Poller} {s : Exchange C ι δ}
    (h : Sound V unmarshal encode s) (turn : Turn C ι) :
    Sound V unmarshal encode { s with platform := take encode P s.platform turn } := by
  obtain ⟨more, hmore, -⟩ := committed_take encode P s.platform turn
  have hkept : ∀ data, FromOutbox encode s data →
      FromOutbox encode { s with platform := take encode P s.platform turn } data := by
    rintro data ⟨entry, hentry, hdata⟩
    exact ⟨entry, by simp only [hmore]; exact List.mem_append_left _ hentry, hdata⟩
  refine ⟨sourced_take h.sourced turn, fun data hmem => hkept data (h.received data hmem),
    fun event hmem => ?_, h.recorded, h.once⟩
  obtain ⟨data, hdata, hevent⟩ := h.decoded event hmem
  exact ⟨data, hkept data hdata, hevent⟩

/-- Calls that end, and events that leave with them, do no harm. -/
theorem sound_fewer {s : Exchange C ι δ} (h : Sound V unmarshal encode s) {dedupe : δ}
    (hseen : ∀ k, V.seen s.dedupe k → V.seen dedupe k) (call : Nat) :
    Sound V unmarshal encode
      { s with dedupe := dedupe, handling := s.handling.eraseIdx call } := by
  have hsub : List.Sublist
      (Exchange.taken { s with dedupe := dedupe, handling := s.handling.eraseIdx call }) s.taken :=
    (List.Sublist.refl s.invoked).append (claimedEvents_eraseIdx _ call)
  refine ⟨h.sourced, fun data hmem => h.received data (List.mem_of_mem_eraseIdx hmem),
    fun event hmem => h.decoded event (hsub.mem hmem), fun event hmem => ?_, h.once.sublist hsub⟩
  obtain ⟨o, k, hk, hold⟩ := h.recorded event (hsub.mem hmem)
  exact ⟨o, k, hk, hseen k hold⟩

theorem sound_claim {s : Exchange C ι δ} (h : Sound V unmarshal encode s) {call : Nat}
    {data : List UInt8} (hcall : s.handling[call]? = some (.received data)) {outage : Outage}
    {event : Event} {dedupe : δ}
    (hclaim : claim D unmarshal s.dedupe data outage = (some event, dedupe)) :
    Sound V unmarshal encode
      { s with
        dedupe := dedupe
        handling := s.handling.eraseIdx call ++ [.claimed event] } := by
  obtain ⟨hkeeps, hfresh⟩ := claim_spec V unmarshal s.dedupe data outage
  rw [hclaim] at hkeeps hfresh
  obtain ⟨hdecoded, k, hk, hnew, hseen⟩ := hfresh event rfl
  have hfewer := sound_fewer h hkeeps call
  have htaken : Exchange.taken { s with
      dedupe := dedupe
      handling := s.handling.eraseIdx call ++ [.claimed event] } =
      s.invoked ++ claimedEvents (s.handling.eraseIdx call) ++ [event] := by
    simp only [Exchange.taken, claimedEvents_append, ← List.append_assoc]
    rfl
  refine ⟨h.sourced, fun data' hmem => ?_, fun event' hmem => ?_, fun event' hmem => ?_, ?_⟩
  · rcases List.mem_append.mp hmem with hold | hlast
    · exact hfewer.received data' hold
    · simp at hlast
  · rw [htaken] at hmem
    rcases List.mem_append.mp hmem with hold | hlast
    · exact hfewer.decoded event' hold
    · rw [List.mem_singleton.mp hlast]
      exact ⟨data, h.received data (List.mem_of_getElem? hcall), hdecoded⟩
  · rw [htaken] at hmem
    rcases List.mem_append.mp hmem with hold | hlast
    · exact hfewer.recorded event' hold
    · rw [List.mem_singleton.mp hlast]
      exact ⟨outage, k, hk, hseen⟩
  · rw [htaken, List.pairwise_append]
    refine ⟨hfewer.once, List.pairwise_singleton _ _, fun a ha b hb heq => ?_⟩
    rw [List.mem_singleton.mp hb] at heq
    have hsub := ((List.Sublist.refl s.invoked).append (claimedEvents_eraseIdx s.handling call))
    obtain ⟨o, k', hk', hold⟩ := h.recorded a (hsub.mem ha)
    rw [heq] at hk'
    exact hnew (V.marks_unique hk hk' ▸ hold)

theorem sound_apply {s : Exchange C ι δ} (h : Sound V unmarshal encode s) {call : Nat}
    {event : Event} (hcall : s.handling[call]? = some (.claimed event)) :
    Sound V unmarshal encode
      { s with handling := s.handling.eraseIdx call, invoked := s.invoked ++ [event] } := by
  have hperm : (Exchange.taken
      { s with handling := s.handling.eraseIdx call, invoked := s.invoked ++ [event] }).Perm
        s.taken := by
    rw [Exchange.taken, List.append_assoc]
    exact (claimedEvents_perm hcall).append_left s.invoked
  refine ⟨h.sourced, fun data hmem => h.received data (List.mem_of_mem_eraseIdx hmem),
    fun event' hmem => h.decoded event' (hperm.mem_iff.mp hmem),
    fun event' hmem => h.recorded event' (hperm.mem_iff.mp hmem), ?_⟩
  exact (hperm.pairwise_iff fun hne => hne.symm).mpr h.once

theorem sound_move [DecidableEq ι] {P : ι → Poller} {s : Exchange C ι δ}
    (h : Sound V unmarshal encode s) (m : Move C ι) :
    Sound V unmarshal encode (move D encode unmarshal P s m) := by
  cases m with
  | turn turn => exact sound_turn h turn
  | deliver message =>
      simp only [move]
      cases hmessage : (s.platform.effects.filterMap messageOf)[message]? with
      | none => exact h
      | some data =>
          have hsource : FromOutbox encode s data := by
            obtain ⟨effect, heffect, hdata⟩ :=
              List.mem_filterMap.mp (List.mem_of_getElem? hmessage)
            cases effect with
            | accepted record subject =>
                obtain ⟨entry, hentry, rfl⟩ := h.sourced.sent record subject heffect
                exact ⟨entry, hentry, (Option.some.inj hdata).symm⟩
            | marked id => cases hdata
            | markFailed id => cases hdata
          have htaken : Exchange.taken { s with handling := s.handling ++ [.received data] } =
              s.taken := by
            simp [Exchange.taken, claimedEvents, Handling.event]
          refine ⟨h.sourced, fun data' hmem => ?_, ?_, ?_, ?_⟩
          · rcases List.mem_append.mp hmem with hold | hlast
            · exact h.received data' hold
            · rw [List.mem_singleton, Handling.received.injEq] at hlast
              rw [hlast]
              exact hsource
          · rw [htaken]
            exact h.decoded
          · rw [htaken]
            exact h.recorded
          · rw [htaken]
            exact h.once
  | mark call outage =>
      simp only [move]
      cases hcall : s.handling[call]? with
      | none => exact h
      | some handling =>
          cases handling with
          | claimed event => exact h
          | received data =>
              have hkeeps := (claim_spec V unmarshal s.dedupe data outage).1
              cases hclaim : claim D unmarshal s.dedupe data outage with
              | mk result dedupe =>
                  rw [hclaim] at hkeeps
                  cases result with
                  | none => simpa only [hclaim] using sound_fewer h hkeeps call
                  | some event => simpa only [hclaim] using sound_claim h hcall hclaim
  | apply call =>
      simp only [move]
      cases hcall : s.handling[call]? with
      | none => exact h
      | some handling =>
          cases handling with
          | received data => exact h
          | claimed event => exact sound_apply h hcall
  | drop call => exact sound_fewer h (fun _ hseen => hseen) call

end Gate

/-- `JSONB`, the broker and the decoder preserve the stored payloads: each arrives as the
event it spells. -/
def PreservesPayloads (encode : Payload → List UInt8) (unmarshal : List UInt8 → Option Event)
    (outbox : Table C) : Prop :=
  ∀ entry ∈ outbox, unmarshal (encode entry.2.payload) = some (wireEvent entry.2.payload)

/-- The worker decodes what the service marshals, whatever the payload. -/
theorem unmarshal_bytes (payload : Payload) :
    unmarshal payload.bytes = some (wireEvent payload) := by
  rw [unmarshal, Core.GoJson.unmarshal, payload.parse_bytes, Option.bind_some]
  cases payload with
  | requestCreated eventID eventType occurredAt id title status createdAt =>
      exact store_event eventID eventType occurredAt (store_created id title status createdAt)
  | requestStatusChanged eventID eventType occurredAt id status previousStatus updatedAt =>
      exact store_event eventID eventType occurredAt
        (store_changed id status previousStatus updatedAt)

theorem preservesPayloads_bytes (outbox : Table C) :
    PreservesPayloads Payload.bytes unmarshal outbox :=
  fun entry _ => unmarshal_bytes entry.2.payload

/-- The event is the one of a committed row, in its payload and in its columns. -/
def OfRow (outbox : Table C) (event : Event) : Prop :=
  ∃ entry ∈ outbox, event = wireEvent entry.2.payload ∧
    C.castUuid event.eventID = some entry.1 ∧ event.eventType = entry.2.eventType ∧
    C.castTimestamp event.occurredAt = some entry.2.occurredAt

/-- What the applier has been given: every event id at most once, and no event that is
not in the outbox. -/
structure AtMostOnce (encode : Payload → List UInt8) (unmarshal : List UInt8 → Option Event)
    (s : Exchange C ι δ) : Prop where
  once : (s.invoked.map Event.eventID).Nodup
  sourced : PreservesPayloads encode unmarshal s.platform.domain.store.outbox →
    ∀ event ∈ s.invoked, OfRow s.platform.domain.store.outbox event

theorem atMostOnce_of_sound {D : Dedupe δ} {V : DedupeView D} {encode : Payload → List UInt8}
    {unmarshal : List UInt8 → Option Event} {s : Exchange C ι δ}
    (h : Sound V unmarshal encode s) : AtMostOnce encode unmarshal s := by
  constructor
  · rw [List.Nodup, List.pairwise_map]
    exact (List.pairwise_append.mp h.once).1
  · intro hdecodes event hmem
    obtain ⟨data, ⟨entry, hentry, rfl⟩, hevent⟩ := h.decoded event (List.mem_append_left _ hmem)
    have hfaithful := h.sourced.rows entry hentry
    obtain ⟨stored, hstored, rfl⟩ := List.mem_map.mp hentry
    rw [hdecodes stored hstored, Option.some.injEq] at hevent
    subst hevent
    exact ⟨stored, hstored, rfl, hfaithful⟩

theorem sound_start {D : Dedupe δ} (V : DedupeView D) (encode : Payload → List UInt8)
    (unmarshal : List UInt8 → Option Event) (dedupe : δ) :
    Sound V unmarshal encode (Exchange.start dedupe : Exchange C ι δ) := by
  refine ⟨⟨fun entry hentry => ?_, fun record subject hmem => ?_, fun i record hmem => ?_⟩,
    fun data hmem => ?_, fun event hmem => ?_, fun event hmem => ?_, List.Pairwise.nil⟩
  · simp [Exchange.start, Platform.start, Domain.PostgresStore.empty, committed] at hentry
  · simp [Exchange.start, Platform.start] at hmem
  · simp [Exchange.start, Platform.start, Phase.records] at hmem
  · simp [Exchange.start] at hmem
  · simp [Exchange.start, Exchange.taken, claimedEvents] at hmem
  · simp [Exchange.start, Exchange.taken, claimedEvents] at hmem

theorem atMostOnce_run [DecidableEq ι] {D : Dedupe δ} (V : DedupeView D)
    (encode : Payload → List UInt8) (unmarshal : List UInt8 → Option Event) (P : ι → Poller)
    (dedupe : δ) (moves : List (Move C ι)) :
    AtMostOnce encode unmarshal
      (run (move D encode unmarshal P) (Exchange.start dedupe : Exchange C ι δ) moves) := by
  have hsound := run_keeps (move D encode unmarshal P) (fun s => Sound V unmarshal encode s)
    (fun _ m h => sound_move h m) (Exchange.start dedupe : Exchange C ι δ) moves
    (sound_start V encode unmarshal dedupe)
  exact atMostOnce_of_sound hsound

/-- Whatever the service, any publishers, the broker and any workers at one gate do, and
in whatever order, the applier sees no event id twice and nothing but committed rows. -/
theorem applier_at_most_once_from_outbox [DecidableEq ι] (C : OrderedColumns)
    (encode : Payload → List UInt8) (unmarshal : List UInt8 → Option Event) (P : ι → Poller)
    (moves : List (Move C ι)) :
    (∀ gate : MemoryDedupe, AtMostOnce encode unmarshal
      (run (move memoryDedupe encode unmarshal P) (Exchange.start gate) moves)) ∧
    (∀ gate : PostgresDedupe C.Uuid, AtMostOnce encode unmarshal
      (run (move (postgresDedupe C.castUuid) encode unmarshal P) (Exchange.start gate) moves)) :=
  ⟨fun gate => atMostOnce_run MemoryDedupe.view encode unmarshal P gate moves,
    fun gate => atMostOnce_run (PostgresDedupe.view C.castUuid) encode unmarshal P gate moves⟩

/-- A request is created, its event published, and the message delivered twice, to two
handlers that overlap. -/
def deliveredTwice : List (Move Domain.textualColumns Unit) :=
  [.turn (.domain (.createRequest ⟨"Reset VPN access", "", "user-1"⟩ GoText.noon
      "11111111-1111-1111-1111-111111111111" "22222222-2222-2222-2222-222222222222")),
   .turn (.poll () (.fetch [])), .turn (.poll () (.publish true)),
   .deliver 0, .deliver 0, .mark 0 .up, .mark 0 .up, .apply 0]

/-- The exchange after those deliveries. -/
def afterDeliveries : Exchange Domain.textualColumns Unit
    (PostgresDedupe Domain.textualColumns.Uuid) :=
  run (move (postgresDedupe Domain.textualColumns.castUuid) plainText unmarshal
    fun _ => newPoller eventSubjects 0) (Exchange.start ⟨[]⟩) deliveredTwice

theorem deliveredTwice_applied_once :
    PreservesPayloads plainText unmarshal afterDeliveries.platform.domain.store.outbox ∧
    afterDeliveries.invoked.map Event.eventID = ["22222222-2222-2222-2222-222222222222"] ∧
    (afterDeliveries.invoked.map Event.eventID).Nodup ∧
    ∀ event ∈ afterDeliveries.invoked,
      OfRow afterDeliveries.platform.domain.store.outbox event := by
  have hdecodes : PreservesPayloads plainText unmarshal
      afterDeliveries.platform.domain.store.outbox := by
    unfold PreservesPayloads
    decide +kernel
  have h : AtMostOnce plainText unmarshal afterDeliveries :=
    (applier_at_most_once_from_outbox Domain.textualColumns plainText unmarshal
      (fun _ => newPoller eventSubjects 0) deliveredTwice).2 ⟨[]⟩
  exact ⟨hdecodes, by decide +kernel, h.once, h.sourced hdecodes⟩

end SecureSdlc.Worker

import SecureSdlc.Core.Run
import SecureSdlc.Metatheory.RequestTable
import SecureSdlc.Metatheory.PublisherBatches
import SecureSdlc.Publisher.Interleaving

/-!
Per-request order of the events one publisher sends. The fetch orders by `occurred_at`,
which is neither the commit order nor free of ties, so the order of two waiting events
of one request is kept exactly as far as their times tell it. Where they do at every
fetch, the broker accepts the events of a request in the order of their commits: what is
fetched before its turn would have to overtake an event that is still waiting.
-/

namespace SecureSdlc.Publisher

open Core Domain

variable {C : OrderedColumns}

/-- The rows as they were committed, in commit order. -/
def committed (outbox : Table C) : Table C :=
  outbox.map fun entry => (entry.1, { entry.2 with publishedAt := none })

theorem committed_append (outbox more : Table C) :
    committed (outbox ++ more) = committed outbox ++ committed more :=
  List.map_append

theorem committed_set {outbox : Table C} {u : C.Uuid} {row : OutboxRow C.toColumns}
    (h : Assoc.get outbox u = some row) (now : C.Instant) :
    committed (Assoc.set outbox u { row with publishedAt := some now }) = committed outbox := by
  induction outbox with
  | nil => simp [Assoc.get] at h
  | cons entry outbox ih =>
      obtain ⟨v, row'⟩ := entry
      by_cases hv : v = u
      · subst hv
        simp only [Assoc.get, if_true, Option.some.injEq] at h
        subst h
        simp [Assoc.set, committed]
      · simp only [Assoc.get, hv, if_false] at h
        simp only [committed] at ih
        simp [Assoc.set, hv, committed, ih h]

/-- A mark touches no more than `published_at`. -/
theorem committed_markPublished {outbox outbox' : Table C} {eventID : String} {now : C.Instant}
    (h : markPublished outbox eventID now = .ok outbox') :
    committed outbox' = committed outbox := by
  simp only [markPublished] at h
  split at h
  · cases h
  · split at h
    · cases h
      rfl
    · rename_i row hrow
      cases h
      exact committed_set hrow now

theorem unique_markPublished {outbox outbox' : Table C} {eventID : String} {now : C.Instant}
    (hunique : Assoc.Unique outbox) (h : markPublished outbox eventID now = .ok outbox') :
    Assoc.Unique outbox' := by
  simp only [markPublished] at h
  split at h
  · cases h
  · split at h
    · cases h
      exact hunique
    · cases h
      exact Assoc.unique_set hunique _ _

/-- A row after a mark was there before it, or is the one the mark names. -/
theorem markPublished_row {outbox outbox' : Table C} {eventID : String} {now : C.Instant}
    (h : markPublished outbox eventID now = .ok outbox') (htext : ∃ v, eventID = C.uuidText v)
    {u : C.Uuid} {row : OutboxRow C.toColumns} (hrow : Assoc.get outbox' u = some row) :
    Assoc.get outbox u = some row ∨ eventID = C.uuidText u := by
  obtain ⟨v, rfl⟩ := htext
  simp only [markPublished, C.cast_uuidText] at h
  split at h
  · cases h
    exact .inl hrow
  · cases h
    rw [Assoc.get_set] at hrow
    split at hrow
    · rename_i heq
      exact .inr (by rw [heq])
    · exact .inl hrow

/-- Everything a step of the service does to the outbox. -/
theorem outbox_domainStep (sys : System (PostgresStore C.toColumns)) (a : Action) :
    (Domain.step (PostgresStore.store C.toColumns) sys a).store.outbox = sys.store.outbox ∨
    ∃ u e payload occurredAt, Assoc.get sys.store.outbox u = none ∧
      buildPayload e = .ok payload ∧ C.castUuid e.eventID = some u ∧
      C.castTimestamp e.occurredAt = some occurredAt ∧
      (Domain.step (PostgresStore.store C.toColumns) sys a).store.outbox =
        sys.store.outbox ++ [(u, ⟨e.eventType, occurredAt, payload, none⟩)] := by
  rcases step_cases (PostgresStore.store C.toColumns) sys a with ⟨hstore, -⟩ |
    ⟨_, _, _, _, r, e, s', -, -, hc, hstep⟩ | ⟨_, _, _, -, -, hstep⟩ |
    ⟨call, now, eventID, p, s', -, -, hc, hstep⟩
  · exact .inl (by rw [hstore])
  · obtain ⟨payload, _, _, u, occurredAt, hpayload, _, _, hu, hat, _, hfresh, heq⟩ :=
      PostgresStore.createRequestWithEvent_ok hc
    exact .inr ⟨u, e, payload, occurredAt, hfresh, hpayload, hu, hat, by rw [hstep, heq]⟩
  · exact .inl (by rw [hstep])
  · have hwrite : sys.store.updateRequestStatusWithEvent
        (Service.statusChange p.current p.newStatus now eventID).1
        (Service.statusChange p.current p.newStatus now eventID).2 = .ok s' := hc
    obtain ⟨payload, _, _, u, occurredAt, hpayload, _, hu, hat, _, hfresh, heq⟩ :=
      PostgresStore.updateRequestStatusWithEvent_ok hwrite
    exact .inr ⟨u, _, payload, occurredAt, hfresh, hpayload, hu, hat, by rw [hstep, heq]⟩

/-- The event `u` was committed before the event `v` of the same request. -/
def CommittedBefore (outbox : Table C) (u v : C.Uuid) : Prop :=
  ∃ k, [(u, some k), (v, some k)].Sublist
    (outbox.map fun entry => (entry.1, (PostgresStore.logEntry entry).request))

/-- The broker has accepted the event `u`. -/
def Accepted (effects : List Effect) (u : C.Uuid) : Prop :=
  ∃ record subject, .accepted record subject ∈ effects ∧ record.eventID = C.uuidText u

/-- Every acceptance of an event comes after one of each earlier event of its request. -/
def EventOrder (outbox : Table C) (effects : List Effect) : Prop :=
  ∀ u v, CommittedBefore outbox u v → ∀ pre record subject post,
    effects = pre ++ .accepted record subject :: post → record.eventID = C.uuidText v →
    Accepted pre u

/-- When the publisher fetches, of two waiting events of one request the one committed
first, unless accepted already, has the smaller `occurred_at`. -/
def TimesTellOrder (s : Platform C Unit) : Turn C Unit → Prop
  | .poll () (.fetch _) => ∀ u v rowᵤ rowᵥ, CommittedBefore s.domain.store.outbox u v →
      Assoc.get s.domain.store.outbox u = some rowᵤ → rowᵤ.publishedAt = none →
      Assoc.get s.domain.store.outbox v = some rowᵥ → rowᵥ.publishedAt = none →
      ¬ Accepted s.effects u → C.instantLe rowᵥ.occurredAt rowᵤ.occurredAt = false
  | _ => True

/-- The records a poller still has before it. -/
def Phase.queue : Phase → List Record
  | .idle => []
  | .publishing records => records
  | .marking _ records => records

/-- What keeps the order: a published row was accepted, a record about to be marked was
accepted, everything sent or queued is in the outbox, and ahead of every queued record
the earlier events of its request were accepted or are queued. -/
structure InTurn (w : State C) (phase : Phase) : Prop where
  unique : Assoc.Unique w.outbox
  order : EventOrder w.outbox w.effects
  published : ∀ u row, Assoc.get w.outbox u = some row → row.publishedAt ≠ none →
    Accepted w.effects u
  sent : ∀ record subject, .accepted record subject ∈ w.effects →
    ∃ u ∈ w.outbox.map Prod.fst, record.eventID = C.uuidText u
  marking : ∀ record records, phase = .marking record records →
    ∃ subject, .accepted record subject ∈ w.effects
  queued : ∀ record ∈ phase.queue, ∃ u ∈ w.outbox.map Prod.fst, record.eventID = C.uuidText u
  queue : ∀ front record back, phase.queue = front ++ record :: back →
    ∀ u v, record.eventID = C.uuidText v → CommittedBefore w.outbox u v →
      Accepted w.effects u ∨ ∃ ahead ∈ front, ahead.eventID = C.uuidText u

theorem Accepted.mono {effects : List Effect} {u : C.Uuid} (h : Accepted effects u)
    (more : List Effect) : Accepted (effects ++ more) u := by
  obtain ⟨record, subject, hmem, hid⟩ := h
  exact ⟨record, subject, List.mem_append_left _ hmem, hid⟩

theorem committedBefore_of_committed {outbox outbox' : Table C}
    (h : committed outbox' = committed outbox) (u v : C.Uuid) :
    CommittedBefore outbox' u v ↔ CommittedBefore outbox u v := by
  have hlog : ∀ table : Table C,
      table.map (fun entry => (entry.1, (PostgresStore.logEntry entry).request)) =
        (committed table).map (fun entry => (entry.1, (PostgresStore.logEntry entry).request)) := by
    intro table
    simp only [committed, List.map_map]
    rfl
  simp only [CommittedBefore, hlog outbox, hlog outbox', h]

theorem keys_of_committed {outbox outbox' : Table C} (h : committed outbox' = committed outbox) :
    outbox'.map Prod.fst = outbox.map Prod.fst := by
  have hkeys : ∀ table : Table C, table.map Prod.fst = (committed table).map Prod.fst := by
    intro table
    simp only [committed, List.map_map]
    rfl
  rw [hkeys outbox', h, ← hkeys]

/-- A new row comes after the others, and its key is new. -/
theorem committedBefore_append {outbox : Table C} {entry : C.Uuid × OutboxRow C.toColumns}
    {u v : C.Uuid} (h : CommittedBefore (outbox ++ [entry]) u v) :
    CommittedBefore outbox u v ∨ v = entry.1 := by
  obtain ⟨k, hsub⟩ := h
  rw [List.map_append, List.sublist_append_iff] at hsub
  obtain ⟨l₁, l₂, heq, hleft, hright⟩ := hsub
  match l₁, heq with
  | [], heq =>
      have hlen := hright.length_le
      rw [← heq.trans (List.nil_append _)] at hlen
      simp at hlen
  | [first], heq =>
      simp only [List.cons_append, List.nil_append, List.cons.injEq] at heq
      rw [← heq.2, List.map_cons, List.map_nil, List.singleton_sublist,
        List.mem_singleton] at hright
      exact .inr (congrArg Prod.fst hright)
  | first :: second :: rest, heq =>
      simp only [List.cons_append, List.cons.injEq] at heq
      obtain ⟨rfl, rfl, hnil⟩ := heq
      rw [(List.append_eq_nil_iff.mp hnil.symm).1] at hleft
      exact .inl ⟨k, hleft⟩

/-- Everything one wait of a poller can do. -/
theorem pollStep_cases (encode : Payload → List UInt8) (P : Poller) (w : State C) (phase : Phase)
    (poll : Poll C) :
    ((pollStep encode P w phase poll).1 = w ∧ ((pollStep encode P w phase poll).2 = phase ∨
      (pollStep encode P w phase poll).2 = .idle)) ∨
    (∃ ties, phase = .idle ∧ poll = .fetch ties ∧ pollStep encode P w phase poll =
      (w, .publishing (fetchUnpublished encode ties P.limit w.outbox))) ∨
    (∃ record records subject, phase = .publishing (record :: records) ∧
      Assoc.get P.routes record.eventType = some subject ∧
      (pollStep encode P w phase poll).1 = w.note (.accepted record subject) ∧
      ((pollStep encode P w phase poll).2 = .marking record records ∨
        (pollStep encode P w phase poll).2 = .idle)) ∨
    (∃ record records now outbox, phase = .marking record records ∧
      markPublished w.outbox record.eventID now = .ok outbox ∧
      (pollStep encode P w phase poll).1 =
        State.note { w with outbox := outbox } (.marked record.eventID) ∧
      ((pollStep encode P w phase poll).2 = .publishing records ∨
        (pollStep encode P w phase poll).2 = .idle)) ∨
    (∃ record records, phase = .marking record records ∧
      pollStep encode P w phase poll = (w.note (.markFailed record.eventID), .idle)) := by
  cases phase with
  | idle =>
      cases poll with
      | fetch ties => exact .inr (.inl ⟨ties, rfl, rfl, rfl⟩)
      | publish answered => exact .inl ⟨rfl, .inl rfl⟩
      | mark now answered => exact .inl ⟨rfl, .inl rfl⟩
      | fail => exact .inl ⟨rfl, .inl rfl⟩
  | publishing records =>
      cases records with
      | nil => cases poll <;> exact .inl ⟨rfl, .inr rfl⟩
      | cons record records =>
          cases poll with
          | fetch ties => exact .inl ⟨rfl, .inl rfl⟩
          | mark now answered => exact .inl ⟨rfl, .inl rfl⟩
          | fail => exact .inl ⟨rfl, .inr rfl⟩
          | publish answered =>
              simp only [pollStep]
              cases hroute : Assoc.get P.routes record.eventType with
              | none => exact .inl ⟨rfl, .inr rfl⟩
              | some subject =>
                  refine .inr (.inr (.inl ⟨record, records, subject, rfl, hroute, rfl, ?_⟩))
                  cases answered
                  · exact .inr rfl
                  · exact .inl rfl
  | marking record records =>
      cases poll with
      | fetch ties => exact .inl ⟨rfl, .inl rfl⟩
      | publish answered => exact .inl ⟨rfl, .inl rfl⟩
      | fail => exact .inr (.inr (.inr (.inr ⟨record, records, rfl, rfl⟩)))
      | mark now answered =>
          simp only [pollStep]
          cases hmark : markPublished w.outbox record.eventID now with
          | error e => exact .inr (.inr (.inr (.inr ⟨record, records, rfl, rfl⟩)))
          | ok outbox =>
              refine .inr (.inr (.inr (.inl ⟨record, records, now, outbox, rfl, hmark, rfl, ?_⟩)))
              cases answered
              · exact .inr rfl
              · exact .inl rfl

theorem append_singleton_eq_split {α : Type} {l pre post : List α} {x e : α}
    (h : l ++ [e] = pre ++ x :: post) :
    (x = e ∧ pre = l) ∨ ∃ post', l = pre ++ x :: post' := by
  rcases List.eq_nil_or_concat post with rfl | ⟨post', b, rfl⟩
  · obtain ⟨hpre, hx⟩ := List.append_inj' h rfl
    exact .inl ⟨(List.cons.inj hx).1.symm, hpre.symm⟩
  · rw [List.concat_eq_append, ← List.cons_append, ← List.append_assoc] at h
    exact .inr ⟨post', (List.append_inj' h rfl).1⟩

theorem eventOrder_accept {outbox : Table C} {effects : List Effect} {record : Record}
    {subject : String} (h : EventOrder outbox effects)
    (hready : ∀ u v, record.eventID = C.uuidText v → CommittedBefore outbox u v →
      Accepted effects u) : EventOrder outbox (effects ++ [.accepted record subject]) := by
  intro u v hbefore pre record' subject' post heq hid
  rcases append_singleton_eq_split heq with ⟨hlast, rfl⟩ | ⟨post', hold⟩
  · simp only [Effect.accepted.injEq] at hlast
    exact hready u v (hlast.1 ▸ hid) hbefore
  · exact h u v hbefore pre record' subject' post' hold hid

theorem eventOrder_other {outbox : Table C} {effects : List Effect} {effect : Effect}
    (h : EventOrder outbox effects) (hother : ∀ record subject, effect ≠ .accepted record subject) :
    EventOrder outbox (effects ++ [effect]) := by
  intro u v hbefore pre record subject post heq hid
  rcases append_singleton_eq_split heq with ⟨hlast, rfl⟩ | ⟨post', hold⟩
  · exact absurd hlast.symm (hother record subject)
  · exact h u v hbefore pre record subject post' hold hid

section Keeps

variable {w : State C} {phase : Phase} {record : Record} {records : List Record}

theorem inTurn_stop (h : InTurn w phase) : InTurn w .idle where
  unique := h.unique
  order := h.order
  published := h.published
  sent := h.sent
  marking _ _ heq := by cases heq
  queued _ hmem := by simp [Phase.queue] at hmem
  queue front _ _ heq := by cases front <;> cases heq

/-- A committed row is the last of its request and not yet sent. -/
theorem inTurn_commit (h : InTurn w phase) {u : C.Uuid} {row : OutboxRow C.toColumns}
    (hfresh : Assoc.get w.outbox u = none) (hnone : row.publishedAt = none) :
    InTurn ⟨w.outbox ++ [(u, row)], w.effects⟩ phase := by
  have hset := Assoc.set_of_get_none row hfresh
  have hkey : u ∉ w.outbox.map Prod.fst := fun hmem => by
    obtain ⟨entry, hentry, heq⟩ := List.mem_map.mp hmem
    exact Assoc.ne_of_get_none hfresh entry hentry heq
  have hnew : ∀ {id : String} {v : C.Uuid}, (∃ u' ∈ w.outbox.map Prod.fst, id = C.uuidText u') →
      id = C.uuidText v → v ≠ u := by
    rintro id v ⟨u', hmem, hid⟩ hv rfl
    exact hkey (C.uuidText_injective (hid.symm.trans hv) ▸ hmem)
  constructor
  · rw [← hset]
    exact Assoc.unique_set h.unique _ _
  · intro u' v hbefore pre record subject post heq hid
    have hmem : Effect.accepted record subject ∈ w.effects := by simp [show w.effects = _ from heq]
    have hold := (committedBefore_append hbefore).resolve_right (hnew (h.sent _ _ hmem) hid)
    exact h.order u' v hold pre record subject post heq hid
  · intro u' row' hget hpublished
    rw [← hset, Assoc.get_set] at hget
    split at hget
    · cases hget
      exact absurd hnone hpublished
    · exact h.published u' row' hget hpublished
  · intro record subject hmem
    obtain ⟨u', hu', hid⟩ := h.sent record subject hmem
    exact ⟨u', by simp only [List.map_append, List.mem_append]; exact .inl hu', hid⟩
  · exact h.marking
  · intro record hmem
    obtain ⟨u', hu', hid⟩ := h.queued record hmem
    exact ⟨u', by simp only [List.map_append, List.mem_append]; exact .inl hu', hid⟩
  · intro front record back heq u' v hid hbefore
    have hmem : record ∈ phase.queue := by simp [heq]
    have hold := (committedBefore_append hbefore).resolve_right (hnew (h.queued _ hmem) hid)
    exact h.queue front record back heq u' v hid hold

theorem inTurn_accept (h : InTurn w (.publishing (record :: records))) (subject : String) :
    InTurn (w.note (.accepted record subject)) (.marking record records) := by
  have hready : ∀ u v, record.eventID = C.uuidText v → CommittedBefore w.outbox u v →
      Accepted w.effects u := by
    intro u v hid hbefore
    rcases h.queue [] record records rfl u v hid hbefore with haccepted | ⟨ahead, hmem, -⟩
    · exact haccepted
    · simp at hmem
  constructor
  · exact h.unique
  · exact eventOrder_accept h.order hready
  · exact fun u row hget hpublished => (h.published u row hget hpublished).mono _
  · intro record' subject' hmem
    rcases List.mem_append.mp hmem with hold | hlast
    · exact h.sent record' subject' hold
    · rw [List.mem_singleton, Effect.accepted.injEq] at hlast
      rw [hlast.1]
      exact h.queued record List.mem_cons_self
  · intro record' records' heq
    cases heq
    exact ⟨subject, List.mem_append_right _ (List.mem_singleton.mpr rfl)⟩
  · exact fun record' hmem => h.queued record' (List.mem_cons_of_mem _ hmem)
  · intro front record' back heq u v hid hbefore
    have hqueue : records = front ++ record' :: back := heq
    rcases h.queue (record :: front) record' back (by rw [Phase.queue, hqueue]; rfl) u v hid
      hbefore with haccepted | ⟨ahead, hmem, hahead⟩
    · exact .inl (haccepted.mono _)
    · rcases List.mem_cons.mp hmem with rfl | hfront
      · exact .inl ⟨ahead, subject, List.mem_append_right _ (List.mem_singleton.mpr rfl), hahead⟩
      · exact .inr ⟨ahead, hfront, hahead⟩

theorem inTurn_mark (h : InTurn w (.marking record records)) {now : C.Instant}
    {outbox : Table C} (hmark : markPublished w.outbox record.eventID now = .ok outbox) :
    InTurn (State.note { w with outbox := outbox } (.marked record.eventID))
      (.publishing records) := by
  have hsame := committed_markPublished hmark
  have hkeys := keys_of_committed hsame
  have hbefore := committedBefore_of_committed hsame
  obtain ⟨subject, haccepted⟩ := h.marking record records rfl
  obtain ⟨v, -, hv⟩ := h.sent record subject haccepted
  constructor
  · exact unique_markPublished h.unique hmark
  · refine eventOrder_other ?_ (by simp)
    intro u v hbefore'
    exact h.order u v ((hbefore u v).mp hbefore')
  · intro u row hget hpublished
    refine Accepted.mono ?_ _
    rcases markPublished_row hmark ⟨v, hv⟩ hget with hold | hid
    · exact h.published u row hold hpublished
    · exact ⟨record, subject, haccepted, hid⟩
  · intro record' subject' hmem
    have hold : Effect.accepted record' subject' ∈ w.effects := by
      rcases List.mem_append.mp hmem with hold | hlast
      · exact hold
      · simp at hlast
    rw [show (State.note { w with outbox := outbox } (.marked record.eventID)).outbox = outbox
      from rfl, hkeys]
    exact h.sent record' subject' hold
  · intro record' records' heq
    cases heq
  · intro record' hmem
    rw [show (State.note { w with outbox := outbox } (.marked record.eventID)).outbox = outbox
      from rfl, hkeys]
    exact h.queued record' hmem
  · intro front record' back heq u v hid hbefore'
    exact (h.queue front record' back heq u v hid ((hbefore u v).mp hbefore')).imp_left
      fun hacc => hacc.mono _

theorem inTurn_markFailed (h : InTurn w (.marking record records)) :
    InTurn (w.note (.markFailed record.eventID)) .idle := by
  have hidle := inTurn_stop h
  constructor
  · exact h.unique
  · exact eventOrder_other h.order (by simp)
  · exact fun u row hget hpublished => (h.published u row hget hpublished).mono _
  · intro record' subject' hmem
    rcases List.mem_append.mp hmem with hold | hlast
    · exact h.sent record' subject' hold
    · simp at hlast
  · exact fun _ _ heq => by cases heq
  · exact hidle.queued
  · exact fun front _ _ heq => by cases front <;> cases heq

theorem mem_keys_of_committedBefore {outbox : Table C} {u v : C.Uuid}
    (h : CommittedBefore outbox u v) : u ∈ outbox.map Prod.fst := by
  obtain ⟨k, hsub⟩ := h
  have hmem := hsub.mem (List.mem_cons_self (a := (u, some k)))
  obtain ⟨entry, hentry, heq⟩ := List.mem_map.mp hmem
  exact (Prod.mk.inj heq).1 ▸ List.mem_map_of_mem hentry

/-- In a fetch, a waiting row of an earlier time stands ahead of every later one. -/
theorem Fetches.ahead {limit : Int} {outbox front back : Table C}
    {early late : C.Uuid × OutboxRow C.toColumns}
    (h : Fetches limit outbox (front ++ late :: back)) (hmem : early ∈ outbox)
    (hnone : early.2.publishedAt = none)
    (hlt : C.instantLe late.2.occurredAt early.2.occurredAt = false) : early ∈ front := by
  obtain ⟨sorted, hperm, hsorted, hrows⟩ := h
  have hearly : early ∈ sorted := hperm.mem_iff.mpr
    (List.mem_filter.mpr ⟨hmem, by rw [isUnpublished, hnone]; rfl⟩)
  rw [← List.take_append_drop limit.toNat sorted, ← hrows, List.append_assoc,
    List.cons_append] at hearly hsorted
  have hlater := (List.pairwise_cons.mp (List.pairwise_append.mp hsorted).2.1).1
  rcases List.mem_append.mp hearly with hfront | hrest
  · exact hfront
  · rcases List.mem_cons.mp hrest with rfl | hbehind
    · have hrefl := (C.instantLe_total early.2.occurredAt early.2.occurredAt).elim id id
      rw [hlt] at hrefl
      cases hrefl
    · have hle := hlater early hbehind
      rw [hlt] at hle
      cases hle

theorem inTurn_fetch (h : InTurn w .idle) (encode : Payload → List UInt8) (ties : List C.Uuid)
    (limit : Int)
    (htimes : ∀ u v rowᵤ rowᵥ, CommittedBefore w.outbox u v →
      Assoc.get w.outbox u = some rowᵤ → rowᵤ.publishedAt = none →
      Assoc.get w.outbox v = some rowᵥ → rowᵥ.publishedAt = none →
      ¬ Accepted w.effects u → C.instantLe rowᵥ.occurredAt rowᵤ.occurredAt = false) :
    InTurn w (.publishing (fetchUnpublished encode ties limit w.outbox)) := by
  have hfetch := fetchRows_fetches ties limit w.outbox
  refine ⟨h.unique, h.order, h.published, h.sent, fun _ _ heq => (by cases heq),
    fun record hmem => ?_, fun front record back heq u v hid hbefore => ?_⟩
  · obtain ⟨entry, hentry, rfl⟩ := List.mem_map.mp hmem
    exact ⟨entry.1, List.mem_map_of_mem (hfetch.mem hentry).1, rfl⟩
  · obtain ⟨rows, rest, hrows, rfl, hrest⟩ := List.map_eq_append_iff.mp heq
    obtain ⟨late, later, rfl, rfl, -⟩ := List.map_eq_cons_iff.mp hrest
    obtain rfl : late.1 = v := C.uuidText_injective hid
    have hlate : late ∈ w.outbox ∧ late.2.publishedAt = none :=
      hfetch.mem (by rw [hrows]; simp)
    obtain ⟨early, hearly, rfl⟩ := List.mem_map.mp (mem_keys_of_committedBefore hbefore)
    have hget := Assoc.get_of_mem h.unique hearly
    by_cases haccepted : Accepted w.effects early.1
    · exact .inl haccepted
    · have hnone : early.2.publishedAt = none := by
        by_contra hpublished
        exact haccepted (h.published _ _ hget hpublished)
      have hlt := htimes early.1 late.1 early.2 late.2 hbefore hget hnone
        (Assoc.get_of_mem h.unique hlate.1) hlate.2 haccepted
      rw [hrows] at hfetch
      exact .inr ⟨scan encode early, List.mem_map_of_mem (hfetch.ahead hearly hnone hlt), rfl⟩

end Keeps

theorem inTurn_take {encode : Payload → List UInt8} {P : Unit → Poller} {s : Platform C Unit}
    {turn : Turn C Unit} (h : InTurn s.state (s.phases ())) (htimes : TimesTellOrder s turn) :
    InTurn (take encode P s turn).state ((take encode P s turn).phases ()) := by
  cases turn with
  | domain action =>
      rcases outbox_domainStep s.domain action with hsame |
        ⟨u, e, payload, occurredAt, hfresh, -, -, -, hnew⟩
      · simpa only [take, Platform.state, hsame] using h
      · let row : OutboxRow C.toColumns := ⟨e.eventType, occurredAt, payload, none⟩
        have hcommit : InTurn ⟨s.state.outbox ++ [(u, row)], s.state.effects⟩ (s.phases ()) :=
          inTurn_commit h hfresh rfl
        simpa only [take, Platform.state, hnew] using hcommit
  | poll i poll =>
      cases i
      have hstate : (take encode P s (.poll () poll)).state =
          (pollStep encode (P ()) s.state (s.phases ()) poll).1 := rfl
      have hphase : (take encode P s (.poll () poll)).phases () =
          (pollStep encode (P ()) s.state (s.phases ()) poll).2 := by
        simp only [take, Function.update_self]
      rw [hstate, hphase]
      rcases pollStep_cases encode (P ()) s.state (s.phases ()) poll with
        ⟨hw, hkeep | hidle⟩ | ⟨ties, hidle, rfl, heq⟩ |
        ⟨record, records, subject, hpublishing, -, hw, hnext⟩ |
        ⟨record, records, now, outbox, hmarking, hmark, hw, hnext⟩ |
        ⟨record, records, hmarking, heq⟩
      · rw [hw, hkeep]
        exact h
      · rw [hw, hidle]
        exact inTurn_stop h
      · rw [heq]
        exact inTurn_fetch (hidle ▸ h) encode ties _ htimes
      · rw [hw]
        have haccept := inTurn_accept (hpublishing ▸ h) subject
        rcases hnext with hnext | hnext
        · rw [hnext]
          exact haccept
        · rw [hnext]
          exact inTurn_stop haccept
      · rw [hw]
        have hmarked := inTurn_mark (hmarking ▸ h) hmark
        rcases hnext with hnext | hnext
        · rw [hnext]
          exact hmarked
        · rw [hnext]
          exact inTurn_stop hmarked
      · rw [heq]
        exact inTurn_markFailed (hmarking ▸ h)

theorem inTurn_start : InTurn (Platform.start : Platform C Unit).state .idle := by
  refine ⟨List.nodup_nil, fun u v _ pre record subject post heq => ?_, fun u row hget => ?_,
    fun record subject hmem => ?_, fun _ _ heq => (by cases heq), fun _ hmem => ?_,
    fun front _ _ heq => (by cases front <;> cases heq)⟩
  · simp [Platform.start, Platform.state] at heq
  · simp [Platform.start, Platform.state, PostgresStore.empty, Assoc.get] at hget
  · simp [Platform.start, Platform.state] at hmem
  · simp [Phase.queue] at hmem

/-- In every run of the service with one publisher in which the times tell the order of
the waiting events at every fetch, the broker accepts the events of a request in the
order of their commits. -/
theorem events_accepted_in_commit_order (C : OrderedColumns) (encode : Payload → List UInt8)
    (P : Poller) (turns : List (Turn C Unit))
    (htimes : AllSteps (take encode fun _ => P) TimesTellOrder Platform.start turns) :
    EventOrder (run (take encode fun _ => P) Platform.start turns).domain.store.outbox
      (run (take encode fun _ => P) Platform.start turns).effects := by
  have hrun := run_invariant (take encode fun _ => P) TimesTellOrder
    (fun s => InTurn s.state (s.phases ())) (fun _ _ h ht => inTurn_take h ht) Platform.start
    turns inTurn_start htimes
  exact hrun.order

/-- The event whose acceptance an effect is. -/
def Effect.acceptedID : Effect → Option String
  | .accepted record _ => some record.eventID
  | _ => none

/-- A request is created at noon and triaged at the given second of that minute. -/
def triagedAt (second : Nat) (h : second < 60) : List (Turn textualColumns Unit) :=
  [.domain (.createRequest ⟨"Reset VPN access", "", "user-1"⟩ GoText.noon
      "11111111-1111-1111-1111-111111111111" "22222222-2222-2222-2222-222222222222"),
   .domain (.read ⟨"11111111-1111-1111-1111-111111111111", "triaged", "operator-1", "operator"⟩),
   .domain (.write 0 (GoText.noonAnd second h)
      "33333333-3333-3333-3333-333333333333")]

def triagedEvent : textualColumns.Uuid := ⟨List.replicate 16 0x33, rfl⟩

/-- Both events are waiting when the publisher fetches, the second preferred in a tie. -/
def sentAfter (polls : List (Poll textualColumns)) : List (Turn textualColumns Unit) :=
  .poll () (.fetch [triagedEvent]) :: polls.map (.poll ())

/-- The platform after such a run. -/
def afterTriage (second : Nat) (h : second < 60) (polls : List (Poll textualColumns)) :
    Platform textualColumns Unit :=
  run (take plainText fun _ => newPoller eventSubjects 0) Platform.start
    (triagedAt second h ++ sentAfter polls)

/-- Within one second the database may hand out the status change first. -/
theorem same_second_swaps_events :
    ¬ EventOrder (afterTriage 0 (by decide) [.publish true]).domain.store.outbox
      (afterTriage 0 (by decide) [.publish true]).effects := by
  intro h
  have hlog : (afterTriage 0 (by decide) [.publish true]).domain.store.outbox.map
      (fun entry => (entry.1, (PostgresStore.logEntry entry).request)) =
      [(createdEvent, some ⟨List.replicate 16 0x11, rfl⟩),
        (triagedEvent, some ⟨List.replicate 16 0x11, rfl⟩)] := by decide +kernel
  have hbefore : CommittedBefore
      (afterTriage 0 (by decide) [.publish true]).domain.store.outbox createdEvent
        triagedEvent := by
    refine ⟨⟨List.replicate 16 0x11, rfl⟩, ?_⟩
    rw [hlog]
  have hids : (afterTriage 0 (by decide) [.publish true]).effects.map Effect.acceptedID =
      [some "33333333-3333-3333-3333-333333333333"] := by decide +kernel
  obtain ⟨effect, heffects, hid⟩ := List.map_eq_singleton_iff.mp hids
  cases effect with
  | accepted record subject =>
      obtain ⟨_, _, hmem, -⟩ := h _ _ hbefore [] record subject [] heffects (Option.some.inj hid)
      simp at hmem
  | marked id => cases hid
  | markFailed id => cases hid

/-- The two events of a triage one second later are told apart by their times. -/
theorem next_second_times : TimesTellOrder
    (run (take plainText fun _ => newPoller eventSubjects 0) Platform.start
      (triagedAt 1 (by decide))) (.poll () (.fetch [triagedEvent])) := by
  rintro u v rowᵤ rowᵥ ⟨k, hsub⟩ hu - hv - -
  have hlog : (run (take plainText fun _ => newPoller eventSubjects 0) Platform.start
      (triagedAt 1 (by decide))).domain.store.outbox.map
        (fun entry => (entry.1, (PostgresStore.logEntry entry).request)) =
      [(createdEvent, some ⟨List.replicate 16 0x11, rfl⟩),
        (triagedEvent, some ⟨List.replicate 16 0x11, rfl⟩)] := by decide +kernel
  have hat : ((Assoc.get (run (take plainText fun _ => newPoller eventSubjects 0)
      Platform.start (triagedAt 1 (by decide))).domain.store.outbox createdEvent).map
        fun row => (show String from row.occurredAt)) = some "2026-09-22T12:00:00Z" ∧
      ((Assoc.get (run (take plainText fun _ => newPoller eventSubjects 0)
        Platform.start (triagedAt 1 (by decide))).domain.store.outbox triagedEvent).map
          fun row => (show String from row.occurredAt)) = some "2026-09-22T12:00:01Z" := by
    decide +kernel
  rw [hlog] at hsub
  have heq := hsub.eq_of_length rfl
  simp only [List.cons.injEq, Prod.mk.injEq] at heq
  obtain ⟨⟨rfl, -⟩, ⟨rfl, -⟩, -⟩ := heq
  rw [hu, hv, Option.map_some, Option.map_some, Option.some.injEq, Option.some.injEq] at hat
  rw [show rowᵤ.occurredAt = "2026-09-22T12:00:00Z" from hat.1,
    show rowᵥ.occurredAt = "2026-09-22T12:00:01Z" from hat.2]
  decide

theorem next_second_keeps_order :
    AllSteps (take plainText fun _ => newPoller eventSubjects 0) TimesTellOrder Platform.start
      (triagedAt 1 (by decide) ++ sentAfter [.publish true]) ∧
    EventOrder (afterTriage 1 (by decide) [.publish true]).domain.store.outbox
      (afterTriage 1 (by decide) [.publish true]).effects := by
  have htimes : AllSteps (take plainText fun _ => newPoller eventSubjects 0) TimesTellOrder
      Platform.start (triagedAt 1 (by decide) ++ sentAfter [.publish true]) := by
    rw [allSteps_append]
    exact ⟨⟨trivial, trivial, trivial, trivial⟩, next_second_times, trivial, trivial⟩
  exact ⟨htimes, events_accepted_in_commit_order textualColumns plainText
    (newPoller eventSubjects 0) _ htimes⟩

end SecureSdlc.Publisher

import SecureSdlc.Core.Run
import SecureSdlc.Publisher.Outbox

/-!
Batches of one publisher over a table of distinct events. A batch publishes and marks a
front of the rows it fetched and stops at the first row that fails; the only trace a
failing row can leave is one acceptance, when its mark was refused. Over many batches a
row that is marked is out of reach of every later fetch, which is why an acceptance can
only repeat after a refused mark.
-/

namespace SecureSdlc.Publisher

open Core Domain

variable {C : OrderedColumns}

/-- The rows the query may return: unpublished, by `occurred_at`, cut at the limit. -/
def Fetches (limit : Int) (outbox rows : Table C) : Prop :=
  ∃ sorted : Table C, sorted.Perm (outbox.filter isUnpublished) ∧
    sorted.Pairwise (fun a b => C.instantLe a.2.occurredAt b.2.occurredAt = true) ∧
    rows = sorted.take limit.toNat

instance occurredAt_total : Std.Total fun a b : C.Uuid × OutboxRow C.toColumns =>
    C.instantLe a.2.occurredAt b.2.occurredAt = true where
  total _ _ := C.instantLe_total _ _

instance occurredAt_trans : IsTrans (C.Uuid × OutboxRow C.toColumns) fun a b =>
    C.instantLe a.2.occurredAt b.2.occurredAt = true where
  trans _ _ _ := C.instantLe_trans _ _ _

instance idxOf_total (ties : List C.Uuid) : Std.Total fun a b : C.Uuid × OutboxRow C.toColumns =>
    ties.idxOf a.1 ≤ ties.idxOf b.1 where
  total _ _ := Nat.le_total _ _

instance idxOf_trans (ties : List C.Uuid) : IsTrans (C.Uuid × OutboxRow C.toColumns) fun a b =>
    ties.idxOf a.1 ≤ ties.idxOf b.1 where
  trans _ _ _ := Nat.le_trans

theorem fetchRows_fetches (ties : List C.Uuid) (limit : Int) (outbox : Table C) :
    Fetches limit outbox (fetchRows ties limit outbox) :=
  ⟨_, (List.perm_insertionSort _ _).trans (List.perm_insertionSort _ _),
    List.pairwise_insertionSort _ _, rfl⟩

theorem Fetches.sublist_perm {limit : Int} {outbox rows : Table C} (h : Fetches limit outbox rows) :
    ∃ rest, (rows ++ rest).Perm (outbox.filter isUnpublished) := by
  obtain ⟨sorted, hperm, -, rfl⟩ := h
  exact ⟨sorted.drop limit.toNat, by rw [List.take_append_drop]; exact hperm⟩

theorem Fetches.mem {limit : Int} {outbox rows : Table C} (h : Fetches limit outbox rows)
    {entry : C.Uuid × OutboxRow C.toColumns} (hentry : entry ∈ rows) :
    entry ∈ outbox ∧ entry.2.publishedAt = none := by
  obtain ⟨rest, hperm⟩ := h.sublist_perm
  have hmem := hperm.mem_iff.mp (List.mem_append_left rest hentry)
  rw [List.mem_filter, isUnpublished, Option.isNone_iff_eq_none] at hmem
  exact hmem

theorem Fetches.keys_nodup {limit : Int} {outbox rows : Table C} (h : Fetches limit outbox rows)
    (hunique : Assoc.Unique outbox) : (rows.map Prod.fst).Nodup := by
  obtain ⟨rest, hperm⟩ := h.sublist_perm
  have hall : ((rows ++ rest).map Prod.fst).Nodup :=
    (hperm.map Prod.fst).nodup_iff.mpr (hunique.sublist (List.filter_sublist.map _))
  rw [List.map_append] at hall
  exact (List.nodup_append.mp hall).1

/-- The table after the rows under `keys` were marked, and nothing else. -/
structure Marks (keys : List C.Uuid) (outbox outbox' : Table C) : Prop where
  unique : Assoc.Unique outbox'
  others : ∀ u, u ∉ keys → Assoc.get outbox' u = Assoc.get outbox u
  marked : ∀ u ∈ keys, ∃ row now, Assoc.get outbox u = some row ∧
    Assoc.get outbox' u = some { row with publishedAt := some now }

theorem markPublished_text {outbox : Table C} {u : C.Uuid} {row : OutboxRow C.toColumns}
    (h : Assoc.get outbox u = some row) (now : C.Instant) :
    markPublished outbox (C.uuidText u) now =
      .ok (Assoc.set outbox u { row with publishedAt := some now }) := by
  simp only [markPublished, C.cast_uuidText, h]

theorem marks_nil {outbox : Table C} (h : Assoc.Unique outbox) : Marks [] outbox outbox :=
  ⟨h, fun _ _ => rfl, by simp⟩

theorem marks_cons {outbox outbox' : Table C} {u : C.Uuid} {row : OutboxRow C.toColumns}
    {now : C.Instant} {keys : List C.Uuid} (hrow : Assoc.get outbox u = some row)
    (hu : u ∉ keys)
    (h : Marks keys (Assoc.set outbox u { row with publishedAt := some now }) outbox') :
    Marks (u :: keys) outbox outbox' := by
  refine ⟨h.unique, fun v hv => ?_, fun v hv => ?_⟩
  · simp only [List.mem_cons, not_or] at hv
    rw [h.others v hv.2, Assoc.get_set_of_ne _ _ (Ne.symm hv.1)]
  · by_cases heq : v = u
    · subst heq
      exact ⟨row, now, hrow, by rw [h.others v hu, Assoc.get_set_self]⟩
    · obtain ⟨row', now', hget, hmarked⟩ :=
        h.marked v ((List.mem_cons.mp hv).resolve_left heq)
      rw [Assoc.get_set_of_ne _ _ (Ne.symm heq)] at hget
      exact ⟨row', now', hget, hmarked⟩

/-- A publish the broker accepted, and whether its mark was made. -/
structure Attempt where
  record : Record
  subject : String
  marked : Bool

def Attempt.outcome (a : Attempt) : Effect :=
  if a.marked then .marked a.record.eventID else .markFailed a.record.eventID

def Attempt.effects (a : Attempt) : List Effect :=
  [.accepted a.record a.subject, a.outcome]

/-- What is left of a batch where it stopped: nothing, nothing fetched, a row without a
route or refused by the broker, or a row accepted and not marked. -/
inductive Stops (P : Poller) : List Record → List Attempt → Option BatchError → Prop where
  | done : Stops P [] [] none
  | unfetched (message : String) : Stops P [] [] (some (.fetch message))
  | refused (record : Record) (records : List Record) (e : BatchError) :
      Stops P (record :: records) [] (some e)
  | unmarked (record : Record) (records : List Record) (subject : String) (e : BatchError) :
      Assoc.get P.routes record.eventType = some subject →
      Stops P (record :: records) [⟨record, subject, false⟩] (some e)

/-- A front of the records, each accepted on its route and marked. -/
inductive Publishes (P : Poller) : List Record → List Attempt → Prop where
  | nil : Publishes P [] []
  | cons {record : Record} {records : List Record} {subject : String} {attempts : List Attempt} :
      Assoc.get P.routes record.eventType = some subject → Publishes P records attempts →
      Publishes P (record :: records) (⟨record, subject, true⟩ :: attempts)

section Loop

variable {P : Poller} {call : Call C} {published : Nat} {record : Record} {records : List Record}
  {w : State C} {subject : String}

/-- A record that is accepted and marked hands the loop on to the next. -/
theorem publishRecords_marked {now : C.Instant} {outbox : Table C}
    (hroute : Assoc.get P.routes record.eventType = some subject)
    (hpublish : call.publishError published = none)
    (hanswer : call.markAnswer published = .ok now)
    (hmark : markPublished w.outbox record.eventID now = .ok outbox) :
    publishRecords P call published (record :: records) w =
      publishRecords P call (published + 1) records
        (State.note { w.note (.accepted record subject) with outbox := outbox }
          (.marked record.eventID)) := by
  have hbind : (do
      let now ← call.markAnswer published
      markPublished (w.note (.accepted record subject)).outbox record.eventID now) =
        .ok outbox := by
    rw [hanswer]
    exact hmark
  simp only [publishRecords, hroute, hpublish, hbind]

theorem publishRecords_unmarked {e : String}
    (hroute : Assoc.get P.routes record.eventType = some subject)
    (hpublish : call.publishError published = none)
    (hanswer : call.markAnswer published = .error e) :
    publishRecords P call published (record :: records) w =
      ((published, some (.mark record.eventID e)),
        (w.note (.accepted record subject)).note (.markFailed record.eventID)) := by
  have hbind : (do
      let now ← call.markAnswer published
      markPublished (w.note (.accepted record subject)).outbox record.eventID now) =
        .error e := by
    rw [hanswer]
    rfl
  simp only [publishRecords, hroute, hpublish, hbind]

end Loop

/-- The loop over fetched rows publishes and marks a front of them, then stops. -/
theorem publishRecords_spec (encode : Payload → List UInt8) (P : Poller) (call : Call C)
    (rows : Table C) (published : Nat) (w : State C) (hunique : Assoc.Unique w.outbox)
    (hkeys : (rows.map Prod.fst).Nodup)
    (hrows : ∀ entry ∈ rows, Assoc.get w.outbox entry.1 = some entry.2) :
    ∃ front rest attempts tail,
      rows = front ++ rest ∧
      (publishRecords P call published (rows.map (scan encode)) w).1.1 =
        published + front.length ∧
      Publishes P (front.map (scan encode)) attempts ∧
      Stops P (rest.map (scan encode)) tail
        (publishRecords P call published (rows.map (scan encode)) w).1.2 ∧
      (publishRecords P call published (rows.map (scan encode)) w).2.effects =
        w.effects ++ (attempts ++ tail).flatMap Attempt.effects ∧
      Marks (front.map Prod.fst) w.outbox
        (publishRecords P call published (rows.map (scan encode)) w).2.outbox := by
  induction rows generalizing published w with
  | nil =>
      exact ⟨[], [], [], [], rfl, rfl, .nil, .done, by simp [publishRecords], marks_nil hunique⟩
  | cons entry rows ih =>
      rw [List.map_cons]
      cases hroute : Assoc.get P.routes (scan encode entry).eventType with
      | none =>
          simp only [publishRecords, hroute]
          exact ⟨[], entry :: rows, [], [], rfl, rfl, .nil, .refused _ _ _, by simp,
            marks_nil hunique⟩
      | some subject =>
          cases hpublish : call.publishError published with
          | some e =>
              simp only [publishRecords, hroute, hpublish]
              exact ⟨[], entry :: rows, [], [], rfl, rfl, .nil, .refused _ _ _, by simp,
                marks_nil hunique⟩
          | none =>
              cases hanswer : call.markAnswer published with
              | error e =>
                  rw [publishRecords_unmarked hroute hpublish hanswer]
                  refine ⟨[], entry :: rows, [], [⟨scan encode entry, subject, false⟩], rfl, rfl,
                    .nil, .unmarked _ _ subject _ hroute, ?_, marks_nil hunique⟩
                  simp [State.note, Attempt.effects, Attempt.outcome]
              | ok now =>
                  have hrow : Assoc.get w.outbox entry.1 = some entry.2 :=
                    hrows _ List.mem_cons_self
                  obtain ⟨hu, hrest⟩ := List.nodup_cons.mp hkeys
                  have hkept : ∀ later ∈ rows, Assoc.get (Assoc.set w.outbox entry.1
                      { entry.2 with publishedAt := some now }) later.1 = some later.2 := by
                    intro later hlater
                    have hne : entry.1 ≠ later.1 := fun heq =>
                      hu (heq ▸ List.mem_map_of_mem hlater)
                    rw [Assoc.get_set_of_ne _ _ hne]
                    exact hrows later (List.mem_cons_of_mem _ hlater)
                  rw [publishRecords_marked hroute hpublish hanswer (markPublished_text hrow now)]
                  obtain ⟨front, rest, attempts, tail, rfl, hcount, hpublishes, hstops, heffects,
                    hmarks⟩ := ih (published + 1)
                      (State.note { w.note (.accepted (scan encode entry) subject) with
                        outbox := Assoc.set w.outbox entry.1
                          { entry.2 with publishedAt := some now } }
                        (.marked (scan encode entry).eventID))
                      (Assoc.unique_set hunique _ _) hrest hkept
                  have hfront : entry.1 ∉ front.map Prod.fst := fun hmem =>
                    hu (by rw [List.map_append]; exact List.mem_append_left _ hmem)
                  refine ⟨entry :: front, rest, ⟨scan encode entry, subject, true⟩ :: attempts,
                    tail, rfl, ?_, .cons hroute hpublishes, hstops, ?_,
                    marks_cons hrow hfront hmarks⟩
                  · rw [hcount, List.length_cons]
                    omega
                  · rw [heffects]
                    simp [State.note, Attempt.effects, Attempt.outcome]

/-- The rows a batch works on. -/
def fetched (P : Poller) (w : State C) (call : Call C) : Table C :=
  match call.fetchError with
  | some _ => []
  | none => fetchRows call.ties P.limit w.outbox

theorem mem_fetched {P : Poller} {w : State C} {call : Call C}
    {entry : C.Uuid × OutboxRow C.toColumns} (h : entry ∈ fetched P w call) :
    entry ∈ w.outbox ∧ entry.2.publishedAt = none := by
  simp only [fetched] at h
  split at h
  · simp at h
  · exact (fetchRows_fetches _ _ _).mem h

theorem fetched_keys_nodup {P : Poller} {w : State C} (hunique : Assoc.Unique w.outbox)
    (call : Call C) : ((fetched P w call).map Prod.fst).Nodup := by
  simp only [fetched]
  split
  · exact List.nodup_nil
  · exact (fetchRows_fetches _ _ _).keys_nodup hunique

/-- One batch: a front of the fetched rows is published and marked, and the batch stops. -/
structure Batch (encode : Payload → List UInt8) (P : Poller) (w : State C) (call : Call C)
    (front rest : Table C) (attempts tail : List Attempt) : Prop where
  rows : fetched P w call = front ++ rest
  count : (publishBatch encode P w call).1.1 = front.length
  publishes : Publishes P (front.map (scan encode)) attempts
  stops : Stops P (rest.map (scan encode)) tail (publishBatch encode P w call).1.2
  effects : (publishBatch encode P w call).2.effects =
    w.effects ++ (attempts ++ tail).flatMap Attempt.effects
  marks : Marks (front.map Prod.fst) w.outbox (publishBatch encode P w call).2.outbox

theorem publishBatch_spec (encode : Payload → List UInt8) (P : Poller) {w : State C}
    (hunique : Assoc.Unique w.outbox) (call : Call C) :
    ∃ front rest attempts tail, Batch encode P w call front rest attempts tail := by
  cases hfetch : call.fetchError with
  | some e =>
      have hbatch : publishBatch encode P w call = ((0, some (.fetch e)), w) := by
        simp only [publishBatch, hfetch]
      refine ⟨[], [], [], [], ⟨by simp only [fetched, hfetch, List.append_nil], ?_, .nil, ?_, ?_,
        ?_⟩⟩
      · rw [hbatch, List.length_nil]
      · rw [hbatch]
        exact .unfetched e
      · simp [hbatch]
      · rw [hbatch]
        exact marks_nil hunique
  | none =>
      have hbatch : publishBatch encode P w call =
          publishRecords P call 0 ((fetched P w call).map (scan encode)) w := by
        simp only [publishBatch, fetched, hfetch, fetchUnpublished]
      obtain ⟨front, rest, attempts, tail, hrows, hcount, hpublishes, hstops, heffects, hmarks⟩ :=
        publishRecords_spec encode P call (fetched P w call) 0 w hunique
          (fetched_keys_nodup hunique call)
          (fun entry hentry => Assoc.get_of_mem hunique (mem_fetched hentry).1)
      rw [← hbatch] at hcount hstops heffects hmarks
      exact ⟨front, rest, attempts, tail, hrows, by rw [hcount, Nat.zero_add], hpublishes, hstops,
        heffects, hmarks⟩

theorem Publishes.spec {P : Poller} {records : List Record} {attempts : List Attempt}
    (h : Publishes P records attempts) :
    attempts.map Attempt.record = records ∧
      ∀ a ∈ attempts, a.marked = true ∧
        Assoc.get P.routes a.record.eventType = some a.subject := by
  induction h with
  | nil => simp
  | cons hroute _ ih =>
      refine ⟨by rw [List.map_cons, ih.1], fun a ha => ?_⟩
      rcases List.mem_cons.mp ha with rfl | hrest
      · exact ⟨rfl, hroute⟩
      · exact ih.2 a hrest

theorem Stops.spec {P : Poller} {records : List Record} {tail : List Attempt}
    {e : Option BatchError} (h : Stops P records tail e) :
    (∃ rest, records = tail.map Attempt.record ++ rest) ∧
      ∀ a ∈ tail, a.marked = false ∧
        Assoc.get P.routes a.record.eventType = some a.subject := by
  cases h with
  | done => exact ⟨⟨[], rfl⟩, by simp⟩
  | unfetched e => exact ⟨⟨[], rfl⟩, by simp⟩
  | refused record records e => exact ⟨⟨_, rfl⟩, by simp⟩
  | unmarked record records subject e hroute =>
      refine ⟨⟨records, rfl⟩, fun a ha => ?_⟩
      rw [List.mem_singleton] at ha
      subst ha
      exact ⟨rfl, hroute⟩

section Attempts

variable {encode : Payload → List UInt8} {P : Poller} {w : State C} {call : Call C}
  {front rest : Table C} {attempts tail : List Attempt}

theorem Batch.records_eq (h : Batch encode P w call front rest attempts tail) :
    ∃ later, (fetched P w call).map (scan encode) =
      (attempts ++ tail).map Attempt.record ++ later := by
  obtain ⟨later, hlater⟩ := h.stops.spec.1
  refine ⟨later, ?_⟩
  rw [h.rows, List.map_append, List.map_append, hlater, h.publishes.spec.1, List.append_assoc]

theorem Batch.eventIDs_nodup (h : Batch encode P w call front rest attempts tail)
    (hunique : Assoc.Unique w.outbox) :
    ((attempts ++ tail).map fun a => a.record.eventID).Nodup := by
  obtain ⟨later, hlater⟩ := h.records_eq
  have hids := (fetched_keys_nodup (P := P) hunique call).map C.uuidText_injective
  rw [List.map_map] at hids
  have heq := congrArg (List.map Record.eventID) hlater
  rw [List.map_map, List.map_append, List.map_map] at heq
  change ((fetched P w call).map fun entry => C.uuidText entry.1).Nodup at hids
  change (fetched P w call).map (fun entry => C.uuidText entry.1) = _ at heq
  rw [heq] at hids
  exact (List.nodup_append.mp hids).1

theorem Batch.mem_fetched (h : Batch encode P w call front rest attempts tail) {a : Attempt}
    (ha : a ∈ attempts ++ tail) : ∃ entry ∈ fetched P w call, a.record = scan encode entry := by
  obtain ⟨later, hlater⟩ := h.records_eq
  have hmem : a.record ∈ (fetched P w call).map (scan encode) := by
    rw [hlater]
    exact List.mem_append_left _ (List.mem_map_of_mem ha)
  obtain ⟨entry, hentry, heq⟩ := List.mem_map.mp hmem
  exact ⟨entry, hentry, heq.symm⟩

theorem Batch.routed (h : Batch encode P w call front rest attempts tail) {a : Attempt}
    (ha : a ∈ attempts ++ tail) : Assoc.get P.routes a.record.eventType = some a.subject := by
  rcases List.mem_append.mp ha with hfront | htail
  · exact (h.publishes.spec.2 a hfront).2
  · exact (h.stops.spec.2 a htail).2

/-- The rows a batch marks are those of its marked attempts. -/
theorem Batch.mem_front_iff (h : Batch encode P w call front rest attempts tail) (u : C.Uuid) :
    u ∈ front.map Prod.fst ↔
      ∃ a ∈ attempts ++ tail, a.marked = true ∧ a.record.eventID = C.uuidText u := by
  constructor
  · intro hu
    obtain ⟨entry, hentry, rfl⟩ := List.mem_map.mp hu
    have hrecord : scan encode entry ∈ attempts.map Attempt.record := by
      rw [h.publishes.spec.1]
      exact List.mem_map_of_mem hentry
    obtain ⟨a, ha, heq⟩ := List.mem_map.mp hrecord
    exact ⟨a, List.mem_append_left _ ha, (h.publishes.spec.2 a ha).1, by rw [heq]; rfl⟩
  · rintro ⟨a, ha, hmarked, hid⟩
    rcases List.mem_append.mp ha with hfront | htail
    · have hrecord : a.record ∈ front.map (scan encode) := by
        rw [← h.publishes.spec.1]
        exact List.mem_map_of_mem hfront
      obtain ⟨entry, hentry, heq⟩ := List.mem_map.mp hrecord
      have hu : entry.1 = u := C.uuidText_injective (by rw [← hid, ← heq]; rfl)
      exact hu ▸ List.mem_map_of_mem hentry
    · rw [(h.stops.spec.2 a htail).1] at hmarked
      cases hmarked

end Attempts

/-- The attempts made since the table was `w₀`, and what they left behind. -/
structure History (encode : Payload → List UInt8) (P : Poller) (w₀ w : State C)
    (attempts : List Attempt) : Prop where
  unique : Assoc.Unique w.outbox
  effects : w.effects = attempts.flatMap Attempt.effects
  rows : ∀ u row, Assoc.get w.outbox u = some row →
    ∃ row₀, Assoc.get w₀.outbox u = some row₀ ∧
      row₀ = { row with publishedAt := row₀.publishedAt }
  sent : ∀ a ∈ attempts, ∃ u row, Assoc.get w₀.outbox u = some row ∧
    a.record = scan encode (u, row) ∧ Assoc.get P.routes row.eventType = some a.subject
  published : ∀ u row, Assoc.get w.outbox u = some row → (row.publishedAt ≠ none ↔
    (∃ row₀, Assoc.get w₀.outbox u = some row₀ ∧ row₀.publishedAt ≠ none) ∨
      ∃ a ∈ attempts, a.marked = true ∧ a.record.eventID = C.uuidText u)
  again : attempts.Pairwise fun a b => a.record.eventID = b.record.eventID → a.marked = false

theorem history_start (encode : Payload → List UInt8) (P : Poller) {w : State C}
    (hunique : Assoc.Unique w.outbox) (heffects : w.effects = []) : History encode P w w [] := by
  refine ⟨hunique, heffects, fun u row hrow => ⟨row, hrow, rfl⟩, by simp,
    fun u row hrow => ?_, .nil⟩
  simp only [List.not_mem_nil, false_and, exists_false, or_false, hrow, Option.some.injEq,
    exists_eq_left']

theorem history_step {encode : Payload → List UInt8} {P : Poller} {w₀ w : State C}
    {history : List Attempt} (h : History encode P w₀ w history) (call : Call C) :
    ∃ new, History encode P w₀ (publishBatch encode P w call).2 (history ++ new) := by
  obtain ⟨front, rest, attempts, tail, hbatch⟩ := publishBatch_spec encode P h.unique call
  have hrow : ∀ u row', Assoc.get (publishBatch encode P w call).2.outbox u = some row' →
      ∃ row, Assoc.get w.outbox u = some row ∧ row = { row' with publishedAt := row.publishedAt } ∧
        (row'.publishedAt ≠ none ↔ row.publishedAt ≠ none ∨ u ∈ front.map Prod.fst) := by
    intro u row' hget
    by_cases hu : u ∈ front.map Prod.fst
    · obtain ⟨row, now, hold, hnew⟩ := hbatch.marks.marked u hu
      rw [hnew, Option.some.injEq] at hget
      subst hget
      exact ⟨row, hold, rfl, by simp [hu]⟩
    · rw [hbatch.marks.others u hu] at hget
      exact ⟨row', hget, rfl, by simp [hu]⟩
  refine ⟨attempts ++ tail, hbatch.marks.unique, ?_, ?_, ?_, ?_, ?_⟩
  · rw [hbatch.effects, h.effects, ← List.flatMap_append]
  · intro u row' hget
    obtain ⟨row, hold, hsame, -⟩ := hrow u row' hget
    obtain ⟨row₀, hstart, hsame₀⟩ := h.rows u row hold
    exact ⟨row₀, hstart, by rw [hsame₀, hsame]⟩
  · intro a ha
    rcases List.mem_append.mp ha with hold | hnew
    · exact h.sent a hold
    · obtain ⟨entry, hentry, hrecord⟩ := hbatch.mem_fetched hnew
      obtain ⟨row₀, hstart, hsame⟩ := h.rows entry.1 entry.2
        (Assoc.get_of_mem h.unique (mem_fetched hentry).1)
      refine ⟨entry.1, row₀, hstart, ?_, ?_⟩
      · rw [hrecord, hsame]
        rfl
      · have hroute := hbatch.routed hnew
        rw [hrecord] at hroute
        rw [hsame]
        exact hroute
  · intro u row' hget
    obtain ⟨row, hold, -, hpublished⟩ := hrow u row' hget
    rw [hpublished, h.published u row hold, hbatch.mem_front_iff]
    simp only [List.mem_append, or_and_right, exists_or, or_assoc]
  · rw [List.pairwise_append]
    refine ⟨h.again, ?_, ?_⟩
    · have hids := hbatch.eventIDs_nodup h.unique
      rw [List.Nodup, List.pairwise_map] at hids
      exact hids.imp fun hne heq => absurd heq hne
    · intro a ha b hb heq
      obtain ⟨entry, hentry, hrecord⟩ := hbatch.mem_fetched hb
      obtain ⟨hmem, hnone⟩ := mem_fetched hentry
      by_contra hmarked
      have hid : a.record.eventID = C.uuidText entry.1 := by rw [heq, hrecord]; rfl
      exact (h.published entry.1 entry.2 (Assoc.get_of_mem h.unique hmem)).mpr
        (.inr ⟨a, ha, by simpa using hmarked, hid⟩) hnone

theorem history_run {encode : Payload → List UInt8} {P : Poller} {w₀ w : State C}
    {history : List Attempt} (h : History encode P w₀ w history) (calls : List (Call C)) :
    ∃ attempts, History encode P w₀
      (run (fun w call => (publishBatch encode P w call).2) w calls) attempts := by
  induction calls generalizing w history with
  | nil => exact ⟨history, h⟩
  | cons call calls ih =>
      obtain ⟨new, hnew⟩ := history_step h call
      exact ih hnew

/-- Where the trace of the attempts shows a mark, an acceptance stands right before it. -/
theorem marked_split {attempts : List Attempt} {pre post : List Effect} {id : String}
    (h : attempts.flatMap Attempt.effects = pre ++ .marked id :: post) :
    ∃ a ∈ attempts, a.record.eventID = id ∧
      ∃ before, pre = before ++ [.accepted a.record a.subject] := by
  induction attempts generalizing pre with
  | nil => simp at h
  | cons a attempts ih =>
      simp only [List.flatMap_cons, Attempt.effects, List.cons_append, List.nil_append] at h
      match pre, h with
      | [], h => simp at h
      | [first], h =>
          simp only [List.cons_append, List.nil_append, List.cons.injEq] at h
          obtain ⟨rfl, houtcome, -⟩ := h
          simp only [Attempt.outcome] at houtcome
          split at houtcome
          · exact ⟨a, List.mem_cons_self, Effect.marked.inj houtcome, [], rfl⟩
          · cases houtcome
      | first :: second :: pre, h =>
          simp only [List.cons_append, List.cons.injEq] at h
          obtain ⟨rfl, rfl, hrest⟩ := h
          obtain ⟨b, hb, hid, before, rfl⟩ := ih hrest
          exact ⟨b, List.mem_cons_of_mem _ hb, hid, _ :: _ :: before, rfl⟩

/-- Where it shows an acceptance, the outcome of the mark stands right behind it. -/
theorem accepted_split {attempts : List Attempt} {pre post : List Effect} {record : Record}
    {subject : String}
    (h : attempts.flatMap Attempt.effects = pre ++ .accepted record subject :: post) :
    ∃ before a later, attempts = before ++ a :: later ∧ a.record = record ∧
      post = a.outcome :: later.flatMap Attempt.effects := by
  induction attempts generalizing pre with
  | nil => simp at h
  | cons a attempts ih =>
      simp only [List.flatMap_cons, Attempt.effects, List.cons_append, List.nil_append] at h
      match pre, h with
      | [], h =>
          simp only [List.nil_append, List.cons.injEq, Effect.accepted.injEq] at h
          exact ⟨[], a, attempts, rfl, h.1.1, h.2.symm⟩
      | [first], h =>
          simp only [List.cons_append, List.nil_append, List.cons.injEq, Attempt.outcome] at h
          split at h <;> simp at h
      | first :: second :: pre, h =>
          simp only [List.cons_append, List.cons.injEq] at h
          obtain ⟨rfl, rfl, hrest⟩ := h
          obtain ⟨before, b, later, rfl, hrecord, hpost⟩ := ih hrest
          exact ⟨a :: before, b, later, rfl, hrecord, hpost⟩

theorem mem_of_accepted {attempts : List Attempt} {record : Record} {subject : String}
    (h : Effect.accepted record subject ∈ attempts.flatMap Attempt.effects) :
    ∃ a ∈ attempts, a.record = record ∧ a.subject = subject := by
  obtain ⟨a, ha, heffect⟩ := List.mem_flatMap.mp h
  simp only [Attempt.effects, Attempt.outcome, List.mem_cons, Effect.accepted.injEq,
    List.not_mem_nil, or_false] at heffect
  rcases heffect with heq | hother
  · exact ⟨a, ha, heq.1.symm, heq.2.symm⟩
  · split at hother <;> cases hother

/-- The trace of a publisher that loses nothing and repeats no more than it must: a row
is marked right after the broker accepted its payload on its route, the rows published
since `w₀` were all marked, and a row is accepted again only when every earlier
acceptance of it was followed by a refused mark. -/
structure NoLoss (encode : Payload → List UInt8) (P : Poller) (w₀ w : State C) : Prop where
  marked : ∀ pre id post, w.effects = pre ++ .marked id :: post →
    ∃ u row subject before, Assoc.get w₀.outbox u = some row ∧ C.uuidText u = id ∧
      Assoc.get P.routes row.eventType = some subject ∧
      pre = before ++ [.accepted (scan encode (u, row)) subject]
  published : ∀ u row, Assoc.get w.outbox u = some row → row.publishedAt ≠ none →
    (∃ row₀, Assoc.get w₀.outbox u = some row₀ ∧ row₀.publishedAt ≠ none) ∨
      .marked (C.uuidText u) ∈ w.effects
  again : ∀ pre record subject mid record' subject' post,
    w.effects = pre ++ .accepted record subject :: (mid ++ .accepted record' subject' :: post) →
    record.eventID = record'.eventID → ∃ rest, mid = .markFailed record.eventID :: rest

theorem noLoss_of_history {encode : Payload → List UInt8} {P : Poller} {w₀ w : State C}
    {attempts : List Attempt} (h : History encode P w₀ w attempts) : NoLoss encode P w₀ w := by
  refine ⟨fun pre id post heq => ?_, fun u row hrow hpublished => ?_, ?_⟩
  · rw [h.effects] at heq
    obtain ⟨a, ha, hid, before, hpre⟩ := marked_split heq
    obtain ⟨u, row, hrow, hrecord, hroute⟩ := h.sent a ha
    rw [hrecord] at hid hpre
    exact ⟨u, row, a.subject, before, hrow, hid, hroute, hpre⟩
  · rcases (h.published u row hrow).mp hpublished with hstart | ⟨a, ha, hmarked, hid⟩
    · exact .inl hstart
    · refine .inr ?_
      rw [h.effects, List.mem_flatMap]
      exact ⟨a, ha, by simp [Attempt.effects, Attempt.outcome, hmarked, hid]⟩
  · intro pre record subject mid record' subject' post heq hsame
    rw [h.effects] at heq
    obtain ⟨before, a, later, hsplit, hrecord, hpost⟩ := accepted_split heq
    have hpairs := h.again
    rw [hsplit, List.pairwise_append] at hpairs
    match mid, hpost with
    | [], hpost =>
        simp only [List.nil_append, List.cons.injEq, Attempt.outcome] at hpost
        split at hpost <;> simp at hpost
    | first :: rest, hpost =>
        simp only [List.cons_append, List.cons.injEq] at hpost
        have hmem : Effect.accepted record' subject' ∈ later.flatMap Attempt.effects := by
          rw [← hpost.2]
          simp
        obtain ⟨b, hb, hb', -⟩ := mem_of_accepted hmem
        have hunmarked := (List.pairwise_cons.mp hpairs.2.1).1 b hb (by rw [hrecord, hb', hsame])
        refine ⟨rest, ?_⟩
        rw [hpost.1, Attempt.outcome, hunmarked, hrecord]
        rfl

/-- The rows a batch took from unpublished to published. -/
def newlyMarked (outbox outbox' : Table C) : Table C :=
  outbox.filter fun entry => isUnpublished entry &&
    ((Assoc.get outbox' entry.1).any fun row => row.publishedAt.isSome)

/-- A batch returns the number of rows it newly marked, which are a front of the rows it
fetched; it works through them in order and does nothing beyond the first that fails. -/
structure CountsMarked (encode : Payload → List UInt8) (P : Poller) (w : State C)
    (call : Call C) : Prop where
  batch : ∃ front rest attempts tail, Batch encode P w call front rest attempts tail ∧
    (newlyMarked w.outbox (publishBatch encode P w call).2.outbox).Perm front
  count : (publishBatch encode P w call).1.1 =
    (newlyMarked w.outbox (publishBatch encode P w call).2.outbox).length

theorem countsMarked {encode : Payload → List UInt8} {P : Poller} {w : State C}
    (hunique : Assoc.Unique w.outbox) (call : Call C) : CountsMarked encode P w call := by
  obtain ⟨front, rest, attempts, tail, hbatch⟩ := publishBatch_spec encode P hunique call
  have hkeys := fetched_keys_nodup (P := P) hunique call
  rw [hbatch.rows, List.map_append] at hkeys
  have hfetched : ∀ entry ∈ front, entry ∈ w.outbox ∧ entry.2.publishedAt = none :=
    fun entry hentry => mem_fetched (hbatch.rows ▸ List.mem_append_left rest hentry)
  have hperm : (newlyMarked w.outbox (publishBatch encode P w call).2.outbox).Perm front := by
    rw [newlyMarked, List.perm_ext_iff_of_nodup ((List.Nodup.of_map _ hunique).filter _)
      (List.Nodup.of_map _ (List.nodup_append.mp hkeys).1)]
    intro entry
    rw [List.mem_filter, Bool.and_eq_true, isUnpublished, Option.isNone_iff_eq_none]
    constructor
    · rintro ⟨hmem, hnone, hsome⟩
      by_cases hu : entry.1 ∈ front.map Prod.fst
      · obtain ⟨other, hother, hkey⟩ := List.mem_map.mp hu
        have hsame := Assoc.get_of_mem hunique (hfetched other hother).1
        rw [hkey, Assoc.get_of_mem hunique hmem, Option.some.injEq] at hsame
        rwa [Prod.ext hkey hsame.symm] at hother
      · rw [hbatch.marks.others _ hu, Assoc.get_of_mem hunique hmem] at hsome
        simp [hnone] at hsome
    · intro hentry
      obtain ⟨row, now, -, hnew⟩ := hbatch.marks.marked entry.1 (List.mem_map_of_mem hentry)
      exact ⟨(hfetched entry hentry).1, (hfetched entry hentry).2, by simp [hnew]⟩
  exact ⟨⟨front, rest, attempts, tail, hbatch, hperm⟩, by rw [hbatch.count, hperm.length_eq]⟩

/-- For every table of distinct events, routing and batch limit, any batches with any
failures lose nothing, repeat only what a refused mark forces, and count what they mark. -/
theorem publisher_loses_nothing (encode : Payload → List UInt8) (routes : List (String × String))
    (limit : Int) (outbox : Table C) (hunique : Assoc.Unique outbox) (calls : List (Call C)) :
    NoLoss encode (newPoller routes limit) ⟨outbox, []⟩
      (run (fun w call => (publishBatch encode (newPoller routes limit) w call).2) ⟨outbox, []⟩
        calls) ∧
    ∀ call, CountsMarked encode (newPoller routes limit)
      (run (fun w call => (publishBatch encode (newPoller routes limit) w call).2) ⟨outbox, []⟩
        calls) call := by
  have hstart : History encode (newPoller routes limit) ⟨outbox, []⟩ ⟨outbox, []⟩ [] :=
    history_start encode _ hunique rfl
  obtain ⟨attempts, hhistory⟩ := history_run hstart calls
  exact ⟨noLoss_of_history hhistory, countsMarked hhistory.unique⟩

/-- The text a `JSONB` column returns for a payload whose fields need no escapes. -/
def plainText : Payload → List UInt8
  | .requestCreated eventID eventType occurredAt id title status createdAt =>
      bytes ["\x7b\"request\": \x7b\"id\": \"", id, "\", \"title\": \"", title,
        "\", \"status\": \"", status, "\", \"created_at\": \"", createdAt,
        "\"\x7d, \"event_id\": \"", eventID, "\", \"event_type\": \"", eventType,
        "\", \"occurred_at\": \"", occurredAt, "\"\x7d"]
  | .requestStatusChanged eventID eventType occurredAt id status previousStatus updatedAt =>
      bytes ["\x7b\"request\": \x7b\"id\": \"", id, "\", \"status\": \"", status,
        "\", \"updated_at\": \"", updatedAt, "\", \"previous_status\": \"", previousStatus,
        "\"\x7d, \"event_id\": \"", eventID, "\", \"event_type\": \"", eventType,
        "\", \"occurred_at\": \"", occurredAt, "\"\x7d"]
where
  bytes (parts : List String) : List UInt8 :=
    (parts.flatMap String.toList).map fun c => UInt8.ofNat c.toNat

def createdEvent : textualColumns.Uuid := ⟨List.replicate 16 0x22, rfl⟩

/-- One waiting event of a new request. -/
def waitingEvent : Table textualColumns :=
  [(createdEvent,
    ⟨"request-created", "2026-09-22T12:00:00Z",
      .requestCreated "22222222-2222-2222-2222-222222222222" "request-created"
        "2026-09-22T12:00:00Z" "11111111-1111-1111-1111-111111111111" "Reset VPN access" "created"
        "2026-09-22T12:00:00Z", none⟩)]

/-- A batch whose mark is refused, and one that goes through. -/
def retriedBatches : List (Call textualColumns) :=
  [⟨[], none, fun _ => none, fun _ => .error "connection failure"⟩,
   ⟨[], none, fun _ => none, fun _ => .ok "2026-09-22T12:00:04Z"⟩]

theorem retriedBatches_lose_nothing :
    Assoc.Unique waitingEvent ∧
    NoLoss plainText (newPoller eventSubjects 0) ⟨waitingEvent, []⟩
      (run (fun w call => (publishBatch plainText (newPoller eventSubjects 0) w call).2)
        ⟨waitingEvent, []⟩ retriedBatches) ∧
    (run (fun w call => (publishBatch plainText (newPoller eventSubjects 0) w call).2)
      ⟨waitingEvent, []⟩ retriedBatches).effects.length = 4 :=
  ⟨List.nodup_singleton _,
    (publisher_loses_nothing plainText eventSubjects 0 waitingEvent (List.nodup_singleton _)
      retriedBatches).1, by decide⟩

end SecureSdlc.Publisher

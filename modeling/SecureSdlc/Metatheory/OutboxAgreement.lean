import Mathlib.Data.List.Induction
import SecureSdlc.Core.Run
import SecureSdlc.Metatheory.RequestTable

/-!
Agreement of the outbox with the stored requests over interleaved calls. A waiting call
holds a copy of a whole record, possibly stale; what makes its write harmless outside
the status is that the copy shows the record as it was created, which no step changes.
Ids that are already taken are refused, so no assumption on the id source is needed.
-/

namespace SecureSdlc.Domain

open Core GoText

variable {σ : Type} {S : Store σ} (V : TableView S)

/-- The events of one request, in commit order. -/
def TableView.events (s : σ) (k : V.Key) : List (LogEntry V.Key) :=
  (V.log s).filter fun e => e.request = some k

/-- Every stored request has one creation event, before all its status changes, and the
last of its events carries the stored status; nothing else is in the outbox. -/
structure Agreement (s : σ) : Prop where
  history : ∀ k rec, V.record s k = some rec → ∃ first rest,
    V.events s k = first :: rest ∧ first.created = true ∧ (∀ e ∈ rest, e.created = false) ∧
      ((V.events s k).getLast?.map LogEntry.status) = some rec.status
  stored : ∀ e ∈ V.log s, ∃ k, e.request = some k ∧ V.record s k ≠ none

structure Agrees (sys : System σ) : Prop where
  inv : V.Inv sys.store
  agreement : Agreement V sys.store
  copies : ∀ p ∈ sys.pending, Copies V sys.store p

/-- A step is a successful `CreateRequest` that files `rec` under the absent key `k`. -/
def Creates (sys : System σ) (a : Action) (k : V.Key) (rec : Record V.Stamp) : Prop :=
  ∃ input now requestID eventID proto, a = .createRequest input now requestID eventID ∧
    answer S sys a = some (.ok proto) ∧ V.key requestID = some k ∧
    V.record sys.store k = none ∧ rec.title = trimSpace input.title ∧
    rec.description = input.description ∧ rec.subject = input.subject ∧
    V.stamp (formatRFC3339 now) = some rec.createdAt

variable {V}

theorem events_append {s s' : σ} {e : LogEntry V.Key} (h : V.log s' = V.log s ++ [e])
    (k : V.Key) :
    V.events s' k = if e.request = some k then V.events s k ++ [e] else V.events s k := by
  unfold TableView.events
  rw [h, List.filter_append]
  by_cases hk : e.request = some k
  · simp [hk]
  · simp [hk]

theorem events_eq_nil {s : σ} (h : Agreement V s) {k : V.Key} (hk : V.record s k = none) :
    V.events s k = [] := by
  unfold TableView.events
  rw [List.filter_eq_nil_iff]
  intro e he heq
  obtain ⟨k', hk', hsome⟩ := h.stored e he
  rw [decide_eq_true_eq, hk', Option.some.injEq] at heq
  exact hsome (heq ▸ hk)

theorem copies_of_record {s s' : σ} {p : Pending} (h : Copies V s p)
    (same : ∀ k rec, V.record s k = some rec →
      ∃ status, V.record s' k = some { rec with status := status }) : Copies V s' p := by
  obtain ⟨k, rec, hrec, hcopy⟩ := h
  obtain ⟨status, hrec'⟩ := same k rec hrec
  exact ⟨k, { rec with status := status }, hrec', hcopy⟩

theorem agreement_create {s s' : σ} {k : V.Key} {rec : Record V.Stamp} (h : Agreement V s)
    (hnone : V.record s k = none) (hnew : V.record s' k = some rec)
    (hother : ∀ k', k' ≠ k → V.record s' k' = V.record s k')
    (hlog : V.log s' = V.log s ++ [⟨some k, true, rec.status⟩]) : Agreement V s' := by
  constructor
  · intro k' rec' hrec'
    rw [events_append hlog]
    by_cases hk : k' = k
    · subst hk
      rw [hnew, Option.some.injEq] at hrec'
      subst hrec'
      rw [if_pos rfl, events_eq_nil h hnone]
      exact ⟨_, [], rfl, rfl, by simp, rfl⟩
    · rw [if_neg (fun heq => hk (Option.some.inj heq).symm)]
      exact h.history k' rec' ((hother k' hk).symm.trans hrec')
  · intro e he
    rw [hlog] at he
    rcases List.mem_append.mp he with hold | hlast
    · obtain ⟨k', hk', hsome⟩ := h.stored e hold
      have hne : k' ≠ k := fun heq => hsome (heq ▸ hnone)
      exact ⟨k', hk', by rw [hother k' hne]; exact hsome⟩
    · rw [List.mem_singleton] at hlast
      subst hlast
      exact ⟨k, rfl, by simp [hnew]⟩

theorem agreement_update {s s' : σ} {k : V.Key} {rec : Record V.Stamp} {status : String}
    (h : Agreement V s) (hrec : V.record s k = some rec)
    (hnew : V.record s' k = some { rec with status := status })
    (hother : ∀ k', k' ≠ k → V.record s' k' = V.record s k')
    (hlog : V.log s' = V.log s ++ [⟨some k, false, status⟩]) : Agreement V s' := by
  constructor
  · intro k' rec' hrec'
    rw [events_append hlog]
    by_cases hk : k' = k
    · subst hk
      rw [hnew, Option.some.injEq] at hrec'
      subst hrec'
      obtain ⟨first, rest, hevents, hfirst, hrest, -⟩ := h.history k' rec hrec
      rw [if_pos rfl, hevents]
      refine ⟨first, rest ++ [⟨some k', false, status⟩], rfl, hfirst, ?_, by
        rw [List.getLast?_append_of_ne_nil _ (by simp)]; rfl⟩
      intro e he
      rcases List.mem_append.mp he with hold | hlast
      · exact hrest e hold
      · rw [List.mem_singleton] at hlast
        rw [hlast]
    · rw [if_neg (fun heq => hk (Option.some.inj heq).symm)]
      exact h.history k' rec' ((hother k' hk).symm.trans hrec')
  · intro e he
    rw [hlog] at he
    rcases List.mem_append.mp he with hold | hlast
    · obtain ⟨k', hk', hsome⟩ := h.stored e hold
      refine ⟨k', hk', ?_⟩
      by_cases hk : k' = k
      · rw [hk, hnew]
        simp
      · rw [hother k' hk]
        exact hsome
    · rw [List.mem_singleton] at hlast
      subst hlast
      exact ⟨k, rfl, by simp [hnew]⟩

theorem agrees_step {sys : System σ} (h : Agrees V sys) (a : Action) :
    Agrees V (step S sys a) := by
  rcases step_cases S sys a with ⟨hstore, hpending⟩ | ⟨_, _, _, _, r, e, s', -, hnew, hc, hstep⟩ |
    ⟨id, current, newStatus, hg, -, hstep⟩ | ⟨call, now, eventID, p, s', -, hp, hc, hstep⟩
  · refine ⟨hstore ▸ h.inv, hstore ▸ h.agreement, fun p hp => ?_⟩
    rw [hstore]
    exact h.copies p (hpending p hp)
  · obtain ⟨hinv, -, k, st, -, -, hnone, hrec, hother, hlog⟩ := create_effect h.inv hnew hc
    rw [hstep]
    refine ⟨hinv, agreement_create h.agreement hnone hrec hother hlog, fun p hp => ?_⟩
    refine copies_of_record (h.copies p hp) (fun k' rec' hrec' => ⟨rec'.status, ?_⟩)
    have hne : k' ≠ k := by
      intro heq
      rw [heq, hnone] at hrec'
      cases hrec'
    exact (hother k' hne).trans hrec'
  · rw [hstep]
    refine ⟨h.inv, h.agreement, fun p hp => ?_⟩
    rcases List.mem_append.mp hp with hold | hnew
    · exact h.copies p hold
    · rw [List.mem_singleton] at hnew
      subst hnew
      exact copies_of_read h.inv hg newStatus false
  · obtain ⟨hinv, -, k, rec, -, hrec, hnew, hother, hlog⟩ :=
      commit_effect h.inv (h.copies p (List.mem_of_getElem? hp)) hc
    rw [hstep]
    refine ⟨hinv, agreement_update h.agreement hrec hnew hother hlog, fun q hq => ?_⟩
    obtain ⟨q₀, hq₀, rfl⟩ := List.mem_map.mp hq
    have hcopies : Copies V sys.store q₀ := h.copies q₀ (List.mem_of_mem_eraseIdx hq₀)
    refine copies_of_record (p := q₀) hcopies (fun k' rec' hrec' => ?_)
    by_cases hk : k' = k
    · subst hk
      rw [hrec, Option.some.injEq] at hrec'
      subst hrec'
      exact ⟨p.newStatus, hnew⟩
    · exact ⟨rec'.status, (hother k' hk).trans hrec'⟩

theorem agrees_run {sys : System σ} (h : Agrees V sys) (acts : List Action) :
    Agrees V (run (step S) sys acts) := by
  induction acts generalizing sys with
  | nil => exact h
  | cons a acts ih => exact ih (agrees_step h a)

/-- A record stored after a step was there before it, the status apart, or is created by
the step. -/
theorem record_step {sys : System σ} (h : Agrees V sys) (a : Action) {k : V.Key}
    {rec : Record V.Stamp} (hrec : V.record (step S sys a).store k = some rec) :
    (∃ status, V.record sys.store k = some { rec with status := status }) ∨
      Creates V sys a k rec := by
  rcases step_cases S sys a with ⟨hstore, -⟩ |
    ⟨input, now, requestID, eventID, r, e, s', ha, hnew, hc, hstep⟩ |
    ⟨_, _, _, -, -, hstep⟩ | ⟨call, now, eventID, p, s', -, hp, hc, hstep⟩
  · exact .inl ⟨rec.status, by rw [← hstore]; exact hrec⟩
  · obtain ⟨-, -, k₀, st, hkey, hst, hnone, hfiled, hother, -⟩ := create_effect h.inv hnew hc
    rw [hstep] at hrec
    by_cases hk : k = k₀
    · subst hk
      change V.record s' k = some rec at hrec
      rw [hfiled, Option.some.injEq] at hrec
      subst hrec ha
      refine .inr ⟨input, now, requestID, eventID, requestProto r, rfl, ?_, hkey, hnone, rfl, rfl,
        rfl, hst⟩
      simp only [answer, Service.createRequest, hnew, hc]
    · exact .inl ⟨rec.status, (hother k hk).symm.trans hrec⟩
  · rw [hstep] at hrec
    exact .inl ⟨rec.status, hrec⟩
  · obtain ⟨-, -, k₀, rec₀, -, hrec₀, hnew, hother, -⟩ :=
      commit_effect h.inv (h.copies p (List.mem_of_getElem? hp)) hc
    rw [hstep] at hrec
    by_cases hk : k = k₀
    · subst hk
      change V.record s' k = some rec at hrec
      rw [hnew, Option.some.injEq] at hrec
      subst hrec
      exact .inl ⟨rec₀.status, hrec₀⟩
    · exact .inl ⟨rec.status, (hother k hk).symm.trans hrec⟩

/-- Every stored record keeps the fields of the call that created it. -/
theorem record_origin {sys : System σ} (h : Agrees V sys)
    (hempty : ∀ k, V.record sys.store k = none) (acts : List Action) {k : V.Key}
    {rec : Record V.Stamp} (hrec : V.record (run (step S) sys acts).store k = some rec) :
    ∃ pre a post, acts = pre ++ a :: post ∧ Creates V (run (step S) sys pre) a k rec := by
  induction acts using List.reverseRecOn generalizing rec with
  | nil =>
      rw [run_nil, hempty k] at hrec
      cases hrec
  | append_singleton acts a ih =>
      rw [run_append] at hrec
      rcases record_step (agrees_run h acts) a hrec with ⟨status, hold⟩ | hcreates
      · obtain ⟨pre, b, post, heq, hcreates⟩ := ih hold
        refine ⟨pre, b, post ++ [a], by rw [heq, List.append_assoc, List.cons_append], ?_⟩
        exact hcreates
      · exact ⟨acts, a, [], rfl, hcreates⟩

/-- A call that answers with an error has not touched the store in that step. -/
theorem store_of_error (S : Store σ) (sys : System σ) (a : Action) (e : StatusError)
    (h : answer S sys a = some (.error e)) : (step S sys a).store = sys.store := by
  cases a with
  | createRequest input now requestID eventID =>
      simp only [answer, step, Service.createRequest, Option.some.injEq] at h ⊢
      cases hnew : Service.newRequest input now requestID eventID with
      | error e => rfl
      | ok pair =>
          cases hc : S.createRequestWithEvent sys.store pair.1 pair.2 with
          | error err => simp only [hc]
          | ok s' => simp [hnew, hc] at h
  | read input =>
      simp only [step]
      cases hc : Service.checkUpdate input with
      | error e => rfl
      | ok pair =>
          cases hd : Service.decideUpdate pair.2 (S.getRequest sys.store pair.1) with
          | error e => simp only [hd]
          | ok current => simp only [hd]
  | write call now eventID =>
      simp only [answer, step] at h ⊢
      cases hp : sys.pending[call]? with
      | none => rfl
      | some p =>
          cases hc : commit S sys.store p now eventID with
          | error err => simp only [hc]
          | ok s' => simp [hp, hc] at h
  | abort call => rfl

/-- What a run of interleaved calls guarantees about requests and outbox. -/
structure OutboxConsistent (V : TableView S) (sys : System σ) (acts : List Action) : Prop where
  agreement : Agreement V (run (step S) sys acts).store
  origin : ∀ k rec, V.record (run (step S) sys acts).store k = some rec →
    ∃ pre a post, acts = pre ++ a :: post ∧ Creates V (run (step S) sys pre) a k rec
  errors : ∀ a e, answer S (run (step S) sys acts) a = some (.error e) →
    (step S (run (step S) sys acts) a).store = (run (step S) sys acts).store

theorem outboxConsistent_of_empty {s : σ} (hinv : V.Inv s) (hrecord : ∀ k, V.record s k = none)
    (hlog : V.log s = []) (acts : List Action) : OutboxConsistent V ⟨s, []⟩ acts := by
  have hstart : Agrees V ⟨s, []⟩ := by
    refine ⟨hinv, ⟨fun k rec hk => ?_, fun e he => ?_⟩, by simp⟩
    · rw [hrecord k] at hk
      cases hk
    · rw [hlog] at he
      cases he
  exact ⟨(agrees_run hstart acts).agreement, fun k rec => record_origin hstart hrecord acts,
    store_of_error S _⟩

/-- Over either store, in every state an interleaving of creations and updates reaches
from empty, requests and outbox agree, every request keeps the fields it was created
with, and a step whose call answers with an error changes neither. -/
theorem outbox_agrees_with_requests (C : Columns) (acts : List Action) :
    OutboxConsistent MemoryStore.table ⟨MemoryStore.empty, []⟩ acts ∧
    OutboxConsistent (PostgresStore.table C) ⟨PostgresStore.empty, []⟩ acts :=
  ⟨outboxConsistent_of_empty MemoryStore.filed_empty (fun _ => rfl) rfl acts,
    outboxConsistent_of_empty List.nodup_nil (fun _ => rfl) rfl acts⟩

end SecureSdlc.Domain

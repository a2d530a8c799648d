import SecureSdlc.Core.Run
import SecureSdlc.Metatheory.StoreRefinement

/-!
Interleavings of `CreateRequest` and `UpdateRequestStatus` over one store. The
transition check of a call is made on the copy it read; its write is unconditional.
A run keeps the lifecycle exactly when no call commits after another call has
committed to the same request since its read. The table being acyclic, an overtaken
call can never find the status it read again, so the condition is also necessary.
-/

namespace SecureSdlc.Domain

open Core

variable {σ : Type} {S : Store σ}

theorem created_eventType {input : CreateRequestRequest} {now : GoText.UtcTime}
    {requestID eventID : String} {r : Request} {e : Event}
    (h : Service.newRequest input now requestID eventID = .ok (r, e)) :
    e.eventType = eventTypeRequestCreated := by
  rw [(Service.newRequest_ok h).2]

theorem created_status {input : CreateRequestRequest} {now : GoText.UtcTime}
    {requestID eventID : String} {r : Request} {e : Event}
    (h : Service.newRequest input now requestID eventID = .ok (r, e)) :
    r.status = statusCreated := by
  rw [(Service.newRequest_ok h).1]

/-- What a waiting call knows of the request it read, in the current store. -/
def PendingOk (V : StoreView S) (s : σ) (p : Pending) : Prop :=
  ∃ k status, p.current.id = V.text k ∧ V.status s k = some status ∧
    canTransition p.current.status p.newStatus = true ∧
    (p.overtaken = false → status = p.current.status) ∧
    (p.overtaken = true → lifecycleRank p.current.status < lifecycleRank status)

/-- The invariant of runs without an overtaken commit. -/
structure Coherent (V : StoreView S) (sys : System σ) : Prop where
  store : V.Inv sys.store
  unborn : ∀ k, V.status sys.store k = none → V.changes sys.store k = []
  path : ∀ k status, V.status sys.store k = some status →
    LegalPath statusCreated (V.changes sys.store k) ∧
      lastStatus statusCreated (V.changes sys.store k) = status
  pending : ∀ p ∈ sys.pending, PendingOk V sys.store p

/-- The status change a step commits, if any, records the status stored just before it
and follows an edge of the table. -/
def CommitLawful (V : StoreView S) (sys : System σ) (a : Action) : Prop :=
  ∀ k, V.changes (step S sys a).store k = V.changes sys.store k ∨
    ∃ status newStatus, V.status sys.store k = some status ∧
      canTransition status newStatus = true ∧
      V.changes (step S sys a).store k = V.changes sys.store k ++ [(status, newStatus)]

/-- A step does not commit a call that was overtaken after its read. -/
def NotOvertaken (S : Store σ) (sys : System σ) (a : Action) : Prop :=
  ∀ call now eventID p s', a = .write call now eventID → sys.pending[call]? = some p →
    commit S sys.store p now eventID = .ok s' → p.overtaken = false

/-- The effect of an accepted write on the reading of the store. -/
theorem commit_spec (V : StoreView S) {s s' : σ} {p : Pending} {k : V.Key}
    {now : GoText.UtcTime} {eventID : String} (hs : V.Inv s) (hid : p.current.id = V.text k)
    (h : commit S s p now eventID = .ok s') :
    V.Inv s' ∧ V.status s k ≠ none ∧ V.status s' k = some p.newStatus ∧
      (∀ k', k' ≠ k → V.status s' k' = V.status s k') ∧
      V.changes s' k = V.changes s k ++ [(p.current.status, p.newStatus)] ∧
      ∀ k', k' ≠ k → V.changes s' k' = V.changes s k' :=
  V.update_spec (r := { p.current with status := p.newStatus }) hs hid h rfl rfl

theorem step_write {sys : System σ} {call : Nat} {now : GoText.UtcTime} {eventID : String}
    {p : Pending} {s' : σ} (hp : sys.pending[call]? = some p)
    (hc : commit S sys.store p now eventID = .ok s') :
    step S sys (.write call now eventID) =
      ⟨s', overtake p.current.id (sys.pending.eraseIdx call)⟩ := by
  simp [step, hp, hc]

theorem commitLawful_of_notOvertaken (V : StoreView S) {sys : System σ} {a : Action}
    (h : Coherent V sys) (hn : NotOvertaken S sys a) : CommitLawful V sys a := by
  intro k
  rcases step_cases S sys a with ⟨hstore, -⟩ | ⟨_, _, _, _, r, e, s', -, hnew, hc, hstep⟩ |
    ⟨_, _, _, -, -, hstep⟩ | ⟨call, now, eventID, p, s', ha, hp, hc, hstep⟩
  · exact .inl (by rw [hstore])
  · obtain ⟨-, _, -, -, -, hchanges⟩ := V.create_spec h.store hc (created_eventType hnew)
    exact .inl (by rw [hstep]; exact hchanges k)
  · exact .inl (by rw [hstep])
  · obtain ⟨k₀, status, hid, hstatus, hedge, hfresh, -⟩ :=
      h.pending p (List.mem_of_getElem? hp)
    obtain ⟨-, -, -, -, hown, hother⟩ := commit_spec V h.store hid hc
    have hsame := hfresh (hn call now eventID p s' ha hp hc)
    subst hsame
    rw [hstep]
    by_cases hk : k = k₀
    · subst hk
      exact .inr ⟨p.current.status, p.newStatus, hstatus, hedge, hown⟩
    · exact .inl (hother k hk)

theorem notOvertaken_of_commitLawful (V : StoreView S) {sys : System σ} {a : Action}
    (h : Coherent V sys) (hl : CommitLawful V sys a) : NotOvertaken S sys a := by
  intro call now eventID p s' ha hp hc
  subst ha
  obtain ⟨k, status, hid, hstatus, -, -, hstale⟩ := h.pending p (List.mem_of_getElem? hp)
  obtain ⟨-, -, -, -, hown, -⟩ := commit_spec V h.store hid hc
  have hk := hl k
  rw [step_write hp hc, hown] at hk
  rcases hk with hsame | ⟨status', newStatus, hstatus', -, happ⟩
  · simp at hsame
  · have hprev : p.current.status = status := by
      rw [hstatus, Option.some.injEq] at hstatus'
      have hlast := List.append_cancel_left happ
      simp only [List.cons.injEq, Prod.mk.injEq, and_true] at hlast
      exact hlast.1.trans hstatus'.symm
    by_contra hover
    have hlt := hstale (by simpa using hover)
    rw [hprev] at hlt
    exact Nat.lt_irrefl _ hlt

theorem pendingOk_of_status_eq (V : StoreView S) {s s' : σ} {p : Pending}
    (h : PendingOk V s p) (same : ∀ k, V.status s k ≠ none → V.status s' k = V.status s k) :
    PendingOk V s' p := by
  obtain ⟨k, status, hid, hstatus, rest⟩ := h
  exact ⟨k, status, hid, by rw [same k (by simp [hstatus]), hstatus], rest⟩

/-- The calls still waiting after a commit to `k`: those on `k` are overtaken by a
status strictly further along, the others are untouched. -/
theorem pendingOk_overtake (V : StoreView S) {s s' : σ} {p q : Pending} {k : V.Key}
    (hid : p.current.id = V.text k) (hstatus : V.status s k = some p.current.status)
    (hedge : canTransition p.current.status p.newStatus = true)
    (hnew : V.status s' k = some p.newStatus)
    (hother : ∀ k', k' ≠ k → V.status s' k' = V.status s k') (hq : PendingOk V s q) :
    PendingOk V s' { q with overtaken := q.overtaken || q.current.id == p.current.id } := by
  obtain ⟨kq, statusq, hidq, hstatusq, hedgeq, hfresh, hstale⟩ := hq
  by_cases hk : kq = k
  · subst hk
    rw [hstatus, Option.some.injEq] at hstatusq
    subst hstatusq
    have hup := canTransition_rank hedge
    have hlt : lifecycleRank q.current.status < lifecycleRank p.newStatus := by
      cases ho : q.overtaken with
      | false => rw [← hfresh ho]; exact hup
      | true => exact Nat.lt_trans (hstale ho) hup
    exact ⟨kq, p.newStatus, hidq, hnew, hedgeq, by simp [hid, hidq], fun _ => hlt⟩
  · have hne : (q.current.id == p.current.id) = false := by
      rw [hid, hidq, beq_eq_false_iff_ne]
      exact fun heq => hk (V.text_injective heq)
    refine ⟨kq, statusq, hidq, (hother kq hk).trans hstatusq, hedgeq, ?_, ?_⟩
    · simpa only [hne, Bool.or_false] using hfresh
    · simpa only [hne, Bool.or_false] using hstale

theorem coherent_create (V : StoreView S) {sys : System σ} {r : Request} {e : Event} {s' : σ}
    (h : Coherent V sys) (hc : S.createRequestWithEvent sys.store r e = .ok s')
    (he : e.eventType = eventTypeRequestCreated) (hr : r.status = statusCreated) :
    Coherent V { sys with store := s' } := by
  obtain ⟨hinv, k, hnone, hnew, hother, hchanges⟩ := V.create_spec h.store hc he
  refine ⟨hinv, fun k' hk' => ?_, fun k' status hk' => ?_, fun p hp => ?_⟩
  · have hne : k' ≠ k := by
      intro heq
      subst heq
      simp [hnew] at hk'
    change V.changes s' k' = []
    rw [hchanges]
    exact h.unborn k' ((hother k' hne).symm.trans hk')
  · change LegalPath statusCreated (V.changes s' k') ∧ _
    change V.status s' k' = some status at hk'
    simp only [hchanges]
    by_cases heq : k' = k
    · subst heq
      rw [hnew, Option.some.injEq] at hk'
      rw [h.unborn k' hnone, ← hk', hr]
      exact ⟨trivial, rfl⟩
    · exact h.path k' status ((hother k' heq).symm.trans hk')
  · refine pendingOk_of_status_eq V (h.pending p hp) (fun k' hk' => hother k' ?_)
    intro heq
    subst heq
    exact hk' hnone

theorem coherent_read (V : StoreView S) {sys : System σ} {id newStatus : String}
    {current : Request} (h : Coherent V sys) (hg : S.getRequest sys.store id = .ok current)
    (hedge : canTransition current.status newStatus = true) :
    Coherent V { sys with pending := sys.pending ++ [⟨current, newStatus, false⟩] } := by
  refine ⟨h.store, h.unborn, h.path, fun p hp => ?_⟩
  rcases List.mem_append.mp hp with hold | hnew
  · exact h.pending p hold
  · obtain ⟨k, hid, hstatus⟩ := V.get_spec h.store hg
    rw [List.mem_singleton] at hnew
    subst hnew
    exact ⟨k, current.status, hid, hstatus, hedge, fun _ => rfl, by simp⟩

theorem coherent_write (V : StoreView S) {sys : System σ} {call : Nat}
    {now : GoText.UtcTime} {eventID : String} {p : Pending} {s' : σ} (h : Coherent V sys)
    (hp : sys.pending[call]? = some p) (hc : commit S sys.store p now eventID = .ok s')
    (hfreshp : p.overtaken = false) :
    Coherent V ⟨s', overtake p.current.id (sys.pending.eraseIdx call)⟩ := by
  obtain ⟨k, status, hid, hstatus, hedge, hfresh, -⟩ := h.pending p (List.mem_of_getElem? hp)
  have hsame := hfresh hfreshp
  subst hsame
  obtain ⟨hinv, -, hnew, hother, hown, hrest⟩ := commit_spec V h.store hid hc
  refine ⟨hinv, fun k' hk' => ?_, fun k' status' hk' => ?_, fun q hq => ?_⟩
  · by_cases heq : k' = k
    · subst heq
      simp [hnew] at hk'
    · change V.changes s' k' = []
      rw [hrest k' heq]
      exact h.unborn k' ((hother k' heq).symm.trans hk')
  · change LegalPath statusCreated (V.changes s' k') ∧
      lastStatus statusCreated (V.changes s' k') = status'
    change V.status s' k' = some status' at hk'
    by_cases heq : k' = k
    · subst heq
      obtain ⟨hpath, hlast⟩ := h.path k' _ hstatus
      rw [hnew, Option.some.injEq] at hk'
      rw [hown, legalPath_append_singleton, lastStatus_append_singleton, hlast]
      exact ⟨⟨hpath, rfl, hedge⟩, hk'⟩
    · rw [hrest k' heq]
      exact h.path k' status' ((hother k' heq).symm.trans hk')
  · obtain ⟨q₀, hq₀, rfl⟩ := List.mem_map.mp hq
    exact pendingOk_overtake V hid hstatus hedge hnew hother
      (h.pending q₀ (List.mem_of_mem_eraseIdx hq₀))

theorem coherent_step (V : StoreView S) {sys : System σ} {a : Action}
    (h : Coherent V sys) (hn : NotOvertaken S sys a) : Coherent V (step S sys a) := by
  rcases step_cases S sys a with ⟨hstore, hpending⟩ | ⟨_, _, _, _, r, e, s', -, hnew, hc, hstep⟩ |
    ⟨id, current, newStatus, hg, hedge, hstep⟩ | ⟨call, now, eventID, p, s', ha, hp, hc, hstep⟩
  · refine ⟨hstore ▸ h.store, ?_, ?_, fun p hp => ?_⟩
    · rw [hstore]; exact h.unborn
    · rw [hstore]; exact h.path
    · rw [hstore]; exact h.pending p (hpending p hp)
  · rw [hstep]; exact coherent_create V h hc (created_eventType hnew) (created_status hnew)
  · rw [hstep]; exact coherent_read V h hg hedge
  · rw [hstep]; exact coherent_write V h hp hc (hn call now eventID p s' ha hp hc)

/-- A committed step from a coherent state leaves terminal requests alone. -/
theorem terminal_step (V : StoreView S) {sys : System σ} {a : Action} {k : V.Key}
    {status : String} (h : Coherent V sys) (hn : NotOvertaken S sys a)
    (ht : Terminal status) (hk : V.status sys.store k = some status) :
    V.status (step S sys a).store k = some status := by
  rcases step_cases S sys a with ⟨hstore, -⟩ | ⟨_, _, _, _, r, e, s', -, hnew, hc, hstep⟩ |
    ⟨_, _, _, -, -, hstep⟩ | ⟨call, now, eventID, p, s', ha, hp, hc, hstep⟩
  · rw [hstore]; exact hk
  · obtain ⟨-, k₀, hnone, -, hother, -⟩ := V.create_spec h.store hc (created_eventType hnew)
    have hne : k ≠ k₀ := by
      intro heq
      subst heq
      simp [hnone] at hk
    rw [hstep]
    exact (hother k hne).trans hk
  · rw [hstep]; exact hk
  · obtain ⟨k₀, status₀, hid, hstatus, hedge, hfresh, -⟩ :=
      h.pending p (List.mem_of_getElem? hp)
    obtain ⟨-, -, -, hother, -, -⟩ := commit_spec V h.store hid hc
    have hsame := hfresh (hn call now eventID p s' ha hp hc)
    have hne : k ≠ k₀ := by
      intro heq
      subst heq
      rw [hk, Option.some.injEq] at hstatus
      rw [← hsame, ← hstatus, terminal_no_transition ht] at hedge
      cases hedge
    rw [hstep]
    exact (hother k hne).trans hk

/-- The lifecycle along a whole run: every commit records the status stored just before
it and follows an edge; in every state reached the committed changes of each request
form a legal path from `created`; a terminal status is kept. -/
structure LifecycleLawful (V : StoreView S) (sys : System σ) (acts : List Action) : Prop where
  commits : ∀ pre a post, acts = pre ++ a :: post →
    CommitLawful V (run (step S) sys pre) a
  path : ∀ pre post, acts = pre ++ post → ∀ k,
    LegalPath statusCreated (V.changes (run (step S) sys pre).store k)
  final : ∀ pre mid post, acts = pre ++ mid ++ post → ∀ k status, Terminal status →
    V.status (run (step S) sys pre).store k = some status →
    V.status (run (step S) sys (pre ++ mid)).store k = some status

theorem coherent_run (V : StoreView S) {sys : System σ} {acts : List Action}
    (h : Coherent V sys) (hn : AllSteps (step S) (NotOvertaken S) sys acts) :
    Coherent V (run (step S) sys acts) :=
  run_invariant (step S) (NotOvertaken S) (Coherent V)
    (fun _ _ hc ha => coherent_step V hc ha) sys acts h hn

theorem terminal_run (V : StoreView S) {sys : System σ} {acts : List Action} {k : V.Key}
    {status : String} (h : Coherent V sys) (hn : AllSteps (step S) (NotOvertaken S) sys acts)
    (ht : Terminal status) (hk : V.status sys.store k = some status) :
    V.status (run (step S) sys acts).store k = some status := by
  have := run_invariant (step S) (NotOvertaken S)
    (fun s => Coherent V s ∧ V.status s.store k = some status)
    (fun _ _ hc ha => ⟨coherent_step V hc.1 ha, terminal_step V hc.1 ha ht hc.2⟩)
    sys acts ⟨h, hk⟩ hn
  exact this.2

theorem legalPath_of_coherent (V : StoreView S) {sys : System σ} (h : Coherent V sys)
    (k : V.Key) : LegalPath statusCreated (V.changes sys.store k) := by
  cases hk : V.status sys.store k with
  | none => rw [h.unborn k hk]; trivial
  | some status => exact (h.path k status hk).1

/-- A run keeps the lifecycle exactly when no overtaken call commits in it. -/
theorem lifecycleLawful_iff (V : StoreView S) (sys : System σ) (acts : List Action)
    (h : Coherent V sys) :
    LifecycleLawful V sys acts ↔ AllSteps (step S) (NotOvertaken S) sys acts := by
  have hsame := allSteps_congr (step S) (NotOvertaken S) (CommitLawful V) (Coherent V)
    (fun _ _ hc => ⟨commitLawful_of_notOvertaken V hc, notOvertaken_of_commitLawful V hc⟩)
    (fun _ _ hc ha => coherent_step V hc ha) sys acts h
  constructor
  · intro hl
    exact hsame.mpr ((allSteps_iff_split _ _ _ _).mpr hl.commits)
  · intro hn
    refine ⟨(allSteps_iff_split _ _ _ _).mp (hsame.mp hn), ?_, ?_⟩
    · intro pre post heq k
      subst heq
      exact legalPath_of_coherent V
        (coherent_run V h ((allSteps_append _ _ _ _ _).mp hn).1) k
    · intro pre mid post heq k status ht hk
      subst heq
      obtain ⟨hpre, hmid⟩ := (allSteps_append _ _ _ _ _).mp ((allSteps_append _ _ _ _ _).mp hn).1
      rw [run_append]
      exact terminal_run V (coherent_run V h hpre) hmid ht hk

theorem coherent_empty (V : StoreView S) {s : σ} (hinv : V.Inv s)
    (hstatus : ∀ k, V.status s k = none) (hchanges : ∀ k, V.changes s k = []) :
    Coherent V ⟨s, []⟩ :=
  ⟨hinv, fun k _ => hchanges k, fun k status hk => by simp [hstatus] at hk, by simp⟩

/-- Over either store, from empty, the runs that keep the lifecycle are exactly those in
which no call commits after another call committed to the same request since its read. -/
theorem concurrentUpdates_lawful_iff_notOvertaken (C : Columns) (acts : List Action) :
    (LifecycleLawful MemoryStore.view ⟨MemoryStore.empty, []⟩ acts ↔
      AllSteps (step MemoryStore.store) (NotOvertaken MemoryStore.store)
        ⟨MemoryStore.empty, []⟩ acts) ∧
    (LifecycleLawful (PostgresStore.view C) ⟨PostgresStore.empty, []⟩ acts ↔
      AllSteps (step (PostgresStore.store C)) (NotOvertaken (PostgresStore.store C))
        ⟨PostgresStore.empty, []⟩ acts) := by
  refine ⟨lifecycleLawful_iff _ _ acts (coherent_empty _ ?_ ?_ ?_),
    lifecycleLawful_iff _ _ acts (coherent_empty _ ?_ ?_ ?_)⟩
  · intro id r hr
    simp [MemoryStore.empty, Assoc.get] at hr
  all_goals intros; first | rfl | trivial

/-- Two operators read a request in `created`; the one cancelling it commits first, the
one triaging it second. -/
def raceSchedule : List Action :=
  let update (newStatus : String) : UpdateRequestStatusRequest :=
    ⟨"11111111-1111-1111-1111-111111111111", newStatus, "operator-1", "operator"⟩
  [.createRequest ⟨"Reset VPN access", "", "user-1"⟩ GoText.noon
      "11111111-1111-1111-1111-111111111111" "22222222-2222-2222-2222-222222222222",
   .read (update "triaged"),
   .read (update "cancelled"),
   .write 1 GoText.noon "33333333-3333-3333-3333-333333333333",
   .write 0 GoText.noon "44444444-4444-4444-4444-444444444444"]

/-- The race leaves the cancelled request in `triaged`. -/
theorem raceSchedule_reopens_cancelled :
    ¬ LifecycleLawful MemoryStore.view ⟨MemoryStore.empty, []⟩ raceSchedule := by
  intro h
  have hbefore : MemoryStore.storedStatus (run (step MemoryStore.store)
      ⟨MemoryStore.empty, []⟩ (raceSchedule.take 4)).store
      "11111111-1111-1111-1111-111111111111" = some "cancelled" := by decide
  have hafter : MemoryStore.storedStatus (run (step MemoryStore.store)
      ⟨MemoryStore.empty, []⟩ (raceSchedule.take 4 ++ raceSchedule.drop 4)).store
      "11111111-1111-1111-1111-111111111111" = some "triaged" := by decide
  have hkept := h.final (raceSchedule.take 4) (raceSchedule.drop 4) []
    (by rw [List.take_append_drop, List.append_nil])
    "11111111-1111-1111-1111-111111111111" "cancelled" (.inr rfl) hbefore
  exact absurd (hafter.symm.trans hkept) (by decide)

end SecureSdlc.Domain

import SecureSdlc.Core.Run
import SecureSdlc.Metatheory.RequestTable

/-!
Ownership under whole calls of the service. A creation stores its subject as it stands,
a reading compares with the trimmed subject of the caller; the two agree for every
subject without surrounding white space. For any other subject they agree only as long
as nothing is stored under the subject or under its trimmed form.
-/

namespace SecureSdlc.Domain

open Core GoText

variable {σ : Type} {S : RequestStore σ} (V : ListedTable S)

/-- The subject the request under a key was filed with. -/
def ListedTable.owner (s : σ) (k : V.table.Key) : Option String :=
  (V.table.record s k).map Record.subject

/-- The id and subject of the request a call creates. -/
def created (S : RequestStore σ) (s : σ) : Operation → List (String × String)
  | .createRequest input now requestID eventID =>
      match (Service.createRequest S.toStore s input now requestID eventID).1 with
      | .ok _ => [(requestID, input.subject)]
      | .error _ => []
  | _ => []

/-- The successful creations of a history, in order. -/
def creations (S : RequestStore σ) : σ → List Operation → List (String × String)
  | _, [] => []
  | s, op :: ops => created S s op ++ creations S (after S s op) ops

/-- The request an id argument names; a blank one names none. -/
def ListedTable.Names (id : String) (k : V.table.Key) : Prop :=
  trimSpace id ≠ "" ∧ V.table.key (trimSpace id) = some k

/-- The caller `subject` reads by id what it created and nothing else, and is listed
nothing else. -/
structure Owned (s : σ) (history : List (String × String)) (subject role : String) : Prop where
  reads : ∀ id, (∃ proto, Service.getRequest S.toStore s ⟨id, subject, role⟩ = .ok proto) ↔
    ∃ requestID k, (requestID, subject) ∈ history ∧ V.table.key requestID = some k ∧ V.Names id k
  lists : ∀ status filter limit protos,
    Service.listRequests S s ⟨status, filter, limit, subject, role⟩ = .ok protos →
    ∀ p ∈ protos, ∃ requestID k, (requestID, subject) ∈ history ∧
      V.table.key requestID = some k ∧ p.id = V.table.text k

/-- The ids drawn for new requests are not blank and carry no white space around them. -/
def DrawsIds (ops : List Operation) : Prop :=
  ∀ input now requestID eventID, Operation.createRequest input now requestID eventID ∈ ops →
    requestID ≠ "" ∧ trimSpace requestID = requestID

variable {V}

/-- What a call does to the owners: it may add the one of the request it creates. -/
theorem after_spec {s : σ} (hinv : V.table.Inv s) (op : Operation) :
    V.table.Inv (after S s op) ∧ (V.table.Up s → V.table.Up (after S s op)) ∧
      ∀ k x, V.owner (after S s op) k = some x ↔ V.owner s k = some x ∨
        ∃ requestID, (requestID, x) ∈ created S s op ∧ V.table.key requestID = some k := by
  cases op with
  | getRequest input => exact ⟨hinv, fun hup => hup, fun k x => by simp [after, serve, created]⟩
  | listRequests input => exact ⟨hinv, fun hup => hup, fun k x => by simp [after, serve, created]⟩
  | createRequest input now requestID eventID =>
      simp only [after, serve, created, Service.createRequest]
      cases hnew : Service.newRequest input now requestID eventID with
      | error e => exact ⟨hinv, fun hup => hup, fun k x => by simp⟩
      | ok pair =>
          cases hc : S.createRequestWithEvent s pair.1 pair.2 with
          | error e => simpa [hc] using hinv
          | ok s' =>
              obtain ⟨hinv', hup, k₀, st, hkey, -, hnone, hrec, hother, -⟩ :=
                create_effect hinv hnew hc
              simp only [hc]
              refine ⟨hinv', hup, fun k x => ?_⟩
              by_cases hk : k = k₀
              · subst hk
                simp [ListedTable.owner, hrec, hnone, hkey, eq_comm]
              · have hne : V.table.key requestID ≠ some k := by
                  rw [hkey, ne_eq, Option.some.injEq]
                  exact fun heq => hk heq.symm
                simp [ListedTable.owner, hother k hk, hne]
  | updateRequestStatus input now eventID =>
      simp only [after, serve, created, Service.updateRequestStatus]
      cases hcheck : Service.checkUpdate input with
      | error e => exact ⟨hinv, fun hup => hup, fun k x => by simp⟩
      | ok pair =>
          obtain ⟨id, newStatus⟩ := pair
          cases hd : Service.decideUpdate newStatus (S.getRequest s id) with
          | error e => simpa [hd] using hinv
          | ok current =>
              obtain ⟨hg, -⟩ := Service.decideUpdate_ok hd
              cases hc : S.updateRequestStatusWithEvent s
                  (Service.statusChange current newStatus now eventID).1
                  (Service.statusChange current newStatus now eventID).2 with
              | error e => simpa [hd, hc] using hinv
              | ok s' =>
                  have hp : Copies V.table s ⟨current, newStatus, false⟩ :=
                    copies_of_read hinv hg _ _
                  obtain ⟨hinv', hup, k₀, rec, -, hrec, hnew, hother, -⟩ :=
                    commit_effect hinv hp hc
                  simp only [hd, hc]
                  refine ⟨hinv', hup, fun k x => ?_⟩
                  by_cases hk : k = k₀
                  · subst hk
                    simp [ListedTable.owner, hrec, hnew]
                  · simp [ListedTable.owner, hother k hk]

/-- After a history, a key's owner is the one it started with or the subject of the
call that created it. -/
theorem owner_run {s : σ} (hinv : V.table.Inv s) (ops : List Operation) :
    V.table.Inv (run (after S) s ops) ∧ (V.table.Up s → V.table.Up (run (after S) s ops)) ∧
      ∀ k x, V.owner (run (after S) s ops) k = some x ↔ V.owner s k = some x ∨
        ∃ requestID, (requestID, x) ∈ creations S s ops ∧ V.table.key requestID = some k := by
  induction ops generalizing s with
  | nil => exact ⟨hinv, fun hup => hup, fun k x => by simp [creations]⟩
  | cons op ops ih =>
      obtain ⟨hinv', hup, hstep⟩ := after_spec hinv op
      obtain ⟨hinv'', hup', hrest⟩ := ih hinv'
      refine ⟨hinv'', fun h => hup' (hup h), fun k x => ?_⟩
      rw [run_cons, hrest k x, hstep k x]
      simp only [creations, List.mem_append, or_and_right, exists_or, or_assoc]

theorem mem_created {s : σ} {op : Operation} {requestID x : String}
    (h : (requestID, x) ∈ created S s op) :
    x ≠ "" ∧ ∃ input now eventID, op = .createRequest input now requestID eventID := by
  cases op with
  | createRequest input now id eventID =>
      simp only [created, Service.createRequest] at h
      cases hnew : Service.newRequest input now id eventID with
      | error e => simp [hnew] at h
      | ok pair =>
          have hne := Service.newRequest_subject_ne hnew
          cases hc : S.createRequestWithEvent s pair.1 pair.2 with
          | error e => simp [hnew, hc] at h
          | ok s' =>
              simp only [hnew, hc, List.mem_singleton, Prod.mk.injEq] at h
              rw [h.1, h.2]
              exact ⟨hne, input, now, eventID, rfl⟩
  | updateRequestStatus _ _ _ => simp [created] at h
  | getRequest _ => simp [created] at h
  | listRequests _ => simp [created] at h

theorem mem_creations {s : σ} {ops : List Operation} {requestID x : String}
    (h : (requestID, x) ∈ creations S s ops) :
    x ≠ "" ∧ ∃ input now eventID, Operation.createRequest input now requestID eventID ∈ ops := by
  induction ops generalizing s with
  | nil => simp [creations] at h
  | cons op ops ih =>
      rcases List.mem_append.mp h with hfirst | hrest
      · obtain ⟨hne, input, now, eventID, heq⟩ := mem_created hfirst
        exact ⟨hne, input, now, eventID, heq ▸ List.mem_cons_self⟩
      · obtain ⟨hne, input, now, eventID, hmem⟩ := ih hrest
        exact ⟨hne, input, now, eventID, List.mem_cons_of_mem _ hmem⟩

/-- A created request is named by the id drawn for it. -/
theorem names_of_mem_creations {s : σ} {ops : List Operation} (hids : DrawsIds ops)
    {requestID x : String} (h : (requestID, x) ∈ creations S s ops) {k : V.table.Key}
    (hkey : V.table.key requestID = some k) : V.Names requestID k := by
  obtain ⟨-, input, now, eventID, hop⟩ := mem_creations h
  obtain ⟨hne, hid⟩ := hids input now requestID eventID hop
  exact ⟨by rw [hid]; exact hne, by rw [hid]; exact hkey⟩

theorem ListedTable.Names.unique {id : String} {k k' : V.table.Key} (h : V.Names id k)
    (h' : V.Names id k') : k = k' :=
  Option.some.inj (h.2.symm.trans h'.2)

/-- A caller who is not an operator reads exactly the requests filed under its trimmed
subject. -/
theorem getRequest_succeeds_iff {s : σ} {role : String} (hinv : V.table.Inv s)
    (hup : V.table.Up s) (hrole : trimSpace role ≠ roleOperator) (subject id : String) :
    (∃ proto, Service.getRequest S.toStore s ⟨id, subject, role⟩ = .ok proto) ↔
      trimSpace subject ≠ "" ∧ ∃ k, V.Names id k ∧ V.owner s k = some (trimSpace subject) := by
  simp only [Service.getRequest_eq_ok, hrole, false_or]
  constructor
  · rintro ⟨proto, hid, hactor, r, hg, hsubject, -⟩
    obtain ⟨k, rec, hkey, hrec, rfl⟩ := V.table.get_spec hinv hg
    exact ⟨hactor, k, ⟨hid, hkey⟩, by simpa [ListedTable.owner, hrec] using hsubject⟩
  · rintro ⟨hactor, k, ⟨hid, hkey⟩, howner⟩
    obtain ⟨rec, hrec, hsubject⟩ := Option.map_eq_some_iff.mp howner
    obtain ⟨r, hg⟩ := V.table.get_found hup hkey hrec
    obtain ⟨k', rec', hkey', hrec', rfl⟩ := V.table.get_spec hinv hg
    rw [hkey, Option.some.injEq] at hkey'
    subst hkey'
    rw [hrec, Option.some.injEq] at hrec'
    subst hrec'
    exact ⟨_, hid, hactor, _, hg, hsubject, rfl⟩

/-- Such a caller is listed only requests filed under its trimmed subject. -/
theorem listRequests_owner {s : σ} (hinv : V.table.Inv s) (input : ListRequestsRequest)
    {protos : List RequestProto} (hrole : trimSpace input.actorRole ≠ roleOperator)
    (h : Service.listRequests S s input = .ok protos) {p : RequestProto} (hp : p ∈ protos) :
    ∃ k, p.id = V.table.text k ∧ V.owner s k = some (trimSpace input.actorSubject) := by
  obtain ⟨filter, rs, hfilter, hlist, rfl⟩ := Service.listRequests_ok h
  obtain ⟨hsubject, hne⟩ := Service.listFilter_subject input hrole hfilter
  obtain ⟨r, hr, rfl⟩ := List.mem_map.mp hp
  obtain ⟨k, rec, hrec, hadmits, rfl⟩ := V.list_spec hinv hlist r hr
  have hown := ListFilter.subject_of_admits hne hadmits
  exact ⟨k, rfl, by simp [ListedTable.owner, hrec, hown, hsubject]⟩

/-- Over an empty store, ownership holds after a history exactly for a caller without
white space around its subject, or with nothing stored under it or its trimmed form. -/
theorem owned_iff {s : σ} (hinv : V.table.Inv s) (hup : V.table.Up s)
    (hempty : ∀ k, V.table.record s k = none) {ops : List Operation} (hids : DrawsIds ops)
    {subject role : String} (hsubject : subject ≠ "") (hrole : trimSpace role ≠ roleOperator) :
    Owned V (run (after S) s ops) (creations S s ops) subject role ↔
      trimSpace subject = subject ∨ ∀ k, V.owner (run (after S) s ops) k ≠ some subject ∧
        V.owner (run (after S) s ops) k ≠ some (trimSpace subject) := by
  obtain ⟨hinv', hup', howner⟩ := owner_run hinv ops
  have hstart : ∀ k, V.owner s k = none := fun k => by simp [ListedTable.owner, hempty k]
  have hfiled : ∀ k x, V.owner (run (after S) s ops) k = some x ↔
      ∃ requestID, (requestID, x) ∈ creations S s ops ∧ V.table.key requestID = some k := by
    intro k x
    simp [howner k x, hstart k]
  have hreads := getRequest_succeeds_iff hinv' (hup' hup) hrole subject
  constructor
  · intro h
    by_cases htrim : trimSpace subject = subject
    · exact .inl htrim
    refine .inr (fun k => ⟨fun hk => ?_, fun hk => ?_⟩)
    · -- the creator's own reading fails
      obtain ⟨requestID, hmem, hkey⟩ := (hfiled k subject).mp hk
      have hnames : V.Names requestID k := names_of_mem_creations hids hmem hkey
      obtain ⟨-, k', hnames', hk'⟩ := (hreads requestID).mp
        ((h.reads requestID).mpr ⟨requestID, k, hmem, hkey, hnames⟩)
      rw [hnames'.unique hnames, hk, Option.some.injEq] at hk'
      exact htrim hk'.symm
    · -- a request of the trimmed subject is read by another caller
      obtain ⟨requestID, hmem, hkey⟩ := (hfiled k _).mp hk
      have hnames : V.Names requestID k := names_of_mem_creations hids hmem hkey
      obtain ⟨requestID', k', hmem', hkey', hnames'⟩ := (h.reads requestID).mp
        ((hreads requestID).mpr ⟨(mem_creations hmem).1, k, hnames, hk⟩)
      have hk' := (hfiled k' subject).mpr ⟨requestID', hmem', hkey'⟩
      rw [hnames'.unique hnames, hk, Option.some.injEq] at hk'
      exact htrim hk'
  · intro h
    have hsame : ∀ k, V.owner (run (after S) s ops) k = some (trimSpace subject) ↔
        V.owner (run (after S) s ops) k = some subject := by
      intro k
      rcases h with htrim | hnone
      · rw [htrim]
      · exact ⟨fun hk => absurd hk (hnone k).2, fun hk => absurd hk (hnone k).1⟩
    constructor
    · intro id
      rw [hreads id]
      constructor
      · rintro ⟨-, k, hnames, hk⟩
        obtain ⟨requestID, hmem, hkey⟩ := (hfiled k subject).mp ((hsame k).mp hk)
        exact ⟨requestID, k, hmem, hkey, hnames⟩
      · rintro ⟨requestID, k, hmem, hkey, hnames⟩
        have hk := (hfiled k subject).mpr ⟨requestID, hmem, hkey⟩
        refine ⟨fun hblank => ?_, k, hnames, (hsame k).mpr hk⟩
        rcases h with htrim | hnone
        · exact hsubject (htrim ▸ hblank)
        · exact (hnone k).1 hk
    · intro status filter limit protos hlist p hp
      obtain ⟨k, hid, hk⟩ := listRequests_owner hinv'
        ⟨status, filter, limit, subject, role⟩ hrole hlist hp
      obtain ⟨requestID, hmem, hkey⟩ := (hfiled k subject).mp ((hsame k).mp hk)
      exact ⟨requestID, k, hmem, hkey, hid⟩

/-- Over either store, after every history of calls, a caller who is not an operator owns
what it can read exactly when its subject has no white space around it, or nothing is
stored under the subject or its trimmed form. -/
theorem ownership_iff_subject_trimmed_or_absent (C : OrderedColumns) (ops : List Operation)
    (hids : DrawsIds ops) (subject role : String) (hsubject : subject ≠ "")
    (hrole : trimSpace role ≠ roleOperator) :
    (Owned MemoryStore.listedTable (run (after MemoryStore.requestStore) MemoryStore.empty ops)
        (creations MemoryStore.requestStore MemoryStore.empty ops) subject role ↔
      trimSpace subject = subject ∨
        ∀ k, MemoryStore.listedTable.owner
            (run (after MemoryStore.requestStore) MemoryStore.empty ops) k ≠ some subject ∧
          MemoryStore.listedTable.owner
            (run (after MemoryStore.requestStore) MemoryStore.empty ops) k ≠
              some (trimSpace subject)) ∧
    (Owned (PostgresStore.listedTable C)
        (run (after (PostgresStore.requestStore C)) PostgresStore.empty ops)
        (creations (PostgresStore.requestStore C) PostgresStore.empty ops) subject role ↔
      trimSpace subject = subject ∨
        ∀ k, (PostgresStore.listedTable C).owner
            (run (after (PostgresStore.requestStore C)) PostgresStore.empty ops) k ≠
              some subject ∧
          (PostgresStore.listedTable C).owner
            (run (after (PostgresStore.requestStore C)) PostgresStore.empty ops) k ≠
              some (trimSpace subject)) :=
  ⟨owned_iff MemoryStore.filed_empty rfl (fun _ => rfl) hids hsubject hrole,
    owned_iff List.nodup_nil rfl (fun _ => rfl) hids hsubject hrole⟩

/-- One request, filed by the caller `subject`. -/
def filedBy (subject : String) : List Operation :=
  [.createRequest ⟨"Reset VPN access", "", subject⟩ GoText.noon
    "11111111-1111-1111-1111-111111111111" "22222222-2222-2222-2222-222222222222"]

theorem filedBy_drawsIds (subject : String) : DrawsIds (filedBy subject) := by
  intro input now requestID eventID h
  simp only [filedBy, List.mem_singleton, Operation.createRequest.injEq] at h
  rw [h.2.2.1]
  exact ⟨by decide, by decide⟩

theorem ownership_of_alice :
    DrawsIds (filedBy "alice") ∧ "alice" ≠ "" ∧ trimSpace "user" ≠ roleOperator ∧
    creations MemoryStore.requestStore MemoryStore.empty (filedBy "alice") =
      [("11111111-1111-1111-1111-111111111111", "alice")] ∧
    Owned MemoryStore.listedTable
      (run (after MemoryStore.requestStore) MemoryStore.empty (filedBy "alice"))
      (creations MemoryStore.requestStore MemoryStore.empty (filedBy "alice")) "alice" "user" ∧
    Owned (PostgresStore.listedTable textualColumns)
      (run (after (PostgresStore.requestStore textualColumns)) PostgresStore.empty
        (filedBy "alice"))
      (creations (PostgresStore.requestStore textualColumns) PostgresStore.empty
        (filedBy "alice")) "alice" "user" := by
  have h := ownership_iff_subject_trimmed_or_absent textualColumns (filedBy "alice")
    (filedBy_drawsIds "alice") "alice" "user" (by decide) (by decide)
  exact ⟨filedBy_drawsIds "alice", by decide, by decide, by decide,
    h.1.mpr (.inl (by decide)), h.2.mpr (.inl (by decide))⟩

/-- A caller whose subject starts with a blank cannot read the request it created. -/
theorem padded_subject_not_owned :
    ¬ Owned MemoryStore.listedTable
      (run (after MemoryStore.requestStore) MemoryStore.empty (filedBy " alice"))
      (creations MemoryStore.requestStore MemoryStore.empty (filedBy " alice"))
      " alice" "user" := by
  intro h
  have hcreated : ("11111111-1111-1111-1111-111111111111", " alice") ∈
      creations MemoryStore.requestStore MemoryStore.empty (filedBy " alice") := by decide
  have hnames : MemoryStore.listedTable.Names "11111111-1111-1111-1111-111111111111"
      "11111111-1111-1111-1111-111111111111" :=
    ⟨by decide, congrArg some (by decide)⟩
  obtain ⟨proto, hread⟩ := (h.reads _).mpr ⟨_, _, hcreated, rfl, hnames⟩
  have hmissing : Service.getRequest MemoryStore.store
      (run (after MemoryStore.requestStore) MemoryStore.empty (filedBy " alice"))
      ⟨"11111111-1111-1111-1111-111111111111", " alice", "user"⟩ =
        .error ⟨.notFound, "request not found"⟩ := by decide
  exact absurd (hmissing.symm.trans hread) (by simp)

end SecureSdlc.Domain

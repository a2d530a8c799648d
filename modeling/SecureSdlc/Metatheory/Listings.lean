import SecureSdlc.Core.Run
import SecureSdlc.Metatheory.StoreEquivalence

/-!
Listings of the in-memory store, whatever order a map is ranged over in and however an
unstable sort leaves its ties: no two requests that a schedule stores are tied.
-/

namespace SecureSdlc.Domain

open Core GoText

/-- The freedom that Go leaves: the order of a range over a map, and which of the sorted
permutations `sort.Slice` makes. -/
structure GoOrder where
  range : List Request → List Request
  sort : List Request → List Request
  range_perm : ∀ requests, (range requests).Perm requests
  sort_perm : ∀ requests, (sort requests).Perm requests
  sort_ordered : ∀ requests,
    (sort requests).Pairwise fun r s => MemoryStore.less s r = false

namespace MemoryStore

/-- `ListRequests` in the order that Go takes. -/
def listRequestsIn (order : GoOrder) (m : MemoryStore) (filter : ListFilter) :
    Except StoreError (List Request) :=
  match m.failWith with
  | some message => .error (.failure message)
  | none =>
      let out := (order.range (m.requests.map Prod.snd)).filter fun r =>
        filter.admits r.status r.subject
      .ok (truncate filter.limit (order.sort out))

def requestStoreIn (order : GoOrder) : RequestStore MemoryStore :=
  { store with listRequests := listRequestsIn order }

/-- What a schedule keeps: requests are filed under their ids, and the store answers. -/
def Sound (m : MemoryStore) : Prop := m.Filed ∧ m.failWith = none

theorem step_sound {sys : System MemoryStore} (h : sys.store.Sound) (a : Action) :
    (step store sys a).store.Sound := by
  rcases step_cases store sys a with ⟨hsame, -⟩ |
    ⟨input, now, requestID, eventID, r, e, s', -, -, hcreate, hstep⟩ |
    ⟨id, current, newStatus, -, -, hstep⟩ | ⟨call, now, eventID, p, s', -, -, hcommit, hstep⟩
  · rw [hsame]
    exact h
  · obtain ⟨-, rfl⟩ := createRequestWithEvent_ok hcreate
    rw [hstep]
    exact ⟨filed_set h.1 _ _ _, h.2⟩
  · rw [hstep]
    exact h
  · obtain ⟨-, rfl⟩ := updateRequestStatusWithEvent_ok hcommit
    rw [hstep]
    exact ⟨filed_set h.1 _ _ _, h.2⟩

theorem run_sound (actions : List Action) : (run (step store) ⟨empty, []⟩ actions).store.Sound :=
  run_keeps (step store) (fun sys => sys.store.Sound) (fun _ a h => step_sound h a) _
    actions ⟨filed_empty, rfl⟩

/-- Two stored requests that no listing tells apart are one. -/
theorem eq_of_less {m : MemoryStore} (h : m.Filed) {r s : Request}
    (hr : r ∈ m.requests.map Prod.snd) (hs : s ∈ m.requests.map Prod.snd)
    (hrs : less s r = false) (hsr : less r s = false) : r = s := by
  obtain ⟨⟨id, r⟩, hentry, rfl⟩ := List.mem_map.mp hr
  obtain ⟨⟨id', s⟩, hentry', rfl⟩ := List.mem_map.mp hs
  have hr := Assoc.get_of_mem h.2 hentry
  have hs := Assoc.get_of_mem h.2 hentry'
  obtain rfl := h.1 _ _ hr
  obtain rfl := h.1 _ _ hs
  have hid := id_eq_of_less hrs hsr
  rw [hid, hs, Option.some.injEq] at hr
  exact hr.symm

theorem mem_values_iff {m : MemoryStore} (h : m.Filed) {r : Request} :
    r ∈ m.requests.map Prod.snd ↔ Assoc.get m.requests r.id = some r := by
  rw [List.mem_map]
  constructor
  · rintro ⟨⟨id, r⟩, hentry, rfl⟩
    have hget := Assoc.get_of_mem h.2 hentry
    obtain rfl := h.1 _ _ hget
    exact hget
  · intro hget
    exact ⟨(r.id, r), Assoc.mem_of_get hget, rfl⟩

theorem nodup_values {m : MemoryStore} (h : m.Filed) : (m.requests.map Prod.snd).Nodup := by
  have hkeys : m.requests.map Prod.fst = (m.requests.map Prod.snd).map Request.id := by
    rw [List.map_map]
    refine List.map_congr_left fun entry hentry => ?_
    exact (h.1 _ _ (Assoc.get_of_mem h.2 hentry)).symm
  have hunique := h.2
  rw [Assoc.Unique, hkeys] at hunique
  exact List.Nodup.of_map _ hunique

/-- Whatever Go's order, a listing is the cut of the one sorted list. -/
theorem listRequestsIn_eq {m : MemoryStore} (h : m.Sound) (order : GoOrder) (filter : ListFilter) :
    m.listRequestsIn order filter = m.listRequests filter := by
  simp only [listRequestsIn, listRequests, h.2]
  have hranged := (order.range_perm (m.requests.map Prod.snd)).filter fun r =>
    filter.admits r.status r.subject
  have hperm := (order.sort_perm _).trans
    (hranged.trans (List.perm_insertionSort (fun r s => less s r = false) _).symm)
  congr 2
  refine hperm.eq_of_pairwise ?_ (order.sort_ordered _) (List.pairwise_insertionSort _ _)
  intro r s hr hs hrs hsr
  have hr' := (order.range_perm _).subset (List.mem_of_mem_filter ((order.sort_perm _).subset hr))
  rw [List.mem_insertionSort] at hs
  exact eq_of_less h.1 hr' (List.mem_of_mem_filter hs) hrs hsr

end MemoryStore

/-- The subject that a caller's listing is narrowed to; blank for all. -/
def effectiveSubject (input : ListRequestsRequest) : String :=
  if trimSpace input.actorRole = roleOperator then trimSpace input.subject
  else trimSpace input.actorSubject

/-- The caller is named, and the status asked for is one of the lifecycle or none. -/
def Accepted (input : ListRequestsRequest) : Prop :=
  trimSpace input.actorSubject ≠ "" ∧
    (trimSpace input.status = "" ∨ (Assoc.get transitions (trimSpace input.status)).isSome = true)

def Matches (input : ListRequestsRequest) (r : Request) : Prop :=
  (trimSpace input.status = "" ∨ r.status = trimSpace input.status) ∧
    (effectiveSubject input = "" ∨ r.subject = effectiveSubject input)

def pageSize (limit : Int) : Nat :=
  if limit ≤ 0 then 50 else if 200 < limit then 200 else limit.toNat

/-- Later creation first, and the greater id first of those created together. -/
def Newer (r s : Request) : Prop :=
  before s.createdAt r.createdAt = true ∨ r.createdAt = s.createdAt ∧ before s.id r.id = true

/-- The matching requests of the store, each once, the newest first. -/
structure Ranking (m : MemoryStore) (input : ListRequestsRequest) (ranking : List Request) :
    Prop where
  mem_iff : ∀ r, r ∈ ranking ↔ Assoc.get m.requests r.id = some r ∧ Matches input r
  nodup : ranking.Nodup
  ordered : ranking.Pairwise Newer

theorem newer_of_less {r s : Request} (h : MemoryStore.less r s = true) : Newer r s := by
  simp only [MemoryStore.less] at h
  split at h
  · exact .inl h
  · rename_i hsame
    exact .inr ⟨not_not.mp hsame, h⟩

theorem listFilter_accepted {input : ListRequestsRequest} (h : Accepted input) :
    Service.listFilter input = .ok
      ⟨trimSpace input.status, effectiveSubject input, pageSize input.limit⟩ := by
  obtain ⟨hactor, hstatus⟩ := h
  have hknown : ¬ (trimSpace input.status ≠ "" ∧
      (Assoc.get transitions (trimSpace input.status)).isNone = true) := by
    rintro ⟨hne, hnone⟩
    rw [Option.isNone_iff_eq_none] at hnone
    rcases hstatus with hblank | hsome
    · exact hne hblank
    · rw [hnone] at hsome
      cases hsome
  have hlimit : (if maxListLimit < (if input.limit ≤ 0 then defaultListLimit else input.limit) then
      maxListLimit else if input.limit ≤ 0 then defaultListLimit else input.limit) =
        (pageSize input.limit : Int) := by
    simp only [maxListLimit, defaultListLimit, pageSize]
    split_ifs <;> omega
  simp only [Service.listFilter, if_neg hknown, if_neg hactor, hlimit, effectiveSubject, ne_eq,
    ite_not]

theorem listFilter_refused {input : ListRequestsRequest} (h : ¬ Accepted input) :
    ∃ message, Service.listFilter input = .error ⟨.invalidArgument, message⟩ := by
  simp only [Service.listFilter]
  split
  · exact ⟨_, rfl⟩
  · rename_i hknown
    split
    · exact ⟨_, rfl⟩
    · rename_i hactor
      refine absurd ⟨hactor, ?_⟩ h
      rw [not_and_or, not_not, Option.isNone_iff_eq_none, ← ne_eq, ← Option.isSome_iff_ne_none]
        at hknown
      exact hknown

theorem admits_iff (input : ListRequestsRequest) (limit : Int) (r : Request) :
    ListFilter.admits ⟨trimSpace input.status, effectiveSubject input, limit⟩ r.status r.subject =
      true ↔ Matches input r := by
  simp only [ListFilter.admits, Matches, Bool.and_eq_true, Bool.or_eq_true, decide_eq_true_eq]

/-- The sorted matches of a store are their ranking. -/
theorem ranking_insertionSort {m : MemoryStore} (h : m.Filed) (input : ListRequestsRequest)
    (limit : Int) :
    Ranking m input (((m.requests.map Prod.snd).filter fun r =>
      ListFilter.admits ⟨trimSpace input.status, effectiveSubject input, limit⟩ r.status
        r.subject).insertionSort fun r s => MemoryStore.less s r = false) := by
  have hnodup := (MemoryStore.nodup_values h).filter fun r =>
    ListFilter.admits ⟨trimSpace input.status, effectiveSubject input, limit⟩ r.status r.subject
  refine ⟨?_, ?_, ?_⟩
  · intro r
    rw [List.mem_insertionSort, List.mem_filter, admits_iff, MemoryStore.mem_values_iff h]
  · exact (List.perm_insertionSort _ _).nodup_iff.mpr hnodup
  · have hsorted := List.pairwise_insertionSort (fun r s => MemoryStore.less s r = false)
      ((m.requests.map Prod.snd).filter fun r =>
        ListFilter.admits ⟨trimSpace input.status, effectiveSubject input, limit⟩ r.status
          r.subject)
    have hboth := hsorted.and ((List.perm_insertionSort _ _).nodup_iff.mpr hnodup)
    refine List.Pairwise.imp_of_mem ?_ hboth
    intro r s hr hs hrs
    rw [List.mem_insertionSort] at hr hs
    cases hless : MemoryStore.less r s with
    | true => exact newer_of_less hless
    | false =>
        have heq := MemoryStore.eq_of_less h (List.mem_of_mem_filter hr)
          (List.mem_of_mem_filter hs) hrs.1 hless
        exact absurd heq hrs.2

theorem pageSize_pos (limit : Int) : 0 < pageSize limit := by
  rw [pageSize]
  split_ifs <;> omega

/-- After any schedule, a listing is the front of the ranking of the matching requests, in
every order that Go may take; arguments that the service refuses are never listed for. -/
theorem listing_exact (actions : List Action) (input : ListRequestsRequest) :
    let m := (run (step MemoryStore.store) ⟨.empty, []⟩ actions).store
    (Accepted input → ∃ ranking, Ranking m input ranking ∧ ∀ order : GoOrder,
      Service.listRequests (MemoryStore.requestStoreIn order) m input =
        .ok ((ranking.take (pageSize input.limit)).map requestProto)) ∧
    (¬ Accepted input → ∃ message, ∀ order : GoOrder,
      Service.listRequests (MemoryStore.requestStoreIn order) m input =
        .error ⟨.invalidArgument, message⟩) := by
  intro m
  have hsound : m.Sound := MemoryStore.run_sound actions
  constructor
  · intro haccepted
    refine ⟨_, ranking_insertionSort hsound.1 input (pageSize input.limit), fun order => ?_⟩
    have hlist : (MemoryStore.requestStoreIn order).listRequests m
        ⟨trimSpace input.status, effectiveSubject input, pageSize input.limit⟩ =
          m.listRequests ⟨trimSpace input.status, effectiveSubject input, pageSize input.limit⟩ :=
      MemoryStore.listRequestsIn_eq hsound order _
    have hpos : (0 : Int) < pageSize input.limit := Int.natCast_pos.mpr (pageSize_pos input.limit)
    simp only [Service.listRequests, listFilter_accepted haccepted, hlist,
      MemoryStore.listRequests, hsound.2, truncate_eq_take hpos, Int.toNat_natCast]
  · intro hrefused
    obtain ⟨message, hfilter⟩ := listFilter_refused hrefused
    exact ⟨message, fun order => by simp only [Service.listRequests, hfilter]⟩

end SecureSdlc.Domain

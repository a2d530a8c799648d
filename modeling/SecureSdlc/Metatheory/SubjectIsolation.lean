import SecureSdlc.Metatheory.RequestTable

/-!
Isolation of subjects. Two store states that hold the same requests of one subject
answer every call of that subject alike, whatever else they hold: a foreign request is
shown as a missing one, a listing is filtered before it is cut to the limit and sorted
by an order that tells requests apart, and a status update is refused before anything
is read.
-/

namespace SecureSdlc.Domain

open Core GoText

/-- What a store's answer shows to `actor`: a foreign request looks like a missing one. -/
def visible (actor : String) : Except StoreError Request → Except StoreError Request
  | .ok r => if r.subject = actor then .ok r else .error .requestNotFound
  | .error e => .error e

/-- A store's answer to a look-up that found the entry or nothing. -/
def lookedUp {ν : Type} (f : ν → Request) (entry : Option ν) : Except StoreError Request :=
  entry.elim (.error .requestNotFound) fun v => .ok (f v)

theorem visible_lookedUp_of_foreign {ν : Type} {f : ν → Request} {actor : String}
    {entry : Option ν} (h : ∀ v, (f v).subject = actor → entry ≠ some v) :
    visible actor (lookedUp f entry) = .error .requestNotFound := by
  cases entry with
  | none => rfl
  | some v => exact if_neg fun heq => h v heq rfl

theorem visible_lookedUp_congr {ν : Type} {f : ν → Request} {actor : String}
    {entry entry' : Option ν}
    (h : ∀ v, (f v).subject = actor → (entry = some v ↔ entry' = some v)) :
    visible actor (lookedUp f entry) = visible actor (lookedUp f entry') := by
  by_cases hown : ∃ v, (f v).subject = actor ∧ entry = some v
  · obtain ⟨v, hv, hentry⟩ := hown
    rw [hentry, (h v hv).mp hentry]
  · have hnone : ∀ v, (f v).subject = actor → entry ≠ some v :=
      fun v hv hentry => hown ⟨v, hv, hentry⟩
    have hnone' : ∀ v, (f v).subject = actor → entry' ≠ some v :=
      fun v hv hentry => hnone v hv ((h v hv).mpr hentry)
    rw [visible_lookedUp_of_foreign hnone, visible_lookedUp_of_foreign hnone']

/-- Two states show `actor` the same requests. -/
structure ShowsSame {σ : Type} (S : RequestStore σ) (actor : String) (s s' : σ) : Prop where
  get : ∀ id, visible actor (S.getRequest s id) = visible actor (S.getRequest s' id)
  list : ∀ status limit, S.listRequests s ⟨status, actor, limit⟩ =
    S.listRequests s' ⟨status, actor, limit⟩

/-- No call of the caller tells the two states apart. -/
structure Indistinguishable {σ : Type} (S : RequestStore σ) (subject role : String)
    (s s' : σ) : Prop where
  get : ∀ id, Service.getRequest S.toStore s ⟨id, subject, role⟩ =
    Service.getRequest S.toStore s' ⟨id, subject, role⟩
  list : ∀ status filter limit, Service.listRequests S s ⟨status, filter, limit, subject, role⟩ =
    Service.listRequests S s' ⟨status, filter, limit, subject, role⟩
  update : ∀ id newStatus now eventID,
    (Service.updateRequestStatus S.toStore s ⟨id, newStatus, subject, role⟩ now eventID).1 =
      (Service.updateRequestStatus S.toStore s' ⟨id, newStatus, subject, role⟩ now eventID).1

/-- The caller gets one answer for somebody else's request and for a missing one. -/
def ForeignLikeMissing {σ : Type} (S : RequestStore σ) (subject role : String) (s : σ) : Prop :=
  ∀ id id' r, trimSpace id ≠ "" → trimSpace id' ≠ "" →
    S.getRequest s (trimSpace id) = .ok r → r.subject ≠ trimSpace subject →
    S.getRequest s (trimSpace id') = .error .requestNotFound →
    Service.getRequest S.toStore s ⟨id, subject, role⟩ =
      Service.getRequest S.toStore s ⟨id', subject, role⟩

section Service

variable {σ : Type} {S : RequestStore σ}

/-- The answer made from what the caller is shown. -/
def answerRead : Except StoreError Request → Except StatusError RequestProto
  | .error .requestNotFound => .error ⟨.notFound, "request not found"⟩
  | .error (.failure _) => .error ⟨.internal, "failed to load request"⟩
  | .ok request => .ok (requestProto request)

theorem getRequest_eq_answerRead {s : σ} (input : GetRequestRequest)
    (hrole : trimSpace input.actorRole ≠ roleOperator) (hid : trimSpace input.requestId ≠ "")
    (hactor : trimSpace input.actorSubject ≠ "") :
    Service.getRequest S.toStore s input =
      answerRead (visible (trimSpace input.actorSubject)
        (S.getRequest s (trimSpace input.requestId))) := by
  simp only [Service.getRequest, if_neg hid, if_neg hactor]
  cases S.getRequest s (trimSpace input.requestId) with
  | error e => cases e <;> rfl
  | ok r =>
      by_cases hown : r.subject = trimSpace input.actorSubject
      · simp [visible, answerRead, hown]
      · simp [visible, answerRead, hown, hrole]

theorem checkUpdate_refused (input : UpdateRequestStatusRequest)
    (hrole : trimSpace input.actorRole ≠ roleOperator) :
    ∃ e, Service.checkUpdate input = .error e := by
  simp only [Service.checkUpdate]
  split
  · exact ⟨_, rfl⟩
  split
  · exact ⟨_, rfl⟩
  exact ⟨_, rfl⟩

theorem indistinguishable_of_showsSame {s s' : σ} {subject role : String}
    (hrole : trimSpace role ≠ roleOperator)
    (h : trimSpace subject ≠ "" → ShowsSame S (trimSpace subject) s s') :
    Indistinguishable S subject role s s' := by
  refine ⟨fun id => ?_, fun status filter limit => ?_, fun id newStatus now eventID => ?_⟩
  · by_cases hid : trimSpace id = ""
    · simp only [Service.getRequest, if_pos hid]
    by_cases hblank : trimSpace subject = ""
    · simp only [Service.getRequest, if_neg hid, if_pos hblank]
    · rw [getRequest_eq_answerRead ⟨id, subject, role⟩ hrole hid hblank,
        getRequest_eq_answerRead ⟨id, subject, role⟩ hrole hid hblank, (h hblank).get]
  · simp only [Service.listRequests]
    cases hf : Service.listFilter ⟨status, filter, limit, subject, role⟩ with
    | error e => rfl
    | ok f =>
        obtain ⟨hsubject, hne⟩ := Service.listFilter_subject ⟨status, filter, limit, subject, role⟩
          hrole hf
        change f.subject = trimSpace subject at hsubject
        have hlist := (h (hsubject ▸ hne)).list f.status f.limit
        rw [← hsubject] at hlist
        simp only [hlist]
  · obtain ⟨e, he⟩ := checkUpdate_refused ⟨id, newStatus, subject, role⟩ hrole
    simp only [Service.updateRequestStatus, he]

theorem foreignLikeMissing {s : σ} {subject role : String}
    (hrole : trimSpace role ≠ roleOperator) : ForeignLikeMissing S subject role s := by
  intro id id' r hid hid' hforeign hne hmissing
  by_cases hactor : trimSpace subject = ""
  · simp only [Service.getRequest, if_neg hid, if_neg hid', if_pos hactor]
  · rw [getRequest_eq_answerRead ⟨id, subject, role⟩ hrole hid hactor,
      getRequest_eq_answerRead ⟨id', subject, role⟩ hrole hid' hactor, hforeign, hmissing]
    simp [visible, hne]

end Service

namespace MemoryStore

/-- The two states hold the same requests of `actor`, and work or fail alike. -/
def SameOf (actor : String) (m m' : MemoryStore) : Prop :=
  m.failWith = m'.failWith ∧ Assoc.AgreeOn (fun r => r.subject = actor) m.requests m'.requests

theorem listRequests_congr {m m' : MemoryStore} (hm : m.Filed) (hm' : m'.Filed)
    {actor : String} (hactor : actor ≠ "") (h : SameOf actor m m') (status : String)
    (limit : Int) : m.listRequests ⟨status, actor, limit⟩ =
      m'.listRequests ⟨status, actor, limit⟩ := by
  simp only [listRequests, h.1]
  cases m'.failWith with
  | some message => rfl
  | none =>
      have hperm := Assoc.filter_perm_of_agreeOn hm.2 hm'.2 h.2
        (fun entry => ListFilter.admits ⟨status, actor, limit⟩ entry.2.status entry.2.subject)
        (fun entry hkept => ListFilter.subject_of_admits hactor hkept)
      simp only [List.filter_map, Function.comp_def]
      congr 2
      refine Lexicographic.insertionSort_eq_of_perm (hperm.map Prod.snd) ?_
      intro r hr s hs hrs hsr
      obtain ⟨⟨id, r⟩, hentry, rfl⟩ := List.mem_map.mp hr
      obtain ⟨⟨id', s⟩, hentry', rfl⟩ := List.mem_map.mp hs
      have hr := Assoc.get_of_mem hm.2 (List.mem_of_mem_filter hentry)
      have hs := Assoc.get_of_mem hm.2 (List.mem_of_mem_filter hentry')
      obtain rfl := hm.1 _ _ hr
      obtain rfl := hm.1 _ _ hs
      have hid := id_eq_of_less hrs hsr
      rw [hid, hs, Option.some.injEq] at hr
      exact hr.symm

theorem getRequest_eq_lookedUp {m : MemoryStore} (hup : m.failWith = none) (id : String) :
    m.getRequest id = lookedUp (fun r => r) (Assoc.get m.requests id) := by
  simp only [getRequest, hup]
  cases Assoc.get m.requests id <;> rfl

theorem showsSame {m m' : MemoryStore} (hm : m.Filed) (hm' : m'.Filed) {actor : String}
    (hactor : actor ≠ "") (h : SameOf actor m m') : ShowsSame requestStore actor m m' := by
  refine ⟨fun id => ?_, listRequests_congr hm hm' hactor h⟩
  change visible actor (m.getRequest id) = visible actor (m'.getRequest id)
  cases hfail : m'.failWith with
  | some message => simp only [getRequest, h.1, hfail]
  | none =>
      rw [getRequest_eq_lookedUp (h.1.trans hfail), getRequest_eq_lookedUp hfail]
      exact visible_lookedUp_congr (h.2 id)

end MemoryStore

namespace PostgresStore

variable {C : OrderedColumns}

/-- The two states hold the same rows of `actor`, and work or fail alike. -/
def SameOf (actor : String) (p p' : PostgresStore C.toColumns) : Prop :=
  p.failWith = p'.failWith ∧
    Assoc.AgreeOn (fun row => row.subject = actor) p.requests p'.requests

theorem listRequests_congr {p p' : PostgresStore C.toColumns} (hp : Assoc.Unique p.requests)
    (hp' : Assoc.Unique p'.requests) {actor : String} (hactor : actor ≠ "")
    (h : SameOf actor p p') (status : String) (limit : Int) :
    p.listRequests ⟨status, actor, limit⟩ = p'.listRequests ⟨status, actor, limit⟩ := by
  simp only [listRequests, h.1]
  cases p'.failWith with
  | some message => rfl
  | none =>
      have hperm := Assoc.filter_perm_of_agreeOn hp hp' h.2
        (fun entry => ListFilter.admits ⟨status, actor, limit⟩ entry.2.status entry.2.subject)
        (fun entry hkept => ListFilter.subject_of_admits hactor hkept)
      have hsort := Lexicographic.insertionSort_eq_of_perm (r := inOrder) hperm ?_
      · simp only [hsort]
      intro a ha b hb hab hba
      have hid := uuid_eq_of_inOrder hab hba
      have hrow := Assoc.get_of_mem hp (List.mem_of_mem_filter ha)
      rw [hid, Assoc.get_of_mem hp (List.mem_of_mem_filter hb), Option.some.injEq] at hrow
      exact Prod.ext hid hrow.symm

theorem getRequest_eq_lookedUp {p : PostgresStore C.toColumns} (hup : p.failWith = none)
    {id : String} {uuid : C.Uuid} (hid : C.castUuid id = some uuid) :
    p.getRequest id = lookedUp (scan uuid) (Assoc.get p.requests uuid) := by
  simp only [getRequest, hup, hid]
  cases Assoc.get p.requests uuid <;> rfl

theorem showsSame {p p' : PostgresStore C.toColumns} (hp : Assoc.Unique p.requests)
    (hp' : Assoc.Unique p'.requests) {actor : String} (hactor : actor ≠ "")
    (h : SameOf actor p p') : ShowsSame (requestStore C) actor p p' := by
  refine ⟨fun id => ?_, listRequests_congr hp hp' hactor h⟩
  change visible actor (p.getRequest id) = visible actor (p'.getRequest id)
  cases hfail : p'.failWith with
  | some message => simp only [getRequest, h.1, hfail]
  | none =>
      cases hid : C.castUuid id with
      | none => simp only [getRequest, h.1, hfail, hid]
      | some uuid =>
          rw [getRequest_eq_lookedUp (h.1.trans hfail) hid, getRequest_eq_lookedUp hfail hid]
          exact visible_lookedUp_congr (h.2 uuid)

end PostgresStore

/-- Over either store, a caller who is not an operator cannot tell two states with the
same requests of its own apart, nor somebody else's request from a missing one. -/
theorem subjects_do_not_interfere (C : OrderedColumns) (subject role : String)
    (hrole : trimSpace role ≠ roleOperator) :
    (∀ m m' : MemoryStore, m.Filed → m'.Filed →
      MemoryStore.SameOf (trimSpace subject) m m' →
      Indistinguishable MemoryStore.requestStore subject role m m' ∧
        ForeignLikeMissing MemoryStore.requestStore subject role m) ∧
    (∀ p p' : PostgresStore C.toColumns, Assoc.Unique p.requests → Assoc.Unique p'.requests →
      PostgresStore.SameOf (trimSpace subject) p p' →
      Indistinguishable (PostgresStore.requestStore C) subject role p p' ∧
        ForeignLikeMissing (PostgresStore.requestStore C) subject role p) := by
  constructor
  · intro m m' hm hm' h
    exact ⟨indistinguishable_of_showsSame hrole fun hactor =>
      MemoryStore.showsSame hm hm' hactor h, foreignLikeMissing hrole⟩
  · intro p p' hp hp' h
    exact ⟨indistinguishable_of_showsSame hrole fun hactor =>
      PostgresStore.showsSame hp hp' hactor h, foreignLikeMissing hrole⟩

/-- The in-memory store of one request of alice, and those of `others`. -/
def aliceAnd (others : List (String × Request)) : MemoryStore :=
  ⟨("1", ⟨"1", "Reset VPN access", "", "alice", statusCreated, "2026-09-22T12:00:00Z"⟩) :: others,
    [], none⟩

/-- A later request of bob. -/
def bobsRequest : List (String × Request) :=
  [("2", ⟨"2", "New laptop", "", "bob", statusTriaged, "2026-09-22T12:30:00Z"⟩)]

theorem aliceAnd_filed : (aliceAnd bobsRequest).Filed ∧ (aliceAnd []).Filed := by
  refine ⟨⟨fun id r h => ?_, by simp [Assoc.Unique, aliceAnd, bobsRequest]⟩,
    ⟨fun id r h => ?_, by simp [Assoc.Unique, aliceAnd]⟩⟩
  · have hmem := Assoc.mem_of_get h
    simp only [aliceAnd, bobsRequest, List.mem_cons, Prod.mk.injEq, List.not_mem_nil,
      or_false] at hmem
    obtain ⟨rfl, rfl⟩ | ⟨rfl, rfl⟩ := hmem <;> rfl
  · have hmem := Assoc.mem_of_get h
    simp only [aliceAnd, List.mem_cons, Prod.mk.injEq, List.not_mem_nil, or_false] at hmem
    obtain ⟨rfl, rfl⟩ := hmem
    rfl

/-- The same two requests as rows. -/
def rowsOfAliceAnd (others : List (textualColumns.Uuid × RequestRow textualColumns.toColumns)) :
    PostgresStore textualColumns.toColumns :=
  ⟨(⟨List.replicate 16 1, rfl⟩,
    ⟨"Reset VPN access", "", "alice", statusCreated, "2026-09-22T12:00:00Z"⟩) :: others, [], none⟩

def bobsRow : List (textualColumns.Uuid × RequestRow textualColumns.toColumns) :=
  [(⟨List.replicate 16 2, rfl⟩, ⟨"New laptop", "", "bob", statusTriaged, "2026-09-22T12:30:00Z"⟩)]

theorem rowsOfAliceAnd_unique : Assoc.Unique (rowsOfAliceAnd bobsRow).requests ∧
    Assoc.Unique (rowsOfAliceAnd []).requests := by
  constructor
  · refine List.nodup_cons.mpr ⟨fun hmem => ?_, List.nodup_singleton _⟩
    have heq := congrArg Subtype.val (List.mem_singleton.mp hmem)
    exact absurd heq (by decide)
  · exact List.nodup_singleton _

theorem alice_does_not_see_bob :
    trimSpace "user" ≠ roleOperator ∧
    MemoryStore.SameOf (trimSpace "alice") (aliceAnd bobsRequest) (aliceAnd []) ∧
    Indistinguishable MemoryStore.requestStore "alice" "user" (aliceAnd bobsRequest)
      (aliceAnd []) ∧
    PostgresStore.SameOf (trimSpace "alice") (rowsOfAliceAnd bobsRow) (rowsOfAliceAnd []) ∧
    Indistinguishable (PostgresStore.requestStore textualColumns) "alice" "user"
      (rowsOfAliceAnd bobsRow) (rowsOfAliceAnd []) := by
  have halice : trimSpace "alice" = "alice" := by decide
  have hm : MemoryStore.SameOf (trimSpace "alice") (aliceAnd bobsRequest) (aliceAnd []) := by
    refine ⟨rfl, Assoc.agreeOn_append (m := (aliceAnd []).requests) aliceAnd_filed.1.2 ?_⟩
    simp [bobsRequest, halice]
  have hp : PostgresStore.SameOf (trimSpace "alice") (rowsOfAliceAnd bobsRow)
      (rowsOfAliceAnd []) := by
    refine ⟨rfl, Assoc.agreeOn_append (m := (rowsOfAliceAnd []).requests)
      rowsOfAliceAnd_unique.1 ?_⟩
    simp [bobsRow, halice]
  have h := subjects_do_not_interfere textualColumns "alice" "user" (by decide)
  exact ⟨by decide, hm, (h.1 _ _ aliceAnd_filed.1 aliceAnd_filed.2 hm).1, hp,
    (h.2 _ _ rowsOfAliceAnd_unique.1 rowsOfAliceAnd_unique.2 hp).1⟩

end SecureSdlc.Domain

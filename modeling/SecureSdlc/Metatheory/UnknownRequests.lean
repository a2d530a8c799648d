import SecureSdlc.Gateway.Server

/-!
What callers are answered about an id that names no stored request, over the two stores and
through the gateway.
-/

namespace SecureSdlc.Domain

open Core GoText Gateway

/-- The calls of one store about the id of a request are answered that there is none: those
of the service for a caller whose identity passes, and those of the gateway. -/
structure AnswersNotFound {σ : Type} (S : Store σ) (s : σ) (id : String) : Prop where
  get : ∀ subject role, trimSpace subject ≠ "" →
    Service.getRequest S s ⟨id, subject, role⟩ = .error ⟨.notFound, "request not found"⟩
  update : ∀ newStatus subject role now eventID, trimSpace subject ≠ "" →
    trimSpace role = roleOperator → Assoc.get transitions (trimSpace newStatus) ≠ none →
    Service.updateRequestStatus S s ⟨id, newStatus, subject, role⟩ now eventID =
      (.error ⟨.notFound, "request not found"⟩, s)
  handleGet : ∀ verify header caller, bearerIdentity verify header = .ok caller →
    trimSpace caller.subject ≠ "" → (handleGetRequest S verify s header id).status = 404
  handleUpdate : ∀ verify header caller status now eventID,
    bearerIdentity verify header = .ok caller → trimSpace caller.subject ≠ "" →
    roleOperator ∈ caller.roles → Assoc.get transitions (trimSpace status) ≠ none →
    (handleUpdateStatus S verify s header id (some status) now eventID).1.status = 404

section Service

variable {σ : Type} {S : Store σ} {s : σ} {id : String}

theorem getRequest_of_read (hid : trimSpace id ≠ "") {subject : String} (role : String)
    (hsubject : trimSpace subject ≠ "")
    (h : S.getRequest s (trimSpace id) = .error .requestNotFound) :
    Service.getRequest S s ⟨id, subject, role⟩ = .error ⟨.notFound, "request not found"⟩ := by
  simp only [Service.getRequest, if_neg hid, if_neg hsubject, h]

theorem updateRequestStatus_of_read (hid : trimSpace id ≠ "") {newStatus subject role : String}
    (now : UtcTime) (eventID : String) (hsubject : trimSpace subject ≠ "")
    (hrole : trimSpace role = roleOperator)
    (hknown : Assoc.get transitions (trimSpace newStatus) ≠ none)
    (h : S.getRequest s (trimSpace id) = .error .requestNotFound) :
    Service.updateRequestStatus S s ⟨id, newStatus, subject, role⟩ now eventID =
      (.error ⟨.notFound, "request not found"⟩, s) := by
  obtain ⟨targets, htargets⟩ := Option.ne_none_iff_exists'.mp hknown
  have hcheck : Service.checkUpdate ⟨id, newStatus, subject, role⟩ =
      .ok (trimSpace id, trimSpace newStatus) := by
    simp only [Service.checkUpdate, if_neg hid, if_neg hsubject, hrole, ne_eq, not_true_eq_false,
      if_false, htargets]
  simp only [Service.updateRequestStatus, hcheck, h, Service.decideUpdate]

theorem not_blank_of_known {status : String}
    (h : Assoc.get transitions (trimSpace status) ≠ none) : trimSpace status ≠ "" := by
  intro hblank
  rw [hblank] at h
  exact h (by decide)

theorem roleOf_operator {caller : Identity} (h : roleOperator ∈ caller.roles) :
    roleOf caller = roleOperator := by
  rw [roleOf, if_pos h]

theorem operator_trimmed : trimSpace roleOperator = roleOperator :=
  trimSpace_of_all (by decide)

/-- The answers rest on what the store says of the trimmed id. -/
theorem answersNotFound_iff (hid : trimSpace id ≠ "") :
    AnswersNotFound S s id ↔ S.getRequest s (trimSpace id) = .error .requestNotFound := by
  constructor
  · intro h
    have hactor : trimSpace "operator" ≠ "" := by
      rw [← roleOperator, operator_trimmed]
      decide
    have hget := h.get "operator" roleOperator hactor
    simp only [Service.getRequest, if_neg hid, if_neg hactor, operator_trimmed] at hget
    cases hread : S.getRequest s (trimSpace id) with
    | ok r => simp [hread] at hget
    | error e =>
        cases e with
        | requestNotFound => rfl
        | failure message => simp [hread] at hget
  · intro hread
    refine ⟨?_, ?_, ?_, ?_⟩
    · intro subject role hsubject
      exact getRequest_of_read hid role hsubject hread
    · intro newStatus subject role now eventID hsubject hrole hknown
      exact updateRequestStatus_of_read hid now eventID hsubject hrole hknown hread
    · intro verify header caller hcaller hsubject
      simp only [handleGetRequest, hcaller, getRequest_of_read hid (roleOf caller) hsubject hread]
      rfl
    · intro verify header caller status now eventID hcaller hsubject hroles hknown
      have hrole : trimSpace (roleOf caller) = roleOperator := by
        rw [roleOf_operator hroles, operator_trimmed]
      have htarget : Assoc.get transitions (trimSpace (trimSpace status)) ≠ none := by
        rw [trimSpace_trimSpace]
        exact hknown
      simp only [handleUpdateStatus, hcaller, roleOf_operator hroles, ne_eq, not_true_eq_false,
        if_false, if_neg (not_blank_of_known hknown)]
      rw [← roleOf_operator hroles,
        updateRequestStatus_of_read hid now eventID hsubject hrole htarget hread]
      rfl

end Service

/-- No row has the text for its id. -/
def MemoryStore.Unknown (m : MemoryStore) (id : String) : Prop :=
  Assoc.get m.requests id = none

/-- No row has the id that the text is cast to. -/
def PostgresStore.Unknown {C : Columns} (p : PostgresStore C) (id : String) : Prop :=
  ∀ uuid, C.castUuid id = some uuid → Assoc.get p.requests uuid = none

theorem MemoryStore.getRequest_unknown {m : MemoryStore} {id : String} (hup : m.failWith = none)
    (h : m.Unknown id) : m.getRequest id = .error .requestNotFound := by
  simp only [MemoryStore.getRequest, hup, show Assoc.get m.requests id = none from h]

theorem PostgresStore.getRequest_unknown_iff {C : Columns} {p : PostgresStore C} {id : String}
    (h : p.Unknown id) : p.getRequest id = .error .requestNotFound ↔
      p.failWith = none ∧ (C.castUuid id).isSome = true := by
  rw [PostgresStore.getRequest]
  cases hfail : p.failWith with
  | some message => simp
  | none =>
      cases hcast : C.castUuid id with
      | none => simp
      | some uuid => simp [h uuid hcast]

/-- An unknown id is not found in the memory store, and in the database exactly when the
database is up and can read the text as a `UUID`. -/
theorem unknown_not_found_iff (C : Columns) (p : PostgresStore C) {id : String}
    (hid : trimSpace id ≠ "") (hunknown : p.Unknown (trimSpace id)) :
    (∀ m : MemoryStore, m.failWith = none → m.Unknown (trimSpace id) →
      AnswersNotFound MemoryStore.store m id) ∧
    (AnswersNotFound (PostgresStore.store C) p id ↔
      p.failWith = none ∧ (C.castUuid (trimSpace id)).isSome = true) := by
  refine ⟨?_, ?_⟩
  · intro m hup hmemory
    exact (answersNotFound_iff hid).mpr (MemoryStore.getRequest_unknown hup hmemory)
  · rw [answersNotFound_iff hid]
    exact PostgresStore.getRequest_unknown_iff hunknown

/-- A `UUID` that the empty database does not know. -/
theorem zeroUuid_not_found :
    AnswersNotFound (PostgresStore.store textualColumns.toColumns) PostgresStore.empty
      "00000000-0000-0000-0000-000000000000" := by
  have htrim : trimSpace "00000000-0000-0000-0000-000000000000" =
      "00000000-0000-0000-0000-000000000000" := trimSpace_of_all (by decide)
  have hid : trimSpace "00000000-0000-0000-0000-000000000000" ≠ "" := by
    rw [htrim]
    decide
  have hunknown := unknown_not_found_iff textualColumns.toColumns PostgresStore.empty hid
    fun _ _ => rfl
  refine hunknown.2.mpr ⟨rfl, ?_⟩
  rw [htrim]
  decide +kernel

/-- The database answers that it failed when the id is no `UUID`. -/
theorem missing_is_internal : ¬ ∀ id : String, trimSpace id ≠ "" →
    (PostgresStore.empty : PostgresStore textualColumns.toColumns).Unknown (trimSpace id) →
    AnswersNotFound (PostgresStore.store textualColumns.toColumns) PostgresStore.empty id := by
  intro h
  have htrim : trimSpace "missing" = "missing" := trimSpace_of_all (by decide)
  have hid : trimSpace "missing" ≠ "" := by
    rw [htrim]
    decide
  have hread := (answersNotFound_iff hid).mp (h "missing" hid fun _ _ => rfl)
  have hcast : textualColumns.castUuid "missing" = none := by decide +kernel
  rw [htrim] at hread
  simp [PostgresStore.store, PostgresStore.getRequest, PostgresStore.empty, hcast] at hread

end SecureSdlc.Domain

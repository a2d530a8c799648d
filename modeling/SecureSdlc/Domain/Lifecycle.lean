import SecureSdlc.Core.Assoc

/-!
The request lifecycle of the domain service: the transition table, the check on
it, and the paths through it. The table is acyclic, which the rank makes explicit;
a status that has been left is never met again on a legal path.
-/

namespace SecureSdlc.Domain

open Core

def statusCreated : String := "created"
def statusTriaged : String := "triaged"
def statusInProgress : String := "in_progress"
def statusResolved : String := "resolved"
def statusClosed : String := "closed"
def statusCancelled : String := "cancelled"

/-- The request lifecycle state machine; terminal states map to empty lists. -/
def transitions : List (String × List String) :=
  [(statusCreated, [statusTriaged, statusCancelled]),
   (statusTriaged, [statusInProgress, statusCancelled]),
   (statusInProgress, [statusResolved, statusCancelled]),
   (statusResolved, [statusClosed]),
   (statusClosed, []),
   (statusCancelled, [])]

def canTransition (source target : String) : Bool :=
  match Assoc.get transitions source with
  | none => false
  | some targets => targets.any (· == target)

/-- Position along the lifecycle; every edge of the table goes up. -/
def lifecycleRank (status : String) : Nat :=
  if status = statusCreated then 0
  else if status = statusTriaged then 1
  else if status = statusInProgress then 2
  else if status = statusResolved then 3
  else 4

theorem canTransition_cases {source target : String} (h : canTransition source target = true) :
    (source = statusCreated ∧ (target = statusTriaged ∨ target = statusCancelled)) ∨
    (source = statusTriaged ∧ (target = statusInProgress ∨ target = statusCancelled)) ∨
    (source = statusInProgress ∧ (target = statusResolved ∨ target = statusCancelled)) ∨
    (source = statusResolved ∧ target = statusClosed) := by
  simp only [canTransition, transitions, Assoc.get] at h
  by_cases h₁ : statusCreated = source
  · simp only [h₁, if_true, List.any_cons, List.any_nil, Bool.or_false, Bool.or_eq_true,
      beq_iff_eq] at h
    exact .inl ⟨h₁.symm, h.imp Eq.symm Eq.symm⟩
  by_cases h₂ : statusTriaged = source
  · simp only [h₁, h₂, if_true, if_false, List.any_cons, List.any_nil, Bool.or_false,
      Bool.or_eq_true, beq_iff_eq] at h
    exact .inr (.inl ⟨h₂.symm, h.imp Eq.symm Eq.symm⟩)
  by_cases h₃ : statusInProgress = source
  · simp only [h₁, h₂, h₃, if_true, if_false, List.any_cons, List.any_nil, Bool.or_false,
      Bool.or_eq_true, beq_iff_eq] at h
    exact .inr (.inr (.inl ⟨h₃.symm, h.imp Eq.symm Eq.symm⟩))
  by_cases h₄ : statusResolved = source
  · simp only [h₁, h₂, h₃, h₄, if_true, if_false, List.any_cons, List.any_nil, Bool.or_false,
      beq_iff_eq] at h
    exact .inr (.inr (.inr ⟨h₄.symm, h.symm⟩))
  by_cases h₅ : statusClosed = source
  · simp [h₁, h₂, h₃, h₄, h₅] at h
  by_cases h₆ : statusCancelled = source
  · simp [h₁, h₂, h₃, h₄, h₅, h₆] at h
  · simp [h₁, h₂, h₃, h₄, h₅, h₆] at h

theorem canTransition_rank {source target : String} (h : canTransition source target = true) :
    lifecycleRank source < lifecycleRank target := by
  obtain ⟨rfl, rfl | rfl⟩ | ⟨rfl, rfl | rfl⟩ | ⟨rfl, rfl | rfl⟩ | ⟨rfl, rfl⟩ :=
    canTransition_cases h <;> decide

/-- `closed` and `cancelled`, the statuses without a listed successor. -/
def Terminal (status : String) : Prop :=
  status = statusClosed ∨ status = statusCancelled

theorem terminal_no_transition {source : String} (h : Terminal source) (target : String) :
    canTransition source target = false := by
  obtain rfl | rfl := h <;> rfl

/-- One committed status change: the previous status the event records, and the new one. -/
abbrev StatusChange := String × String

/-- `changes`, in commit order, is a legal lifecycle path from `start`: each change
records the status reached so far and follows an edge of the table. -/
def LegalPath (start : String) : List StatusChange → Prop
  | [] => True
  | c :: changes => c.1 = start ∧ canTransition start c.2 = true ∧ LegalPath c.2 changes

/-- The status a sequence of changes ends in. -/
def lastStatus (start : String) (changes : List StatusChange) : String :=
  changes.foldl (fun _ c => c.2) start

theorem lastStatus_append_singleton (start : String) (changes : List StatusChange)
    (c : StatusChange) : lastStatus start (changes ++ [c]) = c.2 := by
  simp [lastStatus, List.foldl_append]

theorem legalPath_append_singleton (start : String) (changes : List StatusChange)
    (c : StatusChange) :
    LegalPath start (changes ++ [c]) ↔
      LegalPath start changes ∧ c.1 = lastStatus start changes ∧
        canTransition (lastStatus start changes) c.2 = true := by
  induction changes generalizing start with
  | nil => simp [LegalPath, lastStatus]
  | cons d changes ih =>
      simp only [List.cons_append, LegalPath, ih]
      simp only [lastStatus, List.foldl_cons, and_assoc]

end SecureSdlc.Domain

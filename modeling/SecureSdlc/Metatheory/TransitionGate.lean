import SecureSdlc.Core.Run
import SecureSdlc.Policy.ArtifactTransition

/-!
What the transition gate guarantees. The gate allows when no rule fires, so
legality and the approver's kind are read off rules that may be silent: a status
without an entry in `lifecycles` is not held to any target, and an actor of
another kind than `agent` is not held to be human. Both results are exact, over
all input documents; the runs concern one artifact and its recorded status.
-/

namespace SecureSdlc.Policy.ArtifactTransition

open Core Core.Rego

theorem decision_allow_iff (opa : Engine) (input : Json) :
    (decision opa input).allow = true ↔ ∀ r, fires opa input r = false :=
  Decision.of_allow_iff (by intro r; cases r <;> decide) _ _

/-- The decision can only be turned by `r` when no other rule fires. -/
theorem decision_allow_of_others (opa : Engine) (input : Json) (r : DenyReason)
    (silent : fires opa input r = false)
    (others : ¬ ∃ r', r' ≠ r ∧ fires opa input r' = true) :
    (decision opa input).allow = true := by
  rw [decision_allow_iff]
  intro r'
  by_cases hr : r' = r
  · rw [hr, silent]
  · by_contra hf
    exact others ⟨r', hr, by simpa using hf⟩

theorem not_allow_of_fires {opa : Engine} {input : Json} {r : DenyReason}
    (h : fires opa input r = true) : (decision opa input).allow ≠ true := by
  intro ha
  rw [(decision_allow_iff opa input).mp ha r] at h
  cases h

/-- The lifecycle table has a row for the input's type and current status. -/
def Row (input : Json) (targets : List PyStr) : Prop :=
  ∃ table status, lifecycle input = some table ∧ fromStatus input = some (.str status) ∧
    Assoc.get table status = some targets

/-- The requested status is a target the table lists for the current one. -/
def Listed (input : Json) : Prop :=
  ∃ targets target, Row input targets ∧ toStatus input = some (.str target) ∧ target ∈ targets

/-- Another rule than `ILLEGAL_TRANSITION` denies, or the table has a row to hold
the requested status against. -/
def LegalityDecided (opa : Engine) (input : Json) : Prop :=
  ((∃ targets, Row input targets) ∧ (toStatus input).isSome = true) ∨
    ∃ r, r ≠ .illegalTransition ∧ fires opa input r = true

theorem listed_of_row {opa : Engine} {input : Json} {targets : List PyStr}
    (row : Row input targets) (present : (toStatus input).isSome = true)
    (silent : fires opa input .illegalTransition = false) : Listed input := by
  obtain ⟨table, status, ht, hs, hg⟩ := row
  obtain ⟨target, hto⟩ := Option.isSome_iff_exists.mp present
  simp only [fires, ht, hs, hto, Option.getD_some, List.any_eq_false] at silent
  have h := silent (status, targets) (Assoc.mem_of_get hg)
  simp only [isText, decide_true, Engine.absent, Bool.true_and, Bool.not_eq_true',
    Bool.not_eq_false] at h
  obtain ⟨s, rfl, hmem⟩ := (inSet_iff targets target).mp h
  exact ⟨targets, s, ⟨table, status, ht, hs, hg⟩, hto, hmem⟩

/-- Without a row, or without a requested status, the rule is silent unless the
status rule has fired already. -/
theorem illegalTransition_silent {opa : Engine} {input : Json}
    (open_ : ¬ ((∃ targets, Row input targets) ∧ (toStatus input).isSome = true))
    (known : fires opa input .unknownStatus = false) :
    fires opa input .illegalTransition = false := by
  simp only [fires, List.any_eq_false]
  intro entry he hfire
  rw [Bool.and_eq_true] at hfire
  obtain ⟨hfrom, habs⟩ := hfire
  cases ht : lifecycle input with
  | none => simp [ht] at he
  | some table =>
      rw [ht, Option.getD_some] at he
      have hs := (isText_iff _ _).mp hfrom
      have hrow : ∃ targets, Row input targets := by
        cases hg : Assoc.get table entry.1 with
        | none => exact absurd rfl (Assoc.ne_of_get_none hg entry he)
        | some targets => exact ⟨targets, table, entry.1, ht, hs, hg⟩
      have hto : toStatus input = none := by
        by_contra hne
        exact open_ ⟨hrow, by simpa [Option.isSome_iff_ne_none] using hne⟩
      simp only [fires, statusUnknown, ht, hto, Option.isSome_some, Bool.true_and,
        Bool.or_eq_false_iff] at known
      rw [hto] at habs
      cases hn : opa.negation with
      | bindsFirst => simp [Engine.absent, hn] at habs
      | whole => simp [Engine.absent, hn] at known

theorem allow_listed_iff (opa : Engine) (input : Json) :
    ((decision opa input).allow = true → Listed input) ↔ LegalityDecided opa input := by
  constructor
  · intro h
    by_cases hrow : (∃ targets, Row input targets) ∧ (toStatus input).isSome = true
    · exact Or.inl hrow
    · refine Or.inr ?_
      by_contra others
      have known : fires opa input .unknownStatus = false := by
        by_contra hf
        exact others ⟨.unknownStatus, by decide, by simpa using hf⟩
      have allowed := decision_allow_of_others opa input .illegalTransition
        (illegalTransition_silent hrow known) others
      obtain ⟨targets, target, row, hto, -⟩ := h allowed
      exact hrow ⟨⟨targets, row⟩, by simp [hto]⟩
  · rintro (⟨⟨targets, row⟩, present⟩ | ⟨r, -, hr⟩) allowed
    · exact listed_of_row row present ((decision_allow_iff opa input).mp allowed _)
    · exact absurd allowed (not_allow_of_fires hr)

/-- The recorded status of an artifact after a requested transition: it moves when
the request is for this artifact's type and status and the gate allows it. -/
def advance (opa : Engine) (artifact : PyStr) (status : PyStr) (input : Json) : PyStr :=
  if isText (artifactType input) artifact && isText (fromStatus input) status &&
      (decision opa input).allow then
    ((toStatus input).bind Json.str?).getD status
  else status

/-- No transition out of the status is listed for artifacts of this type. -/
def Terminal (artifact status : PyStr) : Prop :=
  ((Assoc.get lifecycles artifact).bind (Assoc.get · status)).getD [] = []

instance (artifact status : PyStr) : Decidable (Terminal artifact status) :=
  inferInstanceAs (Decidable (_ = _))

theorem advance_terminal {opa : Engine} {artifact status : PyStr}
    (terminal : Terminal artifact status) {input : Json}
    (decided : LegalityDecided opa input) : advance opa artifact status input = status := by
  by_cases h : (isText (artifactType input) artifact && isText (fromStatus input) status &&
      (decision opa input).allow) = true
  · simp only [Bool.and_eq_true, isText_iff] at h
    obtain ⟨⟨ht, hs⟩, allowed⟩ := h
    obtain ⟨targets, target, ⟨table, s, htable, hs', hg⟩, -, hmem⟩ :=
      (allow_listed_iff opa input).mpr decided allowed
    obtain rfl : s = status := by simpa [hs] using hs'.symm
    simp only [lifecycle, ht, Option.bind_some, lookup] at htable
    simp only [Terminal, htable, Option.bind_some, hg, Option.getD_some] at terminal
    rw [terminal] at hmem
    cases hmem
  · simp [advance, h]

/-- Legality of every input, what the silent rows are, and the runs: the known
statuses without a row are those named `superseded`. -/
theorem legality_exact_and_terminal_kept (opa : Engine) :
    (∀ input, ((decision opa input).allow = true → Listed input) ↔ LegalityDecided opa input) ∧
      (∀ entry ∈ statuses, ∀ status ∈ entry.2,
        (Assoc.get lifecycles entry.1).bind (Assoc.get · status) = none ↔
          status = py "superseded") ∧
      ∀ artifact status, Terminal artifact status → ∀ inputs,
        AllSteps (advance opa artifact) (fun _ input => LegalityDecided opa input) status inputs →
          run (advance opa artifact) status inputs = status := by
  refine ⟨allow_listed_iff opa, by decide, ?_⟩
  intro artifact status terminal inputs steps
  refine run_invariant (advance opa artifact) _ (fun s => s = status) ?_ status inputs rfl steps
  rintro s input rfl decided
  exact advance_terminal terminal decided

/-- An engine for inputs without numbers and timestamps. -/
def untimed (negation : Negation) : Engine :=
  { negation, numEq := fun _ _ => false, parseRfc3339Ns := fun _ => none }

def humanAuthor : List (PyStr × Json) :=
  [(py "type", .str (py "human")), (py "id", .str (py "zarl3")), (py "role", .str (py "author"))]

def reopenDone : Json :=
  buildTransitionInput (py "task") (py "done") (py "todo") humanAuthor none [] []

theorem reopenDone_keeps_status :
    Terminal (py "task") (py "done") ∧
      run (advance (untimed .whole) (py "task")) (py "done") [reopenDone] = py "done" :=
  ⟨by decide, (legality_exact_and_terminal_kept (untimed .whole)).2.2 (py "task") (py "done")
    (by decide) [reopenDone]
    ⟨Or.inl ⟨⟨[], _, py "done", rfl, rfl, rfl⟩, rfl⟩, trivial⟩⟩

def reviveSuperseded : Json :=
  buildTransitionInput (py "specification") (py "superseded") (py "draft") humanAuthor none [] []

/-- A superseded specification is terminal and yet moves back to `draft`, under
either reading of negation. -/
theorem reviveSuperseded_allowed_unlisted :
    Terminal (py "specification") (py "superseded") ∧
      ∀ negation, (decision (untimed negation) reviveSuperseded).allow = true ∧
        ¬ Listed reviveSuperseded ∧
        run (advance (untimed negation) (py "specification")) (py "superseded")
          [reviveSuperseded] = py "draft" := by
  refine ⟨by decide, ?_⟩
  intro negation
  refine ⟨by cases negation <;> decide, ?_, by cases negation <;> decide⟩
  rintro ⟨targets, target, ⟨table, status, ht, hs, hg⟩, -⟩
  cases hs
  cases ht
  cases hg

/-- The requested status is one that approves. -/
def approves (input : Json) : Bool :=
  (toStatus input).any (inSet approvalStatuses)

theorem approvals_human_iff (opa : Engine) (input : Json) :
    ((decision opa input).allow = true → approves input = true →
        isText (actorType input) (py "human") = true) ↔
      (approves input = false ∨ isText (actorType input) (py "human") = true ∨
        isText (actorType input) (py "agent") = true ∨
        ∃ r, r ≠ .agentMayNotApprove ∧ fires opa input r = true) := by
  constructor
  · intro h
    by_contra hc
    simp only [not_or, Bool.not_eq_false] at hc
    obtain ⟨happ, hhuman, hagent, others⟩ := hc
    have silent : fires opa input .agentMayNotApprove = false := by
      simp [fires, hagent]
    exact hhuman (h (decision_allow_of_others opa input _ silent others) happ)
  · rintro (happ | hhuman | hagent | ⟨r, -, hr⟩) allowed approved
    · rw [happ] at approved
      cases approved
    · exact hhuman
    · have hfire : fires opa input .agentMayNotApprove = true := by
        simp only [fires, hagent, Bool.true_and]
        exact approved
      exact absurd allowed (not_allow_of_fires hfire)
    · exact absurd allowed (not_allow_of_fires hr)

def ciApproval : Json :=
  buildTransitionInput (py "specification") (py "in_review") (py "approved")
    [(py "type", .str (py "ci")), (py "id", .str (py "pipeline")),
      (py "role", .str (py "reviewer"))]
    none [] []

theorem ciApproval_allowed :
    approves ciApproval = true ∧ isText (actorType ciApproval) (py "human") = false ∧
      ∀ negation, (decision (untimed negation) ciApproval).allow = true := by
  refine ⟨by decide, by decide, ?_⟩
  intro negation
  cases negation <;> decide

end SecureSdlc.Policy.ArtifactTransition

import Mathlib.Data.List.Basic

/-!
Finite runs of a deterministic step function, and the induction rules the developments
use on them: an invariant carried along all steps or along those that meet a side
condition, and the exchange of one step condition for another under an invariant.
Interleavings are runs whose actions are chosen by the schedule.
-/

namespace SecureSdlc.Core

universe u v w x
variable {σ : Type u} {α : Type v}

def run (step : σ → α → σ) (s : σ) (acts : List α) : σ :=
  acts.foldl step s

@[simp] theorem run_nil (step : σ → α → σ) (s : σ) : run step s [] = s := rfl

@[simp] theorem run_cons (step : σ → α → σ) (s : σ) (a : α) (acts : List α) :
    run step s (a :: acts) = run step (step s a) acts := rfl

theorem run_append (step : σ → α → σ) (s : σ) (first second : List α) :
    run step s (first ++ second) = run step (run step s first) second := by
  simp [run, List.foldl_append]

/-- Every step of the run, in the state it is taken from, meets `P`. -/
def AllSteps (step : σ → α → σ) (P : σ → α → Prop) : σ → List α → Prop
  | _, [] => True
  | s, a :: acts => P s a ∧ AllSteps step P (step s a) acts

theorem allSteps_append (step : σ → α → σ) (P : σ → α → Prop) (s : σ)
    (first second : List α) :
    AllSteps step P s (first ++ second) ↔
      AllSteps step P s first ∧ AllSteps step P (run step s first) second := by
  induction first generalizing s with
  | nil => simp [AllSteps]
  | cons a first ih => simp only [List.cons_append, AllSteps, ih, run_cons, and_assoc]

/-- The recursive reading agrees with the one by positions of the schedule. -/
theorem allSteps_iff_split (step : σ → α → σ) (P : σ → α → Prop) (s : σ) (acts : List α) :
    AllSteps step P s acts ↔
      ∀ pre a post, acts = pre ++ a :: post → P (run step s pre) a := by
  constructor
  · intro h pre a post eq
    subst eq
    exact ((allSteps_append step P s pre (a :: post)).mp h).2.1
  · intro h
    induction acts generalizing s with
    | nil => trivial
    | cons a acts ih =>
        refine ⟨h [] a acts rfl, ih (step s a) ?_⟩
        intro pre b post eq
        exact h (a :: pre) b post (by rw [eq]; rfl)

theorem run_invariant (step : σ → α → σ) (P : σ → α → Prop) (inv : σ → Prop)
    (keeps : ∀ s a, inv s → P s a → inv (step s a)) (s : σ) (acts : List α)
    (start : inv s) (steps : AllSteps step P s acts) : inv (run step s acts) := by
  induction acts generalizing s with
  | nil => exact start
  | cons a acts ih => exact ih (step s a) (keeps s a start steps.1) steps.2

/-- An invariant that every step keeps is one of the whole run. -/
theorem run_keeps (step : σ → α → σ) (inv : σ → Prop) (keeps : ∀ s a, inv s → inv (step s a))
    (s : σ) (acts : List α) (start : inv s) : inv (run step s acts) := by
  induction acts generalizing s with
  | nil => exact start
  | cons a acts ih => exact ih (step s a) (keeps s a start)

/-- A step condition that the invariant implies holds along every run. -/
theorem allSteps_of_invariant (step : σ → α → σ) (P : σ → α → Prop) (inv : σ → Prop)
    (holds : ∀ s a, inv s → P s a) (keeps : ∀ s a, inv s → inv (step s a)) (s : σ)
    (acts : List α) (start : inv s) : AllSteps step P s acts := by
  induction acts generalizing s with
  | nil => trivial
  | cons a acts ih => exact ⟨holds s a start, ih (step s a) (keeps s a start)⟩

/-- Two step conditions that agree under an invariant select the same runs, when
the invariant is kept by the steps that meet the first. -/
theorem allSteps_congr (step : σ → α → σ) (P Q : σ → α → Prop) (inv : σ → Prop)
    (same : ∀ s a, inv s → (P s a ↔ Q s a))
    (keeps : ∀ s a, inv s → P s a → inv (step s a)) (s : σ) (acts : List α)
    (start : inv s) : AllSteps step P s acts ↔ AllSteps step Q s acts := by
  induction acts generalizing s with
  | nil => exact Iff.rfl
  | cons a acts ih =>
      constructor
      · intro h
        exact ⟨(same s a start).mp h.1, (ih (step s a) (keeps s a start h.1)).mp h.2⟩
      · intro h
        have hp := (same s a start).mpr h.1
        exact ⟨hp, (ih (step s a) (keeps s a start hp)).mpr h.2⟩

end SecureSdlc.Core

import Mathlib.Data.List.Nodup
import Mathlib.Logic.Function.Basic

/-!
Logs of assignments to the cells of a store. A log that assigns to no cell twice
loses nothing: every cell ends with the value its entry gave it.
-/

namespace SecureSdlc.Core.Updates

universe u v
variable {κ : Type u} {ν : Type v} [DecidableEq κ]

/-- The store after the assignments of a log. -/
def replay (log : List (κ × ν)) (store : κ → ν) : κ → ν :=
  log.foldl (fun store entry => Function.update store entry.1 entry.2) store

theorem replay_append (first second : List (κ × ν)) (store : κ → ν) :
    replay (first ++ second) store = replay second (replay first store) := by
  simp only [replay, List.foldl_append]

theorem replay_of_not_mem {log : List (κ × ν)} {k : κ} (h : k ∉ log.map Prod.fst)
    (store : κ → ν) : replay log store k = store k := by
  induction log generalizing store with
  | nil => rfl
  | cons entry log ih =>
      rw [List.map_cons, List.mem_cons, not_or] at h
      exact (ih h.2 _).trans (Function.update_of_ne h.1 _ _)

/-- The last assignment to a cell stands. -/
theorem replay_of_last {front later : List (κ × ν)} {k : κ} {v : ν}
    (h : k ∉ later.map Prod.fst) (store : κ → ν) :
    replay (front ++ (k, v) :: later) store k = v := by
  rw [replay_append]
  exact (replay_of_not_mem h _).trans (Function.update_self _ _ _)

theorem replay_of_mem {log : List (κ × ν)} (hkeys : (log.map Prod.fst).Nodup)
    {entry : κ × ν} (h : entry ∈ log) (store : κ → ν) : replay log store entry.1 = entry.2 := by
  obtain ⟨front, later, rfl⟩ := List.append_of_mem h
  rw [List.map_append, List.map_cons, List.nodup_middle, List.nodup_cons] at hkeys
  exact replay_of_last (fun hlater => hkeys.1 (List.mem_append_right _ hlater)) store

end SecureSdlc.Core.Updates

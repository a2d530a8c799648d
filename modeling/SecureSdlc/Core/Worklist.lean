import Mathlib.Data.List.Perm.Subperm
import Mathlib.Logic.Relation

/-!
Worklist search. From some elements on, the search takes an element from the end of its
frontier and meets what that leads to; an element that was not met before joins the
frontier. With fuel for every element of a finite universe it meets what the elements
it starts from lead to, each element once, and visits all of it.
-/

namespace SecureSdlc.Core

universe u

structure Worklist (α : Type u) where
  met : List α
  frontier : List α
  visited : List α := []

namespace Worklist

variable {α : Type u} [DecidableEq α]

def meet (w : Worklist α) (x : α) : Worklist α :=
  if x ∈ w.met then w
  else { w with met := w.met ++ [x], frontier := w.frontier ++ [x] }

def visit (next : α → List α) (w : Worklist α) (x : α) : Worklist α :=
  (next x).foldl meet
    { w with frontier := w.frontier.dropLast, visited := w.visited ++ [x] }

def explore (next : α → List α) : Nat → Worklist α → Worklist α
  | 0, w => w
  | fuel + 1, w =>
      match w.frontier.getLast? with
      | none => w
      | some x => explore next fuel (w.visit next x)

/-- The search before its first step. -/
def begin (start : List α) : Worklist α := { met := start, frontier := start }

/-- One element leads to another. -/
def Leads (next : α → List α) (x y : α) : Prop := y ∈ next x

/-- What meeting a list of elements adds. -/
structure Added (w w' : Worklist α) (xs new : List α) : Prop where
  met : w'.met = w.met ++ new
  frontier : w'.frontier = w.frontier ++ new
  visited : w'.visited = w.visited
  nodup : w.met.Nodup → w'.met.Nodup
  among : new ⊆ xs
  all : xs ⊆ w'.met

theorem added_all (w : Worklist α) (xs : List α) : ∃ new, Added w (xs.foldl meet w) xs new := by
  induction xs generalizing w with
  | nil => exact ⟨[], by simp, by simp, rfl, id, by simp, by simp⟩
  | cons x xs ih =>
      rw [List.foldl_cons]
      obtain ⟨new, h⟩ := ih (w.meet x)
      by_cases hx : x ∈ w.met
      · have hsame : w.meet x = w := if_pos hx
        rw [hsame] at h ⊢
        refine ⟨new, h.met, h.frontier, h.visited, h.nodup,
          List.Subset.trans h.among (List.subset_cons_self x xs), ?_⟩
        refine List.cons_subset.mpr ⟨?_, h.all⟩
        rw [h.met]
        exact List.mem_append_left _ hx
      · have hnew : w.meet x =
            { w with met := w.met ++ [x], frontier := w.frontier ++ [x] } := if_neg hx
        refine ⟨x :: new, ?_, ?_, ?_, ?_, ?_, ?_⟩
        · rw [h.met, hnew, List.append_assoc]
          rfl
        · rw [h.frontier, hnew, List.append_assoc]
          rfl
        · rw [h.visited, hnew]
        · intro hnodup
          apply h.nodup
          rw [hnew]
          exact List.nodup_append.mpr ⟨hnodup, by simp,
            fun a ha b hb hab => hx (List.mem_singleton.mp hb ▸ hab ▸ ha)⟩
        · exact List.cons_subset_cons x h.among
        · refine List.cons_subset.mpr ⟨?_, h.all⟩
          rw [h.met, hnew]
          simp

/-- What holds of a search at any time: an element is met once, and then is either
visited or in the frontier; it was led to, and all that visited elements lead to is met. -/
structure Sound (next : α → List α) (start : List α) (w : Worklist α) : Prop where
  nodup : w.met.Nodup
  split : w.met.Perm (w.visited ++ w.frontier)
  seeded : start ⊆ w.met
  led : ∀ x ∈ w.met, ∃ s ∈ start, Relation.ReflTransGen (Leads next) s x
  closed : ∀ x ∈ w.visited, next x ⊆ w.met

variable {next : α → List α} {start univ : List α} {w : Worklist α}

omit [DecidableEq α] in
/-- The start may be gone through in any order. -/
theorem sound_of_perm {order : List α} (h : start.Nodup) (hperm : start.Perm order) :
    Sound next start { begin start with frontier := order } where
  nodup := h
  split := hperm
  seeded := List.Subset.refl _
  led := fun x hx => ⟨x, hx, .refl⟩
  closed := fun _ hx => nomatch hx

theorem sound_visit (h : Sound next start w) {x : α} (hx : w.frontier.getLast? = some x) :
    Sound next start (w.visit next x) := by
  obtain ⟨front, hfront⟩ := List.getLast?_eq_some_iff.mp hx
  have hmem : x ∈ w.met := by
    rw [h.split.mem_iff, hfront]
    simp
  obtain ⟨new, hadded⟩ := added_all
    { w with frontier := w.frontier.dropLast, visited := w.visited ++ [x] } (next x)
  refine ⟨hadded.nodup h.nodup, ?_, ?_, ?_, ?_⟩
  · rw [visit, hadded.met, hadded.frontier, hadded.visited, hfront, List.dropLast_concat]
    have hold : w.met.Perm (w.visited ++ [x] ++ front) := by
      refine h.split.trans ?_
      have hturn : (front ++ [x]).Perm ([x] ++ front) := List.perm_append_comm
      rw [hfront, List.append_assoc]
      exact hturn.append_left _
    rw [← List.append_assoc]
    exact hold.append_right new
  · rw [visit, hadded.met]
    exact fun s hs => List.mem_append_left _ (h.seeded hs)
  · intro y hy
    rw [visit, hadded.met] at hy
    rcases List.mem_append.mp hy with hold | hnew
    · exact h.led y hold
    · obtain ⟨s, hs, hreach⟩ := h.led x hmem
      exact ⟨s, hs, hreach.tail (hadded.among hnew)⟩
  · intro y hy
    rw [visit, hadded.visited] at hy
    rcases List.mem_append.mp hy with hold | hlast
    · rw [visit, hadded.met]
      exact List.Subset.trans (h.closed y hold) (List.subset_append_left _ _)
    · rw [List.mem_singleton.mp hlast]
      exact hadded.all

theorem visited_visit (w : Worklist α) (x : α) :
    (w.visit next x).visited = w.visited ++ [x] := by
  obtain ⟨new, hadded⟩ := added_all
    { w with frontier := w.frontier.dropLast, visited := w.visited ++ [x] } (next x)
  exact hadded.visited

omit [DecidableEq α] in
theorem led_mem_univ (hstart : start ⊆ univ) (hnext : ∀ x ∈ univ, next x ⊆ univ) {s x : α}
    (hs : s ∈ start) (h : Relation.ReflTransGen (Leads next) s x) : x ∈ univ := by
  induction h with
  | refl => exact hstart hs
  | tail _ hstep ih => exact hnext _ ih hstep

/-- The search is over when the universe is used up. -/
theorem sound_explore (hstart : start ⊆ univ) (hnext : ∀ x ∈ univ, next x ⊆ univ) (fuel : Nat)
    (h : Sound next start w) (hfuel : univ.length ≤ fuel + w.visited.length) :
    Sound next start (explore next fuel w) ∧ (explore next fuel w).frontier = [] := by
  have hbound : ∀ w : Worklist α, Sound next start w →
      w.visited.length + w.frontier.length ≤ univ.length := by
    intro w hw
    have hsub : w.met ⊆ univ := by
      intro x hx
      obtain ⟨s, hs, hreach⟩ := hw.led x hx
      exact led_mem_univ hstart hnext hs hreach
    rw [← List.length_append, ← hw.split.length_eq]
    exact (List.subperm_of_subset hw.nodup hsub).length_le
  induction fuel generalizing w with
  | zero =>
      refine ⟨h, List.eq_nil_of_length_eq_zero ?_⟩
      have hw := hbound w h
      simp only [explore]
      omega
  | succ fuel ih =>
      rw [explore]
      split
      · rename_i hnone
        exact ⟨h, List.getLast?_eq_none_iff.mp hnone⟩
      · rename_i x hx
        apply ih (sound_visit h hx)
        rw [visited_visit, List.length_append, List.length_singleton]
        omega

omit [DecidableEq α] in
/-- A search that is over has met what the start leads to, each element once, and has
visited all of it. -/
theorem Sound.finished (h : Sound next start w) (hdone : w.frontier = []) :
    w.met.Nodup ∧ w.met.Perm w.visited ∧
      ∀ x, x ∈ w.met ↔ ∃ s ∈ start, Relation.ReflTransGen (Leads next) s x := by
  have hperm := h.split
  rw [hdone, List.append_nil] at hperm
  refine ⟨h.nodup, hperm, ?_⟩
  intro x
  constructor
  · exact h.led x
  · rintro ⟨s, hs, hreach⟩
    induction hreach with
    | refl => exact h.seeded hs
    | tail _ hstep ih => exact h.closed _ (hperm.mem_iff.mp ih) hstep

end Worklist

end SecureSdlc.Core

import Mathlib.Algebra.Order.Group.Int
import Mathlib.Data.Finset.Card
import Mathlib.Order.Interval.Finset.Nat

/-!
Slices of a sequence between two bounds, either of which may be left out or count from
the end, and the positions that they take.
-/

namespace SecureSdlc.Core

variable {α : Type _}

/-- The position that a bound stands for in a sequence of the length. -/
def sliceIndex (length : Nat) (bound : Int) : Nat :=
  min (if bound < 0 then bound + length else bound).toNat length

/-- `xs[start:stop]`. -/
def slice (xs : List α) (start stop : Option Int) : List α :=
  (xs.take ((stop.map (sliceIndex xs.length)).getD xs.length)).drop
    ((start.map (sliceIndex xs.length)).getD 0)

def slicePositions (length : Nat) (start stop : Option Int) : Finset Nat :=
  Finset.Ico ((start.map (sliceIndex length)).getD 0)
    ((stop.map (sliceIndex length)).getD length)

theorem sliceIndex_le (length : Nat) (bound : Int) : sliceIndex length bound ≤ length :=
  min_le_right _ _

theorem sliceIndex_natCast (length n : Nat) : sliceIndex length n = min n length := by
  rw [sliceIndex, if_neg (Int.not_lt.mpr (Int.natCast_nonneg n)), Int.toNat_natCast]

theorem sliceIndex_neg {n : Nat} (length : Nat) (h : 0 < n) :
    sliceIndex length (-n) = length - n := by
  have hneg : -(n : Int) < 0 := by omega
  rw [sliceIndex, if_pos hneg]
  omega

theorem slicePositions_subset (length : Nat) (start stop : Option Int) :
    slicePositions length start stop ⊆ Finset.range length := by
  intro i hi
  rw [slicePositions, Finset.mem_Ico] at hi
  rw [Finset.mem_range]
  cases stop with
  | none => exact hi.2
  | some bound => exact lt_of_lt_of_le hi.2 (sliceIndex_le length bound)

theorem length_slice (xs : List α) (start stop : Option Int) :
    (slice xs start stop).length = (slicePositions xs.length start stop).card := by
  have hstop : (stop.map (sliceIndex xs.length)).getD xs.length ≤ xs.length := by
    cases stop with
    | none => exact le_refl _
    | some bound => exact sliceIndex_le xs.length bound
  rw [slice, slicePositions, List.length_drop, List.length_take, Nat.card_Ico,
    min_eq_left hstop]

theorem slice_upTo (xs : List α) (n : Nat) : slice xs none (some n) = xs.take n := by
  simp [slice, sliceIndex_natCast, List.take_eq_take_min]

/-- The bound `-0` is the bound `0`. -/
theorem slice_fromEnd (xs : List α) (n : Nat) :
    slice xs (some (-n)) none = if n = 0 then xs else xs.drop (xs.length - n) := by
  split
  · rename_i hzero
    simp [slice, hzero, sliceIndex]
  · rename_i hpos
    simp [slice, sliceIndex_neg xs.length (Nat.pos_of_ne_zero hpos)]

/-- The positions outside two sets are as many as are left when both are counted, if and
only if no position is counted twice. -/
theorem card_outside_iff {length : Nat} {a b : Finset Nat} (ha : a ⊆ Finset.range length)
    (hb : b ⊆ Finset.range length) :
    (length - a.card - b.card : Int) = (Finset.range length \ (a ∪ b)).card ↔ Disjoint a b := by
  have hunion : a ∪ b ⊆ Finset.range length := Finset.union_subset ha hb
  have houtside := Finset.card_sdiff_add_card_eq_card hunion
  have hcount := Finset.card_union_add_card_inter a b
  rw [Finset.card_range] at houtside
  rw [Finset.disjoint_iff_inter_eq_empty, ← Finset.card_eq_zero]
  omega

end SecureSdlc.Core

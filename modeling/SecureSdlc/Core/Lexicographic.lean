import Mathlib.Data.List.Sort

/-!
Lexicographic order and sorting. A code that writes every item of a list at the width
of its position and keeps the order of the items keeps the order of the lists. A list
sorted by an order that tells its items apart depends on the items only.
-/

namespace SecureSdlc.Core.Lexicographic

universe u v
variable {α : Type u} {β : Type v}

/-- Sorting forgets the order its input came in. -/
theorem insertionSort_eq_of_perm {r : α → α → Prop} [DecidableRel r] [Std.Total r]
    [IsTrans α r] {l l' : List α} (h : l.Perm l')
    (anti : ∀ a ∈ l, ∀ b ∈ l, r a b → r b a → a = b) :
    l.insertionSort r = l'.insertionSort r := by
  have hl := List.perm_insertionSort r l
  have hl' := List.perm_insertionSort r l'
  refine List.Perm.eq_of_pairwise ?_ (List.pairwise_insertionSort r l)
    (List.pairwise_insertionSort r l') (hl.trans (h.trans hl'.symm))
  intro a b ha hb
  exact anti a (hl.mem_iff.mp ha) b (h.mem_iff.mpr (hl'.mem_iff.mp hb))

/-- Ordered by `p`, and among equals of `p` by `q`. -/
def thenBy (p q : α → α → Prop) (a b : α) : Prop :=
  p a b ∧ (p b a → q a b)

instance thenBy_total (p q : α → α → Prop) [Std.Total p] [Std.Total q] :
    Std.Total (thenBy p q) where
  total a b := by
    by_cases hab : p a b
    · by_cases hba : p b a
      · exact (Std.Total.total (r := q) a b).imp (fun h => ⟨hab, fun _ => h⟩)
          (fun h => ⟨hba, fun _ => h⟩)
      · exact .inl ⟨hab, fun h => absurd h hba⟩
    · have hba : p b a := (Std.Total.total a b).resolve_left hab
      exact .inr ⟨hba, fun h => absurd h hab⟩

instance thenBy_trans (p q : α → α → Prop) [IsTrans α p] [IsTrans α q] :
    IsTrans α (thenBy p q) where
  trans a b c hab hbc := by
    refine ⟨Trans.trans hab.1 hbc.1, fun hca => ?_⟩
    have hba : p b a := Trans.trans hbc.1 hca
    have hcb : p c b := Trans.trans hca hab.1
    exact Trans.trans (hab.2 hba) (hbc.2 hcb)

section Descending

variable [LT β] [LE β] [Std.IsLinearOrder β] [Std.LawfulOrderLT β] (f : α → List β)

instance descending_total : Std.Total fun a b : α => ¬ f a < f b where
  total a b := List.le_total (f b) (f a)

instance descending_trans : IsTrans α fun a b => ¬ f a < f b where
  trans a b c hab hbc := by
    rw [List.not_lt] at hab hbc ⊢
    exact List.le_trans hbc hab

end Descending

theorem append_lt_append_iff [LT β] {front front' rest rest' : List β}
    (h : front.length = front'.length) :
    front ++ rest < front' ++ rest' ↔ front < front' ∨ front = front' ∧ rest < rest' := by
  induction front generalizing front' with
  | nil =>
      obtain rfl : front' = [] := List.eq_nil_of_length_eq_zero h.symm
      simp
  | cons b front ih =>
      cases front' with
      | nil => simp at h
      | cons b' front' =>
          have hlen : front.length = front'.length := by simpa using h
          simp only [List.cons_append, List.cons_lt_cons_iff, ih hlen, List.cons.injEq]
          constructor
          · intro hlt
            apply hlt.elim (fun hb => .inl (.inl hb))
            intro hrest
            exact hrest.2.elim (fun hf => .inl (.inr ⟨hrest.1, hf⟩))
              (fun hf => .inr ⟨⟨hrest.1, hf.1⟩, hf.2⟩)
          · intro hlt
            apply hlt.elim
            · intro hf
              exact hf.elim .inl fun hf => .inr ⟨hf.1, .inl hf.2⟩
            · intro hf
              exact .inr ⟨hf.1.1, .inr ⟨hf.1.2, hf.2⟩⟩

/-- The items of a list written one after another, each as its position asks for. -/
def encodeFrom (code : Nat → α → List β) : Nat → List α → List β
  | _, [] => []
  | i, a :: rest => code i a ++ encodeFrom code (i + 1) rest

/-- Every item is one that its position has a code for. -/
def FitsFrom (fits : Nat → α → Prop) : Nat → List α → Prop
  | _, [] => True
  | i, a :: rest => fits i a ∧ FitsFrom fits (i + 1) rest

/-- A code of fixed width at each position that keeps and reflects the order. -/
structure OrderCode [LT α] [LT β] (fits : Nat → α → Prop) (code : Nat → α → List β) : Prop where
  width : ∀ {i a b}, fits i a → fits i b → (code i a).length = (code i b).length
  order : ∀ {i a b}, fits i a → fits i b → (code i a < code i b ↔ a < b)
  injective : ∀ {i a b}, fits i a → fits i b → code i a = code i b → a = b

variable [LT α] [LT β] {fits : Nat → α → Prop} {code : Nat → α → List β}

theorem encodeFrom_lt_iff (h : OrderCode fits code) {i : Nat} {l l' : List α}
    (hl : FitsFrom fits i l) (hl' : FitsFrom fits i l') (hlen : l.length = l'.length) :
    encodeFrom code i l < encodeFrom code i l' ↔ l < l' := by
  induction l generalizing i l' with
  | nil =>
      obtain rfl : l' = [] := List.eq_nil_of_length_eq_zero hlen.symm
      simp [encodeFrom]
  | cons a rest ih =>
      cases l' with
      | nil => simp at hlen
      | cons a' rest' =>
          have hrest := ih hl.2 hl'.2 (by simpa using hlen)
          simp only [encodeFrom, append_lt_append_iff (h.width hl.1 hl'.1),
            h.order hl.1 hl'.1, hrest, List.cons_lt_cons_iff]
          constructor
          · intro hlt
            exact hlt.imp_right fun hr => ⟨h.injective hl.1 hl'.1 hr.1, hr.2⟩
          · intro hlt
            exact hlt.imp_right fun hr => ⟨congrArg (code i) hr.1, hr.2⟩

end SecureSdlc.Core.Lexicographic

import Mathlib.Data.List.Basic
import Mathlib.Data.List.Nodup

/-!
Insertion-ordered finite maps as association lists: the reading of a Python
`dict`, of a Go `map` and of a table with a primary key. Assigning to a present
key keeps its position; a new key is appended.
-/

namespace SecureSdlc.Core.Assoc

universe u v
variable {κ : Type u} {ν : Type v} [DecidableEq κ]

def get : List (κ × ν) → κ → Option ν
  | [], _ => none
  | (k', v) :: m, k => if k' = k then some v else get m k

def set : List (κ × ν) → κ → ν → List (κ × ν)
  | [], k, v => [(k, v)]
  | (k', v') :: m, k, v => if k' = k then (k, v) :: m else (k', v') :: set m k v

theorem get_set (m : List (κ × ν)) (k k' : κ) (v : ν) :
    get (set m k v) k' = if k = k' then some v else get m k' := by
  induction m with
  | nil => simp [set, get]
  | cons entry m ih =>
      obtain ⟨k₀, v₀⟩ := entry
      by_cases h : k₀ = k
      · subst h
        simp only [set, if_true, get]
        split <;> rfl
      · simp only [set, h, if_false, get, ih]
        by_cases h' : k₀ = k'
        · subst h'
          simp [Ne.symm h]
        · simp [h']

@[simp] theorem get_set_self (m : List (κ × ν)) (k : κ) (v : ν) :
    get (set m k v) k = some v := by
  simp [get_set]

theorem get_set_of_ne (m : List (κ × ν)) {k k' : κ} (v : ν) (h : k ≠ k') :
    get (set m k v) k' = get m k' := by
  simp [get_set, h]

theorem set_of_get_none {m : List (κ × ν)} {k : κ} (v : ν) (h : get m k = none) :
    set m k v = m ++ [(k, v)] := by
  induction m with
  | nil => rfl
  | cons entry m ih =>
      obtain ⟨k₀, v₀⟩ := entry
      by_cases hk : k₀ = k
      · simp [get, hk] at h
      · simp only [get, hk, if_false] at h
        simp only [set, hk, if_false, ih h, List.cons_append]

/-- Assigning the value that is there changes nothing. -/
theorem set_of_get {m : List (κ × ν)} {k : κ} {v : ν} (h : get m k = some v) : set m k v = m := by
  induction m with
  | nil => cases h
  | cons entry m ih =>
      obtain ⟨k₀, v₀⟩ := entry
      by_cases hk : k₀ = k
      · rw [get, if_pos hk, Option.some.injEq] at h
        rw [set, if_pos hk, hk, h]
      · rw [get, if_neg hk] at h
        rw [set, if_neg hk, ih h]

theorem mem_of_get {m : List (κ × ν)} {k : κ} {v : ν} (h : get m k = some v) :
    (k, v) ∈ m := by
  induction m with
  | nil => simp [get] at h
  | cons entry m ih =>
      obtain ⟨k₀, v₀⟩ := entry
      by_cases hk : k₀ = k
      · subst hk
        simp only [get, if_true, Option.some.injEq] at h
        subst h
        exact List.mem_cons_self
      · simp only [get, hk, if_false] at h
        exact List.mem_cons_of_mem _ (ih h)

theorem ne_of_get_none {m : List (κ × ν)} {k : κ} (h : get m k = none) :
    ∀ entry ∈ m, entry.1 ≠ k := by
  induction m with
  | nil => simp
  | cons head m ih =>
      intro entry he
      by_cases hk : head.1 = k
      · simp [get, hk] at h
      · simp only [get, hk, if_false] at h
        rcases List.mem_cons.mp he with rfl | he
        · exact hk
        · exact ih h entry he

theorem get_of_not_mem {m : List (κ × ν)} {k : κ} (h : k ∉ m.map Prod.fst) : get m k = none := by
  induction m with
  | nil => rfl
  | cons entry m ih =>
      rw [List.map_cons, List.mem_cons, not_or] at h
      rw [get, if_neg (Ne.symm h.1), ih h.2]

theorem get_append (m m' : List (κ × ν)) (k : κ) :
    get (m ++ m') k = (get m k).or (get m' k) := by
  induction m with
  | nil => rfl
  | cons entry m ih =>
      rw [List.cons_append, get, get]
      split
      · rfl
      · exact ih

/-- No key has two entries. -/
def Unique (m : List (κ × ν)) : Prop := (m.map Prod.fst).Nodup

theorem get_of_mem {m : List (κ × ν)} (hm : Unique m) {k : κ} {v : ν} (h : (k, v) ∈ m) :
    get m k = some v := by
  induction m with
  | nil => simp at h
  | cons entry m ih =>
      obtain ⟨k₀, v₀⟩ := entry
      obtain ⟨hk₀, hrest⟩ := List.nodup_cons.mp hm
      rcases List.mem_cons.mp h with heq | htail
      · cases heq
        simp [get]
      · have hne : k₀ ≠ k := by
          intro heq
          subst heq
          have hmem := List.mem_map_of_mem (f := Prod.fst) htail
          exact hk₀ hmem
        simpa [get, hne] using ih hrest htail

/-- A map without repetitions is given by its keys and lookups. -/
theorem eq_map_get {m : List (κ × ν)} (hm : Unique m) (d : ν) :
    m = (m.map Prod.fst).map fun k => (k, (get m k).getD d) := by
  rw [List.map_map]
  refine (List.map_id m).symm.trans (List.map_congr_left fun entry hentry => ?_)
  obtain ⟨k, v⟩ := entry
  simp [get_of_mem hm hentry]

theorem get_iff_mem {m : List (κ × ν)} (hm : Unique m) {k : κ} {v : ν} :
    get m k = some v ↔ (k, v) ∈ m :=
  ⟨mem_of_get, get_of_mem hm⟩

theorem keys_set (m : List (κ × ν)) (k : κ) (v : ν) :
    (set m k v).map Prod.fst =
      if k ∈ m.map Prod.fst then m.map Prod.fst else m.map Prod.fst ++ [k] := by
  induction m with
  | nil => rfl
  | cons entry m ih =>
      obtain ⟨k₀, v₀⟩ := entry
      by_cases hk : k₀ = k
      · subst hk
        simp [set]
      · simp only [set, hk, if_false, List.map_cons, ih, List.mem_cons, Ne.symm hk, false_or]
        split <;> rfl

theorem mem_set {m : List (κ × ν)} {k : κ} {v : ν} {entry : κ × ν} (h : entry ∈ set m k v) :
    entry = (k, v) ∨ entry ∈ m := by
  induction m with
  | nil => exact .inl (List.mem_singleton.mp h)
  | cons head m ih =>
      obtain ⟨k₀, v₀⟩ := head
      by_cases hk : k₀ = k
      · simp only [set, hk, if_true, List.mem_cons] at h
        exact h.imp_right (List.mem_cons_of_mem _)
      · simp only [set, hk, if_false, List.mem_cons] at h
        rcases h with rfl | hrest
        · exact .inr List.mem_cons_self
        · exact (ih hrest).imp_right (List.mem_cons_of_mem _)

theorem unique_set {m : List (κ × ν)} (hm : Unique m) (k : κ) (v : ν) : Unique (set m k v) := by
  rw [Unique, keys_set]
  split
  · exact hm
  · rename_i hk
    rw [List.nodup_append]
    refine ⟨hm, by simp, ?_⟩
    intro a ha b hb hab
    rw [List.mem_singleton] at hb
    exact hk (hb ▸ hab ▸ ha)

/-- Assigning to keys that are new, one after the other, appends their entries. -/
theorem foldl_set_of_unique {m entries : List (κ × ν)} (h : Unique (m ++ entries)) :
    entries.foldl (fun m entry => set m entry.1 entry.2) m = m ++ entries := by
  induction entries generalizing m with
  | nil => simp
  | cons entry entries ih =>
      have hnew : get m entry.1 = none := by
        by_contra hsome
        obtain ⟨v, hv⟩ := Option.ne_none_iff_exists'.mp hsome
        rw [Unique, List.map_append, List.nodup_append] at h
        exact h.2.2 entry.1 (List.mem_map.mpr ⟨_, mem_of_get hv, rfl⟩) entry.1 (by simp) rfl
      rw [List.foldl_cons, set_of_get_none entry.2 hnew, ih (by simpa using h), List.append_assoc]
      rfl

/-- The two maps have the same entries with a value in `P`. -/
def AgreeOn (P : ν → Prop) (m m' : List (κ × ν)) : Prop :=
  ∀ k v, P v → (get m k = some v ↔ get m' k = some v)

theorem agreeOn_append {P : ν → Prop} {m extra : List (κ × ν)} (hm : Unique (m ++ extra))
    (h : ∀ entry ∈ extra, ¬ P entry.2) : AgreeOn P (m ++ extra) m := by
  intro k v hv
  have hfront : Unique m := by
    rw [Unique, List.map_append] at hm
    exact (List.nodup_append.mp hm).1
  rw [get_iff_mem hm, get_iff_mem hfront, List.mem_append]
  exact or_iff_left fun hextra => h _ hextra hv

/-- A selection of such entries is the same in both, up to order. -/
theorem filter_perm_of_agreeOn {P : ν → Prop} {m m' : List (κ × ν)} (hm : Unique m)
    (hm' : Unique m') (h : AgreeOn P m m') (f : κ × ν → Bool)
    (hf : ∀ entry, f entry = true → P entry.2) : (m.filter f).Perm (m'.filter f) := by
  rw [List.perm_ext_iff_of_nodup ((List.Nodup.of_map _ hm).filter f)
    ((List.Nodup.of_map _ hm').filter f)]
  intro entry
  obtain ⟨k, v⟩ := entry
  rw [List.mem_filter, List.mem_filter, ← get_iff_mem hm, ← get_iff_mem hm']
  exact and_congr_left fun hkept => h k v (hf _ hkept)

/-- What a fold over distinct members leaves in the part that one of them is put in. -/
theorem foldl_of_unique {α β : Type*} {put : α → κ × ν → α} {part : α → β} {key : κ}
    {value : ν → β} {members : List (κ × ν)} (hunique : Unique members)
    (hput : ∀ m ∈ members, ∀ x, part (put x m) = if m.1 = key then value m.2 else part x)
    (x : α) :
    part (members.foldl put x) = ((get members key).map value).getD (part x) := by
  induction members generalizing x with
  | nil => rfl
  | cons m rest ih =>
      obtain ⟨k, v⟩ := m
      rw [List.forall_mem_cons] at hput
      rw [Unique, List.map_cons, List.nodup_cons] at hunique
      rw [List.foldl_cons, ih hunique.2 hput.2, hput.1 x, get]
      by_cases hkey : k = key
      · have hnone : get rest key = none := get_of_not_mem (hkey ▸ hunique.1)
        simp only [hkey, if_true, hnone, Option.map_none, Option.getD_none, Option.map_some,
          Option.getD_some]
      · simp only [hkey, if_false]

section Assigning

variable {ξ : Type*} {key : ξ → κ} {value : ξ → ν}

theorem mem_foldl_set {xs : List ξ} {m : List (κ × ν)} {entry : κ × ν}
    (h : entry ∈ xs.foldl (fun m x => set m (key x) (value x)) m) :
    entry ∈ m ∨ ∃ x ∈ xs, entry = (key x, value x) := by
  induction xs generalizing m with
  | nil => exact Or.inl h
  | cons x xs ih =>
      rcases ih h with hset | ⟨y, hy, heq⟩
      · rcases mem_set hset with rfl | hm
        · exact Or.inr ⟨x, List.mem_cons_self, rfl⟩
        · exact Or.inl hm
      · exact Or.inr ⟨y, List.mem_cons_of_mem _ hy, heq⟩

theorem unique_foldl_set (xs : List ξ) {m : List (κ × ν)} (hm : Unique m) :
    Unique (xs.foldl (fun m x => set m (key x) (value x)) m) := by
  induction xs generalizing m with
  | nil => exact hm
  | cons x xs ih => exact ih (unique_set hm _ _)

end Assigning

section Rename

variable {κ' : Type*} {ν' : Type*} [DecidableEq κ'] {f : κ → κ'} (hf : Function.Injective f)
  (g : κ → ν → ν')

/-- Keys renamed without collisions, and values along with them. -/
def rename (f : κ → κ') (m : List (κ × ν)) : List (κ' × ν') :=
  m.map fun entry => (f entry.1, g entry.1 entry.2)

include hf

theorem get_rename (m : List (κ × ν)) (k : κ) :
    get (rename g f m) (f k) = (get m k).map (g k) := by
  induction m with
  | nil => rfl
  | cons entry m ih =>
      obtain ⟨k₀, v₀⟩ := entry
      by_cases hk : k₀ = k
      · subst hk
        simp [rename, get]
      · have hne : f k₀ ≠ f k := fun heq => hk (hf heq)
        simpa [rename, get, hk, hne] using ih

theorem set_rename (m : List (κ × ν)) (k : κ) (v : ν) :
    set (rename g f m) (f k) (g k v) = rename g f (set m k v) := by
  induction m with
  | nil => rfl
  | cons entry m ih =>
      obtain ⟨k₀, v₀⟩ := entry
      by_cases hk : k₀ = k
      · subst hk
        simp [rename, set]
      · have hne : f k₀ ≠ f k := fun heq => hk (hf heq)
        simpa [rename, set, hk, hne] using ih

end Rename

theorem get_map_const (keys : List κ) (v : ν) (k : κ) :
    get (keys.map fun k' => (k', v)) k = if k ∈ keys then some v else none := by
  induction keys with
  | nil => simp [get]
  | cons k' keys ih =>
      simp only [List.map_cons, get, List.mem_cons, ih]
      by_cases h : k' = k
      · simp [h]
      · simp [h, Ne.symm h]

end SecureSdlc.Core.Assoc

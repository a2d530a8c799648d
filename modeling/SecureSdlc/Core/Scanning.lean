import Mathlib.Computability.Language
import Mathlib.Data.List.TakeWhile

/-!
Languages put together from classes of letters, and how a scanner that never goes back
decides them: a run of letters of a class is taken as far as it goes.
-/

namespace SecureSdlc.Core

open scoped Computability

variable {α : Type _}

/-- The words of one letter of the class. -/
def oneOf (p : α → Bool) : Language α := {w | ∃ c, p c = true ∧ w = [c]}

theorem mem_singleton {v w : List α} : w ∈ ({v} : Language α) ↔ w = v :=
  Iff.rfl

theorem mem_kstar_oneOf {p : α → Bool} {w : List α} :
    w ∈ (oneOf p)∗ ↔ ∀ c ∈ w, p c = true := by
  rw [Language.mem_kstar]
  constructor
  · rintro ⟨words, rfl, hwords⟩ c hc
    obtain ⟨word, hword, hin⟩ := List.mem_flatten.mp hc
    obtain ⟨letter, hletter, rfl⟩ := hwords word hword
    rw [List.mem_singleton.mp hin]
    exact hletter
  · intro h
    refine ⟨w.map fun c => [c], ?_, ?_⟩
    · rw [← List.flatMap_def, List.flatMap_singleton']
    · intro word hword
      obtain ⟨c, hc, rfl⟩ := List.mem_map.mp hword
      exact ⟨c, h c hc, rfl⟩

theorem mem_singleton_mul {v w : List α} {l : Language α} :
    w ∈ {v} * l ↔ v <+: w ∧ w.drop v.length ∈ l := by
  rw [Language.mem_mul]
  constructor
  · rintro ⟨a, ha, b, hb, rfl⟩
    obtain rfl := mem_singleton.mp ha
    rw [List.drop_left]
    exact ⟨List.prefix_append _ _, hb⟩
  · rintro ⟨⟨b, rfl⟩, hb⟩
    rw [List.drop_left] at hb
    exact ⟨v, mem_singleton.mpr rfl, b, hb, rfl⟩

theorem mem_oneOf_mul {p : α → Bool} {w : List α} {l : Language α} :
    w ∈ oneOf p * l ↔ ∃ c rest, w = c :: rest ∧ p c = true ∧ rest ∈ l := by
  rw [Language.mem_mul]
  constructor
  · rintro ⟨a, ⟨c, hc, rfl⟩, b, hb, rfl⟩
    exact ⟨c, b, rfl, hc, hb⟩
  · rintro ⟨c, rest, rfl, hc, hrest⟩
    exact ⟨[c], ⟨c, hc, rfl⟩, rest, hrest, rfl⟩

/-- A run is scanned to its end when nothing that may follow begins with a letter of it. -/
theorem mem_kstar_mul {p : α → Bool} {w : List α} {l : Language α}
    (h : ∀ v ∈ l, ∀ c ∈ v.head?, p c = false) :
    w ∈ (oneOf p)∗ * l ↔ w.dropWhile p ∈ l := by
  rw [Language.mem_mul]
  constructor
  · rintro ⟨a, ha, b, hb, rfl⟩
    rw [List.dropWhile_append_of_pos (mem_kstar_oneOf.mp ha)]
    cases b with
    | nil => exact hb
    | cons c rest =>
        have hstop := h _ hb c rfl
        rw [List.dropWhile_cons_of_neg (by rw [hstop]; exact Bool.false_ne_true)]
        exact hb
  · intro hrest
    refine ⟨w.takeWhile p, ?_, _, hrest, List.takeWhile_append_dropWhile⟩
    exact mem_kstar_oneOf.mpr fun c hc => List.mem_takeWhile_imp hc

/-- Every letter of every word has the property. -/
def LettersIn (P : α → Prop) (l : Language α) : Prop := ∀ w ∈ l, ∀ c ∈ w, P c

theorem lettersIn_mul {P : α → Prop} {l m : Language α} (hl : LettersIn P l)
    (hm : LettersIn P m) : LettersIn P (l * m) := by
  intro w hw c hc
  obtain ⟨a, ha, b, hb, rfl⟩ := Language.mem_mul.mp hw
  rcases List.mem_append.mp hc with hfront | hback
  · exact hl a ha c hfront
  · exact hm b hb c hback

theorem lettersIn_singleton {P : α → Prop} {v : List α} (h : ∀ c ∈ v, P c) :
    LettersIn P ({v} : Language α) := by
  intro w hw
  rw [mem_singleton.mp hw]
  exact h

theorem lettersIn_oneOf {P : α → Prop} {p : α → Bool} (h : ∀ c, p c = true → P c) :
    LettersIn P (oneOf p) := by
  rintro w ⟨letter, hletter, rfl⟩ c hc
  rw [List.mem_singleton.mp hc]
  exact h letter hletter

theorem lettersIn_kstar {P : α → Prop} {p : α → Bool} (h : ∀ c, p c = true → P c) :
    LettersIn P (oneOf p)∗ :=
  fun _ hw c hc => h c (mem_kstar_oneOf.mp hw c hc)

/-- The words of `l` whose letters all have the property are words of `m`. -/
def ContainedOn (P : α → Prop) (l m : Language α) : Prop := ∀ w ∈ l, (∀ c ∈ w, P c) → w ∈ m

theorem containedOn_refl (P : α → Prop) (l : Language α) : ContainedOn P l l :=
  fun _ hw _ => hw

theorem containedOn_mul {P : α → Prop} {l l' m m' : Language α} (hl : ContainedOn P l l')
    (hm : ContainedOn P m m') : ContainedOn P (l * m) (l' * m') := by
  intro w hw h
  obtain ⟨a, ha, b, hb, rfl⟩ := Language.mem_mul.mp hw
  rw [List.forall_mem_append] at h
  exact Language.append_mem_mul (hl a ha h.1) (hm b hb h.2)

theorem containedOn_oneOf {P : α → Prop} {p q : α → Bool}
    (h : ∀ c, P c → p c = true → q c = true) : ContainedOn P (oneOf p) (oneOf q) := by
  rintro w ⟨c, hc, rfl⟩ hP
  exact ⟨c, h c (hP c (List.mem_singleton.mpr rfl)) hc, rfl⟩

theorem containedOn_kstar {P : α → Prop} {p q : α → Bool}
    (h : ∀ c, P c → p c = true → q c = true) : ContainedOn P (oneOf p)∗ (oneOf q)∗ := by
  intro w hw hP
  exact mem_kstar_oneOf.mpr fun c hc => h c (hP c hc) (mem_kstar_oneOf.mp hw c hc)

end SecureSdlc.Core

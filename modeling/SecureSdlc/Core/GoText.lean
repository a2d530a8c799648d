import Mathlib.Data.List.DropRight
import SecureSdlc.Core.Lexicographic

/-!
The parts of the Go standard library the services rely on: `unicode.IsSpace`,
`strings.TrimSpace`, rune counts, the order of strings, and `time.RFC3339` of a UTC
time. A time is kept broken down to the second, which is all that layout prints; the
texts of two times compare as the times do.
-/

namespace SecureSdlc.Core.GoText

/-- `unicode.IsSpace`: the `White_Space` property. -/
def isSpace (c : Char) : Bool :=
  let n := c.toNat
  (0x09 ≤ n && n ≤ 0x0D) || n == 0x20 || n == 0x85 || n == 0xA0 || n == 0x1680 ||
    (0x2000 ≤ n && n ≤ 0x200A) || n == 0x2028 || n == 0x2029 || n == 0x202F ||
    n == 0x205F || n == 0x3000

/-- `strings.TrimSpace`. -/
def trimSpace (s : String) : String :=
  String.ofList (((s.toList.dropWhile isSpace).reverse.dropWhile isSpace).reverse)

theorem trimSpace_of_forall {s : String} (h : ∀ c ∈ s.toList, isSpace c = false) :
    trimSpace s = s := by
  have hkeep : ∀ l : List Char, (∀ c ∈ l, isSpace c = false) → l.dropWhile isSpace = l := by
    intro l hl
    cases l with
    | nil => rfl
    | cons c l => exact List.dropWhile_cons_of_neg (by simp [hl c List.mem_cons_self])
  rw [trimSpace, hkeep _ h, hkeep _ fun c hc => h c (List.mem_reverse.mp hc),
    List.reverse_reverse, String.ofList_toList]

/-- `trimSpace_of_forall` by running over the text. -/
theorem trimSpace_of_all {s : String} (h : (s.toList.all fun c => !isSpace c) = true) :
    trimSpace s = s :=
  trimSpace_of_forall fun c hc => by simpa using List.all_eq_true.mp h c hc

theorem mem_of_mem_trimSpace {s : String} {c : Char} (h : c ∈ (trimSpace s).toList) :
    c ∈ s.toList := by
  rw [trimSpace, String.toList_ofList, List.mem_reverse] at h
  have hinner := (List.dropWhile_sublist isSpace).mem h
  exact (List.dropWhile_sublist isSpace).mem (List.mem_reverse.mp hinner)

/-- `len([]rune(s))`. -/
def runeCount (s : String) : Nat :=
  s.toList.length

/-- `s < t` of strings: by bytes, which is by code points. -/
def before (s t : String) : Bool :=
  decide (s.toList < t.toList)

/-- A UTC time with a four-digit year, to the second. -/
structure UtcTime where
  year : Nat
  month : Nat
  day : Nat
  hour : Nat
  minute : Nat
  second : Nat
  year_lt : year < 10000
  month_le : 1 ≤ month ∧ month ≤ 12
  day_le : 1 ≤ day ∧ day ≤ 31
  hour_lt : hour < 24
  minute_lt : minute < 60
  second_lt : second < 60
  deriving DecidableEq

/-- From the year down to the second. -/
def UtcTime.fields (t : UtcTime) : List Nat :=
  [t.year, t.month, t.day, t.hour, t.minute, t.second]

def daysIn (year month : Nat) : Nat :=
  if month = 2 then
    if year % 4 = 0 ∧ (year % 100 ≠ 0 ∨ year % 400 = 0) then 29 else 28
  else if month = 4 ∨ month = 6 ∨ month = 9 ∨ month = 11 then 30
  else 31

/-- The day exists, and the year is one of the common era. -/
def UtcTime.onCalendar (t : UtcTime) : Bool :=
  1 ≤ t.year && t.day ≤ daysIn t.year t.month

def digit (n : Nat) : Char :=
  Char.ofNat (48 + n % 10)

def twoDigits (n : Nat) : List Char :=
  [digit (n / 10), digit n]

def fourDigits (n : Nat) : List Char :=
  [digit (n / 1000), digit (n / 100), digit (n / 10), digit n]

/-- `t.Format(time.RFC3339)` of a UTC time. -/
def formatRFC3339 (t : UtcTime) : String :=
  String.ofList (fourDigits t.year ++ '-' :: twoDigits t.month ++ '-' :: twoDigits t.day ++
    'T' :: twoDigits t.hour ++ ':' :: twoDigits t.minute ++ ':' :: twoDigits t.second ++ ['Z'])

theorem digit_val (n : Nat) : (digit n).val.toNat = 48 + n % 10 := by
  have hlt : n % 10 < 10 := Nat.mod_lt n (by decide)
  have hall : ∀ d < 10, (Char.ofNat (48 + d)).val.toNat = 48 + d := by decide
  exact hall (n % 10) hlt

theorem digit_lt_iff (m n : Nat) : digit m < digit n ↔ m % 10 < n % 10 := by
  rw [Char.lt_def, UInt32.lt_iff_toNat_lt, digit_val, digit_val]
  omega

theorem digit_eq_iff (m n : Nat) : digit m = digit n ↔ m % 10 = n % 10 := by
  rw [Char.ext_iff, ← UInt32.toNat_inj, digit_val, digit_val]
  omega

theorem twoDigits_lt_iff {m n : Nat} (hm : m < 100) (hn : n < 100) :
    twoDigits m < twoDigits n ↔ m < n := by
  simp only [twoDigits, List.cons_lt_cons_iff, digit_lt_iff, digit_eq_iff, List.not_lt_nil,
    and_false, or_false]
  omega

theorem twoDigits_injective {m n : Nat} (hm : m < 100) (hn : n < 100)
    (h : twoDigits m = twoDigits n) : m = n := by
  simp only [twoDigits, List.cons.injEq, digit_eq_iff] at h
  omega

private theorem div_ten_div (n : Nat) :
    n / 10 / 10 = n / 100 ∧ n / 100 / 10 = n / 1000 ∧ n / 1000 / 10 = n / 10000 := by
  simp only [Nat.div_div_eq_div_mul, Nat.reduceMul, and_self]

theorem fourDigits_lt_iff {m n : Nat} (hm : m < 10000) (hn : n < 10000) :
    fourDigits m < fourDigits n ↔ m < n := by
  simp only [fourDigits, List.cons_lt_cons_iff, digit_lt_iff, digit_eq_iff, List.not_lt_nil,
    and_false, or_false]
  have := div_ten_div m
  have := div_ten_div n
  omega

theorem fourDigits_injective {m n : Nat} (hm : m < 10000) (hn : n < 10000)
    (h : fourDigits m = fourDigits n) : m = n := by
  simp only [fourDigits, List.cons.injEq, digit_eq_iff] at h
  omega

/-- The character the layout puts behind a field. -/
def separator : Nat → Char
  | 0 | 1 => '-'
  | 2 => 'T'
  | 3 | 4 => ':'
  | _ => 'Z'

def fieldCode (i n : Nat) : List Char :=
  (if i = 0 then fourDigits n else twoDigits n) ++ [separator i]

def fieldFits (i n : Nat) : Prop :=
  n < if i = 0 then 10000 else 100

theorem fieldCode_order : Lexicographic.OrderCode fieldFits fieldCode where
  width {i a b} _ _ := by
    simp only [fieldCode]
    split <;> rfl
  order {i a b} ha hb := by
    simp only [fieldFits, fieldCode] at ha hb ⊢
    split at ha
    · rename_i hi
      simp only [hi, if_true] at hb ⊢
      rw [Lexicographic.append_lt_append_iff (by rfl), fourDigits_lt_iff ha hb]
      simp
    · rename_i hi
      simp only [hi, if_false] at hb ⊢
      rw [Lexicographic.append_lt_append_iff (by rfl), twoDigits_lt_iff ha hb]
      simp
  injective {i a b} ha hb h := by
    simp only [fieldFits, fieldCode, List.append_left_inj] at ha hb h
    split at ha
    · rename_i hi
      simp only [hi, if_true] at hb h
      exact fourDigits_injective ha hb h
    · rename_i hi
      simp only [hi, if_false] at hb h
      exact twoDigits_injective ha hb h

theorem toList_formatRFC3339 (t : UtcTime) :
    (formatRFC3339 t).toList = Lexicographic.encodeFrom fieldCode 0 t.fields := by
  rw [formatRFC3339, String.toList_ofList]
  rfl

theorem fields_fit (t : UtcTime) : Lexicographic.FitsFrom fieldFits 0 t.fields := by
  have := t.year_lt
  have := t.month_le
  have := t.day_le
  have := t.hour_lt
  have := t.minute_lt
  have := t.second_lt
  simp only [UtcTime.fields, Lexicographic.FitsFrom, fieldFits, if_true, Nat.reduceAdd,
    Nat.reduceEqDiff, if_false, and_true]
  omega

/-- The texts of two times compare as strings the way the times do field by field. -/
theorem before_formatRFC3339 (t t' : UtcTime) :
    before (formatRFC3339 t) (formatRFC3339 t') = decide (t.fields < t'.fields) := by
  rw [before, toList_formatRFC3339, toList_formatRFC3339, decide_eq_decide]
  exact Lexicographic.encodeFrom_lt_iff fieldCode_order (fields_fit t) (fields_fit t') rfl

/-- A time just after noon, in the first minute. -/
def noonAnd (second : Nat) (h : second < 60) : UtcTime :=
  ⟨2026, 9, 22, 12, 0, second, by decide, by decide, by decide, by decide, by decide, h⟩

def noon : UtcTime := noonAnd 0 (by decide)

example : formatRFC3339 noon = "2026-09-22T12:00:00Z" := by decide

/-- A front part of what was scanned from the front is not scanned further. -/
theorem dropWhile_of_prefix {α : Type} {p : α → Bool} {l m : List α} (h : m <+: l.dropWhile p) :
    m.dropWhile p = m := by
  obtain ⟨rest, hrest⟩ := h
  cases m with
  | nil => rfl
  | cons c m =>
      cases hc : p c with
      | false => exact List.dropWhile_cons_of_neg (by rw [hc]; exact Bool.false_ne_true)
      | true =>
          have htwice := List.dropWhile_idempotent p l
          have hlength := (List.dropWhile_sublist p (l := m ++ rest)).length_le
          rw [← hrest, List.cons_append, List.dropWhile_cons_of_pos hc] at htwice
          rw [htwice, List.length_cons] at hlength
          omega

theorem trimSpace_trimSpace (s : String) : trimSpace (trimSpace s) = trimSpace s := by
  have hfront : ((s.toList.dropWhile isSpace).reverse.dropWhile isSpace).reverse <+:
      s.toList.dropWhile isSpace := by
    have hsuffix := (List.dropWhile_suffix isSpace (l := (s.toList.dropWhile isSpace).reverse))
    rw [← List.reverse_prefix, List.reverse_reverse] at hsuffix
    exact hsuffix
  conv_lhs => rw [trimSpace]
  rw [trimSpace, String.toList_ofList, dropWhile_of_prefix hfront, List.reverse_reverse,
    List.dropWhile_idempotent]

end SecureSdlc.Core.GoText

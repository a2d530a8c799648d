import Mathlib.Data.List.TakeWhile
import SecureSdlc.Core.JsonReaders

/-!
The texts of `json.loads` as a grammar: what a string, a scalar and a value are spelt
with, blanks between the tokens included, at the digits of their longest integer and the
depth of their nesting. A reader that succeeds has consumed a text of the grammar, and such
a text is read, from any fuel that covers it, exactly when it keeps to both limits.
-/

namespace SecureSdlc.Core.JsonText

/-- The characters after the opening quote of a string, the closing one included. -/
inductive StringBody : PyStr → PyStr → Prop
  | close : StringBody [cp '"'] []
  | plain {c : CodePoint} {text s : PyStr} (hlow : 0x20 ≤ c.val) (hquote : c ≠ cp '"')
      (hback : c ≠ cp '\\') (h : StringBody text s) : StringBody (c :: text) (c :: s)
  | short {e c : CodePoint} {text s : PyStr} (he : simpleEscape e = some c) (hunit : e ≠ cp 'u')
      (h : StringBody text s) : StringBody (cp '\\' :: e :: text) (c :: s)
  | unit {digits text s : PyStr} {n : Nat} (hdigits : hex4 digits = some (n, []))
      (halone : lowHalf n text = .ok (codePoint n, text)) (h : StringBody text s) :
      StringBody (cp '\\' :: cp 'u' :: (digits ++ text)) (codePoint n :: s)
  | pair {digits low text s : PyStr} {n m : Nat} (hdigits : hex4 digits = some (n, []))
      (hhigh : 0xD800 ≤ n ∧ n ≤ 0xDBFF) (hlow : hex4 low = some (m, []))
      (hrange : 0xDC00 ≤ m ∧ m ≤ 0xDFFF) (h : StringBody text s) :
      StringBody (cp '\\' :: cp 'u' :: (digits ++ cp '\\' :: cp 'u' :: (low ++ text)))
        (codePoint (0x10000 + (n - 0xD800) * 0x400 + (m - 0xDC00)) :: s)

section Strings

theorem hex4_split {s rest : PyStr} {n : Nat} (h : hex4 s = some (n, rest)) :
    ∃ a b c d, s = a :: b :: c :: d :: rest ∧ hex4 [a, b, c, d] = some (n, []) := by
  rw [hex4.eq_def] at h
  split at h
  · rename_i a b c d after
    refine ⟨a, b, c, d, ?_⟩
    simp only [hex4, Option.bind_eq_bind, Option.bind_eq_some_iff, Option.pure_def,
      Option.some.injEq, Prod.mk.injEq] at h ⊢
    obtain ⟨a', ha, b', hb, c', hc, d', hd, hn, rfl⟩ := h
    exact ⟨rfl, a', ha, b', hb, c', hc, d', hd, hn, trivial⟩
  · cases h

theorem hex4_append {digits : PyStr} {n : Nat} (h : hex4 digits = some (n, [])) (rest : PyStr) :
    hex4 (digits ++ rest) = some (n, rest) := by
  obtain ⟨a, b, c, d, rfl, -⟩ := hex4_split h
  simp only [List.cons_append, List.nil_append, hex4, Option.bind_eq_bind, Option.bind_eq_some_iff,
    Option.pure_def, Option.some.injEq, Prod.mk.injEq, and_true] at h ⊢
  exact h

theorem lowHalf_unit {n m : Nat} {low : PyStr} (hhigh : 0xD800 ≤ n ∧ n ≤ 0xDBFF)
    (hlow : hex4 low = some (m, [])) (rest : PyStr) :
    lowHalf n (cp '\\' :: cp 'u' :: (low ++ rest)) =
      if 0xDC00 ≤ m ∧ m ≤ 0xDFFF then
        .ok (codePoint (0x10000 + (n - 0xD800) * 0x400 + (m - 0xDC00)), rest)
      else .ok (codePoint n, cp '\\' :: cp 'u' :: (low ++ rest)) := by
  simp only [lowHalf, hhigh, and_self, if_true, hex4_append hlow]

/-- Whether a unit stays alone is decided within the string. -/
theorem StringBody.alone {text s : PyStr} {n : Nat} (h : StringBody text s) (rest more : PyStr)
    (halone : lowHalf n (text ++ rest) = .ok (codePoint n, text ++ rest)) :
    lowHalf n (text ++ more) = .ok (codePoint n, text ++ more) := by
  have hunits : ∀ {low after after' : PyStr} {m : Nat}, hex4 low = some (m, []) →
      lowHalf n (cp '\\' :: cp 'u' :: (low ++ after)) =
        .ok (codePoint n, cp '\\' :: cp 'u' :: (low ++ after)) →
      lowHalf n (cp '\\' :: cp 'u' :: (low ++ after')) =
        .ok (codePoint n, cp '\\' :: cp 'u' :: (low ++ after')) := by
    intro low after after' m hlow halone
    by_cases hhigh : 0xD800 ≤ n ∧ n ≤ 0xDBFF
    · rw [lowHalf_unit hhigh hlow] at halone ⊢
      split at halone
      · have hlength := congrArg List.length (Prod.mk.inj (Except.ok.inj halone)).2
        simp only [List.length_cons, List.length_append] at hlength
        omega
      · rename_i hrange
        rw [if_neg hrange]
    · exact lowHalf_of_not_high hhigh _
  cases h with
  | close =>
      apply lowHalf_of_ne
      intro u digits heq
      exact absurd (List.cons.inj heq).1 (by decide)
  | plain _ _ hback _ =>
      apply lowHalf_of_ne
      intro u digits heq
      exact absurd (List.cons.inj heq).1 hback
  | short _ hunit _ =>
      apply lowHalf_of_ne
      intro u digits heq
      rw [← (List.cons.inj (List.cons.inj heq).2).1]
      exact hunit
  | unit hdigits _ _ =>
      simp only [List.cons_append, List.append_assoc] at halone ⊢
      exact hunits hdigits halone
  | pair hdigits _ _ _ _ =>
      simp only [List.cons_append, List.append_assoc] at halone ⊢
      exact hunits hdigits halone

theorem readString_escape {fuel n : Nat} {digits rest after tail s : PyStr} {c : CodePoint}
    (hdigits : hex4 digits = some (n, [])) (hlow : lowHalf n rest = .ok (c, after))
    (h : readString fuel after = .ok (s, tail)) :
    readString (fuel + 1) (cp '\\' :: cp 'u' :: (digits ++ rest)) = .ok (c :: s, tail) := by
  have hquote : cp '\\' ≠ cp '"' := by decide
  have hprint : ¬ (cp '\\').val < 0x20 := by decide
  simp only [readString, hquote, hprint, if_false, if_true, hex4_append hdigits, hlow, bind,
    Except.bind, h]
  rfl

/-- A string is read whatever follows it. -/
theorem StringBody.reads {text s : PyStr} (h : StringBody text s) {fuel : Nat}
    (hfuel : text.length ≤ fuel) (rest : PyStr) :
    readString fuel (text ++ rest) = .ok (s, rest) := by
  induction h generalizing fuel with
  | close =>
      obtain ⟨fuel, rfl⟩ := Nat.exists_eq_add_of_le' hfuel
      rfl
  | plain hlow hquote hback _ ih =>
      obtain ⟨fuel, rfl⟩ := Nat.exists_eq_add_one_of_ne_zero
        (Nat.ne_of_gt (Nat.zero_lt_of_lt hfuel))
      exact readString_plain hlow hquote hback (ih (Nat.le_of_succ_le_succ hfuel))
  | short he hunit _ ih =>
      obtain ⟨fuel, rfl⟩ := Nat.exists_eq_add_one_of_ne_zero
        (Nat.ne_of_gt (Nat.zero_lt_of_lt hfuel))
      refine readString_short he hunit (ih ?_)
      simp only [List.length_cons] at hfuel
      omega
  | unit hdigits halone hbody ih =>
      obtain ⟨fuel, rfl⟩ := Nat.exists_eq_add_one_of_ne_zero
        (Nat.ne_of_gt (Nat.zero_lt_of_lt hfuel))
      rw [List.cons_append, List.cons_append, List.append_assoc]
      have halone := hbody.alone [] rest (by rwa [List.append_nil])
      refine readString_escape hdigits halone (ih ?_)
      simp only [List.length_cons, List.length_append] at hfuel
      omega
  | pair hdigits hhigh hlow hrange _ ih =>
      obtain ⟨fuel, rfl⟩ := Nat.exists_eq_add_one_of_ne_zero
        (Nat.ne_of_gt (Nat.zero_lt_of_lt hfuel))
      rw [List.cons_append, List.cons_append, List.append_assoc, List.cons_append,
        List.cons_append, List.append_assoc]
      refine readString_escape hdigits ?_ (ih ?_)
      · rw [lowHalf_unit hhigh hlow, if_pos hrange]
      · simp only [List.length_cons, List.length_append] at hfuel
        omega

/-- A unit is read alone or with the low surrogate after it. -/
theorem lowHalf_cases {n : Nat} {s rest : PyStr} {c : CodePoint}
    (h : lowHalf n s = .ok (c, rest)) :
    (c = codePoint n ∧ rest = s) ∨
      ∃ low m, s = cp '\\' :: cp 'u' :: (low ++ rest) ∧ hex4 low = some (m, []) ∧
        (0xD800 ≤ n ∧ n ≤ 0xDBFF) ∧ (0xDC00 ≤ m ∧ m ≤ 0xDFFF) ∧
        c = codePoint (0x10000 + (n - 0xD800) * 0x400 + (m - 0xDC00)) := by
  rw [lowHalf.eq_def] at h
  split at h
  · split at h
    · rename_i hunit
      obtain ⟨hlow, hhigh, rfl, rfl⟩ := hunit
      split at h
      · cases h
      · rename_i m after hhex
        split at h
        · rename_i hrange
          rw [Except.ok.injEq, Prod.mk.injEq] at h
          obtain ⟨rfl, rfl⟩ := h
          obtain ⟨a, b, c, d, rfl, hdigits⟩ := hex4_split hhex
          exact .inr ⟨[a, b, c, d], m, rfl, hdigits, ⟨hlow, hhigh⟩, hrange, rfl⟩
        · cases h
          exact .inl ⟨rfl, rfl⟩
    · cases h
      exact .inl ⟨rfl, rfl⟩
  · cases h
    exact .inl ⟨rfl, rfl⟩

theorem stringBody_of_reads {fuel : Nat} {s str rest : PyStr}
    (h : readString fuel s = .ok (str, rest)) :
    ∃ text, s = text ++ rest ∧ StringBody text str := by
  induction fuel generalizing s str with
  | zero => cases h
  | succ fuel ih =>
      cases s with
      | nil => cases h
      | cons c s =>
          rw [readString.eq_def] at h
          dsimp only at h
          split at h
          · rename_i hquote
            cases h
            exact ⟨[cp '"'], by rw [hquote]; rfl, .close⟩
          rename_i hquote
          split at h
          · cases h
          rename_i hlow
          split at h
          · rename_i hback
            subst hback
            split at h
            · cases h
            · rename_i e after
              split at h
              · rename_i hunit
                subst hunit
                split at h
                · cases h
                · rename_i n after hhex
                  obtain ⟨⟨c, more⟩, hhalf, h⟩ := exists_ok_of_bind h
                  obtain ⟨⟨str, tail⟩, hread, h⟩ := exists_ok_of_bind h
                  cases h
                  obtain ⟨text, rfl, hbody⟩ := ih hread
                  obtain ⟨i, j, k, l, rfl, hdigits⟩ := hex4_split hhex
                  rcases lowHalf_cases hhalf with ⟨rfl, hmore⟩ | ⟨low, m, rfl, hlow, hrest⟩
                  · subst hmore
                    have halone := hbody.alone _ [] hhalf
                    rw [List.append_nil] at halone
                    exact ⟨_, by simp, .unit hdigits halone hbody⟩
                  · obtain ⟨hhigh, hrange, rfl⟩ := hrest
                    refine ⟨_, ?_, .pair hdigits hhigh hlow hrange hbody⟩
                    simp
              · rename_i hunit
                split at h
                · cases h
                · rename_i c he
                  obtain ⟨⟨str, tail⟩, hread, h⟩ := exists_ok_of_bind h
                  cases h
                  obtain ⟨text, rfl, hbody⟩ := ih hread
                  exact ⟨_, rfl, .short he hunit hbody⟩
          · rename_i hback
            obtain ⟨⟨str, tail⟩, hread, h⟩ := exists_ok_of_bind h
            cases h
            obtain ⟨text, rfl, hbody⟩ := ih hread
            exact ⟨_, rfl, .plain (Nat.not_lt.mp hlow) hquote hback hbody⟩

end Strings

def Digits (s : PyStr) : Prop := s ≠ [] ∧ ∀ c ∈ s, isDigit c = true

/-- `0|[1-9][0-9]*` -/
def WholeText (s : PyStr) : Prop :=
  s = [cp '0'] ∨ ∃ c digits, c ≠ cp '0' ∧ s = c :: digits ∧ ∀ d ∈ s, isDigit d = true

def FractionText (s : PyStr) : Prop := s = [] ∨ ∃ digits, Digits digits ∧ s = cp '.' :: digits

def ExponentText (s : PyStr) : Prop :=
  s = [] ∨ ∃ e sign digits, (e = cp 'e' ∨ e = cp 'E') ∧
    (sign = [] ∨ sign = [cp '-'] ∨ sign = [cp '+']) ∧ Digits digits ∧ s = e :: (sign ++ digits)

/-- The characters of a scalar: no blank, no quote and nothing beyond ASCII. -/
def solid (c : CodePoint) : Bool := decide (0x20 < c.val ∧ c.val < 0x7F ∧ c ≠ cp '"')

section Numbers

variable {rest : PyStr}

theorem solid_of_isDigit {c : CodePoint} (h : isDigit c = true) : solid c = true := by
  have hne : cp '"' ≠ c := ne_of_isDigit h rfl
  rw [isDigit, decide_eq_true_eq] at h
  exact decide_eq_true ⟨by omega, by omega, hne.symm⟩

theorem WholeText.digits {s : PyStr} (h : WholeText s) : Digits s := by
  rcases h with rfl | ⟨c, digits, -, rfl, hdigits⟩
  · exact ⟨by simp, by simp only [List.mem_singleton, forall_eq]; rfl⟩
  · exact ⟨by simp, hdigits⟩

theorem FractionText.solid {s : PyStr} (h : FractionText s) : ∀ c ∈ s, solid c = true := by
  rcases h with rfl | ⟨digits, hdigits, rfl⟩
  · simp
  · rw [List.forall_mem_cons]
    exact ⟨rfl, fun c hc => solid_of_isDigit (hdigits.2 c hc)⟩

theorem ExponentText.solid {s : PyStr} (h : ExponentText s) : ∀ c ∈ s, solid c = true := by
  rcases h with rfl | ⟨e, sign, digits, he, hsign, hdigits, rfl⟩
  · simp
  · rw [List.forall_mem_cons, List.forall_mem_append]
    refine ⟨?_, ?_, fun c hc => solid_of_isDigit (hdigits.2 c hc)⟩
    · rcases he with rfl | rfl <;> rfl
    · rcases hsign with rfl | rfl | rfl
      · simp
      all_goals simp only [List.mem_singleton, forall_eq]; rfl

theorem digits_takeWhile {s : PyStr} (h : s.takeWhile isDigit ≠ []) :
    Digits (s.takeWhile isDigit) :=
  ⟨h, fun _ hc => List.mem_takeWhile_imp hc⟩

theorem fraction_split (s : PyStr) :
    FractionText (fraction s).1 ∧ s = (fraction s).1 ++ (fraction s).2 := by
  cases s with
  | nil => exact ⟨.inl rfl, rfl⟩
  | cons dot s =>
      rw [fraction]
      split
      · rename_i h
        obtain ⟨rfl, hne⟩ := h
        exact ⟨.inr ⟨_, digits_takeWhile hne, rfl⟩, by simp⟩
      · exact ⟨.inl rfl, rfl⟩

/-- A sign, if there is one. -/
def Signed (sign digits : PyStr) : Prop :=
  sign = [cp '-'] ∨ sign = [cp '+'] ∨
    sign = [] ∧ ∀ c more, digits = c :: more → c ≠ cp '-' ∧ c ≠ cp '+'

theorem exists_signed (s : PyStr) : ∃ sign digits, Signed sign digits ∧ s = sign ++ digits := by
  cases s with
  | nil => exact ⟨[], [], .inr (.inr ⟨rfl, fun _ _ h => nomatch h⟩), rfl⟩
  | cons c more =>
      by_cases hminus : c = cp '-'
      · exact ⟨[cp '-'], more, .inl rfl, by rw [hminus]; rfl⟩
      by_cases hplus : c = cp '+'
      · exact ⟨[cp '+'], more, .inr (.inl rfl), by rw [hplus]; rfl⟩
      refine ⟨[], c :: more, .inr (.inr ⟨rfl, ?_⟩), rfl⟩
      intro d rest heq
      obtain ⟨rfl, -⟩ := List.cons.inj heq
      exact ⟨hminus, hplus⟩

theorem exponent_signed {e : CodePoint} {sign digits : PyStr} (he : e = cp 'e' ∨ e = cp 'E')
    (h : Signed sign digits) :
    exponent (e :: (sign ++ digits)) =
      if digits.takeWhile isDigit = [] then ([], e :: (sign ++ digits))
      else (e :: (sign ++ digits.takeWhile isDigit), digits.dropWhile isDigit) := by
  rcases h with rfl | rfl | ⟨rfl, hdigits⟩
  · simp only [exponent, he, if_true, List.nil_append, true_or, List.cons_append]
  · simp only [exponent, he, if_true, List.nil_append, or_true, List.cons_append]
  · cases digits with
    | nil => simp [exponent]
    | cons c more =>
        obtain ⟨hminus, hplus⟩ := hdigits c more rfl
        simp only [exponent, he, if_true, List.nil_append, hminus, hplus, or_self, if_false,
          List.cons_append]

theorem exponent_split (s : PyStr) :
    ExponentText (exponent s).1 ∧ s = (exponent s).1 ++ (exponent s).2 := by
  cases s with
  | nil => exact ⟨.inl rfl, rfl⟩
  | cons e s =>
      by_cases he : e = cp 'e' ∨ e = cp 'E'
      · obtain ⟨sign, digits, hsigned, rfl⟩ := exists_signed s
        rw [exponent_signed he hsigned]
        split
        · exact ⟨.inl rfl, rfl⟩
        · rename_i hne
          have hsign : sign = [] ∨ sign = [cp '-'] ∨ sign = [cp '+'] := by
            rcases hsigned with h | h | ⟨h, -⟩ <;> simp [h]
          refine ⟨.inr ⟨e, sign, _, he, hsign, digits_takeWhile hne, rfl⟩, ?_⟩
          simp
      · simp only [exponent, he, if_false]
        exact ⟨.inl rfl, rfl⟩

theorem Digits.head {digits : PyStr} (h : Digits digits) :
    ∃ c more, digits = c :: more ∧ isDigit c = true := by
  obtain ⟨c, more, rfl⟩ := List.exists_cons_of_ne_nil h.1
  exact ⟨c, more, rfl, h.2 c List.mem_cons_self⟩

/-- Digits are taken up to a text that starts with none. -/
theorem Digits.taken {digits : PyStr} (h : ∀ c ∈ digits, isDigit c = true)
    (hrest : ∀ c after, rest = c :: after → isDigit c = false) :
    (digits ++ rest).takeWhile isDigit = digits ∧ (digits ++ rest).dropWhile isDigit = rest := by
  rw [List.takeWhile_append_of_pos h, List.dropWhile_append_of_pos h]
  cases rest with
  | nil => simp
  | cons c after => simp [hrest c after rfl]

theorem exponent_append {expo : PyStr} (h : ExponentText expo) (hends : Ends rest) :
    exponent (expo ++ rest) = (expo, rest) := by
  rcases h with rfl | ⟨e, sign, digits, he, hsign, hdigits, rfl⟩
  · exact exponent_of_ends hends
  · obtain ⟨htake, hdrop⟩ := Digits.taken hdigits.2 fun c after heq => (hends c after heq).1
    have hsigned : Signed sign (digits ++ rest) := by
      rcases hsign with rfl | rfl | rfl
      · refine .inr (.inr ⟨rfl, ?_⟩)
        obtain ⟨c, more, rfl, hc⟩ := hdigits.head
        intro d after heq
        obtain ⟨rfl, -⟩ := List.cons.inj heq
        exact ⟨(ne_of_isDigit hc rfl).symm, (ne_of_isDigit hc rfl).symm⟩
      · exact .inl rfl
      · exact .inr (.inl rfl)
    rw [List.cons_append, List.append_assoc, exponent_signed he hsigned, htake, hdrop,
      if_neg hdigits.1]

/-- What follows the whole part of a number starts with no digit, and what follows its
fraction with no dot either. -/
theorem exponent_head {expo : PyStr} (h : ExponentText expo) (hends : Ends rest) :
    ∀ c after, expo ++ rest = c :: after → isDigit c = false ∧ c ≠ cp '.' := by
  intro c after heq
  rcases h with rfl | ⟨e, sign, digits, he, -, -, rfl⟩
  · exact ⟨(hends c after heq).1, (hends c after heq).2.1⟩
  · obtain ⟨rfl, -⟩ := List.cons.inj heq
    rcases he with rfl | rfl <;> exact ⟨rfl, by decide⟩

theorem fraction_append {frac : PyStr} (h : FractionText frac)
    (hrest : ∀ c after, rest = c :: after → isDigit c = false ∧ c ≠ cp '.') :
    fraction (frac ++ rest) = (frac, rest) := by
  rcases h with rfl | ⟨digits, hdigits, rfl⟩
  · cases rest with
    | nil => rfl
    | cons c after =>
        have hdot := (hrest c after rfl).2
        simp only [List.nil_append, fraction, hdot, false_and, if_false]
  · obtain ⟨htake, hdrop⟩ := Digits.taken hdigits.2 fun c after heq => (hrest c after heq).1
    have hne := hdigits.1
    simp only [List.cons_append, fraction, htake, hdrop, true_and, ne_eq, hne, not_false_eq_true,
      if_true]

theorem fraction_head {frac : PyStr} (h : FractionText frac)
    (hrest : ∀ c after, rest = c :: after → isDigit c = false) :
    ∀ c after, frac ++ rest = c :: after → isDigit c = false := by
  intro c after heq
  rcases h with rfl | ⟨digits, -, rfl⟩
  · exact hrest c after heq
  · obtain ⟨rfl, -⟩ := List.cons.inj heq
    rfl

/-- The value of a number from its parts. -/
def numberOf (rt : Runtime) (negative : Bool) (whole frac expo : PyStr) : Json :=
  if frac = [] ∧ expo = [] then .int (if negative then -digitsValue whole else digitsValue whole)
  else .float (rt.floatRepr ((if negative then py "-" else []) ++ whole ++ frac ++ expo))

/-- The digits of a number that is an integer. -/
def intDigits (whole frac expo : PyStr) : Nat := if frac = [] ∧ expo = [] then whole.length else 0

theorem readNumber_parts (rt : Runtime) (negative : Bool) {whole frac expo : PyStr}
    (hwhole : WholeText whole) (hfrac : FractionText frac) (hexpo : ExponentText expo)
    (hends : Ends rest) :
    readNumber rt negative (whole ++ (frac ++ (expo ++ rest))) =
      if maxStrDigits < intDigits whole frac expo then .error { kind := .valueError }
      else .ok (numberOf rt negative whole frac expo, rest) := by
  have hexponent := exponent_append hexpo hends
  have hfraction := fraction_append hfrac (exponent_head hexpo hends)
  have hhead := fraction_head hfrac fun c after heq => (exponent_head hexpo hends c after heq).1
  have hread : readNumber rt negative (whole ++ (frac ++ (expo ++ rest))) =
      if frac = [] ∧ expo = [] then
        if maxStrDigits < whole.length then .error { kind := .valueError }
        else .ok (.int (if negative then -digitsValue whole else digitsValue whole), rest)
      else .ok (.float (rt.floatRepr
        ((if negative then py "-" else []) ++ whole ++ frac ++ expo)), rest) := by
    rcases hwhole with rfl | ⟨c, digits, hzero, rfl, hdigits⟩
    · have hdigit : isDigit (cp '0') = true := rfl
      simp only [List.singleton_append, readNumber, hdigit, if_true, hfraction, hexponent]
    · obtain ⟨htake, hdrop⟩ := Digits.taken hdigits hhead
      rw [List.cons_append] at htake hdrop
      simp only [List.cons_append, readNumber, hdigits c List.mem_cons_self, if_true, hzero,
        if_false, htake, hdrop, hfraction, hexponent]
  rw [hread, intDigits, numberOf]
  by_cases hint : frac = [] ∧ expo = []
  · simp only [if_pos hint]
  · simp only [if_neg hint, if_neg (Nat.not_lt_zero maxStrDigits)]

theorem readNumber_split {rt : Runtime} {negative : Bool} {s : PyStr} {v : Json}
    (h : readNumber rt negative s = .ok (v, rest)) :
    ∃ whole frac expo, WholeText whole ∧ FractionText frac ∧ ExponentText expo ∧
      s = whole ++ (frac ++ (expo ++ rest)) ∧
      intDigits whole frac expo ≤ maxStrDigits ∧ v = numberOf rt negative whole frac expo := by
  cases s with
  | nil => cases h
  | cons c s =>
      rw [readNumber] at h
      split at h
      · rename_i hc
        dsimp only at h
        have hwhole : WholeText (if c = cp '0' then [c] else (c :: s).takeWhile isDigit) ∧
            c :: s = (if c = cp '0' then [c] else (c :: s).takeWhile isDigit) ++
              (if c = cp '0' then s else (c :: s).dropWhile isDigit) := by
          split
          · rename_i hzero
            exact ⟨.inl (by rw [hzero]), rfl⟩
          · rename_i hzero
            refine ⟨.inr ⟨c, s.takeWhile isDigit, hzero, by simp [hc], ?_⟩, by simp⟩
            exact fun d hd => List.mem_takeWhile_imp hd
        generalize (if c = cp '0' then [c] else (c :: s).takeWhile isDigit) = whole at h hwhole
        generalize (if c = cp '0' then s else (c :: s).dropWhile isDigit) = after at h hwhole
        obtain ⟨hfrac, hafter⟩ := fraction_split after
        obtain ⟨hexpo, hmore⟩ := exponent_split (fraction after).2
        have hsplit : c :: s = whole ++ ((fraction after).1 ++
            ((exponent (fraction after).2).1 ++ (exponent (fraction after).2).2)) := by
          rw [← hmore, ← hafter, hwhole.2]
        split at h
        · rename_i hint
          split at h
          · cases h
          · rename_i hlength
            obtain ⟨rfl, rfl⟩ := Prod.mk.inj (Except.ok.inj h)
            refine ⟨whole, _, _, hwhole.1, hfrac, hexpo, hsplit, ?_, ?_⟩
            · rw [intDigits, if_pos hint]
              exact Nat.not_lt.mp hlength
            · rw [numberOf, if_pos hint]
        · rename_i hfloat
          obtain ⟨rfl, rfl⟩ := Prod.mk.inj (Except.ok.inj h)
          refine ⟨whole, _, _, hwhole.1, hfrac, hexpo, hsplit, ?_, ?_⟩
          · rw [intDigits, if_neg hfloat]
            exact Nat.zero_le _
          · rw [numberOf, if_neg hfloat]
      · cases h

end Numbers

/-- A literal or a number, with its digits if it is an integer, and its value. -/
inductive ScalarText (rt : Runtime) : Nat → PyStr → Json → Prop
  | null : ScalarText rt 0 (py "null") .null
  | litTrue : ScalarText rt 0 (py "true") (.bool true)
  | litFalse : ScalarText rt 0 (py "false") (.bool false)
  | nan : ScalarText rt 0 (py "NaN") (.float (py "nan"))
  | infinity : ScalarText rt 0 (py "Infinity") (.float (py "inf"))
  | negInfinity : ScalarText rt 0 (py "-Infinity") (.float (py "-inf"))
  | number {negative : Bool} {whole frac expo : PyStr} (hwhole : WholeText whole)
      (hfrac : FractionText frac) (hexpo : ExponentText expo) :
      ScalarText rt (intDigits whole frac expo)
        ((if negative then py "-" else []) ++ (whole ++ (frac ++ expo)))
        (numberOf rt negative whole frac expo)

section Scalars

variable {rt : Runtime} {digits : Nat} {text : PyStr} {v : Json}

theorem ScalarText.solid (h : ScalarText rt digits text v) : ∀ c ∈ text, solid c = true := by
  cases h with
  | null | litTrue | litFalse | nan | infinity | negInfinity =>
      exact List.all_eq_true.mp (by decide)
  | @number negative whole frac expo hwhole hfrac hexpo =>
      rw [List.forall_mem_append, List.forall_mem_append, List.forall_mem_append]
      refine ⟨?_, fun c hc => solid_of_isDigit (hwhole.digits.2 c hc), hfrac.solid, hexpo.solid⟩
      cases negative with
      | false => simp
      | true => exact List.all_eq_true.mp (by decide)

/-- It starts with a letter, a digit or a sign. -/
theorem ScalarText.head (h : ScalarText rt digits text v) :
    ∃ c more, text = c :: more ∧ c ≠ cp '[' ∧ c ≠ cp ']' ∧ c ≠ cp '\x7b' ∧ c ≠ cp '\x7d' := by
  cases h with
  | null | litTrue | litFalse | nan | infinity | negInfinity =>
      exact ⟨_, _, rfl, by decide, by decide, by decide, by decide⟩
  | @number negative whole frac expo hwhole hfrac hexpo =>
      cases negative with
      | true => exact ⟨cp '-', _, rfl, by decide, by decide, by decide, by decide⟩
      | false =>
          obtain ⟨c, more, rfl, hc⟩ := hwhole.digits.head
          exact ⟨c, _, rfl, (ne_of_isDigit hc rfl).symm, (ne_of_isDigit hc rfl).symm,
            (ne_of_isDigit hc rfl).symm, (ne_of_isDigit hc rfl).symm⟩

theorem ScalarText.notObject (h : ScalarText rt digits text v) (fields : Mapping) :
    v ≠ .obj fields := by
  cases h with
  | null | litTrue | litFalse | nan | infinity | negInfinity => exact Json.noConfusion
  | number _ _ _ =>
      rw [numberOf]
      split
      · exact Json.noConfusion
      · exact Json.noConfusion

theorem ScalarText.readsNumber (rt : Runtime) (negative : Bool) {whole frac expo rest : PyStr}
    (hwhole : WholeText whole) (hfrac : FractionText frac) (hexpo : ExponentText expo)
    (hends : Ends rest) :
    readScalar rt ((if negative then py "-" else []) ++ (whole ++ (frac ++ expo)) ++ rest) =
      if maxStrDigits < intDigits whole frac expo then .error { kind := .valueError }
      else .ok (numberOf rt negative whole frac expo, rest) := by
  rw [← readNumber_parts rt negative hwhole hfrac hexpo hends, List.append_assoc,
    List.append_assoc, List.append_assoc]
  obtain ⟨c, more, rfl, hc⟩ := hwhole.digits.head
  cases negative with
  | true => exact readScalar_minus rt hc _
  | false => exact readScalar_digit rt hc _

theorem ScalarText.reads (h : ScalarText rt digits text v) (hdigits : digits ≤ maxStrDigits)
    {rest : PyStr} (hends : Ends rest) : readScalar rt (text ++ rest) = .ok (v, rest) := by
  cases h with
  | null => exact readScalar_null rt rest
  | litTrue => exact readScalar_true rt rest
  | litFalse => exact readScalar_false rt rest
  | nan => exact (floatText_special rt (by simp : py "nan" ∈ _)).reads rest hends
  | infinity => exact (floatText_special rt (by simp : py "inf" ∈ _)).reads rest hends
  | negInfinity => exact (floatText_special rt (by simp : py "-inf" ∈ _)).reads rest hends
  | number hwhole hfrac hexpo =>
      rw [ScalarText.readsNumber rt _ hwhole hfrac hexpo hends, if_neg (Nat.not_lt.mpr hdigits)]

theorem ScalarText.refused (h : ScalarText rt digits text v) (hdigits : maxStrDigits < digits)
    {rest : PyStr} (hends : Ends rest) :
    readScalar rt (text ++ rest) = .error { kind := .valueError } := by
  cases h with
  | null | litTrue | litFalse | nan | infinity | negInfinity =>
      exact absurd hdigits (Nat.not_lt_zero _)
  | number hwhole hfrac hexpo =>
      rw [ScalarText.readsNumber rt _ hwhole hfrac hexpo hends, if_pos hdigits]

theorem literal?_split {literal : String} {s rest : PyStr} (h : literal? literal s = some rest) :
    s = py literal ++ rest := by
  rw [literal?] at h
  split at h
  · rename_i hstarts
    obtain ⟨more, rfl⟩ := of_decide_eq_true hstarts
    rw [List.drop_left] at h
    rw [Option.some.inj h]
  · cases h

theorem scalarText_of_reads {s rest : PyStr} (h : readScalar rt s = .ok (v, rest)) :
    ∃ digits text, s = text ++ rest ∧ ScalarText rt digits text v ∧
      digits ≤ maxStrDigits := by
  rw [readScalar.eq_def] at h
  split at h
  · cases h
    exact ⟨_, _, literal?_split (by assumption), .null, Nat.zero_le _⟩
  · cases h
    exact ⟨_, _, literal?_split (by assumption), .litTrue, Nat.zero_le _⟩
  · cases h
    exact ⟨_, _, literal?_split (by assumption), .litFalse, Nat.zero_le _⟩
  split at h
  · cases h
    exact ⟨_, _, literal?_split (by assumption), .nan, Nat.zero_le _⟩
  · cases h
    exact ⟨_, _, literal?_split (by assumption), .infinity, Nat.zero_le _⟩
  · cases h
    exact ⟨_, _, literal?_split (by assumption), .negInfinity, Nat.zero_le _⟩
  split at h
  · split at h
    · rename_i hminus
      obtain ⟨whole, frac, expo, hwhole, hfrac, hexpo, rfl, hdigits, rfl⟩ := readNumber_split h
      exact ⟨_, _, by simp [hminus]; rfl, .number hwhole hfrac hexpo, hdigits⟩
    · obtain ⟨whole, frac, expo, hwhole, hfrac, hexpo, heq, hdigits, rfl⟩ := readNumber_split h
      exact ⟨_, _, by simp [heq], .number hwhole hfrac hexpo, hdigits⟩
  · cases h

end Scalars

/-- The blanks between two tokens. -/
def Gap (s : PyStr) : Prop := ∀ c ∈ s, isBlank c = true

mutual

/-- A value, with the digits of its longest integer and the depth of its nesting. -/
inductive ValueText (rt : Runtime) : Nat → Nat → PyStr → Json → Prop
  | scalar {digits : Nat} {text : PyStr} {v : Json} (h : ScalarText rt digits text v) :
      ValueText rt digits 0 text v
  | str {text s : PyStr} (h : StringBody text s) : ValueText rt 0 0 (cp '"' :: text) (.str s)
  | noItems {gap : PyStr} (hgap : Gap gap) :
      ValueText rt 0 1 (cp '[' :: (gap ++ [cp ']'])) (.arr [])
  | items {digits nest : Nat} {gap text : PyStr} {items : List Json} (hgap : Gap gap)
      (h : ItemsText rt digits nest text items) :
      ValueText rt digits (nest + 1) (cp '[' :: (gap ++ text)) (.arr items)
  | noFields {gap : PyStr} (hgap : Gap gap) :
      ValueText rt 0 1 (cp '\x7b' :: (gap ++ [cp '\x7d'])) (.obj [])
  | fields {digits nest : Nat} {gap text : PyStr} {fields : List (PyStr × Json)} (hgap : Gap gap)
      (h : FieldsText rt digits nest [] text fields) :
      ValueText rt digits (nest + 1) (cp '\x7b' :: (gap ++ text)) (.obj fields)

/-- The items of an array and its closing bracket. -/
inductive ItemsText (rt : Runtime) : Nat → Nat → PyStr → List Json → Prop
  | last {digits nest : Nat} {text gap : PyStr} {v : Json} (h : ValueText rt digits nest text v)
      (hgap : Gap gap) : ItemsText rt digits nest (text ++ (gap ++ [cp ']'])) [v]
  | more {digits nest digits' nest' : Nat} {text gap gap' rest : PyStr} {v : Json}
      {vs : List Json} (h : ValueText rt digits nest text v) (hgap : Gap gap) (hgap' : Gap gap')
      (hrest : ItemsText rt digits' nest' rest vs) :
      ItemsText rt (max digits digits') (max nest nest')
        (text ++ (gap ++ cp ',' :: (gap' ++ rest))) (v :: vs)

/-- The members of an object after those that are known, and its closing brace. -/
inductive FieldsText (rt : Runtime) :
    Nat → Nat → List (PyStr × Json) → PyStr → List (PyStr × Json) → Prop
  | last {digits nest : Nat} {known : List (PyStr × Json)}
      {key k keyGap valueGap text gap : PyStr} {v : Json} (hkey : StringBody key k)
      (hkeyGap : Gap keyGap) (hvalueGap : Gap valueGap) (h : ValueText rt digits nest text v)
      (hgap : Gap gap) :
      FieldsText rt digits nest known
        (cp '"' :: (key ++ (keyGap ++ cp ':' :: (valueGap ++ (text ++ (gap ++ [cp '\x7d']))))))
        (Assoc.set known k v)
  | more {digits nest digits' nest' : Nat} {known fields : List (PyStr × Json)}
      {key k keyGap valueGap text gap gap' rest : PyStr} {v : Json} (hkey : StringBody key k)
      (hkeyGap : Gap keyGap) (hvalueGap : Gap valueGap) (h : ValueText rt digits nest text v)
      (hgap : Gap gap) (hgap' : Gap gap')
      (hrest : FieldsText rt digits' nest' (Assoc.set known k v) rest fields) :
      FieldsText rt (max digits digits') (max nest nest') known
        (cp '"' :: (key ++ (keyGap ++ cp ':' ::
          (valueGap ++ (text ++ (gap ++ cp ',' :: (gap' ++ rest)))))))
        fields

end

/-- The limits of the reader on the digits of an integer and on the nesting. -/
def Fits (digits nest room : Nat) : Prop := digits ≤ maxStrDigits ∧ nest ≤ room

theorem fits_max {digits nest digits' nest' room : Nat} :
    Fits (max digits digits') (max nest nest') room ↔
      Fits digits nest room ∧ Fits digits' nest' room := by
  simp only [Fits, Nat.max_le]
  tauto

theorem fits_succ {digits nest room : Nat} :
    Fits digits (nest + 1) (room + 1) ↔ Fits digits nest room := by
  simp only [Fits, Nat.add_le_add_iff_right]

section Values

variable {rt : Runtime} {digits nest room : Nat} {text : PyStr} {v : Json}

theorem skipBlanks_split {s rest : PyStr} (h : skipBlanks s = rest) :
    ∃ gap, Gap gap ∧ s = gap ++ rest := by
  refine ⟨s.takeWhile isBlank, fun c hc => List.mem_takeWhile_imp hc, ?_⟩
  rw [← h]
  exact List.takeWhile_append_dropWhile.symm

/-- By induction on the fuel that the three readers share. -/
theorem texts_of_reads (rt : Runtime) (fuel : Nat) :
    (∀ room s v rest, read rt fuel room s = .ok (v, rest) →
      ∃ digits nest text, s = text ++ rest ∧ ValueText rt digits nest text v ∧
        Fits digits nest room) ∧
    (∀ room s items rest, readItems rt fuel room s = .ok (items, rest) →
      ∃ digits nest text, s = text ++ rest ∧ ItemsText rt digits nest text items ∧
        Fits digits nest room) ∧
    ∀ room known s fields rest, readFields rt fuel room known s = .ok (fields, rest) →
      ∃ digits nest text, s = text ++ rest ∧ FieldsText rt digits nest known text fields ∧
        Fits digits nest room := by
  induction fuel with
  | zero =>
      refine ⟨?_, ?_, ?_⟩
      · intro room s v rest h
        cases h
      · intro room s items rest h
        cases h
      · intro room known s fields rest h
        cases h
  | succ fuel ih =>
      obtain ⟨hvalue, hitems, hfields⟩ := ih
      refine ⟨?_, ?_, ?_⟩
      · intro room s v rest h
        cases s with
        | nil => cases h
        | cons c s =>
            rw [read.eq_def] at h
            dsimp only at h
            split at h
            · rename_i hquote
              obtain ⟨⟨str, after⟩, hread, h⟩ := exists_ok_of_bind h
              cases h
              obtain ⟨text, rfl, hbody⟩ := stringBody_of_reads hread
              exact ⟨_, _, _, by rw [hquote]; rfl, .str hbody, Nat.zero_le _, Nat.zero_le _⟩
            split at h
            · rename_i hopen
              split at h
              · cases h
              · rename_i room
                split at h
                · rename_i d after hskip
                  obtain ⟨gap, hgap, rfl⟩ := skipBlanks_split hskip
                  split at h
                  · rename_i hclose
                    cases h
                    exact ⟨_, _, _, by simp [hopen, hclose], .noItems hgap, Nat.zero_le _,
                      Nat.le_add_left _ _⟩
                  · obtain ⟨⟨items, tail⟩, hread, h⟩ := exists_ok_of_bind h
                    cases h
                    obtain ⟨_, _, text, htext, hspelt, hfits⟩ := hitems room _ items tail hread
                    exact ⟨_, _, _, by simp [hopen, htext], .items hgap hspelt,
                      fits_succ.mpr hfits⟩
                · cases h
            split at h
            · rename_i hopen
              split at h
              · cases h
              · rename_i room
                split at h
                · rename_i d after hskip
                  obtain ⟨gap, hgap, rfl⟩ := skipBlanks_split hskip
                  split at h
                  · rename_i hclose
                    cases h
                    exact ⟨_, _, _, by simp [hopen, hclose], .noFields hgap, Nat.zero_le _,
                      Nat.le_add_left _ _⟩
                  · obtain ⟨⟨fields, tail⟩, hread, h⟩ := exists_ok_of_bind h
                    cases h
                    obtain ⟨_, _, text, htext, hspelt, hfits⟩ := hfields room [] _ fields tail hread
                    exact ⟨_, _, _, by simp [hopen, htext], .fields hgap hspelt,
                      fits_succ.mpr hfits⟩
                · cases h
            · obtain ⟨_, text, htext, hscalar, hdigits⟩ := scalarText_of_reads h
              exact ⟨_, _, text, htext, .scalar hscalar, hdigits, Nat.zero_le _⟩
      · intro room s items rest h
        rw [readItems] at h
        obtain ⟨⟨v, after⟩, hfirst, hnext⟩ := exists_ok_of_bind h
        clear h
        obtain ⟨_, _, text, rfl, hspelt, hfits⟩ := hvalue room s v after hfirst
        dsimp only at hnext
        split at hnext
        · rename_i c more hskip
          obtain ⟨gap, hgap, rfl⟩ := skipBlanks_split hskip
          split at hnext
          · rename_i hclose
            cases hnext
            exact ⟨_, _, _, by simp [hclose], .last hspelt hgap, hfits⟩
          split at hnext
          · rename_i hcomma
            obtain ⟨⟨vs, tail⟩, hrest, hnext⟩ := exists_ok_of_bind hnext
            cases hnext
            obtain ⟨_, _, rest', hskip', hspelt', hfits'⟩ := hitems room _ vs tail hrest
            obtain ⟨gap', hgap', rfl⟩ := skipBlanks_split hskip'
            exact ⟨_, _, _, by simp [hcomma], .more hspelt hgap hgap' hspelt',
              fits_max.mpr ⟨hfits, hfits'⟩⟩
          · cases hnext
        · cases hnext
      · intro room known s fields rest h
        cases s with
        | nil => cases h
        | cons c s =>
            rw [readFields] at h
            split at h
            · rename_i hquote
              obtain ⟨⟨k, after⟩, hkey, hnext⟩ := exists_ok_of_bind h
              clear h
              obtain ⟨key, rfl, hbody⟩ := stringBody_of_reads hkey
              dsimp only at hnext
              split at hnext
              · rename_i colon after' hskip
                obtain ⟨keyGap, hkeyGap, rfl⟩ := skipBlanks_split hskip
                split at hnext
                · rename_i hcolon
                  obtain ⟨⟨v, tail⟩, hfirst, hlast⟩ := exists_ok_of_bind hnext
                  clear hnext
                  obtain ⟨_, _, text, hskip', hspelt, hfits⟩ := hvalue room _ v tail hfirst
                  obtain ⟨valueGap, hvalueGap, rfl⟩ := skipBlanks_split hskip'
                  dsimp only at hlast
                  split at hlast
                  · rename_i d more hmore
                    obtain ⟨gap, hgap, rfl⟩ := skipBlanks_split hmore
                    split at hlast
                    · rename_i hclose
                      cases hlast
                      exact ⟨_, _, _, by simp [hquote, hcolon, hclose],
                        .last hbody hkeyGap hvalueGap hspelt hgap, hfits⟩
                    split at hlast
                    · rename_i hcomma
                      obtain ⟨_, _, rest', hrest, hspelt', hfits'⟩ :=
                        hfields room _ _ fields rest hlast
                      obtain ⟨gap', hgap', rfl⟩ := skipBlanks_split hrest
                      exact ⟨_, _, _, by simp [hquote, hcolon, hcomma],
                        .more hbody hkeyGap hvalueGap hspelt hgap hgap' hspelt',
                        fits_max.mpr ⟨hfits, hfits'⟩⟩
                    · cases hlast
                  · cases hlast
                · cases hnext
              · cases hnext
            · cases h

theorem Gap.ends {gap rest : PyStr} (hgap : Gap gap) (hends : Ends rest) : Ends (gap ++ rest) := by
  cases gap with
  | nil => exact hends
  | cons c gap =>
      intro d after heq
      obtain ⟨rfl, -⟩ := List.cons.inj heq
      have hblank := of_decide_eq_true (hgap c List.mem_cons_self)
      rcases hblank with rfl | rfl | rfl | rfl <;> decide

theorem Gap.skip {gap : PyStr} (hgap : Gap gap) {c : CodePoint} (hc : isBlank c = false)
    (rest : PyStr) : skipBlanks (gap ++ c :: rest) = c :: rest := by
  rw [skipBlanks, List.dropWhile_append_of_pos hgap]
  exact skipBlanks_cons hc rest

theorem ScalarText.leads (h : ScalarText rt digits text v) : Leads text := by
  obtain ⟨c, more, rfl, -, hclose, -, hclose'⟩ := h.head
  have hsolid := of_decide_eq_true (h.solid c List.mem_cons_self)
  refine ⟨c, more, rfl, ?_, hclose, hclose', by omega⟩
  rw [isBlank, decide_eq_false_iff_not]
  rintro (rfl | rfl | rfl | rfl) <;> exact absurd hsolid.1 (by decide)

theorem ValueText.leads (h : ValueText rt digits nest text v) : Leads text := by
  cases h with
  | scalar h => exact h.leads
  | str _ => exact ⟨cp '"', _, rfl, by decide, by decide⟩
  | noItems _ | items _ _ => exact ⟨cp '[', _, rfl, by decide, by decide⟩
  | noFields _ | fields _ _ => exact ⟨cp '\x7b', _, rfl, by decide, by decide⟩

theorem ItemsText.leads {items : List Json} (h : ItemsText rt digits nest text items) :
    Leads text := by
  cases h with
  | last h _ => exact h.leads.append _
  | more h _ _ _ => exact h.leads.append _

theorem FieldsText.leads {known fields : List (PyStr × Json)}
    (h : FieldsText rt digits nest known text fields) : Leads text := by
  cases h with
  | last _ _ _ _ _ | more _ _ _ _ _ _ _ => exact ⟨cp '"', _, rfl, by decide, by decide⟩

mutual

/-- A text that keeps to the limits is read whatever follows, but that no more of a number
may. -/
theorem ValueText.reads {digits nest room : Nat} {text : PyStr} {v : Json} :
    ValueText rt digits nest text v → Fits digits nest room → ∀ {fuel : Nat},
      text.length ≤ fuel → ∀ {rest : PyStr}, ((∀ fields, v ≠ .obj fields) → Ends rest) →
        read rt fuel room (text ++ rest) = .ok (v, rest)
  | .scalar h, hfits, fuel, hfuel, rest, hends => by
      obtain ⟨c, more, rfl, harr, -, hobj, -⟩ := h.head
      have hsolid := of_decide_eq_true (h.solid c List.mem_cons_self)
      rw [List.length_cons] at hfuel
      obtain ⟨fuel, rfl⟩ : ∃ less, fuel = less + 1 := ⟨fuel - 1, by omega⟩
      rw [List.cons_append, read_scalar hsolid.2.2 harr hobj]
      exact h.reads hfits.1 (hends h.notObject)
  | @ValueText.str _ body _ h, _, fuel, hfuel, rest, _ => by
      rw [List.length_cons] at hfuel
      obtain ⟨fuel, rfl⟩ : ∃ less, fuel = less + 1 := ⟨fuel - 1, by omega⟩
      have hread := h.reads (by rw [List.length_append]; omega : _ ≤ (body ++ rest).length + 1) rest
      simp only [List.cons_append, read, if_true, hread]
      rfl
  | .noItems hgap, hfits, fuel, hfuel, rest, _ => by
      obtain ⟨room, rfl⟩ := Nat.exists_eq_add_of_le' hfits.2
      rw [List.length_cons] at hfuel
      obtain ⟨fuel, rfl⟩ : ∃ less, fuel = less + 1 := ⟨fuel - 1, by omega⟩
      have hquote : cp '[' ≠ cp '"' := by decide
      have hskip := hgap.skip (by decide : isBlank (cp ']') = false) rest
      simp only [List.cons_append, List.append_assoc, List.nil_append, read, hquote, hskip,
        if_true, if_false]
  | @ValueText.items _ _ nest _ _ _ hgap h, hfits, fuel, hfuel, rest, _ => by
      obtain ⟨room, rfl⟩ : ∃ less, room = less + 1 :=
        Nat.exists_eq_add_of_le' ((Nat.le_add_left 1 nest).trans hfits.2)
      rw [List.length_cons, List.length_append] at hfuel
      obtain ⟨fuel, rfl⟩ : ∃ less, fuel = less + 1 := ⟨fuel - 1, by omega⟩
      have hquote : cp '[' ≠ cp '"' := by decide
      have hread := h.reads (fits_succ.mp hfits) (by omega : _ ≤ fuel) rest
      have hskip := skipBlanks_gap hgap (h.leads.append rest)
      obtain ⟨c, more, heq, -, hclose, -, -⟩ := h.leads.append rest
      rw [List.cons_append, List.append_assoc]
      rw [heq] at hread hskip
      simp only [heq, read, hquote, hskip, hclose, if_true, if_false, hread]
      rfl
  | .noFields hgap, hfits, fuel, hfuel, rest, _ => by
      obtain ⟨room, rfl⟩ := Nat.exists_eq_add_of_le' hfits.2
      rw [List.length_cons] at hfuel
      obtain ⟨fuel, rfl⟩ : ∃ less, fuel = less + 1 := ⟨fuel - 1, by omega⟩
      have hquote : cp '\x7b' ≠ cp '"' := by decide
      have harr : cp '\x7b' ≠ cp '[' := by decide
      have hskip := hgap.skip (by decide : isBlank (cp '\x7d') = false) rest
      simp only [List.cons_append, List.append_assoc, List.nil_append, read, hquote, harr, hskip,
        if_true, if_false]
  | @ValueText.fields _ _ nest _ _ _ hgap h, hfits, fuel, hfuel, rest, _ => by
      obtain ⟨room, rfl⟩ : ∃ less, room = less + 1 :=
        Nat.exists_eq_add_of_le' ((Nat.le_add_left 1 nest).trans hfits.2)
      rw [List.length_cons, List.length_append] at hfuel
      obtain ⟨fuel, rfl⟩ : ∃ less, fuel = less + 1 := ⟨fuel - 1, by omega⟩
      have hquote : cp '\x7b' ≠ cp '"' := by decide
      have harr : cp '\x7b' ≠ cp '[' := by decide
      have hread := h.reads (fits_succ.mp hfits) (by omega : _ ≤ fuel) rest
      have hskip := skipBlanks_gap hgap (h.leads.append rest)
      obtain ⟨c, more, heq, -, -, hclose, -⟩ := h.leads.append rest
      rw [List.cons_append, List.append_assoc]
      rw [heq] at hread hskip
      simp only [heq, read, hquote, harr, hskip, hclose, if_true, if_false, hread]
      rfl

theorem ItemsText.reads {digits nest room : Nat} {text : PyStr} {items : List Json} :
    ItemsText rt digits nest text items → Fits digits nest room → ∀ {fuel : Nat},
      text.length ≤ fuel → ∀ (rest : PyStr),
        readItems rt fuel room (text ++ rest) = .ok (items, rest)
  | .last h hgap, hfits, fuel, hfuel, rest => by
      simp only [List.length_append, List.length_cons] at hfuel
      obtain ⟨fuel, rfl⟩ : ∃ less, fuel = less + 1 := ⟨fuel - 1, by omega⟩
      rw [List.append_assoc, List.append_assoc]
      refine readItems_last (h.reads hfits (by omega) fun _ => hgap.ends ?_)
        (hgap.skip (by decide) rest)
      exact ends_delimiter (by simp) rest
  | .more h hgap hgap' hrest, hfits, fuel, hfuel, rest => by
      obtain ⟨hfirst, hmore⟩ := fits_max.mp hfits
      simp only [List.length_append, List.length_cons] at hfuel
      obtain ⟨fuel, rfl⟩ : ∃ less, fuel = less + 1 := ⟨fuel - 1, by omega⟩
      rw [List.append_assoc, List.append_assoc, List.cons_append, List.append_assoc]
      refine readItems_more (h.reads hfirst (by omega) fun _ => hgap.ends ?_)
        (hgap.skip (by decide) _) ?_
      · exact ends_delimiter (by simp) _
      · rw [skipBlanks_gap hgap' (hrest.leads.append rest)]
        exact hrest.reads hmore (by omega) rest

theorem FieldsText.reads {digits nest room : Nat} {text : PyStr}
    {known fields : List (PyStr × Json)} :
    FieldsText rt digits nest known text fields → Fits digits nest room → ∀ {fuel : Nat},
      text.length ≤ fuel → ∀ (rest : PyStr),
        readFields rt fuel room known (text ++ rest) = .ok (fields, rest)
  | .last hkey hkeyGap hvalueGap h hgap, hfits, fuel, hfuel, rest => by
      simp only [List.length_append, List.length_cons] at hfuel
      obtain ⟨fuel, rfl⟩ : ∃ less, fuel = less + 1 := ⟨fuel - 1, by omega⟩
      simp only [List.cons_append, List.append_assoc, List.nil_append]
      refine readFields_last (hkey.reads (by simp only [List.length_append]; omega) _)
        (hkeyGap.skip (by decide) _) ?_ (hgap.skip (by decide) rest)
      rw [skipBlanks_gap hvalueGap (h.leads.append _)]
      exact h.reads hfits (by omega) fun _ => hgap.ends (ends_delimiter (by simp) rest)
  | @FieldsText.more _ _ _ _ _ _ _ _ _ _ valueGap text gap gap' tail v hkey hkeyGap hvalueGap h
      hgap hgap' hrest, hfits, fuel, hfuel, rest => by
      obtain ⟨hfirst, hmore⟩ := fits_max.mp hfits
      simp only [List.length_append, List.length_cons] at hfuel
      obtain ⟨fuel, rfl⟩ : ∃ less, fuel = less + 1 := ⟨fuel - 1, by omega⟩
      have hvalue : read rt fuel room (skipBlanks (valueGap ++ (text ++ (gap ++ cp ',' ::
          (gap' ++ (tail ++ rest)))))) = .ok (v, gap ++ cp ',' :: (gap' ++ (tail ++ rest))) := by
        rw [skipBlanks_gap hvalueGap (h.leads.append _)]
        exact h.reads hfirst (by omega) fun _ => hgap.ends (ends_delimiter (by simp) _)
      simp only [List.cons_append, List.append_assoc]
      rw [readFields_more (hkey.reads (by simp only [List.length_append]; omega) _)
        (hkeyGap.skip (by decide) _) hvalue (hgap.skip (by decide) _),
        skipBlanks_gap hgap' (hrest.leads.append rest)]
      exact hrest.reads hmore (by omega) rest

end

/-- The reader gives up, and not because the text is no JSON. -/
def Refused {α : Type} (outcome : Except PyError α) : Prop :=
  ∃ e, outcome = .error e ∧ e.kind ≠ .jsonDecodeError

theorem refused_recursion {α : Type} :
    Refused (.error { kind := .recursionError } : Except PyError α) :=
  ⟨_, rfl, by decide⟩

theorem Refused.bind {α β : Type} {outcome : Except PyError α} (h : Refused outcome)
    (next : α → Except PyError β) : Refused (outcome >>= next) := by
  obtain ⟨e, rfl, hkind⟩ := h
  exact ⟨e, rfl, hkind⟩

theorem readItems_refused {fuel : Nat} {s : PyStr} (h : Refused (read rt fuel room s)) :
    Refused (readItems rt (fuel + 1) room s) := by
  rw [readItems]
  exact h.bind _

theorem readItems_more_refused {fuel : Nat} {s after more : PyStr}
    (h : read rt fuel room s = .ok (v, after)) (hafter : skipBlanks after = cp ',' :: more)
    (hmore : Refused (readItems rt fuel room (skipBlanks more))) :
    Refused (readItems rt (fuel + 1) room s) := by
  have hcomma : cp ',' ≠ cp ']' := by decide
  have hnext := hmore.bind fun items => (pure (v :: items.1, items.2) : Except PyError _)
  simpa only [readItems, h, bind, Except.bind, hafter, hcomma, if_false, if_true] using hnext

theorem readFields_refused {fuel : Nat} {known : List (PyStr × Json)}
    {s tail colon key : PyStr} (hkey : readString (s.length + 1) s = .ok (key, tail))
    (hcolon : skipBlanks tail = cp ':' :: colon)
    (hvalue : Refused (read rt fuel room (skipBlanks colon))) :
    Refused (readFields rt (fuel + 1) room known (cp '"' :: s)) := by
  obtain ⟨e, hread, hkind⟩ := hvalue
  refine ⟨e, ?_, hkind⟩
  simp only [readFields, if_true, hkey, bind, Except.bind, hcolon, hread]

mutual

/-- A text beyond the limits is refused, whatever follows. -/
theorem ValueText.refused {digits nest room : Nat} {text : PyStr} {v : Json} :
    ValueText rt digits nest text v → ¬ Fits digits nest room → ∀ {fuel : Nat},
      text.length ≤ fuel → ∀ {rest : PyStr}, ((∀ fields, v ≠ .obj fields) → Ends rest) →
        Refused (read rt fuel room (text ++ rest))
  | .scalar h, hfits, fuel, hfuel, rest, hends => by
      have hdigits : maxStrDigits < _ :=
        Nat.not_le.mp fun hle => hfits ⟨hle, Nat.zero_le room⟩
      have hrefused := h.refused hdigits (hends h.notObject)
      obtain ⟨c, more, rfl, harr, -, hobj, -⟩ := h.head
      have hsolid := of_decide_eq_true (h.solid c List.mem_cons_self)
      rw [List.length_cons] at hfuel
      obtain ⟨fuel, rfl⟩ : ∃ less, fuel = less + 1 := ⟨fuel - 1, by omega⟩
      rw [List.cons_append, read_scalar hsolid.2.2 harr hobj, ← List.cons_append, hrefused]
      exact ⟨_, rfl, by decide⟩
  | .str _, hfits, _, _, _, _ => absurd ⟨Nat.zero_le _, Nat.zero_le _⟩ hfits
  | .noItems hgap, hfits, fuel, hfuel, rest, _ => by
      obtain rfl : room = 0 :=
        Nat.lt_one_iff.mp (Nat.not_le.mp fun hle => hfits ⟨Nat.zero_le _, hle⟩)
      rw [List.length_cons] at hfuel
      obtain ⟨fuel, rfl⟩ : ∃ less, fuel = less + 1 := ⟨fuel - 1, by omega⟩
      have hquote : cp '[' ≠ cp '"' := by decide
      simp only [List.cons_append, read, hquote, if_true, if_false]
      exact refused_recursion
  | .items hgap h, hfits, fuel, hfuel, rest, _ => by
      rw [List.length_cons, List.length_append] at hfuel
      obtain ⟨fuel, rfl⟩ : ∃ less, fuel = less + 1 := ⟨fuel - 1, by omega⟩
      have hquote : cp '[' ≠ cp '"' := by decide
      cases room with
      | zero =>
          simp only [List.cons_append, read, hquote, if_true, if_false]
          exact refused_recursion
      | succ room =>
          have hread := h.refused (fun hle => hfits (fits_succ.mpr hle)) (by omega : _ ≤ fuel) rest
          have hskip := skipBlanks_gap hgap (h.leads.append rest)
          obtain ⟨c, more, heq, -, hclose, -, -⟩ := h.leads.append rest
          rw [List.cons_append, List.append_assoc]
          rw [heq] at hread hskip
          simp only [heq, read, hquote, hskip, hclose, if_true, if_false]
          exact hread.bind _
  | .noFields hgap, hfits, fuel, hfuel, rest, _ => by
      obtain rfl : room = 0 :=
        Nat.lt_one_iff.mp (Nat.not_le.mp fun hle => hfits ⟨Nat.zero_le _, hle⟩)
      rw [List.length_cons] at hfuel
      obtain ⟨fuel, rfl⟩ : ∃ less, fuel = less + 1 := ⟨fuel - 1, by omega⟩
      have hquote : cp '\x7b' ≠ cp '"' := by decide
      have harr : cp '\x7b' ≠ cp '[' := by decide
      simp only [List.cons_append, read, hquote, harr, if_true, if_false]
      exact refused_recursion
  | .fields hgap h, hfits, fuel, hfuel, rest, _ => by
      rw [List.length_cons, List.length_append] at hfuel
      obtain ⟨fuel, rfl⟩ : ∃ less, fuel = less + 1 := ⟨fuel - 1, by omega⟩
      have hquote : cp '\x7b' ≠ cp '"' := by decide
      have harr : cp '\x7b' ≠ cp '[' := by decide
      cases room with
      | zero =>
          simp only [List.cons_append, read, hquote, harr, if_true, if_false]
          exact refused_recursion
      | succ room =>
          have hread := h.refused (fun hle => hfits (fits_succ.mpr hle)) (by omega : _ ≤ fuel) rest
          have hskip := skipBlanks_gap hgap (h.leads.append rest)
          obtain ⟨c, more, heq, -, -, hclose, -⟩ := h.leads.append rest
          rw [List.cons_append, List.append_assoc]
          rw [heq] at hread hskip
          simp only [heq, read, hquote, harr, hskip, hclose, if_true, if_false]
          exact hread.bind _

theorem ItemsText.refused {digits nest room : Nat} {text : PyStr} {items : List Json} :
    ItemsText rt digits nest text items → ¬ Fits digits nest room → ∀ {fuel : Nat},
      text.length ≤ fuel → ∀ (rest : PyStr), Refused (readItems rt fuel room (text ++ rest))
  | .last h hgap, hfits, fuel, hfuel, rest => by
      simp only [List.length_append, List.length_cons] at hfuel
      obtain ⟨fuel, rfl⟩ : ∃ less, fuel = less + 1 := ⟨fuel - 1, by omega⟩
      rw [List.append_assoc, List.append_assoc]
      refine readItems_refused (h.refused hfits (by omega) fun _ => hgap.ends ?_)
      exact ends_delimiter (by simp) rest
  | @ItemsText.more _ digits nest _ _ _ _ _ _ _ _ h hgap hgap' hrest, hfits, fuel, hfuel, rest => by
      simp only [List.length_append, List.length_cons] at hfuel
      obtain ⟨fuel, rfl⟩ : ∃ less, fuel = less + 1 := ⟨fuel - 1, by omega⟩
      rw [List.append_assoc, List.append_assoc, List.cons_append, List.append_assoc]
      by_cases hfirst : Fits digits nest room
      · refine readItems_more_refused (h.reads hfirst (by omega) fun _ => hgap.ends ?_)
          (hgap.skip (by decide) _) ?_
        · exact ends_delimiter (by simp) _
        · rw [skipBlanks_gap hgap' (hrest.leads.append rest)]
          exact hrest.refused (fun hmore => hfits (fits_max.mpr ⟨hfirst, hmore⟩)) (by omega) rest
      · refine readItems_refused (h.refused hfirst (by omega) fun _ => hgap.ends ?_)
        exact ends_delimiter (by simp) _

theorem FieldsText.refused {digits nest room : Nat} {text : PyStr}
    {known fields : List (PyStr × Json)} :
    FieldsText rt digits nest known text fields → ¬ Fits digits nest room → ∀ {fuel : Nat},
      text.length ≤ fuel → ∀ (rest : PyStr),
        Refused (readFields rt fuel room known (text ++ rest))
  | .last hkey hkeyGap hvalueGap h hgap, hfits, fuel, hfuel, rest => by
      simp only [List.length_append, List.length_cons] at hfuel
      obtain ⟨fuel, rfl⟩ : ∃ less, fuel = less + 1 := ⟨fuel - 1, by omega⟩
      simp only [List.cons_append, List.append_assoc, List.nil_append]
      refine readFields_refused (hkey.reads (by simp only [List.length_append]; omega) _)
        (hkeyGap.skip (by decide) _) ?_
      rw [skipBlanks_gap hvalueGap (h.leads.append _)]
      exact h.refused hfits (by omega) fun _ => hgap.ends (ends_delimiter (by simp) rest)
  | @FieldsText.more _ digits nest _ _ _ _ _ _ _ valueGap text gap gap' tail v hkey hkeyGap
      hvalueGap h hgap hgap' hrest, hfits, fuel, hfuel, rest => by
      simp only [List.length_append, List.length_cons] at hfuel
      obtain ⟨fuel, rfl⟩ : ∃ less, fuel = less + 1 := ⟨fuel - 1, by omega⟩
      simp only [List.cons_append, List.append_assoc]
      by_cases hfirst : Fits digits nest room
      · have hvalue : read rt fuel room (skipBlanks (valueGap ++ (text ++ (gap ++ cp ',' ::
            (gap' ++ (tail ++ rest)))))) = .ok (v, gap ++ cp ',' :: (gap' ++ (tail ++ rest))) := by
          rw [skipBlanks_gap hvalueGap (h.leads.append _)]
          exact h.reads hfirst (by omega) fun _ => hgap.ends (ends_delimiter (by simp) _)
        rw [readFields_more (hkey.reads (by simp only [List.length_append]; omega) _)
          (hkeyGap.skip (by decide) _) hvalue (hgap.skip (by decide) _),
          skipBlanks_gap hgap' (hrest.leads.append rest)]
        exact hrest.refused (fun hmore => hfits (fits_max.mpr ⟨hfirst, hmore⟩)) (by omega) rest
      · refine readFields_refused (hkey.reads (by simp only [List.length_append]; omega) _)
          (hkeyGap.skip (by decide) _) ?_
        rw [skipBlanks_gap hvalueGap (h.leads.append _)]
        exact h.refused hfirst (by omega) fun _ => hgap.ends (ends_delimiter (by simp) _)

end

/-- A JSON text: one value between blanks. -/
inductive DocumentText (rt : Runtime) (digits nest : Nat) : PyStr → Json → Prop
  | around {gap core gap' : PyStr} {v : Json} (hgap : Gap gap) (hgap' : Gap gap')
      (h : ValueText rt digits nest core v) : DocumentText rt digits nest (gap ++ (core ++ gap')) v

/-- What `json.loads` does with a text is what the reader does with its value. -/
theorem loads_around {gap core gap' : PyStr} (hgap : Gap gap) (h : Leads core) :
    loads rt (gap ++ (core ++ gap')) =
      read rt (2 * (gap ++ (core ++ gap')).length + 1) rt.loadsRoom (core ++ gap') >>= fun value =>
        if skipBlanks value.2 = [] then pure value.1 else decodeError := by
  have hmark : ¬ PyStr.startsWith (gap ++ (core ++ gap')) [codePoint 0xFEFF] = true := by
    rw [PyStr.startsWith, decide_eq_true_eq]
    rintro ⟨rest, heq⟩
    cases gap with
    | nil =>
        obtain ⟨c, more, rfl, -, -, -, hlow⟩ := h
        rw [← (List.cons.inj heq).1] at hlow
        exact absurd hlow (by decide)
    | cons c gap =>
        have hblank := hgap c List.mem_cons_self
        rw [← (List.cons.inj heq).1] at hblank
        exact absurd hblank (by decide)
  rw [loads, if_neg hmark, skipBlanks_gap hgap (h.append gap')]

theorem Gap.ends_text {gap : PyStr} (hgap : Gap gap) : Ends gap := by
  rw [← List.append_nil gap]
  exact hgap.ends fun c after heq => absurd heq.symm (List.cons_ne_nil c after)

theorem DocumentText.loaded (h : DocumentText rt digits nest text v)
    (hfits : Fits digits nest rt.loadsRoom) : loads rt text = .ok v := by
  cases h with
  | @around gap core gap' _ hgap hgap' h =>
      have hread := h.reads hfits (by simp only [List.length_append]; omega :
        core.length ≤ 2 * (gap ++ (core ++ gap')).length + 1) fun _ => hgap'.ends_text
      have hdone : skipBlanks gap' = [] := List.dropWhile_eq_nil_iff.mpr hgap'
      rw [loads_around hgap h.leads, hread]
      exact if_pos hdone

theorem DocumentText.refused (h : DocumentText rt digits nest text v)
    (hfits : ¬ Fits digits nest rt.loadsRoom) : Refused (loads rt text) := by
  cases h with
  | @around gap core gap' _ hgap hgap' h =>
      rw [loads_around hgap h.leads]
      refine (h.refused hfits ?_ fun _ => hgap'.ends_text).bind _
      simp only [List.length_append]
      omega

/-- The texts that `json.loads` accepts, and what it makes of them. -/
theorem loads_iff {text : PyStr} : loads rt text = .ok v ↔
    ∃ digits nest, DocumentText rt digits nest text v ∧ Fits digits nest rt.loadsRoom := by
  constructor
  · intro h
    rw [loads] at h
    split at h
    · cases h
    obtain ⟨⟨w, rest⟩, hread, hlast⟩ := exists_ok_of_bind h
    clear h
    obtain ⟨digits, nest, core, hskip, hspelt, hfits⟩ := (texts_of_reads rt _).1 _ _ w rest hread
    obtain ⟨gap, hgap, rfl⟩ := skipBlanks_split hskip
    dsimp only at hlast
    split at hlast
    · rename_i hend
      cases hlast
      obtain ⟨gap', hgap', rfl⟩ := skipBlanks_split hend
      rw [List.append_nil]
      exact ⟨digits, nest, .around hgap hgap' hspelt, hfits⟩
    · cases hlast
  · rintro ⟨digits, nest, h, hfits⟩
    exact h.loaded hfits

/-- A text of the grammar is read exactly when it keeps to the limits. -/
theorem DocumentText.loads_iff_fits (h : DocumentText rt digits nest text v) :
    loads rt text = .ok v ↔ Fits digits nest rt.loadsRoom := by
  constructor
  · intro hloads
    by_contra hfits
    obtain ⟨e, herror, -⟩ := h.refused hfits
    rw [hloads] at herror
    cases herror
  · exact h.loaded

theorem FieldsText.closes {digits nest : Nat} {text : PyStr} {known fields : List (PyStr × Json)} :
    FieldsText rt digits nest known text fields → ∃ front, text = front ++ [cp '\x7d']
  | .last _ _ _ _ _ => ⟨_, by simp only [← List.append_assoc, ← List.cons_append]; rfl⟩
  | .more _ _ _ _ _ _ hrest => by
      obtain ⟨front, rfl⟩ := hrest.closes
      exact ⟨_, by simp only [← List.append_assoc, ← List.cons_append]; rfl⟩

/-- An object stands between its braces. -/
theorem ValueText.braces {fields : List (PyStr × Json)}
    (h : ValueText rt digits nest text (.obj fields)) :
    ∃ inner, text = cp '\x7b' :: (inner ++ [cp '\x7d']) := by
  generalize hv : Json.obj fields = v at h
  cases h with
  | scalar h => exact absurd hv.symm (h.notObject fields)
  | noFields _ => exact ⟨_, rfl⟩
  | fields _ h =>
      obtain ⟨front, rfl⟩ := h.closes
      exact ⟨_, by rw [← List.append_assoc]⟩
  | str _ | noItems _ | items _ _ => cases hv

/-- An object that keeps to the limits is told from what follows it. -/
theorem ValueText.unique {digits' nest' : Nat} {text' rest rest' : PyStr}
    {fields fields' : Mapping} (h : ValueText rt digits nest text (.obj fields))
    (h' : ValueText rt digits' nest' text' (.obj fields')) (hfits : Fits digits' nest' room)
    (heq : text ++ rest = text' ++ rest') :
    fields = fields' ∧ rest = rest' ∧ Fits digits nest room := by
  have hsecond : read rt (max text.length text'.length) room (text' ++ rest') =
      .ok (.obj fields', rest') :=
    h'.reads hfits (Nat.le_max_right _ _) fun hobj => absurd rfl (hobj fields')
  by_cases hkeeps : Fits digits nest room
  · have hfirst : read rt (max text.length text'.length) room (text ++ rest) =
        .ok (.obj fields, rest) :=
      h.reads hkeeps (Nat.le_max_left _ _) fun hobj => absurd rfl (hobj fields)
    rw [heq, hsecond, Except.ok.injEq, Prod.mk.injEq, Json.obj.injEq] at hfirst
    exact ⟨hfirst.1.symm, hfirst.2.symm, hkeeps⟩
  · obtain ⟨e, hfirst, -⟩ : Refused (read rt (max text.length text'.length) room (text ++ rest)) :=
      h.refused hkeeps (Nat.le_max_left _ _) fun hobj => absurd rfl (hobj fields)
    rw [heq, hsecond] at hfirst
    cases hfirst

end Values

end SecureSdlc.Core.JsonText

import SecureSdlc.Core.JsonText

/-!
Strings and integers as `json.dumps` writes them, read back by `json.loads`. A string
comes back as it was, but for the two halves of a surrogate pair next to each other,
which an escaped text joins.
-/

namespace SecureSdlc.Core.JsonText

def isHigh (c : CodePoint) : Prop := 0xD800 ≤ c.val ∧ c.val ≤ 0xDBFF

def isLow (c : CodePoint) : Prop := 0xDC00 ≤ c.val ∧ c.val ≤ 0xDFFF

instance (c : CodePoint) : Decidable (isHigh c) := inferInstanceAs (Decidable (_ ∧ _))

instance (c : CodePoint) : Decidable (isLow c) := inferInstanceAs (Decidable (_ ∧ _))

/-- Every high surrogate that a low one follows is joined with it. -/
def joinSurrogates : PyStr → PyStr
  | high :: low :: rest =>
      if isHigh high ∧ isLow low then
        codePoint (0x10000 + (high.val - 0xD800) * 0x400 + (low.val - 0xDC00)) ::
          joinSurrogates rest
      else high :: joinSurrogates (low :: rest)
  | [c] => [c]
  | [] => []

/-- A string after it was written and read. -/
def rereadText (ascii : Bool) (s : PyStr) : PyStr :=
  if ascii then joinSurrogates s else s

theorem hexValue_hexDigit {n : Nat} (h : n < 16) : hexValue (hexDigit n) = some n := by
  have hall : ∀ n : Fin 16, hexValue (hexDigit n) = some n.val := by decide
  exact hall ⟨n, h⟩

theorem hexDigit_printable {n : Nat} (h : n < 16) :
    0x20 ≤ (hexDigit n).val ∧ (hexDigit n).val < 0x7F := by
  have hall : ∀ n : Fin 16, 0x20 ≤ (hexDigit n).val ∧ (hexDigit n).val < 0x7F := by decide
  exact hall ⟨n, h⟩

theorem hex4_hexDigits {n : Nat} (h : n < 0x10000) (rest : PyStr) :
    hex4 (hexDigits 4 n ++ rest) = some (n, rest) := by
  have hdigits : hexDigits 4 n = [hexDigit (n / 16 / 16 / 16 % 16), hexDigit (n / 16 / 16 % 16),
      hexDigit (n / 16 % 16), hexDigit (n % 16)] := rfl
  have hvalue : (((n / 16 / 16 / 16 % 16) * 16 + n / 16 / 16 % 16) * 16 + n / 16 % 16) * 16 +
      n % 16 = n := by
    omega
  simp only [hdigits, List.cons_append, List.nil_append, hex4,
    hexValue_hexDigit (Nat.mod_lt _ (by decide : 0 < 16))]
  simp only [bind, Option.bind, pure, hvalue]

/-- The first two characters of a text that is no escaped code unit. -/
theorem lowHalf_of_ne {high : Nat} {rest : PyStr}
    (h : ∀ u digits, rest = cp '\\' :: u :: digits → u ≠ cp 'u') :
    lowHalf high rest = .ok (codePoint high, rest) := by
  cases rest with
  | nil => rfl
  | cons b rest =>
      cases rest with
      | nil => rfl
      | cons u digits =>
          simp only [lowHalf]
          rw [if_neg]
          rintro ⟨-, -, rfl, hu⟩
          exact h u digits rfl hu

theorem lowHalf_of_not_high {high : Nat} (h : ¬ (0xD800 ≤ high ∧ high ≤ 0xDBFF))
    (rest : PyStr) : lowHalf high rest = .ok (codePoint high, rest) := by
  cases rest with
  | nil => rfl
  | cons b rest =>
      cases rest with
      | nil => rfl
      | cons u digits =>
          simp only [lowHalf]
          rw [if_neg]
          exact fun hall => h ⟨hall.1, hall.2.1⟩

theorem escapeUnit_append (n : Nat) (rest : PyStr) :
    escapeUnit n ++ rest = cp '\\' :: cp 'u' :: (hexDigits 4 n ++ rest) := rfl

theorem length_escapeUnit (n : Nat) : (escapeUnit n).length = 6 := rfl

theorem lowHalf_escapeUnit {high n : Nat} (hhigh : 0xD800 ≤ high ∧ high ≤ 0xDBFF)
    (hn : n < 0x10000) (rest : PyStr) :
    lowHalf high (escapeUnit n ++ rest) =
      if 0xDC00 ≤ n ∧ n ≤ 0xDFFF then
        .ok (codePoint (0x10000 + (high - 0xD800) * 0x400 + (n - 0xDC00)), rest)
      else .ok (codePoint high, escapeUnit n ++ rest) := by
  simp only [escapeUnit_append, lowHalf, hhigh, if_true, and_self, hex4_hexDigits hn]

/-- What a character is written as: itself, a two-character escape, a code unit or a
pair of them. -/
inductive Escaped (ascii : Bool) (c : CodePoint) : PyStr → Prop
  | plain (hlow : 0x20 ≤ c.val) (hquote : c ≠ cp '"') (hback : c ≠ cp '\\')
      (hhigh : ascii = true → c.val < 0x7F) : Escaped ascii c [c]
  | short (e : CodePoint) (he : simpleEscape e = some c) (hunit : e ≠ cp 'u')
      (hprint : 0x20 ≤ e.val ∧ e.val < 0x7F) (hlow : c.val < 0x80) :
      Escaped ascii c [cp '\\', e]
  | unit (hlow : c.val < 0x10000) (hraw : ascii = false → c.val < 0x20) :
      Escaped ascii c (escapeUnit c.val)
  | pair (hascii : ascii = true) (hhigh : 0x10000 ≤ c.val) :
      Escaped ascii c (escapeUnit (0xD800 + (c.val - 0x10000) / 0x400) ++
        escapeUnit (0xDC00 + (c.val - 0x10000) % 0x400))

theorem Escaped.control {ascii : Bool} {c : CodePoint} (n : Nat) (e : CodePoint)
    (hc : c.val = n) (hn : n < 0x80) (he : simpleEscape e = some (codePoint n))
    (hunit : e ≠ cp 'u') (hprint : 0x20 ≤ e.val ∧ e.val < 0x7F) :
    Escaped ascii c [cp '\\', e] := by
  rw [← hc, codePoint_val] at he
  exact .short e he hunit hprint (by omega)

theorem escaped_escapeChar (ascii : Bool) (c : CodePoint) :
    Escaped ascii c (escapeChar ascii c) := by
  rw [escapeChar]
  by_cases hquote : c = cp '"'
  · rw [if_pos hquote]
    exact .control 0x22 (cp '"') (by rw [hquote]; rfl) (by decide) (by decide) (by decide)
      (by decide)
  rw [if_neg hquote]
  by_cases hback : c = cp '\\'
  · rw [if_pos hback]
    exact .control 0x5C (cp '\\') (by rw [hback]; rfl) (by decide) (by decide) (by decide)
      (by decide)
  rw [if_neg hback]
  split
  · exact .control 0x0A (cp 'n') (by assumption) (by decide) (by decide) (by decide) (by decide)
  split
  · exact .control 0x0D (cp 'r') (by assumption) (by decide) (by decide) (by decide) (by decide)
  split
  · exact .control 0x09 (cp 't') (by assumption) (by decide) (by decide) (by decide) (by decide)
  split
  · exact .control 0x0C (cp 'f') (by assumption) (by decide) (by decide) (by decide) (by decide)
  split
  · exact .control 0x08 (cp 'b') (by assumption) (by decide) (by decide) (by decide) (by decide)
  split
  · exact .unit (by omega) fun _ => by assumption
  rename_i hlow
  split
  · rename_i hplain
    exact .plain (by omega) hquote hback fun hascii => hplain.resolve_left (by simp [hascii])
  rename_i hplain
  have hascii : ascii = true := by
    cases ascii with
    | true => rfl
    | false => exact absurd (Or.inl rfl) hplain
  split
  · exact .unit (by assumption) fun hraw => by simp [hascii] at hraw
  · exact .pair hascii (by omega)

section Strings

variable {fuel : Nat} {rest s tail : PyStr}

theorem readString_plain {c : CodePoint} (hlow : 0x20 ≤ c.val) (hquote : c ≠ cp '"')
    (hback : c ≠ cp '\\') (h : readString fuel rest = .ok (s, tail)) :
    readString (fuel + 1) (c :: rest) = .ok (c :: s, tail) := by
  simp only [readString, hquote, Nat.not_lt.mpr hlow, hback, if_false, h]
  rfl

theorem readString_short {e c : CodePoint} (he : simpleEscape e = some c) (hunit : e ≠ cp 'u')
    (h : readString fuel rest = .ok (s, tail)) :
    readString (fuel + 1) (cp '\\' :: e :: rest) = .ok (c :: s, tail) := by
  have hquote : cp '\\' ≠ cp '"' := by decide
  have hlow : ¬ (cp '\\').val < 0x20 := by decide
  simp only [readString, hquote, hlow, if_false, if_true, hunit, he, h]
  rfl

theorem readString_unit {n : Nat} {c : CodePoint} {after : PyStr} (hn : n < 0x10000)
    (hlow : lowHalf n rest = .ok (c, after)) (h : readString fuel after = .ok (s, tail)) :
    readString (fuel + 1) (escapeUnit n ++ rest) = .ok (c :: s, tail) := by
  have hquote : cp '\\' ≠ cp '"' := by decide
  have hprint : ¬ (cp '\\').val < 0x20 := by decide
  simp only [escapeUnit_append, readString, hquote, hprint, if_false, if_true, hex4_hexDigits hn,
    hlow, bind, Except.bind, h]
  rfl

/-- One written character is read back, if it is no high surrogate that what follows
completes. -/
theorem readString_escapeChar {ascii : Bool} {c : CodePoint}
    (halone : ascii = true → isHigh c → lowHalf c.val rest = .ok (c, rest))
    (h : readString fuel rest = .ok (s, tail)) :
    readString (fuel + 1) (escapeChar ascii c ++ rest) = .ok (c :: s, tail) := by
  have hescaped := escaped_escapeChar ascii c
  generalize escapeChar ascii c = text at hescaped
  cases hescaped with
  | plain hlow hquote hback _ => exact readString_plain hlow hquote hback h
  | short e he hunit _ _ => exact readString_short he hunit h
  | unit hlow hraw =>
      refine readString_unit hlow ?_ h
      by_cases hhigh : isHigh c
      · apply halone _ hhigh
        cases ascii with
        | true => rfl
        | false =>
            have hcontrol := hraw rfl
            have := hhigh.1
            omega
      · rw [lowHalf_of_not_high hhigh, codePoint_val]
  | pair _ hhigh =>
      have hc := c.isLt
      rw [List.append_assoc]
      refine readString_unit (by omega) ?_ h
      rw [lowHalf_escapeUnit (by omega) (by omega), if_pos (by omega)]
      have hvalue : 0x10000 + (0xD800 + (c.val - 0x10000) / 0x400 - 0xD800) * 0x400 +
          (0xDC00 + (c.val - 0x10000) % 0x400 - 0xDC00) = c.val := by
        omega
      rw [hvalue, codePoint_val]

/-- Neither the end of the string nor a written character other than a low surrogate
completes a pair. -/
theorem lowHalf_alone {c : CodePoint} (rest : PyStr) :
    lowHalf c.val (cp '"' :: rest) = .ok (c, cp '"' :: rest) := by
  rw [lowHalf_of_ne, codePoint_val]
  intro u digits heq
  exact absurd (List.cons.inj heq).1 (by decide)

theorem lowHalf_escapeChar {c d : CodePoint} (hhigh : isHigh c) (hlow : ¬ isLow d)
    (rest : PyStr) :
    lowHalf c.val (escapeChar true d ++ rest) = .ok (c, escapeChar true d ++ rest) := by
  have hescaped := escaped_escapeChar true d
  generalize escapeChar true d = text at hescaped
  cases hescaped with
  | plain _ _ hback _ =>
      rw [lowHalf_of_ne, codePoint_val]
      intro u digits heq
      exact absurd (List.cons.inj heq).1 hback
  | short e _ hunit _ _ =>
      rw [lowHalf_of_ne, codePoint_val]
      intro u digits heq
      rw [← (List.cons.inj (List.cons.inj heq).2).1]
      exact hunit
  | unit hd _ =>
      rw [isLow] at hlow
      rw [lowHalf_escapeUnit hhigh hd, if_neg hlow, codePoint_val]
  | pair _ hd =>
      have := d.isLt
      rw [List.append_assoc, lowHalf_escapeUnit hhigh (by omega), if_neg (by omega),
        codePoint_val]

end Strings

theorem escapeChar_surrogate {c : CodePoint} (h : 0xD800 ≤ c.val ∧ c.val ≤ 0xDFFF) :
    escapeChar true c = escapeUnit c.val := by
  have hescaped := escaped_escapeChar true c
  generalize escapeChar true c = text at hescaped
  cases hescaped with
  | plain _ _ _ hplain =>
      have := hplain rfl
      omega
  | short _ _ _ _ hplain => omega
  | unit _ _ => rfl
  | pair _ hpair => omega

theorem readString_raw (s tail : PyStr) (fuel : Nat) :
    readString (s.length + fuel + 1) (s.flatMap (escapeChar false) ++ cp '"' :: tail) =
      .ok (s, tail) := by
  induction s with
  | nil =>
      rw [List.length_nil, Nat.zero_add]
      rfl
  | cons c s ih =>
      rw [List.flatMap_cons, List.append_assoc, List.length_cons, Nat.add_right_comm _ 1 fuel]
      apply readString_escapeChar
      · intro hfalse
        cases hfalse
      · exact ih

theorem readString_ascii (s tail : PyStr) (fuel : Nat) :
    readString (s.length + fuel + 1) (s.flatMap (escapeChar true) ++ cp '"' :: tail) =
      .ok (joinSurrogates s, tail) := by
  induction s using joinSurrogates.induct generalizing fuel with
  | case1 high low rest hpair ih =>
      obtain ⟨hhigh, hlow⟩ := hpair
      have hunit : escapeChar true high = escapeUnit high.val :=
        escapeChar_surrogate ⟨hhigh.1, by have := hhigh.2; omega⟩
      have hunit' : escapeChar true low = escapeUnit low.val :=
        escapeChar_surrogate ⟨by have := hlow.1; omega, hlow.2⟩
      have hbound : high.val < 0x10000 ∧ low.val < 0x10000 := by
        have := hhigh.2
        have := hlow.2
        omega
      have hlength : (high :: low :: rest).length + fuel = rest.length + (fuel + 1) + 1 := by
        simp only [List.length_cons]
        omega
      rw [hlength, joinSurrogates, if_pos ⟨hhigh, hlow⟩, List.flatMap_cons, List.flatMap_cons,
        hunit, hunit', List.append_assoc, List.append_assoc]
      refine readString_unit hbound.1 ?_ (ih (fuel + 1))
      rw [lowHalf_escapeUnit hhigh hbound.2, if_pos ⟨hlow.1, hlow.2⟩]
  | case2 high low rest hpair ih =>
      rw [joinSurrogates, if_neg hpair, List.flatMap_cons, List.append_assoc, List.length_cons,
        Nat.add_right_comm _ 1 fuel]
      apply readString_escapeChar
      · intro _ hhigh
        rw [List.flatMap_cons, List.append_assoc]
        exact lowHalf_escapeChar hhigh (fun hlow => hpair ⟨hhigh, hlow⟩) _
      · exact ih fuel
  | case3 c =>
      rw [List.flatMap_cons, List.append_assoc, List.length_cons, Nat.add_right_comm _ 1 fuel]
      apply readString_escapeChar
      · intro _ _
        exact lowHalf_alone tail
      · rw [List.length_nil, Nat.zero_add]
        rfl
  | case4 =>
      rw [List.length_nil, Nat.zero_add]
      rfl

/-- A written string is read back from any fuel that covers its characters. -/
theorem readString_written (ascii : Bool) (s tail : PyStr) {fuel : Nat} (h : s.length < fuel) :
    readString fuel (s.flatMap (escapeChar ascii) ++ cp '"' :: tail) =
      .ok (rereadText ascii s, tail) := by
  obtain ⟨extra, rfl⟩ := Nat.exists_eq_add_of_lt h
  cases ascii with
  | true => exact readString_ascii s tail extra
  | false => exact readString_raw s tail extra

/-- No character that would continue a number. -/
def Ends (rest : PyStr) : Prop :=
  ∀ c after, rest = c :: after →
    isDigit c = false ∧ c ≠ cp '.' ∧ c ≠ cp 'e' ∧ c ≠ cp 'E'

section Numbers

variable {rest : PyStr}

theorem toNat_of_isDigit {c : Char} (h : c.isDigit = true) : 48 ≤ c.toNat ∧ c.toNat ≤ 57 := by
  simpa [Char.isDigit, UInt32.le_iff_toNat_le] using h

theorem val_cp_of_isDigit {c : Char} (h : c.isDigit = true) : (cp c).val = c.toNat := by
  have := toNat_of_isDigit h
  exact Nat.mod_eq_of_lt (by omega)

theorem isDigit_cp {c : Char} (h : c.isDigit = true) : isDigit (cp c) = true := by
  simp only [isDigit, val_cp_of_isDigit h, decide_eq_true_eq]
  exact toNat_of_isDigit h

theorem isDigit_of_mem_ofNat {n : Nat} {c : CodePoint} (h : c ∈ PyStr.ofNat n) :
    isDigit c = true := by
  obtain ⟨d, hd, rfl⟩ := List.mem_map.mp h
  exact isDigit_cp (Nat.isDigit_of_mem_toDigits (by decide) (by decide) hd)

theorem digitsValue_ofNat (n : Nat) : digitsValue (PyStr.ofNat n) = n := by
  have hfold : ∀ (digits : List Char) (acc : Nat), (∀ d ∈ digits, d.isDigit = true) →
      (digits.map cp).foldl (fun acc c => acc * 10 + (c.val - 48)) acc =
        Nat.ofDigitChars 10 digits acc := by
    intro digits
    induction digits with
    | nil => intro acc _; rfl
    | cons d digits ih =>
        intro acc h
        have hval : (cp d).val = d.toNat := val_cp_of_isDigit (h d List.mem_cons_self)
        rw [List.map_cons, List.foldl_cons, ih _ fun d hd => h d (List.mem_cons_of_mem _ hd),
          Nat.ofDigitChars_cons, hval, Nat.mul_comm acc 10]
        rfl
  rw [digitsValue, PyStr.ofNat, hfold _ _ fun d hd =>
    Nat.isDigit_of_mem_toDigits (by decide) (by decide) hd]
  exact Nat.ofDigitChars_ten_toDigits

theorem ofNat_cons (n : Nat) :
    ∃ c digits, PyStr.ofNat n = c :: digits ∧ isDigit c = true := by
  have hne : PyStr.ofNat n ≠ [] := by simp [PyStr.ofNat]
  obtain ⟨c, digits, heq⟩ := List.exists_cons_of_ne_nil hne
  exact ⟨c, digits, heq, isDigit_of_mem_ofNat (heq ▸ List.mem_cons_self)⟩

/-- Only zero is written with a leading zero. -/
theorem ofNat_head {n : Nat} (hn : 0 < n) :
    ∃ c digits, PyStr.ofNat n = c :: digits ∧ isDigit c = true ∧ c ≠ cp '0' := by
  induction n using Nat.strongRecOn with
  | ind n ih =>
      by_cases hlt : n < 10
      · have hdigit : ∀ n : Fin 10, 0 < n.val → cp (Nat.digitChar n) ≠ cp '0' ∧
            isDigit (cp (Nat.digitChar n)) = true := by
          decide
        obtain ⟨hne, hd⟩ := hdigit ⟨n, hlt⟩ hn
        refine ⟨cp n.digitChar, [], ?_, hd, hne⟩
        rw [PyStr.ofNat, Nat.toDigits_of_lt_base hlt]
        rfl
      · obtain ⟨c, digits, heq, hd, hne⟩ := ih (n / 10) (by omega) (by omega)
        refine ⟨c, digits ++ [cp (Nat.digitChar (n % 10))], ?_, hd, hne⟩
        rw [PyStr.ofNat] at heq ⊢
        rw [Nat.toDigits_of_base_le (by decide) (Nat.not_lt.mp hlt), List.map_append, heq]
        rfl

theorem fraction_of_ends (h : Ends rest) : fraction rest = ([], rest) := by
  cases rest with
  | nil => rfl
  | cons c after =>
      have hdot := (h c after rfl).2.1
      simp only [fraction, hdot, false_and, if_false]

theorem exponent_of_ends (h : Ends rest) : exponent rest = ([], rest) := by
  cases rest with
  | nil => rfl
  | cons c after =>
      obtain ⟨-, -, he, hE⟩ := h c after rfl
      simp only [exponent, he, hE, or_self, if_false]

theorem takeWhile_digits (digits : PyStr) (hdigits : ∀ c ∈ digits, isDigit c = true)
    (h : Ends rest) :
    (digits ++ rest).takeWhile isDigit = digits ∧ (digits ++ rest).dropWhile isDigit = rest := by
  rw [List.takeWhile_append_of_pos hdigits, List.dropWhile_append_of_pos hdigits]
  cases rest with
  | nil => simp
  | cons c after =>
      have hc := (h c after rfl).1
      simp [hc]

theorem readNumber_ofNat (rt : Runtime) (negative : Bool) {n : Nat} (h : Ends rest)
    (hlength : (PyStr.ofNat n).length ≤ maxStrDigits) :
    readNumber rt negative (PyStr.ofNat n ++ rest) =
      .ok (.int (if negative then -n else n), rest) := by
  rcases Nat.eq_zero_or_pos n with rfl | hn
  · have hzero : PyStr.ofNat 0 = [cp '0'] := rfl
    have hdigit : isDigit (cp '0') = true := rfl
    have hlength : ¬ maxStrDigits < [cp '0'].length := by decide
    simp only [hzero, List.singleton_append, readNumber, hdigit, if_true, fraction_of_ends h,
      exponent_of_ends h, and_self, hlength, if_false]
    rfl
  · obtain ⟨c, digits, heq, hd, hne⟩ := ofNat_head hn
    obtain ⟨htake, hdrop⟩ :=
      takeWhile_digits (PyStr.ofNat n) (fun c hc => isDigit_of_mem_ofNat hc) h
    have hvalue := digitsValue_ofNat n
    rw [heq] at htake hdrop hvalue hlength
    rw [List.cons_append] at htake hdrop
    simp only [heq, List.cons_append, readNumber, hd, hne, if_true, if_false, htake, hdrop,
      fraction_of_ends h, exponent_of_ends h, and_self, Nat.not_lt.mpr hlength, hvalue]

theorem literal?_append (literal : String) (rest : PyStr) :
    literal? literal (py literal ++ rest) = some rest := by
  have hstarts : PyStr.startsWith (py literal ++ rest) (py literal) = true := by
    simp [PyStr.startsWith]
  rw [literal?, if_pos hstarts, List.drop_left]

theorem literal?_of_ne (literal : String) {c d : CodePoint} {more : PyStr}
    (h : py literal = d :: more) (hne : d ≠ c) (rest : PyStr) :
    literal? literal (c :: rest) = none := by
  have hstarts : ¬ PyStr.startsWith (c :: rest) (py literal) = true := by
    simp [PyStr.startsWith, h, List.cons_prefix_cons, hne]
  rw [literal?, if_neg hstarts]

theorem ne_of_isDigit {c d : CodePoint} (h : isDigit c = true) (hd : isDigit d = false) :
    d ≠ c := by
  rintro rfl
  rw [h] at hd
  cases hd

theorem readScalar_digit (rt : Runtime) {c : CodePoint} (h : isDigit c = true) (rest : PyStr) :
    readScalar rt (c :: rest) = readNumber rt false (c :: rest) := by
  have hne : ∀ d, isDigit d = false → d ≠ c := fun d hd => ne_of_isDigit h hd
  have hminus : ¬ c = cp '-' := fun heq => hne (cp '-') rfl heq.symm
  simp only [readScalar, literal?_of_ne "null" rfl (hne (cp 'n') rfl),
    literal?_of_ne "true" rfl (hne (cp 't') rfl),
    literal?_of_ne "false" rfl (hne (cp 'f') rfl),
    literal?_of_ne "NaN" rfl (hne (cp 'N') rfl),
    literal?_of_ne "Infinity" rfl (hne (cp 'I') rfl),
    literal?_of_ne "-Infinity" rfl (hne (cp '-') rfl), hminus, if_false]

theorem readScalar_minus (rt : Runtime) {c : CodePoint} (h : isDigit c = true) (rest : PyStr) :
    readScalar rt (cp '-' :: c :: rest) = readNumber rt true (c :: rest) := by
  have hinfinity : literal? "-Infinity" (cp '-' :: c :: rest) = none := by
    have hne : cp 'I' ≠ c := ne_of_isDigit h rfl
    have hliteral : py "-Infinity" = cp '-' :: cp 'I' :: py "nfinity" := rfl
    have hstarts : ¬ PyStr.startsWith (cp '-' :: c :: rest) (py "-Infinity") = true := by
      simp [PyStr.startsWith, hliteral, List.cons_prefix_cons, hne]
    rw [literal?, if_neg hstarts]
  simp only [readScalar, hinfinity, literal?_of_ne "null" rfl (by decide : cp 'n' ≠ cp '-'),
    literal?_of_ne "true" rfl (by decide : cp 't' ≠ cp '-'),
    literal?_of_ne "false" rfl (by decide : cp 'f' ≠ cp '-'),
    literal?_of_ne "NaN" rfl (by decide : cp 'N' ≠ cp '-'),
    literal?_of_ne "Infinity" rfl (by decide : cp 'I' ≠ cp '-'), if_true]

theorem readScalar_int (rt : Runtime) {n : Int} {text : PyStr} (h : intText n = .ok text)
    (hends : Ends rest) : readScalar rt (text ++ rest) = .ok (.int n, rest) := by
  simp only [intText] at h
  split at h
  · cases h
  · rename_i hlength
    cases h
    cases n with
    | ofNat n =>
        obtain ⟨c, digits, heq, hd⟩ := ofNat_cons n
        have hnumber := readNumber_ofNat rt false hends (Nat.not_lt.mp hlength)
        simp only [Int.natAbs_natCast, Int.ofNat_eq_natCast, heq, List.cons_append] at hnumber
        simp only [PyStr.ofInt, heq, List.cons_append, readScalar_digit rt hd, hnumber]
        rfl
    | negSucc n =>
        obtain ⟨c, digits, heq, hd⟩ := ofNat_cons (n + 1)
        have hnumber := readNumber_ofNat rt true hends (Nat.not_lt.mp hlength)
        simp only [Int.natAbs_negSucc, heq, List.cons_append] at hnumber
        simp only [PyStr.ofInt, heq, List.cons_append, readScalar_minus rt hd, hnumber]
        rfl

end Numbers

end SecureSdlc.Core.JsonText

namespace SecureSdlc.Core

theorem hexDigit_injective {m n : Nat} (hm : m < 16) (hn : n < 16) (h : hexDigit m = hexDigit n) :
    m = n := by
  have hvalue := congrArg JsonText.hexValue h
  rw [JsonText.hexValue_hexDigit hm, JsonText.hexValue_hexDigit hn] at hvalue
  exact Option.some.inj hvalue

theorem hexOfBytes_cons (x : UInt8) (b : Bytes) :
    hexOfBytes (x :: b) = hexDigit (x.toNat / 16) :: hexDigit (x.toNat % 16) :: hexOfBytes b := by
  have hsmall : x.toNat / 16 % 16 = x.toNat / 16 :=
    Nat.mod_eq_of_lt (Nat.div_lt_of_lt_mul x.toNat_lt)
  simp [hexOfBytes, hexDigits, hsmall]

theorem hexOfBytes_injective : Function.Injective hexOfBytes := by
  intro a
  induction a with
  | nil =>
      intro b h
      cases b with
      | nil => rfl
      | cons y b =>
          rw [hexOfBytes_cons] at h
          cases h
  | cons x a ih =>
      intro b h
      cases b with
      | nil =>
          rw [hexOfBytes_cons] at h
          cases h
      | cons y b =>
          rw [hexOfBytes_cons, hexOfBytes_cons, List.cons.injEq, List.cons.injEq] at h
          obtain ⟨hhigh, hlow, hrest⟩ := h
          have hx := x.toNat_lt
          have hy := y.toNat_lt
          have hdiv := hexDigit_injective (by omega) (by omega) hhigh
          have hmod := hexDigit_injective (by omega) (by omega) hlow
          have heq : x = y := UInt8.toNat_inj.mp (by omega)
          rw [heq, ih hrest]

end SecureSdlc.Core

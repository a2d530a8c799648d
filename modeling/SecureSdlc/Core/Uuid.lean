import SecureSdlc.Core.GoText

/-!
The text form of a UUID: sixteen bytes in lower case with hyphens, which compares as
the bytes do, and the texts PostgreSQL reads as one (upper case, braces, and hyphens
left out or put after any group of four digits).
-/

namespace SecureSdlc.Core.Uuid

open GoText

def hexChar (n : Nat) : Char :=
  if n < 10 then Char.ofNat (48 + n) else Char.ofNat (87 + n)

/-- Two digits, and the hyphen behind the bytes that end a group. -/
def byteCode (i : Nat) (b : UInt8) : List Char :=
  [hexChar (b.toNat / 16), hexChar (b.toNat % 16)] ++
    if i = 3 ∨ i = 5 ∨ i = 7 ∨ i = 9 then ['-'] else []

/-- `uuid.String()`, and what a `UUID` column reads back as. -/
def hyphenated (bytes : List UInt8) : String :=
  String.ofList (Lexicographic.encodeFrom byteCode 0 bytes)

/-- The value of a hexadecimal digit in either case. -/
def hexValue (c : Char) : Option Nat :=
  let n := c.toNat
  if 48 ≤ n ∧ n ≤ 57 then some (n - 48)
  else if 97 ≤ n ∧ n ≤ 102 then some (n - 87)
  else if 65 ≤ n ∧ n ≤ 70 then some (n - 55)
  else none

/-- Read `count` bytes, the first of which is byte `i`; a hyphen may follow every
second byte but the last. -/
def readBytes : Nat → Nat → List Char → Option (List UInt8 × List Char)
  | 0, _, rest => some ([], rest)
  | count + 1, i, a :: b :: rest => do
      let high ← hexValue a
      let low ← hexValue b
      let rest := if rest.head? = some '-' ∧ i % 2 = 1 ∧ i < 15 then rest.tail else rest
      let (bytes, rest) ← readBytes count (i + 1) rest
      pure (UInt8.ofNat (high * 16 + low) :: bytes, rest)
  | _ + 1, _, _ => none

/-- The input function of the `UUID` type. -/
def parse (text : String) : Option (List UInt8) :=
  match text.toList with
  | '\x7b' :: rest => do
      let (bytes, rest) ← readBytes 16 0 rest
      if rest = ['\x7d'] then some bytes else none
  | rest => do
      let (bytes, rest) ← readBytes 16 0 rest
      if rest = [] then some bytes else none

theorem hexChar_val {n : Nat} (h : n < 16) :
    (hexChar n).toNat = if n < 10 then 48 + n else 87 + n := by
  have hall : ∀ d < 16, (hexChar d).toNat = if d < 10 then 48 + d else 87 + d := by decide
  exact hall n h

theorem hexValue_hexChar {n : Nat} (h : n < 16) : hexValue (hexChar n) = some n := by
  have hall : ∀ d < 16, hexValue (hexChar d) = some d := by decide
  exact hall n h

theorem hexChar_lt_iff {m n : Nat} (hm : m < 16) (hn : n < 16) :
    hexChar m < hexChar n ↔ m < n := by
  have hm' := hexChar_val hm
  have hn' := hexChar_val hn
  rw [Char.lt_def, UInt32.lt_iff_toNat_lt]
  change (hexChar m).toNat < (hexChar n).toNat ↔ m < n
  rw [hm', hn']
  split <;> split <;> omega

theorem hexChar_injective {m n : Nat} (hm : m < 16) (hn : n < 16)
    (h : hexChar m = hexChar n) : m = n := by
  have hvalue := hexValue_hexChar hm
  rw [h, hexValue_hexChar hn, Option.some.injEq] at hvalue
  exact hvalue.symm

theorem hexChar_ne {n : Nat} (h : n < 16) : hexChar n ≠ '-' ∧ hexChar n ≠ '\x7b' := by
  have hall : ∀ d < 16, hexChar d ≠ '-' ∧ hexChar d ≠ '\x7b' := by decide
  exact hall n h

private theorem halves (b : UInt8) : b.toNat / 16 < 16 ∧ b.toNat % 16 < 16 := by
  have := b.toNat_lt
  omega

theorem byteCode_order : Lexicographic.OrderCode (fun _ _ => True) byteCode where
  width {i a b} _ _ := by
    simp only [byteCode]
    split <;> rfl
  order {i a b} _ _ := by
    have ha := halves a
    have hb := halves b
    rw [byteCode, byteCode, Lexicographic.append_lt_append_iff (by rfl), UInt8.lt_iff_toNat_lt]
    simp only [List.cons_lt_cons_iff, hexChar_lt_iff ha.1 hb.1, hexChar_lt_iff ha.2 hb.2,
      List.not_lt_nil, and_false, or_false]
    constructor
    · intro h
      rcases h with h | ⟨-, h⟩
      · rcases h with h | ⟨heq, h⟩
        · omega
        · have := hexChar_injective ha.1 hb.1 heq
          omega
      · split at h <;> simp at h
    · intro h
      by_cases hhigh : a.toNat / 16 = b.toNat / 16
      · exact .inl (.inr ⟨congrArg hexChar hhigh, by omega⟩)
      · exact .inl (.inl (by omega))
  injective {i a b} _ _ h := by
    have ha := halves a
    have hb := halves b
    simp only [byteCode, List.append_left_inj, List.cons.injEq, and_true] at h
    have hhigh := hexChar_injective ha.1 hb.1 h.1
    have hlow := hexChar_injective ha.2 hb.2 h.2
    rw [← UInt8.toNat_inj]
    omega

private theorem fitsFrom_true (i : Nat) (bytes : List UInt8) :
    Lexicographic.FitsFrom (fun _ _ => True) i bytes := by
  induction bytes generalizing i with
  | nil => trivial
  | cons b rest ih => exact ⟨trivial, ih (i + 1)⟩

/-- UUID texts compare as the bytes do. -/
theorem before_hyphenated {bytes bytes' : List UInt8} (h : bytes.length = bytes'.length) :
    before (hyphenated bytes) (hyphenated bytes') = decide (bytes < bytes') := by
  rw [before, hyphenated, hyphenated, String.toList_ofList, String.toList_ofList,
    decide_eq_decide]
  exact Lexicographic.encodeFrom_lt_iff byteCode_order (fitsFrom_true 0 _) (fitsFrom_true 0 _) h

theorem trimSpace_hyphenated (bytes : List UInt8) :
    trimSpace (hyphenated bytes) = hyphenated bytes := by
  have hhex : ∀ n < 16, isSpace (hexChar n) = false := by decide
  have hcode : ∀ i, ∀ c ∈ Lexicographic.encodeFrom byteCode i bytes, isSpace c = false := by
    induction bytes with
    | nil => simp [Lexicographic.encodeFrom]
    | cons b rest ih =>
        intro i c hc
        rw [Lexicographic.encodeFrom, List.mem_append] at hc
        rcases hc with hbyte | hrest
        · simp only [byteCode, List.cons_append, List.nil_append, List.mem_cons] at hbyte
          rcases hbyte with rfl | rfl | hdash
          · exact hhex _ (halves b).1
          · exact hhex _ (halves b).2
          · split at hdash
            · rw [List.mem_singleton.mp hdash]
              decide
            · simp at hdash
        · exact ih (i + 1) c hrest
  exact trimSpace_of_forall (by rw [hyphenated, String.toList_ofList]; exact hcode 0)

private theorem head_encodeFrom (i : Nat) (bytes : List UInt8) :
    (Lexicographic.encodeFrom byteCode i bytes).head? ≠ some '-' := by
  cases bytes with
  | nil => simp [Lexicographic.encodeFrom]
  | cons b rest => simpa [Lexicographic.encodeFrom, byteCode] using (hexChar_ne (halves b).1).1

theorem readBytes_encodeFrom (bytes : List UInt8) (i : Nat) (h : i + bytes.length ≤ 16) :
    readBytes bytes.length i (Lexicographic.encodeFrom byteCode i bytes) = some (bytes, []) := by
  induction bytes generalizing i with
  | nil => rfl
  | cons b rest ih =>
      obtain ⟨hhigh, hlow⟩ := halves b
      have hrest := ih (i + 1) (by simp only [List.length_cons] at h; omega)
      have hbyte : UInt8.ofNat (b.toNat / 16 * 16 + b.toNat % 16) = b := by
        rw [Nat.div_add_mod', UInt8.ofNat_toNat]
      have hskip : ∀ tail : List Char, tail.head? ≠ some '-' →
          (if ((if i = 3 ∨ i = 5 ∨ i = 7 ∨ i = 9 then ['-'] else []) ++ tail).head? = some '-' ∧
              i % 2 = 1 ∧ i < 15 then
            ((if i = 3 ∨ i = 5 ∨ i = 7 ∨ i = 9 then ['-'] else []) ++ tail).tail
          else (if i = 3 ∨ i = 5 ∨ i = 7 ∨ i = 9 then ['-'] else []) ++ tail) = tail := by
        intro tail htail
        by_cases hi : i = 3 ∨ i = 5 ∨ i = 7 ∨ i = 9
        · have hodd : i % 2 = 1 ∧ i < 15 := by omega
          simp [hi, hodd]
        · simp [hi, htail]
      simp only [Lexicographic.encodeFrom, byteCode, List.length_cons, List.cons_append,
        List.nil_append, readBytes, hexValue_hexChar hhigh, hexValue_hexChar hlow,
        Option.bind_eq_bind, Option.bind_some, hskip _ (head_encodeFrom (i + 1) rest), hrest,
        hbyte]
      rfl

/-- The text form is read back as the bytes it was made from. -/
theorem parse_hyphenated {bytes : List UInt8} (h : bytes.length = 16) :
    parse (hyphenated bytes) = some bytes := by
  have hread := readBytes_encodeFrom bytes 0 (by omega)
  rw [h] at hread
  cases bytes with
  | nil => simp at h
  | cons b rest =>
      have hne := (hexChar_ne (halves b).1).2
      simp only [parse, hyphenated, String.toList_ofList]
      split
      · rename_i heq
        simp only [Lexicographic.encodeFrom, byteCode, List.cons_append, List.cons.injEq] at heq
        exact absurd heq.1 hne
      · rw [hread]
        rfl

example : parse "\x7b0A1b2C3d-0000-0000-0000-00000000000f\x7d" =
    parse "0a1b2c3d-0000-0000-0000-00000000000f" := by decide

end SecureSdlc.Core.Uuid

import Mathlib.Data.List.Infix

/-!
Python strings and bytes. A string is a sequence of code points, lone surrogates
included; encoding to UTF-8 fails exactly on those. The methods are the ones the
control plane calls, with the character classes of the CPython implementation.
-/

namespace SecureSdlc.Core

abbrev CodePoint := Fin 0x110000

abbrev PyStr := List CodePoint

instance decidableMemTexts (s : PyStr) (texts : List PyStr) : Decidable (s ∈ texts) :=
  List.instDecidableMemOfLawfulBEq s texts

abbrev Bytes := List UInt8

def codePoint (n : Nat) : CodePoint := ⟨n % 0x110000, Nat.mod_lt n (by decide)⟩

theorem codePoint_val (c : CodePoint) : codePoint c.val = c := by
  simp only [codePoint, Nat.mod_eq_of_lt c.isLt]

theorem val_codePoint {n : Nat} (h : n < 0x110000) : (codePoint n).val = n := Nat.mod_eq_of_lt h

/-- The code point of a character. -/
def cp (c : Char) : CodePoint := codePoint c.toNat

/-- A string literal. -/
def py (s : String) : PyStr := s.toList.map cp

namespace PyStr

def isSurrogate (c : CodePoint) : Bool :=
  0xD800 ≤ c.val && c.val ≤ 0xDFFF

/-- No lone surrogate: the strings `encode("utf-8")` accepts. -/
def encodable (s : PyStr) : Bool :=
  s.all fun c => !isSurrogate c

def isAscii (s : PyStr) : Bool :=
  s.all fun c => decide (c.val < 0x80)

def utf8Bytes (c : CodePoint) : Bytes :=
  let n := c.val
  if n < 0x80 then [UInt8.ofNat n]
  else if n < 0x800 then
    [UInt8.ofNat (0xC0 + n / 0x40), UInt8.ofNat (0x80 + n % 0x40)]
  else if n < 0x10000 then
    [UInt8.ofNat (0xE0 + n / 0x1000), UInt8.ofNat (0x80 + n / 0x40 % 0x40),
      UInt8.ofNat (0x80 + n % 0x40)]
  else
    [UInt8.ofNat (0xF0 + n / 0x40000), UInt8.ofNat (0x80 + n / 0x1000 % 0x40),
      UInt8.ofNat (0x80 + n / 0x40 % 0x40), UInt8.ofNat (0x80 + n % 0x40)]

/-- `s.encode("utf-8")`; `none` is the `UnicodeEncodeError`. -/
def encodeUtf8 (s : PyStr) : Option Bytes :=
  if encodable s then some (s.flatMap utf8Bytes) else none

/-- `s.encode("ascii")`; `none` is the `UnicodeEncodeError`. -/
def encodeAscii (s : PyStr) : Option Bytes :=
  if isAscii s then some (s.map fun c => UInt8.ofNat c.val) else none

/-- `a <= b` of strings, by code points. -/
def le : PyStr → PyStr → Bool
  | [], _ => true
  | _ :: _, [] => false
  | a :: as, b :: bs => decide (a.val < b.val) || (decide (a.val = b.val) && le as bs)

/-- `sub in s`. -/
def hasSubstr (s sub : PyStr) : Bool :=
  decide (sub <:+: s)

def startsWith (s front : PyStr) : Bool :=
  decide (front <+: s)

def endsWith (s back : PyStr) : Bool :=
  decide (back <:+ s)

/-- `s.split(sep)` for a one-character separator. -/
def split (s : PyStr) (sep : CodePoint) : List PyStr :=
  s.splitOn sep

/-- `sep.join(parts)`. -/
def join (sep : PyStr) (parts : List PyStr) : PyStr :=
  sep.intercalate parts

/-- `s.replace(old, new)` for single characters. -/
def replaceChar (s : PyStr) (old new : CodePoint) : PyStr :=
  s.map fun c => if c = old then new else c

/-- `str.isspace` of one character. -/
def isSpace (c : CodePoint) : Bool :=
  let n := c.val
  (0x09 ≤ n && n ≤ 0x0D) || (0x1C ≤ n && n ≤ 0x20) || n == 0x85 || n == 0xA0 ||
    n == 0x1680 || (0x2000 ≤ n && n ≤ 0x200A) || n == 0x2028 || n == 0x2029 ||
    n == 0x202F || n == 0x205F || n == 0x3000

/-- `s.strip()`. -/
def strip (s : PyStr) : PyStr :=
  ((s.dropWhile isSpace).reverse.dropWhile isSpace).reverse

/-- The line boundaries of `str.splitlines`, `\r\n` counting once. -/
def isLineBreak (c : CodePoint) : Bool :=
  let n := c.val
  (0x0A ≤ n && n ≤ 0x0D) || (0x1C ≤ n && n ≤ 0x1E) || n == 0x85 || n == 0x2028 || n == 0x2029

def splitlinesFrom : Bool → PyStr → PyStr → List PyStr
  | _, line, [] => if line = [] then [] else [line.reverse]
  | afterCR, line, c :: rest =>
      if afterCR && c.val == 0x0A then splitlinesFrom false [] rest
      else if isLineBreak c then line.reverse :: splitlinesFrom (c.val == 0x0D) [] rest
      else splitlinesFrom false (c :: line) rest

/-- `s.splitlines()`. -/
def splitlines (s : PyStr) : List PyStr :=
  splitlinesFrom false [] s

/-- Universal newlines of a text file: `\r\n` and `\r` are read as `\n`. -/
def universalNewlines : PyStr → PyStr
  | [] => []
  | a :: rest =>
      if a.val = 0x0D then
        match rest with
        | b :: after => if b.val = 0x0A then b :: universalNewlines after
            else cp '\n' :: universalNewlines (b :: after)
        | [] => [cp '\n']
      else a :: universalNewlines rest

/-- `s.find(c)` for one character. -/
def find (s : PyStr) (c : CodePoint) : Option Nat :=
  s.findIdx? (· == c)

/-- `s.rfind(c)` for one character. -/
def rfind (s : PyStr) (c : CodePoint) : Option Nat :=
  (s.reverse.findIdx? (· == c)).map fun i => s.length - 1 - i

/-- The decimal digits of a number. -/
def ofNat (n : Nat) : PyStr :=
  (Nat.toDigits 10 n).map cp

def ofInt : Int → PyStr
  | .ofNat n => ofNat n
  | .negSucc n => cp '-' :: ofNat (n + 1)

theorem join_split (s : PyStr) (sep : CodePoint) : join [sep] (split s sep) = s :=
  List.intercalate_splitOn sep

theorem sep_not_mem_of_mem_split {s c : PyStr} {sep : CodePoint} (h : c ∈ split s sep) :
    sep ∉ c := by
  induction s generalizing c with
  | nil =>
      simp only [split, List.splitOn_nil, List.mem_singleton] at h
      simp [h]
  | cons x rest ih =>
      simp only [split, List.splitOn_cons_eq_if_modifyHead] at h
      split at h
      · rcases List.mem_cons.mp h with rfl | htail
        · simp
        · exact ih htail
      · rename_i hx
        cases hsplit : rest.splitOn sep with
        | nil => exact absurd hsplit (List.splitOn_ne_nil sep rest)
        | cons first more =>
            rw [hsplit, List.modifyHead_cons] at h
            have hfirst : sep ∉ first := ih (by simp [split, hsplit])
            rcases List.mem_cons.mp h with rfl | htail
            · simp only [beq_iff_eq] at hx
              simp only [List.mem_cons, not_or]
              exact ⟨fun heq => hx heq.symm, hfirst⟩
            · exact ih (by simp [split, hsplit, htail])

/-- A tail without the separator ends the last field. -/
theorem split_append_tail (s : PyStr) {tail : PyStr} {sep : CodePoint} (h : sep ∉ tail) :
    ∃ front stem, split (s ++ tail) sep = front ++ [stem ++ tail] := by
  induction s with
  | nil => exact ⟨[], [], by simp [split, List.splitOn_eq_singleton h]⟩
  | cons c rest ih =>
      obtain ⟨front, stem, hrest⟩ := ih
      simp only [split] at hrest
      simp only [split, List.cons_append, List.splitOn_cons_eq_if_modifyHead, hrest]
      split
      · exact ⟨[] :: front, stem, rfl⟩
      · cases front with
        | nil => exact ⟨[], c :: stem, rfl⟩
        | cons first front => exact ⟨(c :: first) :: front, stem, rfl⟩

theorem join_suffix (sep : PyStr) (before : List PyStr) {rest : List PyStr} (h : rest ≠ []) :
    join sep rest <:+ join sep (before ++ rest) := by
  induction before with
  | nil => exact List.suffix_rfl
  | cons x before ih =>
      have hne : before ++ rest ≠ [] := by simp [h]
      have hjoin : join sep (x :: (before ++ rest)) = x ++ sep ++ join sep (before ++ rest) :=
        List.intercalate_cons_of_ne_nil hne
      rw [List.cons_append, hjoin]
      exact ih.trans (List.suffix_append _ _)

theorem join_front (sep : PyStr) (front rest : List PyStr) :
    join sep front <+: join sep (front ++ rest) := by
  induction front with
  | nil => exact List.nil_prefix
  | cons x front ih =>
      cases front with
      | nil =>
          cases rest with
          | nil => exact List.prefix_rfl
          | cons y rest =>
              simp only [join, List.intercalate_singleton, List.singleton_append,
                List.intercalate_cons_cons, List.append_assoc]
              exact List.prefix_append _ _
      | cons y front =>
          simp only [join, List.cons_append, List.intercalate_cons_cons] at ih ⊢
          exact (List.prefix_append_right_inj _).mpr ih

/-- Consecutive fields of a split string stand in it, separators included. -/
theorem infix_of_split {s : PyStr} {sep : CodePoint} (before mid after : List PyStr)
    (h : split s sep = before ++ (mid ++ after)) (hmid : mid ≠ []) : join [sep] mid <:+: s := by
  rw [← join_split s sep, h]
  have hne : mid ++ after ≠ [] := by simp [hmid]
  exact (join_front [sep] mid after).isInfix.trans (join_suffix [sep] before hne).isInfix

theorem join_concat (sep : PyStr) (front : List PyStr) (last : PyStr) (h : front ≠ []) :
    join sep (front ++ [last]) = join sep front ++ sep ++ last := by
  induction front with
  | nil => exact absurd rfl h
  | cons x front ih =>
      cases front with
      | nil => simp [join]
      | cons y front =>
          have hrest := ih (by simp)
          simp only [join, List.cons_append, List.intercalate_cons_cons,
            List.append_assoc] at hrest ⊢
          rw [hrest]

/-- A field that is not the last one is followed by the separator. -/
theorem infix_sep_of_split {s : PyStr} {sep : CodePoint} (before mid after : List PyStr)
    (h : split s sep = before ++ (mid ++ after)) (hmid : mid ≠ []) (hafter : after ≠ []) :
    join [sep] mid ++ [sep] <:+: s := by
  obtain ⟨next, rest, rfl⟩ := List.exists_cons_of_ne_nil hafter
  have hsplit : split s sep = before ++ ((mid ++ [next]) ++ rest) := by simp [h]
  have hfull := infix_of_split before (mid ++ [next]) rest hsplit (by simp)
  rw [join_concat [sep] mid next hmid] at hfull
  exact (List.prefix_append _ next).isInfix.trans hfull

example : splitlines (py "a\r\nb\n\nc") = [py "a", py "b", [], py "c"] := by decide
example : strip (py " \t{ x }\n") = py "{ x }" := by decide

end PyStr

end SecureSdlc.Core

import SecureSdlc.Core.PyText

/-!
Byte encodings of the Python runtime: the Unicode decoders behind `json.loads` on
bytes (`surrogatepass`), UTF-8 with replacement characters, and URL-safe base64,
whose decoder skips characters outside its alphabet.
-/

namespace SecureSdlc.Core

namespace Utf8

def continuation (low high : Nat) (b : UInt8) : Bool :=
  decide (low ≤ b.toNat ∧ b.toNat ≤ high)

def tailBits (b : UInt8) : Nat := b.toNat % 0x40

/-- Decode the head of a non-empty input: the code point or `none`, and the number
of bytes it takes. With `surrogates`, encoded surrogates are accepted. -/
def next (surrogates : Bool) (b : UInt8) (rest : Bytes) : Option CodePoint × Nat :=
  let n := b.toNat
  if n < 0x80 then (some (codePoint n), 1)
  else if 0xC2 ≤ n ∧ n ≤ 0xDF then
    match rest with
    | b₁ :: _ =>
        if continuation 0x80 0xBF b₁ then (some (codePoint ((n - 0xC0) * 0x40 + tailBits b₁)), 2)
        else (none, 1)
    | [] => (none, 1)
  else if 0xE0 ≤ n ∧ n ≤ 0xEF then
    let low := if n = 0xE0 then 0xA0 else 0x80
    let high := if n = 0xED ∧ !surrogates then 0x9F else 0xBF
    match rest with
    | b₁ :: rest₁ =>
        if continuation low high b₁ then
          match rest₁ with
          | b₂ :: _ =>
              if continuation 0x80 0xBF b₂ then
                (some (codePoint ((n - 0xE0) * 0x1000 + tailBits b₁ * 0x40 + tailBits b₂)), 3)
              else (none, 2)
          | [] => (none, 2)
        else (none, 1)
    | [] => (none, 1)
  else if 0xF0 ≤ n ∧ n ≤ 0xF4 then
    let low := if n = 0xF0 then 0x90 else 0x80
    let high := if n = 0xF4 then 0x8F else 0xBF
    match rest with
    | b₁ :: rest₁ =>
        if continuation low high b₁ then
          match rest₁ with
          | b₂ :: rest₂ =>
              if continuation 0x80 0xBF b₂ then
                match rest₂ with
                | b₃ :: _ =>
                    if continuation 0x80 0xBF b₃ then
                      (some (codePoint ((n - 0xF0) * 0x40000 + tailBits b₁ * 0x1000 +
                        tailBits b₂ * 0x40 + tailBits b₃)), 4)
                    else (none, 3)
                | [] => (none, 3)
              else (none, 2)
          | [] => (none, 2)
        else (none, 1)
    | [] => (none, 1)
  else (none, 1)

/-- Decode what is left, `skip` bytes of which belong to the last code point. -/
def decodeFrom (surrogates : Bool) : Nat → Bytes → List (Option CodePoint)
  | _, [] => []
  | skip + 1, _ :: rest => decodeFrom surrogates skip rest
  | 0, b :: rest =>
      let (c, width) := next surrogates b rest
      c :: decodeFrom surrogates (width - 1) rest

/-- `data.decode("utf-8", "surrogatepass")`. -/
def decode (data : Bytes) : Option PyStr :=
  (decodeFrom true 0 data).mapM id

/-- `data.decode("utf-8")`. -/
def decodeStrict (data : Bytes) : Option PyStr :=
  (decodeFrom false 0 data).mapM id

/-- `data.decode("utf-8", errors="replace")`. -/
def decodeReplace (data : Bytes) : PyStr :=
  (decodeFrom false 0 data).map fun c => c.getD (codePoint 0xFFFD)

/-- What `errors="replace"` encodes in the place of a character. -/
def substitute (c : CodePoint) : CodePoint := if PyStr.isSurrogate c then cp '?' else c

/-- `s.encode("utf-8", errors="replace")`. -/
def encodeReplace (s : PyStr) : Bytes := (s.map substitute).flatMap PyStr.utf8Bytes

theorem toNat_ofNat {n : Nat} (h : n < 256) : (UInt8.ofNat n).toNat = n := by
  simp only [UInt8.toNat_ofNat', Nat.reducePow]
  omega

/-- The bytes of a character are decoded as that character, whatever follows. -/
theorem next_utf8Bytes {c : CodePoint} (h : PyStr.isSurrogate c = false) (rest : Bytes) :
    ∃ b more, PyStr.utf8Bytes c = b :: more ∧
      next false b (more ++ rest) = (some c, more.length + 1) := by
  have hlt := c.isLt
  have hplain : ¬ (0xD800 ≤ c.val ∧ c.val ≤ 0xDFFF) := by
    simpa [PyStr.isSurrogate] using h
  have hsame : ∀ {n : Nat}, n = c.val → codePoint n = c := by
    rintro n rfl
    exact Fin.ext (Nat.mod_eq_of_lt hlt)
  rw [PyStr.utf8Bytes]
  split_ifs with hone htwo hthree
  · refine ⟨_, [], rfl, ?_⟩
    rw [next.eq_def]
    simp only [toNat_ofNat (show c.val < 256 by omega), if_pos hone, hsame rfl]
    rfl
  · refine ⟨_, _, rfl, ?_⟩
    have hlow : continuation 0x80 0xBF (UInt8.ofNat (0x80 + c.val % 0x40)) = true := by
      rw [continuation, toNat_ofNat (by omega), decide_eq_true_eq]
      omega
    rw [next.eq_def]
    dsimp only
    rw [toNat_ofNat (by omega), if_neg (by omega), if_pos (by omega)]
    simp only [List.cons_append, List.nil_append, hlow, if_true, tailBits]
    rw [toNat_ofNat (by omega), hsame (by omega)]
    rfl
  · refine ⟨_, _, rfl, ?_⟩
    rw [next.eq_def]
    dsimp only
    rw [toNat_ofNat (by omega), if_neg (by omega), if_neg (by omega), if_pos (by omega)]
    have hmiddle : continuation (if 0xE0 + c.val / 0x1000 = 0xE0 then 0xA0 else 0x80)
        (if 0xE0 + c.val / 0x1000 = 0xED ∧ (!false) = true then 0x9F else 0xBF)
        (UInt8.ofNat (0x80 + c.val / 0x40 % 0x40)) = true := by
      rw [continuation, toNat_ofNat (by omega), decide_eq_true_eq]
      split_ifs with hfirst hsurrogate <;> omega
    have hlow : continuation 0x80 0xBF (UInt8.ofNat (0x80 + c.val % 0x40)) = true := by
      rw [continuation, toNat_ofNat (by omega), decide_eq_true_eq]
      omega
    simp only [List.cons_append, List.nil_append, hmiddle, hlow, if_true, tailBits]
    rw [toNat_ofNat (by omega), toNat_ofNat (by omega), hsame (by omega)]
    rfl
  · refine ⟨_, _, rfl, ?_⟩
    rw [next.eq_def]
    dsimp only
    rw [toNat_ofNat (by omega), if_neg (by omega), if_neg (by omega), if_neg (by omega),
      if_pos (by omega)]
    have hfirst : continuation (if 0xF0 + c.val / 0x40000 = 0xF0 then 0x90 else 0x80)
        (if 0xF0 + c.val / 0x40000 = 0xF4 then 0x8F else 0xBF)
        (UInt8.ofNat (0x80 + c.val / 0x1000 % 0x40)) = true := by
      rw [continuation, toNat_ofNat (by omega), decide_eq_true_eq]
      split_ifs with hsmall hlarge <;> omega
    have hsecond : continuation 0x80 0xBF (UInt8.ofNat (0x80 + c.val / 0x40 % 0x40)) = true := by
      rw [continuation, toNat_ofNat (by omega), decide_eq_true_eq]
      omega
    have hlow : continuation 0x80 0xBF (UInt8.ofNat (0x80 + c.val % 0x40)) = true := by
      rw [continuation, toNat_ofNat (by omega), decide_eq_true_eq]
      omega
    simp only [List.cons_append, List.nil_append]
    rw [if_pos hfirst, if_pos hsecond, if_pos hlow, tailBits, tailBits, tailBits]
    rw [toNat_ofNat (by omega), toNat_ofNat (by omega), toNat_ofNat (by omega), hsame (by omega)]
    rfl

theorem decodeFrom_skip (surrogates : Bool) (front rest : Bytes) :
    decodeFrom surrogates front.length (front ++ rest) = decodeFrom surrogates 0 rest := by
  induction front with
  | nil => rfl
  | cons b front ih => exact ih

/-- Encoded characters are decoded one by one. -/
theorem decodeFrom_utf8Bytes {s : PyStr} (h : PyStr.encodable s = true) :
    decodeFrom false 0 (s.flatMap PyStr.utf8Bytes) = s.map some := by
  induction s with
  | nil => rfl
  | cons c s ih =>
      rw [PyStr.encodable, List.all_cons, Bool.and_eq_true, Bool.not_eq_true'] at h
      obtain ⟨b, more, hbytes, hnext⟩ := next_utf8Bytes h.1 (s.flatMap PyStr.utf8Bytes)
      rw [List.flatMap_cons, hbytes, List.cons_append, decodeFrom, hnext]
      simp only [Nat.add_sub_cancel, decodeFrom_skip, ih h.2, List.map_cons]

theorem decodeStrict_encodeUtf8 {s : PyStr} {data : Bytes} (h : PyStr.encodeUtf8 s = some data) :
    decodeStrict data = some s := by
  rw [PyStr.encodeUtf8] at h
  split at h
  · rename_i hencodable
    cases h
    rw [decodeStrict, decodeFrom_utf8Bytes hencodable, List.mapM_map]
    exact List.mapM_pure.trans (congrArg some (List.map_id s))
  · cases h

theorem encodable_substituted (s : PyStr) : PyStr.encodable (s.map substitute) = true := by
  rw [PyStr.encodable, List.all_map, List.all_eq_true]
  intro c _
  rw [Function.comp_apply, substitute]
  split
  · rfl
  · rename_i hplain
    simpa using hplain

theorem substituted_of_encodable {s : PyStr} (h : PyStr.encodable s = true) :
    s.map substitute = s := by
  rw [PyStr.encodable, List.all_eq_true] at h
  refine (List.map_congr_left fun c hc => ?_).trans (List.map_id s)
  have hplain := h c hc
  rw [Bool.not_eq_true'] at hplain
  simp only [substitute, hplain, Bool.false_eq_true, if_false, id]

/-- What is written with replacements is read as the text with its surrogates replaced. -/
theorem decodeReplace_encodeReplace (s : PyStr) :
    decodeReplace (encodeReplace s) = s.map substitute := by
  rw [decodeReplace, encodeReplace, decodeFrom_utf8Bytes (encodable_substituted s), List.map_map]
  exact List.map_id _

theorem not_surrogate {n : Nat} (h : n < 0xD800 ∨ 0xE000 ≤ n ∧ n < 0x110000) :
    PyStr.isSurrogate (codePoint n) = false := by
  simp only [PyStr.isSurrogate, val_codePoint (show n < 0x110000 by omega), Bool.and_eq_false_iff,
    decide_eq_false_iff_not]
  omega

/-- No surrogate is decoded unless they are accepted. -/
theorem next_not_surrogate {b : UInt8} {rest : Bytes} {c : CodePoint}
    (h : (next false b rest).1 = some c) : PyStr.isSurrogate c = false := by
  rw [next.eq_def] at h
  dsimp only at h
  split at h
  · cases h
    exact not_surrogate (by omega)
  split at h
  · rename_i hlead
    split at h
    · split at h
      · cases h
        refine not_surrogate ?_
        rw [tailBits]
        omega
      · cases h
    · cases h
  split at h
  · rename_i hlead
    simp only [Bool.not_false, and_true] at h
    generalize hlow : (if b.toNat = 0xE0 then 0xA0 else 0x80) = low at h
    generalize hhigh : (if b.toNat = 0xED then 0x9F else 0xBF) = high at h
    split at h
    · rename_i b₁ rest₁
      split at h
      · rename_i hmiddle
        split at h
        · split at h
          · cases h
            refine not_surrogate ?_
            rw [continuation, decide_eq_true_eq] at hmiddle
            simp only [tailBits]
            split_ifs at hlow hhigh with hfirst hlast <;> omega
          · cases h
        · cases h
      · cases h
    · cases h
  split at h
  · rename_i hlead
    generalize hlow : (if b.toNat = 0xF0 then 0x90 else 0x80) = low at h
    generalize hhigh : (if b.toNat = 0xF4 then 0x8F else 0xBF) = high at h
    split at h
    · rename_i b₁ rest₁
      split at h
      · rename_i hmiddle
        split at h
        · split at h
          · split at h
            · split at h
              · cases h
                refine not_surrogate ?_
                rw [continuation, decide_eq_true_eq] at hmiddle
                simp only [tailBits]
                split_ifs at hlow hhigh with hfirst hlast <;> omega
              · cases h
            · cases h
          · cases h
        · cases h
      · cases h
    · cases h
  · cases h

/-- A text that is read with replacements holds no surrogate. -/
theorem encodable_decodeReplace (data : Bytes) : PyStr.encodable (decodeReplace data) = true := by
  have hall : ∀ skip, ∀ found ∈ decodeFrom false skip data, ∀ c, found = some c →
      PyStr.isSurrogate c = false := by
    induction data with
    | nil =>
        intro skip found hmem
        cases skip with
        | zero => cases hmem
        | succ skip => cases hmem
    | cons b rest ih =>
        intro skip found hmem c hc
        cases skip with
        | succ skip => exact ih skip found hmem c hc
        | zero =>
            rcases List.mem_cons.mp hmem with rfl | hmore
            · exact next_not_surrogate hc
            · exact ih _ found hmore c hc
  rw [PyStr.encodable, decodeReplace, List.all_map, List.all_eq_true]
  intro found hmem
  cases hfound : found with
  | none => rfl
  | some c =>
      rw [Function.comp_apply, Option.getD_some, hall 0 found hmem c hfound]
      rfl

end Utf8

namespace Utf16

/-- The code units, or `none` when a byte is left over. -/
def units (bigEndian : Bool) : Bytes → Option (List Nat)
  | [] => some []
  | [_] => none
  | a :: b :: rest => do
      let more ← units bigEndian rest
      pure ((if bigEndian then a.toNat * 0x100 + b.toNat else b.toNat * 0x100 + a.toNat) :: more)

def combine : List Nat → PyStr
  | [] => []
  | high :: low :: rest =>
      if 0xD800 ≤ high ∧ high ≤ 0xDBFF ∧ 0xDC00 ≤ low ∧ low ≤ 0xDFFF then
        codePoint (0x10000 + (high - 0xD800) * 0x400 + (low - 0xDC00)) :: combine rest
      else codePoint high :: combine (low :: rest)
  | [unit] => [codePoint unit]

def decode (bigEndian : Bool) (data : Bytes) : Option PyStr :=
  (units bigEndian data).map combine

end Utf16

namespace Utf32

def decode (bigEndian : Bool) : Bytes → Option PyStr
  | [] => some []
  | a :: b :: c :: d :: rest => do
      let n := if bigEndian then ((a.toNat * 0x100 + b.toNat) * 0x100 + c.toNat) * 0x100 + d.toNat
        else ((d.toNat * 0x100 + c.toNat) * 0x100 + b.toNat) * 0x100 + a.toNat
      if n < 0x110000 then
        let more ← decode bigEndian rest
        pure (codePoint n :: more)
      else none
  | _ => none

end Utf32

/-- `b.decode(detect_encoding(b), "surrogatepass")` of the `json` module. -/
def decodeJsonBytes (data : Bytes) : Option PyStr :=
  match data with
  | 0x00 :: 0x00 :: 0xFE :: 0xFF :: rest => Utf32.decode true rest
  | 0xFF :: 0xFE :: 0x00 :: 0x00 :: rest => Utf32.decode false rest
  | 0xFE :: 0xFF :: rest => Utf16.decode true rest
  | 0xFF :: 0xFE :: rest => Utf16.decode false rest
  | 0xEF :: 0xBB :: 0xBF :: rest => Utf8.decode rest
  | a :: b :: c :: d :: _ =>
      if a = 0 then (if b = 0 then Utf32.decode true data else Utf16.decode true data)
      else if b = 0 then
        (if c = 0 ∧ d = 0 then Utf32.decode false data else Utf16.decode false data)
      else Utf8.decode data
  | [a, b] =>
      if a = 0 then Utf16.decode true data
      else if b = 0 then Utf16.decode false data
      else Utf8.decode data
  | _ => Utf8.decode data

/-- Bytes among which none is zero or starts a byte order mark are read as UTF-8. -/
theorem decodeJsonBytes_plain {data : Bytes}
    (hmark : ∀ b ∈ data, b ≠ 0xFF ∧ b ≠ 0xFE ∧ b ≠ 0xEF) (hzero : ∀ b ∈ data, b ≠ 0) :
    decodeJsonBytes data = Utf8.decode data := by
  delta decodeJsonBytes decodeJsonBytes.match_1
  cases data with
  | nil => rfl
  | cons a rest =>
      have ha : a ≠ 0 := hzero a List.mem_cons_self
      obtain ⟨hFF, hFE, hEF⟩ := hmark a List.mem_cons_self
      rcases rest with _ | ⟨b, _ | ⟨c, _ | ⟨d, more⟩⟩⟩
      · change dite (a = 0) _ _ = _
        rw [dif_neg ha, dif_neg hFF, dif_neg hFE, dif_neg hEF]
      · have hb : b ≠ 0 := hzero b (by simp)
        change dite (a = 0) _ _ = _
        rw [dif_neg ha, dif_neg hFF, dif_neg hFE, dif_neg hEF]
        change ite (a = 0) _ _ = _
        rw [if_neg ha, if_neg hb]
      · change dite (a = 0) _ _ = _
        rw [dif_neg ha, dif_neg hFF, dif_neg hFE, dif_neg hEF]
      · have hb : b ≠ 0 := hzero b (by simp)
        change dite (a = 0) _ _ = _
        rw [dif_neg ha, dif_neg hFF, dif_neg hFE, dif_neg hEF]
        change ite (a = 0) _ _ = _
        rw [if_neg ha, if_neg hb]

namespace Base64

/-- The URL-safe alphabet. -/
def alphabet : PyStr :=
  py "ABCDEFGHIJKLMNOPQRSTUVWXYZabcdefghijklmnopqrstuvwxyz0123456789-_"

def letter (n : Nat) : CodePoint := alphabet.getD n (codePoint 0)

/-- `urlsafe_b64encode(data).rstrip(b"=")`. -/
def encode : Bytes → PyStr
  | [] => []
  | [a] => [letter (a.toNat / 4), letter (a.toNat % 4 * 16)]
  | [a, b] =>
      [letter (a.toNat / 4), letter (a.toNat % 4 * 16 + b.toNat / 16), letter (b.toNat % 16 * 4)]
  | a :: b :: c :: rest =>
      letter (a.toNat / 4) :: letter (a.toNat % 4 * 16 + b.toNat / 16) ::
        letter (b.toNat % 16 * 4 + c.toNat / 64) :: letter (c.toNat % 64) :: encode rest

/-- The value of a character; after the translation of `-_` to `+/` both spellings
are letters. -/
def value (c : CodePoint) : Option Nat :=
  if c = cp '+' then some 62
  else if c = cp '/' then some 63
  else alphabet.findIdx? (· == c)

/-- `binascii.a2b_base64`: characters read in the current group of four, the bits
left of the last one and the padding seen since; `none` is `binascii.Error`. -/
def decodeFrom : Nat → Nat → Nat → PyStr → Option Bytes
  | quad, _, _, [] => if quad = 0 then some [] else none
  | quad, left, pads, c :: rest =>
      if c = cp '=' then
        if 2 ≤ quad then
          if 4 ≤ quad + (pads + 1) then some [] else decodeFrom quad left (pads + 1) rest
        else decodeFrom quad left pads rest
      else
        match value c with
        | none => decodeFrom quad left pads rest
        | some v =>
            match quad with
            | 0 => decodeFrom 1 v 0 rest
            | 1 => (decodeFrom 2 (v % 16) 0 rest).map (UInt8.ofNat (left * 4 + v / 16) :: ·)
            | 2 => (decodeFrom 3 (v % 4) 0 rest).map (UInt8.ofNat (left * 16 + v / 4) :: ·)
            | _ => (decodeFrom 0 0 0 rest).map (UInt8.ofNat (left * 64 + v) :: ·)

/-- `urlsafe_b64decode(text + "=" * (-len(text) % 4))`; `none` is a `ValueError`. -/
def decode (text : PyStr) : Option Bytes :=
  let padded := text ++ List.replicate ((4 - text.length % 4) % 4) (cp '=')
  if PyStr.isAscii padded then decodeFrom 0 0 0 padded else none

theorem value_letter {n : Nat} (h : n < 64) : value (letter n) = some n := by
  have hall : ∀ n : Fin 64, value (letter n) = some n.val := by decide +kernel
  exact hall ⟨n, h⟩

theorem letter_ne_pad {n : Nat} (h : n < 64) : letter n ≠ cp '=' := by
  have hall : ∀ n : Fin 64, letter n ≠ cp '=' := by decide +kernel
  exact hall ⟨n, h⟩

/-- Letters are ASCII and none of them is the dot of a token. -/
theorem letter_ascii {n : Nat} (h : n < 64) : (letter n).val < 0x80 ∧ letter n ≠ cp '.' := by
  have hall : ∀ n : Fin 64, (letter n).val < 0x80 ∧ letter n ≠ cp '.' := by decide +kernel
  exact hall ⟨n, h⟩

/-- A property of all letters holds along an encoded text. -/
theorem forall_mem_encode {P : CodePoint → Prop} (h : ∀ n, n < 64 → P (letter n))
    (data : Bytes) : ∀ c ∈ encode data, P c := by
  induction data using encode.induct with
  | case1 => simp [encode]
  | case2 a =>
      have ha := a.toNat_lt
      simp only [encode, List.forall_mem_cons, List.not_mem_nil, false_implies, implies_true,
        and_true]
      exact ⟨h _ (by omega), h _ (by omega)⟩
  | case3 a b =>
      have ha := a.toNat_lt
      have hb := b.toNat_lt
      simp only [encode, List.forall_mem_cons, List.not_mem_nil, false_implies, implies_true,
        and_true]
      exact ⟨h _ (by omega), h _ (by omega), h _ (by omega)⟩
  | case4 a b c rest ih =>
      have ha := a.toNat_lt
      have hb := b.toNat_lt
      have hc := c.toNat_lt
      simp only [encode, List.forall_mem_cons]
      exact ⟨h _ (by omega), h _ (by omega), h _ (by omega), h _ (by omega), ih⟩

theorem isAscii_encode (data : Bytes) : PyStr.isAscii (encode data) = true := by
  simp only [PyStr.isAscii, List.all_eq_true, decide_eq_true_eq]
  exact forall_mem_encode (fun _ hn => (letter_ascii hn).1) data

theorem dot_not_mem_encode (data : Bytes) : cp '.' ∉ encode data := by
  have hne : ∀ c ∈ encode data, c ≠ cp '.' :=
    forall_mem_encode (fun _ hn => (letter_ascii hn).2) data
  exact fun hmem => hne _ hmem rfl

theorem encode_eq_nil {data : Bytes} : encode data = [] ↔ data = [] := by
  cases data with
  | nil => simp [encode]
  | cons a rest =>
      cases rest with
      | nil => simp [encode]
      | cons b rest => cases rest <;> simp [encode]

section Letters

variable {n : Nat} (h : n < 64) (left pads : Nat) (rest : PyStr)
include h

theorem decodeFrom_first : decodeFrom 0 left pads (letter n :: rest) = decodeFrom 1 n 0 rest := by
  simp only [decodeFrom, letter_ne_pad h, if_false, value_letter h]

theorem decodeFrom_second : decodeFrom 1 left pads (letter n :: rest) =
    (decodeFrom 2 (n % 16) 0 rest).map (UInt8.ofNat (left * 4 + n / 16) :: ·) := by
  simp only [decodeFrom, letter_ne_pad h, if_false, value_letter h]

theorem decodeFrom_third : decodeFrom 2 left pads (letter n :: rest) =
    (decodeFrom 3 (n % 4) 0 rest).map (UInt8.ofNat (left * 16 + n / 4) :: ·) := by
  simp only [decodeFrom, letter_ne_pad h, if_false, value_letter h]

theorem decodeFrom_fourth : decodeFrom 3 left pads (letter n :: rest) =
    (decodeFrom 0 0 0 rest).map (UInt8.ofNat (left * 64 + n) :: ·) := by
  simp only [decodeFrom, letter_ne_pad h, if_false, value_letter h]

end Letters

theorem byte_of_parts (a : UInt8) {n : Nat} (h : n = a.toNat) : UInt8.ofNat n = a := by
  rw [h]
  exact UInt8.ofNat_toNat

/-- The encoded text with the padding its length asks for. -/
def padded (text : PyStr) : PyStr :=
  text ++ List.replicate ((4 - text.length % 4) % 4) (cp '=')

theorem padded_group (a b c d : CodePoint) (text : PyStr) :
    padded (a :: b :: c :: d :: text) = a :: b :: c :: d :: padded text := by
  have hlength : (text.length + 1 + 1 + 1 + 1) % 4 = text.length % 4 := by omega
  simp only [padded, List.length_cons, hlength, List.cons_append]

theorem decodeFrom_padded_encode (data : Bytes) :
    decodeFrom 0 0 0 (padded (encode data)) = some data := by
  induction data using encode.induct with
  | case1 => rfl
  | case2 a =>
      have ha := a.toNat_lt
      have hpad : padded (encode [a]) = letter (a.toNat / 4) :: letter (a.toNat % 4 * 16) ::
          [cp '=', cp '='] := rfl
      have hend : decodeFrom 2 (a.toNat % 4 * 16 % 16) 0 [cp '=', cp '='] = some [] := rfl
      rw [hpad, decodeFrom_first (by omega), decodeFrom_second (by omega), hend]
      simp only [Option.map_some, Option.some.injEq, List.cons.injEq, and_true]
      exact byte_of_parts a (by omega)
  | case3 a b =>
      have ha := a.toNat_lt
      have hb := b.toNat_lt
      have hpad : padded (encode [a, b]) = letter (a.toNat / 4) ::
          letter (a.toNat % 4 * 16 + b.toNat / 16) :: letter (b.toNat % 16 * 4) ::
            [cp '='] := rfl
      have hend : decodeFrom 3 (b.toNat % 16 * 4 % 4) 0 [cp '='] = some [] := rfl
      rw [hpad, decodeFrom_first (by omega), decodeFrom_second (by omega),
        decodeFrom_third (by omega), hend]
      simp only [Option.map_some, Option.some.injEq, List.cons.injEq, and_true]
      exact ⟨byte_of_parts a (by omega), byte_of_parts b (by omega)⟩
  | case4 a b c rest ih =>
      have ha := a.toNat_lt
      have hb := b.toNat_lt
      have hc := c.toNat_lt
      rw [encode, padded_group, decodeFrom_first (by omega), decodeFrom_second (by omega),
        decodeFrom_third (by omega), decodeFrom_fourth (by omega), ih]
      simp only [Option.map_some, Option.some.injEq, List.cons.injEq, and_true]
      exact ⟨byte_of_parts a (by omega), byte_of_parts b (by omega), byte_of_parts c (by omega)⟩

theorem decode_encode (data : Bytes) : decode (encode data) = some data := by
  have hpadding : ∀ count, PyStr.isAscii (List.replicate count (cp '=')) = true := by
    intro count
    simp only [PyStr.isAscii, List.all_eq_true]
    intro c hc
    rw [List.eq_of_mem_replicate hc]
    rfl
  have hascii : PyStr.isAscii (padded (encode data)) = true := by
    have hfront := isAscii_encode data
    have hback := hpadding ((4 - (encode data).length % 4) % 4)
    simp only [PyStr.isAscii] at hfront hback ⊢
    rw [padded, List.all_append, hfront, hback]
    rfl
  rw [padded] at hascii
  have hdecoded := decodeFrom_padded_encode data
  rw [padded] at hdecoded
  simp only [decode, hascii, if_true, hdecoded]

example : decode (encode [0x7B, 0x22, 0xFF, 0x00]) = some [0x7B, 0x22, 0xFF, 0x00] := by decide

end Base64


/-- Text of printable ASCII characters, the output of `json.dumps`. -/
def Printable (text : PyStr) : Prop := ∀ c ∈ text, 0x20 ≤ c.val ∧ c.val < 0x7F

instance (text : PyStr) : Decidable (Printable text) :=
  decidable_of_iff (text.all fun c => decide (0x20 ≤ c.val ∧ c.val < 0x7F))
    (by simp [Printable, List.all_eq_true])

namespace Printable

theorem encodeUtf8 {text : PyStr} (h : Printable text) :
    PyStr.encodeUtf8 text = some (text.map fun c => UInt8.ofNat c.val) := by
  have hencodable : PyStr.encodable text = true := by
    simp only [PyStr.encodable, List.all_eq_true]
    intro c hc
    have hc := h c hc
    simp only [PyStr.isSurrogate, Bool.not_eq_true', Bool.and_eq_false_iff, decide_eq_false_iff_not]
    omega
  have hbytes : text.flatMap PyStr.utf8Bytes = text.map fun c => UInt8.ofNat c.val := by
    rw [List.map_eq_flatMap]
    refine List.flatMap_congr ?_
    intro c hc
    have hlt : c.val < 0x80 := by have := h c hc; omega
    simp only [PyStr.utf8Bytes, hlt, if_true]
  simp only [PyStr.encodeUtf8, hencodable, if_true, hbytes]

theorem toNat_byte {c : CodePoint} (h : 0x20 ≤ c.val ∧ c.val < 0x7F) :
    (UInt8.ofNat c.val).toNat = c.val := by
  simp only [UInt8.toNat_ofNat']
  omega

theorem utf8Decode {text : PyStr} (h : Printable text) :
    Utf8.decode (text.map fun c => UInt8.ofNat c.val) = some text := by
  induction text with
  | nil => rfl
  | cons c rest ih =>
      have hc := h c List.mem_cons_self
      have hrest := ih fun d hd => h d (List.mem_cons_of_mem _ hd)
      have hlt : c.val < 0x80 := by omega
      simp only [Utf8.decode] at hrest
      simp only [Utf8.decode, List.map_cons, Utf8.decodeFrom, Utf8.next, toNat_byte hc, hlt,
        if_true, codePoint_val, Nat.sub_self, List.mapM_cons, id_eq, hrest]
      rfl

/-- No byte order mark and no zero byte leads a printable text to another decoder. -/
theorem decodeJsonBytes {text : PyStr} (h : Printable text) :
    Core.decodeJsonBytes (text.map fun c => UInt8.ofNat c.val) = some text := by
  have hbyte : ∀ b ∈ text.map fun c => UInt8.ofNat c.val, 0x20 ≤ b.toNat ∧ b.toNat < 0x7F := by
    intro b hb
    obtain ⟨c, hc, rfl⟩ := List.mem_map.mp hb
    rw [toNat_byte (h c hc)]
    exact h c hc
  have hmark : ∀ b ∈ text.map fun c => UInt8.ofNat c.val, b ≠ 0xFF ∧ b ≠ 0xFE ∧ b ≠ 0xEF := by
    intro b hb
    have hlow := (hbyte b hb).2
    refine ⟨?_, ?_, ?_⟩
    · rintro rfl
      exact absurd hlow (by decide)
    · rintro rfl
      exact absurd hlow (by decide)
    · rintro rfl
      exact absurd hlow (by decide)
  have hzero : ∀ b ∈ text.map fun c => UInt8.ofNat c.val, b ≠ 0 := by
    rintro b hb rfl
    exact absurd (hbyte 0 hb).1 (by decide)
  rw [decodeJsonBytes_plain hmark hzero, utf8Decode h]

end Printable

example : Utf8.decode [0xE2, 0x82, 0xAC, 0x61] = some [codePoint 0x20AC, cp 'a'] := by decide
example : Utf8.decodeReplace [0xE2, 0x82, 0x61, 0xFF] =
    [codePoint 0xFFFD, cp 'a', codePoint 0xFFFD] := by
  decide

end SecureSdlc.Core

import Mathlib.Data.List.Sort
import SecureSdlc.Core.Bytes
import SecureSdlc.Core.Python

/-!
`json.dumps` and `json.loads`. The writer has the options the control plane uses;
the reader accepts what the module accepts (NaN and infinities, lone surrogates in
escapes, the last of repeated keys) and raises `JSONDecodeError` on other texts,
`ValueError` on integers that are too long and `RecursionError` on deep nesting.
-/

namespace SecureSdlc.Core.JsonText

structure Style where
  sortKeys : Bool := false
  ensureAscii : Bool := true
  itemSeparator : PyStr := py ", "
  keySeparator : PyStr := py ": "

/-- `sort_keys=True, separators=(",", ":"), ensure_ascii=False`. -/
def canonical : Style :=
  { sortKeys := true, ensureAscii := false, itemSeparator := py ",", keySeparator := py ":" }

def escapeUnit (n : Nat) : PyStr := py "\\u" ++ hexDigits 4 n

def escapeChar (ascii : Bool) (c : CodePoint) : PyStr :=
  let n := c.val
  if c = cp '"' then py "\\\""
  else if c = cp '\\' then py "\\\\"
  else if n = 0x0A then py "\\n"
  else if n = 0x0D then py "\\r"
  else if n = 0x09 then py "\\t"
  else if n = 0x0C then py "\\f"
  else if n = 0x08 then py "\\b"
  else if n < 0x20 then escapeUnit n
  else if ascii = false ∨ n < 0x7F then [c]
  else if n < 0x10000 then escapeUnit n
  else escapeUnit (0xD800 + (n - 0x10000) / 0x400) ++ escapeUnit (0xDC00 + (n - 0x10000) % 0x400)

def quote (ascii : Bool) (s : PyStr) : PyStr :=
  py "\"" ++ s.flatMap (escapeChar ascii) ++ py "\""

def floatText (repr : PyStr) : PyStr :=
  if repr = py "nan" then py "NaN"
  else if repr = py "inf" then py "Infinity"
  else if repr = py "-inf" then py "-Infinity"
  else repr

mutual

def write (style : Style) (room : Nat) : Json → Except PyError PyStr
  | .null => .ok (py "null")
  | .bool true => .ok (py "true")
  | .bool false => .ok (py "false")
  | .int n => intText n
  | .float repr => .ok (floatText repr)
  | .str s => .ok (quote style.ensureAscii s)
  | .arr items =>
      match room with
      | 0 => .error { kind := .recursionError }
      | room + 1 => do
          let parts ← writeItems style room items
          pure (py "[" ++ PyStr.join style.itemSeparator parts ++ py "]")
  | .obj fields =>
      match room with
      | 0 => .error { kind := .recursionError }
      | room + 1 => do
          let parts ← writeFields style room fields
          let parts := if style.sortKeys then
            parts.insertionSort fun a b => PyStr.le a.1 b.1 else parts
          let members := parts.map fun part =>
            quote style.ensureAscii part.1 ++ style.keySeparator ++ part.2
          pure (py "\x7b" ++ PyStr.join style.itemSeparator members ++ py "\x7d")

def writeItems (style : Style) (room : Nat) : List Json → Except PyError (List PyStr)
  | [] => .ok []
  | v :: rest => do
      let text ← write style room v
      let texts ← writeItems style room rest
      pure (text :: texts)

def writeFields (style : Style) (room : Nat) :
    List (PyStr × Json) → Except PyError (List (PyStr × PyStr))
  | [] => .ok []
  | (k, v) :: rest => do
      let text ← write style room v
      let texts ← writeFields style room rest
      pure ((k, text) :: texts)

end

def dumps (rt : Runtime) (style : Style) (v : Json) : Except PyError PyStr :=
  write style rt.dumpsRoom v

def decodeError {α : Type} : Except PyError α := .error { kind := .jsonDecodeError }

def isBlank (c : CodePoint) : Bool :=
  decide (c = cp ' ' ∨ c = cp '\t' ∨ c = cp '\n' ∨ c = cp '\r')

def skipBlanks (s : PyStr) : PyStr := s.dropWhile isBlank

def hexValue (c : CodePoint) : Option Nat :=
  let n := c.val
  if 48 ≤ n ∧ n ≤ 57 then some (n - 48)
  else if 97 ≤ n ∧ n ≤ 102 then some (n - 87)
  else if 65 ≤ n ∧ n ≤ 70 then some (n - 55)
  else none

/-- Four hexadecimal digits and the text after them. -/
def hex4 : PyStr → Option (Nat × PyStr)
  | a :: b :: c :: d :: rest => do
      let a ← hexValue a
      let b ← hexValue b
      let c ← hexValue c
      let d ← hexValue d
      pure (((a * 16 + b) * 16 + c) * 16 + d, rest)
  | _ => none

def simpleEscape (c : CodePoint) : Option CodePoint :=
  if c = cp '"' ∨ c = cp '\\' ∨ c = cp '/' then some c
  else if c = cp 'b' then some (codePoint 0x08)
  else if c = cp 'f' then some (codePoint 0x0C)
  else if c = cp 'n' then some (codePoint 0x0A)
  else if c = cp 'r' then some (codePoint 0x0D)
  else if c = cp 't' then some (codePoint 0x09)
  else none

/-- The second half of a surrogate pair after `high`, if the text goes on with one. -/
def lowHalf (high : Nat) (rest : PyStr) : Except PyError (CodePoint × PyStr) :=
  match rest with
  | b :: u :: digits =>
      if 0xD800 ≤ high ∧ high ≤ 0xDBFF ∧ b = cp '\\' ∧ u = cp 'u' then
        match hex4 digits with
        | none => decodeError
        | some (low, after) =>
            if 0xDC00 ≤ low ∧ low ≤ 0xDFFF then
              .ok (codePoint (0x10000 + (high - 0xD800) * 0x400 + (low - 0xDC00)), after)
            else .ok (codePoint high, rest)
      else .ok (codePoint high, rest)
  | _ => .ok (codePoint high, rest)

/-- The characters of a string literal up to its closing quote. -/
def readString : Nat → PyStr → Except PyError (PyStr × PyStr)
  | 0, _ => decodeError
  | _ + 1, [] => decodeError
  | fuel + 1, c :: rest =>
      if c = cp '"' then .ok ([], rest)
      else if c.val < 0x20 then decodeError
      else if c = cp '\\' then
        match rest with
        | [] => decodeError
        | e :: after =>
            if e = cp 'u' then
              match hex4 after with
              | none => decodeError
              | some (n, after) => do
                  let (c, after) ← lowHalf n after
                  let (s, tail) ← readString fuel after
                  pure (c :: s, tail)
            else
              match simpleEscape e with
              | none => decodeError
              | some c => do
                  let (s, tail) ← readString fuel after
                  pure (c :: s, tail)
      else do
        let (s, tail) ← readString fuel rest
        pure (c :: s, tail)

def isDigit (c : CodePoint) : Bool := decide (48 ≤ c.val ∧ c.val ≤ 57)

def digitsValue (s : PyStr) : Nat := s.foldl (fun acc c => acc * 10 + (c.val - 48)) 0

/-- `(\.[0-9]+)?` -/
def fraction : PyStr → PyStr × PyStr
  | dot :: rest =>
      if dot = cp '.' ∧ (rest.takeWhile isDigit) ≠ [] then
        (dot :: rest.takeWhile isDigit, rest.dropWhile isDigit)
      else ([], dot :: rest)
  | [] => ([], [])

/-- `([eE][-+]?[0-9]+)?` -/
def exponent (s : PyStr) : PyStr × PyStr :=
  match s with
  | e :: rest =>
      if e = cp 'e' ∨ e = cp 'E' then
        let (sign, digits) := match rest with
          | c :: more => if c = cp '-' ∨ c = cp '+' then ([c], more) else ([], rest)
          | [] => ([], [])
        if digits.takeWhile isDigit = [] then ([], s)
        else (e :: sign ++ digits.takeWhile isDigit, digits.dropWhile isDigit)
      else ([], s)
  | [] => ([], [])

/-- A number literal; the sign and the text that follows it. -/
def readNumber (rt : Runtime) (negative : Bool) (s : PyStr) : Except PyError (Json × PyStr) :=
  match s with
  | [] => decodeError
  | c :: rest =>
      if isDigit c then
        let whole := if c = cp '0' then [c] else s.takeWhile isDigit
        let after := if c = cp '0' then rest else s.dropWhile isDigit
        let (frac, after) := fraction after
        let (expo, after) := exponent after
        if frac = [] ∧ expo = [] then
          if maxStrDigits < whole.length then .error { kind := .valueError }
          else .ok (.int (if negative then -digitsValue whole else digitsValue whole), after)
        else
          let text := (if negative then py "-" else []) ++ whole ++ frac ++ expo
          .ok (.float (rt.floatRepr text), after)
      else decodeError

/-- `literal` stands at the head of the text. -/
def literal? (literal : String) (s : PyStr) : Option PyStr :=
  if PyStr.startsWith s (py literal) then some (s.drop (py literal).length) else none

def readScalar (rt : Runtime) (s : PyStr) : Except PyError (Json × PyStr) :=
  match literal? "null" s, literal? "true" s, literal? "false" s with
  | some rest, _, _ => .ok (.null, rest)
  | _, some rest, _ => .ok (.bool true, rest)
  | _, _, some rest => .ok (.bool false, rest)
  | none, none, none =>
      match literal? "NaN" s, literal? "Infinity" s, literal? "-Infinity" s with
      | some rest, _, _ => .ok (.float (py "nan"), rest)
      | _, some rest, _ => .ok (.float (py "inf"), rest)
      | _, _, some rest => .ok (.float (py "-inf"), rest)
      | none, none, none =>
          match s with
          | c :: rest => if c = cp '-' then readNumber rt true rest else readNumber rt false s
          | [] => decodeError

mutual

/-- One value at the head of the text. -/
def read (rt : Runtime) : Nat → Nat → PyStr → Except PyError (Json × PyStr)
  | 0, _, _ => decodeError
  | _ + 1, _, [] => decodeError
  | fuel + 1, room, c :: rest =>
      if c = cp '"' then do
        let (s, rest) ← readString (rest.length + 1) rest
        pure (.str s, rest)
      else if c = cp '[' then
        match room with
        | 0 => .error { kind := .recursionError }
        | room + 1 =>
            match skipBlanks rest with
            | d :: after =>
                if d = cp ']' then .ok (.arr [], after)
                else do
                  let (items, rest) ← readItems rt fuel room (d :: after)
                  pure (.arr items, rest)
            | [] => decodeError
      else if c = cp '\x7b' then
        match room with
        | 0 => .error { kind := .recursionError }
        | room + 1 =>
            match skipBlanks rest with
            | d :: after =>
                if d = cp '\x7d' then .ok (.obj [], after)
                else do
                  let (fields, rest) ← readFields rt fuel room [] (d :: after)
                  pure (.obj fields, rest)
            | [] => decodeError
      else readScalar rt (c :: rest)

/-- The items of an array from the first one on, with its closing bracket. -/
def readItems (rt : Runtime) : Nat → Nat → PyStr → Except PyError (List Json × PyStr)
  | 0, _, _ => decodeError
  | fuel + 1, room, s => do
      let (v, rest) ← read rt fuel room s
      match skipBlanks rest with
      | c :: after =>
          if c = cp ']' then pure ([v], after)
          else if c = cp ',' then do
            let (vs, rest) ← readItems rt fuel room (skipBlanks after)
            pure (v :: vs, rest)
          else decodeError
      | [] => decodeError

/-- The members of an object from the first key on; a repeated key is reassigned. -/
def readFields (rt : Runtime) : Nat → Nat → List (PyStr × Json) → PyStr →
    Except PyError (List (PyStr × Json) × PyStr)
  | 0, _, _, _ => decodeError
  | _ + 1, _, _, [] => decodeError
  | fuel + 1, room, fields, c :: rest =>
      if c = cp '"' then do
        let (key, rest) ← readString (rest.length + 1) rest
        match skipBlanks rest with
        | colon :: after =>
            if colon = cp ':' then do
              let (v, rest) ← read rt fuel room (skipBlanks after)
              let fields := Assoc.set fields key v
              match skipBlanks rest with
              | d :: after =>
                  if d = cp '\x7d' then pure (fields, after)
                  else if d = cp ',' then readFields rt fuel room fields (skipBlanks after)
                  else decodeError
              | [] => decodeError
            else decodeError
        | [] => decodeError
      else decodeError

end

/-- `json.loads(text)`. -/
def loads (rt : Runtime) (text : PyStr) : Except PyError Json :=
  if PyStr.startsWith text [codePoint 0xFEFF] then decodeError
  else do
    let (v, rest) ← read rt (2 * text.length + 1) rt.loadsRoom (skipBlanks text)
    if skipBlanks rest = [] then pure v else decodeError

/-- `json.loads(data)`; undecodable bytes raise `UnicodeDecodeError`, a `ValueError`. -/
def loadsBytes (rt : Runtime) (data : Bytes) : Except PyError Json :=
  match decodeJsonBytes data with
  | some text => loads rt text
  | none => .error { kind := .valueError }

end SecureSdlc.Core.JsonText

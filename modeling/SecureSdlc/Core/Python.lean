import Mathlib.Algebra.Group.Nat.Defs
import Mathlib.Data.List.Perm.Basic
import Mathlib.Data.Option.Basic
import SecureSdlc.Core.Json

/-!
Exceptions of the Python runtime, what the interpreter supplies and `str` of a
JSON value. Hash functions, the compressor, ISO 8601 parsing, `repr(float(text))` and the
character database are fields of `Runtime`; results quantify over them. Containers nested
deeper than the recursion room raise `RecursionError`, integers of more than 4300
digits `ValueError`.
-/

namespace SecureSdlc.Core

inductive ErrorKind where
  | assertionError
  | attributeError
  | candidateError
  | indexError
  | jsonDecodeError
  | keyError
  | osError
  | pipelineError
  | recursionError
  | runtimeError
  | runUnknownError
  | sensitiveContentError
  | skillError
  | toolError
  | typeError
  | unicodeEncodeError
  | unknownSkillError
  | unknownToolError
  | valueError
deriving DecidableEq, Repr

/-- An exception in flight; errors raised by the interpreter carry no text here. -/
structure PyError where
  kind : ErrorKind
  message : PyStr := []
deriving DecidableEq

theorem exists_ok_of_bind {α β : Type} {first : Except PyError α} {next : α → Except PyError β}
    {result : β} (h : (first >>= next) = .ok result) :
    ∃ value, first = .ok value ∧ next value = .ok result := by
  cases first with
  | error e => cases h
  | ok value => exact ⟨value, rfl, h⟩

/-- Two steps return when the first returns and the second does on its result. -/
theorem exists_bind_iff {α β : Type} {first : Except PyError α} {next : α → Except PyError β} :
    (∃ result, (first >>= next) = .ok result) ↔
      ∃ value, first = .ok value ∧ ∃ result, next value = .ok result := by
  constructor
  · rintro ⟨result, h⟩
    obtain ⟨value, hfirst, hnext⟩ := exists_ok_of_bind h
    exact ⟨value, hfirst, result, hnext⟩
  · rintro ⟨value, hfirst, result, hnext⟩
    exact ⟨result, by rw [hfirst]; exact hnext⟩

theorem mapM_ok {α β : Type} {f : α → Except PyError β} {g : α → β} {xs : List α}
    (h : ∀ x ∈ xs, f x = .ok (g x)) : xs.mapM f = .ok (xs.map g) := by
  induction xs with
  | nil => rfl
  | cons x xs ih =>
      rw [List.mapM_cons, h x List.mem_cons_self,
        ih fun y hy => h y (List.mem_cons_of_mem _ hy)]
      rfl

theorem exists_mapM_ok {α β : Type} {f : α → Except PyError β} {xs : List α}
    (h : ∀ x ∈ xs, ∃ y, f x = .ok y) : ∃ ys, xs.mapM f = .ok ys := by
  induction xs with
  | nil => exact ⟨[], rfl⟩
  | cons x xs ih =>
      obtain ⟨y, hy⟩ := h x List.mem_cons_self
      obtain ⟨ys, hys⟩ := ih fun z hz => h z (List.mem_cons_of_mem _ hz)
      exact ⟨y :: ys, by rw [List.mapM_cons, hy, hys]; rfl⟩

/-- As `exists_mapM_ok`, with a fact about each result. -/
theorem exists_mapM_ok_forall {α β : Type} {f : α → Except PyError β} {P : β → Prop} {xs : List α}
    (h : ∀ x ∈ xs, ∃ y, f x = .ok y ∧ P y) : ∃ ys, xs.mapM f = .ok ys ∧ ∀ y ∈ ys, P y := by
  induction xs with
  | nil => exact ⟨[], rfl, fun _ hy => nomatch hy⟩
  | cons x xs ih =>
      obtain ⟨y, hy, hP⟩ := h x List.mem_cons_self
      obtain ⟨ys, hys, hrest⟩ := ih fun z hz => h z (List.mem_cons_of_mem _ hz)
      refine ⟨y :: ys, ?_, List.forall_mem_cons.mpr ⟨hP, hrest⟩⟩
      rw [List.mapM_cons, hy, hys]
      rfl

/-- What a list is mapped to has an element for each of its elements, and no others. -/
theorem mem_of_mapM_ok {α β : Type} {f : α → Except PyError β} {xs : List α} {ys : List β}
    (h : xs.mapM f = .ok ys) :
    (∀ x ∈ xs, ∃ y ∈ ys, f x = .ok y) ∧ ∀ y ∈ ys, ∃ x ∈ xs, f x = .ok y := by
  induction xs generalizing ys with
  | nil =>
      cases h
      exact ⟨fun _ hx => (nomatch hx), fun _ hy => (nomatch hy)⟩
  | cons x xs ih =>
      rw [List.mapM_cons] at h
      obtain ⟨y, hy, h⟩ := exists_ok_of_bind h
      obtain ⟨rest, hrest, h⟩ := exists_ok_of_bind h
      cases h
      obtain ⟨hleft, hright⟩ := ih hrest
      refine ⟨?_, ?_⟩
      · intro z hz
        rcases List.mem_cons.mp hz with rfl | hz
        · exact ⟨y, List.mem_cons_self, hy⟩
        · obtain ⟨w, hw, heq⟩ := hleft z hz
          exact ⟨w, List.mem_cons_of_mem _ hw, heq⟩
      · intro w hw
        rcases List.mem_cons.mp hw with rfl | hw
        · exact ⟨x, List.mem_cons_self, hy⟩
        · obtain ⟨z, hz, heq⟩ := hright w hw
          exact ⟨z, List.mem_cons_of_mem _ hz, heq⟩

theorem foldlM_ok_iff {σ α β : Type} [Inhabited β] {key : α → Except PyError β}
    {next : σ → α → β → σ} {xs : List α} {s result : σ} :
    xs.foldlM (fun s x => do
      let value ← key x
      pure (next s x value)) s = .ok result ↔
    (∀ x ∈ xs, ∃ value, key x = .ok value) ∧
      result = xs.foldl (fun s x => next s x ((key x).toOption.getD default)) s := by
  induction xs generalizing s with
  | nil => simp [pure, Except.pure, eq_comm]
  | cons x xs ih =>
      rw [List.foldlM_cons, List.foldl_cons]
      cases hx : key x with
      | error e => simp [hx, bind, Except.bind]
      | ok value =>
          simp only [bind, Except.bind, pure, Except.pure] at ih ⊢
          rw [ih]
          simp [hx, Except.toOption]

theorem forall₂_of_mapM_ok {α β : Type} {f : α → Except PyError β} {xs : List α} {ys : List β}
    (h : xs.mapM f = .ok ys) : List.Forall₂ (fun x y => f x = .ok y) xs ys := by
  induction xs generalizing ys with
  | nil =>
      cases h
      exact .nil
  | cons x xs ih =>
      rw [List.mapM_cons] at h
      obtain ⟨y, hy, h⟩ := exists_ok_of_bind h
      obtain ⟨rest, hrest, h⟩ := exists_ok_of_bind h
      cases h
      exact .cons hy (ih hrest)

/-- What a function returns for the elements of two lists that are permuted is permuted. -/
theorem perm_of_forall₂_ok {α β : Type} {f : α → Except PyError β} {xs xs' : List α}
    {ys ys' : List β} (hperm : xs.Perm xs') (h : List.Forall₂ (fun x y => f x = .ok y) xs ys)
    (h' : List.Forall₂ (fun x y => f x = .ok y) xs' ys') : ys.Perm ys' := by
  have hmap : ∀ {xs : List α} {ys : List β}, List.Forall₂ (fun x y => f x = .ok y) xs ys →
      ys.map some = xs.map fun x => (f x).toOption := by
    intro xs ys hall
    induction hall with
    | nil => rfl
    | cons hhead _ ih => rw [List.map_cons, List.map_cons, ih, hhead, Except.toOption]
  have hsome := hperm.map fun x => (f x).toOption
  rw [← hmap h, ← hmap h'] at hsome
  exact (List.map_perm_map_iff (Option.some_injective β)).mp hsome

theorem ok_of_toOption {α : Type} {outcome : Except PyError α} {value : α}
    (h : outcome.toOption = some value) : outcome = .ok value := by
  cases outcome with
  | error e => cases h
  | ok other =>
      cases h
      rfl

/-- `isinstance(error, ValueError)`. -/
def PyError.isValueError (e : PyError) : Bool :=
  match e.kind with
  | .valueError | .jsonDecodeError | .unicodeEncodeError | .runUnknownError |
    .sensitiveContentError | .skillError | .candidateError => true
  | _ => false

/-- A `datetime`: microseconds of its wall clock and its UTC offset, if it has one. -/
structure Datetime where
  wall : Int
  offset : Option Int
deriving DecidableEq, Repr

structure Runtime where
  sha256 : Bytes → Bytes
  hmacSha256 : Bytes → Bytes → Bytes
  zlibCompress : Bytes → Bytes
  isPrintable : CodePoint → Bool
  isDecimal : CodePoint → Bool
  fromisoformat : PyStr → Option Datetime
  floatRepr : PyStr → PyStr
  reprRoom : Nat
  dumpsRoom : Nat
  loadsRoom : Nat

/-- A runtime for ASCII text without timestamps. It has no hash function: a value that
needs one takes its own. -/
def Runtime.ascii : Runtime where
  sha256 := fun _ => []
  hmacSha256 := fun _ _ => []
  zlibCompress := id
  isPrintable := fun c => decide (32 ≤ c.val ∧ c.val ≤ 126)
  isDecimal := fun c => decide (48 ≤ c.val ∧ c.val ≤ 57)
  fromisoformat := fun _ => none
  floatRepr := id
  reprRoom := 1000
  dumpsRoom := 1000
  loadsRoom := 1000

/-- A checksum that tells the texts apart that a sample hashes. -/
def checksum (data : Bytes) : Nat := data.foldl (fun n byte => (n * 31 + byte.toNat) % 1000003) 0

def digestBytes (digest : Nat) : Bytes :=
  (List.range 32).map fun i => UInt8.ofNat (digest / 256 ^ (31 - i) % 256)

/-- The digest that a table has for the data. -/
def recorded (table : List (Nat × Nat)) (data : Bytes) : Bytes :=
  ((table.find? fun entry => entry.1 == checksum data).map fun entry => digestBytes entry.2).getD []

/-- A runtime that knows the digests of some texts, and the signatures of others. -/
def Runtime.recording (digests signatures : List (Nat × Nat)) : Runtime where
  __ := Runtime.ascii
  sha256 := recorded digests
  hmacSha256 := fun _ => recorded signatures

def hexDigit (n : Nat) : CodePoint :=
  if n < 10 then cp (Char.ofNat (48 + n)) else cp (Char.ofNat (87 + n))

/-- `width` lower-case hexadecimal digits of `n`. -/
def hexDigits : Nat → Nat → PyStr
  | 0, _ => []
  | width + 1, n => hexDigits width (n / 16) ++ [hexDigit (n % 16)]

/-- `digest.hex()`. -/
def hexOfBytes (b : Bytes) : PyStr :=
  b.flatMap fun x => hexDigits 2 x.toNat

/-- `hashlib.sha256(data).hexdigest()`. -/
def Runtime.hexdigest (rt : Runtime) (data : Bytes) : PyStr :=
  hexOfBytes (rt.sha256 data)

def reprChar (rt : Runtime) (quote c : CodePoint) : PyStr :=
  let n := c.val
  if c = quote ∨ c = cp '\\' then [cp '\\', c]
  else if c = cp '\n' then py "\\n"
  else if c = cp '\r' then py "\\r"
  else if c = cp '\t' then py "\\t"
  else if 0x20 ≤ n ∧ n < 0x7F then [c]
  else if n < 0x80 ∨ (n < 0x100 ∧ ¬ rt.isPrintable c) then py "\\x" ++ hexDigits 2 n
  else if rt.isPrintable c then [c]
  else if n < 0x10000 then py "\\u" ++ hexDigits 4 n
  else py "\\U" ++ hexDigits 8 n

/-- `repr(s)`: double quotes only when the text has a single and no double one. -/
def reprStr (rt : Runtime) (s : PyStr) : PyStr :=
  let quote := if cp '\'' ∈ s ∧ cp '"' ∉ s then cp '"' else cp '\''
  quote :: s.flatMap (reprChar rt quote) ++ [quote]

def maxStrDigits : Nat := 4300

/-- `str(n)`. -/
def intText (n : Int) : Except PyError PyStr :=
  if maxStrDigits < (PyStr.ofNat n.natAbs).length then .error { kind := .valueError }
  else .ok (PyStr.ofInt n)

mutual

/-- `repr(value)` with `room` levels of nesting left. -/
def Json.repr (rt : Runtime) (room : Nat) : Json → Except PyError PyStr
  | .null => .ok (py "None")
  | .bool true => .ok (py "True")
  | .bool false => .ok (py "False")
  | .int n => intText n
  | .float text => .ok text
  | .str s => .ok (reprStr rt s)
  | .arr items =>
      match room with
      | 0 => .error { kind := .recursionError }
      | room + 1 => do
          let parts ← Json.reprItems rt room items
          pure (py "[" ++ PyStr.join (py ", ") parts ++ py "]")
  | .obj fields =>
      match room with
      | 0 => .error { kind := .recursionError }
      | room + 1 => do
          let parts ← Json.reprFields rt room fields
          pure (py "\x7b" ++ PyStr.join (py ", ") parts ++ py "\x7d")

def Json.reprItems (rt : Runtime) (room : Nat) : List Json → Except PyError (List PyStr)
  | [] => .ok []
  | v :: rest => do
      let text ← Json.repr rt room v
      let texts ← Json.reprItems rt room rest
      pure (text :: texts)

def Json.reprFields (rt : Runtime) (room : Nat) :
    List (PyStr × Json) → Except PyError (List PyStr)
  | [] => .ok []
  | (k, v) :: rest => do
      let text ← Json.repr rt room v
      let texts ← Json.reprFields rt room rest
      pure ((reprStr rt k ++ py ": " ++ text) :: texts)

end

/-- `str(value)`. -/
def Json.text (rt : Runtime) : Json → Except PyError PyStr
  | .str s => .ok s
  | v => Json.repr rt rt.reprRoom v

@[simp] theorem Json.text_str (rt : Runtime) (s : PyStr) : Json.text rt (.str s) = .ok s := rfl

/-- `for item in value`. -/
def Json.iterate : Json → Except PyError (List Json)
  | .arr items => .ok items
  | .obj fields => .ok (fields.map fun entry => .str entry.1)
  | .str s => .ok (s.map fun c => .str [c])
  | _ => .error { kind := .typeError }

/-- `for item in mapping.get(key, [])`. -/
def iterateMember (mapping : Mapping) (key : PyStr) : Except PyError (List Json) :=
  match Assoc.get mapping key with
  | some value => value.iterate
  | none => .ok []

/-- `value.get(key)`, with the exception a value without that method raises. -/
def Json.getMember : Json → PyStr → Except PyError (Option Json)
  | .obj fields, key => .ok (Assoc.get fields key)
  | _, _ => .error { kind := .attributeError }

/-- `mapping[key]`. -/
def item (mapping : Mapping) (key : PyStr) : Except PyError Json :=
  match Assoc.get mapping key with
  | some value => .ok value
  | none => .error { kind := .keyError }

/-- `value[key]`. -/
def Json.subscript : Json → PyStr → Except PyError Json
  | .obj fields, key => item fields key
  | _, _ => .error { kind := .typeError }

/-- The pairs `dict` is called on; a `Mapping` has no place for other keys than strings. -/
def dictFrom (fields : Mapping) : List Json → Except PyError Mapping
  | [] => .ok fields
  | pair :: rest => do
      match ← pair.iterate with
      | [.str key, value] => dictFrom (Assoc.set fields key value) rest
      | [_, _] => .error { kind := .typeError }
      | _ => .error { kind := .valueError }

/-- `dict(value)`. -/
def Json.toDict : Json → Except PyError Mapping
  | .obj fields => .ok fields
  | value => do dictFrom [] (← value.iterate)

namespace Datetime

/-- `moment.replace(tzinfo=UTC)` of a naive moment, the moment itself otherwise. -/
def asUtc (moment : Datetime) : Datetime :=
  match moment.offset with
  | none => { moment with offset := some 0 }
  | some _ => moment

/-- The instant two aware moments are compared by. -/
def instant (moment : Datetime) : Int :=
  moment.wall - moment.offset.getD 0

end Datetime

end SecureSdlc.Core

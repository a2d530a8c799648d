import SecureSdlc.Core.Json

/-!
The fragment of JSON Schema (draft 2020-12) the project's schemas are written in.
Every schema names its type; `format` and `default` are annotations and constrain
nothing, and a pattern is given by the set of strings it matches.
-/

namespace SecureSdlc.Core

inductive StringRule where
  | free
  | minLength (n : Nat)
  | pattern (matches_ : PyStr → Bool)
  | const (text : PyStr)
  | enum (texts : List PyStr)

def StringRule.admits : StringRule → PyStr → Bool
  | .free, _ => true
  | .minLength n, s => decide (n ≤ s.length)
  | .pattern matches_, s => matches_ s
  | .const text, s => decide (s = text)
  | .enum texts, s => decide (s ∈ texts)

inductive Schema where
  | anything
  | boolean
  | string (rule : StringRule)
  | integer (minimum : Option Int)
  | array (minItems : Nat) (items : Schema)
  | object (closed : Bool) (required : List PyStr) (properties : List (PyStr × Schema))

namespace Schema

/-- The integer a float stands for, when its `repr` shows it to be one below 10^16. -/
def wholeFloat (repr : PyStr) : Option Int :=
  match repr.reverse with
  | zero :: dot :: digits =>
      if zero = cp '0' ∧ dot = cp '.' then
        let (negative, body) := match digits.reverse with
          | c :: rest => if c = cp '-' then (true, rest) else (false, c :: rest)
          | [] => (false, [])
        let n : Int := body.foldl (fun acc c => acc * 10 + (c.val - 48)) 0
        some (if negative then -n else n)
      else none
  | _ => none

/-- `repr` in exponent form, from 10^16 on: every such float is whole. -/
def hugeFloat (repr : PyStr) : Bool :=
  PyStr.hasSubstr repr (py "e+")

def admitsInteger (minimum : Option Int) : Json → Bool
  | .int n => minimum.all (decide <| · ≤ n)
  | .float repr =>
      match wholeFloat repr with
      | some n => minimum.all (decide <| · ≤ n)
      | none => hugeFloat repr && !(minimum.isSome && PyStr.startsWith repr (py "-"))
  | _ => false

mutual

def valid : Schema → Json → Bool
  | .anything, _ => true
  | .boolean, v => match v with
      | .bool _ => true
      | _ => false
  | .string rule, v => match v with
      | .str s => rule.admits s
      | _ => false
  | .integer minimum, v => admitsInteger minimum v
  | .array minItems items, v => match v with
      | .arr vs => decide (minItems ≤ vs.length) && vs.all (valid items)
      | _ => false
  | .object closed required properties, v => match v with
      | .obj fields =>
          required.all (fun k => (Assoc.get fields k).isSome) &&
            validProperties properties fields &&
            (!closed || fields.all fun entry => (Assoc.get properties entry.1).isSome)
      | _ => false

def validProperties : List (PyStr × Schema) → List (PyStr × Json) → Bool
  | [], _ => true
  | (k, s) :: rest, fields =>
      (match Assoc.get fields k with
        | some v => valid s v
        | none => true) && validProperties rest fields

end

theorem valid_string_iff (rule : StringRule) (v : Json) :
    valid (.string rule) v = true ↔ ∃ s, v = .str s ∧ rule.admits s = true := by
  cases v <;> simp [valid]

theorem validProperties_get {properties : List (PyStr × Schema)} {fields : List (PyStr × Json)}
    (h : validProperties properties fields = true) {k : PyStr} {s : Schema} {v : Json}
    (hs : Assoc.get properties k = some s) (hv : Assoc.get fields k = some v) :
    valid s v = true := by
  induction properties with
  | nil => simp [Assoc.get] at hs
  | cons entry rest ih =>
      obtain ⟨k', s'⟩ := entry
      rw [validProperties, Bool.and_eq_true] at h
      by_cases hk : k' = k
      · subst hk
        simp only [Assoc.get, if_true, Option.some.injEq] at hs
        subst hs
        simpa only [hv] using h.1
      · simp only [Assoc.get, hk, if_false] at hs
        exact ih h.2 hs

theorem valid_object {closed : Bool} {required : List PyStr}
    {properties : List (PyStr × Schema)} {v : Json}
    (h : valid (.object closed required properties) v = true) :
    ∃ fields, v = .obj fields ∧ (∀ k ∈ required, (Assoc.get fields k).isSome = true) ∧
      validProperties properties fields = true ∧
      (closed = true → ∀ entry ∈ fields, (Assoc.get properties entry.1).isSome = true) := by
  cases v with
  | obj fields =>
      simp only [valid, Bool.and_eq_true, Bool.or_eq_true, List.all_eq_true,
        Bool.not_eq_true'] at h
      refine ⟨fields, rfl, h.1.1, h.1.2, ?_⟩
      intro hc
      exact h.2.resolve_left (by simp [hc])
  | _ => simp [valid] at h

/-- A member with a schema of its own meets it, if it is there. -/
theorem valid_present {closed : Bool} {required : List PyStr}
    {properties : List (PyStr × Schema)} {fields : List (PyStr × Json)}
    (h : valid (.object closed required properties) (.obj fields) = true) {k : PyStr} {s : Schema}
    (hs : Assoc.get properties k = some s) {v : Json} (hv : Assoc.get fields k = some v) :
    valid s v = true := by
  obtain ⟨_, heq, -, hprops, -⟩ := valid_object h
  cases heq
  exact validProperties_get hprops hs hv

theorem valid_array {minItems : Nat} {items : Schema} {v : Json}
    (h : valid (.array minItems items) v = true) :
    ∃ vs, v = .arr vs ∧ minItems ≤ vs.length ∧ ∀ item ∈ vs, valid items item = true := by
  cases v with
  | arr vs =>
      simp only [valid, Bool.and_eq_true, decide_eq_true_eq, List.all_eq_true] at h
      exact ⟨vs, rfl, h.1, h.2⟩
  | _ => simp [valid] at h

/-- A required member with a schema of its own is there and meets it. -/
theorem valid_member {closed : Bool} {required : List PyStr}
    {properties : List (PyStr × Schema)} {fields : List (PyStr × Json)}
    (h : valid (.object closed required properties) (.obj fields) = true) {k : PyStr} {s : Schema}
    (hk : k ∈ required) (hs : Assoc.get properties k = some s) :
    ∃ v, Assoc.get fields k = some v ∧ valid s v = true := by
  obtain ⟨_, heq, hreq, hprops, -⟩ := valid_object h
  cases heq
  obtain ⟨v, hv⟩ := Option.isSome_iff_exists.mp (hreq k hk)
  exact ⟨v, hv, validProperties_get hprops hs hv⟩

/-- A closed object has no member that its schema does not know. -/
theorem valid_unknown {required : List PyStr} {properties : List (PyStr × Schema)}
    {fields : List (PyStr × Json)}
    (h : valid (.object true required properties) (.obj fields) = true)
    {k : PyStr} (hk : Assoc.get properties k = none) : Assoc.get fields k = none := by
  obtain ⟨_, heq, -, -, hclosed⟩ := valid_object h
  cases heq
  cases hget : Assoc.get fields k with
  | none => rfl
  | some v =>
      have hknown := hclosed rfl (k, v) (Assoc.mem_of_get hget)
      rw [hk] at hknown
      cases hknown

section Members

variable {s : Schema} {k : PyStr} {v : Json} {properties : List (PyStr × Schema)}
variable {fields : List (PyStr × Json)}

/-- One property of an object that has it. -/
theorem validProperties_member (hget : Assoc.get fields k = some v) :
    validProperties ((k, s) :: properties) fields =
      (valid s v && validProperties properties fields) := by
  rw [validProperties, hget]

theorem validProperties_absent (hget : Assoc.get fields k = none) :
    validProperties ((k, s) :: properties) fields = validProperties properties fields := by
  rw [validProperties, hget, Bool.true_and]

/-- With its required members, and no unknown ones, an object is valid by its properties. -/
theorem valid_object_eq {closed : Bool} {required : List PyStr}
    (hrequired : required.all (fun k => (Assoc.get fields k).isSome) = true)
    (hknown : (!closed || fields.all fun entry => (Assoc.get properties entry.1).isSome) = true) :
    valid (.object closed required properties) (.obj fields) =
      validProperties properties fields := by
  rw [valid]
  simp only [hrequired, hknown, Bool.true_and, Bool.and_true]

end Members

end Schema

end SecureSdlc.Core

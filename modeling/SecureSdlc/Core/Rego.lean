import Mathlib.Data.List.Sort
import SecureSdlc.Core.Json

/-!
What the policies use of the Rego evaluator. A reference that does not resolve is
undefined, here `none`, and an undefined or false statement ends its rule body.
The evaluator may bind the references inside a negated expression ahead of it, so
that an undefined one ends the body, or negate the whole expression; every result
is stated for both readings. Numbers are compared, and timestamps parsed, by the
engine's own functions.
-/

namespace SecureSdlc.Core.Rego

inductive Negation where
  | bindsFirst
  | whole
deriving DecidableEq, Repr

structure Engine where
  negation : Negation
  numEq : Json → Json → Bool
  parseRfc3339Ns : PyStr → Option Int

/-- `not e`, where `e` reads the reference `operand`. -/
def Engine.absent (opa : Engine) {α : Type} (operand : Option α) (e : α → Bool) : Bool :=
  match operand, opa.negation with
  | some a, _ => !e a
  | none, .bindsFirst => false
  | none, .whole => true

/-- The values `v` of `some v in collection`. -/
def elements : Option Json → List Json
  | some (.arr items) => items
  | some (.obj fields) => fields.map Prod.snd
  | _ => []

/-- A reference `value.key`. -/
def field (value : Option Json) (key : PyStr) : Option Json :=
  value.bind fun v => v.get? key

/-- `object.get(object, key, default)`. -/
def objectGet (object : Json) (key : PyStr) (dflt : Json) : Option Json :=
  match object with
  | .obj fields => some ((Assoc.get fields key).getD dflt)
  | _ => none

/-- `ref == "text"`. -/
def isText (value : Option Json) (text : PyStr) : Bool :=
  match value with
  | some (.str s) => decide (s = text)
  | _ => false

/-- `set[ref]` for a set of strings and a defined `ref`. -/
def inSet (set : List PyStr) : Json → Bool
  | .str s => decide (s ∈ set)
  | _ => false

theorem isText_iff (value : Option Json) (text : PyStr) :
    isText value text = true ↔ value = some (.str text) := by
  cases value with
  | none => simp [isText]
  | some v => cases v <;> simp [isText]

theorem inSet_iff (set : List PyStr) (v : Json) :
    inSet set v = true ↔ ∃ s, v = .str s ∧ s ∈ set := by
  cases v <;> simp [inSet]

structure Decision where
  allow : Bool
  reasonCodes : List PyStr
deriving DecidableEq

/-- The `decision` rules every policy ends with, from its deny reasons. -/
def Decision.of (denyReasons : List PyStr) : Decision :=
  if denyReasons.length > 0 then ⟨false, denyReasons.insertionSort fun a b => PyStr.le a b⟩
  else ⟨true, [py "ALLOWED"]⟩

/-- A policy allows when none of its rules fires. -/
theorem Decision.of_allow_iff {ρ : Type} {rules : List ρ} (all : ∀ r, r ∈ rules)
    (fires : ρ → Bool) (code : ρ → PyStr) :
    (Decision.of ((rules.filter fires).map code)).allow = true ↔ ∀ r, fires r = false := by
  have hempty : (Decision.of ((rules.filter fires).map code)).allow = true ↔
      (rules.filter fires).map code = [] := by
    cases (rules.filter fires).map code <;> simp [Decision.of]
  rw [hempty, List.map_eq_nil_iff, List.filter_eq_nil_iff]
  constructor
  · intro h r
    simpa using h r (all r)
  · intro h r _
    simp [h r]

variable (opa : Engine)

mutual

/-- `a == b` on documents; objects are compared without regard to order. -/
def Engine.eq : Json → Json → Bool
  | .null, .null => true
  | .bool a, .bool b => a == b
  | .str a, .str b => decide (a = b)
  | .arr as, .arr bs => Engine.eqItems as bs
  | .obj as, .obj bs => as.length == bs.length && Engine.eqFields as bs
  | .int a, .int b => opa.numEq (.int a) (.int b)
  | .int a, .float b => opa.numEq (.int a) (.float b)
  | .float a, .int b => opa.numEq (.float a) (.int b)
  | .float a, .float b => opa.numEq (.float a) (.float b)
  | _, _ => false

def Engine.eqItems : List Json → List Json → Bool
  | [], [] => true
  | a :: as, b :: bs => Engine.eq a b && Engine.eqItems as bs
  | _, _ => false

def Engine.eqFields : List (PyStr × Json) → List (PyStr × Json) → Bool
  | [], _ => true
  | (k, a) :: as, bs =>
      (match Assoc.get bs k with
        | some b => Engine.eq a b
        | none => false) && Engine.eqFields as bs

end

end SecureSdlc.Core.Rego

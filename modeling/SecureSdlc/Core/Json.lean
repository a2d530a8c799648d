import SecureSdlc.Core.Assoc
import SecureSdlc.Core.PyText

/-!
JSON documents as the Python `json` module delivers them. A finite float is kept
by its `repr`; an object keeps its insertion order, and lookups take the first
entry of a key.
-/

namespace SecureSdlc.Core

inductive Json where
  | null
  | bool (b : Bool)
  | int (n : Int)
  | float (repr : PyStr)
  | str (s : PyStr)
  | arr (items : List Json)
  | obj (fields : List (PyStr × Json))

/-- A `Mapping[str, Any]` with JSON values. -/
abbrev Mapping := List (PyStr × Json)

namespace Json

/-- `value.get(key)` of an object; no other value has members. -/
def get? : Json → PyStr → Option Json
  | .obj fields, key => Assoc.get fields key
  | _, _ => none

def str? : Json → Option PyStr
  | .str s => some s
  | _ => none

/-- `bool(value)`. -/
def truthy : Json → Bool
  | .null => false
  | .bool b => b
  | .int n => decide (n ≠ 0)
  | .float repr => decide (repr ≠ py "0.0" ∧ repr ≠ py "-0.0")
  | .str s => !s.isEmpty
  | .arr items => !items.isEmpty
  | .obj fields => !fields.isEmpty

mutual

/-- Nesting depth; scalars have depth zero. -/
def depth : Json → Nat
  | .arr items => depthItems items + 1
  | .obj fields => depthFields fields + 1
  | _ => 0

def depthItems : List Json → Nat
  | [] => 0
  | v :: rest => max (depth v) (depthItems rest)

def depthFields : List (PyStr × Json) → Nat
  | [] => 0
  | (_, v) :: rest => max (depth v) (depthFields rest)

end

mutual

/-- `texts` holds of every string and key, `floats` of the `repr` of every float and
`ints` of every integer. -/
def allScalars (texts floats : PyStr → Bool) (ints : Int → Bool) : Json → Bool
  | .str s => texts s
  | .float repr => floats repr
  | .int n => ints n
  | .arr items => allScalarsItems texts floats ints items
  | .obj fields => allScalarsFields texts floats ints fields
  | _ => true

def allScalarsItems (texts floats : PyStr → Bool) (ints : Int → Bool) : List Json → Bool
  | [] => true
  | v :: rest => allScalars texts floats ints v && allScalarsItems texts floats ints rest

def allScalarsFields (texts floats : PyStr → Bool) (ints : Int → Bool) :
    List (PyStr × Json) → Bool
  | [] => true
  | (k, v) :: rest =>
      texts k && allScalars texts floats ints v && allScalarsFields texts floats ints rest

end

mutual

/-- No object in the value has a key twice, as in a `dict`. -/
def distinctKeys : Json → Bool
  | .arr items => distinctKeysItems items
  | .obj fields => decide (fields.map Prod.fst).Nodup && distinctKeysFields fields
  | _ => true

def distinctKeysItems : List Json → Bool
  | [] => true
  | v :: rest => distinctKeys v && distinctKeysItems rest

def distinctKeysFields : List (PyStr × Json) → Bool
  | [] => true
  | (_, v) :: rest => distinctKeys v && distinctKeysFields rest

end

theorem distinctKeys_of_item {items : List Json} {v : Json}
    (h : distinctKeys (.arr items) = true) (hv : v ∈ items) : v.distinctKeys = true := by
  rw [distinctKeys] at h
  induction items with
  | nil => exact nomatch hv
  | cons w rest ih =>
      rw [distinctKeysItems, Bool.and_eq_true] at h
      rcases List.mem_cons.mp hv with rfl | hrest
      · exact h.1
      · exact ih h.2 hrest

theorem distinctKeys_of_field {fields : List (PyStr × Json)}
    (h : distinctKeys (.obj fields) = true) :
    (fields.map Prod.fst).Nodup ∧ ∀ field ∈ fields, field.2.distinctKeys = true := by
  rw [distinctKeys, Bool.and_eq_true, decide_eq_true_eq] at h
  refine ⟨h.1, ?_⟩
  have hvalues := h.2
  clear h
  induction fields with
  | nil => exact fun _ hf => nomatch hf
  | cons field rest ih =>
      rw [distinctKeysFields, Bool.and_eq_true] at hvalues
      rw [List.forall_mem_cons]
      exact ⟨hvalues.1, ih hvalues.2⟩

/-- A value as Python holds it. -/
structure Value where
  json : Json
  distinct : json.distinctKeys = true

mutual

/-- The values are the same, their members in the same order. -/
def same : Json → Json → Bool
  | .null, .null => true
  | .bool a, .bool b => decide (a = b)
  | .int a, .int b => decide (a = b)
  | .float a, .float b => decide (a = b)
  | .str a, .str b => decide (a = b)
  | .arr as, .arr bs => sameItems as bs
  | .obj as, .obj bs => sameFields as bs
  | _, _ => false

def sameItems : List Json → List Json → Bool
  | [], [] => true
  | a :: as, b :: bs => same a b && sameItems as bs
  | _, _ => false

def sameFields : List (PyStr × Json) → List (PyStr × Json) → Bool
  | [], [] => true
  | (k, a) :: as, (l, b) :: bs => decide (k = l) && same a b && sameFields as bs
  | _, _ => false

end

mutual

theorem same_iff : (a b : Json) → (same a b = true ↔ a = b)
  | .null, b => by cases b <;> simp [same]
  | .bool a, b => by cases b <;> simp [same]
  | .int a, b => by cases b <;> simp [same]
  | .float a, b => by cases b <;> simp [same]
  | .str a, b => by cases b <;> simp [same]
  | .arr as, b => by
      cases b with
      | arr bs => rw [same, sameItems_iff as bs, Json.arr.injEq]
      | _ => simp [same]
  | .obj as, b => by
      cases b with
      | obj bs => rw [same, sameFields_iff as bs, Json.obj.injEq]
      | _ => simp [same]

theorem sameItems_iff : (as bs : List Json) → (sameItems as bs = true ↔ as = bs)
  | [], bs => by cases bs <;> simp [sameItems]
  | a :: as, bs => by
      cases bs with
      | nil => simp [sameItems]
      | cons b bs =>
          rw [sameItems, Bool.and_eq_true, same_iff a b, sameItems_iff as bs, List.cons.injEq]

theorem sameFields_iff : (as bs : List (PyStr × Json)) → (sameFields as bs = true ↔ as = bs)
  | [], bs => by cases bs <;> simp [sameFields]
  | (k, a) :: as, bs => by
      cases bs with
      | nil => simp [sameFields]
      | cons entry bs =>
          obtain ⟨l, b⟩ := entry
          rw [sameFields, Bool.and_eq_true, Bool.and_eq_true, decide_eq_true_eq, same_iff a b,
            sameFields_iff as bs, List.cons.injEq, Prod.mk.injEq]

end

instance : DecidableEq Json := fun a b => decidable_of_iff _ (same_iff a b)

end Json

/-- No string of the value has a lone surrogate. -/
def SurrogateFree (v : Json) : Prop :=
  v.allScalars PyStr.encodable PyStr.encodable (fun _ => true) = true

instance (v : Json) : Decidable (SurrogateFree v) := inferInstanceAs (Decidable (_ = _))

end SecureSdlc.Core

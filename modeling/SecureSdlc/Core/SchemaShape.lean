import SecureSdlc.Core.JsonSpelling
import SecureSdlc.Core.Schema

/-!
Schemas that bound what they admit. A plain schema knows every member of its objects and
has no numbers; its values nest no deeper than it does, so that the writer has room for
them. What a plain schema admits besides is not looked at.
-/

namespace SecureSdlc.Core.Schema

/-- The value has no numbers, and nests no deeper than this. -/
structure Plain (n : Nat) (v : Json) : Prop where
  depth : v.depth ≤ n
  numberFree : v.allScalars (fun _ => true) (fun _ => false) (fun _ => false) = true

theorem plain_str (n : Nat) (s : PyStr) : Plain n (.str s) := ⟨Nat.zero_le _, rfl⟩

theorem plain_arr {n : Nat} {items : List Json} :
    Plain (n + 1) (.arr items) ↔ ∀ v ∈ items, Plain n v := by
  constructor
  · intro h v hv
    exact ⟨JsonText.depthItems_le_iff.mp (Nat.le_of_succ_le_succ h.depth) v hv,
      (JsonText.allScalarsItems_iff items).mp h.numberFree v hv⟩
  · intro h
    exact ⟨Nat.succ_le_succ (JsonText.depthItems_le_iff.mpr fun v hv => (h v hv).depth),
      (JsonText.allScalarsItems_iff items).mpr fun v hv => (h v hv).numberFree⟩

theorem plain_obj {n : Nat} {fields : List (PyStr × Json)} :
    Plain (n + 1) (.obj fields) ↔ ∀ field ∈ fields, Plain n field.2 := by
  constructor
  · intro h field hf
    exact ⟨JsonText.depthFields_le_iff.mp (Nat.le_of_succ_le_succ h.depth) field hf,
      ((JsonText.allScalarsFields_iff fields).mp h.numberFree field hf).2⟩
  · intro h
    exact ⟨Nat.succ_le_succ (JsonText.depthFields_le_iff.mpr fun field hf => (h field hf).depth),
      (JsonText.allScalarsFields_iff fields).mpr fun field hf => ⟨rfl, (h field hf).numberFree⟩⟩

theorem Plain.mono {n m : Nat} {v : Json} (h : Plain n v) (hle : n ≤ m) : Plain m v :=
  ⟨h.depth.trans hle, h.numberFree⟩

theorem Plain.writable {n : Nat} {v : Json} (h : Plain n v) : JsonText.Writable n v := by
  refine ⟨h.depth, JsonText.allScalars_mono ?_ ?_ ?_ v h.numberFree⟩
  · exact fun _ htext => htext
  · exact fun _ _ => rfl
  · intro n hfalse
    cases hfalse

theorem Plain.floatFree {n : Nat} {v : Json} (h : Plain n v) : JsonText.FloatFree v := by
  refine JsonText.allScalars_mono ?_ ?_ ?_ v h.numberFree
  · exact fun _ htext => htext
  · exact fun _ hfloat => hfloat
  · exact fun _ _ => rfl

/-- The schema has closed objects, arrays, strings and booleans only, nested no deeper
than this. -/
def plainWithin : Nat → Schema → Bool
  | _, .boolean => true
  | _, .string _ => true
  | n + 1, .array _ items => plainWithin n items
  | n + 1, .object closed _ properties =>
      closed && properties.all fun property => plainWithin n property.2
  | _, _ => false

theorem plain_leaf {n : Nat} {s : Schema} {v : Json} (hleaf : plainWithin 0 s = true)
    (hvalid : valid s v = true) : Plain n v := by
  cases s with
  | boolean =>
      cases v with
      | bool b => exact ⟨Nat.zero_le _, rfl⟩
      | _ => simp [valid] at hvalid
  | string rule =>
      obtain ⟨text, rfl, -⟩ := (valid_string_iff rule v).mp hvalid
      exact plain_str n text
  | _ => simp [plainWithin] at hleaf

/-- A plain schema admits plain values only. -/
theorem plain_of_valid {n : Nat} {s : Schema} {v : Json} (hplain : plainWithin n s = true)
    (hvalid : valid s v = true) (hkeys : v.distinctKeys = true) : Plain n v := by
  induction n generalizing s v with
  | zero => exact plain_leaf hplain hvalid
  | succ n ih =>
      cases s with
      | array minItems items =>
          obtain ⟨vs, rfl, -, hitems⟩ := valid_array hvalid
          rw [plain_arr]
          intro item hitem
          exact ih hplain (hitems item hitem) (Json.distinctKeys_of_item hkeys hitem)
      | object closed required properties =>
          rw [plainWithin, Bool.and_eq_true, List.all_eq_true] at hplain
          obtain ⟨fields, rfl, -, hprops, hclosed⟩ := valid_object hvalid
          obtain ⟨hnodup, hvalues⟩ := Json.distinctKeys_of_field hkeys
          rw [plain_obj]
          intro field hfield
          obtain ⟨s, hs⟩ := Option.isSome_iff_exists.mp (hclosed hplain.1 field hfield)
          have hget : Assoc.get fields field.1 = some field.2 := Assoc.get_of_mem hnodup hfield
          exact ih (hplain.2 (field.1, s) (Assoc.mem_of_get hs))
            (validProperties_get hprops hs hget) (hvalues field hfield)
      | boolean | string _ => exact plain_leaf rfl hvalid
      | _ => simp [plainWithin] at hplain

end SecureSdlc.Core.Schema

import Mathlib.Data.List.Chain
import SecureSdlc.Core.JsonGrammar

/-!
Surrogates in JSON. With `ensure_ascii` a written value is read back as it was unless one of
its texts holds the halves of a pair next to each other, which no value does that was read
from a text without surrogates. Without it a stream that replaces surrogates shows the value
with those of its texts replaced.
-/

namespace SecureSdlc.Core.JsonText

section Pairs

/-- No high surrogate has a low one right after it. -/
def Unpaired (s : PyStr) : Prop := s.IsChain fun a b => ¬ (isHigh a ∧ isLow b)

instance (s : PyStr) : Decidable (Unpaired s) :=
  inferInstanceAs (Decidable (s.IsChain fun a b => ¬ (isHigh a ∧ isLow b)))

theorem length_joinSurrogates (s : PyStr) : (joinSurrogates s).length ≤ s.length := by
  induction s using joinSurrogates.induct with
  | case1 high low rest hpair ih =>
      rw [joinSurrogates, if_pos hpair]
      simp only [List.length_cons]
      omega
  | case2 high low rest hpair ih =>
      rw [joinSurrogates, if_neg hpair]
      simp only [List.length_cons] at ih ⊢
      omega
  | case3 c => simp [joinSurrogates]
  | case4 => simp [joinSurrogates]

theorem joinSurrogates_eq_iff (s : PyStr) : joinSurrogates s = s ↔ Unpaired s := by
  induction s using joinSurrogates.induct with
  | case1 high low rest hpair ih =>
      rw [joinSurrogates, if_pos hpair, Unpaired, List.isChain_cons_cons]
      refine iff_of_false ?_ fun h => h.1 hpair
      intro heq
      have hlength := congrArg List.length heq
      have hshort := length_joinSurrogates rest
      simp only [List.length_cons] at hlength
      omega
  | case2 high low rest hpair ih =>
      rw [joinSurrogates, if_neg hpair, Unpaired, List.isChain_cons_cons, List.cons.injEq, ih]
      simp [Unpaired, hpair]
  | case3 c => simp [joinSurrogates, Unpaired]
  | case4 => simp [joinSurrogates, Unpaired]

theorem unpaired_of_low {s : PyStr} (h : ∀ c ∈ s, c.val < 0xD800) : Unpaired s :=
  (joinSurrogates_eq_iff s).mp (joinSurrogates_of_low h)

/-- No text of the value has a high surrogate with a low one right after it. -/
def AllUnpaired (v : Json) : Prop :=
  v.allScalars (fun s => decide (Unpaired s)) (fun _ => true) (fun _ => true) = true

instance (v : Json) : Decidable (AllUnpaired v) := inferInstanceAs (Decidable (_ = true))

theorem rereadText_of_unpaired {s : PyStr} (h : decide (Unpaired s) = true) :
    rereadText true s = s :=
  (joinSurrogates_eq_iff s).mpr (of_decide_eq_true h)

theorem reread_of_unpaired {v : Json} (hkeys : v.distinctKeys = true) (h : AllUnpaired v) :
    reread {} v = v :=
  reread_kept rfl (fun _ => rereadText_of_unpaired) v hkeys h

/-- Joining leaves the first character or puts one beyond the basic plane there. -/
theorem head_joinSurrogates {s : PyStr} {c : CodePoint} (h : (joinSurrogates s).head? = some c) :
    s.head? = some c ∨ ¬ isLow c := by
  induction s using joinSurrogates.induct with
  | case1 high low rest hpair =>
      rw [joinSurrogates, if_pos hpair, List.head?_cons, Option.some.injEq] at h
      subst h
      refine .inr ?_
      have hhigh := hpair.1
      have hlow := hpair.2
      simp only [isHigh, isLow, codePoint] at hhigh hlow ⊢
      omega
  | case2 high low rest hpair =>
      rw [joinSurrogates, if_neg hpair] at h
      exact .inl h
  | case3 c => exact .inl h
  | case4 => exact .inl h

theorem unpaired_joinSurrogates (s : PyStr) : Unpaired (joinSurrogates s) := by
  induction s using joinSurrogates.induct with
  | case1 high low rest hpair ih =>
      rw [joinSurrogates, if_pos hpair, Unpaired, List.isChain_cons]
      refine ⟨?_, ih⟩
      rintro c - ⟨hjoined, -⟩
      have hhigh := hpair.1
      have hlow := hpair.2
      simp only [isHigh, isLow, codePoint] at hhigh hlow hjoined
      omega
  | case2 high low rest hpair ih =>
      rw [joinSurrogates, if_neg hpair, Unpaired, List.isChain_cons]
      refine ⟨?_, ih⟩
      rintro c hc ⟨hhigh, hlow⟩
      rcases head_joinSurrogates hc with hfirst | hother
      · rw [List.head?_cons, Option.some.injEq] at hfirst
        exact hpair ⟨hhigh, hfirst ▸ hlow⟩
      · exact hother hlow
  | case3 c => simp [joinSurrogates, Unpaired]
  | case4 => simp [joinSurrogates, Unpaired]

theorem mem_assignAll {fields members : List (PyStr × Json)} {field : PyStr × Json}
    (h : field ∈ assignAll fields members) : field ∈ fields ∨ field ∈ members := by
  induction members generalizing fields with
  | nil => exact .inl h
  | cons member rest ih =>
      have hassigned : field ∈ assignAll (Assoc.set fields member.1 member.2) rest := h
      rcases ih hassigned with hset | hrest
      · rcases Assoc.mem_set hset with rfl | hold
        · exact .inr List.mem_cons_self
        · exact .inl hold
      · exact .inr (List.mem_cons_of_mem _ hrest)

mutual

theorem allUnpaired_reread : (v : Json) → AllUnpaired (reread {} v)
  | .null | .bool _ | .int _ | .float _ => rfl
  | .str s => decide_eq_true (unpaired_joinSurrogates s)
  | .arr items => (allScalarsItems_iff _).mpr (allUnpaired_rereadItems items)
  | .obj fields => by
      refine (allScalarsFields_iff _).mpr fun field hfield => ?_
      rcases mem_assignAll hfield with hnone | hmember
      · cases hnone
      · obtain ⟨member, hread, rfl⟩ := List.mem_map.mp hmember
        exact ⟨decide_eq_true (unpaired_joinSurrogates _),
          allUnpaired_rereadFields fields member (mem_inOrder.mp hread)⟩

theorem allUnpaired_rereadItems : (items : List Json) →
    ∀ v ∈ rereadItems {} items, AllUnpaired v
  | [], _, h => nomatch h
  | v :: rest, w, h => by
      rcases List.mem_cons.mp h with rfl | hrest
      · exact allUnpaired_reread v
      · exact allUnpaired_rereadItems rest w hrest

theorem allUnpaired_rereadFields : (fields : List (PyStr × Json)) →
    ∀ field ∈ rereadFields {} fields, AllUnpaired field.2
  | [], _, h => nomatch h
  | (_, v) :: rest, field, h => by
      rcases List.mem_cons.mp h with rfl | hrest
      · exact allUnpaired_reread v
      · exact allUnpaired_rereadFields rest field hrest

end

theorem allUnpaired_obj {fields : List (PyStr × Json)} :
    AllUnpaired (.obj fields) ↔ ∀ field ∈ fields, Unpaired field.1 ∧ AllUnpaired field.2 := by
  refine (allScalarsFields_iff fields).trans ?_
  simp only [decide_eq_true_eq, AllUnpaired]

/-- The members of an object whose keys come back are read back one by one. -/
theorem reread_members {fields : List (PyStr × Json)} (hunique : Assoc.Unique fields)
    (hkeys : ∀ field ∈ fields, Unpaired field.1) :
    reread {} (.obj fields) = .obj (Assoc.rename (fun _ => reread {}) id fields) := by
  have hsame : fields.map (fun field => (rereadText true field.1, reread {} field.2)) =
      Assoc.rename (fun _ => reread {}) id fields :=
    List.map_congr_left fun field hfield => by
      rw [rereadText_of_unpaired (decide_eq_true (hkeys field hfield))]
      rfl
  have hrename : Assoc.Unique (Assoc.rename (fun _ => reread {}) id fields) := by
    rw [Assoc.Unique, Assoc.rename, List.map_map]
    exact hunique
  rw [reread, inOrder, if_neg Bool.false_ne_true, rereadFields_eq_map, List.map_map]
  exact congrArg Json.obj ((congrArg _ hsame).trans (assignAll_of_unique hrename))

theorem rename_of_unpaired {fields : List (PyStr × Json)}
    (hkeys : (Json.obj fields).distinctKeys = true) (h : AllUnpaired (.obj fields)) :
    Assoc.rename (fun _ => reread {}) id fields = fields := by
  have hfields := (Json.distinctKeys_of_field hkeys)
  have hread := reread_of_unpaired hkeys h
  rw [reread_members hfields.1 fun field hfield => (allUnpaired_obj.mp h field hfield).1] at hread
  exact Json.obj.inj hread

end Pairs

section Reading

variable {rt : Runtime}

theorem not_high_of_plain {c : CodePoint} (h : PyStr.isSurrogate c = false) : ¬ isHigh c := by
  simp only [PyStr.isSurrogate, Bool.and_eq_false_iff, decide_eq_false_iff_not] at h
  rw [isHigh]
  omega

theorem not_low_of_plain {c : CodePoint} (h : PyStr.isSurrogate c = false) : ¬ isLow c := by
  simp only [PyStr.isSurrogate, Bool.and_eq_false_iff, decide_eq_false_iff_not] at h
  rw [isLow]
  omega

theorem not_surrogate_simpleEscape {e c : CodePoint} (h : simpleEscape e = some c) :
    PyStr.isSurrogate c = false := by
  have hlow : c.val < 0x80 := by
    rw [simpleEscape] at h
    split_ifs at h with hsame
    · cases h
      rcases hsame with rfl | rfl | rfl <;> decide
    all_goals
      cases h
      decide
  simp only [PyStr.isSurrogate, Bool.and_eq_false_iff, decide_eq_false_iff_not]
  omega

theorem hexValue_lt {c : CodePoint} {n : Nat} (h : hexValue c = some n) : n < 16 := by
  rw [hexValue] at h
  split_ifs at h with hdigit hsmall hcapital
  all_goals
    cases h
    omega

theorem hex4_lt {digits rest : PyStr} {n : Nat} (h : hex4 digits = some (n, rest)) :
    n < 0x10000 := by
  obtain ⟨a, b, c, d, -, hdigits⟩ := hex4_split h
  simp only [hex4, Option.bind_eq_bind, Option.bind_eq_some_iff, Option.pure_def,
    Option.some.injEq, Prod.mk.injEq] at hdigits
  obtain ⟨a', ha, b', hb, c', hc, d', hd, rfl, -⟩ := hdigits
  have ha := hexValue_lt ha
  have hb := hexValue_lt hb
  have hc := hexValue_lt hc
  have hd := hexValue_lt hd
  omega

/-- A joined pair is beyond the basic plane. -/
theorem joined_beyond {n m : Nat} (hhigh : 0xD800 ≤ n ∧ n ≤ 0xDBFF)
    (hlow : 0xDC00 ≤ m ∧ m ≤ 0xDFFF) :
    0x10000 ≤ (codePoint (0x10000 + (n - 0xD800) * 0x400 + (m - 0xDC00))).val := by
  rw [val_codePoint (by omega)]
  omega

theorem unpaired_of_encodable {s : PyStr} (h : PyStr.encodable s = true) : Unpaired s := by
  induction s with
  | nil => exact List.isChain_nil
  | cons c s ih =>
      rw [PyStr.encodable, List.all_cons, Bool.and_eq_true, Bool.not_eq_true'] at h
      exact List.isChain_cons.mpr
        ⟨fun _ _ hpair => not_high_of_plain h.1 hpair.1, ih h.2⟩

theorem unpaired_of_free {v : Json} (h : SurrogateFree v) : AllUnpaired v :=
  allScalars_mono (fun _ hs => decide_eq_true (unpaired_of_encodable hs)) (fun _ _ => rfl)
    (fun _ h => h) v h

/-- A unit that stays alone has no low surrogate after it. -/
theorem StringBody.not_low {text s : PyStr} {n : Nat} (h : StringBody text s)
    (hencodable : PyStr.encodable text = true) (hhigh : 0xD800 ≤ n ∧ n ≤ 0xDBFF)
    (halone : lowHalf n text = .ok (codePoint n, text)) : ∀ c ∈ s.head?, ¬ isLow c := by
  intro c hc
  cases h with
  | close => cases hc
  | plain _ _ _ _ =>
      cases hc
      rw [PyStr.encodable, List.all_cons, Bool.and_eq_true, Bool.not_eq_true'] at hencodable
      exact not_low_of_plain hencodable.1
  | short he _ _ =>
      cases hc
      exact not_low_of_plain (not_surrogate_simpleEscape he)
  | @unit digits _ _ m hdigits _ _ =>
      cases hc
      rw [lowHalf_unit hhigh hdigits] at halone
      split at halone
      · have hlength := congrArg List.length (Prod.mk.inj (Except.ok.inj halone)).2
        simp only [List.length_cons, List.length_append] at hlength
        omega
      · rename_i hnot
        have hm := hex4_lt hdigits
        rwa [isLow, val_codePoint (by omega)]
  | pair _ hhigh' _ hlow' _ =>
      rw [← Option.mem_some_iff.mp hc]
      exact fun hlow => absurd ((joined_beyond hhigh' hlow').trans hlow.2) (by decide)

/-- A string that is spelt without surrogates holds no pair of them. -/
theorem StringBody.unpaired {text s : PyStr} (h : StringBody text s)
    (hencodable : PyStr.encodable text = true) : Unpaired s := by
  induction h with
  | close => exact List.isChain_nil
  | plain _ _ _ _ ih =>
      rw [PyStr.encodable, List.all_cons, Bool.and_eq_true, Bool.not_eq_true'] at hencodable
      exact List.isChain_cons.mpr ⟨fun _ _ hpair => not_high_of_plain hencodable.1 hpair.1,
        ih hencodable.2⟩
  | short he _ _ ih =>
      rw [PyStr.encodable, List.all_cons, List.all_cons, Bool.and_eq_true, Bool.and_eq_true]
        at hencodable
      exact List.isChain_cons.mpr ⟨fun _ _ hpair =>
        not_high_of_plain (not_surrogate_simpleEscape he) hpair.1, ih hencodable.2.2⟩
  | @unit digits text s n hdigits halone hbody ih =>
      simp only [PyStr.encodable, List.all_append, List.all_cons, Bool.and_eq_true] at hencodable
      have hn := hex4_lt hdigits
      refine List.isChain_cons.mpr ⟨fun c hc hpair => ?_, ih hencodable.2.2.2⟩
      have hhigh := hpair.1
      rw [isHigh, val_codePoint (by omega)] at hhigh
      exact hbody.not_low hencodable.2.2.2 hhigh halone c hc hpair.2
  | @pair digits low text s n m hdigits hhigh hlow hrange _ ih =>
      simp only [PyStr.encodable, List.all_append, List.all_cons, Bool.and_eq_true] at hencodable
      refine List.isChain_cons.mpr ⟨fun c _ hpair => ?_, ih hencodable.2.2.2.2.2.2⟩
      exact absurd ((joined_beyond hhigh hrange).trans hpair.1.2) (by decide)

theorem unpaired_set {fields : List (PyStr × Json)} {key : PyStr} {v : Json}
    (h : ∀ field ∈ fields, Unpaired field.1 ∧ AllUnpaired field.2) (hkey : Unpaired key)
    (hv : AllUnpaired v) :
    ∀ field ∈ Assoc.set fields key v, Unpaired field.1 ∧ AllUnpaired field.2 := by
  intro field hfield
  rcases Assoc.mem_set hfield with rfl | hold
  · exact ⟨hkey, hv⟩
  · exact h field hold

mutual

/-- The texts of a value that is spelt without surrogates hold no pair of them. -/
theorem ValueText.unpaired {digits nest : Nat} {text : PyStr} {v : Json} :
    ValueText rt digits nest text v → PyStr.encodable text = true → AllUnpaired v
  | .scalar h, _ => by
      cases h with
      | null | litTrue | litFalse | nan | infinity | negInfinity => rfl
      | number _ _ _ =>
          rw [numberOf]
          split
          · rfl
          · rfl
  | .str h, hencodable => by
      rw [PyStr.encodable, List.all_cons, Bool.and_eq_true] at hencodable
      exact decide_eq_true (h.unpaired hencodable.2)
  | .noItems _, _ => rfl
  | .items _ h, hencodable => by
      simp only [PyStr.encodable, List.all_append, List.all_cons, Bool.and_eq_true] at hencodable
      exact (allScalarsItems_iff _).mpr (h.unpaired hencodable.2.2)
  | .noFields _, _ => rfl
  | .fields _ h, hencodable => by
      simp only [PyStr.encodable, List.all_append, List.all_cons, Bool.and_eq_true] at hencodable
      exact allUnpaired_obj.mpr (h.unpaired hencodable.2.2 (List.forall_mem_nil _))

theorem ItemsText.unpaired {digits nest : Nat} {text : PyStr} {items : List Json} :
    ItemsText rt digits nest text items → PyStr.encodable text = true → ∀ v ∈ items, AllUnpaired v
  | .last h _, hencodable => by
      rw [PyStr.encodable, List.all_append, Bool.and_eq_true] at hencodable
      rw [List.forall_mem_singleton]
      exact h.unpaired hencodable.1
  | .more h _ _ hrest, hencodable => by
      simp only [PyStr.encodable, List.all_append, List.all_cons, Bool.and_eq_true] at hencodable
      rw [List.forall_mem_cons]
      exact ⟨h.unpaired hencodable.1, hrest.unpaired hencodable.2.2.2.2⟩

theorem FieldsText.unpaired {digits nest : Nat} {known fields : List (PyStr × Json)}
    {text : PyStr} :
    FieldsText rt digits nest known text fields → PyStr.encodable text = true →
      (∀ field ∈ known, Unpaired field.1 ∧ AllUnpaired field.2) →
        ∀ field ∈ fields, Unpaired field.1 ∧ AllUnpaired field.2
  | .last hkey _ _ h _, hencodable, hknown => by
      simp only [PyStr.encodable, List.all_append, List.all_cons, Bool.and_eq_true] at hencodable
      obtain ⟨-, hkeyText, -, -, -, htext, -⟩ := hencodable
      exact unpaired_set hknown (hkey.unpaired hkeyText) (h.unpaired htext)
  | .more hkey _ _ h _ _ hrest, hencodable, hknown => by
      simp only [PyStr.encodable, List.all_append, List.all_cons, Bool.and_eq_true] at hencodable
      obtain ⟨-, hkeyText, -, -, -, htext, -, -, -, hmore⟩ := hencodable
      exact hrest.unpaired hmore (unpaired_set hknown (hkey.unpaired hkeyText) (h.unpaired htext))

end

/-- So do the texts of a value that is read from a text without surrogates. -/
theorem loads_unpaired {text : PyStr} {v : Json} (hencodable : PyStr.encodable text = true)
    (h : loads rt text = .ok v) : AllUnpaired v := by
  obtain ⟨digits, nest, hspelt, -⟩ := loads_iff.mp h
  cases hspelt with
  | around _ _ hvalue =>
      simp only [PyStr.encodable, List.all_append, Bool.and_eq_true] at hencodable
      exact hvalue.unpaired hencodable.2.1

end Reading

section Replacing

open Utf8

mutual

/-- The value with the surrogates of its texts replaced. -/
def substituted : Json → Json
  | .str s => .str (s.map substitute)
  | .float repr => .float (repr.map substitute)
  | .arr items => .arr (substitutedItems items)
  | .obj fields => .obj (substitutedFields fields)
  | v => v

def substitutedItems : List Json → List Json
  | [] => []
  | v :: rest => substituted v :: substitutedItems rest

def substitutedFields : List (PyStr × Json) → List (PyStr × Json)
  | [] => []
  | (k, v) :: rest => (k.map substitute, substituted v) :: substitutedFields rest

end

theorem substituted_printable {text : PyStr} (h : Printable text) : text.map substitute = text :=
  substituted_of_encodable (encodable_of_printable h)

theorem escapeChar_substitute (c : CodePoint) :
    escapeChar false (substitute c) = (escapeChar false c).map substitute := by
  cases hsurrogate : PyStr.isSurrogate c with
  | false =>
      have hencodable : PyStr.encodable (escapeChar false c) = true := by
        rw [encodable_escapeChar, hsurrogate]
        rfl
      rw [substitute, hsurrogate, if_neg Bool.false_ne_true, substituted_of_encodable hencodable]
  | true =>
      have hraw : escapeChar false c = [c] := by
        have hescaped := escaped_escapeChar false c
        simp only [PyStr.isSurrogate, Bool.and_eq_true, decide_eq_true_eq] at hsurrogate
        generalize escapeChar false c = text at hescaped
        cases hescaped with
        | plain _ _ _ _ => rfl
        | short _ _ _ _ hlow => omega
        | unit _ hlow =>
            have := hlow rfl
            omega
        | pair hfalse _ => cases hfalse
      rw [hraw, List.map_singleton, substitute, hsurrogate, if_pos rfl]
      rfl

theorem quote_substituted (s : PyStr) :
    quote false (s.map substitute) = (quote false s).map substitute := by
  rw [quote, quote, List.map_append, List.map_append, List.flatMap_map, List.map_flatMap,
    substituted_printable (by decide : Printable (py "\""))]
  simp only [escapeChar_substitute]

mutual

theorem substituted_of_free : (v : Json) → SurrogateFree v → substituted v = v
  | .null, _ | .bool _, _ | .int _, _ => rfl
  | .float _, h => congrArg Json.float (substituted_of_encodable h)
  | .str _, h => congrArg Json.str (substituted_of_encodable h)
  | .arr items, h => congrArg Json.arr (substitutedItems_of_free items h)
  | .obj fields, h => congrArg Json.obj (substitutedFields_of_free fields h)

theorem substitutedItems_of_free : (items : List Json) →
    Json.allScalarsItems PyStr.encodable PyStr.encodable (fun _ => true) items = true →
      substitutedItems items = items
  | [], _ => rfl
  | v :: rest, h => by
      rw [Json.allScalarsItems, Bool.and_eq_true] at h
      rw [substitutedItems, substituted_of_free v h.1, substitutedItems_of_free rest h.2]

theorem substitutedFields_of_free : (fields : List (PyStr × Json)) →
    Json.allScalarsFields PyStr.encodable PyStr.encodable (fun _ => true) fields = true →
      substitutedFields fields = fields
  | [], _ => rfl
  | (k, v) :: rest, h => by
      rw [Json.allScalarsFields, Bool.and_eq_true, Bool.and_eq_true] at h
      rw [substitutedFields, substituted_of_encodable h.1.1, substituted_of_free v h.1.2,
        substitutedFields_of_free rest h.2]

end

theorem mark_of_not_encodable {s : PyStr} (h : PyStr.encodable s = false) :
    cp '?' ∈ s.map substitute := by
  rw [PyStr.encodable, List.all_eq_false] at h
  obtain ⟨c, hc, hsurrogate⟩ := h
  rw [Bool.not_eq_true', Bool.not_eq_false] at hsurrogate
  refine List.mem_map.mpr ⟨c, hc, ?_⟩
  rw [substitute, hsurrogate, if_pos rfl]

theorem floatText_other {repr : PyStr} (h : ∀ special ∈ [py "nan", py "inf", py "-inf"],
    repr ≠ special) : floatText repr = repr := by
  rw [floatText, if_neg (h _ (by simp)), if_neg (h _ (by simp)), if_neg (h _ (by simp))]

theorem floatText_substituted (repr : PyStr) :
    floatText (repr.map substitute) = (floatText repr).map substitute := by
  cases hencodable : PyStr.encodable repr with
  | true =>
      rw [substituted_of_encodable hencodable, substituted_of_encodable]
      rw [encodable_floatText, hencodable]
  | false =>
      have hmark := mark_of_not_encodable hencodable
      have hspecial : ∀ special ∈ [py "nan", py "inf", py "-inf"],
          PyStr.encodable special = true ∧ cp '?' ∉ special := by
        simp only [List.forall_mem_cons, List.not_mem_nil, false_implies, implies_true, and_true]
        decide
      rw [floatText_other, floatText_other]
      · intro special h heq
        rw [heq, (hspecial special h).1] at hencodable
        cases hencodable
      · intro special h heq
        exact (hspecial special h).2 (heq ▸ hmark)

theorem map_join (f : CodePoint → CodePoint) {sep : PyStr} (hsep : sep.map f = sep)
    (parts : List PyStr) :
    (PyStr.join sep parts).map f = PyStr.join sep (parts.map (List.map f)) := by
  induction parts with
  | nil => rw [join_nil]; rfl
  | cons first rest ih =>
      cases rest with
      | nil => rw [join_singleton, List.map_singleton, join_singleton]
      | cons second rest =>
          rw [join_cons_cons, List.map_append, List.map_append, hsep, ih, List.map_cons,
            List.map_cons, List.map_cons, join_cons_cons]

/-- A style without escapes whose separators are printed as they are. -/
structure Style.Raw (style : Style) : Prop where
  unsorted : style.sortKeys = false
  unescaped : style.ensureAscii = false
  item : Printable style.itemSeparator
  key : Printable style.keySeparator

mutual

/-- What is written of a value with its surrogates replaced is what is written of the value,
with the surrogates replaced. -/
theorem write_substituted {style : Style} (hraw : style.Raw) (room : Nat) :
    (v : Json) → write style room (substituted v) =
      (write style room v).map (List.map substitute)
  | .null => rfl
  | .bool true => rfl
  | .bool false => rfl
  | .int n => by
      change intText n = (intText n).map (List.map substitute)
      cases htext : intText n with
      | error e => rfl
      | ok text => rw [Except.map, substituted_printable (printable_intText htext)]
  | .float repr => by
      rw [substituted, write, write, floatText_substituted]
      rfl
  | .str s => by
      rw [substituted, write, write, hraw.unescaped, quote_substituted]
      rfl
  | .arr items => by
      cases room with
      | zero => rfl
      | succ room =>
          rw [substituted, write, write, write_substitutedItems hraw room items]
          cases writeItems style room items with
          | error e => rfl
          | ok parts =>
              refine congrArg Except.ok ?_
              rw [List.map_append, List.map_append, map_join _ (substituted_printable hraw.item)]
              rfl
  | .obj fields => by
      cases room with
      | zero => rfl
      | succ room =>
          rw [substituted, write, write, write_substitutedFields hraw room fields]
          cases writeFields style room fields with
          | error e => rfl
          | ok parts =>
              have hunsorted : ¬ style.sortKeys = true := by
                rw [hraw.unsorted]
                exact Bool.false_ne_true
              refine congrArg Except.ok ?_
              change py "\x7b" ++ PyStr.join style.itemSeparator ((if style.sortKeys then _ else
                parts.map _).map _) ++ py "\x7d" = (py "\x7b" ++ PyStr.join style.itemSeparator
                  ((if style.sortKeys then _ else parts).map _) ++ py "\x7d").map substitute
              rw [if_neg hunsorted, if_neg hunsorted, List.map_append, List.map_append,
                map_join _ (substituted_printable hraw.item), List.map_map, List.map_map]
              refine congrArg (fun members => _ ++ PyStr.join _ members ++ _) ?_
              refine List.map_congr_left fun part _ => ?_
              simp only [Function.comp_apply, List.map_append, hraw.unescaped, quote_substituted,
                substituted_printable hraw.key]

theorem write_substitutedItems {style : Style} (hraw : style.Raw) (room : Nat) :
    (items : List Json) → writeItems style room (substitutedItems items) =
      (writeItems style room items).map (List.map (List.map substitute))
  | [] => rfl
  | v :: rest => by
      rw [substitutedItems, writeItems, writeItems, write_substituted hraw room v,
        write_substitutedItems hraw room rest]
      cases write style room v with
      | error e => rfl
      | ok text =>
          cases writeItems style room rest with
          | error e => rfl
          | ok texts => rfl

theorem write_substitutedFields {style : Style} (hraw : style.Raw) (room : Nat) :
    (fields : List (PyStr × Json)) → writeFields style room (substitutedFields fields) =
      (writeFields style room fields).map
        (List.map fun part => (part.1.map substitute, part.2.map substitute))
  | [] => rfl
  | (k, v) :: rest => by
      rw [substitutedFields, writeFields, writeFields, write_substituted hraw room v,
        write_substitutedFields hraw room rest]
      cases write style room v with
      | error e => rfl
      | ok text =>
          cases writeFields style room rest with
          | error e => rfl
          | ok texts => rfl

end

end Replacing

end SecureSdlc.Core.JsonText

namespace SecureSdlc.Core

open JsonText

theorem unpaired_of_encodable {s : PyStr} (h : PyStr.encodable s = true) : Unpaired s := by
  rw [PyStr.encodable, List.all_eq_true] at h
  rw [Unpaired]
  induction s with
  | nil => exact .nil
  | cons c rest ih =>
      rw [List.forall_mem_cons] at h
      cases rest with
      | nil => exact .singleton c
      | cons d rest =>
          refine List.isChain_cons_cons.mpr ⟨?_, ih h.2⟩
          rintro ⟨hhigh, -⟩
          have hsurrogate := h.1
          simp only [PyStr.isSurrogate, isHigh, Bool.not_eq_true', Bool.and_eq_false_iff,
            decide_eq_false_iff_not] at hsurrogate hhigh
          omega

end SecureSdlc.Core

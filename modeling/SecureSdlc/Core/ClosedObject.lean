import SecureSdlc.Core.JsonReaders
import SecureSdlc.Core.SchemaShape

/-!
Values that a schema admits and that a `dict` of encodable texts can hold. A closed
object is one exactly when its keys are distinct, the required ones are among them, and
each of its members is known and sound by itself; so objects are put together from parts.
-/

namespace SecureSdlc.Core

namespace Json

variable {texts floats floats' : PyStr → Bool} {ints ints' : Int → Bool}

mutual

/-- A value without numbers passes whatever is asked of numbers. -/
theorem allScalars_of_numberFree : (v : Json) →
    v.allScalars (fun _ => true) (fun _ => false) (fun _ => false) = true →
    v.allScalars texts floats ints = true → v.allScalars texts floats' ints' = true
  | .null, _, _ | .bool _, _, _ => rfl
  | .str _, _, h => h
  | .arr items, hfree, h => allScalarsItems_of_numberFree items hfree h
  | .obj fields, hfree, h => allScalarsFields_of_numberFree fields hfree h

theorem allScalarsItems_of_numberFree : (items : List Json) →
    allScalarsItems (fun _ => true) (fun _ => false) (fun _ => false) items = true →
    allScalarsItems texts floats ints items = true →
    allScalarsItems texts floats' ints' items = true
  | [], _, _ => rfl
  | v :: rest, hfree, h => by
      rw [allScalarsItems, Bool.and_eq_true] at hfree h ⊢
      exact ⟨allScalars_of_numberFree v hfree.1 h.1,
        allScalarsItems_of_numberFree rest hfree.2 h.2⟩

theorem allScalarsFields_of_numberFree : (fields : List (PyStr × Json)) →
    allScalarsFields (fun _ => true) (fun _ => false) (fun _ => false) fields = true →
    allScalarsFields texts floats ints fields = true →
    allScalarsFields texts floats' ints' fields = true
  | [], _, _ => rfl
  | (k, v) :: rest, hfree, h => by
      rw [allScalarsFields, Bool.and_eq_true, Bool.and_eq_true] at hfree h ⊢
      exact ⟨⟨h.1.1, allScalars_of_numberFree v hfree.1.2 h.1.2⟩,
        allScalarsFields_of_numberFree rest hfree.2 h.2⟩

end

end Json

namespace Schema

/-- The value meets the schema, has no key twice and no lone surrogate. -/
structure Sound (s : Schema) (v : Json) : Prop where
  valid : s.valid v = true
  distinct : v.distinctKeys = true
  texts : v.allScalars PyStr.encodable PyStr.encodable (fun _ => true) = true

instance (s : Schema) (v : Json) : Decidable (Sound s v) :=
  decidable_of_iff (s.valid v = true ∧ v.distinctKeys = true ∧
      v.allScalars PyStr.encodable PyStr.encodable (fun _ => true) = true)
    ⟨fun h => ⟨h.1, h.2.1, h.2.2⟩, fun h => ⟨h.valid, h.distinct, h.texts⟩⟩

theorem sound_str {rule : StringRule} {text : PyStr} (hrule : rule.admits text = true)
    (htext : PyStr.encodable text = true) : Sound (.string rule) (.str text) :=
  ⟨hrule, rfl, htext⟩

theorem sound_arr {minItems : Nat} {items : Schema} {vs : List Json} :
    Sound (.array minItems items) (.arr vs) ↔ minItems ≤ vs.length ∧ ∀ v ∈ vs, Sound items v := by
  constructor
  · intro h
    obtain ⟨_, heq, hlength, hvalid⟩ := valid_array h.valid
    cases heq
    exact ⟨hlength, fun v hv => ⟨hvalid v hv, Json.distinctKeys_of_item h.distinct hv,
      (JsonText.allScalarsItems_iff vs).mp h.texts v hv⟩⟩
  · rintro ⟨hlength, hitems⟩
    refine ⟨?_, JsonText.distinctKeys_arr fun v hv => (hitems v hv).distinct,
      (JsonText.allScalarsItems_iff vs).mpr fun v hv => (hitems v hv).texts⟩
    simp only [valid, Bool.and_eq_true, decide_eq_true_eq, List.all_eq_true]
    exact ⟨hlength, fun v hv => (hitems v hv).valid⟩

/-- The member is known to the properties, and sound. -/
def SoundMember (properties : List (PyStr × Schema)) (member : PyStr × Json) : Prop :=
  ∃ s, Assoc.get properties member.1 = some s ∧ Sound s member.2

instance (properties : List (PyStr × Schema)) (member : PyStr × Json) :
    Decidable (SoundMember properties member) :=
  match h : Assoc.get properties member.1 with
  | some s => decidable_of_iff (Sound s member.2)
      ⟨fun hs => ⟨s, h, hs⟩, fun ⟨_, heq, hs⟩ => Option.some.inj (h.symm.trans heq) ▸ hs⟩
  | none => .isFalse fun ⟨_, heq, _⟩ => nomatch h.symm.trans heq

section Objects

variable {required : List PyStr} {properties : List (PyStr × Schema)} {fields : List (PyStr × Json)}

theorem validProperties_iff : validProperties properties fields = true ↔
    ∀ property ∈ properties, ∀ v, Assoc.get fields property.1 = some v →
      valid property.2 v = true := by
  induction properties with
  | nil => simp [validProperties]
  | cons property rest ih =>
      rw [validProperties, Bool.and_eq_true, ih, List.forall_mem_cons]
      refine and_congr_left fun _ => ?_
      cases Assoc.get fields property.1 with
      | none => simp
      | some v => simp

/-- A member that is there is sound, if it has a schema of its own. -/
theorem Sound.present {closed : Bool} {s : Schema} {k : PyStr} {v : Json}
    (h : Sound (.object closed required properties) (.obj fields))
    (hs : Assoc.get properties k = some s) (hv : Assoc.get fields k = some v) : Sound s v :=
  ⟨valid_present h.valid hs hv,
    (Json.distinctKeys_of_field h.distinct).2 _ (Assoc.mem_of_get hv),
    ((JsonText.allScalarsFields_iff fields).mp h.texts _ (Assoc.mem_of_get hv)).2⟩

theorem Sound.member {closed : Bool} {s : Schema} {k : PyStr}
    (h : Sound (.object closed required properties) (.obj fields)) (hk : k ∈ required)
    (hs : Assoc.get properties k = some s) : ∃ v, Assoc.get fields k = some v ∧ Sound s v := by
  obtain ⟨v, hv, -⟩ := valid_member h.valid hk hs
  exact ⟨v, hv, h.present hs hv⟩

/-- Validity of a closed object, member by member. -/
theorem valid_closed_iff (hproperties : Assoc.Unique properties) (hfields : Assoc.Unique fields) :
    valid (.object true required properties) (.obj fields) = true ↔
      (∀ k ∈ required, k ∈ fields.map Prod.fst) ∧
        ∀ member ∈ fields, ∃ s, Assoc.get properties member.1 = some s ∧
          valid s member.2 = true := by
  constructor
  · intro h
    obtain ⟨_, heq, hrequired, hvalid, hclosed⟩ := valid_object h
    cases heq
    refine ⟨?_, ?_⟩
    · intro k hk
      by_contra habsent
      have hsome := hrequired k hk
      rw [Assoc.get_of_not_mem habsent] at hsome
      cases hsome
    · intro member hmember
      obtain ⟨s, hs⟩ := Option.isSome_iff_exists.mp (hclosed rfl member hmember)
      exact ⟨s, hs, validProperties_get hvalid hs (Assoc.get_of_mem hfields hmember)⟩
  · rintro ⟨hrequired, hmembers⟩
    have hget : ∀ k ∈ fields.map Prod.fst, (Assoc.get fields k).isSome = true := by
      intro k hk
      obtain ⟨member, hmember, rfl⟩ := List.mem_map.mp hk
      rw [Assoc.get_of_mem hfields hmember]
      rfl
    simp only [valid, Bool.and_eq_true, Bool.or_eq_true, List.all_eq_true]
    refine ⟨⟨fun k hk => hget k (hrequired k hk), ?_⟩, Or.inr fun member hmember => ?_⟩
    · rw [validProperties_iff]
      intro property hproperty v hv
      obtain ⟨s, hs, hvalid⟩ := hmembers _ (Assoc.mem_of_get hv)
      rw [Assoc.get_of_mem hproperties hproperty] at hs
      exact Option.some.inj hs ▸ hvalid
    · obtain ⟨s, hs, -⟩ := hmembers member hmember
      rw [hs]
      rfl

/-- A closed object whose schema is written in encodable texts is sound, member by member. -/
theorem sound_closed_iff (hproperties : Assoc.Unique properties)
    (hkeys : ∀ property ∈ properties, PyStr.encodable property.1 = true) :
    Sound (.object true required properties) (.obj fields) ↔
      Assoc.Unique fields ∧ (∀ k ∈ required, k ∈ fields.map Prod.fst) ∧
        ∀ member ∈ fields, SoundMember properties member := by
  constructor
  · intro h
    obtain ⟨hfields, hdistinct⟩ := Json.distinctKeys_of_field h.distinct
    obtain ⟨hrequired, hvalid⟩ := (valid_closed_iff hproperties hfields).mp h.valid
    refine ⟨hfields, hrequired, fun member hmember => ?_⟩
    obtain ⟨s, hs, hv⟩ := hvalid member hmember
    exact ⟨s, hs, hv, hdistinct member hmember,
      ((JsonText.allScalarsFields_iff fields).mp h.texts member hmember).2⟩
  · rintro ⟨hfields, hrequired, hmembers⟩
    refine ⟨(valid_closed_iff hproperties hfields).mpr ⟨hrequired, fun member hmember => ?_⟩,
      JsonText.distinctKeys_obj hfields fun member hmember => ?_,
      (JsonText.allScalarsFields_iff fields).mpr fun member hmember => ?_⟩
    · obtain ⟨s, hs, hsound⟩ := hmembers member hmember
      exact ⟨s, hs, hsound.valid⟩
    · obtain ⟨s, -, hsound⟩ := hmembers member hmember
      exact hsound.distinct
    · obtain ⟨s, hs, hsound⟩ := hmembers member hmember
      exact ⟨hkeys _ (Assoc.mem_of_get hs), hsound.texts⟩

end Objects

/-- The names of a closed object's schema are distinct and encodable, and these keys are
distinct and have the required ones among them. -/
def Keyed (required known keys : List PyStr) : Prop :=
  known.Nodup ∧ (∀ k ∈ known, PyStr.encodable k = true) ∧ keys.Nodup ∧ ∀ k ∈ required, k ∈ keys

instance (required known keys : List PyStr) : Decidable (Keyed required known keys) :=
  inferInstanceAs (Decidable (_ ∧ _ ∧ _ ∧ _))

/-- An object of these keys is put together from its members. -/
theorem sound_object {required : List PyStr} {properties : List (PyStr × Schema)}
    {fields : List (PyStr × Json)} (keys : List PyStr)
    (hkeyed : Keyed required (properties.map Prod.fst) keys)
    (heq : fields.map Prod.fst = keys) (h : ∀ member ∈ fields, SoundMember properties member) :
    Sound (.object true required properties) (.obj fields) := by
  obtain ⟨hproperties, hencodable, hnodup, hrequired⟩ := hkeyed
  subst heq
  exact (sound_closed_iff hproperties fun property hproperty =>
    hencodable _ (List.mem_map_of_mem hproperty)).mpr ⟨hnodup, hrequired, h⟩

end Schema

end SecureSdlc.Core

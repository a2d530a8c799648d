import Mathlib.Data.List.TakeWhile
import SecureSdlc.Core.JsonSpelling
import SecureSdlc.Core.Numerals

/-!
What `json.loads` delivers: a rule for the properties that every value read from a text
has, and the properties themselves: nesting, integers, keys, and the spelling of floats.
-/

namespace SecureSdlc.Core.JsonText

/-- A property of values, at the room they are read with, that the readers establish. -/
structure Delivered (rt : Runtime) (Q : Nat → Json → Prop) : Prop where
  null : ∀ room, Q room .null
  bool : ∀ room b, Q room (.bool b)
  str : ∀ room s, Q room (.str s)
  number : ∀ room negative s v rest, readNumber rt negative s = .ok (v, rest) → Q room v
  special : ∀ room, ∀ repr ∈ [py "nan", py "inf", py "-inf"], Q room (.float repr)
  arr : ∀ room items, (∀ v ∈ items, Q room v) → Q (room + 1) (.arr items)
  obj : ∀ room fields, Assoc.Unique fields → (∀ field ∈ fields, Q room field.2) →
    Q (room + 1) (.obj fields)

section Readers

variable {rt : Runtime} {Q : Nat → Json → Prop}

theorem Delivered.scalar (h : Delivered rt Q) {room : Nat} {s rest : PyStr} {v : Json}
    (hread : readScalar rt s = .ok (v, rest)) : Q room v := by
  rw [readScalar.eq_def] at hread
  split at hread
  · cases hread
    exact h.null room
  · cases hread
    exact h.bool room true
  · cases hread
    exact h.bool room false
  · split at hread
    · cases hread
      exact h.special room _ (by simp)
    · cases hread
      exact h.special room _ (by simp)
    · cases hread
      exact h.special room _ (by simp)
    · split at hread
      · split at hread
        · exact h.number room true _ v rest hread
        · exact h.number room false _ v rest hread
      · cases hread

/-- An object that is being read: its keys differ, and its members have the property. -/
structure Members (Q : Nat → Json → Prop) (room : Nat) (fields : List (PyStr × Json)) : Prop where
  unique : Assoc.Unique fields
  values : ∀ field ∈ fields, Q room field.2

theorem Members.set {room : Nat} {fields : List (PyStr × Json)} (h : Members Q room fields)
    (key : PyStr) {v : Json} (hv : Q room v) : Members Q room (Assoc.set fields key v) := by
  refine ⟨Assoc.unique_set h.unique key v, ?_⟩
  intro field hfield
  rcases Assoc.mem_set hfield with rfl | hold
  · exact hv
  · exact h.values field hold

/-- By induction on the fuel that the three readers share. -/
theorem Delivered.readers (h : Delivered rt Q) (fuel : Nat) :
    (∀ room s v rest, read rt fuel room s = .ok (v, rest) → Q room v) ∧
      (∀ room s items rest, readItems rt fuel room s = .ok (items, rest) →
        ∀ v ∈ items, Q room v) ∧
      ∀ room fields s out rest, Members Q room fields →
        readFields rt fuel room fields s = .ok (out, rest) → Members Q room out := by
  induction fuel with
  | zero =>
      refine ⟨?_, ?_, ?_⟩
      · intro room s v rest hread
        cases hread
      · intro room s items rest hread
        cases hread
      · intro room fields s out rest _ hread
        cases hread
  | succ fuel ih =>
      obtain ⟨hvalue, hitems, hfields⟩ := ih
      refine ⟨?_, ?_, ?_⟩
      · intro room s v rest hread
        cases s with
        | nil => cases hread
        | cons c s =>
            rw [read.eq_def] at hread
            dsimp only at hread
            split at hread
            · obtain ⟨⟨text, after⟩, -, hread⟩ := exists_ok_of_bind hread
              cases hread
              exact h.str room text
            split at hread
            · split at hread
              · cases hread
              · rename_i room
                split at hread
                · split at hread
                  · cases hread
                    exact h.arr room [] (List.forall_mem_nil _)
                  · obtain ⟨⟨items, after⟩, hinner, hread⟩ := exists_ok_of_bind hread
                    cases hread
                    exact h.arr room items (hitems room _ items after hinner)
                · cases hread
            split at hread
            · split at hread
              · cases hread
              · rename_i room
                split at hread
                · split at hread
                  · cases hread
                    exact h.obj room [] List.nodup_nil (List.forall_mem_nil _)
                  · obtain ⟨⟨fields, after⟩, hinner, hread⟩ := exists_ok_of_bind hread
                    cases hread
                    have hmembers := hfields room [] _ fields after
                      ⟨List.nodup_nil, List.forall_mem_nil _⟩ hinner
                    exact h.obj room fields hmembers.unique hmembers.values
                · cases hread
            · exact h.scalar hread
      · intro room s items rest hread
        rw [readItems] at hread
        obtain ⟨⟨v, after⟩, hfirst, hread⟩ := exists_ok_of_bind hread
        have hv := hvalue room s v after hfirst
        dsimp only at hread
        split at hread
        · split at hread
          · cases hread
            exact fun w hw => List.mem_singleton.mp hw ▸ hv
          split at hread
          · obtain ⟨⟨vs, tail⟩, hmore, hread⟩ := exists_ok_of_bind hread
            cases hread
            rw [List.forall_mem_cons]
            exact ⟨hv, hitems room _ vs tail hmore⟩
          · cases hread
        · cases hread
      · intro room fields s out rest hmembers hread
        cases s with
        | nil => cases hread
        | cons c s =>
            rw [readFields] at hread
            split at hread
            · obtain ⟨⟨key, after⟩, -, hread⟩ := exists_ok_of_bind hread
              dsimp only at hread
              split at hread
              · split at hread
                · obtain ⟨⟨v, tail⟩, hfirst, hread⟩ := exists_ok_of_bind hread
                  have hset := hmembers.set key (hvalue room _ v tail hfirst)
                  dsimp only at hread
                  split at hread
                  · split at hread
                    · cases hread
                      exact hset
                    split at hread
                    · exact hfields room _ _ out rest hset hread
                    · cases hread
                  · cases hread
                · cases hread
              · cases hread
            · cases hread

theorem Delivered.loads (h : Delivered rt Q) {text : PyStr} {v : Json}
    (hloads : loads rt text = .ok v) : Q rt.loadsRoom v := by
  rw [JsonText.loads] at hloads
  split at hloads
  · cases hloads
  · obtain ⟨⟨w, rest⟩, hread, hloads⟩ := exists_ok_of_bind hloads
    dsimp only at hloads
    split at hloads
    · cases hloads
      exact (h.readers _).1 _ _ _ _ hread
    · cases hloads

end Readers

section Values

variable {rt : Runtime} {text : PyStr} {v : Json}

theorem digitsValue_lt {digits : PyStr} (h : ∀ c ∈ digits, isDigit c = true) :
    digitsValue digits < 10 ^ digits.length := by
  have hfold : ∀ (digits : PyStr) (acc : Nat), (∀ c ∈ digits, isDigit c = true) →
      digits.foldl (fun acc c => acc * 10 + (c.val - 48)) acc < (acc + 1) * 10 ^ digits.length := by
    intro digits
    induction digits with
    | nil => intro acc _; simp
    | cons c digits ih =>
        intro acc h
        rw [List.forall_mem_cons] at h
        have hc : c.val - 48 ≤ 9 := by
          have := of_decide_eq_true h.1
          omega
        have hle : acc * 10 + (c.val - 48) + 1 ≤ (acc + 1) * 10 := by omega
        calc
          _ < (acc * 10 + (c.val - 48) + 1) * 10 ^ digits.length := ih _ h.2
          _ ≤ (acc + 1) * 10 * 10 ^ digits.length := Nat.mul_le_mul_right _ hle
          _ = (acc + 1) * 10 ^ (c :: digits).length := by
            rw [List.length_cons, Nat.pow_succ, Nat.mul_assoc, Nat.mul_comm 10]
  simpa [digitsValue] using hfold digits 0 h

/-- An integer that is read is one that `str` writes out. -/
theorem shortInt_digitsValue {digits : PyStr} (h : ∀ c ∈ digits, isDigit c = true)
    (hlength : digits.length ≤ maxStrDigits) (negative : Bool) :
    shortInt (if negative then -digitsValue digits else digitsValue digits) = true := by
  have hnat : (if negative then -digitsValue digits else digitsValue digits : Int).natAbs =
      digitsValue digits := by
    cases negative with
    | true => exact (Int.natAbs_neg _).trans (Int.natAbs_natCast _)
    | false => exact Int.natAbs_natCast _
  have hlt := (digitsValue_lt h).trans_le (Nat.pow_le_pow_right (by decide) hlength)
  rw [shortInt, hnat, decide_eq_true_eq]
  exact (PyStr.length_ofNat_le_iff (by decide)).mpr hlt

theorem readNumber_value {negative : Bool} {s rest : PyStr}
    (h : readNumber rt negative s = .ok (v, rest)) :
    (∃ n, v = .int n ∧ shortInt n = true) ∨ ∃ literal, v = .float (rt.floatRepr literal) := by
  rw [readNumber.eq_def] at h
  split at h
  · cases h
  · rename_i c rest
    split at h
    · rename_i hc
      have hwhole : ∀ d ∈ if c = cp '0' then [c] else (c :: rest).takeWhile isDigit,
          isDigit d = true := by
        intro d hd
        split at hd
        · rw [List.mem_singleton.mp hd]
          exact hc
        · exact List.mem_takeWhile_imp hd
      dsimp only at h
      generalize (if c = cp '0' then [c] else (c :: rest).takeWhile isDigit) = whole at h hwhole
      generalize (if c = cp '0' then rest else (c :: rest).dropWhile isDigit) = after at h
      split at h
      · split at h
        · cases h
        · rename_i hlong
          cases h
          exact .inl ⟨_, rfl, shortInt_digitsValue hwhole (Nat.not_lt.mp hlong) negative⟩
      · cases h
        exact .inr ⟨_, rfl⟩
    · cases h

theorem loads_depth (h : loads rt text = .ok v) : v.depth ≤ rt.loadsRoom := by
  refine Delivered.loads (Q := fun room v => v.depth ≤ room) ?_ h
  refine ⟨fun _ => Nat.zero_le _, fun _ _ => Nat.zero_le _, fun _ _ => Nat.zero_le _, ?_,
    fun _ _ _ => Nat.zero_le _, ?_, ?_⟩
  · intro room negative s v rest h
    rcases readNumber_value h with ⟨n, rfl, -⟩ | ⟨repr, rfl⟩
    · exact Nat.zero_le _
    · exact Nat.zero_le _
  · intro room items h
    exact Nat.succ_le_succ (depthItems_le_iff.mpr h)
  · intro room fields _ h
    exact Nat.succ_le_succ (depthFields_le_iff.mpr h)

theorem distinctKeys_arr {items : List Json} (h : ∀ v ∈ items, v.distinctKeys = true) :
    (Json.arr items).distinctKeys = true := by
  rw [Json.distinctKeys]
  induction items with
  | nil => rfl
  | cons v rest ih =>
      rw [List.forall_mem_cons] at h
      rw [Json.distinctKeysItems, h.1, ih h.2, Bool.and_self]

theorem distinctKeys_obj {fields : List (PyStr × Json)} (hunique : Assoc.Unique fields)
    (h : ∀ field ∈ fields, field.2.distinctKeys = true) :
    (Json.obj fields).distinctKeys = true := by
  rw [Assoc.Unique] at hunique
  rw [Json.distinctKeys, decide_eq_true hunique, Bool.true_and]
  clear hunique
  induction fields with
  | nil => rfl
  | cons field rest ih =>
      rw [List.forall_mem_cons] at h
      rw [Json.distinctKeysFields, h.1, ih h.2, Bool.and_self]

theorem loads_distinctKeys (h : loads rt text = .ok v) : v.distinctKeys = true := by
  refine Delivered.loads (Q := fun _ v => v.distinctKeys = true) ?_ h
  refine ⟨fun _ => rfl, fun _ _ => rfl, fun _ _ => rfl, ?_, fun _ _ _ => rfl, ?_, ?_⟩
  · intro room negative s v rest h
    rcases readNumber_value h with ⟨n, rfl, -⟩ | ⟨repr, rfl⟩
    · rfl
    · rfl
  · exact fun _ _ h => distinctKeys_arr h
  · exact fun _ _ hunique h => distinctKeys_obj hunique h

theorem loads_shortInts (h : loads rt text = .ok v) :
    v.allScalars (fun _ => true) (fun _ => true) shortInt = true := by
  refine Delivered.loads
    (Q := fun _ v => v.allScalars (fun _ => true) (fun _ => true) shortInt = true) ?_ h
  refine ⟨fun _ => rfl, fun _ _ => rfl, fun _ _ => rfl, ?_, fun _ _ _ => rfl, ?_, ?_⟩
  · intro room negative s v rest h
    rcases readNumber_value h with ⟨n, rfl, hn⟩ | ⟨repr, rfl⟩
    · exact hn
    · rfl
  · exact fun _ items h => (allScalarsItems_iff items).mpr h
  · exact fun _ fields _ h => (allScalarsFields_iff fields).mpr fun field hf => ⟨rfl, h field hf⟩

/-- The floats of a text are spelt by the runtime, or have no digits. -/
theorem loads_floats {floats : PyStr → Bool}
    (hspecial : ∀ repr ∈ [py "nan", py "inf", py "-inf"], floats repr = true)
    (hspelt : ∀ negative s repr rest, readNumber rt negative s = .ok (.float repr, rest) →
      floats repr = true) (h : loads rt text = .ok v) : FloatsAmong floats v := by
  refine Delivered.loads (Q := fun _ v => FloatsAmong floats v) ?_ h
  refine ⟨fun _ => rfl, fun _ _ => rfl, fun _ _ => rfl, ?_, fun _ repr h => hspecial repr h, ?_, ?_⟩
  · intro room negative s v rest h
    rcases readNumber_value h with ⟨n, rfl, -⟩ | ⟨literal, rfl⟩
    · rfl
    · exact hspelt negative s _ rest h
  · exact fun _ items h => (allScalarsItems_iff items).mpr h
  · exact fun _ fields _ h => (allScalarsFields_iff fields).mpr fun field hf => ⟨rfl, h field hf⟩

end Values

theorem Writable.mono {room more : Nat} {v : Json} (h : Writable room v) (hle : room ≤ more) :
    Writable more v :=
  ⟨h.depth.trans hle, h.ints⟩

theorem writable_str {room : Nat} (s : PyStr) : Writable room (.str s) := ⟨Nat.zero_le _, rfl⟩

section Floats

variable {rt : Runtime} {v : Json}

/-- `repr` of a float that was read reads as that float. -/
def FloatsReadBack (rt : Runtime) : Prop :=
  ∀ negative s repr rest, readNumber rt negative s = .ok (.float repr, rest) → FloatText rt repr

open Classical in
noncomputable def readsBack (rt : Runtime) (repr : PyStr) : Bool := decide (FloatText rt repr)

theorem readsBack_iff {repr : PyStr} : readsBack rt repr = true ↔ FloatText rt repr := by
  simp only [readsBack, decide_eq_true_eq]

/-- Every float of the value is spelt as it reads. -/
def FloatsRead (rt : Runtime) (v : Json) : Prop := FloatsAmong (readsBack rt) v

theorem FloatsRead.rereads {style : Style} (hstyle : style.Readable) (h : FloatsRead rt v) :
    Rereads rt style v :=
  JsonText.rereads (fun _ => readsBack_iff.mp) hstyle v h

theorem FloatsRead.loads_dumps {style : Style} (hstyle : style.Readable) (h : FloatsRead rt v)
    {text : PyStr} (hdepth : v.depth ≤ rt.loadsRoom) (hdumps : dumps rt style v = .ok text) :
    loads rt text = .ok (reread style v) :=
  loads_dumps_of_floats (fun _ => readsBack_iff.mp) hstyle h hdepth hdumps

theorem floatsRead_obj {fields : List (PyStr × Json)} :
    FloatsRead rt (.obj fields) ↔ ∀ field ∈ fields, FloatsRead rt field.2 := by
  refine (allScalarsFields_iff fields).trans ?_
  exact forall_congr' fun field => imp_congr_right fun _ => and_iff_right rfl

/-- The three floats without digits. -/
theorem floatText_special (rt : Runtime) {repr : PyStr}
    (h : repr ∈ [py "nan", py "inf", py "-inf"]) : FloatText rt repr := by
  have hwords : ∀ {c : CodePoint}, cp 'n' ≠ c → cp 't' ≠ c → cp 'f' ≠ c → ∀ rest,
      literal? "null" (c :: rest) = none ∧ literal? "true" (c :: rest) = none ∧
        literal? "false" (c :: rest) = none :=
    fun hn ht hf rest => ⟨literal?_of_ne "null" rfl hn rest, literal?_of_ne "true" rfl ht rest,
      literal?_of_ne "false" rfl hf rest⟩
  simp only [List.mem_cons, List.not_mem_nil, or_false] at h
  rcases h with rfl | rfl | rfl
  · refine ⟨⟨cp 'N', py "aN", rfl, by decide, by decide⟩,
      ⟨cp 'N', py "aN", rfl, by decide, by decide, by decide⟩, ?_⟩
    intro rest _
    obtain ⟨hnull, htrue, hfalse⟩ := hwords (c := cp 'N') (by decide) (by decide) (by decide)
      (py "aN" ++ rest)
    have hliteral := literal?_append "NaN" rest
    change literal? "NaN" (cp 'N' :: (py "aN" ++ rest)) = _ at hliteral
    change readScalar rt (cp 'N' :: (py "aN" ++ rest)) = _
    simp only [readScalar, hnull, htrue, hfalse, hliteral]
  · refine ⟨⟨cp 'I', py "nfinity", rfl, by decide, by decide⟩,
      ⟨cp 'I', py "nfinity", rfl, by decide, by decide, by decide⟩, ?_⟩
    intro rest _
    obtain ⟨hnull, htrue, hfalse⟩ := hwords (c := cp 'I') (by decide) (by decide) (by decide)
      (py "nfinity" ++ rest)
    have hnan := literal?_of_ne "NaN" rfl (by decide : cp 'N' ≠ cp 'I') (py "nfinity" ++ rest)
    have hliteral := literal?_append "Infinity" rest
    change literal? "Infinity" (cp 'I' :: (py "nfinity" ++ rest)) = _ at hliteral
    change readScalar rt (cp 'I' :: (py "nfinity" ++ rest)) = _
    simp only [readScalar, hnull, htrue, hfalse, hnan, hliteral]
  · refine ⟨⟨cp '-', py "Infinity", rfl, by decide, by decide⟩,
      ⟨cp '-', py "Infinity", rfl, by decide, by decide, by decide⟩, ?_⟩
    intro rest _
    obtain ⟨hnull, htrue, hfalse⟩ := hwords (c := cp '-') (by decide) (by decide) (by decide)
      (py "Infinity" ++ rest)
    have hnan := literal?_of_ne "NaN" rfl (by decide : cp 'N' ≠ cp '-') (py "Infinity" ++ rest)
    have hinf := literal?_of_ne "Infinity" rfl (by decide : cp 'I' ≠ cp '-') (py "Infinity" ++ rest)
    have hliteral := literal?_append "-Infinity" rest
    change literal? "-Infinity" (cp '-' :: (py "Infinity" ++ rest)) = _ at hliteral
    change readScalar rt (cp '-' :: (py "Infinity" ++ rest)) = _
    simp only [readScalar, hnull, htrue, hfalse, hnan, hinf, hliteral]

theorem floatsReadBack_of (h : ∀ literal, FloatText rt (rt.floatRepr literal)) :
    FloatsReadBack rt := by
  intro negative s repr rest hread
  rcases readNumber_value hread with ⟨n, hint, -⟩ | ⟨literal, hfloat⟩
  · cases hint
  · cases hfloat
    exact h literal

theorem loads_floatsRead (hfloats : FloatsReadBack rt) {text : PyStr} (h : loads rt text = .ok v) :
    FloatsRead rt v :=
  loads_floats (fun _ hspecial => readsBack_iff.mpr (floatText_special rt hspecial))
    (fun negative s repr rest hread => readsBack_iff.mpr (hfloats negative s repr rest hread)) h

end Floats

section Rereading

variable {style : Style}

/-- Assigning members whose keys differ to no fields gives the members. -/
theorem assignAll_of_unique {members : List (PyStr × Json)} (h : Assoc.Unique members) :
    assignAll [] members = members :=
  Assoc.foldl_set_of_unique (m := []) h

mutual

/-- Without sorting a value whose texts come back as they were comes back as it was. -/
theorem reread_kept (hsort : style.sortKeys = false) {texts : PyStr → Bool}
    (htexts : ∀ s, texts s = true → rereadText style.ensureAscii s = s) :
    (v : Json) → v.distinctKeys = true →
      v.allScalars texts (fun _ => true) (fun _ => true) = true → reread style v = v
  | .null, _, _ => rfl
  | .bool _, _, _ => rfl
  | .int _, _, _ => rfl
  | .float _, _, _ => rfl
  | .str s, _, h => by rw [reread, htexts s h]
  | .arr items, hkeys, h => by
      rw [Json.distinctKeys] at hkeys
      rw [reread, rereadItems_kept hsort htexts items hkeys h]
  | .obj fields, hkeys, h => by
      rw [Json.distinctKeys, Bool.and_eq_true, decide_eq_true_eq] at hkeys
      have hsame : (fields.map fun field => (rereadText style.ensureAscii field.1, field.2)) =
          fields := by
        refine (List.map_congr_left fun field hfield => ?_).trans (List.map_id fields)
        rw [htexts _ ((allScalarsFields_iff fields).mp h field hfield).1]
        rfl
      rw [reread, rereadFields_kept hsort htexts fields hkeys.2 h, inOrder,
        if_neg (by simp [hsort]), hsame, assignAll_of_unique hkeys.1]

theorem rereadItems_kept (hsort : style.sortKeys = false) {texts : PyStr → Bool}
    (htexts : ∀ s, texts s = true → rereadText style.ensureAscii s = s) :
    (items : List Json) → Json.distinctKeysItems items = true →
      Json.allScalarsItems texts (fun _ => true) (fun _ => true) items = true →
        rereadItems style items = items
  | [], _, _ => rfl
  | v :: rest, hkeys, h => by
      rw [Json.distinctKeysItems, Bool.and_eq_true] at hkeys
      rw [Json.allScalarsItems, Bool.and_eq_true] at h
      rw [rereadItems, reread_kept hsort htexts v hkeys.1 h.1,
        rereadItems_kept hsort htexts rest hkeys.2 h.2]

theorem rereadFields_kept (hsort : style.sortKeys = false) {texts : PyStr → Bool}
    (htexts : ∀ s, texts s = true → rereadText style.ensureAscii s = s) :
    (fields : List (PyStr × Json)) → Json.distinctKeysFields fields = true →
      Json.allScalarsFields texts (fun _ => true) (fun _ => true) fields = true →
        rereadFields style fields = fields
  | [], _, _ => rfl
  | (k, v) :: rest, hkeys, h => by
      rw [Json.distinctKeysFields, Bool.and_eq_true] at hkeys
      rw [Json.allScalarsFields, Bool.and_eq_true, Bool.and_eq_true] at h
      rw [rereadFields, reread_kept hsort htexts v hkeys.1 h.1.2,
        rereadFields_kept hsort htexts rest hkeys.2 h.2]

end

mutual

theorem allScalars_trivial :
    (v : Json) → v.allScalars (fun _ => true) (fun _ => true) (fun _ => true) = true
  | .null | .bool _ | .int _ | .float _ | .str _ => rfl
  | .arr items => allScalarsItems_trivial items
  | .obj fields => allScalarsFields_trivial fields

theorem allScalarsItems_trivial : (items : List Json) →
    Json.allScalarsItems (fun _ => true) (fun _ => true) (fun _ => true) items = true
  | [] => rfl
  | v :: rest => by
      rw [Json.allScalarsItems, allScalars_trivial v, allScalarsItems_trivial rest]
      rfl

theorem allScalarsFields_trivial : (fields : List (PyStr × Json)) →
    Json.allScalarsFields (fun _ => true) (fun _ => true) (fun _ => true) fields = true
  | [] => rfl
  | (_, v) :: rest => by
      rw [Json.allScalarsFields, allScalars_trivial v, allScalarsFields_trivial rest]
      rfl

end

/-- Without sorting and escapes a value comes back as it was. -/
theorem reread_raw (hsort : style.sortKeys = false) (hraw : style.ensureAscii = false) (v : Json)
    (h : v.distinctKeys = true) : reread style v = v :=
  reread_kept hsort (fun s _ => by rw [rereadText, hraw, if_neg Bool.false_ne_true]) v h
    (allScalars_trivial v)

/-- Joining surrogates leaves a character beyond the basic plane wherever it joins. -/
theorem joinSurrogates_eq {s key : PyStr} (hkey : ∀ c ∈ key, c.val < 0x10000)
    (h : joinSurrogates s = key) : s = key := by
  induction s using joinSurrogates.induct generalizing key with
  | case1 high low rest hpair ih =>
      rw [joinSurrogates, if_pos hpair] at h
      subst h
      have hlarge := hkey _ List.mem_cons_self
      have hhigh := hpair.1
      have hlow := hpair.2
      simp only [isHigh, isLow, codePoint] at hhigh hlow hlarge
      omega
  | case2 high low rest hpair ih =>
      rw [joinSurrogates, if_neg hpair] at h
      subst h
      rw [List.forall_mem_cons] at hkey
      rw [← ih hkey.2 rfl]
  | case3 c => exact h
  | case4 => exact h

theorem joinSurrogates_of_low {s : PyStr} (h : ∀ c ∈ s, c.val < 0xD800) :
    joinSurrogates s = s := by
  induction s using joinSurrogates.induct with
  | case1 high low rest hpair ih =>
      have hhigh := h high List.mem_cons_self
      have hpaired := hpair.1
      rw [isHigh] at hpaired
      omega
  | case2 high low rest hpair ih =>
      rw [List.forall_mem_cons] at h
      rw [joinSurrogates, if_neg hpair, ih h.2]
  | case3 c => rfl
  | case4 => rfl

/-- A key without surrogates is what it comes back as, and nothing else comes back as it. -/
theorem rereadText_eq_iff {ascii : Bool} {key : PyStr} (hkey : ∀ c ∈ key, c.val < 0xD800)
    (s : PyStr) : rereadText ascii s = key ↔ s = key := by
  rw [rereadText]
  split
  · constructor
    · intro h
      exact joinSurrogates_eq (fun c hc => (hkey c hc).trans (by decide)) h
    · rintro rfl
      exact joinSurrogates_of_low hkey
  · exact Iff.rfl

/-- What is assigned under a key that only itself comes back as. -/
theorem get_assignAll {f : PyStr → PyStr} {g : Json → Json} {key : PyStr}
    (hkey : ∀ k, f k = key ↔ k = key) (fields known : List (PyStr × Json))
    (hunique : Assoc.Unique fields) :
    Assoc.get (assignAll known (fields.map fun field => (f field.1, g field.2))) key =
      match Assoc.get fields key with
      | some v => some (g v)
      | none => Assoc.get known key := by
  induction fields generalizing known with
  | nil => rfl
  | cons field rest ih =>
      obtain ⟨k, v⟩ := field
      rw [Assoc.Unique, List.map_cons, List.nodup_cons] at hunique
      have hrest := ih (Assoc.set known (f k) (g v)) hunique.2
      rw [assignAll, List.map_cons, List.foldl_cons, ← assignAll, hrest]
      by_cases hk : k = key
      · subst hk
        rw [Assoc.get_of_not_mem hunique.1, (hkey k).mpr rfl, Assoc.get_set, Assoc.get]
        simp
      · have hne : f k ≠ key := fun heq => hk ((hkey k).mp heq)
        rw [Assoc.get_set_of_ne _ _ hne, Assoc.get, if_neg hk]

/-- An object's member after it was written and read. -/
theorem get_reread (hsort : style.sortKeys = false) {fields members : List (PyStr × Json)}
    (hunique : Assoc.Unique fields) (h : reread style (.obj fields) = .obj members) {key : PyStr}
    (hkey : ∀ c ∈ key, c.val < 0xD800) :
    Assoc.get members key = (Assoc.get fields key).map (reread style) := by
  have hmembers : assignAll [] (fields.map fun field =>
      (rereadText style.ensureAscii field.1, reread style field.2)) = members := by
    rw [reread, inOrder, if_neg (by simp [hsort]), rereadFields_eq_map, List.map_map,
      Json.obj.injEq] at h
    exact h
  rw [← hmembers, get_assignAll (rereadText_eq_iff hkey) fields [] hunique]
  cases Assoc.get fields key with
  | none => rfl
  | some v => rfl

end Rereading

end SecureSdlc.Core.JsonText

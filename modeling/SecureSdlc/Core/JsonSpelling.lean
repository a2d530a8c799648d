import SecureSdlc.Core.JsonRoundTrip

/-!
Which values `json.dumps` writes, and the characters of the text: printable ASCII with
`ensure_ascii`, otherwise those of the strings in the value, lone surrogates included.
-/

namespace SecureSdlc.Core.JsonText

section Characters

variable (Q : CodePoint → Bool)

/-- `Q` holds of printable ASCII characters and of the separators. -/
structure Style.Spelt (style : Style) : Prop where
  printable : ∀ c : CodePoint, 0x20 ≤ c.val → c.val < 0x7F → Q c = true
  item : style.itemSeparator.all Q = true
  key : style.keySeparator.all Q = true

/-- A written text is in `Q` exactly when its strings, keys and floats are. -/
def Spells (style : Style) (v : Json) : Prop :=
  ∀ room text, write style room v = .ok text →
    text.all Q = v.allScalars (fun s => (s.flatMap (escapeChar style.ensureAscii)).all Q)
      (fun repr => (floatText repr).all Q) (fun _ => true)

variable {Q} {style : Style}

theorem all_join {sep : PyStr} (hsep : sep.all Q = true) (parts : List PyStr) :
    (PyStr.join sep parts).all Q = parts.all fun part => part.all Q := by
  induction parts with
  | nil => rw [join_nil]; rfl
  | cons first rest ih =>
      cases rest with
      | nil => rw [join_singleton]; simp
      | cons second rest =>
          rw [join_cons_cons, List.all_append, List.all_append, hsep, ih, Bool.true_and]
          rfl

theorem all_inOrder (style : Style) {α : Type} (fields : List (PyStr × α))
    (P : PyStr × α → Bool) : (inOrder style fields).all P = fields.all P := by
  rw [Bool.eq_iff_iff, List.all_eq_true, List.all_eq_true]
  simp only [mem_inOrder]

theorem all_quote (hplain : style.Spelt Q) (s : PyStr) :
    (quote style.ensureAscii s).all Q = (s.flatMap (escapeChar style.ensureAscii)).all Q := by
  have hmark : (py "\"").all Q = true := by
    have hquote : py "\"" = [cp '"'] := rfl
    rw [hquote, List.all_cons, hplain.printable _ (by decide) (by decide)]
    rfl
  rw [quote, List.all_append, List.all_append, hmark, Bool.true_and, Bool.and_true]

theorem all_of_printable (hplain : style.Spelt Q) {text : PyStr} (h : Printable text) :
    text.all Q = true := by
  rw [List.all_eq_true]
  exact fun c hc => hplain.printable c (h c hc).1 (h c hc).2

theorem printable_intText {n : Int} {text : PyStr} (h : intText n = .ok text) :
    Printable text := by
  have hdigits : ∀ n, Printable (PyStr.ofNat n) := by
    intro n c hc
    have hdigit := isDigit_of_mem_ofNat hc
    simp only [isDigit, decide_eq_true_eq] at hdigit
    omega
  rw [intText] at h
  split at h
  · cases h
  · cases h
    cases n with
    | ofNat n => exact hdigits n
    | negSucc n =>
        intro c hc
        rcases List.mem_cons.mp hc with rfl | hc
        · decide
        · exact hdigits _ c hc

theorem spells_arr (hplain : style.Spelt Q) {items : List Json}
    (h : ∀ v ∈ items, Spells Q style v) : Spells Q style (.arr items) := by
  intro room text hwrite
  obtain ⟨inner, rfl, hwrites, rfl⟩ := write_arr hwrite
  have hopen : Q (cp '[') = true := hplain.printable _ (by decide) (by decide)
  have hclose : Q (cp ']') = true := hplain.printable _ (by decide) (by decide)
  rw [List.all_cons, List.all_append, all_join hplain.item, List.all_cons, List.all_nil, hopen,
    hclose, Bool.true_and, Bool.and_self, Bool.and_true, List.all_map, Json.allScalars,
    Bool.eq_iff_iff, allScalarsItems_iff, List.all_eq_true]
  refine forall₂_congr ?_
  intro v hv
  rw [Function.comp_apply, h v hv inner _ (hwrites v hv)]

theorem spells_obj (hplain : style.Spelt Q) {fields : List (PyStr × Json)}
    (h : ∀ field ∈ fields, Spells Q style field.2) : Spells Q style (.obj fields) := by
  intro room text hwrite
  obtain ⟨inner, rfl, hwrites, rfl⟩ := write_obj hwrite
  have hopen : Q (cp '\x7b') = true := hplain.printable _ (by decide) (by decide)
  have hclose : Q (cp '\x7d') = true := hplain.printable _ (by decide) (by decide)
  rw [List.all_cons, List.all_append, all_join hplain.item, List.all_cons, List.all_nil, hopen,
    hclose, Bool.true_and, Bool.and_self, Bool.and_true, List.all_map, all_inOrder, Json.allScalars,
    Bool.eq_iff_iff, allScalarsFields_iff, List.all_eq_true]
  refine forall₂_congr ?_
  intro field hfield
  rw [Function.comp_apply, member, List.all_append, List.all_append, hplain.key, Bool.and_true,
    all_quote hplain, h field hfield inner _ (hwrites field hfield), Bool.and_eq_true]

mutual

theorem spells (hplain : style.Spelt Q) : (v : Json) → Spells Q style v
  | .null => by
      intro room text h
      cases h
      exact all_of_printable hplain (by decide)
  | .bool b => by
      intro room text h
      cases b with
      | true =>
          cases h
          exact all_of_printable hplain (by decide)
      | false =>
          cases h
          exact all_of_printable hplain (by decide)
  | .int n => fun _ _ h => all_of_printable hplain (printable_intText h)
  | .float repr => by
      intro room text h
      cases h
      rfl
  | .str s => by
      intro room text h
      cases h
      exact all_quote hplain s
  | .arr items => spells_arr hplain (spells_items hplain items)
  | .obj fields => spells_obj hplain (spells_fields hplain fields)

theorem spells_items (hplain : style.Spelt Q) :
    (items : List Json) → ∀ v ∈ items, Spells Q style v
  | [] => by simp
  | v :: rest => by
      rw [List.forall_mem_cons]
      exact ⟨spells hplain v, spells_items hplain rest⟩

theorem spells_fields (hplain : style.Spelt Q) :
    (fields : List (PyStr × Json)) → ∀ field ∈ fields, Spells Q style field.2
  | [] => by simp
  | (k, v) :: rest => by
      rw [List.forall_mem_cons]
      exact ⟨spells hplain v, spells_fields hplain rest⟩

end

theorem printable_escapeUnit (n : Nat) : Printable (escapeUnit n) := by
  have hdigit : ∀ m, 0x20 ≤ (hexDigit (m % 16)).val ∧ (hexDigit (m % 16)).val < 0x7F :=
    fun m => hexDigit_printable (Nat.mod_lt m (by decide))
  have hunit : escapeUnit n = [cp '\\', cp 'u', hexDigit (n / 16 / 16 / 16 % 16),
      hexDigit (n / 16 / 16 % 16), hexDigit (n / 16 % 16), hexDigit (n % 16)] := rfl
  rw [hunit, Printable]
  simp only [List.forall_mem_cons, List.not_mem_nil, false_implies, implies_true, and_true]
  exact ⟨by decide, by decide, hdigit _, hdigit _, hdigit _, hdigit _⟩

theorem printable_escapeChar (c : CodePoint) : Printable (escapeChar true c) := by
  have hescaped := escaped_escapeChar true c
  generalize escapeChar true c = text at hescaped
  cases hescaped with
  | plain hlow _ _ hhigh =>
      intro d hd
      rw [List.mem_singleton.mp hd]
      exact ⟨hlow, hhigh rfl⟩
  | short e _ _ hprint _ =>
      rw [Printable]
      simp only [List.forall_mem_cons, List.not_mem_nil, false_implies, implies_true, and_true]
      exact ⟨by decide, hprint⟩
  | unit _ _ => exact printable_escapeUnit _
  | pair _ _ =>
      intro d hd
      rcases List.mem_append.mp hd with hd | hd
      · exact printable_escapeUnit _ d hd
      · exact printable_escapeUnit _ d hd

end Characters

/-- With `ensure_ascii` every character of the text is printable ASCII. -/
theorem printable_write {style : Style} {room : Nat} {v : Json} {text : PyStr}
    (hascii : style.ensureAscii = true) (hitem : Printable style.itemSeparator)
    (hkey : Printable style.keySeparator) (hfloat : FloatFree v)
    (h : write style room v = .ok text) : Printable text := by
  let Q : CodePoint → Bool := fun c => decide (0x20 ≤ c.val ∧ c.val < 0x7F)
  have hall : ∀ {s : PyStr}, s.all Q = true ↔ Printable s := by
    intro s
    simp only [List.all_eq_true, Printable, Q, decide_eq_true_eq]
  have hspelt : style.Spelt Q :=
    ⟨fun c hlow hhigh => decide_eq_true ⟨hlow, hhigh⟩, hall.mpr hitem, hall.mpr hkey⟩
  rw [← hall, spells hspelt v room text h]
  refine allScalars_mono ?_ ?_ (fun _ h => h) v hfloat
  · intro s _
    rw [hascii, hall]
    intro d hd
    obtain ⟨c, -, hd⟩ := List.mem_flatMap.mp hd
    exact printable_escapeChar c d hd
  · intro repr hfalse
    cases hfalse

/-- The character is no control character of ASCII. -/
def isPlain (c : CodePoint) : Bool := decide (0x20 ≤ c.val)

theorem isPlain_of_printable {text : PyStr} (h : Printable text) : text.all isPlain = true := by
  rw [List.all_eq_true]
  exact fun c hc => decide_eq_true (h c hc).1

theorem isPlain_escapeChar (ascii : Bool) (c : CodePoint) :
    (escapeChar ascii c).all isPlain = true := by
  have hescaped := escaped_escapeChar ascii c
  generalize escapeChar ascii c = text at hescaped
  cases hescaped with
  | plain hlow _ _ _ =>
      rw [List.all_cons, isPlain, decide_eq_true hlow]
      rfl
  | short e _ _ hprint _ =>
      rw [List.all_cons, List.all_cons, isPlain, isPlain, decide_eq_true hprint.1]
      rfl
  | unit _ _ => exact isPlain_of_printable (printable_escapeUnit _)
  | pair _ _ =>
      rw [List.all_append, isPlain_of_printable (printable_escapeUnit _),
        isPlain_of_printable (printable_escapeUnit _)]
      rfl

/-- A written text is one line when the spelling of every float is. -/
theorem isPlain_write {style : Style} {room : Nat} {v : Json} {text : PyStr}
    (hitem : Printable style.itemSeparator) (hkey : Printable style.keySeparator)
    (hfloats : FloatsAmong (fun repr => (floatText repr).all isPlain) v)
    (h : write style room v = .ok text) : text.all isPlain = true := by
  have hspelt : style.Spelt isPlain :=
    ⟨fun _ hlow _ => decide_eq_true hlow, isPlain_of_printable hitem, isPlain_of_printable hkey⟩
  rw [spells hspelt v room text h]
  refine allScalars_mono ?_ (fun _ h => h) (fun _ h => h) v hfloats
  intro s _
  rw [List.all_flatMap, List.all_eq_true]
  exact fun c _ => isPlain_escapeChar style.ensureAscii c

theorem encodable_of_printable {text : PyStr} (h : Printable text) :
    PyStr.encodable text = true := by
  rw [PyStr.encodable, List.all_eq_true]
  intro d hd
  have := h d hd
  simp only [PyStr.isSurrogate, Bool.not_eq_true', Bool.and_eq_false_iff, decide_eq_false_iff_not]
  omega

theorem encodable_escapeChar (c : CodePoint) :
    PyStr.encodable (escapeChar false c) = !PyStr.isSurrogate c := by
  have hascii : c.val < 0x80 → (!PyStr.isSurrogate c) = true := by
    intro hc
    simp only [PyStr.isSurrogate, Bool.not_eq_true', Bool.and_eq_false_iff, decide_eq_false_iff_not]
    omega
  have hescaped := escaped_escapeChar false c
  generalize escapeChar false c = text at hescaped
  cases hescaped with
  | plain _ _ _ _ => simp [PyStr.encodable]
  | short e _ _ hprint hlow =>
      rw [hascii hlow]
      apply encodable_of_printable
      rw [Printable]
      simp only [List.forall_mem_cons, List.not_mem_nil, false_implies, implies_true, and_true]
      exact ⟨by decide, hprint⟩
  | unit _ hraw =>
      rw [hascii (by have := hraw rfl; omega)]
      exact encodable_of_printable (printable_escapeUnit _)
  | pair hfalse _ => cases hfalse

theorem encodable_escaped (s : PyStr) :
    PyStr.encodable (s.flatMap (escapeChar false)) = PyStr.encodable s := by
  induction s with
  | nil => rfl
  | cons c s ih =>
      have hc := encodable_escapeChar c
      rw [PyStr.encodable] at hc ih ⊢
      rw [List.flatMap_cons, List.all_append, hc, ih]
      rfl

theorem encodable_floatText (repr : PyStr) :
    PyStr.encodable (floatText repr) = PyStr.encodable repr := by
  rw [floatText]
  split
  · rename_i h
    rw [h]
    rfl
  split
  · rename_i h
    rw [h]
    rfl
  split
  · rename_i h
    rw [h]
    rfl
  · rfl

/-- Without it the text can be encoded exactly when every string of the value can. -/
theorem encodable_write {style : Style} {room : Nat} {v : Json} {text : PyStr}
    (hraw : style.ensureAscii = false) (hitem : Printable style.itemSeparator)
    (hkey : Printable style.keySeparator) (h : write style room v = .ok text) :
    PyStr.encodable text = v.allScalars PyStr.encodable PyStr.encodable (fun _ => true) := by
  have hspelt : style.Spelt fun c => !PyStr.isSurrogate c := by
    refine ⟨?_, encodable_of_printable hitem, encodable_of_printable hkey⟩
    intro c hlow hhigh
    simp only [PyStr.isSurrogate, Bool.not_eq_true', Bool.and_eq_false_iff, decide_eq_false_iff_not]
    omega
  have hstrings : (fun s : PyStr =>
      (s.flatMap (escapeChar style.ensureAscii)).all fun c => !PyStr.isSurrogate c) =
        PyStr.encodable := by
    funext s
    rw [hraw]
    exact encodable_escaped s
  have hfloats : (fun repr => (floatText repr).all fun c => !PyStr.isSurrogate c) =
      PyStr.encodable := by
    funext repr
    exact encodable_floatText repr
  rw [PyStr.encodable, spells hspelt v room text h, hstrings, hfloats]

/-- An integer that `str` writes out. -/
def shortInt (n : Int) : Bool := decide ((PyStr.ofNat n.natAbs).length ≤ maxStrDigits)

/-- Values that fit the writer: their nesting its room, their integers `str`. -/
structure Writable (room : Nat) (v : Json) : Prop where
  depth : v.depth ≤ room
  ints : v.allScalars (fun _ => true) (fun _ => true) shortInt = true

theorem depthItems_le_iff {items : List Json} {room : Nat} :
    Json.depthItems items ≤ room ↔ ∀ v ∈ items, v.depth ≤ room := by
  constructor
  · intro h v hv
    exact (depth_le_depthItems hv).trans h
  · intro h
    induction items with
    | nil => exact Nat.zero_le _
    | cons v rest ih =>
        rw [List.forall_mem_cons] at h
        exact Nat.max_le.mpr ⟨h.1, ih h.2⟩

theorem depthFields_le_iff {fields : List (PyStr × Json)} {room : Nat} :
    Json.depthFields fields ≤ room ↔ ∀ field ∈ fields, field.2.depth ≤ room := by
  constructor
  · intro h field hfield
    exact (depth_le_depthFields hfield).trans h
  · intro h
    induction fields with
    | nil => exact Nat.zero_le _
    | cons field rest ih =>
        rw [List.forall_mem_cons] at h
        exact Nat.max_le.mpr ⟨h.1, ih h.2⟩

theorem writable_arr {room : Nat} {items : List Json} :
    Writable (room + 1) (.arr items) ↔ ∀ v ∈ items, Writable room v := by
  constructor
  · rintro ⟨hdepth, hints⟩ v hv
    exact ⟨depthItems_le_iff.mp (Nat.le_of_succ_le_succ hdepth) v hv,
      (allScalarsItems_iff items).mp hints v hv⟩
  · intro h
    exact ⟨Nat.succ_le_succ (depthItems_le_iff.mpr fun v hv => (h v hv).depth),
      (allScalarsItems_iff items).mpr fun v hv => (h v hv).ints⟩

theorem writable_obj {room : Nat} {fields : List (PyStr × Json)} :
    Writable (room + 1) (.obj fields) ↔ ∀ field ∈ fields, Writable room field.2 := by
  constructor
  · rintro ⟨hdepth, hints⟩ field hfield
    exact ⟨depthFields_le_iff.mp (Nat.le_of_succ_le_succ hdepth) field hfield,
      ((allScalarsFields_iff fields).mp hints field hfield).2⟩
  · intro h
    exact ⟨Nat.succ_le_succ (depthFields_le_iff.mpr fun field hf => (h field hf).depth),
      (allScalarsFields_iff fields).mpr fun field hf => ⟨rfl, (h field hf).ints⟩⟩

theorem not_writable_zero {v : Json} (h : 0 < v.depth) : ¬ Writable 0 v :=
  fun hwritable => Nat.not_lt.mpr hwritable.depth h

mutual

theorem exists_write_iff (style : Style) (room : Nat) :
    (v : Json) → ((∃ text, write style room v = .ok text) ↔ Writable room v)
  | .null => ⟨fun _ => ⟨Nat.zero_le _, rfl⟩, fun _ => ⟨_, rfl⟩⟩
  | .bool b => ⟨fun _ => ⟨Nat.zero_le _, rfl⟩, fun _ => by cases b <;> exact ⟨_, rfl⟩⟩
  | .float repr => ⟨fun _ => ⟨Nat.zero_le _, rfl⟩, fun _ => ⟨_, rfl⟩⟩
  | .str s => ⟨fun _ => ⟨Nat.zero_le _, rfl⟩, fun _ => ⟨_, rfl⟩⟩
  | .int n => by
      rw [write, intText]
      constructor
      · rintro ⟨text, h⟩
        split at h
        · cases h
        · rename_i hlength
          exact ⟨Nat.zero_le _, decide_eq_true (Nat.not_lt.mp hlength)⟩
      · intro h
        have hlength := of_decide_eq_true h.ints
        exact ⟨_, if_neg (Nat.not_lt.mpr hlength)⟩
  | .arr items => by
      cases room with
      | zero =>
          refine ⟨?_, fun h => absurd h (not_writable_zero (Nat.succ_pos _))⟩
          rintro ⟨text, h⟩
          cases h
      | succ room =>
          rw [writable_arr, ← exists_writeItems_iff style room items, write]
          constructor
          · rintro ⟨text, h⟩
            obtain ⟨parts, hparts, -⟩ := exists_ok_of_bind h
            exact ⟨parts, hparts⟩
          · rintro ⟨parts, hparts⟩
            rw [hparts]
            exact ⟨_, rfl⟩
  | .obj fields => by
      cases room with
      | zero =>
          refine ⟨?_, fun h => absurd h (not_writable_zero (Nat.succ_pos _))⟩
          rintro ⟨text, h⟩
          cases h
      | succ room =>
          rw [writable_obj, ← exists_writeFields_iff style room fields, write]
          constructor
          · rintro ⟨text, h⟩
            obtain ⟨parts, hparts, -⟩ := exists_ok_of_bind h
            exact ⟨parts, hparts⟩
          · rintro ⟨parts, hparts⟩
            rw [hparts]
            exact ⟨_, rfl⟩

theorem exists_writeItems_iff (style : Style) (room : Nat) :
    (items : List Json) → ((∃ parts, writeItems style room items = .ok parts) ↔
      ∀ v ∈ items, Writable room v)
  | [] => by simp [writeItems]
  | v :: rest => by
      rw [List.forall_mem_cons, ← exists_write_iff style room v,
        ← exists_writeItems_iff style room rest, writeItems]
      constructor
      · rintro ⟨parts, h⟩
        obtain ⟨text, htext, h⟩ := exists_ok_of_bind h
        obtain ⟨texts, htexts, -⟩ := exists_ok_of_bind h
        exact ⟨⟨text, htext⟩, ⟨texts, htexts⟩⟩
      · rintro ⟨⟨text, htext⟩, ⟨texts, htexts⟩⟩
        rw [htext, htexts]
        exact ⟨_, rfl⟩

theorem exists_writeFields_iff (style : Style) (room : Nat) :
    (fields : List (PyStr × Json)) → ((∃ parts, writeFields style room fields = .ok parts) ↔
      ∀ field ∈ fields, Writable room field.2)
  | [] => by simp [writeFields]
  | (k, v) :: rest => by
      rw [List.forall_mem_cons, ← exists_write_iff style room v,
        ← exists_writeFields_iff style room rest, writeFields]
      constructor
      · rintro ⟨parts, h⟩
        obtain ⟨text, htext, h⟩ := exists_ok_of_bind h
        obtain ⟨texts, htexts, -⟩ := exists_ok_of_bind h
        exact ⟨⟨text, htext⟩, ⟨texts, htexts⟩⟩
      · rintro ⟨⟨text, htext⟩, ⟨texts, htexts⟩⟩
        rw [htext, htexts]
        exact ⟨_, rfl⟩

end

end SecureSdlc.Core.JsonText

namespace SecureSdlc.Core

theorem universalNewlines_of_plain {text : PyStr} (h : text.all JsonText.isPlain = true) :
    PyStr.universalNewlines text = text := by
  induction text with
  | nil => rfl
  | cons c rest ih =>
      rw [List.all_cons, Bool.and_eq_true] at h
      have hplain := of_decide_eq_true h.1
      rw [PyStr.universalNewlines.eq_def]
      simp only [if_neg (show ¬ c.val = 0x0D by omega), ih h.2]

end SecureSdlc.Core

import SecureSdlc.Core.JsonTokens

/-!
What `json.loads` makes of a text that `json.dumps` wrote: the same value, with its
strings as they come back and its objects in the order they were written in. The
spelling of floats is the runtime's: values are taken to have such as read back, or none.
-/

namespace SecureSdlc.Core.JsonText

/-- The order in which the members of an object are written. -/
def inOrder {α : Type} (style : Style) (fields : List (PyStr × α)) : List (PyStr × α) :=
  if style.sortKeys then fields.insertionSort fun a b => PyStr.le a.1 b.1 else fields

theorem inOrder_map {α β : Type} (style : Style) (f : α → β) (fields : List (PyStr × α)) :
    inOrder style (fields.map fun field => (field.1, f field.2)) =
      (inOrder style fields).map fun field => (field.1, f field.2) := by
  simp only [inOrder]
  split
  · refine (List.map_insertionSort (fun a b : PyStr × α => PyStr.le a.1 b.1 = true)
      (fun a b : PyStr × β => PyStr.le a.1 b.1 = true) _ fields ?_).symm
    intro a _ b _
    exact Iff.rfl
  · rfl

theorem mem_inOrder {α : Type} {style : Style} {fields : List (PyStr × α)} {field : PyStr × α} :
    field ∈ inOrder style fields ↔ field ∈ fields := by
  simp only [inOrder]
  split
  · exact List.mem_insertionSort _
  · exact Iff.rfl

/-- Members are assigned one after another; a key that was read before keeps its place. -/
def assignAll (fields members : List (PyStr × Json)) : List (PyStr × Json) :=
  members.foldl (fun fields member => Assoc.set fields member.1 member.2) fields

mutual

/-- A value after it was written and read. -/
def reread (style : Style) : Json → Json
  | .str s => .str (rereadText style.ensureAscii s)
  | .arr items => .arr (rereadItems style items)
  | .obj fields => .obj (assignAll [] ((inOrder style (rereadFields style fields)).map
      fun field => (rereadText style.ensureAscii field.1, field.2)))
  | v => v

def rereadItems (style : Style) : List Json → List Json
  | [] => []
  | v :: rest => reread style v :: rereadItems style rest

def rereadFields (style : Style) : List (PyStr × Json) → List (PyStr × Json)
  | [] => []
  | (k, v) :: rest => (k, reread style v) :: rereadFields style rest

end

theorem rereadItems_eq_map (style : Style) (items : List Json) :
    rereadItems style items = items.map (reread style) := by
  induction items with
  | nil => rfl
  | cons v rest ih => rw [rereadItems, ih, List.map_cons]

theorem rereadFields_eq_map (style : Style) (fields : List (PyStr × Json)) :
    rereadFields style fields = fields.map fun field => (field.1, reread style field.2) := by
  induction fields with
  | nil => rfl
  | cons field rest ih =>
      obtain ⟨k, v⟩ := field
      rw [rereadFields, ih, List.map_cons]

/-- The text of a value that can be written. -/
def textOf (style : Style) (room : Nat) (v : Json) : PyStr :=
  match write style room v with
  | .ok text => text
  | .error _ => []

theorem write_textOf {style : Style} {room : Nat} {v : Json} {text : PyStr}
    (h : write style room v = .ok text) : textOf style room v = text := by
  rw [textOf, h]

def Writes (style : Style) (room : Nat) (v : Json) : Prop :=
  write style room v = .ok (textOf style room v)

theorem writeItems_ok {style : Style} {room : Nat} {items : List Json} {parts : List PyStr}
    (h : writeItems style room items = .ok parts) :
    parts = items.map (textOf style room) ∧ ∀ v ∈ items, Writes style room v := by
  induction items generalizing parts with
  | nil =>
      cases h
      exact ⟨rfl, by simp⟩
  | cons v rest ih =>
      rw [writeItems] at h
      obtain ⟨text, htext, h⟩ := exists_ok_of_bind h
      obtain ⟨texts, htexts, h⟩ := exists_ok_of_bind h
      cases h
      obtain ⟨hparts, hall⟩ := ih htexts
      have hv := write_textOf htext
      refine ⟨by rw [List.map_cons, hv, hparts], ?_⟩
      rw [List.forall_mem_cons]
      exact ⟨by rw [Writes, htext, hv], hall⟩

theorem writeFields_ok {style : Style} {room : Nat} {fields : List (PyStr × Json)}
    {parts : List (PyStr × PyStr)} (h : writeFields style room fields = .ok parts) :
    parts = (fields.map fun field => (field.1, textOf style room field.2)) ∧
      ∀ field ∈ fields, Writes style room field.2 := by
  induction fields generalizing parts with
  | nil =>
      cases h
      exact ⟨rfl, by simp⟩
  | cons field rest ih =>
      obtain ⟨k, v⟩ := field
      rw [writeFields] at h
      obtain ⟨text, htext, h⟩ := exists_ok_of_bind h
      obtain ⟨texts, htexts, h⟩ := exists_ok_of_bind h
      cases h
      obtain ⟨hparts, hall⟩ := ih htexts
      have hv := write_textOf htext
      refine ⟨by rw [List.map_cons, hv, hparts], ?_⟩
      rw [List.forall_mem_cons]
      exact ⟨by rw [Writes, htext, hv], hall⟩

/-- The member of an object as it is written. -/
def member (style : Style) (room : Nat) (field : PyStr × Json) : PyStr :=
  quote style.ensureAscii field.1 ++ style.keySeparator ++ textOf style room field.2

/-- What a written array or object looks like. -/
theorem write_arr {style : Style} {room : Nat} {items : List Json} {text : PyStr}
    (h : write style room (.arr items) = .ok text) :
    ∃ inner, room = inner + 1 ∧ (∀ v ∈ items, Writes style inner v) ∧
      text = cp '[' :: (PyStr.join style.itemSeparator (items.map (textOf style inner)) ++
        [cp ']']) := by
  cases room with
  | zero => cases h
  | succ inner =>
      rw [write] at h
      obtain ⟨parts, hparts, h⟩ := exists_ok_of_bind h
      cases h
      obtain ⟨rfl, hall⟩ := writeItems_ok hparts
      exact ⟨inner, rfl, hall, rfl⟩

theorem write_obj {style : Style} {room : Nat} {fields : List (PyStr × Json)} {text : PyStr}
    (h : write style room (.obj fields) = .ok text) :
    ∃ inner, room = inner + 1 ∧ (∀ field ∈ fields, Writes style inner field.2) ∧
      text = cp '\x7b' :: (PyStr.join style.itemSeparator
        ((inOrder style fields).map (member style inner)) ++ [cp '\x7d']) := by
  cases room with
  | zero => cases h
  | succ inner =>
      rw [write] at h
      obtain ⟨parts, hparts, h⟩ := exists_ok_of_bind h
      cases h
      obtain ⟨rfl, hall⟩ := writeFields_ok hparts
      refine ⟨inner, rfl, hall, ?_⟩
      have horder := inOrder_map style (textOf style inner) fields
      simp only [inOrder] at horder
      simp only [horder, inOrder, List.map_map]
      rfl

/-- Separators that `loads` skips: the delimiter and blanks after it. -/
structure Style.Readable (style : Style) : Prop where
  item : ∃ gap, style.itemSeparator = cp ',' :: gap ∧ ∀ c ∈ gap, isBlank c = true
  key : ∃ gap, style.keySeparator = cp ':' :: gap ∧ ∀ c ∈ gap, isBlank c = true

def FloatFree (v : Json) : Prop :=
  v.allScalars (fun _ => true) (fun _ => false) (fun _ => true) = true

/-- A text that starts with an ASCII character, no blank and no closing bracket. -/
def Leads (text : PyStr) : Prop :=
  ∃ c after, text = c :: after ∧ isBlank c = false ∧ c ≠ cp ']' ∧ c ≠ cp '\x7d' ∧ c.val < 0x80

theorem Leads.append {text : PyStr} (h : Leads text) (rest : PyStr) : Leads (text ++ rest) := by
  obtain ⟨c, after, rfl, hc⟩ := h
  exact ⟨c, after ++ rest, rfl, hc⟩

theorem skipBlanks_cons {c : CodePoint} (h : isBlank c = false) (rest : PyStr) :
    skipBlanks (c :: rest) = c :: rest := by
  simp [skipBlanks, h]

theorem skipBlanks_of_leads {text : PyStr} (h : Leads text) : skipBlanks text = text := by
  obtain ⟨c, after, rfl, hc, -⟩ := h
  exact skipBlanks_cons hc after

theorem skipBlanks_gap {gap text : PyStr} (hgap : ∀ c ∈ gap, isBlank c = true)
    (h : Leads text) : skipBlanks (gap ++ text) = text := by
  rw [skipBlanks, List.dropWhile_append_of_pos hgap]
  exact skipBlanks_of_leads h

theorem leads_of_isDigit {c : CodePoint} (h : isDigit c = true) (rest : PyStr) :
    Leads (c :: rest) := by
  refine ⟨c, rest, rfl, ?_, (ne_of_isDigit h rfl).symm, (ne_of_isDigit h rfl).symm, ?_⟩
  all_goals simp only [isDigit, decide_eq_true_eq] at h
  case refine_2 => omega
  simp only [isBlank, decide_eq_false_iff_not]
  rintro (rfl | rfl | rfl | rfl) <;> revert h <;> decide

theorem leads_intText {n : Int} {text : PyStr} (h : intText n = .ok text) : Leads text := by
  simp only [intText] at h
  split at h
  · cases h
  · cases h
    cases n with
    | ofNat n =>
        obtain ⟨c, digits, heq, hd⟩ := ofNat_cons n
        rw [PyStr.ofInt, heq]
        exact leads_of_isDigit hd digits
    | negSucc n => exact ⟨cp '-', _, rfl, by decide, by decide⟩

theorem leads_quote (ascii : Bool) (s : PyStr) : Leads (quote ascii s) :=
  ⟨cp '"', _, rfl, by decide, by decide⟩

theorem leads_write {style : Style} {room : Nat} {v : Json} {text : PyStr}
    (h : write style room v = .ok text)
    (hfloat : ∀ repr, v = .float repr → Leads (floatText repr)) : Leads text := by
  cases v with
  | null =>
      cases h
      exact ⟨cp 'n', _, rfl, by decide, by decide⟩
  | bool b =>
      cases b with
      | true =>
          cases h
          exact ⟨cp 't', _, rfl, by decide, by decide⟩
      | false =>
          cases h
          exact ⟨cp 'f', _, rfl, by decide, by decide⟩
  | int n => exact leads_intText h
  | float repr =>
      cases h
      exact hfloat repr rfl
  | str s =>
      cases h
      exact leads_quote _ s
  | arr items =>
      obtain ⟨inner, -, -, rfl⟩ := write_arr h
      exact ⟨cp '[', _, rfl, by decide, by decide⟩
  | obj fields =>
      obtain ⟨inner, -, -, rfl⟩ := write_obj h
      exact ⟨cp '\x7b', _, rfl, by decide, by decide⟩

/-- Reading undoes writing, whatever follows. -/
def Rereads (rt : Runtime) (style : Style) (v : Json) : Prop :=
  ∀ room text, write style room v = .ok text → ∀ fuel depth rest,
    2 * text.length ≤ fuel → v.depth ≤ depth → Ends rest →
      read rt fuel depth (text ++ rest) = .ok (reread style v, rest)

theorem read_scalar {rt : Runtime} {fuel depth : Nat} {c : CodePoint} {rest : PyStr}
    (hquote : c ≠ cp '"') (harr : c ≠ cp '[') (hobj : c ≠ cp '\x7b') :
    read rt (fuel + 1) depth (c :: rest) = readScalar rt (c :: rest) := by
  simp only [read, hquote, harr, hobj, if_false]

theorem length_le_escaped (ascii : Bool) (s : PyStr) :
    s.length ≤ (s.flatMap (escapeChar ascii)).length := by
  induction s with
  | nil => exact Nat.le_refl _
  | cons c s ih =>
      have hpos : 1 ≤ (escapeChar ascii c).length := by
        have hescaped := escaped_escapeChar ascii c
        generalize escapeChar ascii c = text at hescaped
        cases hescaped <;> simp [length_escapeUnit]
      rw [List.flatMap_cons, List.length_append, List.length_cons]
      omega

/-- A quoted string at the head of a text, past its opening quote. -/
theorem readString_quote (ascii : Bool) (s rest : PyStr) :
    ∃ after, quote ascii s ++ rest = cp '"' :: after ∧
      readString (after.length + 1) after = .ok (rereadText ascii s, rest) := by
  refine ⟨s.flatMap (escapeChar ascii) ++ cp '"' :: rest, ?_, ?_⟩
  · simp only [quote, List.append_assoc]
    rfl
  · apply readString_written
    have := length_le_escaped ascii s
    rw [List.length_append]
    omega

theorem read_quote (rt : Runtime) (ascii : Bool) (fuel depth : Nat) (s rest : PyStr) :
    read rt (fuel + 1) depth (quote ascii s ++ rest) =
      .ok (.str (rereadText ascii s), rest) := by
  obtain ⟨after, heq, hread⟩ := readString_quote ascii s rest
  simp only [heq, read, if_true, hread]
  rfl

theorem readItems_last {rt : Runtime} {fuel depth : Nat} {s after rest : PyStr} {v : Json}
    (h : read rt fuel depth s = .ok (v, after)) (hafter : skipBlanks after = cp ']' :: rest) :
    readItems rt (fuel + 1) depth s = .ok ([v], rest) := by
  simp only [readItems, h, bind, Except.bind, hafter, if_true]
  rfl

theorem readItems_more {rt : Runtime} {fuel depth : Nat} {s after more rest : PyStr} {v : Json}
    {vs : List Json} (h : read rt fuel depth s = .ok (v, after))
    (hafter : skipBlanks after = cp ',' :: more)
    (hmore : readItems rt fuel depth (skipBlanks more) = .ok (vs, rest)) :
    readItems rt (fuel + 1) depth s = .ok (v :: vs, rest) := by
  have hcomma : cp ',' ≠ cp ']' := by decide
  simp only [readItems, h, bind, Except.bind, hafter, hcomma, if_false, if_true, hmore]
  rfl

theorem readFields_last {rt : Runtime} {fuel depth : Nat} {fields : List (PyStr × Json)}
    {s tail colon after rest key : PyStr} {v : Json}
    (hkey : readString (s.length + 1) s = .ok (key, tail))
    (hcolon : skipBlanks tail = cp ':' :: colon)
    (hvalue : read rt fuel depth (skipBlanks colon) = .ok (v, after))
    (hafter : skipBlanks after = cp '\x7d' :: rest) :
    readFields rt (fuel + 1) depth fields (cp '"' :: s) = .ok (Assoc.set fields key v, rest) := by
  simp only [readFields, if_true, hkey, bind, Except.bind, hcolon, hvalue, hafter]
  rfl

theorem readFields_more {rt : Runtime} {fuel depth : Nat} {fields : List (PyStr × Json)}
    {s tail colon after more key : PyStr} {v : Json}
    (hkey : readString (s.length + 1) s = .ok (key, tail))
    (hcolon : skipBlanks tail = cp ':' :: colon)
    (hvalue : read rt fuel depth (skipBlanks colon) = .ok (v, after))
    (hafter : skipBlanks after = cp ',' :: more) :
    readFields rt (fuel + 1) depth fields (cp '"' :: s) =
      readFields rt fuel depth (Assoc.set fields key v) (skipBlanks more) := by
  have hcomma : cp ',' ≠ cp '\x7d' := by decide
  simp only [readFields, if_true, hkey, bind, Except.bind, hcolon, hvalue, hafter, hcomma, if_false]

/-- The delimiters end a number. -/
theorem ends_delimiter {c : CodePoint} (h : c = cp ',' ∨ c = cp ']' ∨ c = cp '\x7d')
    (rest : PyStr) : Ends (c :: rest) := by
  intro d after heq
  obtain ⟨rfl, -⟩ := List.cons.inj heq
  rcases h with rfl | rfl | rfl <;> decide

theorem join_singleton (sep first : PyStr) : PyStr.join sep [first] = first := by
  simp [PyStr.join]

theorem join_cons_cons (sep first second : PyStr) (rest : List PyStr) :
    PyStr.join sep (first :: second :: rest) =
      first ++ (sep ++ PyStr.join sep (second :: rest)) := by
  simp [PyStr.join, List.intercalate_cons_cons]

theorem leads_join (sep : PyStr) {first : PyStr} (h : Leads first) (rest : List PyStr) :
    Leads (PyStr.join sep (first :: rest)) := by
  cases rest with
  | nil => simpa [PyStr.join] using h
  | cons second rest =>
      rw [join_cons_cons]
      exact h.append _

section Containers

variable {rt : Runtime} {style : Style} {room : Nat}

/-- The items of a written array, from the first one on. -/
theorem readItems_written (hstyle : style.Readable) (items : List Json) (hne : items ≠ [])
    (hwrites : ∀ v ∈ items, Writes style room v)
    (hfloat : ∀ v ∈ items, ∀ repr, v = .float repr → Leads (floatText repr))
    (hreads : ∀ v ∈ items, Rereads rt style v) (depth : Nat)
    (hdepth : ∀ v ∈ items, v.depth ≤ depth) (rest : PyStr) (fuel : Nat)
    (hfuel : 2 * (PyStr.join style.itemSeparator (items.map (textOf style room))).length < fuel) :
    readItems rt fuel depth
        (PyStr.join style.itemSeparator (items.map (textOf style room)) ++ cp ']' :: rest) =
      .ok (items.map (reread style), rest) := by
  induction items generalizing fuel with
  | nil => exact absurd rfl hne
  | cons v more ih =>
      obtain ⟨fuel, rfl⟩ := Nat.exists_eq_add_one_of_ne_zero
        (Nat.ne_of_gt (Nat.zero_lt_of_lt hfuel))
      rw [List.forall_mem_cons] at hwrites hfloat hreads hdepth
      have hread := hreads.1 room _ hwrites.1 fuel depth
      cases more with
      | nil =>
          rw [List.map_cons, List.map_nil, join_singleton] at hfuel ⊢
          exact readItems_last (hread _ (by omega) hdepth.1 (ends_delimiter (by simp) rest))
            (skipBlanks_cons (by decide) rest)
      | cons w more =>
          obtain ⟨gap, hgap, hblank⟩ := hstyle.item
          have hrest := ih (by simp) hwrites.2 hfloat.2 hreads.2 hdepth.2 fuel
          have hlead := leads_join style.itemSeparator (leads_write
            (hwrites.2 w List.mem_cons_self) (hfloat.2 w List.mem_cons_self))
            (more.map (textOf style room))
          rw [List.map_cons, List.map_cons, join_cons_cons, ← List.map_cons] at hfuel ⊢
          rw [← List.map_cons] at hlead
          generalize PyStr.join style.itemSeparator ((w :: more).map (textOf style room)) = tail
            at hfuel hrest hlead ⊢
          simp only [hgap, List.length_append, List.length_cons] at hfuel
          rw [hgap, List.append_assoc, List.append_assoc, List.cons_append]
          refine readItems_more (hread _ (by omega) hdepth.1 (ends_delimiter (by simp) _))
            (skipBlanks_cons (by decide) _) ?_
          rw [skipBlanks_gap hblank (hlead.append _)]
          exact hrest (by omega)

/-- The members of a written object, from the first key on. -/
theorem readFields_written (hstyle : style.Readable) (fields : List (PyStr × Json))
    (hne : fields ≠ []) (hwrites : ∀ field ∈ fields, Writes style room field.2)
    (hfloat : ∀ field ∈ fields, ∀ repr, field.2 = .float repr → Leads (floatText repr))
    (hreads : ∀ field ∈ fields, Rereads rt style field.2) (depth : Nat)
    (hdepth : ∀ field ∈ fields, field.2.depth ≤ depth) (rest : PyStr)
    (known : List (PyStr × Json)) (fuel : Nat)
    (hfuel : 2 * (PyStr.join style.itemSeparator (fields.map (member style room))).length < fuel) :
    readFields rt fuel depth known
        (PyStr.join style.itemSeparator (fields.map (member style room)) ++ cp '\x7d' :: rest) =
      .ok (assignAll known (fields.map fun field =>
        (rereadText style.ensureAscii field.1, reread style field.2)), rest) := by
  induction fields generalizing fuel known with
  | nil => exact absurd rfl hne
  | cons field more ih =>
      obtain ⟨fuel, rfl⟩ := Nat.exists_eq_add_one_of_ne_zero
        (Nat.ne_of_gt (Nat.zero_lt_of_lt hfuel))
      rw [List.forall_mem_cons] at hwrites hfloat hreads hdepth
      obtain ⟨keyGap, hkeyGap, hkeyBlank⟩ := hstyle.key
      have hread := hreads.1 room _ hwrites.1 fuel depth
      have hlead := leads_write hwrites.1 hfloat.1
      have hmember : ∀ tail, member style room field ++ tail = quote style.ensureAscii field.1 ++
          cp ':' :: (keyGap ++ (textOf style room field.2 ++ tail)) := by
        intro tail
        simp only [member, hkeyGap, List.append_assoc, List.cons_append]
      have hlength : (textOf style room field.2).length ≤ (member style room field).length := by
        simp only [member, List.length_append]
        omega
      cases more with
      | nil =>
          rw [List.map_cons, List.map_nil, join_singleton] at hfuel ⊢
          obtain ⟨after, hafter, hkey⟩ := readString_quote style.ensureAscii field.1
            (cp ':' :: (keyGap ++ (textOf style room field.2 ++ cp '\x7d' :: rest)))
          rw [hmember, hafter]
          refine readFields_last hkey (skipBlanks_cons (by decide) _) ?_
            (skipBlanks_cons (by decide) rest)
          rw [skipBlanks_gap hkeyBlank (hlead.append _)]
          exact hread _ (by omega) hdepth.1 (ends_delimiter (by simp) rest)
      | cons next more =>
          obtain ⟨gap, hgap, hblank⟩ := hstyle.item
          have hrest := ih (by simp) hwrites.2 hfloat.2 hreads.2 hdepth.2
            (Assoc.set known (rereadText style.ensureAscii field.1) (reread style field.2)) fuel
          have hnext : Leads (member style room next) :=
            ((leads_quote style.ensureAscii next.1).append _).append _
          have hjoined := leads_join style.itemSeparator hnext (more.map (member style room))
          rw [List.map_cons, List.map_cons, join_cons_cons, ← List.map_cons] at hfuel ⊢
          rw [← List.map_cons] at hjoined
          generalize PyStr.join style.itemSeparator ((next :: more).map (member style room)) = tail
            at hfuel hrest hjoined ⊢
          simp only [hgap, List.length_append, List.length_cons] at hfuel
          rw [hgap, List.append_assoc, List.append_assoc, List.cons_append, hmember]
          obtain ⟨after, hafter, hkey⟩ := readString_quote style.ensureAscii field.1
            (cp ':' :: (keyGap ++ (textOf style room field.2 ++
              cp ',' :: (gap ++ (tail ++ cp '\x7d' :: rest)))))
          have hvalue : read rt fuel depth (skipBlanks (keyGap ++ (textOf style room field.2 ++
              cp ',' :: (gap ++ (tail ++ cp '\x7d' :: rest))))) =
              .ok (reread style field.2, cp ',' :: (gap ++ (tail ++ cp '\x7d' :: rest))) := by
            rw [skipBlanks_gap hkeyBlank (hlead.append _)]
            exact hread _ (by omega) hdepth.1 (ends_delimiter (by simp) _)
          rw [hafter, readFields_more hkey (skipBlanks_cons (by decide) _) hvalue
            (skipBlanks_cons (by decide) _), skipBlanks_gap hblank (hjoined.append _)]
          exact hrest (by omega)

end Containers

section Members

variable {texts floats : PyStr → Bool} {ints : Int → Bool}

theorem allScalarsItems_iff (items : List Json) :
    Json.allScalarsItems texts floats ints items = true ↔
      ∀ v ∈ items, v.allScalars texts floats ints = true := by
  induction items with
  | nil => simp [Json.allScalarsItems]
  | cons v rest ih => simp [Json.allScalarsItems, ih]

theorem allScalarsFields_iff (fields : List (PyStr × Json)) :
    Json.allScalarsFields texts floats ints fields = true ↔
      ∀ field ∈ fields, texts field.1 = true ∧ field.2.allScalars texts floats ints = true := by
  induction fields with
  | nil => simp [Json.allScalarsFields]
  | cons field rest ih =>
      obtain ⟨k, v⟩ := field
      simp [Json.allScalarsFields, ih]

mutual

theorem allScalars_mono {texts' floats' : PyStr → Bool} {ints' : Int → Bool}
    (htexts : ∀ s, texts s = true → texts' s = true)
    (hfloats : ∀ repr, floats repr = true → floats' repr = true)
    (hints : ∀ n, ints n = true → ints' n = true) :
    (v : Json) → v.allScalars texts floats ints = true → v.allScalars texts' floats' ints' = true
  | .null, _ | .bool _, _ => rfl
  | .int n, h => hints n h
  | .float repr, h => hfloats repr h
  | .str s, h => htexts s h
  | .arr items, h => allScalarsItems_mono htexts hfloats hints items h
  | .obj fields, h => allScalarsFields_mono htexts hfloats hints fields h

theorem allScalarsItems_mono {texts' floats' : PyStr → Bool} {ints' : Int → Bool}
    (htexts : ∀ s, texts s = true → texts' s = true)
    (hfloats : ∀ repr, floats repr = true → floats' repr = true)
    (hints : ∀ n, ints n = true → ints' n = true) :
    (items : List Json) → Json.allScalarsItems texts floats ints items = true →
      Json.allScalarsItems texts' floats' ints' items = true
  | [], _ => rfl
  | v :: rest, h => by
      rw [Json.allScalarsItems, Bool.and_eq_true] at h ⊢
      exact ⟨allScalars_mono htexts hfloats hints v h.1,
        allScalarsItems_mono htexts hfloats hints rest h.2⟩

theorem allScalarsFields_mono {texts' floats' : PyStr → Bool} {ints' : Int → Bool}
    (htexts : ∀ s, texts s = true → texts' s = true)
    (hfloats : ∀ repr, floats repr = true → floats' repr = true)
    (hints : ∀ n, ints n = true → ints' n = true) :
    (fields : List (PyStr × Json)) → Json.allScalarsFields texts floats ints fields = true →
      Json.allScalarsFields texts' floats' ints' fields = true
  | [], _ => rfl
  | (k, v) :: rest, h => by
      rw [Json.allScalarsFields, Bool.and_eq_true, Bool.and_eq_true] at h ⊢
      exact ⟨⟨htexts k h.1.1, allScalars_mono htexts hfloats hints v h.1.2⟩,
        allScalarsFields_mono htexts hfloats hints rest h.2⟩

end

theorem depth_le_depthItems {items : List Json} {v : Json} (h : v ∈ items) :
    v.depth ≤ Json.depthItems items := by
  induction items with
  | nil => cases h
  | cons w rest ih =>
      rw [Json.depthItems]
      rcases List.mem_cons.mp h with rfl | h
      · exact Nat.le_max_left _ _
      · exact (ih h).trans (Nat.le_max_right _ _)

theorem depth_le_depthFields {fields : List (PyStr × Json)} {field : PyStr × Json}
    (h : field ∈ fields) : field.2.depth ≤ Json.depthFields fields := by
  induction fields with
  | nil => cases h
  | cons head rest ih =>
      obtain ⟨k, v⟩ := head
      rw [Json.depthFields]
      rcases List.mem_cons.mp h with rfl | h
      · exact Nat.le_max_left _ _
      · exact (ih h).trans (Nat.le_max_right _ _)

end Members

theorem join_nil (sep : PyStr) : PyStr.join sep [] = [] := by
  simp [PyStr.join]

theorem rereads_arr {rt : Runtime} {style : Style} (hstyle : style.Readable) {items : List Json}
    (hfloat : ∀ v ∈ items, ∀ repr, v = .float repr → Leads (floatText repr))
    (hreads : ∀ v ∈ items, Rereads rt style v) : Rereads rt style (.arr items) := by
  intro room text h fuel depth rest hfuel hdepth _
  obtain ⟨inner, rfl, hwrites, rfl⟩ := write_arr h
  rw [Json.depth] at hdepth
  obtain ⟨depth, rfl⟩ := Nat.exists_eq_add_of_le' (Nat.le_of_add_left_le hdepth)
  rw [List.length_cons, List.length_append, List.length_singleton] at hfuel
  obtain ⟨fuel, rfl⟩ : ∃ less, fuel = less + 1 := ⟨fuel - 1, by omega⟩
  have hopen : cp '[' ≠ cp '"' := by decide
  rw [List.cons_append, List.append_assoc, List.singleton_append]
  simp only [read, hopen, if_false, if_true]
  cases items with
  | nil =>
      rw [List.map_nil, join_nil, List.nil_append,
        skipBlanks_cons (by decide : isBlank (cp ']') = false)]
      rfl
  | cons v more =>
      have hread := readItems_written hstyle (v :: more) (by simp) hwrites hfloat hreads depth
        (fun w hw => (depth_le_depthItems hw).trans (by omega)) rest fuel (by omega)
      have hlead := (leads_join style.itemSeparator
        (leads_write (hwrites v List.mem_cons_self) (hfloat v List.mem_cons_self))
        (more.map (textOf style inner))).append (cp ']' :: rest)
      rw [← List.map_cons] at hlead
      rw [skipBlanks_of_leads hlead]
      obtain ⟨d, after, heq, -, hclose, -⟩ := hlead
      rw [heq] at hread ⊢
      simp only [hclose, if_false, hread, bind, Except.bind]
      rw [reread, rereadItems_eq_map]
      rfl

theorem rereads_obj {rt : Runtime} {style : Style} (hstyle : style.Readable)
    {fields : List (PyStr × Json)}
    (hfloat : ∀ field ∈ fields, ∀ repr, field.2 = .float repr → Leads (floatText repr))
    (hreads : ∀ field ∈ fields, Rereads rt style field.2) : Rereads rt style (.obj fields) := by
  intro room text h fuel depth rest hfuel hdepth _
  obtain ⟨inner, rfl, hwrites, rfl⟩ := write_obj h
  rw [Json.depth] at hdepth
  obtain ⟨depth, rfl⟩ := Nat.exists_eq_add_of_le' (Nat.le_of_add_left_le hdepth)
  rw [List.length_cons, List.length_append, List.length_singleton] at hfuel
  obtain ⟨fuel, rfl⟩ : ∃ less, fuel = less + 1 := ⟨fuel - 1, by omega⟩
  have hopen : cp '\x7b' ≠ cp '"' ∧ cp '\x7b' ≠ cp '[' := by decide
  rw [List.cons_append, List.append_assoc, List.singleton_append]
  simp only [read, hopen.1, hopen.2, if_false, if_true]
  have hreread : reread style (.obj fields) = .obj (assignAll [] ((inOrder style fields).map
      fun field => (rereadText style.ensureAscii field.1, reread style field.2))) := by
    rw [reread, rereadFields_eq_map, inOrder_map, List.map_map]
    rfl
  rw [hreread]
  cases hordered : inOrder style fields with
  | nil =>
      rw [List.map_nil, join_nil, List.nil_append,
        skipBlanks_cons (by decide : isBlank (cp '\x7d') = false)]
      rfl
  | cons first more =>
      have hall : ∀ field ∈ first :: more, field ∈ fields := by
        intro field hfield
        rw [← hordered] at hfield
        exact mem_inOrder.mp hfield
      have hread := readFields_written hstyle (first :: more) (by simp)
        (fun field hf => hwrites field (hall field hf))
        (fun field hf => hfloat field (hall field hf))
        (fun field hf => hreads field (hall field hf)) depth
        (fun field hf => (depth_le_depthFields (hall field hf)).trans (by omega)) rest [] fuel
        (by rw [hordered] at hfuel; omega)
      have hfirst : Leads (member style inner first) :=
        ((leads_quote style.ensureAscii first.1).append _).append _
      have hlead := (leads_join style.itemSeparator hfirst
        (more.map (member style inner))).append (cp '\x7d' :: rest)
      rw [← List.map_cons] at hlead
      rw [skipBlanks_of_leads hlead]
      obtain ⟨d, after, heq, -, -, hclose, -⟩ := hlead
      rw [heq] at hread ⊢
      simp only [hclose, if_false, hread, bind, Except.bind]
      rfl

theorem rereads_scalar {rt : Runtime} {style : Style} {v : Json} (hsame : reread style v = v)
    (h : ∀ room text, write style room v = .ok text →
      (∃ c after, text = c :: after ∧ c ≠ cp '"' ∧ c ≠ cp '[' ∧ c ≠ cp '\x7b') ∧
        ∀ rest, Ends rest → readScalar rt (text ++ rest) = .ok (v, rest)) :
    Rereads rt style v := by
  intro room text hwrite fuel depth rest hfuel _ hends
  obtain ⟨⟨c, after, rfl, hquote, harr, hobj⟩, hread⟩ := h room text hwrite
  rw [List.length_cons] at hfuel
  obtain ⟨fuel, rfl⟩ : ∃ less, fuel = less + 1 := ⟨fuel - 1, by omega⟩
  rw [hsame, ← hread rest hends, List.cons_append, read_scalar hquote harr hobj]

theorem readScalar_null (rt : Runtime) (rest : PyStr) :
    readScalar rt (py "null" ++ rest) = .ok (.null, rest) := by
  simp only [readScalar, literal?_append]

theorem readScalar_true (rt : Runtime) (rest : PyStr) :
    readScalar rt (py "true" ++ rest) = .ok (.bool true, rest) := by
  have hnull : literal? "null" (py "true" ++ rest) = none :=
    literal?_of_ne "null" rfl (by decide : cp 'n' ≠ cp 't') (py "rue" ++ rest)
  simp only [readScalar, hnull, literal?_append]

theorem readScalar_false (rt : Runtime) (rest : PyStr) :
    readScalar rt (py "false" ++ rest) = .ok (.bool false, rest) := by
  have hnull : literal? "null" (py "false" ++ rest) = none :=
    literal?_of_ne "null" rfl (by decide : cp 'n' ≠ cp 'f') (py "alse" ++ rest)
  have htrue : literal? "true" (py "false" ++ rest) = none :=
    literal?_of_ne "true" rfl (by decide : cp 't' ≠ cp 'f') (py "alse" ++ rest)
  simp only [readScalar, hnull, htrue, literal?_append]

theorem rereads_null (rt : Runtime) (style : Style) : Rereads rt style .null := by
  refine rereads_scalar rfl ?_
  intro room text h
  cases h
  exact ⟨⟨cp 'n', py "ull", rfl, by decide, by decide, by decide⟩,
    fun rest _ => readScalar_null rt rest⟩

theorem rereads_bool (rt : Runtime) (style : Style) (b : Bool) : Rereads rt style (.bool b) := by
  refine rereads_scalar rfl ?_
  intro room text h
  cases b with
  | true =>
      cases h
      exact ⟨⟨cp 't', py "rue", rfl, by decide, by decide, by decide⟩,
        fun rest _ => readScalar_true rt rest⟩
  | false =>
      cases h
      exact ⟨⟨cp 'f', py "alse", rfl, by decide, by decide, by decide⟩,
        fun rest _ => readScalar_false rt rest⟩

theorem rereads_int (rt : Runtime) (style : Style) (n : Int) : Rereads rt style (.int n) := by
  refine rereads_scalar rfl ?_
  intro room text h
  refine ⟨?_, fun rest hends => readScalar_int rt h hends⟩
  rw [write, intText] at h
  split at h
  · cases h
  · cases h
    cases n with
    | ofNat n =>
        obtain ⟨c, digits, heq, hd⟩ := ofNat_cons n
        exact ⟨c, digits, heq, (ne_of_isDigit hd rfl).symm, (ne_of_isDigit hd rfl).symm,
          (ne_of_isDigit hd rfl).symm⟩
    | negSucc n => exact ⟨cp '-', _, rfl, by decide, by decide, by decide⟩

theorem rereads_str (rt : Runtime) (style : Style) (s : PyStr) : Rereads rt style (.str s) := by
  intro room text h fuel depth rest hfuel _ _
  cases h
  obtain ⟨fuel, rfl⟩ : ∃ less, fuel = less + 1 := by
    refine ⟨fuel - 1, ?_⟩
    simp only [quote, List.length_append] at hfuel
    have hopen : (py "\"").length = 1 := rfl
    omega
  exact read_quote rt style.ensureAscii fuel depth s rest

/-- The spelling of a float that reads as the float, whatever ends it. -/
structure FloatText (rt : Runtime) (repr : PyStr) : Prop where
  leads : Leads (floatText repr)
  scalar : ∃ c after, floatText repr = c :: after ∧ c ≠ cp '"' ∧ c ≠ cp '[' ∧ c ≠ cp '\x7b'
  reads : ∀ rest, Ends rest → readScalar rt (floatText repr ++ rest) = .ok (.float repr, rest)

theorem rereads_float {rt : Runtime} {repr : PyStr} (h : FloatText rt repr) (style : Style) :
    Rereads rt style (.float repr) := by
  refine rereads_scalar rfl ?_
  intro room text hwrite
  cases hwrite
  exact ⟨h.scalar, h.reads⟩

section Floats

variable {rt : Runtime} {floats : PyStr → Bool}

/-- The floats of the value are among these. -/
abbrev FloatsAmong (floats : PyStr → Bool) (v : Json) : Prop :=
  v.allScalars (fun _ => true) floats (fun _ => true) = true

theorem leads_of_floats (hfloats : ∀ repr, floats repr = true → FloatText rt repr) {v : Json}
    (h : FloatsAmong floats v) (repr : PyStr) (heq : v = .float repr) : Leads (floatText repr) := by
  subst heq
  exact (hfloats repr h).leads

mutual

theorem rereads (hfloats : ∀ repr, floats repr = true → FloatText rt repr) {style : Style}
    (hstyle : style.Readable) : (v : Json) → FloatsAmong floats v → Rereads rt style v
  | .null, _ => rereads_null rt style
  | .bool b, _ => rereads_bool rt style b
  | .int n, _ => rereads_int rt style n
  | .float repr, h => rereads_float (hfloats repr h) style
  | .str s, _ => rereads_str rt style s
  | .arr items, h =>
      rereads_arr hstyle
        (fun v hv => leads_of_floats hfloats ((allScalarsItems_iff items).mp h v hv))
        (rereads_items hfloats hstyle items h)
  | .obj fields, h =>
      rereads_obj hstyle
        (fun field hf => leads_of_floats hfloats ((allScalarsFields_iff fields).mp h field hf).2)
        (rereads_fields hfloats hstyle fields h)

theorem rereads_items (hfloats : ∀ repr, floats repr = true → FloatText rt repr) {style : Style}
    (hstyle : style.Readable) : (items : List Json) →
      Json.allScalarsItems (fun _ => true) floats (fun _ => true) items = true →
        ∀ v ∈ items, Rereads rt style v
  | [], _ => by simp
  | v :: rest, h => by
      rw [Json.allScalarsItems, Bool.and_eq_true] at h
      rw [List.forall_mem_cons]
      exact ⟨rereads hfloats hstyle v h.1, rereads_items hfloats hstyle rest h.2⟩

theorem rereads_fields (hfloats : ∀ repr, floats repr = true → FloatText rt repr) {style : Style}
    (hstyle : style.Readable) : (fields : List (PyStr × Json)) →
      Json.allScalarsFields (fun _ => true) floats (fun _ => true) fields = true →
        ∀ field ∈ fields, Rereads rt style field.2
  | [], _ => by simp
  | (k, v) :: rest, h => by
      rw [Json.allScalarsFields, Bool.and_eq_true, Bool.and_eq_true] at h
      rw [List.forall_mem_cons]
      exact ⟨rereads hfloats hstyle v h.1.2, rereads_fields hfloats hstyle rest h.2⟩

end

theorem loads_dumps_of_floats (hfloats : ∀ repr, floats repr = true → FloatText rt repr)
    {style : Style} (hstyle : style.Readable) {v : Json} {text : PyStr} (h : FloatsAmong floats v)
    (hdepth : v.depth ≤ rt.loadsRoom) (hdumps : dumps rt style v = .ok text) :
    loads rt text = .ok (reread style v) := by
  have hlead := leads_write hdumps (leads_of_floats hfloats h)
  have hread := rereads hfloats hstyle v h _ text hdumps (2 * text.length + 1) rt.loadsRoom []
    (by omega) hdepth (fun c after heq => nomatch heq)
  rw [List.append_nil] at hread
  have hmark : ¬ PyStr.startsWith text [codePoint 0xFEFF] = true := by
    obtain ⟨c, after, rfl, -, -, -, hascii⟩ := hlead
    simp only [PyStr.startsWith, decide_eq_true_eq, List.cons_prefix_cons]
    rintro ⟨rfl, -⟩
    revert hascii
    decide
  rw [loads, if_neg hmark, skipBlanks_of_leads hlead, hread]
  rfl

end Floats

theorem loads_dumps {rt : Runtime} {style : Style} (hstyle : style.Readable) {v : Json}
    {text : PyStr} (hfloat : FloatFree v) (hdepth : v.depth ≤ rt.loadsRoom)
    (h : dumps rt style v = .ok text) : loads rt text = .ok (reread style v) := by
  have hnone : ∀ repr, (fun _ : PyStr => false) repr = true → FloatText rt repr :=
    fun _ h => nomatch h
  exact loads_dumps_of_floats hnone hstyle hfloat hdepth h

end SecureSdlc.Core.JsonText

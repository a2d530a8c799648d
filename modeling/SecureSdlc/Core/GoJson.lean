import SecureSdlc.Core.JsonGrammar

/-!
`encoding/json` of the Go standard library, as far as structs of strings need it: the
writer escapes HTML, the reader takes the first value it can of a string literal (U+FFFD
for what is no character), keeps a number by its literal, and stores the members of an
object in the fields of a struct, whose names match whatever their case.
-/

namespace SecureSdlc.Core.GoJson

open JsonText

/-- What is left of a byte sequence as runes, `skip` bytes of which belong to the last one;
a byte that starts no encoding is one U+FFFD. -/
def runesFrom : Nat → Bytes → PyStr
  | _, [] => []
  | skip + 1, _ :: rest => runesFrom skip rest
  | 0, b :: rest =>
      match Utf8.next false b rest with
      | (some c, width) => c :: runesFrom (width - 1) rest
      | (none, _) => codePoint 0xFFFD :: runesFrom 0 rest

def runes (data : Bytes) : PyStr := runesFrom 0 data

/-- A rune of a string literal, where those of `units` are written by their number. -/
def escapeBy (units : CodePoint → Bool) (c : CodePoint) : PyStr :=
  if c = cp '\\' ∨ c = cp '"' then [cp '\\', c]
  else if c.val = 0x08 then py "\\b"
  else if c.val = 0x0C then py "\\f"
  else if c.val = 0x0A then py "\\n"
  else if c.val = 0x0D then py "\\r"
  else if c.val = 0x09 then py "\\t"
  else if units c then escapeUnit c.val
  else [c]

def escapesHTML (c : CodePoint) : Bool :=
  decide (c.val < 0x20 ∨ c = cp '<' ∨ c = cp '>' ∨ c = cp '&' ∨ c.val = 0x2028 ∨ c.val = 0x2029)

/-- `appendString` with `escapeHTML`, for one rune. -/
def escapeRune : CodePoint → PyStr := escapeBy escapesHTML

def marshalString (s : PyStr) : PyStr := cp '"' :: (s.flatMap escapeRune ++ [cp '"'])

/-- A struct from its field names and the encodings of its fields. -/
def marshalStruct (members : List (PyStr × PyStr)) : PyStr :=
  cp '\x7b' :: (PyStr.join [cp ',']
    (members.map fun member => marshalString member.1 ++ cp ':' :: member.2) ++ [cp '\x7d'])

/-- How JSON is written: the quoting of a string, and the gap after a colon or a comma. -/
structure Writing where
  quote : PyStr → PyStr
  gap : PyStr

/-- An object from its keys and the texts of its values. -/
def Writing.object (w : Writing) (members : List (PyStr × PyStr)) : PyStr :=
  cp '\x7b' :: (PyStr.join (cp ',' :: w.gap)
    (members.map fun member => w.quote member.1 ++ cp ':' :: (w.gap ++ member.2)) ++ [cp '\x7d'])

/-- The writing of `json.Marshal`. -/
def marshalled : Writing := ⟨marshalString, []⟩

@[simp] theorem marshalled_quote (s : PyStr) : marshalled.quote s = marshalString s := rfl

@[simp] theorem marshalled_object (members : List (PyStr × PyStr)) :
    marshalled.object members = marshalStruct members := rfl

def encode (text : PyStr) : Bytes := text.flatMap PyStr.utf8Bytes

def maxNestingDepth : Nat := 10000

/-- A surrogate that is not part of a pair is no character. -/
def replaceSurrogate (c : CodePoint) : CodePoint :=
  if PyStr.isSurrogate c then codePoint 0xFFFD else c

/-- The characters of a string literal up to its closing quote. -/
def readText (s : PyStr) : Option (PyStr × PyStr) :=
  match readString (s.length + 1) s with
  | .ok (text, rest) => some (text.map replaceSurrogate, rest)
  | .error _ => none

/-- A number literal without its sign. -/
def readDigits (s : PyStr) : Option (PyStr × PyStr) :=
  match s with
  | [] => none
  | c :: rest =>
      if isDigit c then
        let whole := if c = cp '0' then [c] else s.takeWhile isDigit
        let after := if c = cp '0' then rest else s.dropWhile isDigit
        let (frac, after) := fraction after
        let (expo, after) := exponent after
        some (whole ++ frac ++ expo, after)
      else none

def readLiteral (s : PyStr) : Option (Json × PyStr) :=
  match literal? "null" s, literal? "true" s, literal? "false" s with
  | some rest, _, _ => some (.null, rest)
  | _, some rest, _ => some (.bool true, rest)
  | _, _, some rest => some (.bool false, rest)
  | none, none, none =>
      match s with
      | c :: rest =>
          if c = cp '-' then (readDigits rest).map fun number => (.float (c :: number.1), number.2)
          else (readDigits s).map fun number => (.float number.1, number.2)
      | [] => none

mutual

/-- One value at the head of the text; `depth` is what nesting is left to it. -/
def read : Nat → Nat → PyStr → Option (Json × PyStr)
  | 0, _, _ => none
  | _ + 1, _, [] => none
  | fuel + 1, depth, c :: rest =>
      if c = cp '"' then (readText rest).map fun text => (.str text.1, text.2)
      else if c = cp '[' then
        match depth with
        | 0 => none
        | depth + 1 =>
            match skipBlanks rest with
            | d :: after =>
                if d = cp ']' then some (.arr [], after)
                else (readItems fuel depth (d :: after)).map fun items => (.arr items.1, items.2)
            | [] => none
      else if c = cp '\x7b' then
        match depth with
        | 0 => none
        | depth + 1 =>
            match skipBlanks rest with
            | d :: after =>
                if d = cp '\x7d' then some (.obj [], after)
                else (readMembers fuel depth (d :: after)).map fun members =>
                  (.obj members.1, members.2)
            | [] => none
      else readLiteral (c :: rest)

/-- The items of an array from the first one on, with its closing bracket. -/
def readItems : Nat → Nat → PyStr → Option (List Json × PyStr)
  | 0, _, _ => none
  | fuel + 1, depth, s => do
      let (v, rest) ← read fuel depth s
      match skipBlanks rest with
      | c :: after =>
          if c = cp ']' then some ([v], after)
          else if c = cp ',' then do
            let (vs, rest) ← readItems fuel depth (skipBlanks after)
            some (v :: vs, rest)
          else none
      | [] => none

/-- The members of an object from the first key on, with its closing brace. -/
def readMembers : Nat → Nat → PyStr → Option (List (PyStr × Json) × PyStr)
  | 0, _, _ => none
  | _ + 1, _, [] => none
  | fuel + 1, depth, c :: rest =>
      if c = cp '"' then do
        let (key, rest) ← readText rest
        match skipBlanks rest with
        | colon :: after =>
            if colon = cp ':' then do
              let (v, rest) ← read fuel depth (skipBlanks after)
              match skipBlanks rest with
              | d :: after =>
                  if d = cp '\x7d' then some ([(key, v)], after)
                  else if d = cp ',' then do
                    let (members, rest) ← readMembers fuel depth (skipBlanks after)
                    some ((key, v) :: members, rest)
                  else none
              | [] => none
            else none
        | [] => none
      else none

end

/-- The value of a whole document; every member of an object is kept. -/
def parse (text : PyStr) : Option Json :=
  match read (2 * text.length + 1) maxNestingDepth (skipBlanks text) with
  | some (v, rest) => if skipBlanks rest = [] then some v else none
  | none => none

section Structs

/-- The least rune of those that differ in case, if one of them is an ASCII letter. -/
def foldRune (c : CodePoint) : CodePoint :=
  if 97 ≤ c.val ∧ c.val ≤ 122 then codePoint (c.val - 32)
  else if c.val = 0x17F then cp 'S'
  else if c.val = 0x212A then cp 'K'
  else c

def foldName (name : PyStr) : PyStr := name.map foldRune

/-- The fields of a struct: the name of each, and how a value is stored in it. -/
abbrev Fields (α : Type) := List (PyStr × (α → Json → Option α))

/-- The field a member is stored in: the one of its name, or one that differs in case. -/
def fieldIndex (names : List PyStr) (key : PyStr) : Option Nat :=
  (names.findIdx? fun name => decide (name = key)).or
    (names.findIdx? fun name => decide (foldName name = foldName key))

/-- Unknown members are left out. -/
def storeMember {α : Type} (fields : Fields α) (x : α) (member : PyStr × Json) : Option α :=
  match (fieldIndex (fields.map Prod.fst) member.1).bind fun i => fields[i]? with
  | some field => field.2 x member.2
  | none => some x

/-- Store a value in a struct; `none` when it is of another type. -/
def storeStruct {α : Type} (fields : Fields α) (x : α) : Json → Option α
  | .obj members => members.foldlM (storeMember fields) x
  | .null => some x
  | _ => none

def goString (s : PyStr) : String := String.ofList (s.map fun c => Char.ofNat c.val)

/-- Store a value in a string. -/
def storeString (old : String) : Json → Option String
  | .str s => some (goString s)
  | .null => some old
  | _ => none

/-- A field that holds a string. -/
def stringField {α : Type} (name : String) (get : α → String) (put : α → String → α) :
    PyStr × (α → Json → Option α) :=
  (py name, fun x v => (storeString (get x) v).map (put x))

/-- A field that holds a struct. -/
def structField {α β : Type} (name : String) (fields : Fields β) (get : α → β)
    (put : α → β → α) : PyStr × (α → Json → Option α) :=
  (py name, fun x v => (storeStruct fields (get x) v).map (put x))

/-- `json.Unmarshal(data, &x)` into a struct; `none` is an error. -/
def unmarshal {α : Type} (fields : Fields α) (zero : α) (data : Bytes) : Option α :=
  (parse (runes data)).bind (storeStruct fields zero)

end Structs

section Runes

/-- Text without surrogates, such as Go strings hold. -/
def Scalars (s : PyStr) : Prop := ∀ c ∈ s, PyStr.isSurrogate c = false

theorem runesFrom_skip (front rest : Bytes) :
    runesFrom front.length (front ++ rest) = runesFrom 0 rest := by
  induction front with
  | nil => rfl
  | cons b front ih => exact ih

/-- Encoded runes are decoded again. -/
theorem runes_encode {s : PyStr} (h : Scalars s) : runes (encode s) = s := by
  rw [runes, encode]
  induction s with
  | nil => rfl
  | cons c s ih =>
      rw [Scalars, List.forall_mem_cons] at h
      obtain ⟨b, more, hbytes, hnext⟩ := Utf8.next_utf8Bytes h.1 (s.flatMap PyStr.utf8Bytes)
      rw [List.flatMap_cons, hbytes, List.cons_append, runesFrom, hnext]
      dsimp only
      rw [Nat.add_sub_cancel, runesFrom_skip, ih h.2]

theorem val_cp (c : Char) : (cp c).val = c.toNat := by
  have hvalid := c.valid
  have hlt : c.toNat < 0x110000 := by
    rcases hvalid with h | h
    · exact Nat.lt_trans h (by decide)
    · exact h.2
  exact Nat.mod_eq_of_lt hlt

theorem scalars_py (s : String) : Scalars (py s) := by
  intro c hc
  obtain ⟨d, -, rfl⟩ := List.mem_map.mp hc
  have hvalid := d.valid
  have hval := val_cp d
  have hrange : d.toNat < 0xD800 ∨ 0xDFFF < d.toNat := by
    rcases hvalid with h | h
    · exact .inl h
    · exact .inr h.1
  simp only [PyStr.isSurrogate, Bool.and_eq_false_iff, decide_eq_false_iff_not]
  omega

theorem goString_py (s : String) : goString (py s) = s := by
  have hchar : ∀ c : Char, Char.ofNat (cp c).val = c := by
    intro c
    rw [val_cp, Char.ofNat_toNat]
  rw [goString, py, List.map_map]
  have hsame : (s.toList.map ((fun c => Char.ofNat c.val) ∘ cp)) = s.toList := by
    refine (List.map_congr_left fun c _ => hchar c).trans (List.map_id _)
  rw [hsame, String.ofList_toList]

theorem length_goString (s : PyStr) : (goString s).toList.length = s.length := by
  rw [goString, String.toList_ofList, List.length_map]

theorem replaceSurrogate_scalars {s : PyStr} (h : Scalars s) : s.map replaceSurrogate = s := by
  refine (List.map_congr_left fun c hc => ?_).trans (List.map_id _)
  rw [replaceSurrogate, h c hc, if_neg Bool.false_ne_true]
  rfl

end Runes

section Writing

/-- The runes below the space are among those written by their number, the surrogates and
those beyond are not. -/
def Units (units : CodePoint → Bool) : Prop :=
  ∀ c, (c.val < 0x20 → units c = true) ∧ (units c = true → c.val < 0xD800)

theorem units_escapesHTML : Units escapesHTML := by
  intro c
  refine ⟨fun hlow => decide_eq_true (.inl hlow), fun hunit => ?_⟩
  rcases of_decide_eq_true hunit with hc | rfl | rfl | rfl | hc | hc
  · omega
  · decide
  · decide
  · decide
  · omega
  · omega

section Escapes

variable {units : CodePoint → Bool} (hunits : Units units)

include hunits

/-- What a rune is written as is read as that rune. -/
theorem stringBody_cons {c : CodePoint} {text s : PyStr} (h : StringBody text s) :
    StringBody (escapeBy units c ++ text) (c :: s) := by
  have hshort : ∀ {n : Nat} {e : CodePoint}, c.val = n → simpleEscape e = some (codePoint n) →
      e ≠ cp 'u' → StringBody (cp '\\' :: e :: text) (c :: s) := by
    intro n e hc he hunit
    rw [← hc, codePoint_val] at he
    exact .short he hunit h
  rw [escapeBy]
  split
  · rename_i hmark
    rcases hmark with rfl | rfl
    · exact .short rfl (by decide) h
    · exact .short rfl (by decide) h
  rename_i hmark
  rw [not_or] at hmark
  split
  · exact hshort (by assumption) rfl (by decide)
  split
  · exact hshort (by assumption) rfl (by decide)
  split
  · exact hshort (by assumption) rfl (by decide)
  split
  · exact hshort (by assumption) rfl (by decide)
  split
  · exact hshort (by assumption) rfl (by decide)
  split
  · rename_i hunit
    have hlow := (hunits c).2 hunit
    have halone : lowHalf c.val text = .ok (codePoint c.val, text) :=
      lowHalf_of_not_high (by omega) text
    have hdigits := hex4_hexDigits (by omega : c.val < 0x10000) []
    rw [List.append_nil] at hdigits
    have hbody := StringBody.unit hdigits halone h
    rw [codePoint_val] at hbody
    exact hbody
  · rename_i hunit
    have hhigh : 0x20 ≤ c.val := Nat.not_lt.mp fun hlow => hunit ((hunits c).1 hlow)
    exact .plain hhigh hmark.2 hmark.1 h

theorem stringBody_escaped (s : PyStr) : StringBody (s.flatMap (escapeBy units) ++ [cp '"']) s := by
  induction s with
  | nil => exact .close
  | cons c s ih =>
      rw [List.flatMap_cons, List.append_assoc]
      exact stringBody_cons hunits ih

theorem readText_escaped {s : PyStr} (h : Scalars s) (rest : PyStr) :
    readText (s.flatMap (escapeBy units) ++ [cp '"'] ++ rest) = some (s, rest) := by
  have hread := (stringBody_escaped hunits s).reads
    (by simp only [List.length_append]; omega :
      _ ≤ (s.flatMap (escapeBy units) ++ [cp '"'] ++ rest).length + 1) rest
  rw [readText, hread]
  dsimp only
  rw [replaceSurrogate_scalars h]

end Escapes

/-- A text is read as a value, whatever follows it. -/
structure Spells (depth : Nat) (text : PyStr) (v : Json) : Prop where
  leads : Leads text
  reads : ∀ fuel rest, text.length ≤ fuel → read fuel depth (text ++ rest) = some (v, rest)

/-- What is written is read: the strings by their quoting, the gaps as blanks. -/
structure Writing.Legible (w : Writing) : Prop where
  blank : ∀ c ∈ w.gap, isBlank c = true
  quoted : ∀ s, Scalars s → ∃ body, w.quote s = cp '"' :: body ∧
    ∀ rest, readText (body ++ rest) = some (s, rest)

theorem marshalled_legible : marshalled.Legible where
  blank := List.forall_mem_nil _
  quoted s h := ⟨s.flatMap escapeRune ++ [cp '"'], rfl, readText_escaped units_escapesHTML h⟩

/-- A member of an object with the value that its text is read as. -/
structure Member where
  name : PyStr
  text : PyStr
  value : Json

def Member.spelt (w : Writing) (m : Member) : PyStr :=
  w.quote m.name ++ cp ':' :: (w.gap ++ m.text)

section Objects

variable {w : Writing} (hw : w.Legible)

include hw

theorem spells_quote {s : PyStr} (h : Scalars s) (depth : Nat) :
    Spells depth (w.quote s) (.str s) := by
  obtain ⟨body, hquote, hread⟩ := hw.quoted s h
  rw [hquote]
  refine ⟨⟨cp '"', _, rfl, by decide, by decide⟩, ?_⟩
  intro fuel rest hfuel
  rw [List.length_cons] at hfuel
  obtain ⟨fuel, rfl⟩ : ∃ less, fuel = less + 1 := ⟨fuel - 1, by omega⟩
  simp only [List.cons_append, read, if_true, hread]
  rfl

theorem skipBlanks_spelt {depth : Nat} {text : PyStr} {v : Json} (h : Spells depth text v)
    (rest : PyStr) : skipBlanks (w.gap ++ text ++ rest) = text ++ rest := by
  rw [List.append_assoc]
  exact skipBlanks_gap hw.blank (h.leads.append rest)

theorem readMembers_last {fuel depth : Nat} {m : Member} (hname : Scalars m.name)
    (hspells : Spells depth m.text m.value) {s rest : PyStr} (hfuel : m.text.length ≤ fuel)
    (hs : s = m.spelt w ++ cp '\x7d' :: rest) :
    readMembers (fuel + 1) depth s = some ([(m.name, m.value)], rest) := by
  have hclose : isBlank (cp '\x7d') = false := rfl
  have hcolon : isBlank (cp ':') = false := rfl
  have hskip := skipBlanks_spelt hw hspells (cp '\x7d' :: rest)
  have hread := hspells.reads fuel (cp '\x7d' :: rest) hfuel
  obtain ⟨body, hquote, htext⟩ := hw.quoted m.name hname
  rw [hs, Member.spelt, hquote, List.append_assoc, List.cons_append, readMembers, if_pos rfl, htext]
  simp only [Option.bind_eq_bind, Option.bind_some, List.cons_append, skipBlanks_cons hcolon,
    if_true, hskip, hread, skipBlanks_cons hclose]

theorem readMembers_more {fuel depth : Nat} {m : Member} (hname : Scalars m.name)
    (hspells : Spells depth m.text m.value) {s more rest : PyStr}
    {members : List (PyStr × Json)} (hfuel : m.text.length ≤ fuel)
    (hs : s = m.spelt w ++ cp ',' :: more)
    (hmore : readMembers fuel depth (skipBlanks more) = some (members, rest)) :
    readMembers (fuel + 1) depth s = some ((m.name, m.value) :: members, rest) := by
  have hcomma : isBlank (cp ',') = false := rfl
  have hcolon : isBlank (cp ':') = false := rfl
  have hne : cp ',' ≠ cp '\x7d' := by decide
  have hskip := skipBlanks_spelt hw hspells (cp ',' :: more)
  have hread := hspells.reads fuel (cp ',' :: more) hfuel
  obtain ⟨body, hquote, htext⟩ := hw.quoted m.name hname
  rw [hs, Member.spelt, hquote, List.append_assoc, List.cons_append, readMembers, if_pos rfl, htext]
  simp only [Option.bind_eq_bind, Option.bind_some, List.cons_append, skipBlanks_cons hcolon,
    if_true, hskip, hread, skipBlanks_cons hcomma, hne, if_false, hmore]

theorem leads_spelt {m : Member} (hname : Scalars m.name) : Leads (m.spelt w) := by
  obtain ⟨body, hquote, -⟩ := hw.quoted m.name hname
  rw [Member.spelt, hquote]
  exact ⟨cp '"', _, rfl, by decide, by decide⟩

omit hw in
theorem Member.length_text (m : Member) : m.text.length < (m.spelt w).length := by
  rw [Member.spelt, List.length_append, List.length_cons, List.length_append]
  omega

theorem readMembers_all {depth : Nat} {members : List Member} (hne : members ≠ [])
    (hnames : ∀ m ∈ members, Scalars m.name) (hspells : ∀ m ∈ members, Spells depth m.text m.value)
    (rest : PyStr) {fuel : Nat}
    (hfuel : (PyStr.join (cp ',' :: w.gap) (members.map (Member.spelt w))).length < fuel) :
    readMembers fuel depth
        (PyStr.join (cp ',' :: w.gap) (members.map (Member.spelt w)) ++ cp '\x7d' :: rest) =
      some (members.map fun m => (m.name, m.value), rest) := by
  induction members generalizing fuel with
  | nil => exact absurd rfl hne
  | cons m more ih =>
      obtain ⟨fuel, rfl⟩ : ∃ less, fuel = less + 1 := ⟨fuel - 1, by omega⟩
      rw [List.forall_mem_cons] at hnames hspells
      have hlength := m.length_text (w := w)
      cases more with
      | nil =>
          rw [List.map_cons, List.map_nil, join_singleton] at hfuel ⊢
          exact readMembers_last hw hnames.1 hspells.1 (by omega) rfl
      | cons next more =>
          have hjoined := (leads_join (cp ',' :: w.gap)
            (leads_spelt hw (hnames.2 next List.mem_cons_self)) (more.map (Member.spelt w))).append
            (cp '\x7d' :: rest)
          rw [List.map_cons, List.map_cons, join_cons_cons, ← List.map_cons] at hfuel ⊢
          rw [← List.map_cons] at hjoined
          simp only [List.length_append, List.length_cons] at hfuel
          refine readMembers_more hw hnames.1 hspells.1 (by omega)
            (by rw [List.append_assoc, List.append_assoc, List.cons_append]) ?_
          rw [skipBlanks_gap hw.blank hjoined]
          exact ih (by simp) hnames.2 hspells.2 (by omega)

theorem spells_object {depth : Nat} (members : List Member)
    (hnames : ∀ m ∈ members, Scalars m.name)
    (hspells : ∀ m ∈ members, Spells depth m.text m.value) :
    Spells (depth + 1) (w.object (members.map fun m => (m.name, m.text)))
      (.obj (members.map fun m => (m.name, m.value))) := by
  have hspelt : ((members.map fun m => (m.name, m.text)).map fun member =>
      w.quote member.1 ++ cp ':' :: (w.gap ++ member.2)) = members.map (Member.spelt w) := by
    rw [List.map_map]
    rfl
  have hquote : cp '\x7b' ≠ cp '"' := by decide
  have harr : cp '\x7b' ≠ cp '[' := by decide
  have hclose : isBlank (cp '\x7d') = false := rfl
  rw [Writing.object, hspelt]
  refine ⟨⟨cp '\x7b', _, rfl, by decide, by decide⟩, ?_⟩
  intro fuel rest hfuel
  rw [List.length_cons, List.length_append, List.length_singleton] at hfuel
  obtain ⟨fuel, rfl⟩ : ∃ less, fuel = less + 1 := ⟨fuel - 1, by omega⟩
  rw [List.cons_append, List.append_assoc, List.singleton_append]
  cases members with
  | nil =>
      simp only [List.map_nil, join_nil, List.nil_append, read, hquote, harr, if_false, if_true,
        skipBlanks_cons hclose]
  | cons m more =>
      have hread := readMembers_all hw (List.cons_ne_nil m more) hnames hspells rest
        (by omega : _ < fuel)
      have hlead := (leads_join (cp ',' :: w.gap) (leads_spelt hw (hnames m List.mem_cons_self))
        (more.map (Member.spelt w))).append (cp '\x7d' :: rest)
      rw [← List.map_cons] at hlead
      have hskip := skipBlanks_of_leads hlead
      obtain ⟨d, after, heq, -, -, hd, -⟩ := hlead
      rw [heq] at hread hskip
      simp only [heq, read, hquote, harr, if_false, if_true, hskip, hd, hread]
      rfl

end Objects

/-- A document that is spelt within the nesting bound is parsed. -/
theorem parse_of_spells {text : PyStr} {v : Json} (h : Spells maxNestingDepth text v) :
    parse text = some v := by
  have hread := h.reads (2 * text.length + 1) [] (by omega)
  rw [List.append_nil] at hread
  rw [parse, skipBlanks_of_leads h.leads, hread]
  rfl

end Writing

section Characters

theorem scalars_append {s t : PyStr} (hs : Scalars s) (ht : Scalars t) : Scalars (s ++ t) :=
  List.forall_mem_append.mpr ⟨hs, ht⟩

theorem scalars_cons {c : CodePoint} {s : PyStr} (hc : PyStr.isSurrogate c = false)
    (hs : Scalars s) : Scalars (c :: s) :=
  List.forall_mem_cons.mpr ⟨hc, hs⟩

theorem scalars_of_printable {s : PyStr} (h : Printable s) : Scalars s := by
  intro c hc
  have hrange := h c hc
  simp only [PyStr.isSurrogate, Bool.and_eq_false_iff, decide_eq_false_iff_not]
  omega

theorem scalars_escapeBy (units : CodePoint → Bool) {c : CodePoint}
    (h : PyStr.isSurrogate c = false) : Scalars (escapeBy units c) := by
  rw [escapeBy]
  split
  · exact scalars_cons rfl (scalars_cons h fun _ hd => nomatch hd)
  iterate 5
    split
    · exact scalars_py _
  split
  · exact scalars_of_printable (printable_escapeUnit _)
  · exact scalars_cons h fun _ hd => nomatch hd

theorem scalars_escaped (units : CodePoint → Bool) {s : PyStr} (h : Scalars s) :
    Scalars (cp '"' :: (s.flatMap (escapeBy units) ++ [cp '"'])) := by
  refine scalars_cons rfl (scalars_append ?_ (scalars_cons rfl fun _ hd => nomatch hd))
  intro c hc
  obtain ⟨d, hd, hc⟩ := List.mem_flatMap.mp hc
  exact scalars_escapeBy units (h d hd) c hc

theorem scalars_marshalString {s : PyStr} (h : Scalars s) : Scalars (marshalString s) :=
  scalars_escaped escapesHTML h

theorem scalars_join {sep : PyStr} (hsep : Scalars sep) {parts : List PyStr}
    (h : ∀ part ∈ parts, Scalars part) : Scalars (PyStr.join sep parts) := by
  induction parts with
  | nil => rw [join_nil]; exact fun _ hd => nomatch hd
  | cons first rest ih =>
      rw [List.forall_mem_cons] at h
      cases rest with
      | nil => rw [join_singleton]; exact h.1
      | cons second rest =>
          rw [join_cons_cons]
          exact scalars_append h.1 (scalars_append hsep (ih h.2))

theorem scalars_object {w : Writing} (hgap : Scalars w.gap)
    (hquote : ∀ s, Scalars s → Scalars (w.quote s)) {members : List (PyStr × PyStr)}
    (h : ∀ member ∈ members, Scalars member.1 ∧ Scalars member.2) :
    Scalars (w.object members) := by
  refine scalars_cons rfl (scalars_append (scalars_join (scalars_cons rfl hgap) ?_)
    (scalars_cons rfl fun _ hd => nomatch hd))
  intro part hpart
  obtain ⟨member, hmember, rfl⟩ := List.mem_map.mp hpart
  obtain ⟨hname, htext⟩ := h member hmember
  exact scalars_append (hquote _ hname) (scalars_cons rfl (scalars_append hgap htext))

theorem scalars_marshalStruct {members : List (PyStr × PyStr)}
    (h : ∀ member ∈ members, Scalars member.1 ∧ Scalars member.2) :
    Scalars (marshalStruct members) :=
  scalars_object (w := marshalled) (List.forall_mem_nil _) (fun _ => scalars_marshalString) h

end Characters

section Storing

variable {α : Type} {fields : Fields α}

theorem storeMember_at {x : α} {key : PyStr} {v : Json} {i : Nat}
    {field : PyStr × (α → Json → Option α)}
    (hindex : fieldIndex (fields.map Prod.fst) key = some i) (hfield : fields[i]? = some field) :
    storeMember fields x (key, v) = field.2 x v := by
  rw [storeMember, hindex, Option.bind_some, hfield]

theorem storeMember_string {x : α} {key : PyStr} {s : String} {i : Nat} {name : String}
    {get : α → String} {put : α → String → α}
    (hindex : fieldIndex (fields.map Prod.fst) key = some i)
    (hfield : fields[i]? = some (stringField name get put)) :
    storeMember fields x (key, .str (py s)) = some (put x s) := by
  have hstored : storeString (get x) (.str (py s)) = some s := by
    rw [storeString, goString_py]
  rw [storeMember_at hindex hfield, stringField]
  dsimp only
  rw [hstored, Option.map_some]

theorem storeMember_struct {β : Type} {x : α} {key : PyStr} {v : Json} {i : Nat} {name : String}
    {inner : Fields β} {get : α → β} {put : α → β → α} {y : β}
    (hindex : fieldIndex (fields.map Prod.fst) key = some i)
    (hfield : fields[i]? = some (structField name inner get put))
    (hstored : storeStruct inner (get x) v = some y) :
    storeMember fields x (key, v) = some (put x y) := by
  rw [storeMember_at hindex hfield, structField]
  dsimp only
  rw [hstored, Option.map_some]

theorem storeMember_unknown {x : α} {key : PyStr} {v : Json}
    (hindex : fieldIndex (fields.map Prod.fst) key = none) :
    storeMember fields x (key, v) = some x := by
  rw [storeMember, hindex, Option.bind_none]

theorem storeMembers_unknown {x : α} {members : List (PyStr × Json)}
    (h : ∀ m ∈ members, fieldIndex (fields.map Prod.fst) m.1 = none) :
    members.foldlM (storeMember fields) x = some x := by
  induction members with
  | nil => rfl
  | cons m rest ih =>
      rw [List.forall_mem_cons] at h
      rw [List.foldlM_cons, storeMember_unknown h.1, Option.bind_eq_bind, Option.bind_some, ih h.2]

end Storing

end SecureSdlc.Core.GoJson

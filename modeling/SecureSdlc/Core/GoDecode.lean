import SecureSdlc.Core.GoJson

/-!
`json.Decoder` over a body that is cut off at a limit: the first value of the stream is
decoded, what follows it is not read, and a member that the struct has no field for is an
error. `json.Encoder` ends what it writes with a line break.
-/

namespace SecureSdlc.Core.GoJson

open JsonText

section Decoding

/-- `DisallowUnknownFields`. -/
def storeKnown {α : Type} (fields : Fields α) (x : α) (member : PyStr × Json) : Option α :=
  match (fieldIndex (fields.map Prod.fst) member.1).bind fun i => fields[i]? with
  | some field => field.2 x member.2
  | none => none

/-- Store a value in a struct of plain fields, all of whose members must be known. -/
def storeClosed {α : Type} (fields : Fields α) (x : α) : Json → Option α
  | .obj members => members.foldlM (storeKnown fields) x
  | .null => some x
  | _ => none

/-- An object or an array shows its own end; that of a literal shows in what follows it. -/
def endsItself : Json → Bool
  | .obj _ | .arr _ => true
  | _ => false

/-- `decoder.Decode(&x)` over `http.MaxBytesReader(w, body, limit)`; `none` is an error. -/
def decodeWithin {α : Type} (limit : Nat) (fields : Fields α) (zero : α) (body : Bytes) :
    Option α :=
  let text := runes (body.take limit)
  match read (2 * text.length + 1) maxNestingDepth (skipBlanks text) with
  | some (v, rest) =>
      if rest = [] ∧ limit < body.length ∧ endsItself v = false then none
      else storeClosed fields zero v
  | none => none

/-- A body within the limit that is one document, with any space around it. -/
theorem decodeWithin_of_parse {α : Type} {limit : Nat} (fields : Fields α) (zero : α)
    {body : Bytes} {v : Json} (hlimit : body.length ≤ limit)
    (hparse : parse (runes body) = some v) :
    decodeWithin limit fields zero body = storeClosed fields zero v := by
  rw [parse] at hparse
  rw [decodeWithin, List.take_of_length_le hlimit]
  cases hread : read (2 * (runes body).length + 1) maxNestingDepth (skipBlanks (runes body)) with
  | none => simp only [hread, reduceCtorEq] at hparse
  | some pair =>
      obtain ⟨w, rest⟩ := pair
      simp only [hread] at hparse
      split at hparse
      · cases hparse
        exact if_neg fun hcut => absurd hcut.2.1 (Nat.not_lt.mpr hlimit)
      · cases hparse

/-- The text of a value, empty where there is none. -/
def textOf : Json → String
  | .str s => goString s
  | _ => ""

theorem storeKnown_text {α : Type} {fields : Fields α} {x : α} {key : PyStr} {v : Json} {i : Nat}
    {name : String} {get : α → String} {put : α → String → α}
    (hindex : fieldIndex (fields.map Prod.fst) key = some i)
    (hfield : fields[i]? = some (stringField name get put)) (htext : ∃ s, v = .str s) :
    storeKnown fields x (key, v) = some (put x (textOf v)) := by
  obtain ⟨s, rfl⟩ := htext
  rw [storeKnown, hindex, Option.bind_some, hfield]
  rfl

/-- An object whose members are all stored is stored member by member. -/
theorem storeClosed_of_known {α : Type} {fields : Fields α} {put : α → PyStr × Json → α}
    {members : List (PyStr × Json)}
    (h : ∀ m ∈ members, ∀ x, storeKnown fields x m = some (put x m)) (x : α) :
    storeClosed fields x (.obj members) = some (members.foldl put x) := by
  rw [storeClosed]
  induction members generalizing x with
  | nil => rfl
  | cons m rest ih =>
      rw [List.forall_mem_cons] at h
      rw [List.foldlM_cons, h.1 x, Option.bind_eq_bind, Option.bind_some, ih h.2, List.foldl_cons]

end Decoding

section Encoding

/-- `json.NewEncoder(w).Encode(body)`, of a body that is marshalled as `text`. -/
def encoded (text : PyStr) : Bytes := encode (text ++ [cp '\n'])

/-- A slice from the encodings of its items; one that is not nil. -/
def marshalSlice (items : List PyStr) : PyStr :=
  cp '[' :: (PyStr.join [cp ','] items ++ [cp ']'])

theorem readItems_last {fuel depth : Nat} {text : PyStr} {v : Json} (h : Spells depth text v)
    (rest : PyStr) (hfuel : text.length ≤ fuel) :
    readItems (fuel + 1) depth (text ++ cp ']' :: rest) = some ([v], rest) := by
  have hclose : isBlank (cp ']') = false := rfl
  rw [readItems, h.reads fuel (cp ']' :: rest) hfuel]
  simp only [Option.bind_eq_bind, Option.bind_some, skipBlanks_cons hclose, if_true]

theorem readItems_more {fuel depth : Nat} {text more rest : PyStr} {v : Json} {vs : List Json}
    (h : Spells depth text v) (hfuel : text.length ≤ fuel) (hlead : Leads more)
    (hmore : readItems fuel depth more = some (vs, rest)) :
    readItems (fuel + 1) depth (text ++ cp ',' :: more) = some (v :: vs, rest) := by
  have hcomma : isBlank (cp ',') = false := rfl
  have hne : cp ',' ≠ cp ']' := by decide
  rw [readItems, h.reads fuel (cp ',' :: more) hfuel]
  simp only [Option.bind_eq_bind, Option.bind_some, skipBlanks_cons hcomma, hne, if_false, if_true,
    skipBlanks_of_leads hlead, hmore]

end Encoding

end SecureSdlc.Core.GoJson

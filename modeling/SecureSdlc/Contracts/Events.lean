import SecureSdlc.Contracts.Schemas
import SecureSdlc.Core.JsonText
import SecureSdlc.Core.Uuid
import Mathlib.Tactic.IntervalCases

/-!
The event schemas under `contracts/events`. A validator may take `format` for an
annotation; here it is asserted, which leaves fewer documents valid.
-/

namespace SecureSdlc.Contracts

open Core GoText

def isHex (c : CodePoint) : Bool := (JsonText.hexValue c).isSome

/-- Hexadecimal digits and hyphens from position `i` on. -/
def isUuidFrom : Nat → PyStr → Bool
  | i, [] => decide (i = 36)
  | i, c :: rest =>
      (if i = 8 ∨ i = 13 ∨ i = 18 ∨ i = 23 then decide (c = cp '-') else isHex c) &&
        isUuidFrom (i + 1) rest

/-- `"format": "uuid"` -/
def isUuid : PyStr → Bool := isUuidFrom 0

/-- The number that `n` digits stand for, and the text after them. -/
def readNumber (n : Nat) (s : PyStr) : Option (Nat × PyStr) :=
  if digits n (s.take n) then some (JsonText.digitsValue (s.take n), s.drop n) else none

def readMark (marks : List CodePoint) : PyStr → Option PyStr
  | c :: rest => if marks.contains c then some rest else none
  | [] => none

/-- `Z`, or the hours and minutes from UTC. -/
def isOffset (s : PyStr) : Bool :=
  decide (s = [cp 'Z'] ∨ s = [cp 'z']) ||
    (do let s ← readMark [cp '+', cp '-'] s
        let (hour, s) ← readNumber 2 s
        let s ← readMark [cp ':'] s
        let (minute, s) ← readNumber 2 s
        some (decide (hour < 24 ∧ minute < 60 ∧ s = []))).getD false

/-- `"format": "date-time"` -/
def isDateTime (s : PyStr) : Bool :=
  (do let (year, s) ← readNumber 4 s
      let s ← readMark [cp '-'] s
      let (month, s) ← readNumber 2 s
      let s ← readMark [cp '-'] s
      let (day, s) ← readNumber 2 s
      let s ← readMark [cp 'T', cp 't'] s
      let (hour, s) ← readNumber 2 s
      let s ← readMark [cp ':'] s
      let (minute, s) ← readNumber 2 s
      let s ← readMark [cp ':'] s
      let (second, s) ← readNumber 2 s
      some (decide (1 ≤ month ∧ month ≤ 12 ∧ 1 ≤ day ∧ day ≤ daysIn year month ∧ hour < 24 ∧
        minute < 60 ∧ second ≤ 60) && isOffset (JsonText.fraction s).2)).getD false

abbrev uuid : Schema := .string (.pattern isUuid)

abbrev dateTime : Schema := .string (.pattern isDateTime)

/-- `request-created.schema.json` -/
def requestCreatedSchema : Schema :=
  closed
    [("event_id", uuid),
      ("event_type", exactly "request-created"),
      ("occurred_at", dateTime),
      ("request", closed
        [("id", uuid),
          ("title", nonEmpty),
          ("status", oneOf ["created"]),
          ("created_at", dateTime)]
        [])]
    []

/-- `request-status-changed.schema.json` -/
def requestStatusChangedSchema : Schema :=
  closed
    [("event_id", uuid),
      ("event_type", exactly "request-status-changed"),
      ("occurred_at", dateTime),
      ("request", closed
        [("id", uuid),
          ("status", oneOf
            ["created", "triaged", "in_progress", "resolved", "closed", "cancelled"]),
          ("previous_status", oneOf
            ["created", "triaged", "in_progress", "resolved", "closed", "cancelled"]),
          ("updated_at", dateTime)]
        [])]
    []

/-- The schema of each event type. -/
def eventSchemas : List (String × Schema) :=
  [("request-created", requestCreatedSchema),
    ("request-status-changed", requestStatusChangedSchema)]

section Formats

theorem isHex_hexChar {n : Nat} (h : n < 16) : isHex (cp (Uuid.hexChar n)) = true := by
  have hall : ∀ d < 16, isHex (cp (Uuid.hexChar d)) = true := by decide
  exact hall n h

theorem halves_lt (b : UInt8) : b.toNat / 16 < 16 ∧ b.toNat % 16 < 16 := by
  have := b.toNat_lt
  omega

/-- From byte `i` on, at the position of its first digit. -/
theorem isUuidFrom_encoded (bytes : List UInt8) (i : Nat) (h : i + bytes.length = 16) :
    isUuidFrom (2 * i + ([3, 5, 7, 9].filter (· < i)).length)
      ((Lexicographic.encodeFrom Uuid.byteCode i bytes).map cp) = true := by
  induction bytes generalizing i with
  | nil =>
      rw [List.length_nil, Nat.add_zero] at h
      subst h
      rfl
  | cons b rest ih =>
      rw [List.length_cons] at h
      have hrest := ih (i + 1) (by omega)
      have hfirst := isHex_hexChar (halves_lt b).1
      have hsecond := isHex_hexChar (halves_lt b).2
      have hi : i < 16 := by omega
      rw [Lexicographic.encodeFrom, Uuid.byteCode]
      interval_cases i <;>
        simpa [isUuidFrom, hfirst, hsecond] using hrest

theorem isUuid_hyphenated {bytes : List UInt8} (h : bytes.length = 16) :
    isUuid (py (Uuid.hyphenated bytes)) = true := by
  have hall := isUuidFrom_encoded bytes 0 (by omega)
  rw [isUuid, py, Uuid.hyphenated, String.toList_ofList]
  exact hall

theorem val_digit (n : Nat) : (cp (digit n)).val = 48 + n % 10 := by
  have hval : (digit n).toNat = 48 + n % 10 := digit_val n
  rw [cp, codePoint, hval]
  exact Nat.mod_eq_of_lt (by omega)

theorem isDigit_digit (n : Nat) : isDigit (cp (digit n)) = true := by
  have hlow : (cp '0').val = 48 := rfl
  have hhigh : (cp '9').val = 57 := rfl
  have hval := val_digit n
  rw [isDigit, decide_eq_true_eq, Fin.le_def, Fin.le_def]
  omega

theorem readNumber_two {n : Nat} (h : n < 100) (rest : PyStr) :
    readNumber 2 (cp (digit (n / 10)) :: cp (digit n) :: rest) = some (n, rest) := by
  have hdigits : digits 2 [cp (digit (n / 10)), cp (digit n)] = true := by
    simp [digits, isDigit_digit]
  have hvalue : JsonText.digitsValue [cp (digit (n / 10)), cp (digit n)] = n := by
    simp only [JsonText.digitsValue, List.foldl_cons, List.foldl_nil, val_digit]
    omega
  simp only [readNumber, List.take_succ_cons, List.take_zero, List.drop_succ_cons, List.drop_zero,
    hdigits, hvalue, if_true]

theorem readNumber_four {n : Nat} (h : n < 10000) (rest : PyStr) :
    readNumber 4 (cp (digit (n / 1000)) :: cp (digit (n / 100)) :: cp (digit (n / 10)) ::
      cp (digit n) :: rest) = some (n, rest) := by
  have hdigits : digits 4 [cp (digit (n / 1000)), cp (digit (n / 100)), cp (digit (n / 10)),
      cp (digit n)] = true := by
    simp [digits, isDigit_digit]
  have hvalue : JsonText.digitsValue [cp (digit (n / 1000)), cp (digit (n / 100)),
      cp (digit (n / 10)), cp (digit n)] = n := by
    simp only [JsonText.digitsValue, List.foldl_cons, List.foldl_nil, val_digit]
    omega
  simp only [readNumber, List.take_succ_cons, List.take_zero, List.drop_succ_cons, List.drop_zero,
    hdigits, hvalue, if_true]

theorem readMark_mem {marks : List CodePoint} {c : CodePoint} (h : c ∈ marks) (rest : PyStr) :
    readMark marks (c :: rest) = some rest :=
  if_pos (List.contains_iff_mem.mpr h)

theorem isDateTime_formatRFC3339 {t : UtcTime} (h : t.onCalendar = true) :
    isDateTime (py (formatRFC3339 t)) = true := by
  have hyear := t.year_lt
  have hmonth := t.month_le
  have hday := t.day_le
  have hhour := t.hour_lt
  have hminute := t.minute_lt
  have hsecond := t.second_lt
  have hexists : t.day ≤ daysIn t.year t.month := by
    rw [UtcTime.onCalendar, Bool.and_eq_true, decide_eq_true_eq, decide_eq_true_eq] at h
    exact h.2
  have hrange : 1 ≤ t.month ∧ t.month ≤ 12 ∧ 1 ≤ t.day ∧ t.day ≤ daysIn t.year t.month ∧
      t.hour < 24 ∧ t.minute < 60 ∧ t.second ≤ 60 := by
    omega
  have hend : JsonText.fraction [cp 'Z'] = ([], [cp 'Z']) := rfl
  have hoffset : isOffset [cp 'Z'] = true := by decide
  have htext : py (formatRFC3339 t) =
      cp (digit (t.year / 1000)) :: cp (digit (t.year / 100)) :: cp (digit (t.year / 10)) ::
      cp (digit t.year) :: cp '-' :: cp (digit (t.month / 10)) :: cp (digit t.month) :: cp '-' ::
      cp (digit (t.day / 10)) :: cp (digit t.day) :: cp 'T' :: cp (digit (t.hour / 10)) ::
      cp (digit t.hour) :: cp ':' :: cp (digit (t.minute / 10)) :: cp (digit t.minute) ::
      cp ':' :: cp (digit (t.second / 10)) :: cp (digit t.second) :: [cp 'Z'] := by
    rw [py, formatRFC3339, String.toList_ofList]
    rfl
  rw [htext, isDateTime, readNumber_four hyear]
  simp only [Option.bind_eq_bind, Option.bind_some, readMark_mem (List.mem_singleton_self _),
    readMark_mem List.mem_cons_self, readNumber_two (by omega : t.month < 100),
    readNumber_two (by omega : t.day < 100), readNumber_two (by omega : t.hour < 100),
    readNumber_two (by omega : t.minute < 100), readNumber_two (by omega : t.second < 100), hend,
    hoffset, hrange, and_self, decide_true, Bool.and_self, Option.getD_some]

end Formats

section Members

theorem valid_str {rule : StringRule} {s : PyStr} (h : rule.admits s = true) :
    (Schema.string rule).valid (.str s) = true :=
  (Schema.valid_string_iff rule _).mpr ⟨s, rfl, h⟩

theorem validProperties_of_get {properties : List (PyStr × Schema)}
    {fields : List (PyStr × Json)}
    (h : ∀ entry ∈ properties, ∀ v, Assoc.get fields entry.1 = some v → entry.2.valid v = true) :
    Schema.validProperties properties fields = true := by
  induction properties with
  | nil => rfl
  | cons entry rest ih =>
      rw [List.forall_mem_cons] at h
      rw [Schema.validProperties, ih h.2, Bool.and_true]
      cases hget : Assoc.get fields entry.1 with
      | none => rfl
      | some v => exact h.1 v hget

/-- An object with exactly the required members of a closed schema, each of them valid. -/
theorem valid_closed (entries : List (String × Schema × Json))
    (hnames : ((entries.map Prod.fst).map py).Nodup)
    (h : ∀ entry ∈ entries, entry.2.1.valid entry.2.2 = true) :
    (closed (entries.map fun entry => (entry.1, entry.2.1)) []).valid
      (.obj (entries.map fun entry => (py entry.1, entry.2.2))) = true := by
  have hunique : Assoc.Unique (entries.map fun entry => (py entry.1, entry.2.2)) := by
    rw [List.map_map] at hnames
    rw [Assoc.Unique, List.map_map]
    exact hnames
  have hget : ∀ entry ∈ entries,
      Assoc.get (entries.map fun entry => (py entry.1, entry.2.2)) (py entry.1) = some entry.2.2 :=
    fun entry hentry => Assoc.get_of_mem hunique (List.mem_map_of_mem hentry)
  have hknown : ∀ entry ∈ entries, (Assoc.get (members (entries.map fun entry =>
      (entry.1, entry.2.1))) (py entry.1)).isSome = true := by
    intro entry hentry
    rw [Option.isSome_iff_ne_none]
    intro hnone
    exact Assoc.ne_of_get_none hnone _ (List.mem_map_of_mem (List.mem_map_of_mem hentry)) rfl
  simp only [closed, List.append_nil, Schema.valid, Bool.not_true, Bool.false_or,
    Bool.and_eq_true, List.all_eq_true, List.forall_mem_map]
  refine ⟨⟨fun entry hentry => ?_, validProperties_of_get ?_⟩, hknown⟩
  · rw [hget entry hentry]
    rfl
  · simp only [members, List.forall_mem_map]
    intro entry hentry v hv
    rw [hget entry hentry, Option.some.injEq] at hv
    rw [← hv]
    exact h entry hentry

end Members

end SecureSdlc.Contracts

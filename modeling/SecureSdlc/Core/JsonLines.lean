import SecureSdlc.Core.JsonGrammar
import SecureSdlc.Core.Lines

/-!
JSON texts and the lines of Python: newlines between the tokens are as good as the
blanks they stand for, and a line boundary within a string becomes a control character,
which no string holds.
-/

namespace SecureSdlc.Core.JsonText

open PyStr

/-- The line boundaries that JSON allows in a string: NEL and the two separators of
Unicode. -/
def separator (c : CodePoint) : Bool := decide (c.val = 0x85 ∨ c.val = 0x2028 ∨ c.val = 0x2029)

theorem isLineBreak_cases {c : CodePoint} (h : isLineBreak c = true) :
    separator c = true ∨ c.val < 0x20 := by
  simp only [isLineBreak, Bool.or_eq_true, Bool.and_eq_true, decide_eq_true_eq, beq_iff_eq] at h
  rw [separator, decide_eq_true_eq]
  omega

theorem isLineBreak_of_high {c : CodePoint} (hhigh : 0x20 ≤ c.val) (hsep : separator c = false) :
    isLineBreak c = false := by
  rw [Bool.eq_false_iff]
  intro hbreak
  rcases isLineBreak_cases hbreak with hsepc | hctl
  · rw [hsep] at hsepc
    cases hsepc
  · omega

theorem isLineBreak_of_solid {c : CodePoint} (h : solid c = true) : isLineBreak c = false := by
  obtain ⟨hlow, hhigh, -⟩ := of_decide_eq_true h
  exact isLineBreak_of_high (Nat.le_of_lt hlow) (decide_eq_false (by omega))

section Scanning

inductive Place where
  | outside
  | inside
  | escaped
  deriving DecidableEq

/-- One character of a text, read as outside of its strings, inside of one, or after a
backslash. -/
def Place.step (c : CodePoint) : Place → Option Place
  | .outside =>
      if c = cp '"' then some .inside
      else if isLineBreak c = true ∧ isBlank c = false then none
      else some .outside
  | .inside =>
      if c = cp '"' then some .outside
      else if c.val < 0x20 then none
      else if c = cp '\\' then some .escaped
      else some .inside
  | .escaped => if 0x20 < c.val ∧ c.val < 0x7F then some .inside else none

def scan (place : Place) (s : PyStr) : Option Place := s.foldlM (fun place c => place.step c) place

theorem scan_cons (place : Place) (c : CodePoint) (s : PyStr) :
    scan place (c :: s) = (place.step c).bind fun place => scan place s := rfl

theorem scan_append (place : Place) (s t : PyStr) :
    scan place (s ++ t) = (scan place s).bind fun place => scan place t := by
  rw [scan, List.foldlM_append]
  rfl

theorem scan_then {place next : Place} {s : PyStr} (h : scan place s = some next) (t : PyStr) :
    scan place (s ++ t) = scan next t := by
  rw [scan_append, h]
  rfl

theorem step_solid {c : CodePoint} (h : solid c = true) :
    Place.step c .outside = some .outside := by
  have hbreak : ¬ (isLineBreak c = true ∧ isBlank c = false) := by
    rw [isLineBreak_of_solid h]
    exact fun hboth => nomatch hboth.1
  rw [Place.step, if_neg (of_decide_eq_true h).2.2, if_neg hbreak]

theorem scan_mark {c : CodePoint} (h : solid c = true) (s : PyStr) :
    scan .outside (c :: s) = scan .outside s := by
  rw [scan_cons, step_solid h, Option.bind_some]

theorem scan_solid {s : PyStr} (h : ∀ c ∈ s, solid c = true) :
    scan .outside s = some .outside := by
  induction s with
  | nil => rfl
  | cons c s ih =>
      rw [List.forall_mem_cons] at h
      rw [scan_mark h.1, ih h.2]

theorem scan_gap {gap : PyStr} (h : Gap gap) : scan .outside gap = some .outside := by
  induction gap with
  | nil => rfl
  | cons c gap ih =>
      rw [Gap, List.forall_mem_cons] at h
      have hquote : c ≠ cp '"' := by
        rintro rfl
        exact absurd h.1 (by decide)
      have hbreak : ¬ (isLineBreak c = true ∧ isBlank c = false) := by
        rw [h.1]
        exact fun hboth => nomatch hboth.2
      rw [scan_cons, Place.step, if_neg hquote, if_neg hbreak]
      exact ih h.2

theorem solid_of_hexValue {c : CodePoint} {m : Nat} (h : hexValue c = some m) :
    solid c = true ∧ c ≠ cp '\\' := by
  have hrange : 48 ≤ c.val ∧ c.val ≤ 57 ∨ 97 ≤ c.val ∧ c.val ≤ 102 ∨
      65 ≤ c.val ∧ c.val ≤ 70 := by
    by_contra hnot
    simp only [not_or] at hnot
    rw [hexValue, if_neg hnot.1, if_neg hnot.2.1, if_neg hnot.2.2] at h
    cases h
  have hquote : c ≠ cp '"' := by
    rintro rfl
    exact absurd hrange (by decide)
  refine ⟨decide_eq_true ⟨by omega, by omega, hquote⟩, ?_⟩
  rintro rfl
  exact absurd hrange (by decide)

theorem solid_of_hex4 {digits : PyStr} {n : Nat} (h : hex4 digits = some (n, [])) :
    ∀ c ∈ digits, solid c = true ∧ c ≠ cp '\\' := by
  rw [hex4.eq_def] at h
  split at h
  · simp only [Option.bind_eq_bind, Option.bind_eq_some_iff, Option.pure_def, Option.some.injEq,
      Prod.mk.injEq] at h
    obtain ⟨a, ha, b, hb, c, hc, d, hd, -, rfl⟩ := h
    simp only [List.forall_mem_cons]
    exact ⟨solid_of_hexValue ha, solid_of_hexValue hb, solid_of_hexValue hc,
      solid_of_hexValue hd, by simp⟩
  · cases h

theorem scan_hex {digits : PyStr} (h : ∀ c ∈ digits, solid c = true ∧ c ≠ cp '\\') :
    scan .inside digits = some .inside := by
  induction digits with
  | nil => rfl
  | cons c digits ih =>
      rw [List.forall_mem_cons] at h
      obtain ⟨hlow, -, hquote⟩ := of_decide_eq_true h.1.1
      rw [scan_cons, Place.step, if_neg hquote, if_neg (by omega), if_neg h.1.2]
      exact ih h.2

theorem step_back : Place.step (cp '\\') .inside = some .escaped := by decide

theorem step_escape : Place.step (cp 'u') .escaped = some .inside := by decide

theorem printable_of_simpleEscape {e c : CodePoint} (h : simpleEscape e = some c) :
    0x20 < e.val ∧ e.val < 0x7F := by
  rw [simpleEscape] at h
  split at h
  · rename_i he
    rcases he with rfl | rfl | rfl <;> decide
  iterate 5
    split at h
    · rename_i he
      rw [he]
      decide
  cases h

theorem StringBody.scans {text s : PyStr} (h : StringBody text s) :
    scan .inside text = some .outside := by
  induction h with
  | close => rfl
  | plain hlow hquote hback _ ih =>
      rw [scan_cons, Place.step, if_neg hquote, if_neg (Nat.not_lt.mpr hlow), if_neg hback]
      exact ih
  | short he _ _ ih =>
      rw [scan_cons, step_back, Option.bind_some, scan_cons, Place.step,
        if_pos (printable_of_simpleEscape he)]
      exact ih
  | unit hdigits _ _ ih =>
      rw [scan_cons, step_back, Option.bind_some, scan_cons, step_escape, Option.bind_some,
        scan_then (scan_hex (solid_of_hex4 hdigits)), ih]
  | pair hdigits _ hlow _ _ ih =>
      rw [scan_cons, step_back, Option.bind_some, scan_cons, step_escape, Option.bind_some,
        scan_then (scan_hex (solid_of_hex4 hdigits)), scan_cons, step_back, Option.bind_some,
        scan_cons, step_escape, Option.bind_some, scan_then (scan_hex (solid_of_hex4 hlow)), ih]

theorem scan_string {text s : PyStr} (h : StringBody text s) (rest : PyStr) :
    scan .outside (cp '"' :: (text ++ rest)) = scan .outside rest := by
  rw [scan_cons, Place.step, if_pos rfl, Option.bind_some, scan_then h.scans]

theorem scan_skip {gap : PyStr} (h : Gap gap) (s : PyStr) :
    scan .outside (gap ++ s) = scan .outside s :=
  scan_then (scan_gap h) s

variable {rt : Runtime}

mutual

/-- A text of the grammar ends outside of its strings, and a line boundary outside of
them is a blank. -/
theorem ValueText.scans {digits nest : Nat} {text : PyStr} {v : Json} :
    ValueText rt digits nest text v → scan .outside text = some .outside
  | .scalar h => scan_solid h.solid
  | .str h => by
      rw [scan_cons, Place.step, if_pos rfl, Option.bind_some, h.scans]
  | .noItems hgap => by
      rw [scan_mark rfl, scan_skip hgap]
      rfl
  | .items hgap h => by rw [scan_mark rfl, scan_skip hgap, h.scans]
  | .noFields hgap => by
      rw [scan_mark rfl, scan_skip hgap]
      rfl
  | .fields hgap h => by rw [scan_mark rfl, scan_skip hgap, h.scans]

theorem ItemsText.scans {digits nest : Nat} {text : PyStr} {items : List Json} :
    ItemsText rt digits nest text items → scan .outside text = some .outside
  | .last h hgap => by
      rw [scan_then h.scans, scan_skip hgap]
      rfl
  | .more h hgap hgap' hrest => by
      rw [scan_then h.scans, scan_skip hgap, scan_mark rfl, scan_skip hgap', hrest.scans]

theorem FieldsText.scans {digits nest : Nat} {known fields : List (PyStr × Json)}
    {text : PyStr} :
    FieldsText rt digits nest known text fields → scan .outside text = some .outside
  | .last hkey hkeyGap hvalueGap h hgap => by
      rw [scan_string hkey, scan_skip hkeyGap, scan_mark rfl, scan_skip hvalueGap,
        scan_then h.scans, scan_skip hgap]
      rfl
  | .more hkey hkeyGap hvalueGap h hgap hgap' hrest => by
      rw [scan_string hkey, scan_skip hkeyGap, scan_mark rfl, scan_skip hvalueGap,
        scan_then h.scans, scan_skip hgap, scan_mark rfl, scan_skip hgap', hrest.scans]

end

theorem DocumentText.scans {digits nest : Nat} {text : PyStr} {v : Json}
    (h : DocumentText rt digits nest text v) : scan .outside text = some .outside := by
  cases h with
  | around hgap hgap' h => rw [scan_skip hgap, scan_then h.scans, scan_gap hgap']

/-- A separator is scanned within a string only, where the newline for it is not. -/
theorem scan_relinedFrom {s : PyStr} {place next : Place} {afterCR : Bool}
    (hplace : afterCR = true → place = .outside) (hscan : scan place s = some next)
    (hsep : ∃ c ∈ s, separator c = true) : scan place (relinedFrom afterCR s) = none := by
  have hnewline : Place.step (cp '\n') .outside = some .outside := by decide
  have hcontrol : Place.step (cp '\n') .inside = none := by decide
  have hblank : ∀ {c : CodePoint}, isBlank c = true → separator c = false := by
    intro c hc
    have hcases := of_decide_eq_true hc
    rcases hcases with rfl | rfl | rfl | rfl <;> rfl
  induction s generalizing place afterCR with
  | nil => exact absurd hsep (by simp)
  | cons c s ih =>
      rw [scan_cons, Option.bind_eq_some_iff] at hscan
      obtain ⟨middle, hstep, hscan⟩ := hscan
      have hrest : separator c = false → ∃ d ∈ s, separator d = true := by
        intro hc
        obtain ⟨d, hd, hsepd⟩ := hsep
        rcases List.mem_cons.mp hd with rfl | hd
        · rw [hc] at hsepd
          cases hsepd
        · exact ⟨d, hd, hsepd⟩
      rw [relinedFrom]
      split
      · rename_i hskip
        rw [Bool.and_eq_true, beq_iff_eq] at hskip
        have hc : c = cp '\n' := Fin.ext hskip.2
        rw [hplace hskip.1] at hstep ⊢
        rw [hc, hnewline, Option.some.injEq] at hstep
        subst hstep
        exact ih (fun h => absurd h Bool.false_ne_true) hscan (hrest (by rw [hc]; rfl))
      split
      · rename_i hbreak
        rw [scan_cons]
        cases place with
        | outside =>
            rw [Place.step] at hstep
            split at hstep
            · rename_i hquote
              rw [hquote] at hbreak
              cases hbreak
            split at hstep
            · cases hstep
            · rename_i hok
              have hc : isBlank c = true := by
                cases hisblank : isBlank c with
                | true => rfl
                | false => exact absurd ⟨hbreak, hisblank⟩ hok
              cases hstep
              rw [hnewline, Option.bind_some]
              exact ih (fun _ => rfl) hscan (hrest (hblank hc))
        | inside => rw [hcontrol, Option.bind_none]
        | escaped =>
            rw [Place.step] at hstep
            split at hstep
            · rcases isLineBreak_cases hbreak with hsepc | hctl
              · rw [separator, decide_eq_true_eq] at hsepc
                omega
              · omega
            · cases hstep
      · rename_i hbreak
        have hc : separator c = false := by
          cases hsepc : separator c with
          | false => rfl
          | true =>
              rw [separator, decide_eq_true_eq] at hsepc
              exact absurd (by rcases hsepc with h | h | h <;> simp [isLineBreak, h]) hbreak
        rw [scan_cons, hstep, Option.bind_some]
        exact ih (fun h => absurd h Bool.false_ne_true) hscan (hrest hc)

/-- Not so with a newline for a separator. -/
theorem DocumentText.not_loads_relined {digits nest : Nat} {text : PyStr} {v : Json}
    (h : DocumentText rt digits nest text v) (hsep : ∃ c ∈ text, separator c = true) (w : Json) :
    loads rt (relined text) ≠ .ok w := by
  intro hloads
  have hnone : scan .outside (relinedFrom false text) = none :=
    scan_relinedFrom (by simp) h.scans hsep
  obtain ⟨_, _, hspelt, -⟩ := loads_iff.mp hloads
  have hscan := hspelt.scans
  rw [relined, hnone] at hscan
  cases hscan

end Scanning

section Relining

theorem relined_mark {c : CodePoint} (h : solid c = true) (s : PyStr) :
    relined (c :: s) = c :: relined s := by
  rw [relined, relinedFrom, Bool.false_and, if_neg Bool.false_ne_true, isLineBreak_of_solid h,
    if_neg Bool.false_ne_true, ← relined]

theorem relined_solid {s : PyStr} (h : ∀ c ∈ s, solid c = true) : relined s = s :=
  relinedFrom_of_plain (fun c hc => isLineBreak_of_solid (h c hc)) false

/-- A text whose last character is no control character. -/
def Closed (text : PyStr) : Prop := ∃ front c, text = front ++ [c] ∧ 0x20 ≤ c.val

theorem relined_closed {text : PyStr} (h : Closed text) (rest : PyStr) :
    relined (text ++ rest) = relined text ++ relined rest := by
  obtain ⟨front, c, rfl, hc⟩ := h
  have hcr : (c.val == 0x0D) = false := by
    rw [beq_eq_false_iff_ne]
    omega
  have hends : endsCR false (front ++ [c]) = false := by
    rw [endsCR, List.getLast?_concat]
    exact hcr
  rw [relined, relinedFrom_append, hends]
  rfl

/-- Newlines for line boundaries in blanks, whatever token comes next. -/
theorem relined_gap (gap : PyStr) {c : CodePoint} (hc : isBlank c = false) (s : PyStr) :
    relined (gap ++ c :: s) = relined gap ++ relined (c :: s) := by
  have hne : c ≠ cp '\n' := by
    rintro rfl
    exact absurd hc (by decide)
  rw [relined, relinedFrom_append, relinedFrom_cons hne]
  rfl

theorem relined_leads (gap : PyStr) {text : PyStr} (h : Leads text) :
    relined (gap ++ text) = relined gap ++ relined text := by
  obtain ⟨c, more, rfl, hc, -⟩ := h
  exact relined_gap gap hc _

theorem Gap.relined {gap : PyStr} (h : Gap gap) : Gap (relined gap) := by
  intro c hc
  rcases mem_relinedFrom hc with hc | ⟨rfl, -⟩
  · exact h c hc
  · rfl

theorem closed_concat (front : PyStr) {c : CodePoint} (h : 0x20 ≤ c.val) :
    Closed (front ++ [c]) := ⟨front, c, rfl, h⟩

theorem Closed.append {text : PyStr} (h : Closed text) (front : PyStr) :
    Closed (front ++ text) := by
  obtain ⟨inner, c, rfl, hc⟩ := h
  exact ⟨front ++ inner, c, by rw [List.append_assoc], hc⟩

theorem Closed.cons {text : PyStr} (h : Closed text) (c : CodePoint) : Closed (c :: text) :=
  h.append [c]

theorem StringBody.closed {text s : PyStr} (h : StringBody text s) : Closed text := by
  induction h with
  | close => exact closed_concat [] (by decide)
  | plain _ _ _ _ ih => exact ih.cons _
  | short _ _ _ ih => exact (ih.cons _).cons _
  | unit _ _ _ ih => exact ((ih.append _).cons _).cons _
  | pair _ _ _ _ _ ih => exact (((((ih.append _).cons _).cons _).append _).cons _).cons _

/-- No control character stands in a string. -/
theorem StringBody.high {text s : PyStr} (h : StringBody text s) : ∀ c ∈ text, 0x20 ≤ c.val := by
  have hhex : ∀ {digits : PyStr} {n : Nat}, hex4 digits = some (n, []) →
      ∀ c ∈ digits, 0x20 ≤ c.val := by
    intro digits n hdigits c hc
    exact Nat.le_of_lt (of_decide_eq_true (solid_of_hex4 hdigits c hc).1).1
  induction h with
  | close => simp only [List.mem_singleton, forall_eq]; decide
  | plain hlow _ _ _ ih => exact List.forall_mem_cons.mpr ⟨hlow, ih⟩
  | short he _ _ ih =>
      rw [List.forall_mem_cons, List.forall_mem_cons]
      exact ⟨by decide, Nat.le_of_lt (printable_of_simpleEscape he).1, ih⟩
  | unit hdigits _ _ ih =>
      rw [List.forall_mem_cons, List.forall_mem_cons, List.forall_mem_append]
      exact ⟨by decide, by decide, hhex hdigits, ih⟩
  | pair hdigits _ hlow _ _ ih =>
      rw [List.forall_mem_cons, List.forall_mem_cons, List.forall_mem_append,
        List.forall_mem_cons, List.forall_mem_cons, List.forall_mem_append]
      exact ⟨by decide, by decide, hhex hdigits, by decide, by decide, hhex hlow, ih⟩

theorem relined_string {text s : PyStr} (h : StringBody text s)
    (hsep : ∀ c ∈ text, separator c = false) (rest : PyStr) :
    relined (cp '"' :: (text ++ rest)) = cp '"' :: (text ++ relined rest) := by
  have htext : relined (cp '"' :: text) = cp '"' :: text := by
    apply relinedFrom_of_plain
    rw [List.forall_mem_cons]
    exact ⟨rfl, fun c hc => isLineBreak_of_high (h.high c hc) (hsep c hc)⟩
  rw [← List.cons_append, relined_closed (h.closed.cons _), htext, List.cons_append]

variable {rt : Runtime}

theorem ScalarText.closed {digits : Nat} {text : PyStr} {v : Json}
    (h : ScalarText rt digits text v) : Closed text := by
  have hne : text ≠ [] := by
    obtain ⟨c, more, rfl, -⟩ := h.head
    exact List.cons_ne_nil c more
  have hlast := of_decide_eq_true (h.solid _ (List.getLast_mem hne))
  exact ⟨_, _, (List.dropLast_append_getLast hne).symm, Nat.le_of_lt hlast.1⟩

theorem ItemsText.closed {digits nest : Nat} {text : PyStr} {items : List Json} :
    ItemsText rt digits nest text items → Closed text
  | .last _ _ => ((closed_concat [] (by decide)).append _).append _
  | .more _ _ _ hrest => (((hrest.closed.append _).cons _).append _).append _

theorem ValueText.closed {digits nest : Nat} {text : PyStr} {v : Json}
    (h : ValueText rt digits nest text v) : Closed text := by
  cases h with
  | scalar h => exact h.closed
  | str h => exact h.closed.cons _
  | noItems _ | noFields _ => exact ((closed_concat [] (by decide)).append _).cons _
  | items _ h => exact (h.closed.append _).cons _
  | fields _ h =>
      obtain ⟨front, rfl⟩ := h.closes
      exact ((closed_concat front (by decide)).append _).cons _

mutual

/-- A text without separators is a text of the same value after its lines were joined
with newlines. -/
theorem ValueText.relined {digits nest : Nat} {text : PyStr} {v : Json} :
    ValueText rt digits nest text v → (∀ c ∈ text, separator c = false) →
      ValueText rt digits nest (relined text) v
  | .scalar h, _ => by
      rw [relined_solid h.solid]
      exact .scalar h
  | @ValueText.str _ body _ h, hsep => by
      rw [List.forall_mem_cons] at hsep
      have htext := relined_string h hsep.2 []
      have hnil : PyStr.relined [] = [] := rfl
      rw [List.append_nil, hnil, List.append_nil] at htext
      rw [htext]
      exact .str h
  | .noItems hgap, _ => by
      rw [relined_mark rfl, relined_gap _ rfl, relined_mark rfl]
      exact .noItems hgap.relined
  | .items hgap h, hsep => by
      simp only [List.forall_mem_cons, List.forall_mem_append] at hsep
      rw [relined_mark rfl, relined_leads _ h.leads]
      exact .items hgap.relined (h.relined hsep.2.2)
  | .noFields hgap, _ => by
      rw [relined_mark rfl, relined_gap _ rfl, relined_mark rfl]
      exact .noFields hgap.relined
  | .fields hgap h, hsep => by
      simp only [List.forall_mem_cons, List.forall_mem_append] at hsep
      rw [relined_mark rfl, relined_leads _ h.leads]
      exact .fields hgap.relined (h.relined hsep.2.2)

theorem ItemsText.relined {digits nest : Nat} {text : PyStr} {items : List Json} :
    ItemsText rt digits nest text items → (∀ c ∈ text, separator c = false) →
      ItemsText rt digits nest (relined text) items
  | .last h hgap, hsep => by
      simp only [List.forall_mem_cons, List.forall_mem_append] at hsep
      rw [relined_closed h.closed, relined_gap _ rfl, relined_mark rfl]
      exact .last (h.relined hsep.1) hgap.relined
  | .more h hgap hgap' hrest, hsep => by
      simp only [List.forall_mem_cons, List.forall_mem_append] at hsep
      rw [relined_closed h.closed, relined_gap _ rfl, relined_mark rfl,
        relined_leads _ hrest.leads]
      exact .more (h.relined hsep.1) hgap.relined hgap'.relined (hrest.relined hsep.2.2.2.2)

theorem FieldsText.relined {digits nest : Nat} {known fields : List (PyStr × Json)}
    {text : PyStr} :
    FieldsText rt digits nest known text fields → (∀ c ∈ text, separator c = false) →
      FieldsText rt digits nest known (relined text) fields
  | .last hkey hkeyGap hvalueGap h hgap, hsep => by
      simp only [List.forall_mem_cons, List.forall_mem_append] at hsep
      rw [relined_string hkey hsep.2.1, relined_gap _ rfl, relined_mark rfl,
        relined_leads _ (h.leads.append _), relined_closed h.closed, relined_gap _ rfl,
        relined_mark rfl]
      exact .last hkey hkeyGap.relined hvalueGap.relined (h.relined hsep.2.2.2.2.2.1) hgap.relined
  | .more hkey hkeyGap hvalueGap h hgap hgap' hrest, hsep => by
      simp only [List.forall_mem_cons, List.forall_mem_append] at hsep
      rw [relined_string hkey hsep.2.1, relined_gap _ rfl, relined_mark rfl,
        relined_leads _ (h.leads.append _), relined_closed h.closed, relined_gap _ rfl,
        relined_mark rfl, relined_leads _ hrest.leads]
      exact .more hkey hkeyGap.relined hvalueGap.relined (h.relined hsep.2.2.2.2.2.1) hgap.relined
        hgap'.relined (hrest.relined hsep.2.2.2.2.2.2.2.2.2)

end

end Relining

end SecureSdlc.Core.JsonText

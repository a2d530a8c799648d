import SecureSdlc.Core.Scanning
import SecureSdlc.Tools.Vcs

/-!
The names that `BRANCH_PATTERN` accepts, as a language, against the convention that it
writes down. The decimals of the runtime are those of Unicode: among ASCII characters
they are the ten digits.
-/

namespace SecureSdlc.Tools.OpenPRTool

open Core
open scoped Computability

variable {rt : Runtime}

def isCapital (c : CodePoint) : Bool := Contracts.isUpper c || Contracts.isDigit c

def isSmall (c : CodePoint) : Bool := Contracts.isLower c || Contracts.isDigit c

def isSlugLetter (c : CodePoint) : Bool := isSmall c || decide (c = cp '-')

/-- A feature or task id, its number written in the given digits. -/
def ids (digit : CodePoint → Bool) : Language CodePoint :=
  oneOf Contracts.isUpper * (oneOf isCapital)∗ * {[cp '-']} * (oneOf digit * (oneOf digit)∗)

def slugs : Language CodePoint := oneOf isSmall * (oneOf isSlugLetter)∗

/-- `feature/{FEATURE_ID}-{TASK_ID}-slug`. -/
def branchNames (digit : CodePoint → Bool) : Language CodePoint :=
  {py "feature/"} * ids digit * {[cp '-']} * ids digit * {[cp '-']} * slugs

/-- Nothing, or a newline. -/
def finalNewline : Language CodePoint := {[]} + {[cp '\n']}

/-- Among ASCII characters the decimals are the ten digits. -/
def AsciiDecimals (rt : Runtime) : Prop :=
  ∀ c : CodePoint, rt.isDecimal c = true → c.val < 0x80 → Contracts.isDigit c = true

theorem isDigit_eq : JsonText.isDigit = Contracts.isDigit := by
  funext c
  rfl

theorem isDecimal_of_isDigit {c : CodePoint} (h : Contracts.isDigit c = true) :
    isDecimal rt c = true := by
  rw [isDecimal, isDigit_eq, h, Bool.true_or]

theorem isDigit_of_isDecimal (hrt : AsciiDecimals rt) {c : CodePoint} (hc : c.val < 0x80)
    (h : isDecimal rt c = true) : Contracts.isDigit c = true := by
  rw [isDecimal, isDigit_eq, Bool.or_eq_true] at h
  exact h.elim id fun hdecimal => hrt c hdecimal hc

theorem isDecimal_dash (hrt : AsciiDecimals rt) : isDecimal rt (cp '-') = false := by
  cases h : isDecimal rt (cp '-') with
  | false => rfl
  | true => exact absurd (isDigit_of_isDecimal hrt (by decide) h) (by decide)

theorem mem_dash_mul {w : PyStr} {l : Language CodePoint} :
    w ∈ {[cp '-']} * l ↔ ∃ rest, w = cp '-' :: rest ∧ rest ∈ l := by
  rw [mem_singleton_mul]
  constructor
  · rintro ⟨⟨rest, rfl⟩, hrest⟩
    exact ⟨rest, rfl, hrest⟩
  · rintro ⟨rest, rfl, hrest⟩
    exact ⟨List.prefix_append [cp '-'] rest, hrest⟩

theorem head_of_dash_mul {p : CodePoint → Bool} (hp : p (cp '-') = false)
    (l : Language CodePoint) : ∀ v ∈ {[cp '-']} * l, ∀ c ∈ v.head?, p c = false := by
  intro v hv c hc
  obtain ⟨rest, rfl, -⟩ := mem_dash_mul.mp hv
  cases hc
  exact hp

/-- The number of an id and the dash after it. -/
theorem number_dash_iff {digit : CodePoint → Bool} (hdash : digit (cp '-') = false) {w : PyStr}
    {l : Language CodePoint} :
    w ∈ oneOf digit * (oneOf digit)∗ * ({[cp '-']} * l) ↔
      w.takeWhile digit ≠ [] ∧ ∃ rest, w.dropWhile digit = cp '-' :: rest ∧ rest ∈ l := by
  rw [mul_assoc, mem_oneOf_mul]
  constructor
  · rintro ⟨c, rest, rfl, hc, hrest⟩
    rw [mem_kstar_mul (head_of_dash_mul hdash l), mem_dash_mul] at hrest
    rw [List.takeWhile_cons_of_pos hc, List.dropWhile_cons_of_pos hc]
    exact ⟨List.cons_ne_nil _ _, hrest⟩
  · rintro ⟨htake, hrest⟩
    cases w with
    | nil => exact absurd rfl htake
    | cons c rest =>
        cases hc : digit c with
        | false =>
            rw [List.takeWhile_cons_of_neg (by rw [hc]; exact Bool.false_ne_true)] at htake
            exact absurd rfl htake
        | true =>
            rw [List.dropWhile_cons_of_pos hc] at hrest
            refine ⟨c, rest, rfl, hc, ?_⟩
            rw [mem_kstar_mul (head_of_dash_mul hdash l), mem_dash_mul]
            exact hrest

/-- `afterId` takes an id and the dash after it off the front. -/
theorem afterId_iff (hrt : AsciiDecimals rt) {w : PyStr} {l : Language CodePoint} :
    w ∈ ids (isDecimal rt) * ({[cp '-']} * l) ↔ ∃ rest, afterId rt w = some rest ∧ rest ∈ l := by
  have hids : ids (isDecimal rt) * ({[cp '-']} * l) = oneOf Contracts.isUpper *
      ((oneOf isCapital)∗ * ({[cp '-']} *
        (oneOf (isDecimal rt) * (oneOf (isDecimal rt))∗ * ({[cp '-']} * l)))) := by
    simp only [ids, mul_assoc]
  rw [hids, mem_oneOf_mul]
  have hstop := head_of_dash_mul (p := isCapital) (by decide)
    (oneOf (isDecimal rt) * (oneOf (isDecimal rt))∗ * ({[cp '-']} * l))
  cases w with
  | nil => simp [afterId]
  | cons c w =>
      cases hupper : Contracts.isUpper c with
      | false => simp [afterId, hupper]
      | true =>
          have hcapital : isCapital c = true := by rw [isCapital, hupper, Bool.true_or]
          have hscan : (c :: w).dropWhile (fun c => Contracts.isUpper c || Contracts.isDigit c) =
              w.dropWhile isCapital := List.dropWhile_cons_of_pos hcapital
          simp only [afterId, hupper, if_true, hscan]
          constructor
          · rintro ⟨_, rest, heq, -, hrest⟩
            cases heq
            rw [mem_kstar_mul hstop, mem_dash_mul] at hrest
            obtain ⟨number, hnumber, hrest⟩ := hrest
            rw [number_dash_iff (isDecimal_dash hrt)] at hrest
            obtain ⟨htake, tail, hdrop, htail⟩ := hrest
            refine ⟨tail, ?_, htail⟩
            simp only [hnumber, htake, ne_eq, not_false_eq_true, and_self, if_true, hdrop]
          · rintro ⟨tail, hafter, htail⟩
            refine ⟨c, w, rfl, hupper, ?_⟩
            rw [mem_kstar_mul hstop, mem_dash_mul]
            split at hafter
            · rename_i dash number hnumber
              split at hafter
              · rename_i hdash
                split at hafter
                · rename_i dash' rest hrest
                  split at hafter
                  · rename_i hdash'
                    cases hafter
                    rw [hdash.1] at hnumber
                    rw [hdash'] at hrest
                    refine ⟨number, hnumber, ?_⟩
                    rw [number_dash_iff (isDecimal_dash hrt)]
                    exact ⟨hdash.2, _, hrest, htail⟩
                  · cases hafter
                · cases hafter
              · cases hafter
            · cases hafter

theorem mem_slugs {w : PyStr} :
    w ∈ slugs ↔ ∃ c rest, w = c :: rest ∧ isSmall c = true ∧ rest.all isSlugLetter = true := by
  rw [slugs, mem_oneOf_mul]
  simp only [mem_kstar_oneOf, List.all_eq_true]

theorem newline_notMem_slugs {w : PyStr} (h : w ∈ slugs) : cp '\n' ∉ w := by
  obtain ⟨c, rest, rfl, hc, hrest⟩ := mem_slugs.mp h
  intro hnewline
  rcases List.mem_cons.mp hnewline with hhead | htail
  · rw [← hhead] at hc
    exact absurd hc (by decide)
  · exact absurd (List.all_eq_true.mp hrest _ htail) (by decide)

theorem mem_mul_finalNewline {w : PyStr} {l : Language CodePoint} :
    w ∈ l * finalNewline ↔ ∃ name ∈ l, w = name ∨ w = name ++ [cp '\n'] := by
  rw [Language.mem_mul]
  constructor
  · rintro ⟨name, hname, last, hlast, rfl⟩
    rcases (Language.mem_add _ _ _).mp hlast with hnone | hnewline
    · rw [mem_singleton.mp hnone, List.append_nil]
      exact ⟨name, hname, .inl rfl⟩
    · rw [mem_singleton.mp hnewline]
      exact ⟨name, hname, .inr rfl⟩
  · rintro ⟨name, hname, rfl | rfl⟩
    · exact ⟨w, hname, [], .inl rfl, List.append_nil w⟩
    · exact ⟨name, hname, [cp '\n'], .inr rfl, rfl⟩

/-- A slug without the newline that may follow it. -/
def isPlainSlug : PyStr → Bool
  | [] => false
  | c :: rest => isSmall c && rest.all isSlugLetter

/-- The anchor of the pattern lets one newline stand after the slug. -/
theorem isSlug_iff {w : PyStr} : isSlug w = true ↔ w ∈ slugs * finalNewline := by
  have hbody : ∀ body : PyStr, isPlainSlug body = true ↔ body ∈ slugs := by
    intro body
    rw [mem_slugs]
    cases body with
    | nil => simp [isPlainSlug]
    | cons c rest => simp [isPlainSlug, Bool.and_eq_true]
  rw [mem_mul_finalNewline]
  change isPlainSlug (if w.getLast? = some (cp '\n') then w.dropLast else w) = true ↔ _
  refine (hbody _).trans ?_
  constructor
  · intro h
    refine ⟨_, h, ?_⟩
    split
    · rename_i hlast
      rw [List.dropLast_append_getLast? _ hlast]
      exact .inr rfl
    · exact .inl rfl
  · rintro ⟨name, hname, rfl | rfl⟩
    · have hlast : w.getLast? ≠ some (cp '\n') :=
        fun h => newline_notMem_slugs hname (List.mem_of_getLast? h)
      rw [if_neg hlast]
      exact hname
    · rw [if_pos List.getLast?_concat, List.dropLast_concat]
      exact hname

/-- What the pattern accepts: the names whose numbers are written in any decimals, a
newline after them or not. -/
theorem isBranch_iff (hrt : AsciiDecimals rt) {b : PyStr} :
    isBranch rt b = true ↔ b ∈ branchNames (isDecimal rt) * finalNewline := by
  have hnames : branchNames (isDecimal rt) * finalNewline = {py "feature/"} *
      (ids (isDecimal rt) * ({[cp '-']} *
        (ids (isDecimal rt) * ({[cp '-']} * (slugs * finalNewline))))) := by
    simp only [branchNames, mul_assoc]
  have hlength : (py "feature/").length = 8 := rfl
  rw [hnames, mem_singleton_mul, hlength, afterId_iff hrt, isBranch, Bool.and_eq_true,
    PyStr.startsWith, decide_eq_true_eq]
  refine and_congr_right fun _ => ?_
  cases hfirst : afterId rt (b.drop 8) with
  | none => simp
  | some rest =>
      simp only [Option.some.injEq, exists_eq_left', Option.bind_some, afterId_iff hrt]
      cases hsecond : afterId rt rest with
      | none => simp
      | some slug => simp only [Option.some.injEq, exists_eq_left', isSlug_iff]

/-- A name written in some digits is one in others when its own digits are among those. -/
theorem containedOn_branchNames {P : CodePoint → Prop} {digit digit' : CodePoint → Bool}
    (h : ∀ c, P c → digit c = true → digit' c = true) :
    ContainedOn P (branchNames digit) (branchNames digit') := by
  have hids : ContainedOn P (ids digit) (ids digit') :=
    containedOn_mul (containedOn_refl P _)
      (containedOn_mul (containedOn_oneOf h) (containedOn_kstar h))
  have hfront : ContainedOn P ({py "feature/"} * ids digit * {[cp '-']} * ids digit)
      ({py "feature/"} * ids digit' * {[cp '-']} * ids digit') :=
    containedOn_mul (containedOn_mul (containedOn_mul (containedOn_refl P _) hids)
      (containedOn_refl P _)) hids
  exact containedOn_mul (containedOn_mul hfront (containedOn_refl P _)) (containedOn_refl P _)

theorem lettersIn_branchNames {P : CodePoint → Prop} {digit : CodePoint → Bool}
    (hfeature : ∀ c ∈ py "feature/", P c) (hcapital : ∀ c, isCapital c = true → P c)
    (hslug : ∀ c, isSlugLetter c = true → P c) (hdigit : ∀ c, digit c = true → P c) :
    LettersIn P (branchNames digit) := by
  have hdash : LettersIn P ({[cp '-']} : Language CodePoint) := by
    apply lettersIn_singleton
    intro c hc
    rw [List.mem_singleton.mp hc]
    exact hslug _ (by decide)
  have hupper : ∀ c, Contracts.isUpper c = true → P c := fun c hc =>
    hcapital c (by rw [isCapital, hc, Bool.true_or])
  have hsmall : ∀ c, isSmall c = true → P c := fun c hc =>
    hslug c (by rw [isSlugLetter, hc, Bool.true_or])
  have hids : LettersIn P (ids digit) :=
    lettersIn_mul (lettersIn_mul (lettersIn_mul (lettersIn_oneOf hupper)
      (lettersIn_kstar hcapital)) hdash) (lettersIn_mul (lettersIn_oneOf hdigit)
      (lettersIn_kstar hdigit))
  have hslugs : LettersIn P slugs :=
    lettersIn_mul (lettersIn_oneOf hsmall) (lettersIn_kstar hslug)
  exact lettersIn_mul (lettersIn_mul (lettersIn_mul (lettersIn_mul (lettersIn_mul
    (lettersIn_singleton hfeature) hids) hdash) hids) hdash) hslugs

/-- An ASCII character that is no white space. -/
def IsPlainAscii (c : CodePoint) : Prop := c.val < 0x80 ∧ PyStr.isSpace c = false

instance (c : CodePoint) : Decidable (IsPlainAscii c) :=
  inferInstanceAs (Decidable (c.val < 0x80 ∧ PyStr.isSpace c = false))

theorem isPlainAscii_of_graphic {c : CodePoint} (hlow : 0x21 ≤ c.val) (hhigh : c.val < 0x7F) :
    IsPlainAscii c := by
  refine ⟨by omega, ?_⟩
  simp only [PyStr.isSpace, Bool.or_eq_false_iff, Bool.and_eq_false_iff, decide_eq_false_iff_not,
    beq_eq_false_iff_ne]
  omega

theorem plain_of_isDigit {c : CodePoint} (h : Contracts.isDigit c = true) : IsPlainAscii c := by
  rw [Contracts.isDigit, decide_eq_true_eq, Fin.le_def, Fin.le_def] at h
  have hlow : (cp '0').val = 0x30 := rfl
  have hhigh : (cp '9').val = 0x39 := rfl
  exact isPlainAscii_of_graphic (by omega) (by omega)

theorem plain_of_isCapital {c : CodePoint} (h : isCapital c = true) : IsPlainAscii c := by
  rw [isCapital, Bool.or_eq_true] at h
  rcases h with hupper | hdigit
  · rw [Contracts.isUpper, decide_eq_true_eq, Fin.le_def, Fin.le_def] at hupper
    have hlow : (cp 'A').val = 0x41 := rfl
    have hhigh : (cp 'Z').val = 0x5A := rfl
    exact isPlainAscii_of_graphic (by omega) (by omega)
  · exact plain_of_isDigit hdigit

theorem plain_of_isSlugLetter {c : CodePoint} (h : isSlugLetter c = true) : IsPlainAscii c := by
  rw [isSlugLetter, isSmall, Bool.or_eq_true, Bool.or_eq_true, decide_eq_true_eq] at h
  rcases h with (hlower | hdigit) | hdash
  · rw [Contracts.isLower, decide_eq_true_eq, Fin.le_def, Fin.le_def] at hlower
    have hlow : (cp 'a').val = 0x61 := rfl
    have hhigh : (cp 'z').val = 0x7A := rfl
    exact isPlainAscii_of_graphic (by omega) (by omega)
  · exact plain_of_isDigit hdigit
  · rw [hdash]
    decide

/-- The letters of the convention: those of an id, of a slug, and the slash. -/
def isNameLetter (c : CodePoint) : Bool := isCapital c || isSlugLetter c || decide (c = cp '/')

theorem plain_of_isNameLetter {c : CodePoint} (h : isNameLetter c = true) : IsPlainAscii c := by
  rw [isNameLetter, Bool.or_eq_true, Bool.or_eq_true, decide_eq_true_eq] at h
  rcases h with (hcapital | hslug) | hslash
  · exact plain_of_isCapital hcapital
  · exact plain_of_isSlugLetter hslug
  · rw [hslash]
    decide

theorem feature_letters : ∀ c ∈ py "feature/", isNameLetter c = true :=
  List.all_eq_true.mp (by decide)

theorem conventional_plain : LettersIn IsPlainAscii (branchNames Contracts.isDigit) :=
  lettersIn_branchNames (fun c hc => plain_of_isNameLetter (feature_letters c hc))
    (fun _ => plain_of_isCapital) (fun _ => plain_of_isSlugLetter) fun _ => plain_of_isDigit

theorem branch_accepts {b : PyStr} : (∃ name, branch rt b = .ok name) ↔ isBranch rt b = true := by
  rw [branch]
  split
  · rename_i h
    exact iff_of_true ⟨b, rfl⟩ h
  · rename_i h
    refine iff_of_false ?_ h
    rintro ⟨name, hname⟩
    cases hname

/-- The name is accepted when it is of the convention and then alone, so that one with a
white space or another character than ASCII is not. -/
structure FollowsConvention (rt : Runtime) (b : PyStr) : Prop where
  accepts : (∃ name, branch rt b = .ok name) ↔ b ∈ branchNames Contracts.isDigit
  plain : (∃ name, branch rt b = .ok name) → ∀ c ∈ b, IsPlainAscii c

/-- The text is a name but for a newline after it or for decimals in its numbers that are
no ASCII digits. -/
def Departs (rt : Runtime) (b : PyStr) : Prop :=
  ∃ name ∈ branchNames (isDecimal rt), b = name ++ [cp '\n'] ∨
    b = name ∧ ∃ c ∈ name, isDecimal rt c = true ∧ 0x80 ≤ c.val

theorem accepted_of_departs (hrt : AsciiDecimals rt) {b : PyStr} (h : Departs rt b) :
    isBranch rt b = true ∧ ¬ ∀ c ∈ b, IsPlainAscii c := by
  obtain ⟨name, hname, hcase⟩ := h
  rw [isBranch_iff hrt, mem_mul_finalNewline]
  rcases hcase with rfl | ⟨rfl, c, hc, -, hlarge⟩
  · refine ⟨⟨name, hname, .inr rfl⟩, fun hplain => ?_⟩
    have hspace := (hplain (cp '\n') (List.mem_append_right _ List.mem_cons_self)).2
    exact absurd hspace (by decide)
  · refine ⟨⟨b, hname, .inl rfl⟩, fun hplain => ?_⟩
    exact absurd (hplain c hc).1 (Nat.not_lt.mpr hlarge)

theorem conventional_of_accepted (hrt : AsciiDecimals rt) {b : PyStr} (h : ¬ Departs rt b)
    (hb : isBranch rt b = true) : b ∈ branchNames Contracts.isDigit := by
  rw [isBranch_iff hrt, mem_mul_finalNewline] at hb
  obtain ⟨name, hname, rfl | hnewline⟩ := hb
  · refine containedOn_branchNames (P := fun c => isDecimal rt c = true → c.val < 0x80)
      (fun c hc hdecimal => isDigit_of_isDecimal hrt (hc hdecimal) hdecimal) b hname ?_
    intro c hc hdecimal
    by_contra hlarge
    exact h ⟨b, hname, .inr ⟨rfl, c, hc, hdecimal, Nat.not_lt.mp hlarge⟩⟩
  · exact absurd ⟨name, hname, .inl hnewline⟩ h

theorem accepted_of_conventional (hrt : AsciiDecimals rt) {b : PyStr}
    (h : b ∈ branchNames Contracts.isDigit) : isBranch rt b = true := by
  rw [isBranch_iff hrt, mem_mul_finalNewline]
  refine ⟨b, ?_, .inl rfl⟩
  exact containedOn_branchNames (P := fun _ => True) (fun _ _ => isDecimal_of_isDigit) b h
    fun _ _ => trivial

/-- The pattern accepts the convention exactly, but for the texts that depart from it in a
final newline or in the decimals of a number. -/
theorem branch_convention_iff (hrt : AsciiDecimals rt) (b : PyStr) :
    FollowsConvention rt b ↔ ¬ Departs rt b := by
  constructor
  · intro h hdeparts
    obtain ⟨hb, hplain⟩ := accepted_of_departs hrt hdeparts
    exact hplain (h.plain (branch_accepts.mpr hb))
  · intro h
    refine ⟨?_, ?_⟩
    · rw [branch_accepts]
      exact ⟨conventional_of_accepted hrt h, accepted_of_conventional hrt⟩
    · intro hb
      exact conventional_plain b (conventional_of_accepted hrt h (branch_accepts.mp hb))

theorem asciiDecimals_ascii : AsciiDecimals Runtime.ascii := by
  intro c hc _
  rw [← isDigit_eq]
  exact hc

theorem branch_convention_sample :
    FollowsConvention Runtime.ascii (py "feature/FEAT-0006-TASK-0009-open") := by
  refine (branch_convention_iff asciiDecimals_ascii _).mpr ?_
  rintro ⟨name, -, hnewline | ⟨rfl, c, hc, -, hlarge⟩⟩
  · have hlast := congrArg List.getLast? hnewline
    rw [List.getLast?_concat] at hlast
    exact absurd hlast (by decide)
  · have hletters : ∀ c ∈ py "feature/FEAT-0006-TASK-0009-open", isNameLetter c = true :=
      List.all_eq_true.mp (by decide +kernel)
    exact absurd (plain_of_isNameLetter (hletters c hc)).1 (Nat.not_lt.mpr hlarge)

theorem newline_accepted : ¬ ∀ b : PyStr, FollowsConvention Runtime.ascii b := by
  intro h
  have haccepted : ∃ name,
      branch Runtime.ascii (py "feature/FEAT-0006-TASK-0009-x\n") = .ok name := by
    rw [branch_accepts]
    decide +kernel
  have hplain := (h _).plain haccepted (cp '\n') (by decide)
  exact absurd hplain.2 (by decide)

end SecureSdlc.Tools.OpenPRTool

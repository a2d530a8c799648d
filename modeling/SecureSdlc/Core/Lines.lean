import Mathlib.Data.List.TakeWhile
import SecureSdlc.Core.PyText

/-!
Splitting a text into lines and joining them with `\n` again: every line boundary of
Python, of which JSON knows only two, comes back as a newline. And what `strip` leaves
around a text that starts and ends with other characters than space.
-/

namespace SecureSdlc.Core.PyStr

/-- The text with a newline for each line boundary; `afterCR` as in `splitlinesFrom`. -/
def relinedFrom : Bool → PyStr → PyStr
  | _, [] => []
  | afterCR, c :: rest =>
      if afterCR && c.val == 0x0A then relinedFrom false rest
      else if isLineBreak c then cp '\n' :: relinedFrom (c.val == 0x0D) rest
      else c :: relinedFrom false rest

def relined (s : PyStr) : PyStr := relinedFrom false s

/-- Each line with a newline after it. -/
def terminated (lines : List PyStr) : PyStr := lines.flatMap (· ++ [cp '\n'])

/-- The lines up to a newline, and those after it. -/
theorem splitlinesFrom_newline (s after : PyStr) {afterCR : Bool} {line : PyStr}
    (hline : afterCR = true → line = []) :
    ∃ lines, splitlinesFrom afterCR line (s ++ cp '\n' :: after) =
        lines ++ splitlinesFrom false [] after ∧
      terminated lines = line.reverse ++ relinedFrom afterCR (s ++ [cp '\n']) := by
  have hbreak : isLineBreak (cp '\n') = true := rfl
  have hnewline : (cp '\n').val == 0x0A := rfl
  have hcr : ((cp '\n').val == 0x0D) = false := rfl
  induction s generalizing afterCR line with
  | nil =>
      cases afterCR with
      | true =>
          refine ⟨[], ?_, ?_⟩
          · simp [splitlinesFrom, hnewline]
          · simp [terminated, hline rfl, relinedFrom, hnewline]
      | false =>
          refine ⟨[line.reverse], ?_, ?_⟩
          · simp [splitlinesFrom, hbreak, hcr]
          · simp [terminated, relinedFrom, hbreak]
  | cons c s ih =>
      rw [List.cons_append, List.cons_append, splitlinesFrom, relinedFrom]
      split
      · rename_i hskip
        rw [Bool.and_eq_true] at hskip
        obtain ⟨lines, hlines, hterminated⟩ := ih (by simp : false = true → ([] : PyStr) = [])
        refine ⟨lines, hlines, ?_⟩
        rw [hterminated, hline hskip.1]
      split
      · obtain ⟨lines, hlines, hterminated⟩ :=
          ih (fun _ => rfl : (c.val == 0x0D) = true → ([] : PyStr) = [])
        refine ⟨line.reverse :: lines, by rw [hlines, List.cons_append], ?_⟩
        rw [terminated, List.flatMap_cons, ← terminated, hterminated]
        simp
      · obtain ⟨lines, hlines, hterminated⟩ := ih (by simp : false = true → c :: line = [])
        refine ⟨lines, hlines, ?_⟩
        rw [hterminated]
        simp

theorem splitlinesFrom_line {s : PyStr} (h : ∀ c ∈ s, isLineBreak c = false) (after line : PyStr) :
    splitlinesFrom false line (s ++ cp '\n' :: after) =
      (line.reverse ++ s) :: splitlinesFrom false [] after := by
  induction s generalizing line with
  | nil =>
      have hbreak : isLineBreak (cp '\n') = true := rfl
      have hcr : ((cp '\n').val == 0x0D) = false := rfl
      simp [splitlinesFrom, hbreak, hcr]
  | cons c s ih =>
      rw [List.forall_mem_cons] at h
      rw [List.cons_append, splitlinesFrom, Bool.false_and, if_neg Bool.false_ne_true, h.1,
        if_neg Bool.false_ne_true, ih h.2]
      simp

theorem join_newline {lines : List PyStr} (h : lines ≠ []) :
    join [cp '\n'] lines ++ [cp '\n'] = terminated lines := by
  induction lines with
  | nil => exact absurd rfl h
  | cons first rest ih =>
      cases rest with
      | nil => simp [join, terminated]
      | cons second rest =>
          have hrest := ih (by simp)
          rw [terminated, List.flatMap_cons, ← terminated, ← hrest]
          simp [join, List.intercalate_cons_cons]

/-- The state of `relinedFrom` at the end of a text. -/
def endsCR (afterCR : Bool) (s : PyStr) : Bool :=
  match s.getLast? with
  | some c => c.val == 0x0D
  | none => afterCR

theorem relinedFrom_append (s t : PyStr) (afterCR : Bool) :
    relinedFrom afterCR (s ++ t) = relinedFrom afterCR s ++ relinedFrom (endsCR afterCR s) t := by
  induction s generalizing afterCR with
  | nil => rfl
  | cons c s ih =>
      have hlast : ∀ b, (c.val == 0x0D) = b → endsCR b s = endsCR afterCR (c :: s) := by
        rintro b rfl
        rw [endsCR, endsCR, List.getLast?_cons]
        cases s.getLast? <;> rfl
      rw [List.cons_append, relinedFrom, relinedFrom]
      split
      · rename_i hskip
        rw [Bool.and_eq_true, beq_iff_eq] at hskip
        rw [ih, hlast false (by rw [hskip.2]; rfl)]
      split
      · rw [ih, hlast _ rfl, List.cons_append]
      · rename_i hbreak
        have hcr : (c.val == 0x0D) = false := by
          rw [beq_eq_false_iff_ne]
          intro heq
          exact hbreak (by simp [isLineBreak, heq])
        rw [ih, hlast false hcr, List.cons_append]

/-- Only a newline can complete a boundary. -/
theorem relinedFrom_cons {c : CodePoint} (hc : c ≠ cp '\n') (afterCR : Bool) (s : PyStr) :
    relinedFrom afterCR (c :: s) = relined (c :: s) := by
  have hne : (c.val == 0x0A) = false := by
    rw [beq_eq_false_iff_ne]
    intro heq
    exact hc (Fin.ext heq)
  rw [relined, relinedFrom, relinedFrom, hne, Bool.and_false, Bool.and_false]

/-- A text without line boundaries stays as it is. -/
theorem relinedFrom_of_plain {s : PyStr} (h : ∀ c ∈ s, isLineBreak c = false) (afterCR : Bool) :
    relinedFrom afterCR s = s := by
  induction s generalizing afterCR with
  | nil => rfl
  | cons c s ih =>
      rw [List.forall_mem_cons] at h
      have hnewline : (c.val == 0x0A) = false := by
        rw [beq_eq_false_iff_ne]
        intro heq
        have hbreak := h.1
        simp [isLineBreak, heq] at hbreak
      rw [relinedFrom, hnewline, Bool.and_false, if_neg Bool.false_ne_true, h.1,
        if_neg Bool.false_ne_true, ih h.2]

/-- Its characters are newlines and characters of the text. -/
theorem mem_relinedFrom {s : PyStr} {afterCR : Bool} {c : CodePoint}
    (h : c ∈ relinedFrom afterCR s) : c ∈ s ∨ c = cp '\n' ∧ ∃ b ∈ s, isLineBreak b = true := by
  induction s generalizing afterCR with
  | nil => cases h
  | cons d s ih =>
      have hmore : ∀ b, c ∈ relinedFrom b s →
          c ∈ d :: s ∨ c = cp '\n' ∧ ∃ b ∈ d :: s, isLineBreak b = true := by
        intro b hc
        rcases ih hc with hc | ⟨hc, b, hb, hbreak⟩
        · exact .inl (List.mem_cons_of_mem d hc)
        · exact .inr ⟨hc, b, List.mem_cons_of_mem d hb, hbreak⟩
      rw [relinedFrom] at h
      split at h
      · exact hmore false h
      split at h
      · rename_i hbreak
        rcases List.mem_cons.mp h with rfl | h
        · exact .inr ⟨rfl, d, List.mem_cons_self, hbreak⟩
        · exact hmore _ h
      · rcases List.mem_cons.mp h with rfl | h
        · exact .inl List.mem_cons_self
        · exact hmore false h

section Strip

theorem dropWhile_append_cons {α : Type} {p : α → Bool} {c : α} (hc : p c = false)
    (before after : List α) :
    (before ++ c :: after).dropWhile p = before.dropWhile p ++ c :: after := by
  rw [List.dropWhile_append]
  split
  · rename_i hall
    rw [List.isEmpty_iff.mp hall, List.dropWhile_cons, hc, if_neg Bool.false_ne_true,
      List.nil_append]
  · rfl

/-- `s.rstrip()`. -/
def rstrip (s : PyStr) : PyStr := (s.reverse.dropWhile isSpace).reverse

/-- What is stripped from around a text with no space at its ends. -/
theorem strip_around {c d : CodePoint} (hc : isSpace c = false) (hd : isSpace d = false)
    (before mid after : PyStr) :
    strip (before ++ (c :: (mid ++ [d]) ++ after)) =
      before.dropWhile isSpace ++ (c :: (mid ++ [d]) ++ rstrip after) := by
  rw [strip, List.cons_append, dropWhile_append_cons hc]
  have hreverse : (before.dropWhile isSpace ++ c :: (mid ++ [d] ++ after)).reverse =
      after.reverse ++ d :: (before.dropWhile isSpace ++ c :: mid).reverse := by
    simp
  rw [hreverse, dropWhile_append_cons hd, rstrip]
  simp

theorem dropWhile_of_space {s : PyStr} (h : ∀ c ∈ s, isSpace c = true) :
    s.dropWhile isSpace = [] :=
  List.dropWhile_eq_nil_iff.mpr h

theorem rstrip_of_space {s : PyStr} (h : ∀ c ∈ s, isSpace c = true) : rstrip s = [] := by
  rw [rstrip, dropWhile_of_space fun c hc => h c (List.mem_reverse.mp hc), List.reverse_nil]

theorem rstrip_sublist (s : PyStr) : ∀ c ∈ rstrip s, c ∈ s := by
  intro c hc
  exact List.mem_reverse.mp ((List.dropWhile_sublist isSpace).mem (List.mem_reverse.mp hc))

theorem strip_concat {c : CodePoint} (hc : isSpace c = true) (s : PyStr) :
    strip (s ++ [c]) = strip s := by
  rw [strip, strip, List.dropWhile_append]
  split
  · rename_i hall
    rw [List.isEmpty_iff.mp hall, List.dropWhile_cons, hc, if_pos rfl]
    rfl
  · rw [List.reverse_append, List.reverse_singleton, List.singleton_append, List.dropWhile_cons,
      hc, if_pos rfl]

theorem strip_join (lines : List PyStr) :
    strip (join [cp '\n'] lines) = strip (terminated lines) := by
  cases lines with
  | nil => rfl
  | cons first rest =>
      rw [← join_newline (List.cons_ne_nil first rest), strip_concat rfl]

end Strip

end SecureSdlc.Core.PyStr

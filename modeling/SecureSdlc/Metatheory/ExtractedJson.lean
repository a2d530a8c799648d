import SecureSdlc.Core.JsonLines
import SecureSdlc.Skills.Base

/-!
The JSON object in a model's answer. A text that stands alone is read as it is. One in a
code fence is taken apart into lines and put together again, which spares it unless a
string holds a line boundary; and prose around a text is read first, as far as it is JSON.
None of it helps a text that is beyond the limits of the reader.
-/

namespace SecureSdlc.Skills

open Core JsonText PyStr

def BraceFree (s : PyStr) : Prop := ∀ c ∈ s, c ≠ cp '\x7b' ∧ c ≠ cp '\x7d'

/-- What stands around a JSON text. -/
inductive Wrapping where
  | bare
  | fenced (tag : PyStr)
  | prose (before after : PyStr)

namespace Wrapping

def wrap : Wrapping → PyStr → PyStr
  | .bare, text => text
  | .fenced tag, text => fence ++ tag ++ py "\n" ++ text ++ py "\n" ++ fence
  | .prose before after, text => before ++ text ++ after

/-- A tag on one line; prose without braces that does not open a fence. -/
def Legal : Wrapping → Prop
  | .bare => True
  | .fenced tag => ∀ c ∈ tag, isLineBreak c = false
  | .prose before after =>
      BraceFree before ∧ BraceFree after ∧ ¬ startsWith (before.dropWhile isSpace) fence = true

/-- No string of a fenced text holds a line boundary, and the whole of a text in prose is no
text that `json.loads` gives up on with another exception than `JSONDecodeError`. -/
def Spares (rt : Runtime) (text : PyStr) : Wrapping → Prop
  | .bare => True
  | .fenced _ => ∀ c ∈ text, separator c = false
  | .prose before after =>
      ∀ e, loads rt (strip (before ++ text ++ after)) = .error e → e.kind = .jsonDecodeError

end Wrapping

open Wrapping

section Candidates

theorem findIdx_first {c : CodePoint} {before : PyStr} (h : ∀ d ∈ before, d ≠ c)
    (after : PyStr) : (before ++ c :: after).findIdx? (· == c) = some before.length := by
  have hnone : before.findIdx? (· == c) = none := by
    rw [List.findIdx?_eq_none_iff]
    exact fun d hd => beq_eq_false_iff_ne.mpr (h d hd)
  simp [List.findIdx?_append, hnone, List.findIdx?_cons]

theorem BraceFree.append {s t : PyStr} (hs : BraceFree s) (ht : BraceFree t) :
    BraceFree (s ++ t) :=
  List.forall_mem_append.mpr ⟨hs, ht⟩

theorem braceFree_of_all {s : PyStr}
    (h : s.all (fun c => decide (c ≠ cp '\x7b' ∧ c ≠ cp '\x7d')) = true) : BraceFree s :=
  fun c hc => of_decide_eq_true (List.all_eq_true.mp h c hc)

theorem candidates_around {before after : PyStr} (hbefore : BraceFree before)
    (hafter : BraceFree after) (inner : PyStr) :
    candidates (before ++ (cp '\x7b' :: (inner ++ [cp '\x7d']) ++ after)) =
      [before ++ (cp '\x7b' :: (inner ++ [cp '\x7d']) ++ after),
        cp '\x7b' :: (inner ++ [cp '\x7d'])] := by
  have hfirst : find (before ++ (cp '\x7b' :: (inner ++ [cp '\x7d']) ++ after)) (cp '\x7b') =
      some before.length :=
    findIdx_first (fun d hd => (hbefore d hd).1) _
  have hreverse : (before ++ (cp '\x7b' :: (inner ++ [cp '\x7d']) ++ after)).reverse =
      after.reverse ++ cp '\x7d' :: (before ++ cp '\x7b' :: inner).reverse := by
    simp
  have hlast : rfind (before ++ (cp '\x7b' :: (inner ++ [cp '\x7d']) ++ after)) (cp '\x7d') =
      some (before.length + inner.length + 1) := by
    have hindex := findIdx_first (c := cp '\x7d')
      (fun d hd => (hafter d (List.mem_reverse.mp hd)).2) (before ++ cp '\x7b' :: inner).reverse
    rw [rfind, hreverse, hindex, Option.map_some]
    simp only [List.length_append, List.length_cons, List.length_nil, List.length_reverse]
    congr 1
    omega
  have htake : (before ++ (cp '\x7b' :: (inner ++ [cp '\x7d']) ++ after)).take
      (before.length + inner.length + 1 + 1) = before ++ cp '\x7b' :: (inner ++ [cp '\x7d']) := by
    rw [← List.append_assoc]
    apply List.take_left'
    simp only [List.length_append, List.length_cons, List.length_nil]
    omega
  simp only [candidates, hfirst, hlast]
  rw [if_pos (by omega), htake, List.drop_left]

variable {rt : Runtime} {v : Mapping}

theorem firstObject_two {text core : PyStr} (hcore : loads rt core = .ok (.obj v))
    (hsame : ∀ fields, loads rt text = .ok (.obj fields) → fields = v) :
    firstObject rt [text, core] = .ok v ↔
      ∀ e, loads rt text = .error e → e.kind = .jsonDecodeError := by
  have hsecond : firstObject rt [core] = .ok v := by
    simp only [firstObject, hcore]
  rw [firstObject]
  split
  · rename_i fields htext
    rw [hsame fields htext, htext]
    exact ⟨fun _ _ h => (nomatch h), fun _ => rfl⟩
  · rename_i htext
    rw [hsecond, htext]
    exact ⟨fun _ _ h => (nomatch h), fun _ => rfl⟩
  · rename_i e htext
    rw [htext]
    split
    · rename_i hkind
      rw [hsecond]
      refine ⟨fun _ e' h => ?_, fun _ => rfl⟩
      rw [← Except.error.inj h]
      exact hkind
    · rename_i hkind
      exact ⟨fun h => (nomatch h), fun h => absurd (h e rfl) hkind⟩

theorem firstObject_refused {core : PyStr} (h : Refused (loads rt core)) :
    firstObject rt [core] ≠ .ok v := by
  obtain ⟨e, hcore, hkind⟩ := h
  intro hobject
  simp only [firstObject, hcore, hkind, if_false] at hobject
  cases hobject

theorem firstObject_twice {core : PyStr} :
    firstObject rt [core, core] = .ok v ↔ loads rt core = .ok (.obj v) := by
  simp only [firstObject]
  cases loads rt core with
  | error e =>
      dsimp only
      split
      · exact ⟨fun h => (nomatch h), fun h => (nomatch h)⟩
      · exact ⟨fun h => (nomatch h), fun h => (nomatch h)⟩
  | ok w =>
      cases w with
      | obj fields => simp
      | _ => simp

end Candidates

section Wrapped

variable {rt : Runtime} {digits nest : Nat} {gap inner gap' : PyStr} {v : Mapping}

theorem gap_nil : Gap [] := fun _ hc => absurd hc List.not_mem_nil

/-- A value alone is read exactly when it keeps to the limits. -/
theorem loads_core_iff {core : PyStr} {v : Json} (h : ValueText rt digits nest core v) :
    loads rt core = .ok v ↔ Fits digits nest rt.loadsRoom := by
  have halone := DocumentText.around gap_nil gap_nil h
  rw [List.append_nil, List.nil_append] at halone
  exact halone.loads_iff_fits

theorem refused_core {core : PyStr} {v : Json} (h : ValueText rt digits nest core v)
    (hfits : ¬ Fits digits nest rt.loadsRoom) : Refused (loads rt core) := by
  have halone := DocumentText.around gap_nil gap_nil h
  rw [List.append_nil, List.nil_append] at halone
  exact halone.refused hfits

theorem isSpace_of_blank {c : CodePoint} (h : isBlank c = true) : isSpace c = true := by
  have hcases := of_decide_eq_true h
  rcases hcases with rfl | rfl | rfl | rfl <;> rfl

theorem space_of_gap (h : Gap gap) : ∀ c ∈ gap, isSpace c = true :=
  fun c hc => isSpace_of_blank (h c hc)

theorem braceFree_of_gap (h : Gap gap) : BraceFree gap := by
  intro c hc
  have hblank := h c hc
  refine ⟨?_, ?_⟩
  · rintro rfl
    exact absurd hblank (by decide)
  · rintro rfl
    exact absurd hblank (by decide)

theorem unfence_of_not {text : PyStr} (h : ¬ startsWith (strip text) fence = true) :
    unfence text = strip text := by
  rw [unfence, if_neg h]

theorem strip_object (inner : PyStr) (hgap : Gap gap) (hgap' : Gap gap') :
    strip (gap ++ (cp '\x7b' :: (inner ++ [cp '\x7d']) ++ gap')) =
      cp '\x7b' :: (inner ++ [cp '\x7d']) := by
  rw [strip_around rfl rfl, dropWhile_of_space (space_of_gap hgap),
    rstrip_of_space (space_of_gap hgap'),
    List.nil_append, List.append_nil]

theorem candidates_object (inner : PyStr) :
    candidates (cp '\x7b' :: (inner ++ [cp '\x7d'])) =
      [cp '\x7b' :: (inner ++ [cp '\x7d']), cp '\x7b' :: (inner ++ [cp '\x7d'])] := by
  have hnil : BraceFree [] := fun c hc => absurd hc List.not_mem_nil
  have haround := candidates_around hnil hnil inner
  rwa [List.append_nil, List.nil_append] at haround

theorem extractJson_bare (hgap : Gap gap) (hgap' : Gap gap')
    (h : ValueText rt digits nest (cp '\x7b' :: (inner ++ [cp '\x7d'])) (.obj v)) :
    extractJson rt (gap ++ (cp '\x7b' :: (inner ++ [cp '\x7d']) ++ gap')) = .ok v ↔
      Fits digits nest rt.loadsRoom := by
  have hfence : ¬ startsWith (cp '\x7b' :: (inner ++ [cp '\x7d'])) fence = true := by
    rw [startsWith, decide_eq_true_eq]
    rintro ⟨rest, heq⟩
    exact absurd (List.cons.inj heq).1 (by decide)
  have hstrip := strip_object inner hgap hgap'
  rw [extractJson, unfence_of_not (by rwa [hstrip]), hstrip, candidates_object,
    firstObject_twice, loads_core_iff h]

/-- The lines between two fences. -/
theorem unfence_fenced {tag : PyStr} (htag : ∀ c ∈ tag, isLineBreak c = false) (text : PyStr) :
    unfence (Wrapping.wrap (.fenced tag) text) = strip (relined (text ++ [cp '\n'])) := by
  have htick : isSpace (codePoint 0x60) = false := rfl
  have hfence : fence = [codePoint 0x60, codePoint 0x60, codePoint 0x60] := rfl
  have hnewline : py "\n" = [cp '\n'] := rfl
  have hwrap : Wrapping.wrap (.fenced tag) text =
      (fence ++ tag) ++ cp '\n' :: (text ++ cp '\n' :: fence) := by
    simp [Wrapping.wrap, hnewline]
  have hstrip : strip (Wrapping.wrap (.fenced tag) text) = Wrapping.wrap (.fenced tag) text := by
    have haround := strip_around htick htick [] ([codePoint 0x60, codePoint 0x60] ++ tag ++
      cp '\n' :: (text ++ [cp '\n', codePoint 0x60, codePoint 0x60])) []
    have hnil : rstrip [] = [] := rfl
    rw [hnil, List.dropWhile_nil, List.nil_append, List.append_nil] at haround
    rw [hwrap, hfence]
    simpa using haround
  have hstarts : startsWith (strip (Wrapping.wrap (.fenced tag) text)) fence = true := by
    rw [hstrip, startsWith, decide_eq_true_eq, hwrap, List.append_assoc]
    exact List.prefix_append _ _
  have hopening : ∀ c ∈ fence ++ tag, isLineBreak c = false := by
    rw [List.forall_mem_append, hfence]
    simp only [List.forall_mem_cons]
    exact ⟨⟨rfl, rfl, rfl, by simp⟩, htag⟩
  obtain ⟨lines, hsplit, hterminated⟩ :=
    splitlinesFrom_newline text fence (by simp : false = true → ([] : PyStr) = [])
  have hclosing : splitlinesFrom false [] fence = [fence] := rfl
  have hlines : splitlines (strip (Wrapping.wrap (.fenced tag) text)) =
      (fence ++ tag) :: (lines ++ [fence]) := by
    rw [hstrip, hwrap, splitlines, splitlinesFrom_line hopening, hsplit, hclosing]
    rfl
  have hlast : startsWith (strip fence) fence = true := by decide
  rw [unfence, if_pos hstarts, hlines]
  dsimp only
  rw [List.drop_one, List.tail_cons, List.getLast?_concat]
  dsimp only
  rw [if_pos hlast, List.dropLast_concat, hnewline, strip_join, hterminated]
  rfl

theorem relined_braces (inner : PyStr) :
    relined (cp '\x7b' :: (inner ++ [cp '\x7d'])) =
      cp '\x7b' :: (relined inner ++ [cp '\x7d']) := by
  rw [relined_mark rfl, relined_gap inner rfl, relined_mark rfl]
  rfl

/-- A text in a fence comes back with a newline for each of its line boundaries. -/
theorem unfence_object {tag : PyStr} (htag : ∀ c ∈ tag, isLineBreak c = false)
    (hgap : Gap gap) (hgap' : Gap gap')
    (h : ValueText rt digits nest (cp '\x7b' :: (inner ++ [cp '\x7d'])) (.obj v)) :
    unfence (Wrapping.wrap (.fenced tag)
        (gap ++ (cp '\x7b' :: (inner ++ [cp '\x7d']) ++ gap'))) =
      relined (cp '\x7b' :: (inner ++ [cp '\x7d'])) := by
  have hnewline : Gap (gap' ++ [cp '\n']) := by
    intro c hc
    rcases List.mem_append.mp hc with hc | hc
    · exact hgap' c hc
    · rw [List.mem_singleton.mp hc]
      rfl
  rw [unfence_fenced htag, List.append_assoc, List.append_assoc,
    relined_leads gap (h.leads.append _), relined_closed h.closed, relined_braces,
    strip_object _ hgap.relined hnewline.relined]

theorem separator_in_core {core : PyStr} (hgap : Gap gap) (hgap' : Gap gap') :
    (∀ c ∈ gap ++ (core ++ gap'), separator c = false) ↔ ∀ c ∈ core, separator c = false := by
  have hblank : ∀ {gap : PyStr}, Gap gap → ∀ c ∈ gap, separator c = false := by
    intro gap hgap c hc
    have hcases := of_decide_eq_true (hgap c hc)
    rcases hcases with rfl | rfl | rfl | rfl <;> rfl
  rw [List.forall_mem_append, List.forall_mem_append]
  exact ⟨fun h => h.2.1, fun h => ⟨hblank hgap, h, hblank hgap'⟩⟩

theorem extractJson_fenced {tag : PyStr} (htag : ∀ c ∈ tag, isLineBreak c = false)
    (hgap : Gap gap) (hgap' : Gap gap')
    (h : ValueText rt digits nest (cp '\x7b' :: (inner ++ [cp '\x7d'])) (.obj v)) :
    extractJson rt (Wrapping.wrap (.fenced tag)
        (gap ++ (cp '\x7b' :: (inner ++ [cp '\x7d']) ++ gap'))) = .ok v ↔
      Fits digits nest rt.loadsRoom ∧
        ∀ c ∈ cp '\x7b' :: (inner ++ [cp '\x7d']), separator c = false := by
  rw [extractJson, unfence_object htag hgap hgap' h, relined_braces, candidates_object,
    firstObject_twice, ← relined_braces]
  by_cases hsep : ∀ c ∈ cp '\x7b' :: (inner ++ [cp '\x7d']), separator c = false
  · rw [loads_core_iff (h.relined hsep)]
    exact (and_iff_left hsep).symm
  · refine iff_of_false ?_ fun hkept => hsep hkept.2
    push Not at hsep
    obtain ⟨c, hc, hbreak⟩ := hsep
    have halone := DocumentText.around gap_nil gap_nil h
    rw [List.append_nil, List.nil_append] at halone
    exact halone.not_loads_relined ⟨c, hc, by simpa using hbreak⟩ _

/-- Two texts up to the same brace. -/
theorem braceFree_unique {before before' after after' : PyStr} (hbefore : BraceFree before)
    (hbefore' : BraceFree before')
    (h : before ++ cp '\x7b' :: after = before' ++ cp '\x7b' :: after') :
    before = before' ∧ after = after' := by
  have hfirst := findIdx_first (fun d hd => (hbefore d hd).1) after
  rw [h, findIdx_first (fun d hd => (hbefore' d hd).1) after', Option.some.injEq] at hfirst
  obtain ⟨hsame, hrest⟩ := List.append_inj h hfirst.symm
  exact ⟨hsame, (List.cons.inj hrest).2⟩

/-- The whole of a text in prose is no other object, and none at all beyond the limits. -/
theorem object_in_prose {before after : PyStr} (hbefore : BraceFree before)
    (h : ValueText rt digits nest (cp '\x7b' :: (inner ++ [cp '\x7d'])) (.obj v))
    {fields : Mapping} (hloads : loads rt
      (before ++ (cp '\x7b' :: (inner ++ [cp '\x7d']) ++ after)) = .ok (.obj fields)) :
    fields = v ∧ Fits digits nest rt.loadsRoom := by
  obtain ⟨digits', nest', hwhole, hfits⟩ := loads_iff.mp hloads
  generalize htext : before ++ (cp '\x7b' :: (inner ++ [cp '\x7d']) ++ after) = text at hwhole
  cases hwhole with
  | @around gap core gap' _ hgap hgap' hcore =>
      obtain ⟨inner', rfl⟩ := hcore.braces
      rw [List.cons_append, List.cons_append] at htext
      obtain ⟨-, hrest⟩ := braceFree_unique hbefore (braceFree_of_gap hgap) htext
      have hsame : cp '\x7b' :: (inner ++ [cp '\x7d']) ++ after =
          cp '\x7b' :: (inner' ++ [cp '\x7d']) ++ gap' :=
        congrArg (cp '\x7b' :: ·) hrest
      obtain ⟨hfields, -, hkeeps⟩ := h.unique hcore hfits hsame
      exact ⟨hfields.symm, hkeeps⟩

/-- A word in front of a text is in the part before it, or goes on with the text. -/
theorem prefix_in_front {α : Type} {word front rest : List α} (h : word <+: front ++ rest)
    (hrest : ∀ c more, rest = c :: more → c ∉ word) : word <+: front := by
  rcases List.prefix_or_prefix_of_prefix h (List.prefix_append front rest) with hfront | hlong
  · exact hfront
  · obtain ⟨more, rfl⟩ := hlong
    rw [List.prefix_append_right_inj] at h
    cases more with
    | nil => rw [List.append_nil]
    | cons c more =>
        obtain ⟨tail, heq⟩ := h
        exact absurd (by simp) (hrest c (more ++ tail) heq.symm)

/-- A text in prose opens no fence that the prose does not. -/
theorem not_fence_in_prose {before : PyStr}
    (h : ¬ startsWith (before.dropWhile isSpace) fence = true) (hgap : Gap gap) (rest : PyStr) :
    ¬ startsWith ((before ++ gap).dropWhile isSpace ++ cp '\x7b' :: rest) fence = true := by
  have hticks : fence = [codePoint 0x60, codePoint 0x60, codePoint 0x60] := rfl
  have hmember : ∀ {c : CodePoint}, c ∈ fence → c = codePoint 0x60 := by
    intro c hc
    simpa [hticks] using hc
  rw [startsWith, decide_eq_true_eq] at h ⊢
  intro hstarts
  rw [List.dropWhile_append] at hstarts
  split at hstarts
  · rw [dropWhile_of_space (space_of_gap hgap), List.nil_append] at hstarts
    obtain ⟨more, heq⟩ := hstarts
    exact absurd (List.cons.inj heq).1 (by decide)
  · rw [List.append_assoc] at hstarts
    refine h (prefix_in_front hstarts ?_)
    intro c more heq hc
    rw [hmember hc] at heq
    cases gap with
    | nil => exact absurd (List.cons.inj heq).1 (by decide)
    | cons d gap =>
        have hblank := hgap d List.mem_cons_self
        rw [(List.cons.inj heq).1] at hblank
        exact absurd hblank (by decide)

theorem extractJson_prose {before after : PyStr} (hbefore : BraceFree before)
    (hafter : BraceFree after)
    (hfence : ¬ startsWith (before.dropWhile isSpace) fence = true) (hgap : Gap gap)
    (hgap' : Gap gap')
    (h : ValueText rt digits nest (cp '\x7b' :: (inner ++ [cp '\x7d'])) (.obj v)) :
    extractJson rt (before ++ (gap ++ (cp '\x7b' :: (inner ++ [cp '\x7d']) ++ gap')) ++ after) =
        .ok v ↔
      Fits digits nest rt.loadsRoom ∧ ∀ e, loads rt (strip
        (before ++ (gap ++ (cp '\x7b' :: (inner ++ [cp '\x7d']) ++ gap')) ++ after)) = .error e →
          e.kind = .jsonDecodeError := by
  have hwhole : before ++ (gap ++ (cp '\x7b' :: (inner ++ [cp '\x7d']) ++ gap')) ++ after =
      (before ++ gap) ++ (cp '\x7b' :: (inner ++ [cp '\x7d']) ++ (gap' ++ after)) := by
    simp
  have hstrip := strip_around (by rfl : isSpace (cp '\x7b') = false)
    (by rfl : isSpace (cp '\x7d') = false) (before ++ gap) inner (gap' ++ after)
  have hfront : BraceFree ((before ++ gap).dropWhile isSpace) := fun c hc =>
    (hbefore.append (braceFree_of_gap hgap)) c ((List.dropWhile_sublist isSpace).mem hc)
  have hback : BraceFree (rstrip (gap' ++ after)) := fun c hc =>
    ((braceFree_of_gap hgap').append hafter) c (rstrip_sublist _ c hc)
  have hopen : ¬ startsWith (strip ((before ++ gap) ++
      (cp '\x7b' :: (inner ++ [cp '\x7d']) ++ (gap' ++ after)))) fence = true := by
    rw [hstrip, List.cons_append]
    exact not_fence_in_prose hfence hgap _
  rw [hwhole, extractJson, unfence_of_not hopen, hstrip, candidates_around hfront hback]
  by_cases hfits : Fits digits nest rt.loadsRoom
  · rw [and_iff_right hfits]
    exact firstObject_two ((loads_core_iff h).mpr hfits) fun fields hobject =>
      (object_in_prose hfront h hobject).1
  · refine iff_of_false ?_ fun hkept => hfits hkept.1
    have hcore := firstObject_refused (v := v) (refused_core h hfits)
    rw [firstObject]
    split
    · rename_i fields hobject
      exact absurd (object_in_prose hfront h hobject).2 hfits
    · exact hcore
    · split
      · exact hcore
      · exact fun hobject => nomatch hobject

end Wrapped

/-- A scalar that is no number is read without another error. -/
theorem readScalar_error {c : CodePoint} {rest : PyStr} {e : PyError} (hminus : c ≠ cp '-')
    (hdigit : isDigit c = false) (h : readScalar rt (c :: rest) = .error e) :
    e.kind = .jsonDecodeError := by
  rw [readScalar.eq_def] at h
  split at h
  · cases h
  · cases h
  · cases h
  split at h
  · cases h
  · cases h
  · cases h
  dsimp only at h
  rw [if_neg hminus, readNumber, hdigit, if_neg Bool.false_ne_true] at h
  rw [← Except.error.inj h]

/-- Prose that starts with a word is no obstacle. -/
theorem spares_of_words {text before after more : PyStr} {c : CodePoint}
    (hbefore : before.dropWhile isSpace = c :: more) (hdigit : isDigit c = false)
    (hc : c ∉ [cp '"', cp '[', cp '-', cp '\x7b']) :
    (Wrapping.prose before after).Spares rt text := by
  simp only [List.mem_cons, List.not_mem_nil, or_false, not_or] at hc
  obtain ⟨hquote, harr, hminus, hobj⟩ := hc
  have hspace : isSpace c = false := by
    have hfirst := List.head?_dropWhile_not isSpace before
    rw [hbefore] at hfirst
    simpa using hfirst
  have hblank : isBlank c = false := by
    rw [Bool.eq_false_iff]
    intro hblank
    rw [isSpace_of_blank hblank] at hspace
    cases hspace
  have hstrip : ∃ rest, strip (before ++ text ++ after) = c :: rest := by
    have hdrop : (before ++ (text ++ after)).dropWhile isSpace =
        c :: (more ++ (text ++ after)) := by
      rw [List.dropWhile_append, hbefore]
      rfl
    refine ⟨rstrip (more ++ (text ++ after)), ?_⟩
    have hlast := dropWhile_append_cons hspace (more ++ (text ++ after)).reverse []
    rw [List.append_assoc, strip, hdrop, List.reverse_cons, hlast, rstrip]
    simp
  obtain ⟨rest, hstrip⟩ := hstrip
  intro e he
  rw [hstrip, loads] at he
  split at he
  · rw [← Except.error.inj he]
  rw [skipBlanks_cons hblank, read_scalar hquote harr hobj] at he
  cases hread : readScalar rt (c :: rest) with
  | error e' =>
      rw [hread] at he
      rw [← Except.error.inj he]
      exact readScalar_error hminus hdigit hread
  | ok value =>
      rw [hread] at he
      change (if skipBlanks value.2 = [] then pure value.1 else decodeError) = _ at he
      split at he
      · cases he
      · rw [← Except.error.inj he]

/-- For every text of an object, whatever its spelling: it is extracted from its wrapping
exactly when it keeps to the limits of the reader and the wrapping spares it. -/
theorem extractJson_wrapped_iff {rt : Runtime} {digits nest : Nat} {text : PyStr} {v : Mapping}
    (w : Wrapping) (hlegal : w.Legal) (h : DocumentText rt digits nest text (.obj v)) :
    extractJson rt (w.wrap text) = .ok v ↔
      Fits digits nest rt.loadsRoom ∧ w.Spares rt text := by
  cases h with
  | @around gap core gap' _ hgap hgap' hspelt =>
      obtain ⟨inner, rfl⟩ := hspelt.braces
      cases w with
      | bare => exact (extractJson_bare hgap hgap' hspelt).trans (and_iff_left trivial).symm
      | fenced tag =>
          rw [extractJson_fenced hlegal hgap hgap' hspelt]
          exact and_congr_right fun _ => (separator_in_core hgap hgap').symm
      | prose before after =>
          obtain ⟨hbefore, hafter, hfence⟩ := hlegal
          exact extractJson_prose hbefore hafter hfence hgap hgap' hspelt

/-- Two answers of a model: one in a fence, one in a sentence. -/
theorem answers_extracted :
    extractJson Runtime.ascii (Wrapping.wrap (.fenced (py "json")) (py "\x7b\"a\": 1\x7d")) =
        .ok [(py "a", .int 1)] ∧
      extractJson Runtime.ascii (Wrapping.wrap (.prose (py "here: ") (py " thanks"))
        (py "\x7b\"a\": 2\x7d")) = .ok [(py "a", .int 2)] := by
  have hfirst : loads Runtime.ascii (py "\x7b\"a\": 1\x7d") = .ok (.obj [(py "a", .int 1)]) :=
    ok_of_toOption (by decide +kernel)
  have hsecond : loads Runtime.ascii (py "\x7b\"a\": 2\x7d") = .ok (.obj [(py "a", .int 2)]) :=
    ok_of_toOption (by decide +kernel)
  obtain ⟨digits, nest, hfirst, hfits⟩ := loads_iff.mp hfirst
  obtain ⟨digits', nest', hsecond, hfits'⟩ := loads_iff.mp hsecond
  refine ⟨(extractJson_wrapped_iff (.fenced (py "json")) ?_ hfirst).mpr ⟨hfits, ?_⟩,
    (extractJson_wrapped_iff (.prose (py "here: ") (py " thanks")) ?_ hsecond).mpr ⟨hfits', ?_⟩⟩
  · intro c hc
    have hall : (py "json").all (fun c => !isLineBreak c) = true := by decide
    simpa using List.all_eq_true.mp hall c hc
  · intro c hc
    have hall : (py "\x7b\"a\": 1\x7d").all (fun c => !separator c) = true := by decide
    simpa using List.all_eq_true.mp hall c hc
  · refine ⟨braceFree_of_all (by decide), braceFree_of_all (by decide), by decide⟩
  · exact spares_of_words (by decide : _ = cp 'h' :: py "ere: ") rfl (by decide)

/-- A line separator in a string ends the line within it. -/
theorem separator_not_extracted :
    ¬ ∀ (rt : Runtime) (digits nest : Nat) (text : PyStr) (v : Mapping) (w : Wrapping), w.Legal →
      DocumentText rt digits nest text (.obj v) → extractJson rt (w.wrap text) = .ok v := by
  intro h
  have hloads : loads Runtime.ascii (py "\x7b\"a\": \"" ++ [codePoint 0x2028] ++ py "\"\x7d") =
      .ok (.obj [(py "a", .str [codePoint 0x2028])]) := ok_of_toOption (by decide +kernel)
  obtain ⟨digits, nest, hspelt, -⟩ := loads_iff.mp hloads
  have hextract := h Runtime.ascii digits nest _ _ (.fenced []) (List.forall_mem_nil _) hspelt
  have hnone : (extractJson Runtime.ascii (Wrapping.wrap (.fenced [])
      (py "\x7b\"a\": \"" ++ [codePoint 0x2028] ++ py "\"\x7d"))).toOption = none := by
    decide +kernel
  rw [hextract] at hnone
  cases hnone

end SecureSdlc.Skills

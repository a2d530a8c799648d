import SecureSdlc.Core.JsonText

/-!
What `json.loads` raises: `JSONDecodeError` on other texts, `ValueError` on integers
that are too long or bytes of another encoding, `RecursionError` on deep nesting, and
nothing else. Which of them a text with several faults raises is left to the reader.
-/

namespace SecureSdlc.Core.JsonText

/-- The exceptions of `json.loads`. -/
def Failure (e : PyError) : Prop :=
  e.kind = .jsonDecodeError ∨ e.kind = .valueError ∨ e.kind = .recursionError

/-- A reader that raises only what `json.loads` does. -/
def Fails {α : Type} (outcome : Except PyError α) : Prop :=
  ∀ e, outcome = .error e → Failure e

theorem fails_ok {α : Type} (value : α) : Fails (.ok value : Except PyError α) :=
  fun _ h => nomatch h

theorem fails_decodeError {α : Type} : Fails (decodeError : Except PyError α) := by
  intro e h
  cases h
  exact .inl rfl

theorem fails_valueError {α : Type} :
    Fails (.error { kind := .valueError } : Except PyError α) := by
  intro e h
  cases h
  exact .inr (.inl rfl)

theorem fails_recursionError {α : Type} :
    Fails (.error { kind := .recursionError } : Except PyError α) := by
  intro e h
  cases h
  exact .inr (.inr rfl)

theorem Fails.bind {α β : Type} {first : Except PyError α} {next : α → Except PyError β}
    (h : Fails first) (hnext : ∀ value, Fails (next value)) : Fails (first >>= next) := by
  cases first with
  | error e =>
      intro e' h'
      cases h'
      exact h e rfl
  | ok value => exact hnext value

theorem fails_lowHalf (high : Nat) (rest : PyStr) : Fails (lowHalf high rest) := by
  rw [lowHalf.eq_def]
  split
  · split
    · split
      · exact fails_decodeError
      · split
        · exact fails_ok _
        · exact fails_ok _
    · exact fails_ok _
  · exact fails_ok _

theorem fails_readString (fuel : Nat) (s : PyStr) : Fails (readString fuel s) := by
  induction fuel generalizing s with
  | zero => exact fails_decodeError
  | succ fuel ih =>
      cases s with
      | nil => exact fails_decodeError
      | cons c rest =>
          have hmore : ∀ (c : CodePoint) (after : PyStr), Fails (do
              let read ← readString fuel after
              pure (c :: read.1, read.2)) :=
            fun c after => (ih after).bind fun _ => fails_ok _
          rw [readString.eq_def]
          dsimp only
          split
          · exact fails_ok _
          split
          · exact fails_decodeError
          split
          · split
            · exact fails_decodeError
            · split
              · split
                · exact fails_decodeError
                · exact (fails_lowHalf _ _).bind fun half => hmore half.1 half.2
              · split
                · exact fails_decodeError
                · exact hmore _ _
          · exact hmore _ _

theorem fails_readNumber (rt : Runtime) (negative : Bool) (s : PyStr) :
    Fails (readNumber rt negative s) := by
  rw [readNumber.eq_def]
  split
  · exact fails_decodeError
  · split
    · dsimp only
      split
      · split
        · split
          · exact fails_valueError
          · exact fails_ok _
        · exact fails_ok _
      · split
        · split
          · exact fails_valueError
          · exact fails_ok _
        · exact fails_ok _
    · exact fails_decodeError

theorem fails_readScalar (rt : Runtime) (s : PyStr) : Fails (readScalar rt s) := by
  rw [readScalar.eq_def]
  split
  · exact fails_ok _
  · exact fails_ok _
  · exact fails_ok _
  · split
    · exact fails_ok _
    · exact fails_ok _
    · exact fails_ok _
    · split
      · split
        · exact fails_readNumber rt true _
        · exact fails_readNumber rt false _
      · exact fails_decodeError

/-- By induction on the fuel that the three readers share. -/
theorem fails_readers (rt : Runtime) (fuel : Nat) :
    (∀ room s, Fails (read rt fuel room s)) ∧ (∀ room s, Fails (readItems rt fuel room s)) ∧
      ∀ room fields s, Fails (readFields rt fuel room fields s) := by
  induction fuel with
  | zero =>
      refine ⟨?_, ?_, ?_⟩
      · intro room s
        rw [read]
        exact fails_decodeError
      · intro room s
        rw [readItems]
        exact fails_decodeError
      · intro room fields s
        rw [readFields]
        exact fails_decodeError
  | succ fuel ih =>
      obtain ⟨hread, hitems, hfields⟩ := ih
      refine ⟨?_, ?_, ?_⟩
      · intro room s
        cases s with
        | nil =>
            rw [read]
            exact fails_decodeError
        | cons c rest =>
            rw [read.eq_def]
            dsimp only
            split
            · exact (fails_readString _ _).bind fun _ => fails_ok _
            split
            · split
              · exact fails_recursionError
              · split
                · split
                  · exact fails_ok _
                  · exact (hitems _ _).bind fun _ => fails_ok _
                · exact fails_decodeError
            split
            · split
              · exact fails_recursionError
              · split
                · split
                  · exact fails_ok _
                  · exact (hfields _ _ _).bind fun _ => fails_ok _
                · exact fails_decodeError
            · exact fails_readScalar rt _
      · intro room s
        rw [readItems]
        refine (hread room s).bind ?_
        rintro ⟨v, rest⟩
        dsimp only
        split
        · split
          · exact fails_ok _
          split
          · exact (hitems _ _).bind fun _ => fails_ok _
          · exact fails_decodeError
        · exact fails_decodeError
      · intro room fields s
        cases s with
        | nil =>
            rw [readFields]
            exact fails_decodeError
        | cons c rest =>
            rw [readFields]
            split
            · refine (fails_readString _ _).bind ?_
              rintro ⟨key, rest⟩
              dsimp only
              split
              · split
                · refine (hread _ _).bind ?_
                  rintro ⟨v, rest⟩
                  dsimp only
                  split
                  · split
                    · exact fails_ok _
                    split
                    · exact hfields _ _ _
                    · exact fails_decodeError
                  · exact fails_decodeError
                · exact fails_decodeError
              · exact fails_decodeError
            · exact fails_decodeError

theorem fails_loads (rt : Runtime) (text : PyStr) : Fails (loads rt text) := by
  rw [loads]
  split
  · exact fails_decodeError
  · refine ((fails_readers rt _).1 _ _).bind ?_
    rintro ⟨v, rest⟩
    dsimp only
    split
    · exact fails_ok _
    · exact fails_decodeError

theorem fails_loadsBytes (rt : Runtime) (data : Bytes) : Fails (loadsBytes rt data) := by
  rw [loadsBytes]
  split
  · exact fails_loads rt _
  · exact fails_valueError

end SecureSdlc.Core.JsonText

/-!
Pre- and postconditions for programs that act on a state and may raise. A program
that raises keeps the state it has reached, and the state has a postcondition of its
own then.
-/

namespace SecureSdlc.Core

universe u v
variable {ε σ α β : Type u} {τ : Type v}

/-- From a state in `pre` the program returns into `post` or raises into `fail`. -/
def Meets (pre : σ → Prop) (prog : EStateM ε σ α) (post : α → σ → Prop) (fail : σ → Prop) :
    Prop :=
  ∀ s, pre s → match prog s with
    | .ok a s' => post a s'
    | .error _ s' => fail s'

/-- The program of a computation that does not look at the state. -/
def raising (outcome : Except ε α) : EStateM ε σ α :=
  match outcome with
  | .ok a => pure a
  | .error e => throw e

variable {pre : σ → Prop} {post : α → σ → Prop} {fail : σ → Prop}

theorem estate_get (s : σ) : (EStateM.get : EStateM ε σ σ) s = .ok s s := rfl

theorem estate_set (s t : σ) : (EStateM.set t : EStateM ε σ PUnit) s = .ok ⟨⟩ t := rfl

theorem meets_pure (a : α) (h : ∀ s, pre s → post a s) :
    Meets pre (pure a : EStateM ε σ α) post fail :=
  fun s hs => h s hs

theorem meets_throw (e : ε) (h : ∀ s, pre s → fail s) : Meets pre (throw e) post fail :=
  fun s hs => h s hs

theorem meets_modify (f : σ → σ) {post : PUnit → σ → Prop} (h : ∀ s, pre s → post ⟨⟩ (f s)) :
    Meets pre (modify f : EStateM ε σ PUnit) post fail :=
  fun s hs => h s hs

theorem meets_get {post : σ → σ → Prop} (h : ∀ s, pre s → post s s) :
    Meets pre (get : EStateM ε σ σ) post fail :=
  fun s hs => h s hs

theorem meets_raising (outcome : Except ε α) (hfail : ∀ s, pre s → fail s)
    (h : ∀ a, outcome = .ok a → ∀ s, pre s → post a s) :
    Meets pre (raising outcome) post fail := by
  cases outcome with
  | error e => exact meets_throw e hfail
  | ok a => exact meets_pure a (h a rfl)

theorem meets_bind {M : α → σ → Prop} {post : β → σ → Prop} {first : EStateM ε σ α}
    {next : α → EStateM ε σ β} (hfirst : Meets pre first M fail)
    (hnext : ∀ a, Meets (M a) (next a) post fail) : Meets pre (first >>= next) post fail := by
  intro s hs
  have hmid := hfirst s hs
  simp only [bind, EStateM.bind]
  cases hrun : first s with
  | error e s' =>
      rw [hrun] at hmid
      exact hmid
  | ok a s' =>
      rw [hrun] at hmid
      exact hnext a s' hmid

/-- The program may change the state, but not this view of it. -/
def Keeps (view : σ → τ) (prog : EStateM ε σ α) : Prop :=
  ∀ s, match prog s with
    | .ok _ s' => view s' = view s
    | .error _ s' => view s' = view s

theorem keeps_raising (view : σ → τ) (outcome : Except ε α) :
    Keeps view (raising outcome : EStateM ε σ α) := by
  intro s
  cases outcome <;> rfl

/-- A condition on what is kept stays. -/
theorem meets_of_keeps {view : σ → τ} {prog : EStateM ε σ α} (h : Keeps view prog)
    (hpre : ∀ s s', view s' = view s → pre s → pre s') (hfail : ∀ s, pre s → fail s) :
    Meets pre prog (fun _ => pre) fail := by
  intro s hs
  have hkept := h s
  cases hrun : prog s with
  | error e s' =>
      rw [hrun] at hkept
      exact hfail s' (hpre s s' hkept hs)
  | ok a s' =>
      rw [hrun] at hkept
      exact hpre s s' hkept hs

theorem meets_of_and {fact : Prop} {prog : EStateM ε σ α}
    (h : fact → Meets pre prog post fail) : Meets (fun s => fact ∧ pre s) prog post fail :=
  fun s hs => h hs.1 s hs.2

/-- What every state before the program shows may be used about the program. -/
theorem meets_of_pre {F : Prop} {prog : EStateM ε σ α} (hfact : ∀ s, pre s → F)
    (h : F → Meets pre prog post fail) : Meets pre prog post fail :=
  fun s hs => h (hfact s hs) s hs

theorem meets_of_exists {pre : τ → σ → Prop} {prog : EStateM ε σ α}
    (h : ∀ x, Meets (pre x) prog post fail) : Meets (fun s => ∃ x, pre x s) prog post fail := by
  rintro s ⟨x, hs⟩
  exact h x s hs

theorem meets_imp {pre' : σ → Prop} {post' : α → σ → Prop} {fail' : σ → Prop}
    {prog : EStateM ε σ α} (h : Meets pre prog post fail) (hpre : ∀ s, pre' s → pre s)
    (hpost : ∀ a s, post a s → post' a s) (hfail : ∀ s, fail s → fail' s) :
    Meets pre' prog post' fail' := by
  intro s hs
  have hrun := h s (hpre s hs)
  cases hprog : prog s with
  | error e s' =>
      rw [hprog] at hrun
      exact hfail s' hrun
  | ok a s' =>
      rw [hprog] at hrun
      exact hpost a s' hrun

theorem meets_raising_of_ok {pre : σ → Prop} {post : α → σ → Prop} {fail : σ → Prop}
    {outcome : Except ε α} {a : α} (houtcome : outcome = .ok a) (h : ∀ s, pre s → post a s) :
    Meets pre (raising outcome) post fail := by
  rw [houtcome]
  exact meets_pure a h

end SecureSdlc.Core

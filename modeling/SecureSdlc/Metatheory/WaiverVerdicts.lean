import SecureSdlc.Metatheory.WaiverAgreement

/-!
The waiver decision of the control plane on its own. For waivers that pass their schema
it is characterised exactly, and grows with the list and shrinks with time. For waivers
that pass no schema the result below says on which lists the decision is made at all.
-/

namespace SecureSdlc.Waiver

open Core

section Reasons

variable {rt : Runtime} {now : Datetime}

theorem nodup_eraseDups {α : Type} [DecidableEq α] (xs : List α) : xs.eraseDups.Nodup := by
  induction hlength : xs.length using Nat.strong_induction_on generalizing xs with
  | _ n ih =>
      cases xs with
      | nil => exact List.nodup_nil
      | cons x rest =>
          have hless : (rest.filter fun y => !y == x).length < n := by
            rw [← hlength]
            exact Nat.lt_succ_of_le (List.length_filter_le _ rest)
          rw [List.eraseDups_cons, List.nodup_cons]
          refine ⟨?_, ih _ hless _ rfl⟩
          rw [List.mem_eraseDups, List.mem_filter]
          simp

theorem eraseDups_ne_nil {α : Type} [DecidableEq α] {xs : List α} (h : xs ≠ []) :
    xs.eraseDups ≠ [] := by
  obtain ⟨x, rest, rfl⟩ := List.exists_cons_of_ne_nil h
  rw [List.eraseDups_cons]
  exact List.cons_ne_nil _ _

theorem checkWaiver_valid {w : Mapping} {check : WaiverCheck}
    (h : checkWaiver rt w now = .ok check) : check.valid = check.reasonCodes.isEmpty := by
  rw [checkWaiver] at h
  obtain ⟨reasons, -, h⟩ := exists_ok_of_bind h
  obtain ⟨state, -, h⟩ := exists_ok_of_bind h
  cases h
  rfl

/-- A loop that blocks names a reason of every waiver it has looked at. -/
theorem firstInForce_reasons {collected : List Reason} {waivers : List Mapping}
    {d : BlockDecision} (h : firstInForce rt now collected waivers = .ok d)
    (hblocked : d.blocked = true) :
    ∃ more, d.reasonCodes = (collected ++ more).eraseDups ∧ (waivers ≠ [] → more ≠ []) := by
  induction waivers generalizing collected with
  | nil =>
      cases h
      exact ⟨[], by rw [List.append_nil], fun hne => absurd rfl hne⟩
  | cons w rest ih =>
      rw [firstInForce] at h
      obtain ⟨check, hcheck, h⟩ := exists_ok_of_bind h
      split at h
      · cases h
        cases hblocked
      · rename_i hinvalid
        obtain ⟨more, hreasons, -⟩ := ih h
        refine ⟨check.reasonCodes ++ more, by rw [hreasons, List.append_assoc], ?_⟩
        intro _ hempty
        rw [checkWaiver_valid hcheck, (List.append_eq_nil_iff.mp hempty).1] at hinvalid
        exact hinvalid rfl

/-- Whatever is blocked is blocked for a reason, and for none twice. -/
theorem evaluateRisk_reasons {riskId severity : PyStr} {waivers : List Mapping}
    {d : BlockDecision} (h : evaluateRisk rt riskId severity waivers now = .ok d)
    (hblocked : d.blocked = true) : d.reasonCodes ≠ [] ∧ d.reasonCodes.Nodup := by
  have hone : ∀ reason : Reason, [reason] ≠ [] ∧ [reason].Nodup :=
    fun reason => ⟨List.cons_ne_nil _ _, List.nodup_singleton _⟩
  rw [evaluateRisk] at h
  split at h
  · cases h
    exact hone _
  split at h
  · cases h
    exact hone _
  split at h
  · cases h
    cases hblocked
  split at h
  · cases h
    exact hone _
  obtain ⟨matching_, -, h⟩ := exists_ok_of_bind h
  split at h
  · cases h
    exact hone _
  · rename_i hmatching
    rw [List.isEmpty_iff] at hmatching
    obtain ⟨more, hreasons, hmore⟩ := firstInForce_reasons h hblocked
    rw [hreasons, List.nil_append]
    exact ⟨eraseDups_ne_nil (hmore hmatching), nodup_eraseDups more⟩

end Reasons

section Valid

variable (rt : Runtime) (riskId severity : PyStr)

/-- A waiver in the list lifts the block of a medium finding at this moment. -/
def Waived (waivers : List Mapping) (now : Datetime) : Prop :=
  ∃ w ∈ waivers, textField w (py "risk_id") = some riskId ∧ InForce rt w now

theorem InForce.earlier {rt : Runtime} {w : Mapping} {now later : Datetime}
    (h : InForce rt w later) (hle : now.asUtc.instant ≤ later.asUtc.instant) :
    InForce rt w now := by
  obtain ⟨expires, hexpires, hlt⟩ := h.unexpired
  exact { h with unexpired := ⟨expires, hexpires, Int.lt_of_le_of_lt hle hlt⟩ }

/-- The decision on waivers that pass their schema: its exact condition, its reasons, and
that more waivers, a different order or an earlier moment do not block what is allowed. -/
theorem waiver_decision_exact (waivers : List Mapping) (now : Datetime)
    (hvalid : ∀ w ∈ waivers, Contracts.waiver.valid (.obj w) = true) :
    ∃ d, evaluateRisk rt riskId severity waivers now = .ok d ∧
      (d.blocked = false ↔ severity = py "low" ∨
        severity = py "medium" ∧ Waived rt riskId waivers now) ∧
      (d.blocked = true → d.reasonCodes ≠ [] ∧ d.reasonCodes.Nodup) ∧
      ∀ (others : List Mapping) (moment : Datetime) (other : BlockDecision),
        (∀ w ∈ others, Contracts.waiver.valid (.obj w) = true) →
        evaluateRisk rt riskId severity others moment = .ok other →
        ((∀ w, w ∈ others ↔ w ∈ waivers) → moment = now → other.blocked = d.blocked) ∧
        (waivers ⊆ others → moment = now → d.blocked = false → other.blocked = false) ∧
        (others = waivers → now.asUtc.instant ≤ moment.asUtc.instant →
          other.blocked = false → d.blocked = false) := by
  have hspec : ∀ (list : List Mapping) (moment : Datetime),
      (∀ w ∈ list, Contracts.waiver.valid (.obj w) = true) →
      ∃ d, evaluateRisk rt riskId severity list moment = .ok d ∧
        (d.blocked = false ↔ severity = py "low" ∨
          severity = py "medium" ∧ Waived rt riskId list moment) :=
    fun list moment hlist => evaluateRisk_spec rt riskId severity list moment
      fun w hw => wellFormed_of_valid (hlist w hw)
  obtain ⟨d, hd, hiff⟩ := hspec waivers now hvalid
  refine ⟨d, hd, hiff, evaluateRisk_reasons hd, ?_⟩
  intro others moment other hothers heval
  obtain ⟨decided, hdecided, hother⟩ := hspec others moment hothers
  obtain rfl : decided = other := Except.ok.inj (hdecided.symm.trans heval)
  refine ⟨?_, ?_, ?_⟩
  · rintro hsame rfl
    have hwaived : Waived rt riskId others moment ↔ Waived rt riskId waivers moment := by
      simp only [Waived, hsame]
    rw [hwaived, ← hiff] at hother
    cases hblocked : d.blocked with
    | false => exact hother.mpr hblocked
    | true =>
        rw [hblocked] at hother
        exact Bool.eq_true_of_not_eq_false fun hfalse => nomatch hother.mp hfalse
  · rintro hsub rfl hallowed
    refine hother.mpr ((hiff.mp hallowed).imp_right ?_)
    rintro ⟨hmedium, w, hw, hforce⟩
    exact ⟨hmedium, w, hsub hw, hforce⟩
  · rintro rfl hle hallowed
    refine hiff.mpr ((hother.mp hallowed).imp_right ?_)
    rintro ⟨hmedium, w, hw, hrisk, hforce⟩
    exact ⟨hmedium, w, hw, hrisk, hforce.earlier hle⟩

theorem sampleWaiver_decided :
    ∃ d, evaluateRisk sampleRuntime (py "RISK-0003") (py "medium")
        [sampleWaiver (party "human" "security-reviewer")] sampleNow = .ok d ∧
      (d.blocked = false ↔ py "medium" = py "low" ∨ py "medium" = py "medium" ∧
        Waived sampleRuntime (py "RISK-0003")
          [sampleWaiver (party "human" "security-reviewer")] sampleNow) := by
  obtain ⟨d, hd, hiff, -⟩ := waiver_decision_exact sampleRuntime (py "RISK-0003") (py "medium")
    [sampleWaiver (party "human" "security-reviewer")] sampleNow (by decide)
  exact ⟨d, hd, hiff⟩

end Valid

section Malformed

variable (rt : Runtime) (w : Mapping)

/-- `str(waiver.get(key, …))` returns. -/
def Shown (key : PyStr) : Prop :=
  ∀ v, Assoc.get w key = some v → ∃ text, v.text rt = .ok text

/-- `waiver.get(key) or {}` has a method `get`. -/
def IsParty (key : PyStr) : Prop :=
  ∀ v, Assoc.get w key = some v → v.truthy = true → ∃ fields, v = .obj fields

/-- `str(waiver[key])` fails with a `ValueError` if at all. -/
def Caught (key : PyStr) : Prop :=
  ∀ v e, Assoc.get w key = some v → v.text rt = .error e → caught e = true

/-- What `check_waiver` needs of a waiver to return. The owner is read of a waiver that a
security reviewer approved, and the expiry of one with a creation time or that is active. -/
structure Checkable : Prop where
  severity : Shown rt w (py "severity")
  createdBy : IsParty w (py "created_by")
  approvedBy : IsParty w (py "approved_by")
  owner : partyText w (py "approved_by") (py "role") = some securityReviewerRole →
    IsParty w (py "owner")
  createdAt : Caught rt w (py "created_at")
  status : Shown rt w (py "status")
  expiresAt : (∃ moment, timestampAt rt w (py "created_at") = .ok moment) ∨
    textOr rt w (py "status") (py "active") = .ok (py "active") → Caught rt w (py "expires_at")

variable {rt w}

theorem exists_textOr_iff {key : PyStr} (dflt : PyStr) :
    (∃ text, textOr rt w key dflt = .ok text) ↔ Shown rt w key := by
  rw [textOr, Shown]
  cases Assoc.get w key with
  | none => simp
  | some v => simp

theorem partyHas_of_isParty {who : PyStr} (h : IsParty w who) (key text : PyStr) :
    partyHas (memberOrEmpty w who) key text = .ok (decide (partyText w who key = some text)) := by
  cases hw : Assoc.get w who with
  | none => simp [memberOrEmpty, hw, partyHas, partyText, Assoc.get]
  | some v =>
      cases htruthy : v.truthy with
      | true =>
          obtain ⟨fields, rfl⟩ := h v hw htruthy
          exact partyHas_memberOrEmpty ⟨fields, hw⟩ key text
      | false =>
          have hnone : v.get? key = none := by
            cases v with
            | obj fields =>
                cases fields with
                | nil => rfl
                | cons field rest => cases htruthy
            | _ => rfl
          simp [memberOrEmpty, hw, htruthy, partyHas, partyText, hnone, Assoc.get]

theorem exists_partyHas_iff {who key text : PyStr} :
    (∃ has, partyHas (memberOrEmpty w who) key text = .ok has) ↔ IsParty w who := by
  constructor
  · rintro ⟨has, h⟩ v hv htruthy
    simp only [memberOrEmpty, hv, htruthy, if_true] at h
    cases v with
    | obj fields => exact ⟨fields, rfl⟩
    | _ => cases h
  · intro h
    exact ⟨_, partyHas_of_isParty h key text⟩

/-- An error that a missing or unreadable timestamp ends in is caught. -/
theorem timestampAt_caught_iff {key : PyStr} :
    (∀ e, timestampAt rt w key = .error e → caught e = true) ↔ Caught rt w key := by
  rw [Caught, timestampAt]
  cases Assoc.get w key with
  | none =>
      simp only [Except.error.injEq, forall_eq', reduceCtorEq, false_implies, implies_true,
        iff_true]
      rfl
  | some v =>
      have hparse : ∀ text e, parseTimestamp rt text = .error e → caught e = true := by
        intro text e h
        simp only [parseTimestamp] at h
        split at h
        · cases h
        · cases h
          rfl
      constructor
      · intro h other e hother htext
        cases hother
        exact h e (by simp only [htext]; rfl)
      · intro h e hstamp
        cases htext : v.text rt with
        | error e' =>
            simp only [htext] at hstamp
            cases hstamp
            exact h v e rfl htext
        | ok text =>
            simp only [htext] at hstamp
            exact hparse text e hstamp

theorem exists_timeReasons_iff :
    (∃ reasons, timeReasons rt w = .ok reasons) ↔ Caught rt w (py "created_at") ∧
      ((∃ moment, timestampAt rt w (py "created_at") = .ok moment) →
        Caught rt w (py "expires_at")) := by
  rw [← timestampAt_caught_iff, ← timestampAt_caught_iff, timeReasons]
  cases timestampAt rt w (py "created_at") with
  | error e =>
      cases hcaught : caught e with
      | true => simp [bind, Except.bind, hcaught]
      | false => simp [bind, Except.bind, hcaught]
  | ok created =>
      cases timestampAt rt w (py "expires_at") with
      | error e =>
          cases hcaught : caught e with
          | true => simp [bind, Except.bind, hcaught]
          | false => simp [bind, Except.bind, hcaught]
      | ok expires => simp [bind, Except.bind, pure, Except.pure]

theorem exists_validateWaiver_iff :
    (∃ reasons, validateWaiver rt w = .ok reasons) ↔
      Shown rt w (py "severity") ∧ IsParty w (py "created_by") ∧ IsParty w (py "approved_by") ∧
      (partyText w (py "approved_by") (py "role") = some securityReviewerRole →
        IsParty w (py "owner")) ∧ ∃ reasons, timeReasons rt w = .ok reasons := by
  constructor
  · rintro ⟨reasons, h⟩
    rw [validateWaiver] at h
    obtain ⟨severity, hseverity, h⟩ := exists_ok_of_bind h
    obtain ⟨creatorHuman, hcreator, h⟩ := exists_ok_of_bind h
    obtain ⟨approverHuman, happrover, h⟩ := exists_ok_of_bind h
    obtain ⟨approverReviews, hreviews, h⟩ := exists_ok_of_bind h
    have hparty := exists_partyHas_iff.mp ⟨_, happrover⟩
    rw [partyHas_of_isParty hparty, Except.ok.injEq] at hreviews
    refine ⟨(exists_textOr_iff []).mp ⟨_, hseverity⟩, exists_partyHas_iff.mp ⟨_, hcreator⟩,
      hparty, ?_⟩
    cases approverReviews with
    | true =>
        obtain ⟨ownerReviews, howner, h⟩ := exists_ok_of_bind h
        obtain ⟨times, htimes, -⟩ := exists_ok_of_bind h
        exact ⟨fun _ => exists_partyHas_iff.mp ⟨_, howner⟩, times, htimes⟩
    | false =>
        obtain ⟨ownerReviews, -, h⟩ := exists_ok_of_bind h
        obtain ⟨times, htimes, -⟩ := exists_ok_of_bind h
        exact ⟨fun hrole => absurd hrole (of_decide_eq_false hreviews), times, htimes⟩
  · rintro ⟨hseverity, hcreator, happrover, howner, times, htimes⟩
    obtain ⟨severity, hseverity⟩ := (exists_textOr_iff []).mpr hseverity
    by_cases hrole : partyText w (py "approved_by") (py "role") = some securityReviewerRole
    · simp only [validateWaiver, hseverity, partyHas_of_isParty hcreator,
        partyHas_of_isParty happrover, partyHas_of_isParty (howner hrole), htimes, hrole,
        decide_true]
      exact ⟨_, rfl⟩
    · simp only [validateWaiver, hseverity, partyHas_of_isParty hcreator,
        partyHas_of_isParty happrover, htimes, hrole, decide_false]
      exact ⟨_, rfl⟩

theorem exists_waiverState_iff {now : Datetime} :
    (∃ state, waiverState rt w now = .ok state) ↔ Shown rt w (py "status") ∧
      (textOr rt w (py "status") (py "active") = .ok (py "active") →
        Caught rt w (py "expires_at")) := by
  rw [waiverState, exists_bind_iff, ← exists_textOr_iff (py "active"),
    ← timestampAt_caught_iff]
  cases hstatus : textOr rt w (py "status") (py "active") with
  | error e => simp
  | ok status =>
      by_cases hactive : status = py "active"
      · cases timestampAt rt w (py "expires_at") with
        | ok expires => simp [hactive, pure, Except.pure]
        | error e =>
            cases hcaught : caught e with
            | true => simp [hactive, hcaught, pure, Except.pure]
            | false => simp [hactive, hcaught]
      · simp [hactive, pure, Except.pure]

theorem exists_checkWaiver_iff (now : Datetime) :
    (∃ check, checkWaiver rt w now = .ok check) ↔ Checkable rt w := by
  have hcheck : (∃ check, checkWaiver rt w now = .ok check) ↔
      (∃ reasons, validateWaiver rt w = .ok reasons) ∧
        ∃ state, waiverState rt w now = .ok state := by
    rw [checkWaiver, exists_bind_iff]
    simp only [exists_bind_iff]
    constructor
    · rintro ⟨reasons, hreasons, state, hstate, -⟩
      exact ⟨⟨reasons, hreasons⟩, state, hstate⟩
    · rintro ⟨⟨reasons, hreasons⟩, state, hstate⟩
      exact ⟨reasons, hreasons, state, hstate, _, rfl⟩
  rw [hcheck, exists_validateWaiver_iff, exists_timeReasons_iff, exists_waiverState_iff]
  constructor
  · rintro ⟨⟨hseverity, hcreator, happrover, howner, hcreated, hdated⟩, hstatus, hactive⟩
    refine ⟨hseverity, hcreator, happrover, howner, hcreated, hstatus, ?_⟩
    rintro (hmoment | htext)
    · exact hdated hmoment
    · exact hactive htext
  · intro h
    exact ⟨⟨h.severity, h.createdBy, h.approvedBy, h.owner, h.createdAt,
      fun hmoment => h.expiresAt (.inl hmoment)⟩, h.status, fun htext => h.expiresAt (.inr htext)⟩

variable (rt w) in
/-- `check_waiver` finds the waiver to be in force. -/
def Valid (now : Datetime) : Prop :=
  ∃ check, checkWaiver rt w now = .ok check ∧ check.valid = true

variable (rt) in
/-- The waivers that can be checked, up to the first that is in force. -/
def CheckableUpTo (now : Datetime) : List Mapping → Prop
  | [] => True
  | w :: rest => Checkable rt w ∧ (Valid rt w now ∨ CheckableUpTo now rest)

variable (rt) in
/-- `str(waiver.get("risk_id", ""))` is the id. -/
def Names (riskId : PyStr) (w : Mapping) : Prop :=
  textOr rt w (py "risk_id") [] = .ok riskId

instance (riskId : PyStr) : DecidablePred (Names rt riskId) :=
  fun w => inferInstanceAs (Decidable (textOr rt w (py "risk_id") [] = .ok riskId))

theorem matchingWaivers_ok_iff (riskId : PyStr) {waivers : List Mapping} :
    (∃ matching_, matchingWaivers rt riskId waivers = .ok matching_) ↔
      ∀ w ∈ waivers, Shown rt w (py "risk_id") := by
  induction waivers with
  | nil => exact ⟨fun _ _ hw => (nomatch hw), fun _ => ⟨[], rfl⟩⟩
  | cons w rest ih =>
      rw [matchingWaivers, exists_bind_iff, List.forall_mem_cons, ← ih,
        ← exists_textOr_iff []]
      constructor
      · rintro ⟨id, hid, h⟩
        obtain ⟨others, hothers, -⟩ := exists_bind_iff.mp h
        exact ⟨⟨id, hid⟩, others, hothers⟩
      · rintro ⟨⟨id, hid⟩, others, hothers⟩
        exact ⟨id, hid, exists_bind_iff.mpr ⟨others, hothers, _, rfl⟩⟩

theorem matchingWaivers_eq {riskId : PyStr} {waivers matching_ : List Mapping}
    (h : matchingWaivers rt riskId waivers = .ok matching_) :
    matching_ = waivers.filter fun w => Names rt riskId w := by
  induction waivers generalizing matching_ with
  | nil =>
      cases h
      rfl
  | cons w rest ih =>
      rw [matchingWaivers] at h
      obtain ⟨id, hid, h⟩ := exists_ok_of_bind h
      obtain ⟨others, hothers, h⟩ := exists_ok_of_bind h
      cases h
      rw [ih hothers, List.filter_cons]
      by_cases hsame : id = riskId
      · subst hsame
        simp [Names, hid]
      · simp [Names, hid, hsame]

/-- The loop returns exactly when it can check what it comes to, and allows exactly when
one of the waivers is in force. -/
theorem firstInForce_decides {now : Datetime} {collected : List Reason} {waivers : List Mapping} :
    ((∃ d, firstInForce rt now collected waivers = .ok d) ↔ CheckableUpTo rt now waivers) ∧
      ∀ d, firstInForce rt now collected waivers = .ok d →
        (d.blocked = false ↔ ∃ w ∈ waivers, Valid rt w now) := by
  induction waivers generalizing collected with
  | nil =>
      refine ⟨⟨fun _ => trivial, fun _ => ⟨_, rfl⟩⟩, ?_⟩
      intro d h
      cases h
      simp
  | cons w rest ih =>
      rw [firstInForce, exists_bind_iff, CheckableUpTo, ← exists_checkWaiver_iff now]
      cases hcheck : checkWaiver rt w now with
      | error e => simp [Valid, hcheck, bind, Except.bind]
      | ok check =>
          obtain ⟨hreturns, hallows⟩ := @ih (collected ++ check.reasonCodes)
          cases hvalid : check.valid with
          | true =>
              refine ⟨by simp [Valid, hcheck, hvalid, pure, Except.pure], ?_⟩
              intro d h
              simp only [bind, Except.bind, hvalid, if_true] at h
              cases h
              simp [Valid, hcheck, hvalid]
          | false =>
              have hout : ¬ Valid rt w now := by
                rintro ⟨other, hother, hyes⟩
                rw [hcheck] at hother
                cases hother
                rw [hvalid] at hyes
                cases hyes
              refine ⟨by simp [hvalid, hout, hreturns], ?_⟩
              intro d h
              simp only [bind, Except.bind, hvalid, Bool.false_eq_true, if_false] at h
              simp [hallows d h, hout]

/-- On any list of mappings: whether the decision is made, and that it lifts the block of a
medium finding exactly for a waiver of the risk that is in force, wherever it stands. -/
theorem malformed_waivers_block_iff (rt : Runtime) (riskId severity : PyStr)
    (waivers : List Mapping) (now : Datetime) :
    (∃ d, evaluateRisk rt riskId severity waivers now = .ok d ∧
      (severity = py "medium" →
        (d.blocked = false ↔ ∃ w ∈ waivers, Names rt riskId w ∧ Valid rt w now))) ↔
      (severity = py "medium" → (∀ w ∈ waivers, Shown rt w (py "risk_id")) ∧
        CheckableUpTo rt now (waivers.filter fun w => Names rt riskId w)) := by
  by_cases hmedium : severity = py "medium"
  · subst hmedium
    simp only [true_implies]
    rw [evaluateRisk_medium, ← matchingWaivers_ok_iff riskId]
    cases hmatching : matchingWaivers rt riskId waivers with
    | error e => simp [Except.bind]
    | ok matching_ =>
        obtain rfl := matchingWaivers_eq hmatching
        have hvalid : (∃ w ∈ waivers.filter fun w => Names rt riskId w, Valid rt w now) ↔
            ∃ w ∈ waivers, Names rt riskId w ∧ Valid rt w now := by
          simp only [List.mem_filter, decide_eq_true_eq, and_assoc]
        obtain ⟨hreturns, hallows⟩ := @firstInForce_decides rt now []
          (waivers.filter fun w => Names rt riskId w)
        simp only [Except.bind, Except.ok.injEq, exists_eq', true_and]
        rw [← hvalid, ← hreturns]
        split
        · rename_i hempty
          rw [List.isEmpty_iff] at hempty
          simp [hempty, firstInForce]
        · constructor
          · rintro ⟨d, hd, -⟩
            exact ⟨d, hd⟩
          · rintro ⟨d, hd⟩
            exact ⟨d, hd, hallows d hd⟩
  · simp only [hmedium, false_implies, and_true, iff_true]
    simp only [evaluateRisk, hmedium, ne_eq, not_false_eq_true, if_true]
    split
    · exact ⟨_, rfl⟩
    split
    · exact ⟨_, rfl⟩
    split
    · exact ⟨_, rfl⟩
    · exact ⟨_, rfl⟩

/-- A creator that is a string: the waiver of a medium finding is read as a mapping. -/
theorem textCreator_raises :
    evaluateRisk Runtime.ascii (py "RISK-0003") (py "medium")
      [[(py "risk_id", .str (py "RISK-0003")), (py "created_by", .str (py "zarl3"))]] sampleNow =
        .error { kind := .attributeError } := by
  rfl

end Malformed

end SecureSdlc.Waiver

import SecureSdlc.Contracts.Schemas
import SecureSdlc.Metatheory.TransitionGate
import SecureSdlc.Waiver.Enforcement

/-!
The waiver rules of the transition gate against those of the control plane. For
waivers that pass the waiver schema the control plane's decision is characterised
by the members it reads; the gate reads fewer of them. The two parsers of
timestamps are independent parameters, so nothing here relies on their agreement.
-/

namespace SecureSdlc.Waiver

open Core

/-- A string member of a waiver. -/
def textField (w : Mapping) (key : PyStr) : Option PyStr :=
  (Assoc.get w key).bind Json.str?

/-- A string member of one of a waiver's parties. -/
def partyText (w : Mapping) (who key : PyStr) : Option PyStr :=
  ((Assoc.get w who).bind (·.get? key)).bind Json.str?

/-- What the waiver schema promises about the members the rules read. -/
structure WellFormed (w : Mapping) : Prop where
  severity : Assoc.get w (py "severity") = some (.str (py "medium"))
  riskId : ∃ s, Assoc.get w (py "risk_id") = some (.str s)
  status : ∃ s, Assoc.get w (py "status") = some (.str s)
  createdAt : ∃ s, Assoc.get w (py "created_at") = some (.str s)
  expiresAt : ∃ s, Assoc.get w (py "expires_at") = some (.str s)
  createdBy : ∃ fields, Assoc.get w (py "created_by") = some (.obj fields)
  approvedBy : ∃ fields, Assoc.get w (py "approved_by") = some (.obj fields)
  owner : ∃ fields, Assoc.get w (py "owner") = some (.obj fields)

theorem str_member {w : Mapping} {key : PyStr} {rule : StringRule}
    (h : ∃ v, Assoc.get w key = some v ∧ (Schema.string rule).valid v = true) :
    ∃ s, Assoc.get w key = some (.str s) := by
  obtain ⟨v, hv, hvalid⟩ := h
  obtain ⟨s, rfl, -⟩ := (Schema.valid_string_iff rule v).mp hvalid
  exact ⟨s, hv⟩

theorem party_member {w : Mapping} {key : PyStr}
    (h : ∃ v, Assoc.get w key = some v ∧ Contracts.actor.valid v = true) :
    ∃ fields, Assoc.get w key = some (.obj fields) := by
  obtain ⟨v, hv, hvalid⟩ := h
  obtain ⟨fields, rfl, -⟩ := Schema.valid_object hvalid
  exact ⟨fields, hv⟩

theorem wellFormed_of_valid {w : Mapping} (h : Contracts.waiver.valid (.obj w) = true) :
    WellFormed w := by
  have member (k : PyStr) (s : Schema) := Schema.valid_member (k := k) (s := s) h
  refine
    { severity := ?_
      riskId := str_member (member (py "risk_id") Contracts.identifier (by decide) rfl)
      status := str_member (member (py "status") _ (by decide) rfl)
      createdAt := str_member (member (py "created_at") Contracts.isoDateTime (by decide) rfl)
      expiresAt := str_member (member (py "expires_at") Contracts.isoDateTime (by decide) rfl)
      createdBy := party_member (member (py "created_by") Contracts.actor (by decide) rfl)
      approvedBy := party_member (member (py "approved_by") Contracts.actor (by decide) rfl)
      owner := party_member (member (py "owner") Contracts.actor (by decide) rfl) }
  obtain ⟨v, hv, hvalid⟩ := member (py "severity") (Contracts.exactly "medium") (by decide) rfl
  obtain ⟨s, rfl, hs⟩ := (Schema.valid_string_iff _ v).mp hvalid
  simp only [StringRule.admits, decide_eq_true_eq] at hs
  rw [hv, hs]

/-- The conditions under which the control plane accepts a waiver at `now`. -/
structure InForce (rt : Runtime) (w : Mapping) (now : Datetime) : Prop where
  creator : partyText w (py "created_by") (py "type") = some (py "human")
  approver : partyText w (py "approved_by") (py "type") = some (py "human")
  approverRole : partyText w (py "approved_by") (py "role") = some securityReviewerRole
  ownerRole : partyText w (py "owner") (py "role") ≠ some securityReviewerRole
  ordered : ∃ created expires, timestampAt rt w (py "created_at") = .ok created ∧
    timestampAt rt w (py "expires_at") = .ok expires ∧ created.instant < expires.instant
  active : textField w (py "status") = some (py "active")
  unexpired : ∃ expires, timestampAt rt w (py "expires_at") = .ok expires ∧
    now.asUtc.instant < expires.instant

theorem partyHas_memberOrEmpty {w : Mapping} {who : PyStr}
    (h : ∃ fields, Assoc.get w who = some (.obj fields)) (key text : PyStr) :
    partyHas (memberOrEmpty w who) key text = .ok (decide (partyText w who key = some text)) := by
  obtain ⟨fields, hw⟩ := h
  have hparty : memberOrEmpty w who = .obj fields := by
    cases fields <;> simp [memberOrEmpty, hw, Json.truthy]
  simp only [hparty, partyHas, partyText, hw, Option.bind_some, Json.get?]
  cases hg : Assoc.get fields key with
  | none => simp
  | some v => cases v <;> simp [Json.str?]

/-- A string member either holds a moment or fails with a `ValueError`. -/
theorem timestampAt_cases (rt : Runtime) {w : Mapping} {key : PyStr}
    (h : ∃ s, Assoc.get w key = some (.str s)) :
    (∃ moment, timestampAt rt w key = .ok moment) ∨
      timestampAt rt w key = .error { kind := .valueError } := by
  obtain ⟨s, hs⟩ := h
  simp only [timestampAt, hs, Json.text_str]
  change (∃ moment, parseTimestamp rt s = .ok moment) ∨ parseTimestamp rt s = _
  simp only [parseTimestamp]
  split
  · exact Or.inl ⟨_, rfl⟩
  · exact Or.inr rfl

theorem timeReasons_spec (rt : Runtime) {w : Mapping} (wf : WellFormed w) :
    ∃ reasons, timeReasons rt w = .ok reasons ∧
      (reasons = [] ↔ ∃ created expires, timestampAt rt w (py "created_at") = .ok created ∧
        timestampAt rt w (py "expires_at") = .ok expires ∧
        created.instant < expires.instant) := by
  rcases timestampAt_cases rt wf.createdAt with ⟨created, hc⟩ | hc
  · rcases timestampAt_cases rt wf.expiresAt with ⟨expires, he⟩ | he
    · refine ⟨_, by simp only [timeReasons, hc, he]; rfl, ?_⟩
      simp [hc, he]
    · exact ⟨[.invalidWaiver], by simp only [timeReasons, hc, he]; rfl, by simp [he]⟩
  · exact ⟨[.invalidWaiver], by simp only [timeReasons, hc]; rfl, by simp [hc]⟩

theorem validateWaiver_spec (rt : Runtime) {w : Mapping} (wf : WellFormed w) :
    ∃ reasons, validateWaiver rt w = .ok reasons ∧
      (reasons = [] ↔ partyText w (py "created_by") (py "type") = some (py "human") ∧
        partyText w (py "approved_by") (py "type") = some (py "human") ∧
        partyText w (py "approved_by") (py "role") = some securityReviewerRole ∧
        partyText w (py "owner") (py "role") ≠ some securityReviewerRole ∧
        ∃ created expires, timestampAt rt w (py "created_at") = .ok created ∧
          timestampAt rt w (py "expires_at") = .ok expires ∧
          created.instant < expires.instant) := by
  obtain ⟨times, htimes, hiff⟩ := timeReasons_spec rt wf
  simp only [← hiff]
  have hsev : textOr rt w (py "severity") [] = .ok (py "medium") := by
    simp [textOr, wf.severity]
  simp only [validateWaiver, hsev, partyHas_memberOrEmpty wf.createdBy,
    partyHas_memberOrEmpty wf.approvedBy, partyHas_memberOrEmpty wf.owner, htimes]
  by_cases hrole : partyText w (py "approved_by") (py "role") = some securityReviewerRole
  · refine ⟨_, by simp only [hrole, decide_true]; rfl, ?_⟩
    simp [isWaivable, hrole]
  · refine ⟨_, by simp only [hrole, decide_false]; rfl, ?_⟩
    simp [isWaivable, hrole]

theorem waiverState_spec (rt : Runtime) {w : Mapping} (wf : WellFormed w) (now : Datetime) :
    ∃ state, waiverState rt w now = .ok state ∧
      (state = py "active" ↔ textField w (py "status") = some (py "active") ∧
        ∃ expires, timestampAt rt w (py "expires_at") = .ok expires ∧
          now.asUtc.instant < expires.instant) := by
  obtain ⟨status, hs⟩ := wf.status
  have htext : textOr rt w (py "status") (py "active") = .ok status := by
    simp [textOr, hs]
  have hfield : textField w (py "status") = some status := by
    simp [textField, hs, Json.str?]
  simp only [waiverState, htext, hfield]
  by_cases hactive : status = py "active"
  · subst hactive
    rcases timestampAt_cases rt wf.expiresAt with ⟨expires, he⟩ | he
    · refine ⟨_, by simp only [he]; rfl, ?_⟩
      by_cases hlt : now.asUtc.instant < expires.instant
      · simp [he, hlt, Int.not_le.mpr hlt]
      · simp only [Int.not_lt.mp hlt, if_true, he]
        simp only [Except.ok.injEq, exists_eq_left', hlt, and_false, iff_false]
        decide
    · refine ⟨py "invalid", by simp only [he]; rfl, ?_⟩
      simp only [he]
      simp only [reduceCtorEq, false_and, exists_false, and_false, iff_false]
      decide
  · refine ⟨status, ?_, by simp [hactive]⟩
    simp only [bind, Except.bind, ne_eq, hactive, not_false_eq_true, if_true]
    rfl

theorem checkWaiver_spec (rt : Runtime) {w : Mapping} (wf : WellFormed w) (now : Datetime) :
    ∃ check, checkWaiver rt w now = .ok check ∧ (check.valid = true ↔ InForce rt w now) := by
  obtain ⟨reasons, hreasons, hvalid⟩ := validateWaiver_spec rt wf
  obtain ⟨state, hstate, hactive⟩ := waiverState_spec rt wf now
  simp only [checkWaiver, hreasons, hstate]
  refine ⟨_, rfl, ?_⟩
  have hstateReasons :
      ((if state = py "expired" then [Reason.waiverExpired]
        else if state = py "revoked" then [.waiverRevoked]
        else if state ≠ py "active" then [.invalidWaiver] else []) = [] ↔
      state = py "active") := by
    constructor
    · intro h
      by_contra hne
      simp only [hne, ne_eq, not_false_eq_true, if_true] at h
      split at h <;> first | cases h | (split at h <;> cases h)
    · rintro rfl
      decide
  simp only [List.isEmpty_iff, List.append_eq_nil_iff, hstateReasons, hvalid, hactive]
  constructor
  · rintro ⟨⟨h₁, h₂, h₃, h₄, h₅⟩, h₆, h₇⟩
    exact ⟨h₁, h₂, h₃, h₄, h₅, h₆, h₇⟩
  · rintro ⟨h₁, h₂, h₃, h₄, h₅, h₆, h₇⟩
    exact ⟨⟨h₁, h₂, h₃, h₄, h₅⟩, h₆, h₇⟩

theorem matchingWaivers_spec (rt : Runtime) (riskId : PyStr) (waivers : List Mapping)
    (wf : ∀ w ∈ waivers, WellFormed w) :
    ∃ matching_, matchingWaivers rt riskId waivers = .ok matching_ ∧
      ∀ w, w ∈ matching_ ↔ w ∈ waivers ∧ textField w (py "risk_id") = some riskId := by
  induction waivers with
  | nil => exact ⟨[], rfl, by simp⟩
  | cons w rest ih =>
      obtain ⟨others, hothers, hmem⟩ := ih fun w' hw' => wf w' (List.mem_cons_of_mem _ hw')
      obtain ⟨s, hs⟩ := (wf w List.mem_cons_self).riskId
      have htext : textOr rt w (py "risk_id") [] = .ok s := by simp [textOr, hs]
      have hfield : textField w (py "risk_id") = some s := by simp [textField, hs, Json.str?]
      refine ⟨_, by simp only [matchingWaivers, htext, hothers]; rfl, ?_⟩
      intro w'
      by_cases hid : s = riskId
      · simp only [hid, if_true, List.mem_cons, hmem]
        constructor
        · rintro (rfl | ⟨hin, hrisk⟩)
          · exact ⟨Or.inl rfl, by rw [hfield, hid]⟩
          · exact ⟨Or.inr hin, hrisk⟩
        · rintro ⟨rfl | hin, hrisk⟩
          · exact Or.inl rfl
          · exact Or.inr ⟨hin, hrisk⟩
      · simp only [hid, if_false, List.mem_cons, hmem]
        constructor
        · rintro ⟨hin, hrisk⟩
          exact ⟨Or.inr hin, hrisk⟩
        · rintro ⟨rfl | hin, hrisk⟩
          · rw [hfield] at hrisk
            exact absurd (Option.some.inj hrisk) hid
          · exact ⟨hin, hrisk⟩

theorem firstInForce_spec (rt : Runtime) (now : Datetime) (waivers : List Mapping)
    (collected : List Reason) (wf : ∀ w ∈ waivers, WellFormed w) :
    ∃ d, firstInForce rt now collected waivers = .ok d ∧
      (d.blocked = false ↔ ∃ w ∈ waivers, InForce rt w now) := by
  induction waivers generalizing collected with
  | nil => exact ⟨_, rfl, by simp⟩
  | cons w rest ih =>
      obtain ⟨check, hcheck, hvalid⟩ := checkWaiver_spec rt (wf w List.mem_cons_self) now
      obtain ⟨d, hd, hiff⟩ := ih (collected ++ check.reasonCodes)
        fun w' hw' => wf w' (List.mem_cons_of_mem _ hw')
      by_cases hok : check.valid = true
      · refine ⟨⟨false, []⟩, ?_, ?_⟩
        · simp only [firstInForce, hcheck]
          simp [bind, Except.bind, hok]
          rfl
        · simp [hvalid.mp hok]
      · refine ⟨d, ?_, ?_⟩
        · simp only [firstInForce, hcheck]
          simpa [bind, Except.bind, hok] using hd
        · have hout : ¬ InForce rt w now := fun h => hok (hvalid.mpr h)
          simp [hiff, hout]

theorem evaluateRisk_medium (rt : Runtime) (riskId : PyStr) (waivers : List Mapping)
    (now : Datetime) :
    evaluateRisk rt riskId (py "medium") waivers now =
      (matchingWaivers rt riskId waivers).bind fun matching_ =>
        if matching_.isEmpty then .ok ⟨true, [.waiverMissing]⟩
        else firstInForce rt now [] matching_ := rfl

/-- When a finding does not block, for waivers that pass their schema. -/
theorem evaluateRisk_spec (rt : Runtime) (riskId severity : PyStr)
    (waivers : List Mapping) (now : Datetime) (wf : ∀ w ∈ waivers, WellFormed w) :
    ∃ d, evaluateRisk rt riskId severity waivers now = .ok d ∧
      (d.blocked = false ↔ severity = py "low" ∨ (severity = py "medium" ∧
        ∃ w ∈ waivers, textField w (py "risk_id") = some riskId ∧ InForce rt w now)) := by
  by_cases hmed : severity = py "medium"
  · subst hmed
    have hlow : py "medium" ≠ py "low" := by decide
    obtain ⟨matching_, hm, hmem⟩ := matchingWaivers_spec rt riskId waivers wf
    obtain ⟨d, hd, hiff⟩ := firstInForce_spec rt now matching_ []
      fun w hw => wf w ((hmem w).mp hw).1
    have hexists : (∃ w ∈ matching_, InForce rt w now) ↔
        ∃ w ∈ waivers, textField w (py "risk_id") = some riskId ∧ InForce rt w now := by
      simp only [hmem, and_assoc]
    rw [evaluateRisk_medium, hm]
    by_cases hempty : matching_ = []
    · refine ⟨⟨true, [.waiverMissing]⟩, by rw [hempty]; rfl, ?_⟩
      simp [hlow, ← hexists, hempty]
    · refine ⟨d, by simpa [Except.bind, hempty] using hd, ?_⟩
      simp [hlow, hiff, hexists]
  · by_cases hlow : severity = py "low"
    · subst hlow
      exact ⟨⟨false, []⟩, rfl, by simp⟩
    · simp only [evaluateRisk, hlow, hmed, if_false, ne_eq, not_false_eq_true, if_true,
        false_and, or_false]
      split
      · exact ⟨_, rfl, by simp⟩
      · split
        · exact ⟨_, rfl, by simp⟩
        · exact ⟨_, rfl, by simp⟩

open Core.Rego Policy.ArtifactTransition

structure Finding where
  riskId : PyStr
  severity : PyStr

def Finding.document (f : Finding) : Mapping :=
  [(py "risk_id", .str f.riskId), (py "severity", .str f.severity)]

structure Transition where
  artifactType : PyStr
  fromStatus : PyStr
  toStatus : PyStr
  actor : Mapping

/-- The gate's input for a transition that carries findings and waivers. -/
def Transition.input (t : Transition) (now : PyStr) (findings : List Finding)
    (waivers : List Mapping) : Json :=
  buildTransitionInput t.artifactType t.fromStatus t.toStatus t.actor (some now)
    (findings.map Finding.document) waivers

variable (opa : Engine) (t : Transition) (now : PyStr) (findings : List Finding)
  (waivers : List Mapping)

theorem input_findings :
    Policy.ArtifactTransition.findings (t.input now findings waivers) =
      some (.arr (findings.map fun f => .obj f.document)) := by
  cases findings with
  | nil => cases waivers <;> rfl
  | cons f rest =>
      have hmap : (rest.map Finding.document).map Json.obj =
          rest.map fun f => .obj f.document := by simp
      simp only [List.map_cons, ← hmap]
      rfl

theorem input_waivers :
    Policy.ArtifactTransition.waivers (t.input now findings waivers) =
      some (.arr (waivers.map .obj)) := by
  cases findings <;> cases waivers <;> rfl

theorem input_now : field (some (t.input now findings waivers)) (py "now") = some (.str now) := by
  cases findings <;> cases waivers <;> rfl

/-- The members the gate reads of a waiver for a risk. -/
structure GateAccepts (opa : Engine) (now : PyStr) (w : Mapping) (riskId : PyStr) : Prop where
  risk : textField w (py "risk_id") = some riskId
  severity : textField w (py "severity") = some (py "medium")
  active : textField w (py "status") = some (py "active")
  unexpired : ∃ n text e, opa.parseRfc3339Ns now = some n ∧
    textField w (py "expires_at") = some text ∧ opa.parseRfc3339Ns text = some e ∧ n < e

theorem isText_textField (w : Mapping) (key text : PyStr) :
    isText (field (some (.obj w)) key) text = true ↔ textField w key = some text := by
  simp only [field, Option.bind_some, Json.get?, textField]
  cases Assoc.get w key with
  | none => simp [isText]
  | some v => cases v <;> simp [isText, Json.str?]

theorem waiverIsUnexpired_iff (w : Mapping) :
    waiverIsUnexpired opa (t.input now findings waivers) (.obj w) = true ↔
      ∃ n text e, opa.parseRfc3339Ns now = some n ∧ textField w (py "expires_at") = some text ∧
        opa.parseRfc3339Ns text = some e ∧ n < e := by
  have hexpires : field (some (.obj w)) (py "expires_at") = Assoc.get w (py "expires_at") := rfl
  simp only [waiverIsUnexpired, input_now, hexpires, textField]
  cases Assoc.get w (py "expires_at") with
  | none => simp
  | some v =>
      cases v with
      | str text =>
          cases hn : opa.parseRfc3339Ns now <;> cases he : opa.parseRfc3339Ns text <;>
            simp [Json.str?, hn, he]
      | _ => simp [Json.str?]

theorem mediumIsWaived_iff (riskId : PyStr) :
    mediumIsWaived opa (t.input now findings waivers) (.str riskId) = true ↔
      ∃ w ∈ waivers, GateAccepts opa now w riskId := by
  have hrisk (w : Mapping) : (field (some (.obj w)) (py "risk_id")).any
      (opa.eq · (.str riskId)) = true ↔ textField w (py "risk_id") = some riskId := by
    simp only [field, Option.bind_some, Json.get?, textField]
    cases Assoc.get w (py "risk_id") with
    | none => simp
    | some v => cases v <;> simp [Engine.eq, Json.str?]
  simp only [mediumIsWaived, input_waivers, elements, List.any_map, List.any_eq_true,
    Function.comp, Bool.and_eq_true, hrisk, isText_textField, waiverIsUnexpired_iff]
  constructor
  · rintro ⟨w, hw, ⟨⟨h₁, h₂⟩, h₃⟩, h₄⟩
    exact ⟨w, hw, h₁, h₂, h₃, h₄⟩
  · rintro ⟨w, hw, h₁, h₂, h₃, h₄⟩
    exact ⟨w, hw, ⟨⟨h₁, h₂⟩, h₃⟩, h₄⟩

theorem fires_blockingFinding_iff :
    fires opa (t.input now findings waivers) .blockingFinding = true ↔
      ∃ f ∈ findings, f.severity = py "critical" ∨ f.severity = py "high" := by
  simp only [fires, input_findings, elements, List.any_map, List.any_eq_true, Function.comp]
  refine exists_congr fun f => and_congr_right fun _ => ?_
  change inSet blockingSeverities (.str f.severity) = true ↔ _
  simp [inSet, blockingSeverities]

theorem fires_unresolvedMedium_iff :
    fires opa (t.input now findings waivers) .unresolvedMedium = true ↔
      ∃ f ∈ findings, f.severity = py "medium" ∧
        ¬ ∃ w ∈ waivers, GateAccepts opa now w f.riskId := by
  simp only [fires, input_findings, elements, List.any_map, List.any_eq_true, Function.comp,
    Bool.and_eq_true, ← mediumIsWaived_iff opa t now findings waivers]
  refine exists_congr fun f => and_congr_right fun _ => and_congr ?_ ?_
  · exact (isText_textField f.document (py "severity") (py "medium")).trans
      ⟨fun h => Option.some.inj h, fun h => congrArg some h⟩
  · change (!mediumIsWaived opa _ (.str f.riskId)) = true ↔ _
    simp

/-- A rule that does not look at findings denies the transition. -/
def RefusedOutright (opa : Engine) (input : Json) : Prop :=
  ∃ r ∈ [DenyReason.agentMayNotApprove, .illegalTransition, .unknownArtifactType, .unknownStatus],
    fires opa input r = true

theorem decision_allow_iff_findings (input : Json) :
    (decision opa input).allow = true ↔ ¬ RefusedOutright opa input ∧
      fires opa input .blockingFinding ≠ true ∧ fires opa input .unresolvedMedium ≠ true := by
  rw [decision_allow_iff]
  constructor
  · intro h
    refine ⟨?_, by simp [h], by simp [h]⟩
    rintro ⟨r, -, hr⟩
    rw [h r] at hr
    cases hr
  · rintro ⟨hother, hblock, hmedium⟩ r
    by_contra hr
    have hr' : fires opa input r = true := by simpa using hr
    cases r with
    | blockingFinding => exact hblock hr'
    | unresolvedMedium => exact hmedium hr'
    | _ => exact hother ⟨_, by simp, hr'⟩

/-- Exactly when an allowed transition leaves no finding blocked by the control
plane's rules. -/
theorem allowed_unblocked_iff (rt : Runtime) (moment : Datetime)
    (schemaValid : ∀ w ∈ waivers, Contracts.waiver.valid (.obj w) = true) :
    ((decision opa (t.input now findings waivers)).allow = true →
        ∀ f ∈ findings, ∃ d, evaluateRisk rt f.riskId f.severity waivers moment = .ok d ∧
          d.blocked = false) ↔
      (RefusedOutright opa (t.input now findings waivers) ∨
        (∃ f ∈ findings, f.severity = py "critical" ∨ f.severity = py "high") ∨
        (∃ f ∈ findings, f.severity = py "medium" ∧
          ¬ ∃ w ∈ waivers, GateAccepts opa now w f.riskId) ∨
        ∀ f ∈ findings, f.severity = py "low" ∨ (f.severity = py "medium" ∧
          ∃ w ∈ waivers, textField w (py "risk_id") = some f.riskId ∧ InForce rt w moment)) := by
  have wf : ∀ w ∈ waivers, WellFormed w := fun w hw => wellFormed_of_valid (schemaValid w hw)
  have unblocked (f : Finding) :
      (∃ d, evaluateRisk rt f.riskId f.severity waivers moment = .ok d ∧ d.blocked = false) ↔
        (f.severity = py "low" ∨ (f.severity = py "medium" ∧
          ∃ w ∈ waivers, textField w (py "risk_id") = some f.riskId ∧ InForce rt w moment)) := by
    obtain ⟨d, hd, hiff⟩ := evaluateRisk_spec rt f.riskId f.severity waivers moment wf
    simp only [hd, Except.ok.injEq, exists_eq_left', hiff]
  simp only [unblocked, decision_allow_iff_findings, ne_eq, fires_blockingFinding_iff,
    fires_unresolvedMedium_iff]
  constructor
  · intro h
    by_cases hother : RefusedOutright opa (t.input now findings waivers)
    · exact Or.inl hother
    · refine Or.inr ?_
      by_cases hblock : ∃ f ∈ findings, f.severity = py "critical" ∨ f.severity = py "high"
      · exact Or.inl hblock
      · refine Or.inr ?_
        by_cases hmedium : ∃ f ∈ findings, f.severity = py "medium" ∧
            ¬ ∃ w ∈ waivers, GateAccepts opa now w f.riskId
        · exact Or.inl hmedium
        · exact Or.inr (h ⟨hother, hblock, hmedium⟩)
  · rintro (hother | hblock | hmedium | hall) ⟨nother, nblock, nmedium⟩
    · exact absurd hother nother
    · exact absurd hblock nblock
    · exact absurd hmedium nmedium
    · exact hall

/-- The moments of the sample waiver and of a request in between, in microseconds. -/
def sampleMoments : List (String × Int) :=
  [("2026-09-21T12:15:00", 1789992900000000),
    ("2026-10-01T00:00:00", 1790812800000000),
    ("2026-12-21T00:00:00", 1797811200000000)]

def sampleRuntime : Runtime where
  __ := Runtime.ascii
  fromisoformat := fun s => (sampleMoments.find? fun m => decide (py (m.1 ++ "+00:00") = s)).map
    fun m => ⟨m.2, some 0⟩

def sampleEngine : Engine where
  negation := .bindsFirst
  numEq := fun _ _ => false
  parseRfc3339Ns := fun s => (sampleMoments.find? fun m => decide (py (m.1 ++ "Z") = s)).map
    fun m => m.2 * 1000

def party (kind role : String) : Json :=
  .obj [(py "type", .str (py kind)), (py "id", .str (py "zarl3")), (py "role", .str (py role))]

/-- The sample waiver of the repository, with the approver as a parameter. -/
def sampleWaiver (approvedBy : Json) : Mapping :=
  [(py "schema_version", .str (py "1.0.0")),
    (py "artifact_type", .str (py "waiver")),
    (py "id", .str (py "WAIVER-0001")),
    (py "created_at", .str (py "2026-09-21T12:15:00Z")),
    (py "created_by", party "human" "platform-owner"),
    (py "risk_id", .str (py "RISK-0003")),
    (py "severity", .str (py "medium")),
    (py "justification", .str (py "demo load only")),
    (py "compensating_control", .str (py "idempotent worker")),
    (py "owner", party "human" "platform-owner"),
    (py "expires_at", .str (py "2026-12-21T00:00:00Z")),
    (py "status", .str (py "active")),
    (py "approved_by", approvedBy)]

def sampleTransition : Transition where
  artifactType := py "specification"
  fromStatus := py "in_review"
  toStatus := py "approved"
  actor := humanAuthor

def sampleFinding : Finding := ⟨py "RISK-0003", py "medium"⟩

def sampleNow : Datetime := ⟨1790812800000000, some 0⟩

theorem sampleWaiver_agrees :
    (∀ w ∈ [sampleWaiver (party "human" "security-reviewer")],
        Contracts.waiver.valid (.obj w) = true) ∧
      ∃ d, evaluateRisk sampleRuntime (py "RISK-0003") (py "medium")
        [sampleWaiver (party "human" "security-reviewer")] sampleNow = .ok d ∧
        d.blocked = false := by
  have hvalid : ∀ w ∈ [sampleWaiver (party "human" "security-reviewer")],
      Contracts.waiver.valid (.obj w) = true := by decide
  have force : InForce sampleRuntime (sampleWaiver (party "human" "security-reviewer")) sampleNow :=
    ⟨rfl, rfl, rfl, by decide, ⟨_, _, rfl, rfl, by decide⟩, rfl, ⟨_, rfl, by decide⟩⟩
  have agree := (allowed_unblocked_iff sampleEngine sampleTransition (py "2026-10-01T00:00:00Z")
    [sampleFinding] [sampleWaiver (party "human" "security-reviewer")] sampleRuntime sampleNow
    hvalid).mpr (Or.inr (Or.inr (Or.inr (by
      intro f hf
      obtain rfl := List.mem_singleton.mp hf
      exact Or.inr ⟨rfl, _, List.mem_singleton.mpr rfl, rfl, force⟩))))
  exact ⟨hvalid, agree (by decide) sampleFinding (List.mem_singleton.mpr rfl)⟩

/-- Approved by an agent, the waiver still passes its schema and the gate, and the
control plane blocks the finding. -/
theorem agentApproved_allowed_blocked :
    Contracts.waiver.valid (.obj (sampleWaiver (party "agent" "implementer"))) = true ∧
      parseTimestamp sampleRuntime (py "2026-10-01T00:00:00Z") = .ok sampleNow ∧
      (decision sampleEngine (sampleTransition.input (py "2026-10-01T00:00:00Z") [sampleFinding]
        [sampleWaiver (party "agent" "implementer")])).allow = true ∧
      evaluateRisk sampleRuntime (py "RISK-0003") (py "medium")
        [sampleWaiver (party "agent" "implementer")] sampleNow =
          .ok ⟨true, [.agentMayNotApprove, .approverNotSecurityReviewer]⟩ := by
  refine ⟨by decide, rfl, by decide, rfl⟩

end SecureSdlc.Waiver

import SecureSdlc.Core.SchemaShape
import SecureSdlc.DeployVerify.Verify

/-!
The evidence of a release candidate: what its schema promises, what the policy makes of
it, and that it can be digested. The conditions of a release are read off the candidate
alone. That the server evaluates the policy is assumed, for the one input it is sent.
-/

namespace SecureSdlc.DeployVerify

open Core Core.Rego Policy Artifacts Contracts

def flagAt (candidate : Mapping) (part key : PyStr) : Option Json :=
  (Assoc.get candidate part).bind (·.get? key)

def entriesAt (candidate : Mapping) (key : PyStr) : List Json :=
  match Assoc.get candidate key with
  | some (.arr entries) => entries
  | _ => []

/-- A member of the actor of an approval. -/
def actorMember (approval : Json) (key : PyStr) : Option Json :=
  (approval.get? (py "actor")).bind (·.get? key)

/-- The conditions under which a candidate is released. -/
structure Releasable (candidate : Mapping) : Prop where
  signature : flagAt candidate (py "signature") (py "verified") = some (.bool true)
  sbom : flagAt candidate (py "sbom") (py "present") = some (.bool true)
  provenance : flagAt candidate (py "provenance") (py "verified") = some (.bool true)
  decisions : ∀ point ∈ PreDeployment.requiredPoints,
    ∃ entry ∈ entriesAt candidate (py "policy_decisions"),
      entry.get? (py "point") = some (.str point) ∧
        entry.get? (py "decision") = some (.str (py "allow"))
  approved : ∃ approval ∈ entriesAt candidate (py "approvals"),
    approval.get? (py "role") = Assoc.get candidate (py "required_approver_role") ∧
      actorMember approval (py "type") = some (.str (py "human"))
  independent : ∀ approval ∈ entriesAt candidate (py "approvals"),
    actorMember approval (py "type") ≠ some (.str (py "agent"))

/-- The members of a candidate that the gate reads. -/
def evidenceKeys : List PyStr :=
  [py "image", py "signature", py "sbom", py "provenance", py "policy_decisions",
    py "required_approver_role", py "approvals"]

def SameEvidence (m m' : Mapping) : Prop :=
  ∀ key ∈ evidenceKeys, Assoc.get m key = Assoc.get m' key

theorem releasable_of_same {m m' : Mapping} (h : SameEvidence m m') (hm : Releasable m) :
    Releasable m' := by
  have hsignature := h (py "signature") (by decide)
  have hsbom := h (py "sbom") (by decide)
  have hprovenance := h (py "provenance") (by decide)
  have hdecisions := h (py "policy_decisions") (by decide)
  have hrole := h (py "required_approver_role") (by decide)
  have happrovals := h (py "approvals") (by decide)
  refine ⟨?_, ?_, ?_, ?_, ?_, ?_⟩
  · rw [flagAt, ← hsignature]
    exact hm.signature
  · rw [flagAt, ← hsbom]
    exact hm.sbom
  · rw [flagAt, ← hprovenance]
    exact hm.provenance
  · rw [entriesAt, ← hdecisions]
    exact hm.decisions
  · rw [entriesAt, ← happrovals, ← hrole]
    exact hm.approved
  · rw [entriesAt, ← happrovals]
    exact hm.independent

theorem releasable_congr {m m' : Mapping} (h : SameEvidence m m') :
    Releasable m ↔ Releasable m' :=
  ⟨releasable_of_same h, releasable_of_same fun key hkey => (h key hkey).symm⟩

/-- What the schema promises about the members that the gate reads. -/
structure Evidence (candidate : Mapping) : Prop where
  image : ∃ s, Assoc.get candidate (py "image") = some (.str s) ∧ s ≠ []
  signature : ∃ part verified, Assoc.get candidate (py "signature") = some (.obj part) ∧
    Assoc.get part (py "verified") = some (.bool verified)
  sbom : ∃ part present, Assoc.get candidate (py "sbom") = some (.obj part) ∧
    Assoc.get part (py "present") = some (.bool present)
  provenance : ∃ part verified, Assoc.get candidate (py "provenance") = some (.obj part) ∧
    Assoc.get part (py "verified") = some (.bool verified)
  decisions : ∃ entries : List Mapping,
    Assoc.get candidate (py "policy_decisions") = some (.arr (entries.map .obj)) ∧
      ∀ entry ∈ entries, ∃ point, Assoc.get entry (py "point") = some (.str point)
  role : ∃ role, Assoc.get candidate (py "required_approver_role") = some (.str role)
  approvals : ∃ entries : List Mapping,
    Assoc.get candidate (py "approvals") = some (.arr (entries.map .obj)) ∧
      ∀ entry ∈ entries, ∃ role actor id, Assoc.get entry (py "role") = some (.str role) ∧
        Assoc.get entry (py "actor") = some (.obj actor) ∧
        Assoc.get actor (py "id") = some (.str id)

theorem exists_mappings {vs : List Json} {P : Mapping → Prop}
    (h : ∀ v ∈ vs, ∃ fields, v = .obj fields ∧ P fields) :
    ∃ ms : List Mapping, vs = ms.map .obj ∧ ∀ m ∈ ms, P m := by
  induction vs with
  | nil => exact ⟨[], rfl, fun _ hm => nomatch hm⟩
  | cons v vs ih =>
      obtain ⟨fields, rfl, hfields⟩ := h v List.mem_cons_self
      obtain ⟨ms, rfl, hms⟩ := ih fun w hw => h w (List.mem_cons_of_mem _ hw)
      exact ⟨fields :: ms, rfl, List.forall_mem_cons.mpr ⟨hfields, hms⟩⟩

/-- A part of the candidate with a boolean that says whether it was verified. -/
theorem part_of_valid {required optional : List (String × Schema)} {v : Json} (key : PyStr)
    (h : (closed required optional).valid v = true)
    (hkey : key ∈ required.map fun m => py m.1)
    (hschema : Assoc.get (members (required ++ optional)) key = some .boolean) :
    ∃ part b, v = .obj part ∧ Assoc.get part key = some (.bool b) := by
  obtain ⟨part, rfl, -⟩ := Schema.valid_object h
  obtain ⟨flag, hflag, hbool⟩ := Schema.valid_member h hkey hschema
  cases flag with
  | bool b => exact ⟨part, b, rfl, hflag⟩
  | _ => cases hbool

/-- A text member that the schema requires. -/
theorem text_of_valid {required optional : List (String × Schema)} {fields : Mapping} (key : PyStr)
    {rule : StringRule} (h : (closed required optional).valid (.obj fields) = true)
    (hkey : key ∈ required.map fun m => py m.1)
    (hschema : Assoc.get (members (required ++ optional)) key = some (.string rule)) :
    ∃ s, Assoc.get fields key = some (.str s) ∧ rule.admits s = true := by
  obtain ⟨value, hvalue, hstring⟩ := Schema.valid_member h hkey hschema
  obtain ⟨s, rfl, hs⟩ := (Schema.valid_string_iff rule value).mp hstring
  exact ⟨s, hvalue, hs⟩

theorem evidence_of_valid {candidate : Mapping}
    (h : releaseCandidate.valid (.obj candidate) = true) : Evidence candidate := by
  obtain ⟨image, himage, hne⟩ := text_of_valid (py "image") h (by decide) rfl
  obtain ⟨role, hrole, -⟩ := text_of_valid (py "required_approver_role") h (by decide) rfl
  obtain ⟨signature, hsignature, hs⟩ :=
    Schema.valid_member (k := py "signature") h (by decide) rfl
  obtain ⟨spart, sb, rfl, hsb⟩ := part_of_valid (py "verified") hs (by decide) rfl
  obtain ⟨sbom, hsbom, hm⟩ := Schema.valid_member (k := py "sbom") h (by decide) rfl
  obtain ⟨mpart, mb, rfl, hmb⟩ := part_of_valid (py "present") hm (by decide) rfl
  obtain ⟨provenance, hprovenance, hp⟩ :=
    Schema.valid_member (k := py "provenance") h (by decide) rfl
  obtain ⟨ppart, pb, rfl, hpb⟩ := part_of_valid (py "verified") hp (by decide) rfl
  obtain ⟨decisions, hdecisions, hds⟩ :=
    Schema.valid_member (k := py "policy_decisions") h (by decide) rfl
  obtain ⟨approvals, happrovals, has⟩ := Schema.valid_member (k := py "approvals") h (by decide) rfl
  refine ⟨⟨image, himage, ?_⟩, ⟨spart, sb, hsignature, hsb⟩, ⟨mpart, mb, hsbom, hmb⟩,
    ⟨ppart, pb, hprovenance, hpb⟩, ?_, ⟨role, hrole⟩, ?_⟩
  · rintro rfl
    exact absurd hne (by decide)
  · obtain ⟨vs, rfl, -, hitems⟩ := Schema.valid_array hds
    obtain ⟨entries, rfl, hentries⟩ := exists_mappings
      (P := fun m => ∃ point, Assoc.get m (py "point") = some (.str point)) fun v hv => by
        obtain ⟨fields, rfl, -⟩ := Schema.valid_object (hitems v hv)
        obtain ⟨point, hpoint, -⟩ := text_of_valid (py "point") (hitems _ hv) (by decide) rfl
        exact ⟨fields, rfl, point, hpoint⟩
    exact ⟨entries, hdecisions, hentries⟩
  · obtain ⟨vs, rfl, -, hitems⟩ := Schema.valid_array has
    obtain ⟨entries, rfl, hentries⟩ := exists_mappings
      (P := fun m => ∃ role actor id, Assoc.get m (py "role") = some (.str role) ∧
        Assoc.get m (py "actor") = some (.obj actor) ∧
        Assoc.get actor (py "id") = some (.str id)) fun v hv => by
        obtain ⟨fields, rfl, -⟩ := Schema.valid_object (hitems v hv)
        obtain ⟨role, hrole, -⟩ := text_of_valid (py "role") (hitems _ hv) (by decide) rfl
        obtain ⟨actor, hactor, ha⟩ :=
          Schema.valid_member (k := py "actor") (hitems _ hv) (by decide) rfl
        obtain ⟨members, rfl, -⟩ := Schema.valid_object ha
        obtain ⟨id, hid, -⟩ := text_of_valid (py "id") ha (by decide) rfl
        exact ⟨fields, rfl, role, members, id, hrole, hactor, hid⟩
    exact ⟨entries, happrovals, hentries⟩

/-- The input that the policy is asked about. -/
def deploymentPayload (candidate : Mapping) : Except PyError Mapping := do
  PreDeployment.buildDeploymentInput (← deploymentInput candidate)

theorem dictsOf_mappings (entries : List Mapping) :
    PreDeployment.dictsOf (.arr (entries.map .obj)) = .ok (.arr (entries.map .obj)) := by
  have hdicts : (entries.map Json.obj).mapM Json.toDict = .ok entries := by
    induction entries with
    | nil => rfl
    | cons entry entries ih =>
        rw [List.map_cons, List.mapM_cons, ih]
        rfl
  simp only [PreDeployment.dictsOf, Json.iterate, bind, Except.bind, hdicts]
  rfl

/-- The policy is shown the candidate's own members. -/
theorem deploymentPayload_ok {candidate : Mapping} (h : Evidence candidate) :
    ∃ payload, deploymentPayload candidate = .ok payload ∧ SameEvidence payload candidate ∧
      payload ⊆ candidate := by
  obtain ⟨image, himage, -⟩ := h.image
  obtain ⟨signature, -, hsignature, -⟩ := h.signature
  obtain ⟨sbom, -, hsbom, -⟩ := h.sbom
  obtain ⟨provenance, -, hprovenance, -⟩ := h.provenance
  obtain ⟨decisions, hdecisions, -⟩ := h.decisions
  obtain ⟨role, hrole⟩ := h.role
  obtain ⟨approvals, happrovals, -⟩ := h.approvals
  refine ⟨[(py "image", .str image), (py "signature", .obj signature), (py "sbom", .obj sbom),
    (py "provenance", .obj provenance), (py "policy_decisions", .arr (decisions.map .obj)),
    (py "required_approver_role", .str role), (py "approvals", .arr (approvals.map .obj))],
    ?_, ?_, ?_⟩
  · simp only [deploymentPayload, deploymentInput, item, himage, hsignature, hsbom, hprovenance,
      hdecisions, hrole, happrovals, bind, Except.bind, pure, Except.pure,
      PreDeployment.buildDeploymentInput, Json.toDict, dictsOf_mappings]
  · intro key hkey
    simp only [evidenceKeys, List.mem_cons, List.not_mem_nil, or_false] at hkey
    rcases hkey with rfl | rfl | rfl | rfl | rfl | rfl | rfl
    · exact himage.symm
    · exact hsignature.symm
    · exact hsbom.symm
    · exact hprovenance.symm
    · exact hdecisions.symm
    · exact hrole.symm
    · exact happrovals.symm
  · intro field hfield
    simp only [List.mem_cons, List.not_mem_nil, or_false] at hfield
    rcases hfield with rfl | rfl | rfl | rfl | rfl | rfl | rfl
    · exact Assoc.mem_of_get himage
    · exact Assoc.mem_of_get hsignature
    · exact Assoc.mem_of_get hsbom
    · exact Assoc.mem_of_get hprovenance
    · exact Assoc.mem_of_get hdecisions
    · exact Assoc.mem_of_get hrole
    · exact Assoc.mem_of_get happrovals

theorem evidence_of_same {m m' : Mapping} (h : SameEvidence m m') (he : Evidence m') :
    Evidence m := by
  have hget : ∀ key, key ∈ evidenceKeys → Assoc.get m' key = Assoc.get m key :=
    fun key hkey => (h key hkey).symm
  refine ⟨?_, ?_, ?_, ?_, ?_, ?_, ?_⟩
  · rw [← hget (py "image") (by decide)]
    exact he.image
  · rw [← hget (py "signature") (by decide)]
    exact he.signature
  · rw [← hget (py "sbom") (by decide)]
    exact he.sbom
  · rw [← hget (py "provenance") (by decide)]
    exact he.provenance
  · rw [← hget (py "policy_decisions") (by decide)]
    exact he.decisions
  · rw [← hget (py "required_approver_role") (by decide)]
    exact he.role
  · rw [← hget (py "approvals") (by decide)]
    exact he.approvals

section Policy

variable (opa : Engine) {input : Mapping}

theorem flag_silent {part key : PyStr}
    (h : ∃ fields b, Assoc.get input part = some (.obj fields) ∧
      Assoc.get fields key = some (.bool b)) :
    opa.absent (field (objectGet (.obj input) part (.obj [])) key) PreDeployment.holds = false ↔
      flagAt input part key = some (.bool true) := by
  obtain ⟨fields, b, hpart, hflag⟩ := h
  simp only [objectGet, hpart, Option.getD_some, field, Option.bind_some, Json.get?, hflag, flagAt]
  cases b <;> simp [Engine.absent, PreDeployment.holds]

theorem missingImage_silent (h : Evidence input) :
    PreDeployment.fires opa (.obj input) .missingImage = false := by
  obtain ⟨image, himage, hne⟩ := h.image
  simp only [PreDeployment.fires, objectGet, himage, Option.getD_some, isText,
    decide_eq_false_iff_not]
  exact hne

theorem elements_entries {key : PyStr} {entries : List Mapping}
    (h : Assoc.get input key = some (.arr (entries.map .obj))) :
    elements (objectGet (.obj input) key (.arr [])) = entriesAt input key := by
  simp only [objectGet, h, Option.getD_some, elements, entriesAt]

theorem missingPolicyDecision_silent (h : Evidence input) :
    PreDeployment.fires opa (.obj input) .missingPolicyDecision = false ↔
      ∀ point ∈ PreDeployment.requiredPoints,
        ∃ entry ∈ entriesAt input (py "policy_decisions"),
          entry.get? (py "point") = some (.str point) ∧
            entry.get? (py "decision") = some (.str (py "allow")) := by
  obtain ⟨entries, hentries, -⟩ := h.decisions
  rw [PreDeployment.fires, List.any_eq_false]
  refine forall₂_congr fun point _ => ?_
  rw [Bool.not_eq_true', Bool.not_eq_false, PreDeployment.pointAllowed,
    PreDeployment.policyDecisions, elements_entries hentries, List.any_eq_true]
  simp only [Bool.and_eq_true, isText_iff, field, Option.bind_some]

theorem roleMatches_iff (h : Evidence input) {entry : Mapping} {role : PyStr}
    (hrole : Assoc.get entry (py "role") = some (.str role)) :
    PreDeployment.roleMatches opa (.obj input) (.obj entry) = true ↔
      (Json.obj entry).get? (py "role") = Assoc.get input (py "required_approver_role") := by
  obtain ⟨required, hrequired⟩ := h.role
  simp only [PreDeployment.roleMatches, field, Option.bind_some, Json.get?, hrole, hrequired,
    Engine.eq, decide_eq_true_eq, Option.some.injEq, Json.str.injEq]

theorem missingApproval_silent (h : Evidence input) :
    PreDeployment.fires opa (.obj input) .missingApproval = false ↔
      ∃ approval ∈ entriesAt input (py "approvals"),
        approval.get? (py "role") = Assoc.get input (py "required_approver_role") ∧
          actorMember approval (py "type") = some (.str (py "human")) := by
  obtain ⟨entries, hentries, hmembers⟩ := h.approvals
  have hlist : entriesAt input (py "approvals") = entries.map .obj := by
    rw [entriesAt, hentries]
  rw [PreDeployment.fires, Bool.not_eq_false', PreDeployment.approvalPresent,
    PreDeployment.approvals, elements_entries hentries, List.any_eq_true, hlist]
  refine exists_congr fun approval => and_congr_right fun hmem => ?_
  obtain ⟨entry, hentry, rfl⟩ := List.mem_map.mp hmem
  obtain ⟨role, -, -, hrole, -, -⟩ := hmembers entry hentry
  rw [Bool.and_eq_true, roleMatches_iff opa h hrole, isText_iff]
  rfl

theorem agentMayNotApprove_silent (h : Evidence input) :
    PreDeployment.fires opa (.obj input) .agentMayNotApprove = false ↔
      ∀ approval ∈ entriesAt input (py "approvals"),
        actorMember approval (py "type") ≠ some (.str (py "agent")) := by
  obtain ⟨entries, hentries, -⟩ := h.approvals
  rw [PreDeployment.fires, PreDeployment.approvals, elements_entries hentries, List.any_eq_false]
  refine forall₂_congr fun approval _ => ?_
  rw [isText_iff]
  rfl

/-- The policy allows exactly what is releasable. -/
theorem decision_allow_iff (h : Evidence input) :
    (PreDeployment.decision opa (.obj input)).allow = true ↔ Releasable input := by
  have hall : ∀ r : PreDeployment.DenyReason, r ∈ [PreDeployment.DenyReason.agentMayNotApprove,
      .missingApproval, .missingImage, .missingPolicyDecision, .missingProvenance, .missingSbom,
      .missingSignature] := by
    intro r
    cases r <;> decide
  refine (Decision.of_allow_iff hall _ _).trans ?_
  constructor
  · intro hsilent
    exact ⟨(flag_silent opa h.signature).mp (hsilent .missingSignature),
      (flag_silent opa h.sbom).mp (hsilent .missingSbom),
      (flag_silent opa h.provenance).mp (hsilent .missingProvenance),
      (missingPolicyDecision_silent opa h).mp (hsilent _),
      (missingApproval_silent opa h).mp (hsilent _),
      (agentMayNotApprove_silent opa h).mp (hsilent _)⟩
  · intro hreleasable r
    cases r with
    | agentMayNotApprove => exact (agentMayNotApprove_silent opa h).mpr hreleasable.independent
    | missingApproval => exact (missingApproval_silent opa h).mpr hreleasable.approved
    | missingImage => exact missingImage_silent opa h
    | missingPolicyDecision =>
        exact (missingPolicyDecision_silent opa h).mpr hreleasable.decisions
    | missingProvenance => exact (flag_silent opa h.provenance).mpr hreleasable.provenance
    | missingSbom => exact (flag_silent opa h.sbom).mpr hreleasable.sbom
    | missingSignature => exact (flag_silent opa h.signature).mpr hreleasable.signature

end Policy

section Digests

variable {rt : Runtime} {n : Nat} {v : Json}

theorem encodable_hexdigest (rt : Runtime) (data : Bytes) :
    PyStr.encodable (rt.hexdigest data) = true := by
  have hdigits : ∀ width n, Printable (hexDigits width n) := by
    intro width
    induction width with
    | zero => exact fun _ _ hc => nomatch hc
    | succ width ih =>
        intro n c hc
        rcases List.mem_append.mp hc with hc | hc
        · exact ih _ c hc
        · rw [List.mem_singleton.mp hc]
          exact JsonText.hexDigit_printable (Nat.mod_lt n (by decide))
  apply JsonText.encodable_of_printable
  intro c hc
  obtain ⟨byte, -, hc⟩ := List.mem_flatMap.mp hc
  exact hdigits 2 byte.toNat c hc

/-- The value can be written and encoded. -/
structure Digestible (n : Nat) (v : Json) : Prop extends Schema.Plain n v where
  free : SurrogateFree v

theorem digestible_str {s : PyStr} (h : PyStr.encodable s = true) : Digestible n (.str s) :=
  ⟨Schema.plain_str n s, h⟩

theorem digestible_arr {items : List Json} :
    Digestible (n + 1) (.arr items) ↔ ∀ item ∈ items, Digestible n item := by
  constructor
  · intro h item hitem
    exact ⟨Schema.plain_arr.mp h.toPlain item hitem,
      (JsonText.allScalarsItems_iff items).mp h.free item hitem⟩
  · intro h
    exact ⟨Schema.plain_arr.mpr fun item hitem => (h item hitem).toPlain,
      (JsonText.allScalarsItems_iff items).mpr fun item hitem => (h item hitem).free⟩

theorem digestible_obj {fields : Mapping} :
    Digestible (n + 1) (.obj fields) ↔
      ∀ field ∈ fields, PyStr.encodable field.1 = true ∧ Digestible n field.2 := by
  constructor
  · intro h field hfield
    obtain ⟨hkey, hvalue⟩ := (JsonText.allScalarsFields_iff fields).mp h.free field hfield
    exact ⟨hkey, Schema.plain_obj.mp h.toPlain field hfield, hvalue⟩
  · intro h
    exact ⟨Schema.plain_obj.mpr fun field hfield => (h field hfield).2.toPlain,
      (JsonText.allScalarsFields_iff fields).mpr fun field hfield =>
        ⟨(h field hfield).1, (h field hfield).2.free⟩⟩

theorem Digestible.member {fields : Mapping} (h : Digestible (n + 1) (.obj fields)) {key : PyStr}
    (hv : Assoc.get fields key = some v) : Digestible n v :=
  (digestible_obj.mp h (key, v) (Assoc.mem_of_get hv)).2

theorem sha256Digest_ok (hn : n ≤ rt.dumpsRoom) (h : Digestible n v) :
    ∃ digest, sha256Digest rt v = .ok digest ∧ PyStr.encodable digest = true := by
  obtain ⟨text, htext⟩ := (JsonText.exists_write_iff JsonText.canonical rt.dumpsRoom v).mpr
    (h.toPlain.mono hn).writable
  have hencodable : PyStr.encodable text = true :=
    (JsonText.encodable_write rfl (by decide) (by decide) htext).trans h.free
  refine ⟨rt.hexdigest (text.flatMap PyStr.utf8Bytes), ?_, encodable_hexdigest rt _⟩
  simp only [sha256Digest, canonicalJson, JsonText.dumps, htext, bind, Except.bind, sha256OfText,
    PyStr.encodeUtf8, hencodable, if_true]

theorem sha256Digest_error (hn : n ≤ rt.dumpsRoom) (h : Schema.Plain n v)
    (hfree : ¬ SurrogateFree v) :
    sha256Digest rt v = .error { kind := .unicodeEncodeError } := by
  obtain ⟨text, htext⟩ := (JsonText.exists_write_iff JsonText.canonical rt.dumpsRoom v).mpr
    (h.mono hn).writable
  have hencodable : PyStr.encodable text ≠ true := fun hall =>
    hfree ((JsonText.encodable_write rfl (by decide) (by decide) htext).symm.trans hall)
  simp only [sha256Digest, canonicalJson, JsonText.dumps, htext, bind, Except.bind, sha256OfText,
    PyStr.encodeUtf8, hencodable, if_false, Bool.false_eq_true]

theorem requestBody_ok (hn : n < rt.dumpsRoom) (h : Schema.Plain n v) :
    ∃ body, requestBody rt v = .ok body := by
  have hplain : Schema.Plain (n + 1) (.obj [(py "input", v)]) := by
    rw [Schema.plain_obj, List.forall_mem_singleton]
    exact h
  obtain ⟨text, htext⟩ := (JsonText.exists_write_iff {} rt.dumpsRoom _).mpr
    (hplain.mono hn).writable
  have hprintable := JsonText.printable_write rfl (by decide) (by decide) hplain.floatFree htext
  refine ⟨text.map fun c => UInt8.ofNat c.val, ?_⟩
  simp only [requestBody, JsonText.dumps, htext, bind, Except.bind, hprintable.encodeUtf8]

end Digests

section Bundle

variable {rt : Runtime} (hroom : 5 ≤ rt.dumpsRoom) {candidate : Mapping}
include hroom

theorem evidenceItem_ok (kind : PyStr) {ref : PyStr} {value : Mapping} {n : Nat} (hn : n ≤ 5)
    (hkind : PyStr.encodable kind = true) (href : PyStr.encodable ref = true)
    (h : Digestible n (.obj value)) :
    ∃ item, evidenceItem rt kind ref value = .ok item ∧ Digestible 1 item := by
  obtain ⟨digest, hdigest, hencodable⟩ := sha256Digest_ok (hn.trans hroom) h
  refine ⟨.obj [(py "kind", .str kind), (py "ref", .str ref), (py "digest", .str digest)], ?_, ?_⟩
  · simp only [evidenceItem, hdigest, bind, Except.bind]
    rfl
  · rw [digestible_obj]
    simp only [List.forall_mem_cons, List.not_mem_nil, false_implies, implies_true, and_true]
    exact ⟨⟨by decide, digestible_str hkind⟩, ⟨by decide, digestible_str href⟩, by decide,
      digestible_str hencodable⟩

theorem objectItem_ok {kind : PyStr} (hkind : kind ∈ objectItems)
    (h : Digestible 4 (.obj candidate)) :
    ∃ items, objectItem rt candidate kind = .ok items ∧ ∀ item ∈ items, Digestible 1 item := by
  have hnames : ∀ kind ∈ objectItems, PyStr.encodable kind = true ∧
      PyStr.encodable (py "candidate:" ++ kind) = true := by decide
  rw [objectItem]
  split
  · rename_i value hvalue
    obtain ⟨item, hitem, hdigestible⟩ := evidenceItem_ok hroom kind (by decide)
      (hnames kind hkind).1 (hnames kind hkind).2 (h.member hvalue)
    refine ⟨[item], ?_, by simpa using hdigestible⟩
    simp only [hitem, bind, Except.bind]
    rfl
  · exact ⟨[], rfl, fun _ hmem => nomatch hmem⟩

theorem decisionItem_ok {entry : Mapping} {point : PyStr}
    (hpoint : Assoc.get entry (py "point") = some (.str point)) (h : Digestible 2 (.obj entry)) :
    ∃ items, decisionItem rt (.obj entry) = .ok items ∧ ∀ item ∈ items, Digestible 1 item := by
  obtain ⟨item, hitem, hdigestible⟩ :=
    evidenceItem_ok hroom (py "policy-decision") (by decide) (by decide)
      (h.member hpoint).free h
  refine ⟨[item], ?_, by simpa using hdigestible⟩
  simp only [decisionItem, hpoint, Option.getD_some, Json.text_str, hitem, bind, Except.bind]
  rfl

theorem approvalItem_ok {entry actor : Mapping} {role id : PyStr}
    (hrole : Assoc.get entry (py "role") = some (.str role))
    (hactor : Assoc.get entry (py "actor") = some (.obj actor))
    (hid : Assoc.get actor (py "id") = some (.str id)) (h : Digestible 2 (.obj entry)) :
    ∃ items, approvalItem rt (.obj entry) = .ok items ∧ ∀ item ∈ items, Digestible 1 item := by
  have hrolefree : PyStr.encodable role = true := (h.member hrole).free
  have hidfree : PyStr.encodable id = true := ((h.member hactor).member hid).free
  have href : PyStr.encodable (role ++ py ":" ++ id) = true := by
    rw [PyStr.encodable] at hrolefree hidfree ⊢
    rw [List.all_append, List.all_append, hrolefree, hidfree]
    rfl
  obtain ⟨item, hitem, hdigestible⟩ :=
    evidenceItem_ok hroom (py "approval") (by decide) (by decide) href h
  refine ⟨[item], ?_, by simpa using hdigestible⟩
  simp only [approvalItem, approverId, hactor, hrole, hid, Option.getD_some, Json.text_str, hitem,
    bind, Except.bind]
  rfl

theorem collectItems_ok (he : Evidence candidate) (h : Digestible 4 (.obj candidate)) :
    ∃ items, collectItems rt candidate = .ok items ∧ ∀ item ∈ items, Digestible 1 item := by
  obtain ⟨decisions, hdecisions, hpoints⟩ := he.decisions
  obtain ⟨approvals, happrovals, hmembers⟩ := he.approvals
  obtain ⟨objectLists, hobjects, hobjectsfree⟩ := exists_mapM_ok_forall
    (P := fun items => ∀ item ∈ items, Digestible 1 item)
    fun kind hkind => objectItem_ok hroom hkind h
  have hdecided : ∀ v ∈ decisions.map Json.obj, ∃ items, decisionItem rt v = .ok items ∧
      ∀ item ∈ items, Digestible 1 item := by
    intro v hv
    have hvalue := digestible_arr.mp (h.member hdecisions) v hv
    obtain ⟨entry, hentry, rfl⟩ := List.mem_map.mp hv
    obtain ⟨point, hpoint⟩ := hpoints entry hentry
    exact decisionItem_ok hroom hpoint hvalue
  have happroved : ∀ v ∈ approvals.map Json.obj, ∃ items, approvalItem rt v = .ok items ∧
      ∀ item ∈ items, Digestible 1 item := by
    intro v hv
    have hvalue := digestible_arr.mp (h.member happrovals) v hv
    obtain ⟨entry, hentry, rfl⟩ := List.mem_map.mp hv
    obtain ⟨role, actor, id, hrole, hactor, hid⟩ := hmembers entry hentry
    exact approvalItem_ok hroom hrole hactor hid hvalue
  obtain ⟨decisionLists, hdecisionLists, hdecisionsfree⟩ := exists_mapM_ok_forall hdecided
  obtain ⟨approvalLists, happrovalLists, happrovalsfree⟩ := exists_mapM_ok_forall happroved
  refine ⟨objectLists.flatten ++ decisionLists.flatten ++ approvalLists.flatten, ?_, ?_⟩
  · simp only [collectItems, hobjects, iterateMember, hdecisions, happrovals, Json.iterate, bind,
      Except.bind, hdecisionLists, happrovalLists]
    rfl
  · intro item hitem
    simp only [List.mem_append, List.mem_flatten] at hitem
    rcases hitem with (⟨items, hitems, hitem⟩ | ⟨items, hitems, hitem⟩) | ⟨items, hitems, hitem⟩
    · exact hobjectsfree items hitems item hitem
    · exact hdecisionsfree items hitems item hitem
    · exact happrovalsfree items hitems item hitem

/-- Evidence that can be digested makes a bundle. -/
theorem buildEvidenceBundle_ok (he : Evidence candidate) (h : Digestible 4 (.obj candidate))
    (artifactId createdAt : PyStr) (actor : Mapping) (runId : PyStr) (links : List Mapping) :
    ∃ bundle, buildEvidenceBundle rt artifactId createdAt actor runId candidate links =
      .ok bundle := by
  obtain ⟨image, himage, -⟩ := he.image
  obtain ⟨digest, hdigest, hdigestfree⟩ := sha256Digest_ok (Nat.le_of_succ_le hroom) h
  obtain ⟨items, hitems, hitemsfree⟩ := collectItems_ok hroom he h
  have hbundle : Digestible 3 (.obj [(py "image", .str image),
      (py "candidate_digest", .str digest), (py "items", .arr items)]) := by
    rw [digestible_obj]
    simp only [List.forall_mem_cons, List.not_mem_nil, false_implies, implies_true, and_true]
    exact ⟨⟨by decide, digestible_str (h.member himage).free⟩,
      ⟨by decide, digestible_str hdigestfree⟩, by decide, digestible_arr.mpr hitemsfree⟩
  obtain ⟨whole, hwhole, -⟩ := sha256Digest_ok ((by decide : 3 ≤ 5).trans hroom) hbundle
  simp only [buildEvidenceBundle, himage, Option.getD_some, Json.text_str, hdigest, hitems,
    bundleDigest, hwhole, bind, Except.bind, pure, Except.pure]
  exact ⟨_, rfl⟩

end Bundle

/-- The server answers the request about this input with the policy's decision on it. -/
def EvaluatesFaithfully (rt : Runtime) (opa : Engine) (client : PolicyClient) (payload : Mapping) :
    Prop :=
  ∀ body, requestBody rt (.obj payload) = .ok body → ∃ raw answer result,
    client.urlopen (client.url PreDeployment.point) body = .answered raw ∧
    JsonText.loadsBytes rt raw = .ok (.obj answer) ∧
    Assoc.get answer (py "result") = some (.obj result) ∧
    Assoc.get result (py "allow") =
      some (.bool (PreDeployment.decision opa (.obj payload)).allow) ∧
    Assoc.get result (py "reason_codes") =
      some (.arr ((PreDeployment.decision opa (.obj payload)).reasonCodes.map .str))

/-- As above, for the input that a candidate leads to. -/
def FaithfulFor (rt : Runtime) (opa : Engine) (client : PolicyClient) (candidate : Mapping) :
    Prop :=
  ∀ payload, deploymentPayload candidate = .ok payload →
    EvaluatesFaithfully rt opa client payload

section Verify

variable {rt : Runtime} {opa : Engine} {client : PolicyClient} {as : Verification}
  {candidate : Mapping}

theorem evaluate_faithful (hroom : 5 ≤ rt.dumpsRoom) {payload : Mapping}
    (h : Digestible 4 (.obj payload)) (hfaithful : EvaluatesFaithfully rt opa client payload) :
    ∃ result, client.evaluate rt PreDeployment.point (.obj payload) = .ok result ∧
      result.allow = (PreDeployment.decision opa (.obj payload)).allow := by
  obtain ⟨digest, hdigest, -⟩ := sha256Digest_ok (Nat.le_of_succ_le hroom) h
  obtain ⟨body, hbody⟩ := requestBody_ok hroom h.toPlain
  obtain ⟨raw, answer, result, hreply, hloads, hresult, hallow, -⟩ := hfaithful body hbody
  have hinput : computeInputDigest rt (.obj payload) = .ok digest := hdigest
  refine ⟨client.normalize digest (.obj answer), ?_, ?_⟩
  · simp only [PolicyClient.evaluate, hinput, hbody, bind, Except.bind, hreply,
      PolicyClient.parse, hloads]
  · simp only [PolicyClient.normalize, Json.get?, hresult, hallow]

/-- Evidence that can be digested is released exactly under the policy's conditions. -/
theorem verifyValidated_ok (hroom : 5 ≤ rt.dumpsRoom) (he : Evidence candidate)
    (h : Digestible 4 (.obj candidate)) (hfaithful : FaithfulFor rt opa client candidate) :
    ∃ result, verifyValidated rt client as candidate = .ok result ∧
      (result.allow = true ↔ Releasable candidate) := by
  obtain ⟨bundle, hbundle⟩ := buildEvidenceBundle_ok hroom he h as.bundleId as.createdAt as.actor
    as.runId []
  obtain ⟨payload, hpayload, hsame, hsubset⟩ := deploymentPayload_ok he
  have hdigestible : Digestible 4 (.obj payload) :=
    digestible_obj.mpr fun field hfield => digestible_obj.mp h field (hsubset hfield)
  obtain ⟨result, hresult, hallow⟩ := evaluate_faithful hroom hdigestible
    (hfaithful payload hpayload)
  obtain ⟨arguments, harguments, hinput⟩ := exists_ok_of_bind hpayload
  have hdecision := decision_allow_iff opa (evidence_of_same hsame he)
  rw [← hallow, releasable_congr hsame] at hdecision
  simp only [verifyValidated, hbundle, harguments, PreDeployment.evaluateDeployment, hinput,
    hresult, bind, Except.bind, pure, Except.pure]
  exact ⟨_, rfl, hdecision⟩

/-- A candidate with a lone surrogate is not verified at all. -/
theorem verifyValidated_error (hroom : 5 ≤ rt.dumpsRoom) (he : Evidence candidate)
    (h : Schema.Plain 4 (.obj candidate)) (hfree : ¬ SurrogateFree (.obj candidate)) :
    verifyValidated rt client as candidate = .error { kind := .unicodeEncodeError } := by
  obtain ⟨image, himage, -⟩ := he.image
  have hdigest := sha256Digest_error (Nat.le_of_succ_le hroom) h hfree
  simp only [verifyValidated, buildEvidenceBundle, himage, Option.getD_some, Json.text_str, hdigest,
    bind, Except.bind]

end Verify

end SecureSdlc.DeployVerify

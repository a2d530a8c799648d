import SecureSdlc.Core.JsonFailures
import SecureSdlc.Core.JsonSurrogates
import SecureSdlc.Metatheory.AuditTrail
import SecureSdlc.Metatheory.Revocation

/-!
What a capability token means to the registry that issued it, and what becomes of an
arbitrary text presented as one. HMAC is a function of the key and the data, of which
only its length is used; nothing is said about forging.
-/

namespace SecureSdlc.Runner

open Core

variable {rt : Runtime} {secret : Bytes}

/-- What `check` says of a token that decodes. -/
theorem check_of_decoded {registry : RunRegistry} {token : PyStr} {capability : Capability}
    {error : Option PyStr}
    (h : decodeToken rt registry.secret token = .ok ⟨some capability, error⟩)
    (tool scope : PyStr) (now : Int) :
    registry.check rt token tool scope now =
      .ok (registry.checkCapability capability tool scope now) := by
  rw [RunRegistry.check, h]
  rfl

/-- Valid or not, the verdict names the capability. -/
theorem checkCapability_names (registry : RunRegistry) (capability : Capability)
    (tool scope : PyStr) (now : Int) :
    let check := registry.checkCapability capability tool scope now
    check.runId = some capability.runId ∧ check.tool = some capability.tool ∧
      check.scope = some capability.scope := by
  have hreject : ∀ reason, (RunRegistry.reject capability reason).runId = some capability.runId ∧
      (RunRegistry.reject capability reason).tool = some capability.tool ∧
      (RunRegistry.reject capability reason).scope = some capability.scope :=
    fun _ => ⟨rfl, rfl, rfl⟩
  simp only [RunRegistry.checkCapability]
  split
  · exact hreject _
  split
  · exact hreject _
  split
  · exact hreject _
  split
  · exact hreject _
  split
  · exact hreject _
  · exact ⟨rfl, rfl, rfl⟩

/-- The token decodes to what it was issued for, and in every later state of the registry
`check` grants exactly that, as long as the run lives and the time is not over. -/
def MeansIssued (rt : Runtime) (registry : RunRegistry) (issued : Capability) (token : PyStr) :
    Prop :=
  decodeToken rt registry.secret token = .ok ⟨some issued, none⟩ ∧
    ∀ (history : List RegistryCall) (tool scope : PyStr) (now : Int),
      ∃ check, (run RunRegistry.after registry history).check rt token tool scope now = .ok check ∧
        (check.valid = true ↔
          (∃ holder, (run RunRegistry.after registry history).get issued.runId = some holder ∧
            holder.finished = false) ∧
          now ≤ issued.expiresAt ∧ tool = issued.tool ∧ scope = issued.scope) ∧
        check.runId = some issued.runId ∧ check.tool = some issued.tool ∧
          check.scope = some issued.scope

theorem meansIssued_of_decoded {registry : RunRegistry} {issued : Capability} {token : PyStr}
    (h : decodeToken rt registry.secret token = .ok ⟨some issued, none⟩) :
    MeansIssued rt registry issued token := by
  refine ⟨h, ?_⟩
  intro history tool scope now
  rw [← run_secret registry history] at h
  refine ⟨_, check_of_decoded h tool scope now, ?_, checkCapability_names _ _ _ _ _⟩
  rw [checkCapability_valid_iff]
  constructor
  · rintro ⟨holder, hholder, hlive, htime, htool, hscope⟩
    exact ⟨⟨holder, hholder, hlive⟩, htime, htool.symm, hscope.symm⟩
  · rintro ⟨⟨holder, hholder, hlive⟩, htime, htool, hscope⟩
    exact ⟨holder, hholder, hlive, htime, htool.symm, hscope.symm⟩

theorem decodeToken_of_issue {registry : RunRegistry} {runId tool scope token : PyStr}
    {ttl now : Int} (hmac : ∀ key data, (rt.hmacSha256 key data).length = 32)
    (hroom : 0 < rt.loadsRoom) (h : registry.issue rt runId tool scope ttl now = .ok token) :
    decodeToken rt registry.secret token =
      .ok ⟨some (Capability.reread ⟨runId, tool, scope, now + ttl⟩), none⟩ := by
  refine decodeToken_issueToken ?_ hroom (issueToken_of_issue h)
  intro data hnil
  have hlength := hmac registry.secret data
  rw [hnil] at hlength
  cases hlength

/-- An issued token means what it was issued for exactly when JSON gives its three texts
back as they were. -/
theorem token_means_issued_iff (rt : Runtime) (registry : RunRegistry)
    (runId tool scope token : PyStr) (ttl now : Int)
    (hmac : ∀ key data, (rt.hmacSha256 key data).length = 32) (hroom : 0 < rt.loadsRoom)
    (h : registry.issue rt runId tool scope ttl now = .ok token) :
    MeansIssued rt registry ⟨runId, tool, scope, now + ttl⟩ token ↔
      JsonText.Unpaired runId ∧ JsonText.Unpaired tool ∧ JsonText.Unpaired scope := by
  have hdecoded := decodeToken_of_issue hmac hroom h
  rw [← JsonText.joinSurrogates_eq_iff, ← JsonText.joinSurrogates_eq_iff,
    ← JsonText.joinSurrogates_eq_iff]
  constructor
  · rintro ⟨hmeans, -⟩
    rw [hdecoded] at hmeans
    simp only [Capability.reread, Except.ok.injEq, DecodeResult.mk.injEq, Option.some.injEq,
      Capability.mk.injEq, and_true] at hmeans
    exact hmeans
  · rintro ⟨hrun, htool, hscope⟩
    apply meansIssued_of_decoded
    rw [hdecoded]
    simp only [Capability.reread, hrun, htool, hscope]

/-- A runtime that knows one signature under the sample secret. -/
def macRuntime (part : PyStr) (mac : Vector UInt8 32) : Runtime where
  __ := Runtime.ascii
  hmacSha256 := fun key data =>
    if key = Skills.sampleSecret ∧ PyStr.encodeAscii (signingInput part) = some data then mac.toList
    else List.replicate 32 0

def readMac : Vector UInt8 32 :=
  #v[212, 28, 118, 235, 206, 236, 110, 226, 69, 205, 193, 223, 179, 237, 222, 15, 58, 29, 155,
    238, 61, 237, 154, 103, 202, 77, 254, 16, 151, 204, 222, 89]

theorem borrowedToken_means_issued :
    MeansIssued (macRuntime Skills.issuedPart readMac)
      (RunRegistry.replay Skills.sampleSecret Skills.twoRuns)
      ⟨py "RUN-aaaaaa", py "read_artifact", py "workspace", 1000 + 300⟩ Skills.borrowedToken := by
  refine (token_means_issued_iff (macRuntime Skills.issuedPart readMac)
    (RunRegistry.replay Skills.sampleSecret Skills.twoRuns) (py "RUN-aaaaaa") (py "read_artifact")
    (py "workspace") Skills.borrowedToken 300 1000 ?_ (by decide)
    (ok_of_toOption (by decide +kernel))).mpr ⟨by decide, by decide, by decide⟩
  intro key data
  simp only [macRuntime]
  split
  · exact Vector.length_toList
  · exact List.length_replicate

/-- The two halves of a surrogate pair, as two characters. -/
def pairedTool : PyStr := [codePoint 0xD83D, codePoint 0xDE00]

def pairedPart : PyStr :=
  py "eyJleHAiOjEzMDAsInJ1bl9pZCI6IlJVTi1hYWFhYWEiLCJzY29wZSI6" ++
    py "IndvcmtzcGFjZSIsInRvb2wiOiJcdWQ4M2RcdWRlMDAifQ"

def pairedMac : Vector UInt8 32 :=
  #v[249, 95, 0, 73, 119, 89, 93, 208, 156, 136, 48, 17, 207, 201, 122, 77, 2, 2, 150, 182, 104,
    99, 182, 142, 101, 122, 205, 112, 129, 201, 215, 141]

def pairedToken : PyStr :=
  py "v1." ++ pairedPart ++ py ".-V8ASXdZXdCciDARz8l6TQIClrZoY7aOZXrNcIHJ140"

/-- The token is decoded to the one character of the pair. -/
theorem pairedTool_not_granted :
    ((RunRegistry.replay Skills.sampleSecret Skills.twoRuns).issue (macRuntime pairedPart pairedMac)
        (py "RUN-aaaaaa") pairedTool (py "workspace") 300 1000).toOption = some pairedToken ∧
      ¬ MeansIssued (macRuntime pairedPart pairedMac)
        (RunRegistry.replay Skills.sampleSecret Skills.twoRuns)
        ⟨py "RUN-aaaaaa", pairedTool, py "workspace", 1300⟩ pairedToken := by
  refine ⟨by decide +kernel, ?_⟩
  rintro ⟨hdecoded, -⟩
  have htool : ((decodeToken (macRuntime pairedPart pairedMac) Skills.sampleSecret
      pairedToken).toOption.bind (·.capability)).map (·.tool) = some [codePoint 0x1F600] := by
    decide +kernel
  change decodeToken (macRuntime pairedPart pairedMac) Skills.sampleSecret pairedToken = _
    at hdecoded
  rw [hdecoded] at htool
  exact absurd (Option.some.inj htool) (by decide)

section Totality

variable (rt secret)

/-- The token is `v1.<payload>.<signature>` with the right signature, and the payload is an
object with the four claims of the capability. -/
def Carries (token : PyStr) (capability : Capability) : Prop :=
  ∃ encoded signature raw fields,
    token = tokenVersion ++ py "." ++ encoded ++ py "." ++ signature ∧
    sign rt secret (signingInput encoded) = .ok signature ∧
    Base64.decode encoded = some raw ∧ JsonText.loadsBytes rt raw = .ok (.obj fields) ∧
    Assoc.get fields (py "run_id") = some (.str capability.runId) ∧
    Assoc.get fields (py "tool") = some (.str capability.tool) ∧
    Assoc.get fields (py "scope") = some (.str capability.scope) ∧
    Assoc.get fields (py "exp") = some (.int capability.expiresAt)

/-- `decode_token` returns, with a capability only for a token that carries it, and so does
`check` of every registry with the secret. -/
def Verifies (token : PyStr) : Prop :=
  (∃ result, decodeToken rt secret token = .ok result ∧
    ∀ capability, result.capability = some capability → Carries rt secret token capability) ∧
  ∀ registry : RunRegistry, registry.secret = secret → ∀ tool scope now,
    ∃ check, registry.check rt token tool scope now = .ok check

/-- The payload is no JSON text that exhausts the recursion of the reader. -/
def Shallow (encoded : PyStr) : Prop :=
  ∀ raw e, Base64.decode encoded = some raw → JsonText.loadsBytes rt raw = .error e →
    e.kind ≠ .recursionError

/-- Of three parts after `v1.`, both ASCII, and not too deep if the signature is right. -/
def Plain (token : PyStr) : Prop :=
  ∀ encoded signature, PyStr.split token (cp '.') = [tokenVersion, encoded, signature] →
    encoded ≠ [] → signature ≠ [] →
      PyStr.isAscii encoded = true ∧ PyStr.isAscii signature = true ∧
        (sign rt secret (signingInput encoded) = .ok signature → Shallow rt encoded)

variable {rt secret}

theorem exists_decodePayload_iff {encoded : PyStr} :
    (∃ result, decodePayload rt encoded = .ok result) ↔ Shallow rt encoded := by
  rw [decodePayload, Shallow]
  cases Base64.decode encoded with
  | none => simp
  | some raw =>
      cases hloads : JsonText.loadsBytes rt raw with
      | ok decoded =>
          refine iff_of_true ?_ ?_
          · simp only [hloads]
            cases capabilityOf decoded with
            | none => exact ⟨_, rfl⟩
            | some capability => exact ⟨_, rfl⟩
          · intro data e hdata hfailed
            cases hdata
            rw [hloads] at hfailed
            cases hfailed
      | error e =>
          have hfailure := JsonText.fails_loadsBytes rt raw e hloads
          have hcaught : e.isValueError = true ↔ e.kind ≠ .recursionError := by
            rcases hfailure with hkind | hkind | hkind
            · simp [PyError.isValueError, hkind]
            · simp [PyError.isValueError, hkind]
            · simp [PyError.isValueError, hkind]
          simp only [hloads]
          constructor
          · intro hreturns data error hdata hfailed
            cases hdata
            rw [hloads] at hfailed
            cases hfailed
            apply hcaught.mp
            cases hcase : e.isValueError with
            | true => rfl
            | false => simp [hcase] at hreturns
          · intro hshallow
            have hvalue := hcaught.mpr (hshallow raw e rfl hloads)
            exact ⟨_, if_pos hvalue⟩

theorem decodePayload_capability {encoded : PyStr} {result : DecodeResult} {capability : Capability}
    (h : decodePayload rt encoded = .ok result)
    (hcapability : result.capability = some capability) :
    ∃ raw fields, Base64.decode encoded = some raw ∧
      JsonText.loadsBytes rt raw = .ok (.obj fields) ∧
      Assoc.get fields (py "run_id") = some (.str capability.runId) ∧
      Assoc.get fields (py "tool") = some (.str capability.tool) ∧
      Assoc.get fields (py "scope") = some (.str capability.scope) ∧
      Assoc.get fields (py "exp") = some (.int capability.expiresAt) := by
  rw [decodePayload] at h
  split at h
  · cases h
    cases hcapability
  · rename_i raw hraw
    split at h
    · split at h
      · cases h
        cases hcapability
      · cases h
    · rename_i decoded hdecoded
      split at h
      · rename_i found hfound
        cases h
        cases hcapability
        rw [capabilityOf] at hfound
        split at hfound
        · rename_i runId tool scope exp hrun htool hscope hexp
          cases hfound
          cases decoded with
          | obj fields => exact ⟨raw, fields, hraw, hdecoded, hrun, htool, hscope, hexp⟩
          | _ => cases hrun
        · cases hfound
      · cases h
        cases hcapability

theorem isAscii_signingInput_iff {encoded : PyStr} :
    PyStr.isAscii (signingInput encoded) = PyStr.isAscii encoded := by
  have hfront : PyStr.isAscii (tokenVersion ++ py ".") = true := by decide
  simp only [PyStr.isAscii] at hfront ⊢
  rw [signingInput, List.all_append, hfront, Bool.true_and]

/-- A token that is not made of three parts is refused before it is looked into. -/
theorem decodeToken_of_not_framed {token : PyStr}
    (h : ∀ encoded signature, PyStr.split token (cp '.') = [tokenVersion, encoded, signature] →
      encoded = [] ∨ signature = []) :
    decodeToken rt secret token = .ok (.failed reasonMalformedToken) := by
  rw [decodeToken]
  split
  · rename_i version encoded signature hsplit
    refine if_pos ?_
    by_cases hversion : version = tokenVersion
    · exact .inr (h encoded signature (by rw [hsplit, hversion]))
    · exact .inl hversion
  · rfl

theorem decodeToken_of_framed {token encoded signature : PyStr}
    (h : PyStr.split token (cp '.') = [tokenVersion, encoded, signature]) (hencoded : encoded ≠ [])
    (hsignature : signature ≠ []) :
    decodeToken rt secret token =
      (sign rt secret (signingInput encoded) >>= fun expected =>
        compareDigest expected signature >>= fun same =>
          if same then decodePayload rt encoded else pure (.failed reasonSignatureInvalid)) := by
  rw [decodeToken, h]
  simp only [ne_eq, not_true_eq_false, hencoded, hsignature, or_self, if_false]

/-- The parts of a framed token, compared. -/
theorem framed_returns_iff {token encoded signature : PyStr}
    (h : PyStr.split token (cp '.') = [tokenVersion, encoded, signature]) (hencoded : encoded ≠ [])
    (hsignature : signature ≠ []) :
    (∃ result, decodeToken rt secret token = .ok result) ↔
      PyStr.isAscii encoded = true ∧ PyStr.isAscii signature = true ∧
        (sign rt secret (signingInput encoded) = .ok signature → Shallow rt encoded) := by
  rw [decodeToken_of_framed h hencoded hsignature]
  cases hascii : PyStr.isAscii encoded with
  | false =>
      simp [sign, PyStr.encodeAscii, isAscii_signingInput_iff, hascii, bind, Except.bind]
  | true =>
      have hsign : ∃ data, sign rt secret (signingInput encoded) = .ok (Base64.encode data) := by
        simp [sign, PyStr.encodeAscii, isAscii_signingInput_iff, hascii]
      obtain ⟨data, hsign⟩ := hsign
      rw [hsign, exists_bind_iff]
      simp only [Except.ok.injEq, exists_eq_left', true_and]
      cases hgiven : PyStr.isAscii signature with
      | false => simp [compareDigest, hgiven, bind, Except.bind]
      | true =>
          rw [← exists_decodePayload_iff]
          by_cases hsame : Base64.encode data = signature
          · simp [compareDigest, hgiven, hsame, bind, Except.bind]
          · simp [compareDigest, hgiven, hsame, Base64.isAscii_encode, bind, Except.bind, pure,
              Except.pure]

theorem carries_of_decoded {token : PyStr} {result : DecodeResult} {capability : Capability}
    (h : decodeToken rt secret token = .ok result)
    (hcapability : result.capability = some capability) :
    Carries rt secret token capability := by
  by_cases hframed : ∀ encoded signature,
      PyStr.split token (cp '.') = [tokenVersion, encoded, signature] →
        encoded = [] ∨ signature = []
  · rw [decodeToken_of_not_framed hframed] at h
    cases h
    cases hcapability
  · push Not at hframed
    obtain ⟨encoded, signature, hsplit, hencoded, hsignature⟩ := hframed
    rw [decodeToken_of_framed hsplit hencoded hsignature] at h
    obtain ⟨expected, hexpected, hrest⟩ := exists_ok_of_bind h
    obtain ⟨same, hcompare, hpayload⟩ := exists_ok_of_bind hrest
    cases same with
    | false =>
        cases hpayload
        cases hcapability
    | true =>
        have heq : expected = signature := by
          rw [compareDigest] at hcompare
          split at hcompare
          · exact of_decide_eq_true (Except.ok.inj hcompare)
          · cases hcompare
        subst heq
        obtain ⟨raw, fields, hclaims⟩ := decodePayload_capability hpayload hcapability
        refine ⟨encoded, expected, raw, fields, ?_, hexpected, hclaims⟩
        rw [← PyStr.join_split token (cp '.'), hsplit]
        simp [PyStr.join, List.intercalate, py]

/-- Verifying a text as a token returns exactly when its parts can be compared and read. -/
theorem verification_returns_iff (rt : Runtime) (secret : Bytes) (token : PyStr) :
    Verifies rt secret token ↔ Plain rt secret token := by
  have hreturns :
      Verifies rt secret token ↔ ∃ result, decodeToken rt secret token = .ok result := by
    constructor
    · rintro ⟨⟨result, hresult, -⟩, -⟩
      exact ⟨result, hresult⟩
    · rintro ⟨result, hresult⟩
      refine ⟨⟨result, hresult, fun _ => carries_of_decoded hresult⟩, ?_⟩
      rintro registry rfl tool scope now
      exact (exists_check_iff registry token tool scope now).mpr ⟨result, hresult⟩
  rw [hreturns]
  constructor
  · intro h encoded signature hsplit hencoded hsignature
    exact (framed_returns_iff hsplit hencoded hsignature).mp h
  · intro h
    by_cases hframed : ∀ encoded signature,
        PyStr.split token (cp '.') = [tokenVersion, encoded, signature] →
          encoded = [] ∨ signature = []
    · exact ⟨_, decodeToken_of_not_framed hframed⟩
    · push Not at hframed
      obtain ⟨encoded, signature, hsplit, hencoded, hsignature⟩ := hframed
      exact (framed_returns_iff hsplit hencoded hsignature).mpr
        (h encoded signature hsplit hencoded hsignature)

/-- A payload part outside ASCII cannot be signed. -/
theorem accentedToken_raises :
    decodeToken Runtime.ascii Skills.sampleSecret (py "v1.é.x") =
        .error { kind := .unicodeEncodeError } ∧
      ¬ Verifies Runtime.ascii Skills.sampleSecret (py "v1.é.x") := by
  have hraises : decodeToken Runtime.ascii Skills.sampleSecret (py "v1.é.x") =
      .error { kind := .unicodeEncodeError } := rfl
  refine ⟨hraises, ?_⟩
  rintro ⟨⟨result, hresult, -⟩, -⟩
  rw [hraises] at hresult
  cases hresult

end Totality

end SecureSdlc.Runner

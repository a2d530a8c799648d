import SecureSdlc.Core.JsonSpelling
import SecureSdlc.Runner.Capability

/-!
What a capability token says when it is decoded with the secret it was issued under:
the capability it was issued for, with the surrogate pairs of its strings joined. The
text of the payload goes through JSON, UTF-8, base64 and the dots of the token.
-/

namespace SecureSdlc.Runner

open Core

variable {rt : Runtime} {secret : Bytes}

/-- The capability the payload is read back as. -/
def Capability.reread (capability : Capability) : Capability where
  runId := JsonText.joinSurrogates capability.runId
  tool := JsonText.joinSurrogates capability.tool
  scope := JsonText.joinSurrogates capability.scope
  expiresAt := capability.expiresAt

theorem payloadStyle_readable : payloadStyle.Readable :=
  ⟨⟨[], rfl, by simp⟩, ⟨[], rfl, by simp⟩⟩

theorem capabilityOf_reread (capability : Capability) :
    capabilityOf (JsonText.reread payloadStyle capability.payload) = some capability.reread := by
  rfl

theorem floatFree_payload (capability : Capability) : JsonText.FloatFree capability.payload := by
  rfl

theorem split_append_sep {front : PyStr} {sep : CodePoint} (h : sep ∉ front) (rest : PyStr) :
    PyStr.split (front ++ sep :: rest) sep = front :: PyStr.split rest sep := by
  induction front with
  | nil => simp [PyStr.split, List.splitOn_cons_eq_if_modifyHead]
  | cons c front ih =>
      rw [List.mem_cons, not_or] at h
      have hrest := ih h.2
      simp only [PyStr.split] at hrest ⊢
      simp [List.splitOn_cons_eq_if_modifyHead, hrest, Ne.symm h.1]

/-- How an issued token is put together. -/
structure Issued (rt : Runtime) (secret : Bytes) (capability : Capability) (token text : PyStr) :
    Prop where
  dumped : JsonText.dumps rt payloadStyle capability.payload = .ok text
  printable : Printable text
  framed : token = tokenVersion ++ cp '.' ::
    (Base64.encode (text.map fun c => UInt8.ofNat c.val) ++ cp '.' ::
      Base64.encode (rt.hmacSha256 secret ((signingInput
        (Base64.encode (text.map fun c => UInt8.ofNat c.val))).map fun c => UInt8.ofNat c.val)))

theorem isAscii_signingInput (data : Bytes) :
    PyStr.isAscii (signingInput (Base64.encode data)) = true := by
  have hencoded := Base64.isAscii_encode data
  simp only [PyStr.isAscii] at hencoded
  simp only [PyStr.isAscii, signingInput, List.all_append, hencoded]
  rfl

theorem sign_encode (data : Bytes) :
    sign rt secret (signingInput (Base64.encode data)) = .ok (Base64.encode (rt.hmacSha256 secret
      ((signingInput (Base64.encode data)).map fun c => UInt8.ofNat c.val))) := by
  simp only [sign, PyStr.encodeAscii, isAscii_signingInput, if_true]

theorem issued_of_issueToken {capability : Capability} {token : PyStr}
    (h : issueToken rt secret capability = .ok token) :
    ∃ text, Issued rt secret capability token text := by
  rw [issueToken] at h
  obtain ⟨text, htext, h⟩ := exists_ok_of_bind h
  have hprintable : Printable text :=
    JsonText.printable_write rfl (by decide) (by decide) (floatFree_payload capability) htext
  rw [hprintable.encodeUtf8] at h
  simp only [sign_encode, bind, Except.bind, pure, Except.pure, Except.ok.injEq] at h
  refine ⟨text, htext, hprintable, ?_⟩
  rw [← h]
  simp only [signingInput, List.append_assoc]
  rfl

/-- A decoder that finds a part of the token empty says so; any other reads the payload. -/
theorem decodeToken_issued {capability : Capability} {token text : PyStr}
    (h : Issued rt secret capability token text) :
    decodeToken rt secret token =
      if Base64.encode (text.map fun c => UInt8.ofNat c.val) = [] ∨
          Base64.encode (rt.hmacSha256 secret ((signingInput
            (Base64.encode (text.map fun c => UInt8.ofNat c.val))).map
              fun c => UInt8.ofNat c.val)) = [] then
        .ok (.failed reasonMalformedToken)
      else decodePayload rt (Base64.encode (text.map fun c => UInt8.ofNat c.val)) := by
  let raw := text.map fun c => UInt8.ofNat c.val
  let signature := Base64.encode (rt.hmacSha256 secret
    ((signingInput (Base64.encode raw)).map fun c => UInt8.ofNat c.val))
  have hsplit : PyStr.split token (cp '.') = [tokenVersion, Base64.encode raw, signature] := by
    rw [h.framed, split_append_sep (by decide), split_append_sep (Base64.dot_not_mem_encode _),
      PyStr.split, List.splitOn_eq_singleton (Base64.dot_not_mem_encode _)]
  have hcompare : compareDigest signature signature = .ok true := by
    simp only [compareDigest, signature, Base64.isAscii_encode, Bool.and_self, if_true, decide_true]
  rw [decodeToken, hsplit]
  simp only [ne_eq, not_true_eq_false, false_or]
  by_cases hempty : Base64.encode raw = [] ∨ signature = []
  · rw [if_pos hempty, if_pos hempty]
  · rw [if_neg hempty, if_neg hempty, sign_encode]
    change (compareDigest signature signature >>= _) = _
    rw [hcompare]
    rfl

theorem decodePayload_issued {capability : Capability} {token text : PyStr}
    (h : Issued rt secret capability token text) (hroom : 0 < rt.loadsRoom) :
    decodePayload rt (Base64.encode (text.map fun c => UInt8.ofNat c.val)) =
      .ok ⟨some capability.reread, none⟩ := by
  have hloads := JsonText.loads_dumps payloadStyle_readable (floatFree_payload capability)
    (by exact hroom) h.dumped
  simp only [decodePayload, Base64.decode_encode, JsonText.loadsBytes, h.printable.decodeJsonBytes,
    hloads, capabilityOf_reread]

/-- A reader without room for the payload's object raises; nothing is decoded. -/
theorem decodePayload_no_room {capability : Capability} {token text : PyStr}
    (h : Issued rt secret capability token text) (hroom : rt.loadsRoom = 0) :
    decodePayload rt (Base64.encode (text.map fun c => UInt8.ofNat c.val)) =
      .error { kind := .recursionError } := by
  have hloads : JsonText.loads rt text = .error { kind := .recursionError } := by
    obtain ⟨inner, -, -, rfl⟩ := JsonText.write_obj h.dumped
    rw [JsonText.loads, if_neg, JsonText.skipBlanks_cons (by decide), hroom, JsonText.read]
    · rfl
    · simp only [PyStr.startsWith, decide_eq_true_eq, List.cons_prefix_cons]
      exact fun hmark => absurd hmark.1 (by decide)
  simp only [decodePayload, Base64.decode_encode, JsonText.loadsBytes, h.printable.decodeJsonBytes,
    hloads, PyError.isValueError]
  rfl

/-- Whatever an issued token decodes to is the capability it was issued for. -/
theorem decoded_issueToken {capability decoded : Capability} {token : PyStr}
    {error : Option PyStr} (h : issueToken rt secret capability = .ok token)
    (hdecoded : decodeToken rt secret token = .ok ⟨some decoded, error⟩) :
    decoded = capability.reread := by
  obtain ⟨text, hissued⟩ := issued_of_issueToken h
  rw [decodeToken_issued hissued] at hdecoded
  split at hdecoded
  · cases hdecoded
  · rcases Nat.eq_zero_or_pos rt.loadsRoom with hroom | hroom
    · rw [decodePayload_no_room hissued hroom] at hdecoded
      cases hdecoded
    · rw [decodePayload_issued hissued hroom] at hdecoded
      cases hdecoded
      rfl

/-- With signatures that are not empty and room for the payload's object, the token is
decoded. -/
theorem decodeToken_issueToken {capability : Capability} {token : PyStr}
    (hmac : ∀ data, rt.hmacSha256 secret data ≠ []) (hroom : 0 < rt.loadsRoom)
    (h : issueToken rt secret capability = .ok token) :
    decodeToken rt secret token = .ok ⟨some capability.reread, none⟩ := by
  obtain ⟨text, hissued⟩ := issued_of_issueToken h
  obtain ⟨inner, -, -, htext⟩ := JsonText.write_obj hissued.dumped
  rw [decodeToken_issued hissued, if_neg, decodePayload_issued hissued hroom]
  rw [Base64.encode_eq_nil, Base64.encode_eq_nil, not_or, List.map_eq_nil_iff, htext]
  exact ⟨List.cons_ne_nil _ _, hmac _⟩

end SecureSdlc.Runner

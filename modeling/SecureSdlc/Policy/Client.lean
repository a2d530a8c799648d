import SecureSdlc.Core.JsonText
import SecureSdlc.Policy.Decision

/-!
The policy client, `policy/client.py`. The server is a function of the request: it
answers, is not reached, or makes `urlopen` raise an exception that the client does not
catch. The timeout is part of the server's behaviour.
-/

namespace SecureSdlc.Policy

open Core

def reasonAllowed : PyStr := py "ALLOWED"

def reasonDenied : PyStr := py "DENIED"

def reasonPolicyUnavailable : PyStr := py "POLICY_UNAVAILABLE"

def reasonPolicyMalformed : PyStr := py "POLICY_MALFORMED"

/-- What `urlopen` does with a request. -/
inductive Reply where
  | answered (raw : Bytes)
  /-- `URLError`, `OSError` or `TimeoutError`. -/
  | unreachable
  | raised (e : PyError)

structure PolicyClient where
  baseUrl : PyStr := py "http://localhost:8181"
  bundleVersion : PyStr := py "unknown"
  urlopen : PyStr → Bytes → Reply

/-- `hashlib.sha256(text.encode("utf-8")).hexdigest()`. -/
def sha256OfText (rt : Runtime) (text : PyStr) : Except PyError PyStr :=
  match PyStr.encodeUtf8 text with
  | some data => .ok (rt.hexdigest data)
  | none => .error { kind := .unicodeEncodeError }

/-- `compute_input_digest`. -/
def computeInputDigest (rt : Runtime) (payload : Json) : Except PyError PyStr := do
  sha256OfText rt (← JsonText.dumps rt JsonText.canonical payload)

/-- `_decision_path`. -/
def decisionPath (point : PyStr) : PyStr :=
  py "v1/data/sdlc/" ++ PyStr.replaceChar point (cp '-') (cp '_') ++ py "/decision"

/-- The body of a request; `json.dumps` writes ASCII here. -/
def requestBody (rt : Runtime) (payload : Json) : Except PyError Bytes := do
  let text ← JsonText.dumps rt {} (.obj [(py "input", payload)])
  match PyStr.encodeUtf8 text with
  | some data => .ok data
  | none => .error { kind := .unicodeEncodeError }

namespace PolicyClient

variable (rt : Runtime) (client : PolicyClient)

/-- The url of a decision; the constructor has stripped the base's slashes. -/
def url (point : PyStr) : PyStr :=
  (client.baseUrl.reverse.dropWhile fun c => decide (c = cp '/')).reverse ++ py "/" ++
    decisionPath point

/-- `_fail_closed`. -/
def failClosed (reason digest : PyStr) : PolicyResult :=
  ⟨false, [reason], client.bundleVersion, digest⟩

/-- The reason codes of an answer, where they are a list of strings and not empty. -/
def reasonCodes (allow : Bool) (codes : Option Json) : List PyStr :=
  let dflt := [if allow then reasonAllowed else reasonDenied]
  match codes with
  | some (.arr (first :: rest)) => ((first :: rest).mapM Json.str?).getD dflt
  | _ => dflt

/-- What `_parse` makes of the decoded body. -/
def normalize (digest : PyStr) (body : Json) : PolicyResult :=
  match body.get? (py "result") with
  | some (.bool allow) =>
      ⟨allow, [if allow then reasonAllowed else reasonDenied], client.bundleVersion, digest⟩
  | some (.obj result) =>
      match Assoc.get result (py "allow") with
      | some (.bool allow) =>
          ⟨allow, reasonCodes allow (Assoc.get result (py "reason_codes")), client.bundleVersion,
            digest⟩
      | _ => client.failClosed reasonPolicyMalformed digest
  | _ => client.failClosed reasonPolicyMalformed digest

/-- `_parse`; only `JSONDecodeError` is caught. -/
def parse (raw : Bytes) (digest : PyStr) : Except PyError PolicyResult :=
  match JsonText.loadsBytes rt raw with
  | .ok body => .ok (client.normalize digest body)
  | .error e =>
      if e.kind = .jsonDecodeError then .ok (client.failClosed reasonPolicyMalformed digest)
      else .error e

def evaluate (point : PyStr) (payload : Json) : Except PyError PolicyResult := do
  let digest ← computeInputDigest rt payload
  let body ← requestBody rt payload
  match client.urlopen (client.url point) body with
  | .answered raw => client.parse rt raw digest
  | .unreachable => .ok (client.failClosed reasonPolicyUnavailable digest)
  | .raised e => .error e

/-- The server's answer is an allow that `_parse` takes for one. -/
def WellFormedAllow (raw : Bytes) : Prop :=
  ∃ body, JsonText.loadsBytes rt raw = .ok (.obj body) ∧
    (Assoc.get body (py "result") = some (.bool true) ∨
      ∃ result, Assoc.get body (py "result") = some (.obj result) ∧
        Assoc.get result (py "allow") = some (.bool true))

theorem normalize_allow {digest : PyStr} {body : Json}
    (h : (client.normalize digest body).allow = true) :
    ∃ fields, body = .obj fields ∧
      (Assoc.get fields (py "result") = some (.bool true) ∨
        ∃ result, Assoc.get fields (py "result") = some (.obj result) ∧
          Assoc.get result (py "allow") = some (.bool true)) := by
  cases body with
  | obj fields =>
      refine ⟨fields, rfl, ?_⟩
      simp only [normalize, Json.get?] at h
      split at h
      · rename_i allow hresult
        obtain rfl : allow = true := h
        exact Or.inl hresult
      · rename_i result hresult
        split at h
        · rename_i allow hallow
          obtain rfl : allow = true := h
          exact Or.inr ⟨result, hresult, hallow⟩
        · cases h
      · cases h
  | _ => cases h

/-- A result carries the digest of its payload, and is read off an answer or refuses. -/
theorem evaluate_cases {point : PyStr} {payload : Json} {result : PolicyResult}
    (h : client.evaluate rt point payload = .ok result) :
    ∃ digest, computeInputDigest rt payload = .ok digest ∧
      ((∃ body, result = client.normalize digest body) ∨
        ∃ reason, result = client.failClosed reason digest) := by
  obtain ⟨digest, hdigest, h⟩ := exists_ok_of_bind h
  obtain ⟨body, -, h⟩ := exists_ok_of_bind h
  refine ⟨digest, hdigest, ?_⟩
  cases hreply : client.urlopen (client.url point) body with
  | answered raw =>
      simp only [hreply, parse] at h
      cases hloads : JsonText.loadsBytes rt raw with
      | ok answer =>
          rw [hloads] at h
          cases h
          exact .inl ⟨answer, rfl⟩
      | error e =>
          simp only [hloads] at h
          split at h
          · cases h
            exact .inr ⟨_, rfl⟩
          · cases h
  | unreachable =>
      simp only [hreply] at h
      cases h
      exact .inr ⟨_, rfl⟩
  | raised e =>
      simp only [hreply] at h
      cases h

theorem normalize_inputDigest (digest : PyStr) (body : Json) :
    (client.normalize digest body).inputDigest = digest := by
  rw [normalize.eq_def]
  split
  · rfl
  · split
    · rfl
    · rfl
  · rfl

theorem evaluate_inputDigest {point : PyStr} {payload : Json} {result : PolicyResult}
    (h : client.evaluate rt point payload = .ok result) :
    computeInputDigest rt payload = .ok result.inputDigest := by
  obtain ⟨digest, hdigest, ⟨body, rfl⟩ | ⟨reason, rfl⟩⟩ := client.evaluate_cases rt h
  · rw [normalize_inputDigest]
    exact hdigest
  · exact hdigest

/-- The client allows only on the server's word. -/
theorem evaluate_allow {point : PyStr} {payload : Json} {result : PolicyResult}
    (h : client.evaluate rt point payload = .ok result) (hallow : result.allow = true) :
    ∃ body raw, requestBody rt payload = .ok body ∧
      client.urlopen (client.url point) body = .answered raw ∧ WellFormedAllow rt raw := by
  obtain ⟨digest, -, h⟩ := exists_ok_of_bind h
  obtain ⟨body, hbody, h⟩ := exists_ok_of_bind h
  cases hreply : client.urlopen (client.url point) body with
  | answered raw =>
      refine ⟨body, raw, hbody, hreply, ?_⟩
      simp only [hreply, parse] at h
      cases hloads : JsonText.loadsBytes rt raw with
      | ok answer =>
          rw [hloads] at h
          cases h
          obtain ⟨fields, rfl, hfields⟩ := client.normalize_allow hallow
          exact ⟨fields, hloads, hfields⟩
      | error e =>
          simp only [hloads] at h
          split at h
          · cases h
            cases hallow
          · cases h
  | unreachable =>
      simp only [hreply] at h
      cases h
      cases hallow
  | raised e =>
      simp only [hreply] at h
      cases h

end PolicyClient

end SecureSdlc.Policy

import SecureSdlc.Core.Bytes
import SecureSdlc.Core.Python

/-!
Capture of tool output: trust tiers (`trust.py`), compression, the content
addressed store and the evidence record (`evidence/`). The directory of the store
is taken to be writable.
-/

namespace SecureSdlc.Evidence

open Core

inductive TrustTier where
  | trusted
  | untrusted
  | sensitive
deriving DecidableEq, Repr

def TrustTier.value : TrustTier → PyStr
  | .trusted => py "trusted"
  | .untrusted => py "untrusted"
  | .sensitive => py "sensitive"

def trustedSources : List PyStr :=
  [py "approved_artifact", py "policy", py "schema", py "pinned_template"]

def sensitiveSources : List PyStr :=
  [py "secret", py "credential", py "pii", py "production_config"]

def classifySource (source : PyStr) : TrustTier :=
  if source ∈ trustedSources then .trusted
  else if source ∈ sensitiveSources then .sensitive
  else .untrusted

def defaultMaxBytes : Nat := 8192

def defaultExcerptBytes : Nat := 2048

structure CompressionResult where
  applied : Bool
  originalDigest : PyStr
  originalSizeBytes : Nat
  compressedSizeBytes : Nat
  recoveryHandle : PyStr
  contextText : PyStr

/-- `_excerpt`; `raw[-0:]` is all of `raw`. -/
def excerpt (raw : Bytes) (excerptBytes : Nat) : PyStr :=
  let head := raw.take excerptBytes
  let tail := if excerptBytes = 0 then raw else raw.drop (raw.length - excerptBytes)
  let omitted : Int := raw.length - head.length - tail.length
  let marker := py "\n... [" ++ PyStr.ofInt omitted ++
    py " bytes omitted; byte-exact original in evidence store] ...\n"
  Utf8.decodeReplace (head ++ marker.flatMap PyStr.utf8Bytes ++ tail)

variable (rt : Runtime)

/-- A negative `max_bytes` leaves nothing of the untrusted tier as it is. -/
def compressForContext (text : PyStr) (tier : TrustTier) (maxBytes : Int) (excerptBytes : Nat) :
    Except PyError CompressionResult :=
  match PyStr.encodeUtf8 text with
  | none => .error { kind := .unicodeEncodeError }
  | some raw =>
      let digest := rt.hexdigest raw
      let handle := py "sha256:" ++ digest
      if tier ≠ .untrusted ∨ raw.length ≤ maxBytes then
        .ok ⟨false, digest, raw.length, raw.length, handle, text⟩
      else
        .ok ⟨true, digest, raw.length, (rt.zlibCompress raw).length, handle,
          excerpt raw excerptBytes⟩

/-- Raw bytes by digest; putting a digest again rewrites its file. -/
structure EvidenceStore where
  blobs : List (PyStr × Bytes) := []

def EvidenceStore.put (store : EvidenceStore) (data : Bytes) : PyStr × EvidenceStore :=
  let digest := rt.hexdigest data
  (digest, { store with blobs := Assoc.set store.blobs digest data })

/-- `get`, for the digest of some data; other names may lead out of the directory. -/
def EvidenceStore.get (store : EvidenceStore) (digest : PyStr) : Except PyError Bytes :=
  match Assoc.get store.blobs digest with
  | some data => .ok data
  | none => .error { kind := .keyError, message := digest }

def handlePrefix : PyStr := py "sha256:"

def EvidenceStore.resolve (store : EvidenceStore) (handle : PyStr) : Except PyError Bytes :=
  if PyStr.startsWith handle handlePrefix then store.get (handle.drop handlePrefix.length)
  else .error {
    kind := .valueError
    message := py "unsupported recovery handle: " ++ reprStr rt handle }

def optionalField (key : PyStr) (value : Option PyStr) : Mapping :=
  match value with
  | some v => [(key, .str v)]
  | none => []

def compressionEntry (c : CompressionResult) : Json :=
  .obj ([(py "applied", .bool c.applied)] ++
    if c.applied then
      [(py "original_digest", .str c.originalDigest),
        (py "original_size_bytes", .int c.originalSizeBytes),
        (py "compressed_size_bytes", .int c.compressedSizeBytes),
        (py "recovery_handle", .str c.recoveryHandle)]
    else [])

/-- `build_evidence_record`; empty links are left out. -/
def buildEvidenceRecord (artifactId createdAt : PyStr) (actor : Mapping) (runId action : PyStr)
    (trustTier : TrustTier) (sensitivity : PyStr)
    (artifactDigest artifactRef policyDecisionRef : Option PyStr)
    (compression : Option CompressionResult) (links : List Mapping) : Mapping :=
  [(py "schema_version", .str (py "1.0.0")),
    (py "artifact_type", .str (py "evidence-record")),
    (py "id", .str artifactId),
    (py "created_at", .str createdAt),
    (py "actor", .obj actor),
    (py "run_id", .str runId),
    (py "action", .str action),
    (py "trust_tier", .str trustTier.value),
    (py "sensitivity", .str sensitivity)]
  ++ optionalField (py "artifact_digest") artifactDigest
  ++ optionalField (py "artifact_ref") artifactRef
  ++ optionalField (py "policy_decision_ref") policyDecisionRef
  ++ (match compression with
    | some c => [(py "compression", compressionEntry c)]
    | none => [])
  ++ (if links.isEmpty then [] else [(py "links", .arr (links.map .obj))])

structure ToolOutputResult where
  record : Mapping
  contextText : PyStr
  digest : PyStr

/-- `process_tool_output`; no links are given as an empty list. -/
def processToolOutputWith (text action : PyStr) (actor : Mapping)
    (runId artifactId createdAt : PyStr) (store : EvidenceStore) (tier : TrustTier)
    (sensitivity : PyStr) (maxBytes : Int) (artifactRef policyDecisionRef : Option PyStr)
    (links : List Mapping) : Except PyError (ToolOutputResult × EvidenceStore) :=
  if tier = .sensitive then
    .error {
      kind := .sensitiveContentError
      message := py "sensitive content must be redacted or handled outside the model context" }
  else do
    let compression ← compressForContext rt text tier maxBytes defaultExcerptBytes
    match PyStr.encodeUtf8 text with
    | none => .error { kind := .unicodeEncodeError }
    | some raw =>
        let (digest, store) := store.put rt raw
        if digest ≠ compression.originalDigest then
          .error { kind := .assertionError, message := py "evidence store digest mismatch" }
        else
          let ref := some (artifactRef.getD compression.recoveryHandle)
          let record := buildEvidenceRecord artifactId createdAt actor runId action tier
            sensitivity (some digest) ref policyDecisionRef (some compression) links
          pure (⟨record, compression.contextText, digest⟩, store)

/-- `process_tool_output` with the default sensitivity, size and links. -/
def processToolOutput (text action : PyStr) (actor : Mapping) (runId artifactId createdAt : PyStr)
    (store : EvidenceStore) (tier : TrustTier) (artifactRef policyDecisionRef : Option PyStr) :
    Except PyError (ToolOutputResult × EvidenceStore) :=
  processToolOutputWith rt text action actor runId artifactId createdAt store tier (py "none")
    defaultMaxBytes artifactRef policyDecisionRef []

end SecureSdlc.Evidence

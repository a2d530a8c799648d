import SecureSdlc.Core.JsonTokens
import SecureSdlc.Core.Run
import SecureSdlc.Evidence.Pipeline

/-!
What the evidence store keeps over a history of calls. SHA-256 is a function that has no
collision among the data of the history; nothing is said about an interrupted write.
-/

namespace SecureSdlc.Evidence

open Core

variable {rt : Runtime}

/-- What a compression result says of the bytes it is about, compressed or not. -/
structure Addresses (rt : Runtime) (raw : Bytes) (compression : CompressionResult) : Prop where
  digest : compression.originalDigest = rt.hexdigest raw
  size : compression.originalSizeBytes = raw.length
  handle : compression.recoveryHandle = handlePrefix ++ rt.hexdigest raw

theorem compressForContext_encodable (rt : Runtime) {text : PyStr}
    (h : PyStr.encodable text = true) (tier : TrustTier) (maxBytes : Int) (excerptBytes : Nat) :
    ∃ compression, compressForContext rt text tier maxBytes excerptBytes = .ok compression ∧
      Addresses rt (text.flatMap PyStr.utf8Bytes) compression ∧
      (compression.applied = true ↔
        tier = .untrusted ∧ maxBytes < (text.flatMap PyStr.utf8Bytes).length) := by
  simp only [compressForContext, PyStr.encodeUtf8, h, if_true]
  split
  · rename_i hkept
    refine ⟨_, rfl, ⟨rfl, rfl, rfl⟩, ?_⟩
    simp only [Bool.false_eq_true, false_iff, not_and, Int.not_lt]
    exact fun htier => hkept.resolve_left (not_not_intro htier)
  · rename_i hlarge
    refine ⟨_, rfl, ⟨rfl, rfl, rfl⟩, ?_⟩
    simp only [true_iff]
    rw [not_or, not_not, Int.not_le] at hlarge
    exact hlarge

/-- The call with all its arguments: the store is left with the bytes of the text, and the
record is about them. -/
theorem processToolOutputWith_encodable (rt : Runtime) {text : PyStr}
    (h : PyStr.encodable text = true) (action : PyStr) (actor : Mapping)
    (runId artifactId createdAt : PyStr) (store : EvidenceStore) {tier : TrustTier}
    (htier : tier ≠ .sensitive) (sensitivity : PyStr) (maxBytes : Int)
    (artifactRef decisionRef : Option PyStr) (links : List Mapping) :
    ∃ compression, compressForContext rt text tier maxBytes defaultExcerptBytes = .ok compression ∧
      processToolOutputWith rt text action actor runId artifactId createdAt store tier sensitivity
        maxBytes artifactRef decisionRef links =
      .ok (⟨buildEvidenceRecord artifactId createdAt actor runId action tier sensitivity
            (some (rt.hexdigest (text.flatMap PyStr.utf8Bytes)))
            (some (artifactRef.getD compression.recoveryHandle)) decisionRef (some compression)
              links,
          compression.contextText, rt.hexdigest (text.flatMap PyStr.utf8Bytes)⟩,
        (store.put rt (text.flatMap PyStr.utf8Bytes)).2) := by
  obtain ⟨compression, hcompression, haddresses, -⟩ :=
    compressForContext_encodable rt h tier maxBytes defaultExcerptBytes
  refine ⟨compression, hcompression, ?_⟩
  have hraw : PyStr.encodeUtf8 text = some (text.flatMap PyStr.utf8Bytes) := by
    rw [PyStr.encodeUtf8, if_pos h]
  have hsame : ¬ (store.put rt (text.flatMap PyStr.utf8Bytes)).1 ≠ compression.originalDigest := by
    rw [haddresses.digest]
    exact not_not_intro rfl
  simp only [processToolOutputWith, htier, if_false, hcompression, hraw, bind, Except.bind, hsame]
  rfl

/-- A text with a surrogate is refused before anything is stored. -/
theorem processToolOutputWith_not_encodable {text : PyStr} (h : PyStr.encodable text = false)
    (action : PyStr) (actor : Mapping) (runId artifactId createdAt : PyStr)
    (store : EvidenceStore) {tier : TrustTier} (htier : tier ≠ .sensitive) (sensitivity : PyStr)
    (maxBytes : Int) (artifactRef decisionRef : Option PyStr) (links : List Mapping) :
    processToolOutputWith rt text action actor runId artifactId createdAt store tier sensitivity
      maxBytes artifactRef decisionRef links = .error { kind := .unicodeEncodeError } := by
  simp only [processToolOutputWith, htier, if_false, compressForContext, PyStr.encodeUtf8, h]
  rfl

theorem get_put (store : EvidenceStore) (data : Bytes) :
    (store.put rt data).2.get (rt.hexdigest data) = .ok data := by
  simp [EvidenceStore.put, EvidenceStore.get]

/-- Other data leaves what is stored under a digest, unless it has the same one. -/
theorem get_put_of_ne {store : EvidenceStore} {data other : Bytes}
    (h : rt.sha256 other ≠ rt.sha256 data) :
    (store.put rt other).2.get (rt.hexdigest data) = store.get (rt.hexdigest data) := by
  have hname : rt.hexdigest other ≠ rt.hexdigest data :=
    fun hsame => h (hexOfBytes_injective hsame)
  simp only [EvidenceStore.put, EvidenceStore.get, Assoc.get_set_of_ne _ _ hname]

theorem resolve_handle (store : EvidenceStore) (digest : PyStr) :
    store.resolve rt (handlePrefix ++ digest) = store.get digest := by
  have hfront : PyStr.startsWith (handlePrefix ++ digest) handlePrefix = true := by
    simp [PyStr.startsWith]
  rw [EvidenceStore.resolve, if_pos hfront, List.drop_left]

/-- The arguments of `process_tool_output`. -/
structure Capture where
  text : PyStr
  action : PyStr
  actor : Mapping
  runId : PyStr
  artifactId : PyStr
  createdAt : PyStr
  tier : TrustTier := .untrusted
  sensitivity : PyStr := py "none"
  maxBytes : Int := defaultMaxBytes
  artifactRef : Option PyStr := none
  policyDecisionRef : Option PyStr := none
  links : List Mapping := []

def Capture.process (rt : Runtime) (capture : Capture) (store : EvidenceStore) :
    Except PyError (ToolOutputResult × EvidenceStore) :=
  processToolOutputWith rt capture.text capture.action capture.actor capture.runId
    capture.artifactId capture.createdAt store capture.tier capture.sensitivity capture.maxBytes
    capture.artifactRef capture.policyDecisionRef capture.links

/-- A call on the store: `put`, or `process_tool_output` with it. -/
inductive StoreCall where
  | put (data : Bytes)
  | process (capture : Capture)

/-- The store after the call; one that raises leaves it. -/
def StoreCall.next (rt : Runtime) (store : EvidenceStore) : StoreCall → EvidenceStore
  | .put data => (store.put rt data).2
  | .process capture =>
      match capture.process rt store with
      | .ok (_, store) => store
      | .error _ => store

/-- The bytes that the call stores. -/
def StoreCall.written : StoreCall → Option Bytes
  | .put data => some data
  | .process capture =>
      if capture.tier = .sensitive then none else PyStr.encodeUtf8 capture.text

theorem next_eq (store : EvidenceStore) (call : StoreCall) :
    call.next rt store = call.written.elim store fun data => (store.put rt data).2 := by
  cases call with
  | put data => rfl
  | process capture =>
      simp only [StoreCall.next, StoreCall.written, Capture.process]
      by_cases htier : capture.tier = .sensitive
      · simp [processToolOutputWith, htier]
      · rw [if_neg htier]
        cases hencodable : PyStr.encodable capture.text with
        | true =>
            obtain ⟨compression, -, heq⟩ := processToolOutputWith_encodable rt hencodable
              capture.action capture.actor capture.runId capture.artifactId capture.createdAt store
              htier capture.sensitivity capture.maxBytes capture.artifactRef
              capture.policyDecisionRef capture.links
            rw [heq, PyStr.encodeUtf8, if_pos hencodable]
            rfl
        | false =>
            rw [processToolOutputWith_not_encodable hencodable _ _ _ _ _ _ htier,
              PyStr.encodeUtf8, hencodable]
            rfl

/-- No two different data of the calls have one SHA-256. -/
def CollisionFree (rt : Runtime) (calls : List StoreCall) : Prop :=
  ∀ a ∈ calls.filterMap StoreCall.written, ∀ b ∈ calls.filterMap StoreCall.written,
    rt.sha256 a = rt.sha256 b → a = b

instance (rt : Runtime) (calls : List StoreCall) : Decidable (CollisionFree rt calls) :=
  inferInstanceAs (Decidable (∀ a ∈ calls.filterMap StoreCall.written,
    ∀ b ∈ calls.filterMap StoreCall.written, rt.sha256 a = rt.sha256 b → a = b))

/-- One call keeps what is stored under the digest of some data. -/
theorem get_next {store : EvidenceStore} {data : Bytes} {call : StoreCall}
    (hfree : ∀ other, call.written = some other → rt.sha256 other = rt.sha256 data → other = data)
    (h : store.get (rt.hexdigest data) = .ok data) :
    (call.next rt store).get (rt.hexdigest data) = .ok data := by
  rw [next_eq]
  cases hwritten : call.written with
  | none => exact h
  | some other =>
      by_cases hsame : rt.sha256 other = rt.sha256 data
      · obtain rfl := hfree other hwritten hsame
        exact get_put store other
      · rw [← h]
        exact get_put_of_ne hsame

theorem get_run {store : EvidenceStore} {data : Bytes} {calls : List StoreCall}
    (hfree : ∀ other ∈ calls.filterMap StoreCall.written,
      rt.sha256 other = rt.sha256 data → other = data)
    (h : store.get (rt.hexdigest data) = .ok data) :
    (run (StoreCall.next rt) store calls).get (rt.hexdigest data) = .ok data := by
  induction calls generalizing store with
  | nil => exact h
  | cons call calls ih =>
      rw [run_cons]
      apply ih
      · intro other hother
        obtain ⟨later, hlater, hwritten⟩ := List.mem_filterMap.mp hother
        exact hfree other (List.mem_filterMap.mpr ⟨later, List.mem_cons_of_mem _ hlater, hwritten⟩)
      · apply get_next _ h
        intro other hwritten
        exact hfree other (List.mem_filterMap.mpr ⟨call, List.mem_cons_self, hwritten⟩)

/-- The bytes are fetched by the digest of the record, by its reference where that is the
default and, where the text was compressed, by the recovery handle. -/
structure Recoverable (rt : Runtime) (store : EvidenceStore) (capture : Capture) (raw : Bytes)
    (record : Mapping) : Prop where
  digest : ∃ digest, Assoc.get record (py "artifact_digest") = some (.str digest) ∧
    store.get digest = .ok raw
  reference : capture.artifactRef = none →
    ∃ ref, Assoc.get record (py "artifact_ref") = some (.str ref) ∧ store.resolve rt ref = .ok raw
  compression : ∃ entry applied, Assoc.get record (py "compression") = some (.obj entry) ∧
    Assoc.get entry (py "applied") = some (.bool applied) ∧
    (applied = true ↔ capture.tier = .untrusted ∧ capture.maxBytes < raw.length) ∧
    (applied = true → Assoc.get entry (py "original_size_bytes") = some (.int raw.length) ∧
      ∃ handle, Assoc.get entry (py "recovery_handle") = some (.str handle) ∧
        store.resolve rt handle = .ok raw)

theorem recoverable_of_get {store : EvidenceStore} {capture : Capture} {raw : Bytes}
    {compression : CompressionResult} (haddresses : Addresses rt raw compression)
    (happlied : compression.applied = true ↔
      capture.tier = .untrusted ∧ capture.maxBytes < raw.length)
    (h : store.get (rt.hexdigest raw) = .ok raw) :
    Recoverable rt store capture raw
      (buildEvidenceRecord capture.artifactId capture.createdAt capture.actor capture.runId
        capture.action capture.tier capture.sensitivity (some (rt.hexdigest raw))
        (some (capture.artifactRef.getD compression.recoveryHandle)) capture.policyDecisionRef
        (some compression) capture.links) := by
  have hresolve : store.resolve rt compression.recoveryHandle = .ok raw := by
    rw [haddresses.handle, resolve_handle, h]
  refine ⟨⟨_, rfl, h⟩, ?_, ?_⟩
  · intro hdefault
    rw [hdefault]
    exact ⟨_, rfl, hresolve⟩
  · have hentry : ∀ ref links, Assoc.get (buildEvidenceRecord capture.artifactId capture.createdAt
        capture.actor capture.runId capture.action capture.tier capture.sensitivity
        (some (rt.hexdigest raw)) (some (capture.artifactRef.getD compression.recoveryHandle)) ref
        (some compression) links) (py "compression") = some (compressionEntry compression) := by
      intro ref links
      cases ref with
      | none => rfl
      | some decision => rfl
    refine ⟨_, compression.applied, hentry _ _, ?_, happlied, ?_⟩
    · rfl
    · intro hyes
      rw [hyes, if_pos rfl, haddresses.size]
      exact ⟨rfl, compression.recoveryHandle, rfl, hresolve⟩

/-- Over any history of calls on a store: what is captured is recovered after all later
calls, and a call of the sensitive tier raises and leaves the store. -/
theorem evidence_recoverable (rt : Runtime) (store : EvidenceStore) (before after : List StoreCall)
    (capture : Capture) (hfree : CollisionFree rt (before ++ .process capture :: after)) :
    let current := run (StoreCall.next rt) store before
    (capture.tier = .sensitive →
      (∃ message, capture.process rt current = .error ⟨.sensitiveContentError, message⟩) ∧
        (StoreCall.process capture).next rt current = current) ∧
    (capture.tier ≠ .sensitive → PyStr.encodable capture.text = true →
      ∃ outcome stored raw, capture.process rt current = .ok (outcome, stored) ∧
        PyStr.encodeUtf8 capture.text = some raw ∧
        Recoverable rt (run (StoreCall.next rt) stored after) capture raw outcome.record) := by
  intro current
  constructor
  · intro htier
    have hraises : ∃ message,
        capture.process rt current = .error ⟨.sensitiveContentError, message⟩ := by
      rw [Capture.process, processToolOutputWith, if_pos htier]
      exact ⟨_, rfl⟩
    refine ⟨hraises, ?_⟩
    obtain ⟨message, hraises⟩ := hraises
    simp only [StoreCall.next, hraises]
  · intro htier hencodable
    obtain ⟨compression, hcompression, heq⟩ := processToolOutputWith_encodable rt hencodable
      capture.action capture.actor capture.runId capture.artifactId capture.createdAt current
      htier capture.sensitivity capture.maxBytes capture.artifactRef capture.policyDecisionRef
      capture.links
    obtain ⟨found, hfound, haddresses, happlied⟩ := compressForContext_encodable rt
      hencodable capture.tier capture.maxBytes defaultExcerptBytes
    obtain rfl : found = compression := Except.ok.inj (hfound.symm.trans hcompression)
    refine ⟨_, _, _, heq, by rw [PyStr.encodeUtf8, if_pos hencodable], ?_⟩
    apply recoverable_of_get haddresses happlied
    apply get_run _ (get_put current _)
    intro other hother
    apply hfree
    · rw [List.filterMap_append, List.mem_append]
      obtain ⟨call, hcall, hwritten⟩ := List.mem_filterMap.mp hother
      exact .inr (List.mem_filterMap.mpr ⟨call, List.mem_cons_of_mem _ hcall, hwritten⟩)
    · apply List.mem_filterMap.mpr
      refine ⟨.process capture, List.mem_append_right _ List.mem_cons_self, ?_⟩
      rw [StoreCall.written, if_neg htier, PyStr.encodeUtf8, if_pos hencodable]

def sampleActor : Mapping :=
  [(py "type", .str (py "agent")), (py "id", .str (py "implementer")),
    (py "role", .str (py "implementer"))]

/-- More than two bytes, of the untrusted tier. -/
def sampleCapture : Capture where
  text := py "no match\n"
  action := py "tool.bash.output"
  actor := sampleActor
  runId := py "RUN-implementer-0001"
  artifactId := py "EV-0001"
  createdAt := py "2026-09-22T00:00:00Z"
  maxBytes := 2

/-- A runtime that knows the digests of the three texts of the sample history, and what
the second is compressed to. -/
def sampleStorage : Runtime where
  __ := Runtime.recording
    [(109998, 0xdc51b8c96c2d745df3bd5590d990230a482fd247123599548e0632fdbf97fc22),
      (406037, 0xa3010e49f491e79357181823002f73df0158eff1921ac1e64726a5e9ecabcbb1),
      (767467, 0xd117fa006ba9208500b2930ce69cbde436c647afa917cb7396a9bc9111a46dd2)] []
  zlibCompress := fun _ =>
    [120, 218, 203, 203, 87, 200, 77, 44, 73, 206, 224, 2, 0, 16, 133, 3, 21]

theorem sampleCapture_recovered :
    ∃ outcome stored raw,
      sampleCapture.process sampleStorage
        (run (StoreCall.next sampleStorage) {} [.put [111, 107, 10]]) = .ok (outcome, stored) ∧
      PyStr.encodeUtf8 (py "no match\n") = some raw ∧
      Recoverable sampleStorage
        (run (StoreCall.next sampleStorage) stored [.put [100, 111, 110, 101, 10]])
        sampleCapture raw outcome.record := by
  obtain ⟨-, hkept⟩ := evidence_recoverable sampleStorage {} [.put [111, 107, 10]]
    [.put [100, 111, 110, 101, 10]] sampleCapture (by decide +kernel)
  exact hkept (by decide) (by decide)

end SecureSdlc.Evidence

import SecureSdlc.Core.Slice
import SecureSdlc.Metatheory.EvidenceRecovery

/-!
What an excerpt keeps of the bytes it is made of, before it is decoded.
-/

namespace SecureSdlc.Evidence

open Core

/-- `raw[:excerpt_bytes]`. -/
def excerptHead (raw : Bytes) (excerptBytes : Nat) : Bytes :=
  slice raw none (some excerptBytes)

/-- `raw[-excerpt_bytes:]`. -/
def excerptTail (raw : Bytes) (excerptBytes : Nat) : Bytes :=
  slice raw (some (-excerptBytes)) none

/-- The count that the marker writes. -/
def omittedCount (raw : Bytes) (excerptBytes : Nat) : Int :=
  raw.length - (excerptHead raw excerptBytes).length - (excerptTail raw excerptBytes).length

def excerptMarker (raw : Bytes) (excerptBytes : Nat) : PyStr :=
  py "\n... [" ++ PyStr.ofInt (omittedCount raw excerptBytes) ++
    py " bytes omitted; byte-exact original in evidence store] ...\n"

/-- The bytes of an excerpt, which are then decoded. -/
def excerptBody (raw : Bytes) (excerptBytes : Nat) : Bytes :=
  excerptHead raw excerptBytes ++ (excerptMarker raw excerptBytes).flatMap PyStr.utf8Bytes ++
    excerptTail raw excerptBytes

theorem excerpt_eq (raw : Bytes) (excerptBytes : Nat) :
    excerpt raw excerptBytes = Utf8.decodeReplace (excerptBody raw excerptBytes) := by
  simp only [excerpt, excerptBody, excerptMarker, omittedCount, excerptHead, excerptTail,
    slice_upTo, slice_fromEnd]

theorem length_excerptHead (raw : Bytes) (excerptBytes : Nat) :
    (excerptHead raw excerptBytes).length = min excerptBytes raw.length := by
  rw [excerptHead, slice_upTo, List.length_take]

/-- A tail of no bytes is the whole text. -/
theorem length_excerptTail (raw : Bytes) (excerptBytes : Nat) :
    (excerptTail raw excerptBytes).length =
      if excerptBytes = 0 then raw.length else min excerptBytes raw.length := by
  rw [excerptTail, slice_fromEnd]
  split
  · rfl
  · rw [List.length_drop]
    omega

def headPositions (raw : Bytes) (excerptBytes : Nat) : Finset Nat :=
  slicePositions raw.length none (some excerptBytes)

def tailPositions (raw : Bytes) (excerptBytes : Nat) : Finset Nat :=
  slicePositions raw.length (some (-excerptBytes)) none

/-- The head and the tail share no position of the text, neither is longer than asked for,
and the count of the marker is that of the positions in neither. -/
structure AccountsForBytes (raw : Bytes) (excerptBytes : Nat) : Prop where
  disjoint : Disjoint (headPositions raw excerptBytes) (tailPositions raw excerptBytes)
  head : (excerptHead raw excerptBytes).length ≤ excerptBytes
  tail : (excerptTail raw excerptBytes).length ≤ excerptBytes
  nonneg : 0 ≤ omittedCount raw excerptBytes
  omitted : omittedCount raw excerptBytes = (Finset.range raw.length \
    (headPositions raw excerptBytes ∪ tailPositions raw excerptBytes)).card
  bounded : (excerptBody raw excerptBytes).length ≤ 2 * excerptBytes +
    ((excerptMarker raw excerptBytes).flatMap PyStr.utf8Bytes).length

theorem omittedCount_iff (raw : Bytes) (excerptBytes : Nat) :
    omittedCount raw excerptBytes = (Finset.range raw.length \
        (headPositions raw excerptBytes ∪ tailPositions raw excerptBytes)).card ↔
      Disjoint (headPositions raw excerptBytes) (tailPositions raw excerptBytes) := by
  rw [omittedCount, excerptHead, excerptTail, length_slice, length_slice]
  exact card_outside_iff (slicePositions_subset _ _ _) (slicePositions_subset _ _ _)

theorem disjoint_of_twice_le {raw : Bytes} {excerptBytes : Nat} (hpos : 0 < excerptBytes)
    (h : 2 * excerptBytes ≤ raw.length) :
    Disjoint (headPositions raw excerptBytes) (tailPositions raw excerptBytes) := by
  rw [headPositions, tailPositions, slicePositions, slicePositions, Finset.disjoint_left]
  intro i hhead htail
  simp only [Option.map_some, Option.getD_some, sliceIndex_natCast, Finset.mem_Ico] at hhead
  simp only [Option.map_some, Option.getD_some, sliceIndex_neg _ hpos, Finset.mem_Ico] at htail
  omega

theorem accountsForBytes_iff {raw : Bytes} {excerptBytes : Nat} (hraw : 0 < raw.length) :
    AccountsForBytes raw excerptBytes ↔ 0 < excerptBytes ∧ 2 * excerptBytes ≤ raw.length := by
  have hhead := length_excerptHead raw excerptBytes
  have htail := length_excerptTail raw excerptBytes
  constructor
  · intro h
    have hpos : 0 < excerptBytes := by
      by_contra hzero
      have htext := h.tail
      rw [htail, if_pos (by omega)] at htext
      omega
    have hcount := h.nonneg
    rw [omittedCount, hhead, htail, if_neg (by omega)] at hcount
    exact ⟨hpos, by omega⟩
  · rintro ⟨hpos, htwice⟩
    rw [if_neg (by omega)] at htail
    have hdisjoint := disjoint_of_twice_le hpos htwice
    refine ⟨hdisjoint, by omega, by omega, ?_, (omittedCount_iff raw excerptBytes).mpr hdisjoint,
      ?_⟩
    · rw [omittedCount]
      omega
    · rw [excerptBody, List.length_append, List.length_append]
      omega

/-- An excerpt accounts for every byte exactly when at least one byte is asked for at
either end and the text has room for both ends. -/
theorem excerpt_accounts_iff (rt : Runtime) {text : PyStr} {maxBytes : Int} {excerptBytes : Nat}
    {raw : Bytes} {compression : CompressionResult} (hmax : 0 ≤ maxBytes)
    (hraw : PyStr.encodeUtf8 text = some raw)
    (h : compressForContext rt text .untrusted maxBytes excerptBytes = .ok compression)
    (happlied : compression.applied = true) :
    compression.contextText = Utf8.decodeReplace (excerptBody raw excerptBytes) ∧
      (AccountsForBytes raw excerptBytes ↔
        0 < excerptBytes ∧ 2 * excerptBytes ≤ raw.length) := by
  simp only [compressForContext, hraw] at h
  split at h
  · rw [← Except.ok.inj h] at happlied
    cases happlied
  · rename_i hlarge
    rw [not_or, not_not, Int.not_le] at hlarge
    rw [← Except.ok.inj h]
    exact ⟨excerpt_eq raw excerptBytes, accountsForBytes_iff (by omega)⟩

theorem excerpt_accounts_sample : ∃ compression,
    compressForContext Runtime.ascii (py "abcdef") .untrusted 4 2 = .ok compression ∧
      compression.contextText =
        Utf8.decodeReplace (excerptBody [97, 98, 99, 100, 101, 102] 2) ∧
      AccountsForBytes [97, 98, 99, 100, 101, 102] 2 := by
  have hmax : (0 : Int) ≤ 4 := by decide
  have hraw : PyStr.encodeUtf8 (py "abcdef") = some [97, 98, 99, 100, 101, 102] := by decide
  have hresult : ∃ compression,
      compressForContext Runtime.ascii (py "abcdef") .untrusted 4 2 = .ok compression ∧
        compression.applied = true := ⟨_, rfl, rfl⟩
  obtain ⟨compression, h, happlied⟩ := hresult
  obtain ⟨htext, hiff⟩ := excerpt_accounts_iff Runtime.ascii hmax hraw h happlied
  exact ⟨compression, h, htext, hiff.mpr (by decide)⟩

/-- The marker of this excerpt says that two bytes less than none are omitted. -/
theorem excerpt_repeats : ¬ ∀ (text : PyStr) (maxBytes : Int) (excerptBytes : Nat) (raw : Bytes)
    (compression : CompressionResult), 0 ≤ maxBytes → PyStr.encodeUtf8 text = some raw →
      compressForContext Runtime.ascii text .untrusted maxBytes excerptBytes = .ok compression →
      compression.applied = true → AccountsForBytes raw excerptBytes := by
  intro h
  have hsample := h (py "abcdef") 4 4 [97, 98, 99, 100, 101, 102] _ (by decide) (by decide) rfl rfl
  exact absurd hsample.nonneg (by decide)

end SecureSdlc.Evidence

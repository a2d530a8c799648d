import SecureSdlc.Core.JsonTokens

/-!
Decimal numerals with a least width, as the format `04d` writes them. Numbers that need
more digits get more.
-/

namespace SecureSdlc.Core.PyStr

def zeroPadded (width n : Nat) : PyStr := (ofNat n).leftpad width (cp '0')

theorem length_ofNat_le_iff {n k : Nat} (hk : 0 < k) : (ofNat n).length ≤ k ↔ n < 10 ^ k := by
  rw [ofNat, List.length_map]
  exact Nat.length_toDigits_le_iff (by decide) hk

theorem length_zeroPadded_iff {width n : Nat} (hwidth : 0 < width) :
    (zeroPadded width n).length = width ↔ n < 10 ^ width := by
  rw [zeroPadded, List.length_leftpad, ← length_ofNat_le_iff hwidth]
  omega

theorem isDigit_zeroPadded {width n : Nat} :
    ∀ c ∈ zeroPadded width n, JsonText.isDigit c = true := by
  intro c hc
  rw [zeroPadded, List.leftpad] at hc
  rcases List.mem_append.mp hc with hzero | hdigit
  · rw [List.eq_of_mem_replicate hzero]
    rfl
  · exact JsonText.isDigit_of_mem_ofNat hdigit

end SecureSdlc.Core.PyStr

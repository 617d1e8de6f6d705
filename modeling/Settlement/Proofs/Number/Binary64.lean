import Mathlib
import Settlement.Number.Binary64

namespace Settlement.Binary64

theorem roundDiv_mul (a : ℕ) {b : ℕ} (hb : 0 < b) : roundDiv (a * b) b = a := by
  have hdiv : a * b / b = a := Nat.mul_div_cancel a hb
  simp only [roundDiv, hdiv, Nat.mul_mod_left]
  rw [if_neg (by omega)]

theorem scaled_two_pow (k n : ℕ) :
    (0 ≤ (k : ℤ) - n → 2 ^ k = 2 ^ n * 2 ^ ((k : ℤ) - n).toNat) ∧
      (¬0 ≤ (k : ℤ) - n → 2 ^ k * 2 ^ (-((k : ℤ) - n)).toNat = 2 ^ n) := by
  refine ⟨fun h => ?_, fun h => ?_⟩
  · rw [← pow_add]
    congr 1
    omega
  · rw [← pow_add]
    congr 1
    omega

theorem roundAt_two_pow (k n : ℕ) : roundAt (2 ^ k) 1 (k - n) = 2 ^ n := by
  obtain ⟨hlarge, hsmall⟩ := scaled_two_pow k n
  unfold roundAt
  split
  · rename_i h
    rw [hlarge h, one_mul]
    exact roundDiv_mul _ (Nat.two_pow_pos _)
  · rename_i h
    have := hsmall h
    change roundDiv (2 ^ k * 2 ^ (-((k : ℤ) - n)).toNat) 1 = _
    rw [this]
    simpa using roundDiv_mul (2 ^ n) Nat.one_pos

theorem exponentFor_two_pow (k : ℕ) : exponentFor (2 ^ k) 1 = k - (52 : ℕ) := by
  obtain ⟨hlarge, hsmall⟩ := scaled_two_pow k 53
  have hlog : ((2 ^ k).log2 : ℤ) - (1 : ℕ).log2 - 53 = (k : ℤ) - (53 : ℕ) := by
    rw [Nat.log2_two_pow, show (1 : ℕ).log2 = 0 by decide]
    simp
  have hbelow : (if 0 ≤ (k : ℤ) - (53 : ℕ) then 2 ^ k / (1 * Nat.pow 2 ((k : ℤ) - (53 : ℕ)).toNat)
      else 2 ^ k * Nat.pow 2 (-((k : ℤ) - (53 : ℕ))).toNat / 1) = 2 ^ 53 := by
    split
    · rename_i h
      rw [hlarge h, one_mul]
      exact Nat.mul_div_cancel _ (Nat.two_pow_pos _)
    · rename_i h
      rw [Nat.div_one]
      exact hsmall h
  have hfull : ¬2 ^ 53 < Nat.pow 2 53 := by decide
  rw [exponentFor, hlog]
  simp only [hbelow, hfull, ↓reduceIte]
  omega

theorem ofInt?_two_pow (k : ℕ) :
    ofInt? (Nat.pow 2 k) = if k < 1024 then some (.finite false (2 ^ 52) (k - 52)) else none := by
  have hpos : 0 < 2 ^ k := Nat.two_pow_pos k
  have hsign : decide (((2 ^ k : ℕ) : ℤ) < 0) = false := by simp
  have hofInt : ofInt (Nat.pow 2 k) =
      if (k : ℤ) - 52 > 971 then .infinity false else .finite false (2 ^ 52) (k - 52) := by
    change ofInt ((2 ^ k : ℕ) : ℤ) = _
    rw [ofInt, hsign, Int.natAbs_natCast, ofRatio, if_neg hpos.ne']
    have hkept : ¬2 ^ 52 = Nat.pow 2 53 := by decide
    simp only [exponentFor_two_pow, roundAt_two_pow, hkept, ↓reduceIte]
    rfl
  rw [ofInt?, hofInt]
  split_ifs <;> first | rfl | omega

end Settlement.Binary64

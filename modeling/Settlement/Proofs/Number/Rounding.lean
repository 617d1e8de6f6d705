import Mathlib
import Settlement.Number.Decimal

/-!
Decimal numbers as rational numbers, and what becomes of them where the number of digits is limited.
-/

namespace Settlement

def NearestEven (q : ℚ) (m : ℕ) : Prop :=
  |q - m| ≤ 1 / 2 ∧ (|q - m| = 1 / 2 → Even m)

namespace NearestEven

variable {q : ℚ} {m n : ℕ}

theorem natCast (n : ℕ) : NearestEven n n := by
  refine ⟨by norm_num, ?_⟩
  norm_num

theorem le_of_le (hm : NearestEven q m) (h : q ≤ n) : m ≤ n := by
  obtain ⟨hlow, -⟩ := abs_le.mp hm.1
  have hlt : (m : ℚ) < (n + 1 : ℕ) := by
    push_cast
    linarith
  exact Nat.lt_succ_iff.mp (Nat.cast_lt.mp hlt)

theorem le_of_ge (hm : NearestEven q m) (h : n ≤ q) : n ≤ m := by
  obtain ⟨-, hhigh⟩ := abs_le.mp hm.1
  have hlt : (n : ℚ) < (m + 1 : ℕ) := by
    push_cast
    linarith
  exact Nat.lt_succ_iff.mp (Nat.cast_lt.mp hlt)

theorem not_lt (hm : NearestEven q m) (hn : NearestEven q n) : ¬m < n := by
  intro hlt
  obtain ⟨-, hlow⟩ := abs_le.mp hm.1
  obtain ⟨hhigh, -⟩ := abs_le.mp hn.1
  have hsucc : (m + 1 : ℚ) ≤ n := by exact_mod_cast hlt
  -- two numbers are as near only if the quotient is in the middle, and then one of them is odd
  have hmiddle : q - m = 1 / 2 := by linarith
  have hmiddle' : q - n = -(1 / 2) := by linarith
  obtain rfl : n = m + 1 := by
    have : (n : ℚ) = (m + 1 : ℕ) := by
      push_cast
      linarith
    exact_mod_cast this
  have heven : Even m := hm.2 (by rw [hmiddle]; norm_num)
  have heven' : Even (m + 1) := hn.2 (by rw [hmiddle']; norm_num)
  exact (Nat.even_add_one.mp heven') heven

theorem unique (hm : NearestEven q m) (hn : NearestEven q n) : m = n :=
  le_antisymm (Nat.le_of_not_lt (hn.not_lt hm)) (Nat.le_of_not_lt (hm.not_lt hn))

theorem zero_of_lt (h0 : 0 ≤ q) (h : q < 1 / 2) : NearestEven q 0 := by
  refine ⟨?_, fun _ => Even.zero⟩
  rw [Nat.cast_zero, sub_zero, abs_of_nonneg h0]
  exact h.le

end NearestEven

theorem Binary64.nearestEven_roundDiv (num : ℕ) {den : ℕ} (hden : 0 < den) :
    NearestEven (num / den) (roundDiv num den) := by
  have hpos : (0 : ℚ) < den := Nat.cast_pos.mpr hden
  have hsplit : (num : ℚ) / den = (num / den : ℕ) + (num % den : ℕ) / (den : ℚ) := by
    rw [div_eq_iff hpos.ne', add_mul, div_mul_cancel₀ _ hpos.ne']
    exact_mod_cast (Nat.div_add_mod' num den).symm
  have hrest : ((num % den : ℕ) : ℚ) / den < 1 := by
    rw [div_lt_one hpos]
    exact_mod_cast Nat.mod_lt num hden
  have hnonneg : (0 : ℚ) ≤ ((num % den : ℕ) : ℚ) / den := by positivity
  rw [hsplit]
  unfold roundDiv
  dsimp only
  split
  · rename_i hup
    have hhalf : (1 : ℚ) / 2 ≤ ((num % den : ℕ) : ℚ) / den := by
      rw [div_le_div_iff₀ two_pos hpos]
      have : den ≤ 2 * (num % den) := by omega
      have : (den : ℚ) ≤ 2 * (num % den : ℕ) := by exact_mod_cast this
      linarith
    have hdist : |((num / den : ℕ) : ℚ) + (num % den : ℕ) / (den : ℚ) - ((num / den + 1 : ℕ) : ℚ)| =
        1 - ((num % den : ℕ) : ℚ) / den := by
      push_cast
      rw [abs_of_nonpos (by linarith)]
      ring
    refine ⟨by rw [hdist]; linarith, fun htie => ?_⟩
    rw [hdist] at htie
    have hmiddle : ((num % den : ℕ) : ℚ) / den = 1 / 2 := by linarith
    rw [div_eq_div_iff hpos.ne' two_ne_zero] at hmiddle
    have : (num % den) * 2 = 1 * den := by exact_mod_cast hmiddle
    rw [Nat.even_add_one, Nat.not_even_iff]
    omega
  · rename_i hdown
    have hhalf : ((num % den : ℕ) : ℚ) / den ≤ 1 / 2 := by
      rw [div_le_div_iff₀ hpos two_pos]
      have : 2 * (num % den) ≤ den := by omega
      have : (2 * (num % den : ℕ) : ℚ) ≤ den := by exact_mod_cast this
      linarith
    have hdist : |((num / den : ℕ) : ℚ) + (num % den : ℕ) / (den : ℚ) - ((num / den : ℕ) : ℚ)| =
        ((num % den : ℕ) : ℚ) / den := by
      rw [add_sub_cancel_left, abs_of_nonneg hnonneg]
    refine ⟨by rwa [hdist], fun htie => ?_⟩
    rw [hdist, div_eq_div_iff hpos.ne' two_ne_zero] at htie
    have : (num % den) * 2 = 1 * den := by exact_mod_cast htie
    rw [Nat.even_iff]
    omega

theorem exists_nearestEven {q : ℚ} (hq : 0 ≤ q) : ∃ m, NearestEven q m := by
  have hnearest := Binary64.nearestEven_roundDiv q.num.toNat q.den_pos
  rw [← Int.cast_natCast (R := ℚ) q.num.toNat, Int.toNat_of_nonneg (Rat.num_nonneg.mpr hq), Rat.num_div_den] at hnearest
  exact ⟨_, hnearest⟩

namespace Decimal

def magnitude (c : ℕ) (e : ℤ) : ℚ :=
  c * 10 ^ e

variable {c p : ℕ} {e k : ℤ} {x y : ℚ}

theorem magnitude_add (c : ℕ) (e k : ℤ) : magnitude c (e + k) = magnitude c e * 10 ^ k := by
  rw [magnitude, magnitude, zpow_add₀ (by norm_num), mul_assoc]

theorem magnitude_div (c : ℕ) (e k : ℤ) : magnitude c e / 10 ^ k = magnitude c (e - k) := by
  rw [sub_eq_add_neg, magnitude_add, zpow_neg, div_eq_mul_inv]

theorem magnitude_pos (hc : 0 < c) : 0 < magnitude c e := by
  have : (0 : ℚ) < c := Nat.cast_pos.mpr hc
  unfold magnitude
  positivity

theorem magnitude_nonneg (c : ℕ) (e : ℤ) : 0 ≤ magnitude c e := by
  unfold magnitude
  positivity

theorem magnitude_zero (e : ℤ) : magnitude 0 e = 0 := by
  rw [magnitude, Nat.cast_zero, zero_mul]

def digits (c : ℕ) : ℕ :=
  (Nat.toDigits 10 c).length

theorem leading_eq (c : ℕ) (e : ℤ) : leading c e = e + digits c - 1 :=
  rfl

theorem digits_pos (c : ℕ) : 0 < digits c :=
  List.length_pos_of_ne_nil Nat.toDigits_ne_nil

theorem digits_le_iff {n : ℕ} (hn : 0 < n) : digits c ≤ n ↔ c < 10 ^ n :=
  Nat.length_toDigits_le_iff (by decide) hn

theorem lt_pow_digits (c : ℕ) : c < 10 ^ digits c :=
  (digits_le_iff (digits_pos c)).mp le_rfl

theorem pow_digits_le (hc : 0 < c) : 10 ^ (digits c - 1) ≤ c := by
  have hdigits := digits_pos c
  by_contra h
  obtain hone | hmany := (digits c - 1).eq_zero_or_pos
  · rw [hone, pow_zero] at h
    omega
  · have := (digits_le_iff hmany).mpr (not_le.mp h)
    omega

theorem pow_leading_le (hc : 0 < c) : (10 : ℚ) ^ leading c e ≤ magnitude c e := by
  have hpow : (10 : ℚ) ^ (digits c - 1) ≤ c := by exact_mod_cast pow_digits_le hc
  have hsplit : leading c e = ((digits c - 1 : ℕ) : ℤ) + e := by
    have := digits_pos c
    rw [leading_eq]
    omega
  rw [hsplit, zpow_add₀ (by norm_num), zpow_natCast, magnitude]
  gcongr

theorem magnitude_lt (c : ℕ) (e : ℤ) : magnitude c e < 10 ^ (leading c e + 1) := by
  have hpow : (c : ℚ) < 10 ^ digits c := by exact_mod_cast lt_pow_digits c
  have hsplit : leading c e + 1 = (digits c : ℤ) + e := by
    rw [leading_eq]
    omega
  rw [hsplit, zpow_add₀ (by norm_num), zpow_natCast, magnitude]
  gcongr

theorem le_leading_iff (hc : 0 < c) : k ≤ leading c e ↔ 10 ^ k ≤ magnitude c e := by
  constructor
  · intro h
    exact (zpow_le_zpow_right₀ (by norm_num) h).trans (pow_leading_le hc)
  · intro h
    have hlt := h.trans_lt (magnitude_lt c e)
    rw [zpow_lt_zpow_iff_right₀ (by norm_num)] at hlt
    omega

theorem leading_lt_iff (hc : 0 < c) : leading c e < k ↔ magnitude c e < 10 ^ k := by
  rw [← not_le, le_leading_iff hc, not_le]

def lastPlace (p c : ℕ) (e : ℤ) : ℤ :=
  max (e + digits c - p) (1 - maxPower - p)

theorem round_cases (p c : ℕ) (e : ℤ) : (lastPlace p c e ≤ e ∧ round p c e = (c, e)) ∨
    (e < lastPlace p c e ∧ ∃ m, NearestEven (magnitude c e / 10 ^ lastPlace p c e) m ∧
      round p c e = (m, lastPlace p c e)) := by
  have hround : round p c e = if lastPlace p c e ≤ e then (c, e)
      else if lastPlace p c e - e > digits c then (0, lastPlace p c e)
      else (Binary64.roundDiv c (Nat.pow 10 (lastPlace p c e - e).toNat), lastPlace p c e) := rfl
  rw [hround]
  split
  · rename_i hkept
    exact .inl ⟨hkept, rfl⟩
  · rename_i hcut
    refine .inr ⟨not_le.mp hcut, ?_⟩
    rw [magnitude_div]
    split
    · rename_i hsmall
      refine ⟨0, .zero_of_lt (magnitude_nonneg _ _) ((magnitude_lt _ _).trans_le ?_), rfl⟩
      calc (10 : ℚ) ^ (leading c (e - lastPlace p c e) + 1) ≤ 10 ^ (-1 : ℤ) := by
            apply zpow_le_zpow_right₀ (by norm_num)
            rw [leading_eq]
            omega
        _ ≤ 1 / 2 := by norm_num
    · refine ⟨_, ?_, rfl⟩
      have hten : 0 < 10 ^ (lastPlace p c e - e).toNat := by positivity
      have hnearest := Binary64.nearestEven_roundDiv c hten
      have hpow : e - lastPlace p c e = -((lastPlace p c e - e).toNat : ℤ) := by omega
      rw [magnitude, hpow, zpow_neg, zpow_natCast, ← div_eq_mul_inv]
      exact_mod_cast hnearest

theorem magnitude_le_of_nearest {last : ℤ} {m : ℕ} (hm : NearestEven (x / 10 ^ last) m) (hle : last ≤ k)
    (hx : x ≤ 10 ^ k) : magnitude m last ≤ 10 ^ k := by
  obtain ⟨n, rfl⟩ := Int.le.dest hle
  rw [add_comm, zpow_add₀ (by norm_num), zpow_natCast] at hx ⊢
  have hbound : x / 10 ^ last ≤ (10 ^ n : ℕ) := by
    rw [div_le_iff₀ (by positivity)]
    exact_mod_cast hx
  have hm' : (m : ℚ) ≤ (10 ^ n : ℕ) := Nat.cast_le.mpr (hm.le_of_le hbound)
  push_cast at hm'
  rw [magnitude]
  gcongr

theorem magnitude_round_le (hp : 0 < p) (hk : -maxPower ≤ k) (h : magnitude c e ≤ 10 ^ k) :
    magnitude (round p c e).1 (round p c e).2 ≤ 10 ^ k := by
  obtain ⟨-, hround⟩ | ⟨hcut, m, hm, hround⟩ := round_cases p c e
  · rwa [hround]
  · rw [hround]
    dsimp only
    generalize hlast : lastPlace p c e = last at *
    have hle : last ≤ k := by
      obtain rfl | hc := c.eq_zero_or_pos
      · have hone : digits 0 = 1 := rfl
        rw [← hlast, lastPlace, hone] at hcut
        rw [← hlast, lastPlace, hone]
        omega
      · have hleading : leading c e ≤ k := by
          by_contra hlt
          have hpow := (zpow_lt_zpow_right₀ (by norm_num : (1 : ℚ) < 10) (not_le.mp hlt)).trans_le (pow_leading_le hc)
          exact absurd (hpow.trans_le h) (lt_irrefl _)
        rw [leading_eq] at hleading
        rw [← hlast, lastPlace]
        omega
    exact magnitude_le_of_nearest hm hle h

theorem leading_zero (e : ℤ) : leading 0 e = e := by
  have hone : digits 0 = 1 := rfl
  rw [leading_eq, hone]
  omega

theorem place_of_round_eq_zero (hp : 0 < p) (hc : 0 < c) (h : (round p c e).1 = 0) :
    (round p c e).2 = 1 - maxPower - p := by
  obtain ⟨-, hround⟩ | ⟨-, m, hm, hround⟩ := round_cases p c e
  · rw [hround] at h
    exact absurd h hc.ne'
  · rw [hround] at h ⊢
    obtain rfl : m = 0 := h
    have hhalf := (abs_le.mp hm.1).2
    rw [Nat.cast_zero, sub_zero, magnitude_div] at hhalf
    have hbelow : leading c (e - lastPlace p c e) < 0 := by
      rw [leading_lt_iff hc, zpow_zero]
      linarith
    rw [leading_eq] at hbelow
    change lastPlace p c e = _
    unfold lastPlace at hbelow ⊢
    omega

theorem round?_eq (p c : ℕ) (e : ℤ) : round? p c e =
    if leading (round p c e).1 (round p c e).2 > maxPower then none else some (round p c e) :=
  rfl

theorem round?_of_le (hp : 0 < p) (h : magnitude c e ≤ 10 ^ maxPower) (hzero : c = 0 → e ≤ maxPower) :
    round? p c e = some (round p c e) := by
  rw [round?_eq, if_neg]
  rw [gt_iff_lt, not_lt]
  obtain hempty | hdigit := (round p c e).1.eq_zero_or_pos
  · rw [hempty, leading_zero]
    obtain rfl | hc := c.eq_zero_or_pos
    · have hmax : maxPower = 999999 := rfl
      have hone : digits 0 = 1 := rfl
      have he := hzero rfl
      obtain ⟨-, hround⟩ | ⟨-, m, -, hround⟩ := round_cases p 0 e
      · rwa [hround]
      · rw [hround, lastPlace, hone]
        omega
    · have hmax : maxPower = 999999 := rfl
      rw [place_of_round_eq_zero hp hc hempty]
      omega
  · rw [← Int.lt_add_one_iff, leading_lt_iff hdigit]
    exact (magnitude_round_le hp (by decide) h).trans_lt (zpow_lt_zpow_right₀ (by norm_num) (by omega))

/-- The number with this many digits that is next to `x`; between two of them, the one with an even digit. -/
def Rounds (p : ℕ) (x y : ℚ) : Prop :=
  ∃ k : ℤ, 10 ^ (k + p - 1) ≤ x ∧ x < 10 ^ (k + p) ∧ ∃ m, NearestEven (x / 10 ^ k) m ∧ y = magnitude m k

namespace Rounds

theorem unique {y' : ℚ} (h : Rounds p x y) (h' : Rounds p x y') : y = y' := by
  obtain ⟨k, hlow, hhigh, m, hm, rfl⟩ := h
  obtain ⟨k', hlow', hhigh', m', hm', rfl⟩ := h'
  have hle := hlow.trans_lt hhigh'
  have hle' := hlow'.trans_lt hhigh
  rw [zpow_lt_zpow_iff_right₀ (by norm_num)] at hle hle'
  obtain rfl : k = k' := by omega
  rw [hm.unique hm']

theorem le_pow (hp : 0 < p) (h : Rounds p x y) (hx : x ≤ 10 ^ k) : y ≤ 10 ^ k := by
  obtain ⟨last, hlow, -, m, hm, rfl⟩ := h
  have hle : last ≤ k := by
    have := hlow.trans hx
    rw [zpow_le_zpow_iff_right₀ (by norm_num)] at this
    omega
  exact magnitude_le_of_nearest hm hle hx

theorem pos (hp : 0 < p) (h : Rounds p x y) : 0 < y := by
  obtain ⟨k, hlow, -, m, hm, rfl⟩ := h
  have hone : ((1 : ℕ) : ℚ) ≤ x / 10 ^ k := by
    rw [Nat.cast_one, le_div_iff₀ (by positivity), one_mul]
    exact (zpow_le_zpow_right₀ (by norm_num) (by omega)).trans hlow
  exact magnitude_pos (hm.le_of_ge hone)

theorem near (h : Rounds p x y) (hx : x < 10 ^ k) : |y - x| ≤ 10 ^ (k - p) := by
  obtain ⟨last, hlow, -, m, hm, rfl⟩ := h
  have hlast : last ≤ k - p := by
    have := hlow.trans_lt hx
    rw [zpow_lt_zpow_iff_right₀ (by norm_num)] at this
    omega
  have hten : (0 : ℚ) < 10 ^ last := by positivity
  have hdist : magnitude m last - x = -((x / 10 ^ last - m) * 10 ^ last) := by
    rw [magnitude, sub_mul, div_mul_cancel₀ _ hten.ne', neg_sub]
  rw [hdist, abs_neg, abs_mul, abs_of_pos hten]
  calc |x / 10 ^ last - m| * 10 ^ last ≤ 1 / 2 * 10 ^ last := by
        gcongr
        exact hm.1
    _ ≤ 10 ^ last := by linarith
    _ ≤ 10 ^ (k - p) := zpow_le_zpow_right₀ (by norm_num) hlast

theorem between {n n' : ℕ} (h : Rounds p x y) (hn : n ≤ x) (hn' : x ≤ n') (hshort : n' < 10 ^ p) : n ≤ y ∧ y ≤ n' := by
  obtain ⟨last, hlow, -, m, hm, rfl⟩ := h
  have hlast : last ≤ 0 := by
    have hbound : (n' : ℚ) < 10 ^ (p : ℤ) := by
      rw [zpow_natCast]
      exact_mod_cast hshort
    have := hlow.trans_lt (hn'.trans_lt hbound)
    rw [zpow_lt_zpow_iff_right₀ (by norm_num)] at this
    omega
  obtain ⟨i, rfl⟩ : ∃ i : ℕ, last = -(i : ℤ) := ⟨last.natAbs, by omega⟩
  have hten : (0 : ℚ) < 10 ^ i := by positivity
  rw [zpow_neg, zpow_natCast, div_inv_eq_mul] at hm
  rw [magnitude, zpow_neg, zpow_natCast, ← div_eq_mul_inv, le_div_iff₀ hten, div_le_iff₀ hten]
  refine ⟨?_, ?_⟩
  · have hle : ((n * 10 ^ i : ℕ) : ℚ) ≤ x * 10 ^ i := by
      push_cast
      gcongr
    exact_mod_cast hm.le_of_ge hle
  · have hle : x * 10 ^ i ≤ (n' * 10 ^ i : ℕ) := by
      push_cast
      gcongr
    exact_mod_cast hm.le_of_le hle

end Rounds

theorem rounds_self (hc : 0 < c) (h : leading c e + 1 - p ≤ e) : Rounds p (magnitude c e) (magnitude c e) := by
  obtain ⟨n, hn⟩ := Int.le.dest h
  have hsplit : magnitude c e = (c * 10 ^ n : ℕ) * 10 ^ (leading c e + 1 - p) := by
    nth_rewrite 1 [← hn]
    rw [add_comm, magnitude, zpow_add₀ (by norm_num), zpow_natCast, ← mul_assoc]
    push_cast
    rfl
  refine ⟨leading c e + 1 - p, ?_, ?_, c * 10 ^ n, ?_, hsplit⟩
  · exact (zpow_le_zpow_right₀ (by norm_num) (by omega)).trans (pow_leading_le hc)
  · exact (magnitude_lt c e).trans_le (zpow_le_zpow_right₀ (by norm_num) (by omega))
  · have hquotient : magnitude c e / 10 ^ (leading c e + 1 - p) = (c * 10 ^ n : ℕ) := by
      rw [div_eq_iff (by positivity)]
      exact hsplit
    rw [hquotient]
    exact .natCast _

theorem rounds_of_lt (hp : 0 < p) (hc : 0 < c) (h : c < 10 ^ p) : Rounds p (magnitude c e) (magnitude c e) := by
  have hdigits := (digits_le_iff hp).mpr h
  apply rounds_self hc
  rw [leading_eq]
  omega

theorem rounds_nearest {m : ℕ} (hc : 0 < c) (hk : k + p = leading c e + 1)
    (hm : NearestEven (magnitude c e / 10 ^ k) m) : Rounds p (magnitude c e) (magnitude m k) := by
  refine ⟨k, ?_, ?_, m, hm, rfl⟩
  · rw [hk, add_sub_cancel_right]
    exact pow_leading_le hc
  · rw [hk]
    exact magnitude_lt c e

theorem exists_rounds (p : ℕ) (hc : 0 < c) : ∃ y, Rounds p (magnitude c e) y := by
  obtain ⟨m, hm⟩ := exists_nearestEven (q := magnitude c e / 10 ^ (leading c e + 1 - p))
    (div_nonneg (magnitude_nonneg c e) (by positivity))
  exact ⟨_, rounds_nearest hc (by omega) hm⟩

theorem rounds_round (hc : 0 < c) (h : -maxPower ≤ leading c e) :
    Rounds p (magnitude c e) (magnitude (round p c e).1 (round p c e).2) := by
  have hlast : lastPlace p c e + p = leading c e + 1 := by
    rw [leading_eq] at h ⊢
    rw [lastPlace]
    omega
  obtain ⟨hkept, hround⟩ | ⟨-, m, hm, hround⟩ := round_cases p c e
  · rw [hround]
    exact rounds_self hc (by omega)
  · rw [hround]
    exact rounds_nearest hc hlast hm

theorem round?_eq_none (hp : 0 < p) (hc : 0 < c) (h : -maxPower ≤ leading c e) :
    round? p c e = none ↔ 10 ^ (maxPower + 1) ≤ magnitude (round p c e).1 (round p c e).2 := by
  have hpos : 0 < (round p c e).1 := by
    by_contra hzero
    have := (rounds_round (p := p) hc h).pos hp
    rw [Nat.eq_zero_of_not_pos hzero, magnitude_zero] at this
    exact absurd this (lt_irrefl _)
  rw [round?_eq, ← le_leading_iff hpos]
  simp only [ite_eq_left_iff, reduceCtorEq, imp_false, not_not, gt_iff_lt, Int.add_one_le_iff]

end Decimal

end Settlement

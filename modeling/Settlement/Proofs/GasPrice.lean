import Mathlib
import Settlement.GasPrice
import Settlement.Proofs.Number.Numeral
import Settlement.Proofs.Number.Rounding

namespace Settlement.GasPrice

open Decimal

variable {text : String} {negative : Bool} {c m w : ℕ} {e k j : ℤ} {y : ℚ}

theorem wholePart_eq (c : ℕ) (e : ℤ) : wholePart c e = ⌊magnitude c e⌋₊ := by
  unfold wholePart
  split
  · rename_i he
    obtain ⟨n, rfl⟩ := Int.eq_ofNat_of_zero_le he
    have hcast : magnitude c n = (c * 10 ^ n : ℕ) := by
      rw [magnitude, zpow_natCast]
      push_cast
      rfl
    rw [hcast, Nat.floor_natCast]
    rfl
  · rename_i he
    obtain ⟨n, hn⟩ := Int.eq_ofNat_of_zero_le (show 0 ≤ -e by omega)
    obtain rfl : e = -(n : ℤ) := by omega
    have hcast : magnitude c (-(n : ℤ)) = (c : ℚ) / (10 ^ n : ℕ) := by
      rw [magnitude, zpow_neg, zpow_natCast, div_eq_mul_inv]
      push_cast
      rfl
    rw [hcast, Nat.floor_div_natCast, Nat.floor_natCast, neg_neg]
    rfl

theorem exceedsMax_iff (c : ℕ) (e : ℤ) : exceedsMax c e = true ↔ (maxWei : ℚ) < magnitude c e := by
  rw [exceedsMax, decide_eq_true_iff, gt_iff_lt]
  have hsplit : magnitude c e = c * 10 ^ e.toNat / 10 ^ (-e).toNat := by
    rw [magnitude, mul_div_assoc, ← zpow_natCast, ← zpow_natCast, ← zpow_sub₀ (by norm_num)]
    congr 2
    omega
  rw [hsplit, lt_div_iff₀ (by positivity)]
  exact_mod_cast Iff.rfl

theorem maxWei_lt : (maxWei : ℚ) < 10 ^ (78 : ℤ) := by
  rw [maxWei]
  norm_num

theorem maxWei_lt_overflow : (maxWei : ℚ) < 10 ^ (maxPower + 1) :=
  maxWei_lt.trans (zpow_lt_zpow_right₀ (by norm_num) (by decide))

theorem one_le_maxWei : (1 : ℚ) ≤ maxWei := by
  exact_mod_cast (by decide : 1 ≤ maxWei)

def settle (text : String) (negative : Bool) (c : ℕ) (e : ℤ) : Except Error ℕ :=
  if c = 0 ∨ (leading c e < 0 ∧ ¬negative) then .error (.notPositive text)
  else if negative ∨ leading c e > 80 ∨ exceedsMax c e then .error (.range text)
  else if wholePart c e = 0 then .error (.notPositive text)
  else .ok (wholePart c e)

theorem parse_of_finite (hparse : Decimal.parse text = .ok (.finite negative c e)) :
    parse text = if c = 0 then .error (.notPositive text)
      else match toWei? negative c e with
        | none => .error .overflow
        | some (c', e') => settle text negative c' e' := by
  unfold parse
  rw [hparse]
  dsimp only
  split
  · rfl
  · cases toWei? negative c e with
    | none => rfl
    | some wei =>
      obtain ⟨c', e'⟩ := wei
      dsimp only [settle]
      split_ifs <;> rfl

theorem finite_or_reported (text : String) : (∃ negative c e, Decimal.parse text = .ok (.finite negative c e)) ∨
    ∃ er, parse text = .error er ∧ er ≠ .overflow := by
  unfold parse
  cases hparse : Decimal.parse text with
  | error er =>
    cases er with
    | malformed => exact .inr ⟨_, rfl, nofun⟩
    | range => exact .inr ⟨_, rfl, nofun⟩
  | ok d =>
    cases d with
    | finite negative c e => exact .inl ⟨negative, c, e, rfl⟩
    | infinity => exact .inr ⟨_, rfl, nofun⟩
    | nan => exact .inr ⟨_, rfl, nofun⟩

theorem settle_positive (text : String) (c : ℕ) (e : ℤ) :
    settle text false c e = if magnitude c e < 1 then .error (.notPositive text)
      else if magnitude c e ≤ maxWei then .ok ⌊magnitude c e⌋₊
      else .error (.range text) := by
  have hfloor : wholePart c e = 0 ↔ magnitude c e < 1 := by rw [wholePart_eq, Nat.floor_eq_zero]
  unfold settle
  obtain rfl | hc := c.eq_zero_or_pos
  · rw [if_pos (.inl rfl), magnitude_zero, if_pos zero_lt_one]
  · have hsmall : leading c e < 0 ↔ magnitude c e < 1 := by rw [leading_lt_iff hc, zpow_zero]
    have hlarge : leading c e > 80 → ¬magnitude c e ≤ maxWei := by
      intro h hle
      exact absurd ((le_leading_iff hc).mp (show 78 ≤ leading c e by omega)) (not_le.mpr (hle.trans_lt maxWei_lt))
    by_cases hlow : magnitude c e < 1
    · rw [if_pos (.inr ⟨hsmall.mpr hlow, by decide⟩), if_pos hlow]
    · rw [if_neg (by simp [hc.ne', hsmall, hlow]), if_neg hlow]
      by_cases hhigh : magnitude c e ≤ maxWei
      · rw [if_neg, if_neg (hfloor.not.mpr hlow), if_pos hhigh, wholePart_eq]
        simp only [Bool.false_eq_true, false_or, not_or, exceedsMax_iff, not_lt, hhigh, and_true]
        exact not_lt.mp fun h => hlarge h hhigh
      · rw [if_pos (.inr (.inr ((exceedsMax_iff c e).mpr (not_le.mp hhigh)))), if_neg hhigh]

theorem settle_ne_overflow (text : String) (negative : Bool) (c : ℕ) (e : ℤ) :
    settle text negative c e ≠ .error .overflow := by
  unfold settle
  split_ifs <;> nofun

theorem settle_ne_ok (text : String) (c : ℕ) (e : ℤ) (w : ℕ) : settle text true c e ≠ .ok w := by
  unfold settle
  split
  · nofun
  · rw [if_pos (.inl rfl)]
    nofun

theorem behindPoint?_eq (c : ℕ) (e : ℤ) : behindPoint? c e =
    if e ≤ 0 ∧ -6 ≤ leading c e then if e = 0 then none else some (-e).toNat
    else if digits c = 1 then none
    else some (digits c + 1 + digits (leading c e).natAbs) :=
  rfl

theorem behindPoint?_bounds (h : behindPoint? c e = some m) (hsmall : leading c e < 1000000) :
    0 < m ∧ leading c e + m ≤ max 0 (leading c e + 6) + digits c + 1 := by
  have hdigits := digits_pos c
  rw [behindPoint?_eq] at h
  split at h
  · rename_i hshort
    split at h
    · cases h
    · cases h
      rw [leading_eq] at *
      omega
  · split at h
    · cases h
    · cases h
      refine ⟨by omega, ?_⟩
      obtain hneg | hpos := lt_or_ge (leading c e) 0
      · have : digits (leading c e).natAbs ≤ (leading c e).natAbs :=
          (digits_le_iff (by omega)).mpr (Nat.lt_pow_self (by decide))
        omega
      · have : digits (leading c e).natAbs ≤ 6 := (digits_le_iff (by decide)).mpr (by omega)
        omega

theorem digits_le_of_behindPoint? (h : behindPoint? c e = some m) (hsmall : leading c e < 0) : digits c ≤ m := by
  rw [leading_eq] at hsmall
  rw [behindPoint?_eq] at h
  split at h
  · split at h
    · cases h
    · cases h
      omega
  · split at h
    · cases h
    · cases h
      omega

theorem toWei?_of_plain (h : negative = true ∨ leading c e < 0 → behindPoint? c e = none) :
    toWei? negative c e = round? precision c (e + 9) := by
  have hplaces : (if negative = true ∨ leading c e < 0 then behindPoint? c e else none) = none := by
    split
    · rename_i hpoint
      exact h hpoint
    · rfl
  simp only [toWei?, hplaces]

theorem toWei?_of_pointed (hpoint : negative = true ∨ leading c e < 0) (h : behindPoint? c e = some m) :
    toWei? negative c e = (round? m c (e + m)).bind fun x => round? precision x.1 (x.2 + 9 - m) := by
  simp only [toWei?, hpoint, ↓reduceIte, h]
  rfl

theorem precision_pos : 0 < precision := by
  decide

theorem toWei?_of_le (hc : 0 < c) (hpoint : negative = true ∨ leading c e < 0) (h : behindPoint? c e = some m)
    (hm : 0 < m) (hle : magnitude c (e + m) ≤ 10 ^ k) (hk : -maxPower ≤ k) (hk' : k ≤ maxPower)
    (hj : -maxPower ≤ j) (hj' : j ≤ maxPower) (hkj : k + 9 - m ≤ j) :
    ∃ c' e', toWei? negative c e = some (c', e') ∧ magnitude c' e' ≤ 10 ^ j := by
  have hten : (1 : ℚ) ≤ 10 := by norm_num
  have hfirst := magnitude_round_le hm hk hle
  have hempty := place_of_round_eq_zero hm hc (e := e + m)
  rw [toWei?_of_pointed hpoint h, round?_of_le hm (hle.trans (zpow_le_zpow_right₀ hten hk')) (fun h => absurd h hc.ne')]
  generalize round m c (e + m) = x at hfirst hempty
  obtain ⟨c', e'⟩ := x
  have hshift : magnitude c' (e' + 9 - m) ≤ 10 ^ j := by
    rw [add_sub_assoc, magnitude_add]
    calc magnitude c' e' * 10 ^ (9 - m : ℤ) ≤ 10 ^ k * 10 ^ (9 - m : ℤ) := by gcongr
      _ = 10 ^ (k + 9 - m) := by rw [← zpow_add₀ (by norm_num), add_sub_assoc]
      _ ≤ 10 ^ j := zpow_le_zpow_right₀ hten hkj
  rw [Option.bind_some, round?_of_le precision_pos (hshift.trans (zpow_le_zpow_right₀ hten hj'))]
  · exact ⟨_, _, rfl, magnitude_round_le precision_pos hj hshift⟩
  · intro hzero
    have hplace := hempty hzero
    have hmax : maxPower = 999999 := rfl
    dsimp only at hplace ⊢
    omega

/-- A number below one is so long that it is too large to be computed with once all its digits stand in front of
the point. -/
def Crowded (c : ℕ) (e : ℤ) : Prop :=
  leading c e < 0 ∧ ∃ m, behindPoint? c e = some m ∧ 10 ^ (maxPower + 1) ≤ magnitude c (e + m)

theorem toWei?_of_crowded (hc : 0 < c) (h : Crowded c e) : toWei? false c e = none := by
  obtain ⟨hbelow, m, hm, hlarge⟩ := h
  have hdigits := digits_le_of_behindPoint? hm hbelow
  have hpos : 0 < m := (digits_pos c).trans_le hdigits
  have hleading := (le_leading_iff hc).mpr hlarge
  have hmax : maxPower = 999999 := rfl
  have hnone : round? m c (e + m) = none := by
    rw [round?_eq_none hpos hc (by omega)]
    obtain ⟨-, hround⟩ | ⟨hcut, -⟩ := round_cases m c (e + m)
    · rwa [hround]
    · rw [leading_eq] at hleading
      unfold lastPlace at hcut
      omega
  rw [toWei?_of_pointed (.inr hbelow) hm, hnone]
  rfl

theorem toWei?_cases (hc : 0 < c) (h : ¬Crowded c e) : toWei? false c e = round? precision c (e + 9) ∨
    magnitude c (e + 9) ≤ 10 ^ (-1 : ℤ) ∧
      ∃ c' e', toWei? false c e = some (c', e') ∧ magnitude c' e' ≤ 10 ^ (-1 : ℤ) := by
  -- digits behind the point are brought in front of it without loss, unless nothing is left of the number in the end
  by_cases hplain : leading c e < 0 → behindPoint? c e = none
  · exact .inl (toWei?_of_plain (by simpa using hplain))
  · obtain ⟨hbelow, hsome⟩ := Classical.not_imp.mp hplain
    obtain ⟨m, hm⟩ := Option.ne_none_iff_exists'.mp hsome
    have hdigits := digits_le_of_behindPoint? hm hbelow
    have hpos : 0 < m := (digits_pos c).trans_le hdigits
    have hmax : maxPower = 999999 := rfl
    by_cases htiny : e + m < 1 - maxPower - m
    · have hle (k n : ℤ) (hn : e + n + digits c ≤ k) : magnitude c (e + n) ≤ 10 ^ k := by
        refine (magnitude_lt c (e + n)).le.trans (zpow_le_zpow_right₀ (by norm_num) ?_)
        rw [leading_eq]
        omega
      refine .inr ⟨hle _ _ (by omega), ?_⟩
      exact toWei?_of_le hc (.inr hbelow) hm hpos (hle (-maxPower) m (by omega)) le_rfl (by omega) (by omega) (by omega)
        (by omega)
    · left
      have hkept : round m c (e + m) = (c, e + m) := by
        obtain ⟨-, hround⟩ | ⟨hcut, -⟩ := round_cases m c (e + m)
        · exact hround
        · unfold lastPlace at hcut
          omega
      have hbound : magnitude c (e + m) < 10 ^ (maxPower + 1) := by
        by_contra hlarge
        exact h ⟨hbelow, m, hm, not_lt.mp hlarge⟩
      have hsome : round? m c (e + m) = some (c, e + m) := by
        rw [round?_eq, hkept, if_neg]
        rw [gt_iff_lt, not_lt, ← Int.lt_add_one_iff]
        exact (leading_lt_iff hc).mpr hbound
      rw [toWei?_of_pointed (.inr hbelow) hm, hsome, Option.bind_some]
      congr 1
      dsimp only
      omega

theorem toWei?_rounds (hc : 0 < c) (hcrowded : ¬Crowded c e) (hy : Rounds precision (magnitude c (e + 9)) y) :
    (10 ^ (maxPower + 1) ≤ y ∧ toWei? false c e = none) ∨
    (y < 10 ^ (maxPower + 1) ∧ ∃ c' e', toWei? false c e = some (c', e') ∧
      (magnitude c' e' = y ∨ (magnitude c' e' < 1 ∧ y < 1))) := by
  have htenth : (10 : ℚ) ^ (-1 : ℤ) < 1 := by norm_num
  have hmax : (1 : ℚ) ≤ 10 ^ (maxPower + 1) := one_le_zpow₀ (by norm_num) (by decide)
  have htiny {c' : ℕ} {e' : ℤ} (hx : magnitude c (e + 9) ≤ 10 ^ (-1 : ℤ)) (hle : magnitude c' e' ≤ 10 ^ (-1 : ℤ)) :
      y < 10 ^ (maxPower + 1) ∧ magnitude c' e' < 1 ∧ y < 1 := by
    have hy' := (hy.le_pow precision_pos hx).trans_lt htenth
    exact ⟨hy'.trans_le hmax, hle.trans_lt htenth, hy'⟩
  obtain hwei | ⟨hx, c', e', hwei, hle⟩ := toWei?_cases hc hcrowded
  · rw [hwei]
    obtain hsmall | hnormal := lt_or_ge (leading c (e + 9)) (-maxPower)
    · have hx : magnitude c (e + 9) ≤ 10 ^ (-1 : ℤ) := by
        refine ((leading_lt_iff hc).mp hsmall).le.trans (zpow_le_zpow_right₀ (by norm_num) (by decide))
      have hround := round?_of_le precision_pos (hx.trans (zpow_le_zpow_right₀ (by norm_num) (by decide)))
        (fun h => absurd h hc.ne')
      obtain ⟨hy', hlow⟩ := htiny hx (magnitude_round_le precision_pos (by decide) hx)
      exact .inr ⟨hy', _, _, hround, .inr hlow⟩
    · obtain rfl := hy.unique (rounds_round hc hnormal)
      have hnone := round?_eq_none precision_pos hc hnormal
      rw [round?_eq] at hnone ⊢
      split at hnone
      · rename_i hmany
        rw [if_pos hmany]
        exact .inl ⟨hnone.mp rfl, rfl⟩
      · rename_i hfew
        rw [if_neg hfew]
        exact .inr ⟨not_le.mp (hnone.not.mp nofun), _, _, rfl, .inl rfl⟩
  · obtain ⟨hy', hlow⟩ := htiny hx hle
    exact .inr ⟨hy', c', e', hwei, .inr hlow⟩

theorem parse_of_rounds (h : Denotes text false c e) (hrep : Representable c e) (hc : 0 < c) (hcrowded : ¬Crowded c e)
    (hy : Rounds precision (magnitude c (e + 9)) y) :
    parse text = if y < 1 then .error (.notPositive text)
      else if y ≤ maxWei then .ok ⌊y⌋₊
      else if y < 10 ^ (maxPower + 1) then .error (.range text)
      else .error .overflow := by
  rw [parse_of_finite (parse_eq_finite.mpr ⟨h, hrep⟩), if_neg hc.ne']
  obtain ⟨hlarge, hwei⟩ | ⟨hbounded, c', e', hwei, hsame | ⟨hlow, hlow'⟩⟩ := toWei?_rounds hc hcrowded hy
  · have hhigh : maxWei < y := maxWei_lt_overflow.trans_le hlarge
    rw [hwei, if_neg (not_lt.mpr (one_le_maxWei.trans hhigh.le)), if_neg (not_le.mpr hhigh), if_neg (not_lt.mpr hlarge)]
  · rw [hwei, if_pos hbounded, ← hsame]
    exact settle_positive text c' e'
  · rw [hwei, if_pos hlow']
    exact (settle_positive text c' e').trans (if_pos hlow)

theorem parse_of_crowded (h : Denotes text false c e) (hrep : Representable c e) (hc : 0 < c) (hcrowded : Crowded c e) :
    parse text = .error .overflow := by
  rw [parse_of_finite (parse_eq_finite.mpr ⟨h, hrep⟩), if_neg hc.ne', toWei?_of_crowded hc hcrowded]

theorem positive_of_parse (h : parse text = .ok w) : ∃ c e, Denotes text false c e ∧ Representable c e ∧ 0 < c := by
  obtain ⟨negative, c, e, hparse⟩ | ⟨er, her, -⟩ := finite_or_reported text
  · obtain ⟨hdenotes, hrep⟩ := parse_eq_finite.mp hparse
    rw [parse_of_finite hparse] at h
    split at h
    · cases h
    · rename_i hc
      cases negative with
      | false => exact ⟨c, e, hdenotes, hrep, Nat.pos_of_ne_zero hc⟩
      | true =>
        split at h
        · cases h
        · exact absurd h (settle_ne_ok _ _ _ _)
  · cases her.symm.trans h

theorem parse_eq_ok : parse text = .ok w ↔ ∃ c e y, Denotes text false c e ∧ Representable c e ∧ 0 < c ∧ ¬Crowded c e ∧
    Rounds precision (magnitude c (e + 9)) y ∧ 1 ≤ y ∧ y ≤ maxWei ∧ w = ⌊y⌋₊ := by
  constructor
  · intro h
    obtain ⟨c, e, hdenotes, hrep, hc⟩ := positive_of_parse h
    have hcrowded : ¬Crowded c e := by
      intro hcrowded
      cases (parse_of_crowded hdenotes hrep hc hcrowded).symm.trans h
    obtain ⟨y, hy⟩ := exists_rounds precision (e := e + 9) hc
    rw [parse_of_rounds hdenotes hrep hc hcrowded hy] at h
    split at h
    · cases h
    · rename_i hlow
      split at h
      · rename_i hhigh
        cases h
        exact ⟨c, e, y, hdenotes, hrep, hc, hcrowded, hy, not_lt.mp hlow, hhigh, rfl⟩
      · split at h <;> cases h
  · rintro ⟨c, e, y, hdenotes, hrep, hc, hcrowded, hy, hlow, hhigh, rfl⟩
    rw [parse_of_rounds hdenotes hrep hc hcrowded hy, if_neg (not_lt.mpr hlow), if_pos hhigh]

theorem le_maxWei_of_parse (h : parse text = .ok w) : w ≤ maxWei := by
  obtain ⟨c, e, y, -, -, -, -, -, -, hhigh, rfl⟩ := parse_eq_ok.mp h
  exact Nat.floor_le_of_le hhigh

theorem long_of_crowded (h : Crowded c e) (hc : 0 < c) : 10 ^ precision ≤ c := by
  obtain ⟨hbelow, m, hm, hlarge⟩ := h
  have hleading := (le_leading_iff hc).mpr hlarge
  obtain ⟨-, hbound⟩ := behindPoint?_bounds hm (by omega)
  by_contra hshort
  have hdigits : digits c ≤ precision := (digits_le_iff precision_pos).mpr (not_le.mp hshort)
  have hmax : maxPower = 999999 := rfl
  have hprec : precision = 999 := rfl
  rw [leading_eq] at hleading hbelow hbound
  omega

theorem long_of_toWei?_eq_none (hc : 0 < c) (h : toWei? negative c e = none) :
    400000 ≤ digits c ∨ 400000 ≤ leading c e := by
  by_contra hshort
  obtain ⟨hdigits, hleading⟩ := not_or.mp hshort
  have hmax : maxPower = 999999 := rfl
  have hle (k n : ℤ) (hn : leading c e + n + 1 ≤ k) : magnitude c (e + n) ≤ 10 ^ k := by
    refine (magnitude_lt c (e + n)).le.trans (zpow_le_zpow_right₀ (by norm_num) ?_)
    rw [leading_eq] at hn ⊢
    omega
  by_cases hplain : negative = true ∨ leading c e < 0 → behindPoint? c e = none
  · rw [toWei?_of_plain hplain, round?_of_le precision_pos (hle _ _ (by omega)) (fun h => absurd h hc.ne')] at h
    cases h
  · obtain ⟨hpoint, hsome⟩ := Classical.not_imp.mp hplain
    obtain ⟨m, hm⟩ := Option.ne_none_iff_exists'.mp hsome
    obtain ⟨hpos, hbound⟩ := behindPoint?_bounds hm (by omega)
    obtain ⟨c', e', hwei, -⟩ := toWei?_of_le (j := maxPower) hc hpoint hm hpos
      (hle (max (leading c e + m + 1) (-maxPower)) m (by omega)) (by omega) (by omega) (by omega) (by omega) (by omega)
    cases hwei.symm.trans h

theorem long_of_overflow (h : parse text = .error .overflow) :
    ∃ negative c e, Denotes text negative c e ∧ (400000 ≤ digits c ∨ 400000 ≤ leading c e) := by
  obtain ⟨negative, c, e, hparse⟩ | ⟨er, her, hreported⟩ := finite_or_reported text
  · refine ⟨negative, c, e, (parse_eq_finite.mp hparse).1, ?_⟩
    rw [parse_of_finite hparse] at h
    split at h
    · cases h
    · rename_i hc
      cases hwei : toWei? negative c e with
      | none => exact long_of_toWei?_eq_none (Nat.pos_of_ne_zero hc) hwei
      | some x =>
        rw [hwei] at h
        exact absurd h (settle_ne_overflow _ _ _ _)
  · exact absurd (Except.error.inj (her.symm.trans h)) hreported

theorem parse_eq_overflow (h : Denotes text false c e) (hrep : Representable c e) (hc : 0 < c) :
    parse text = .error .overflow ↔
      Crowded c e ∨ ∃ y, Rounds precision (magnitude c (e + 9)) y ∧ 10 ^ (maxPower + 1) ≤ y := by
  by_cases hcrowded : Crowded c e
  · exact iff_of_true (parse_of_crowded h hrep hc hcrowded) (.inl hcrowded)
  · obtain ⟨y, hy⟩ := exists_rounds precision (e := e + 9) hc
    rw [parse_of_rounds h hrep hc hcrowded hy]
    constructor
    · intro hparse
      split at hparse
      · cases hparse
      split at hparse
      · cases hparse
      split at hparse
      · cases hparse
      · rename_i hlarge
        exact .inr ⟨y, hy, not_lt.mp hlarge⟩
    · rintro (hcrowded' | ⟨y', hy', hlarge⟩)
      · exact absurd hcrowded' hcrowded
      · obtain rfl := hy.unique hy'
        have hhigh : ¬y ≤ maxWei := not_le.mpr (maxWei_lt_overflow.trans_le hlarge)
        have hlow : ¬y < 1 := fun hlow => hhigh (hlow.le.trans one_le_maxWei)
        rw [if_neg hlow, if_neg hhigh, if_neg (not_lt.mpr hlarge)]

theorem pos_of_one_le (h : 1 ≤ magnitude c e) : 0 < c := by
  obtain rfl | hc := c.eq_zero_or_pos
  · rw [magnitude_zero] at h
    exact absurd h (by norm_num)
  · exact hc

theorem representable_of_bounded (hc : 0 < c) (hshort : c < 10 ^ precision) (hlow : 1 ≤ magnitude c (e + 9))
    (hhigh : magnitude c (e + 9) ≤ maxWei) : Representable c e := by
  have hdigits : digits c ≤ precision := (digits_le_iff precision_pos).mpr hshort
  have hprec : precision = 999 := rfl
  have hleading : 0 ≤ leading c (e + 9) := (le_leading_iff hc).mpr (by rwa [zpow_zero])
  have hleading' : leading c (e + 9) < 78 := (leading_lt_iff hc).mpr (hhigh.trans_lt maxWei_lt)
  have hmax : maxExponent = 999999999999999999 := rfl
  have hmin : minExponent = -1999999999999999997 := rfl
  rw [leading_eq] at hleading hleading'
  rw [Representable, leading_eq]
  omega

theorem parse_eq_ok_of_short (h : Denotes text negative c e) (hshort : c < 10 ^ precision) : parse text = .ok w ↔
    negative = false ∧ 1 ≤ magnitude c (e + 9) ∧ magnitude c (e + 9) ≤ maxWei ∧ w = ⌊magnitude c (e + 9)⌋₊ := by
  constructor
  · intro hparse
    obtain ⟨c', e', y, hdenotes, hrep, hc, -, hy, hlow, hhigh, rfl⟩ := parse_eq_ok.mp hparse
    have hread := parse_eq_finite.mpr ⟨hdenotes, hrep⟩
    rw [parse_of_denotes h] at hread
    cases (ofParts_eq_ok.mp hread).2
    obtain rfl := hy.unique (rounds_of_lt precision_pos hc hshort)
    exact ⟨rfl, hlow, hhigh, rfl⟩
  · rintro ⟨rfl, hlow, hhigh, rfl⟩
    have hc := pos_of_one_le hlow
    have hcrowded : ¬Crowded c e := fun hcrowded => absurd hshort (not_lt.mpr (long_of_crowded hcrowded hc))
    exact parse_eq_ok.mpr ⟨c, e, _, h, representable_of_bounded hc hshort hlow hhigh, hc, hcrowded,
      rounds_of_lt precision_pos hc hshort, hlow, hhigh, rfl⟩

theorem exists_amount (h : Denotes text false c e) (hrep : Representable c e) (hcrowded : ¬Crowded c e)
    (hlow : 1 ≤ magnitude c (e + 9)) (hhigh : magnitude c (e + 9) ≤ maxWei) :
    ∃ y, |y - magnitude c (e + 9)| ≤ 10 ^ (-921 : ℤ) ∧ parse text = .ok ⌊y⌋₊ := by
  have hc : 0 < c := pos_of_one_le hlow
  obtain ⟨y, hy⟩ := exists_rounds precision (e := e + 9) hc
  have hmax : maxWei < 10 ^ precision :=
    (by decide : maxWei < 10 ^ 78).trans (Nat.pow_lt_pow_right (by decide) (by decide))
  obtain ⟨hlow', hhigh'⟩ := hy.between (n := 1) (by exact_mod_cast hlow) hhigh hmax
  refine ⟨y, hy.near (k := 78) (hhigh.trans_lt maxWei_lt), ?_⟩
  exact parse_eq_ok.mpr ⟨c, e, y, h, hrep, hc, hcrowded, hy, by exact_mod_cast hlow', hhigh', rfl⟩

/-- A price is read from the numerals of positive numbers, as the whole wei in the number rounded to 999 digits; from
a numeral that has no more digits than that, as the whole wei in the number itself. Everything else is refused with an
error that is reported, or it is a numeral of four hundred thousand digits, as written or written out. -/
theorem parse_exact (text : String) :
    (∀ w, parse text = .ok w ↔ ∃ c e y, Denotes text false c e ∧ Representable c e ∧ 0 < c ∧ ¬Crowded c e ∧
      Rounds precision (magnitude c (e + 9)) y ∧ 1 ≤ y ∧ y ≤ maxWei ∧ w = ⌊y⌋₊) ∧
    (∀ c e, Denotes text false c e → Representable c e → ¬Crowded c e → 1 ≤ magnitude c (e + 9) →
      magnitude c (e + 9) ≤ maxWei → ∃ y, |y - magnitude c (e + 9)| ≤ 10 ^ (-921 : ℤ) ∧ parse text = .ok ⌊y⌋₊) ∧
    (∀ negative c e, Denotes text negative c e → c < 10 ^ precision → ∀ w, parse text = .ok w ↔
      negative = false ∧ 1 ≤ magnitude c (e + 9) ∧ magnitude c (e + 9) ≤ maxWei ∧ w = ⌊magnitude c (e + 9)⌋₊) ∧
    (∀ w, parse text = .ok w → 0 < w ∧ w ≤ maxWei) ∧
    (∀ c e, Denotes text false c e → Representable c e → 0 < c → (parse text = .error .overflow ↔
      Crowded c e ∨ ∃ y, Rounds precision (magnitude c (e + 9)) y ∧ 10 ^ (maxPower + 1) ≤ y)) ∧
    (parse text = .error .overflow →
      ∃ negative c e, Denotes text negative c e ∧ (400000 ≤ digits c ∨ 400000 ≤ leading c e)) := by
  refine ⟨fun w => parse_eq_ok, fun c e => exists_amount, fun negative c e h hshort w => parse_eq_ok_of_short h hshort,
    fun w hw => ?_, fun c e => parse_eq_overflow, long_of_overflow⟩
  obtain ⟨c, e, y, -, -, -, -, -, hlow, -, rfl⟩ := parse_eq_ok.mp hw
  exact ⟨Nat.floor_pos.mpr hlow, le_maxWei_of_parse hw⟩

theorem not_parse_exact_tooLarge :
    ¬∀ text : String, (∃ w, parse text = .ok w) ∨ ∃ er, parse text = .error er ∧ er ≠ .overflow := by
  intro h
  have hparse : parse "1e1000000" = .error .overflow := by decide
  obtain ⟨w, hw⟩ | ⟨er, her, hreported⟩ := h "1e1000000"
  · cases hparse.symm.trans hw
  · exact hreported (Except.error.inj (her.symm.trans hparse))

end Settlement.GasPrice

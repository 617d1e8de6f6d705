import Mathlib
import Settlement.Curve.Projective

/-!
The projective formulas compute the group law of `y² = x³ + b` over any field in which that curve is
elliptic, on every triple of coordinates of a point.
-/

namespace Settlement.Projective

open WeierstrassCurve

section Curve

variable {F : Type} [Field F]

def weierstrass (b : F) : Affine F := ⟨0, 0, 0, 0, b⟩

theorem delta_weierstrass (b : F) : (weierstrass b).Δ = -432 * b ^ 2 := by
  simp only [WeierstrassCurve.Δ, WeierstrassCurve.b₂, WeierstrassCurve.b₄, WeierstrassCurve.b₆,
    WeierstrassCurve.b₈, weierstrass]
  ring

theorem equation_weierstrass (b x y : F) : (weierstrass b).Equation x y ↔ y ^ 2 = x ^ 3 + b := by
  rw [Affine.equation_iff]
  simp [weierstrass]

theorem negY_weierstrass (b x y : F) : (weierstrass b).negY x y = -y := by
  simp [Affine.negY, weierstrass]

theorem addX_weierstrass (b x₁ x₂ l : F) : (weierstrass b).addX x₁ x₂ l = l ^ 2 - x₁ - x₂ := by
  simp [Affine.addX, weierstrass]

theorem addY_weierstrass (b x₁ x₂ y₁ l : F) :
    (weierstrass b).addY x₁ x₂ y₁ l = l * (x₁ - (weierstrass b).addX x₁ x₂ l) - y₁ := by
  simp only [Affine.addY, Affine.negAddY, negY_weierstrass]
  ring

theorem slope_self [DecidableEq F] {b x y : F} (h : y ≠ -y) :
    (weierstrass b).slope x x y y = 3 * x ^ 2 / (y + y) := by
  rw [Affine.slope_of_Y_ne rfl (by rwa [negY_weierstrass]), negY_weierstrass]
  simp [weierstrass]

theorem two_ne_zero_of_elliptic (b : F) [(weierstrass b).IsElliptic] : (2 : F) ≠ 0 := by
  intro h
  apply (weierstrass b).isUnit_Δ.ne_zero
  rw [delta_weierstrass, show (-432 : F) = 2 * (-216) by norm_num, h]
  ring

theorem double_z (a : Projective F) : (double a).z = (2 * (a.y * a.z)) ^ 3 := by
  simp only [double]
  ring

end Curve

variable {F : Type} [Field F] [DecidableEq F] {b : F} {a c : Projective F}

theorem isInfinity_iff (a : Projective F) : a.isInfinity = true ↔ a.z = 0 := by
  simp [isInfinity]

theorem onCurve_iff (b : F) (a : Projective F) :
    a.onCurve b = true ↔ a.z = 0 ∨ a.y * a.y * a.z - a.x * a.x * a.x = b * (a.z * a.z * a.z) := by
  simp [onCurve, isInfinity]

theorem toAffine?_of_z_eq_one (h : a.z = 1) : a.toAffine? = some (a.x, a.y) := by
  simp [toAffine?, isInfinity, h]

theorem onCurve_of_z_eq_zero (h : a.z = 0) : a.onCurve b = true :=
  (onCurve_iff b a).mpr (.inl h)

open Classical in
noncomputable def toPoint (b : F) (a : Projective F) : (weierstrass b).Point :=
  if h : a.z ≠ 0 ∧ (weierstrass b).Nonsingular (a.x / a.z) (a.y / a.z) then .some _ _ h.2 else 0

theorem toPoint_of_z_eq_zero (h : a.z = 0) : toPoint b a = 0 := by
  simp [toPoint, h]

theorem toPoint_eq_some {x y : F} (hz : a.z ≠ 0) (h : (weierstrass b).Nonsingular x y)
    (hx : a.x = x * a.z) (hy : a.y = y * a.z) : a.onCurve b = true ∧ toPoint b a = .some x y h := by
  obtain rfl : x = a.x / a.z := by rw [hx, mul_div_cancel_right₀ x hz]
  obtain rfl : y = a.y / a.z := by rw [hy, mul_div_cancel_right₀ y hz]
  refine ⟨(onCurve_iff b a).mpr (.inr ?_), dif_pos ⟨hz, h⟩⟩
  have he := (equation_weierstrass b _ _).mp h.1
  field_simp at he
  linear_combination he

variable [(weierstrass b).IsElliptic]

theorem eq_scaled_of_onCurve (h : a.onCurve b = true) (hz : a.z ≠ 0) :
    ∃ x y, ∃ hn : (weierstrass b).Nonsingular x y,
      a.x = x * a.z ∧ a.y = y * a.z ∧ toPoint b a = .some x y hn := by
  have he := ((onCurve_iff b a).mp h).resolve_left hz
  have hn : (weierstrass b).Nonsingular (a.x / a.z) (a.y / a.z) := by
    rw [← Affine.equation_iff_nonsingular, equation_weierstrass]
    field_simp
    linear_combination he
  exact ⟨_, _, hn, (div_mul_cancel₀ _ hz).symm, (div_mul_cancel₀ _ hz).symm, dif_pos ⟨hz, hn⟩⟩

theorem toPoint_of_same (hc : c.onCurve b = true) (haz : a.z ≠ 0) (hcz : c.z ≠ 0) (h : same a c = true) :
    a.onCurve b = true ∧ toPoint b a = toPoint b c := by
  obtain ⟨x, y, hn, hx, hy, hp⟩ := eq_scaled_of_onCurve hc hcz
  simp only [same, Bool.and_eq_true, beq_iff_eq, hx, hy] at h
  rw [hp]
  apply toPoint_eq_some haz
  · apply mul_right_cancel₀ hcz
    rw [h.1, mul_right_comm]
  · apply mul_right_cancel₀ hcz
    rw [h.2, mul_right_comm]

theorem toPoint_eq_zero_iff (h : a.onCurve b = true) : toPoint b a = 0 ↔ a.z = 0 := by
  refine ⟨?_, toPoint_of_z_eq_zero⟩
  intro h0
  by_contra hz
  obtain ⟨x, y, hn, _, _, hp⟩ := eq_scaled_of_onCurve h hz
  exact Affine.Point.some_ne_zero hn (hp.symm.trans h0)

theorem toPoint_double (h : a.onCurve b = true) :
    (double a).onCurve b = true ∧ toPoint b (double a) = toPoint b a + toPoint b a := by
  have h2 := two_ne_zero_of_elliptic b
  by_cases hz : a.z = 0
  · have hd : (double a).z = 0 := by rw [double_z, hz]; ring
    exact ⟨onCurve_of_z_eq_zero hd, by rw [toPoint_of_z_eq_zero hd, toPoint_of_z_eq_zero hz, add_zero]⟩
  obtain ⟨x, y, hn, hx, hy, hp⟩ := eq_scaled_of_onCurve h hz
  by_cases hy0 : y = 0
  · -- a point of order two, where the tangent is vertical
    have hd : (double a).z = 0 := by rw [double_z, hy, hy0]; ring
    refine ⟨onCurve_of_z_eq_zero hd, ?_⟩
    rw [toPoint_of_z_eq_zero hd, hp,
      Affine.Point.add_self_of_Y_eq (by rw [negY_weierstrass, hy0, neg_zero])]
  · have hd : (double a).z ≠ 0 := by
      rw [double_z, hy]
      exact pow_ne_zero _ (mul_ne_zero h2 (mul_ne_zero (mul_ne_zero hy0 hz) hz))
    have hne : y ≠ -y := by
      intro he
      have h0 : 2 * y = 0 := by linear_combination he
      exact mul_ne_zero h2 hy0 h0
    rw [hp, Affine.Point.add_self_of_Y_ne (by rwa [negY_weierstrass])]
    apply toPoint_eq_some hd
    · rw [addX_weierstrass, slope_self hne, ← two_mul]
      simp only [double, hx, hy]
      field_simp
      ring
    · rw [addY_weierstrass, addX_weierstrass, slope_self hne, ← two_mul]
      simp only [double, hx, hy]
      field_simp
      ring

theorem toPoint_add (ha : a.onCurve b = true) (hc : c.onCurve b = true) :
    (add a c).onCurve b = true ∧ toPoint b (add a c) = toPoint b a + toPoint b c := by
  by_cases hcz : c.z = 0
  · simp [add, isInfinity, hcz, ha, toPoint_of_z_eq_zero hcz]
  by_cases haz : a.z = 0
  · simp [add, isInfinity, hcz, haz, hc, toPoint_of_z_eq_zero haz]
  obtain ⟨x, y, han, hax, hay, hap⟩ := eq_scaled_of_onCurve ha haz
  obtain ⟨x', y', hcn, hcx, hcy, hcp⟩ := eq_scaled_of_onCurve hc hcz
  have hv : c.x * a.z = a.x * c.z ↔ x = x' := by
    rw [hax, hcx, mul_right_comm, mul_left_inj' hcz, mul_left_inj' haz, eq_comm]
  have hu : c.y * a.z = a.y * c.z ↔ y = y' := by
    rw [hay, hcy, mul_right_comm, mul_left_inj' hcz, mul_left_inj' haz, eq_comm]
  simp only [add, isInfinity_iff, haz, hcz, ↓reduceIte, hv, hu]
  by_cases hx : x = x'
  · subst hx
    by_cases hy : y = y'
    · subst hy
      simp only [↓reduceIte]
      rw [show toPoint b c = toPoint b a by rw [hap, hcp]]
      exact toPoint_double ha
    · simp only [hy, ↓reduceIte]
      have hsq : y ^ 2 = y' ^ 2 := by
        rw [(equation_weierstrass b _ _).mp han.1, (equation_weierstrass b _ _).mp hcn.1]
      have hneg : y = -y' := (sq_eq_sq_iff_eq_or_eq_neg.mp hsq).resolve_left hy
      refine ⟨onCurve_of_z_eq_zero rfl, ?_⟩
      rw [toPoint_of_z_eq_zero rfl, hap, hcp,
        Affine.Point.add_of_Y_eq rfl (by rwa [negY_weierstrass])]
  · simp only [hx, ↓reduceIte]
    have hs : x - x' ≠ 0 := sub_ne_zero.mpr hx
    have hvz : c.x * a.z - a.x * c.z ≠ 0 := sub_ne_zero.mpr (fun h => hx (hv.mp h))
    rw [hap, hcp, Affine.Point.add_of_X_ne hx]
    apply toPoint_eq_some
    · exact mul_ne_zero (mul_ne_zero hvz (mul_ne_zero hvz hvz)) (mul_ne_zero haz hcz)
    · rw [addX_weierstrass, Affine.slope_of_X_ne hx]
      simp only [hax, hay, hcx, hcy]
      field_simp
      ring
    · rw [addY_weierstrass, addX_weierstrass, Affine.slope_of_X_ne hx]
      simp only [hax, hay, hcx, hcy]
      field_simp
      ring

theorem add_of_same (haz : a.z ≠ 0) (hcz : c.z ≠ 0) (h : same a c = true) : add a c = double a := by
  simp only [same, Bool.and_eq_true, beq_iff_eq] at h
  simp only [add, isInfinity_iff, haz, hcz, h.1, h.2, ↓reduceIte]

theorem toPoint_neg (ha : a.onCurve b = true) :
    (neg a).onCurve b = true ∧ toPoint b (neg a) = -toPoint b a := by
  by_cases hz : a.z = 0
  · have hd : (neg a).z = 0 := hz
    exact ⟨onCurve_of_z_eq_zero hd, by rw [toPoint_of_z_eq_zero hd, toPoint_of_z_eq_zero hz, neg_zero]⟩
  · obtain ⟨x, y, hn, hx, hy, hp⟩ := eq_scaled_of_onCurve ha hz
    rw [hp, Affine.Point.neg_some]
    refine toPoint_eq_some (a := neg a) hz _ hx ?_
    rw [negY_weierstrass]
    simp only [neg, hy]
    ring

theorem toPoint_scale (n : ℕ) (ha : a.onCurve b = true) :
    (scale a n).onCurve b = true ∧ toPoint b (scale a n) = n • toPoint b a := by
  induction n using Nat.strong_induction_on generalizing a with
  | _ n ih =>
    rw [scale]
    by_cases h0 : n = 0
    · simp only [h0, ↓reduceIte, zero_smul]
      exact ⟨onCurve_of_z_eq_zero rfl, toPoint_of_z_eq_zero rfl⟩
    by_cases h1 : n = 1
    · simp [h1, ha]
    obtain ⟨hd, hdp⟩ := toPoint_double ha
    obtain ⟨hs, hsp⟩ := ih (n / 2) (by omega) hd
    rw [hdp, ← two_smul ℕ, smul_smul] at hsp
    simp only [h0, h1, ↓reduceIte]
    by_cases he : n % 2 = 0
    · simp only [he, ↓reduceIte]
      exact ⟨hs, by rw [hsp, show n / 2 * 2 = n by omega]⟩
    · simp only [he, ↓reduceIte]
      obtain ⟨hr, hrp⟩ := toPoint_add hs ha
      refine ⟨hr, ?_⟩
      rw [hrp, hsp, ← succ_nsmul, show n / 2 * 2 + 1 = n by omega]

theorem two_smul_ne_zero (hb : ∀ x : F, x ^ 3 ≠ -b) {a : (weierstrass b).Point} (ha : a ≠ 0) :
    2 • a ≠ 0 := by
  -- a point of order two has second coordinate zero, so that `-b` is a cube
  intro h
  cases a with
  | zero => exact ha rfl
  | some x y hn =>
    rw [two_smul, add_eq_zero_iff_eq_neg, Affine.Point.neg_some, Affine.Point.some.injEq,
      negY_weierstrass] at h
    have hy2 : 2 * y = 0 := by linear_combination h.2
    have hy : y = 0 := (mul_eq_zero.mp hy2).resolve_left (two_ne_zero_of_elliptic b)
    have he := (equation_weierstrass b x y).mp hn.1
    apply hb x
    linear_combination y * hy - he

section Count

variable [Fintype F]

instance : Finite (weierstrass b).Point :=
  Finite.of_equiv (Option {xy : F × F // (weierstrass b).Equation xy.1 xy.2})
    (weierstrass b).pointEquiv.symm

theorem card_point_le : Nat.card (weierstrass b).Point ≤ 2 * Fintype.card F + 1 := by
  let s : Finset (F × F) := Finset.univ.filter fun xy => xy.2 ^ 2 = xy.1 ^ 3 + b
  have hs : Nat.card (weierstrass b).Point = s.card + 1 := by
    classical
    rw [Nat.card_congr (weierstrass b).pointEquiv, WithZero, Finite.card_option,
      Nat.card_eq_fintype_card, Fintype.card_subtype]
    simp only [equation_weierstrass, s]
  have himage : s.card ≤ 2 * (s.image Prod.fst).card := by
    apply Finset.card_le_mul_card_image
    intro x _
    -- over one first coordinate lie the square roots of one element
    calc (s.filter fun xy => xy.1 = x).card
        ≤ ((Polynomial.nthRoots 2 (x ^ 3 + b)).toFinset.image fun y => (x, y)).card := by
          apply Finset.card_le_card
          rintro ⟨x', y⟩ hxy
          obtain ⟨hy, rfl⟩ := Finset.mem_filter.mp hxy
          have he := (Finset.mem_filter.mp hy).2
          simpa [Polynomial.mem_nthRoots] using he
      _ ≤ (Polynomial.nthRoots 2 (x ^ 3 + b)).toFinset.card := Finset.card_image_le
      _ ≤ 2 := (Multiset.toFinset_card_le _).trans (Polynomial.card_nthRoots _ _)
  have hfst : (s.image Prod.fst).card ≤ Fintype.card F := Finset.card_le_univ _
  omega

end Count

end Settlement.Projective

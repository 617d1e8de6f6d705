import Mathlib
import Settlement.Proofs.Bn254.Pairing
import Settlement.Proofs.Except

/-!
Coordinates of a point count up to a common factor. The pairing does not depend on that of a point of the first
group: the factor comes out of every line, and the final exponentiation sends it to one.
-/

namespace Settlement

open Bn254
open scoped Bn254.Fields

namespace Projective

variable {F : Type} [Field F] [DecidableEq F] {b : F} {a c : Projective F}

def rescale (u : F) (a : Projective F) : Projective F :=
  ⟨u * a.x, u * a.y, u * a.z⟩

/-- Two triples stand for one point: they have the same affine coordinates, or both have none. -/
def SamePoint (a c : Projective F) : Prop :=
  a.toAffine? = c.toAffine?

instance : Decidable (SamePoint a c) :=
  inferInstanceAs (Decidable (a.toAffine? = c.toAffine?))

theorem samePoint_rescale {u : F} (hu : u ≠ 0) (a : Projective F) : SamePoint a (rescale u a) := by
  by_cases hz : a.z = 0
  · simp [SamePoint, toAffine?, isInfinity, rescale, hz]
  · simp only [SamePoint, toAffine?, isInfinity_iff, rescale, hz, mul_eq_zero, hu, or_self, ↓reduceIte,
      Option.some.injEq, Prod.mk.injEq]
    constructor <;> field_simp

theorem SamePoint.symm (h : SamePoint a c) : SamePoint c a :=
  Eq.symm h

theorem SamePoint.z_eq_zero_iff (h : SamePoint a c) : a.z = 0 ↔ c.z = 0 := by
  simp only [SamePoint, toAffine?, isInfinity_iff] at h
  split at h <;> split at h <;> simp_all

theorem SamePoint.exists_rescale (h : SamePoint a c) (hz : a.z ≠ 0) : ∃ u, u ≠ 0 ∧ c = rescale u a := by
  have hcz : c.z ≠ 0 := mt h.z_eq_zero_iff.mpr hz
  simp only [SamePoint, toAffine?, isInfinity_iff, hz, hcz, ↓reduceIte, Option.some.injEq, Prod.mk.injEq] at h
  obtain ⟨x, y, z⟩ := c
  simp only at h hcz
  refine ⟨z * a.z⁻¹, mul_ne_zero hcz (inv_ne_zero hz), ?_⟩
  rw [rescale, Projective.mk.injEq]
  refine ⟨?_, ?_, ?_⟩
  · field_simp at h ⊢
    rw [h.1]
  · field_simp at h ⊢
    rw [h.2]
  · field_simp

variable [(weierstrass b).IsElliptic]

theorem SamePoint.toPoint_eq (h : SamePoint a c) (ha : a.onCurve b = true) :
    c.onCurve b = true ∧ toPoint b c = toPoint b a := by
  by_cases hz : a.z = 0
  · have hcz := h.z_eq_zero_iff.mp hz
    exact ⟨onCurve_of_z_eq_zero hcz, by rw [toPoint_of_z_eq_zero hz, toPoint_of_z_eq_zero hcz]⟩
  · obtain ⟨x, y, hn, hx, hy, hp⟩ := eq_scaled_of_onCurve ha hz
    obtain ⟨u, hu, rfl⟩ := h.exists_rescale hz
    rw [hp]
    apply toPoint_eq_some
    · exact mul_ne_zero hu hz
    · rw [rescale, hx, mul_left_comm]
    · rw [rescale, hy, mul_left_comm]

theorem samePoint_of_toPoint_eq (ha : a.onCurve b = true) (hc : c.onCurve b = true)
    (h : toPoint b a = toPoint b c) : SamePoint a c := by
  by_cases hz : a.z = 0
  · have hcz := (toPoint_eq_zero_iff hc).mp (h.symm.trans (toPoint_of_z_eq_zero hz))
    simp [SamePoint, toAffine?, isInfinity, hz, hcz]
  · have hcz : c.z ≠ 0 := by
      intro hcz
      exact hz ((toPoint_eq_zero_iff ha).mp (h.trans (toPoint_of_z_eq_zero hcz)))
    obtain ⟨x, y, hn, hax, hay, hap⟩ := eq_scaled_of_onCurve ha hz
    obtain ⟨x', y', hn', hcx, hcy, hcp⟩ := eq_scaled_of_onCurve hc hcz
    rw [hap, hcp, WeierstrassCurve.Affine.Point.some.injEq] at h
    obtain ⟨rfl, rfl⟩ := h
    simp [SamePoint, toAffine?, isInfinity, hz, hcz, hax, hay, hcx, hcy]

end Projective

namespace Bn254

namespace Fp12

def ofBase (u : Fp) : Fp12 :=
  ⟨⟨⟨u, 0⟩, 0, 0⟩, 0⟩

def scale (u : Fp) (f : Fp12) : Fp12 :=
  ⟨⟨f.c0.c0.scale u, f.c0.c1.scale u, f.c0.c2.scale u⟩, ⟨f.c1.c0.scale u, f.c1.c1.scale u, f.c1.c2.scale u⟩⟩

theorem ofBase_mul (u : Fp) (f : Fp12) : ofBase u * f = scale u f := by
  have hpair (x : Fp2) : (⟨u, 0⟩ : Fp2) * x = x.scale u := by
    ext1 <;> simp [Fp2.scale]
  have hsix (x : Fp6) : (⟨⟨u, 0⟩, 0, 0⟩ : Fp6) * x = ⟨x.c0.scale u, x.c1.scale u, x.c2.scale u⟩ := by
    ext1 <;> simp [Fp6.mul_c0, Fp6.mul_c1, Fp6.mul_c2, hpair]
  ext1
  · rw [mul_c0, ofBase, hsix, zero_mul, mul_zero, add_zero]
    rfl
  · rw [mul_c1, ofBase, hsix, zero_mul, add_zero]
    rfl

theorem ofBase_mul_ofBase (u v : Fp) : ofBase u * ofBase v = ofBase (u * v) := by
  rw [ofBase_mul]
  ext1 <;> ext1 <;> ext1 <;> simp [scale, ofBase, Fp2.scale]

theorem ofBase_pow (u : Fp) (n : ℕ) : ofBase u ^ n = ofBase (u ^ n) := by
  induction n with
  | zero => rfl
  | succ n ih => rw [pow_succ, pow_succ, ih, ofBase_mul_ofBase]

end Fp12

namespace Pairing

open Fp12 Projective

theorem finalExp_ofBase_mul {u : Fp} (hu : u ≠ 0) (f : Fp12) : finalExp (ofBase u * f) = finalExp f := by
  -- the order of the units of the base field divides the exponent
  obtain ⟨k, hk⟩ : p - 1 ∣ (Nat.pow p 12 - 1) / r := by decide +kernel
  have hone : u ^ (p - 1) = 1 := by
    have hpow (n : ℕ) (hn : Fintype.card Fp = n) : u ^ (n - 1) = 1 := by
      rw [← hn]
      exact FiniteField.pow_card_sub_one_eq_one u hu
    exact hpow p (Fintype.card_fin p)
  rw [finalExp, finalExp, Fp12.pow_eq, Fp12.pow_eq, mul_pow, ofBase_pow, hk, pow_mul, hone, one_pow]
  exact one_mul _

theorem line_rescale (u : Fp) (a c : G2) (t : G1) : line a c (rescale u t) = ofBase u * line a c t := by
  have hscale (v : Fp) (x : Fp2) : x.scale (u * v) = (x.scale v).scale u := by
    ext1 <;> simp [Fp2.scale, mul_assoc]
  have hneg (v : Fp) (x : Fp2) : x.scale (-(u * v)) = (x.scale (-v)).scale u := by
    rw [← hscale, mul_neg]
  have hzero : (0 : Fp2).scale u = 0 := by
    ext1 <;> simp [Fp2.scale]
  have hchord (m d : Fp2) : chord a m d (rescale u t) = ofBase u * chord a m d t := by
    simp only [chord, rescale, ofBase_mul, Fp12.scale, hscale, hneg, hzero]
  have hvertical : vertical a (rescale u t) = ofBase u * vertical a t := by
    simp only [vertical, rescale, ofBase_mul, Fp12.scale, hscale, Fp6.zero_c0, Fp6.zero_c1, Fp6.zero_c2, hzero]
    rfl
  have hline : ofBase u * 0 = 0 := by
    rw [ofBase_mul]
    ext1 <;> ext1 <;> exact hzero
  simp only [line]
  split
  · exact hline.symm
  · split
    · exact hchord _ _
    · split
      · exact hchord _ _
      · exact hvertical

def Scaled (s s' : State) : Prop :=
  s'.point = s.point ∧ ∃ v : Fp, v ≠ 0 ∧ s'.value = ofBase v * s.value

section Loop

variable {u : Fp} (hu : u ≠ 0) {s s' : State} {t : G1}

include hu

theorem Scaled.double (h : Scaled s s') : Scaled (s.double t) (s'.double (rescale u t)) := by
  obtain ⟨hpoint, v, hv, hvalue⟩ := h
  refine ⟨by rw [State.double, State.double, hpoint], v * v * u, mul_ne_zero (mul_ne_zero hv hv) hu, ?_⟩
  simp only [State.double, hpoint, hvalue, line_rescale, ← ofBase_mul_ofBase]
  ac_rfl

theorem Scaled.add (h : Scaled s s') (q : G2) : Scaled (s.add t q) (s'.add (rescale u t) q) := by
  obtain ⟨hpoint, v, hv, hvalue⟩ := h
  refine ⟨by rw [State.add, State.add, hpoint], v * u, mul_ne_zero hv hu, ?_⟩
  simp only [State.add, hpoint, hvalue, line_rescale, ← ofBase_mul_ofBase]
  ac_rfl

theorem Scaled.step (h : Scaled s s') (q : G2) (digit : ℤ) :
    Scaled (s.step t q digit) (s'.step (rescale u t) q digit) := by
  simp only [State.step]
  split
  · exact (h.double hu).add hu q
  · split
    · exact (h.double hu).add hu (Projective.neg q)
    · exact h.double hu

theorem Scaled.loop (h : Scaled s s') (q : G2) (digits : List ℤ) :
    Scaled (digits.foldl (State.step t q) s) (digits.foldl (State.step (rescale u t) q) s') := by
  induction digits generalizing s s' with
  | nil => exact h
  | cons digit digits ih => exact ih (h.step hu q digit)

theorem miller_rescale (t : G1) (q : G2) : ∃ v : Fp, v ≠ 0 ∧ miller (rescale u t) q = ofBase v * miller t q := by
  have hinfinity : G1.isInfinity (rescale u t) = G1.isInfinity t := by
    rw [Bool.eq_iff_iff, G1.isInfinity, G1.isInfinity, Projective.isInfinity_iff, Projective.isInfinity_iff]
    simp [rescale, hu]
  have hstart : Scaled ⟨q, 1⟩ ⟨q, 1⟩ := ⟨rfl, 1, one_ne_zero, (one_mul (1 : Fp12)).symm⟩
  rw [miller, miller, hinfinity]
  split
  · exact ⟨1, one_ne_zero, (one_mul (1 : Fp12)).symm⟩
  · exact (((hstart.loop hu q loopDigits).add hu (frobenius q)).add hu
      (Projective.neg (frobenius (frobenius q)))).2

end Loop

def SamePair (pair pair' : G1 × G2) : Prop :=
  SamePoint pair.1 pair'.1 ∧ pair.2 = pair'.2

theorem millerProduct_congr {pairs pairs' : List (G1 × G2)} (h : List.Forall₂ SamePair pairs pairs') :
    (∃ e, millerProduct pairs = .error e ∧ millerProduct pairs' = .error e) ∨
    ∃ m v, v ≠ 0 ∧ millerProduct pairs = .ok m ∧ millerProduct pairs' = .ok (ofBase v * m) := by
  induction h with
  | nil => exact .inr ⟨1, 1, one_ne_zero, rfl, congrArg _ (one_mul (1 : Fp12)).symm⟩
  | @cons pair pair' pairs pairs' hpair _ ih =>
    obtain ⟨t, q⟩ := pair
    obtain ⟨t', q'⟩ := pair'
    obtain ⟨hsame, rfl⟩ : SamePoint t t' ∧ q = q' := hpair
    have hinfinity : G1.isInfinity t' = G1.isInfinity t := by
      rw [Bool.eq_iff_iff, G1.isInfinity, G1.isInfinity, Projective.isInfinity_iff, Projective.isInfinity_iff]
      exact hsame.z_eq_zero_iff.symm
    have hcurve : G1.onCurve t' = G1.onCurve t := by
      rw [Bool.eq_iff_iff]
      exact ⟨fun h => (hsame.symm.toPoint_eq h).1, fun h => (hsame.toPoint_eq h).1⟩
    simp only [millerProduct, hinfinity, hcurve]
    split
    · exact ih
    rename_i hskip
    simp only [Bool.or_eq_true, not_or, G1.isInfinity, Projective.isInfinity_iff] at hskip
    split
    · exact .inl ⟨_, rfl, rfl⟩
    split
    · exact .inl ⟨_, rfl, rfl⟩
    obtain ⟨e, he, he'⟩ | ⟨m, v, hv, hm, hm'⟩ := ih
    · exact .inl ⟨e, by rw [he]; rfl, by rw [he']; rfl⟩
    · obtain ⟨u, hu, rfl⟩ := hsame.exists_rescale hskip.1
      obtain ⟨w, hw, hmiller⟩ := miller_rescale hu t q
      have hvalue : miller (rescale u t) q * (ofBase v * m) = ofBase (w * v) * (miller t q * m) := by
        rw [hmiller, ← ofBase_mul_ofBase]
        ac_rfl
      refine .inr ⟨miller t q * m, w * v, mul_ne_zero hw hv, Except.bind_eq_ok.mpr ⟨m, hm, rfl⟩, ?_⟩
      exact Except.bind_eq_ok.mpr ⟨_, hm', congrArg Except.ok hvalue⟩

theorem checkProduct_congr {pairs pairs' : List (G1 × G2)} (h : List.Forall₂ SamePair pairs pairs') :
    checkProduct pairs = checkProduct pairs' := by
  obtain ⟨e, he, he'⟩ | ⟨m, v, hv, hm, hm'⟩ := millerProduct_congr h
  · rw [checkProduct, checkProduct, he, he']
  · have hleft : checkProduct pairs = .ok (decide (finalExp m = 1)) := Except.bind_eq_ok.mpr ⟨m, hm, rfl⟩
    have hright : checkProduct pairs' = .ok (decide (finalExp (ofBase v * m) = 1)) :=
      Except.bind_eq_ok.mpr ⟨_, hm', rfl⟩
    rw [hleft, hright, finalExp_ofBase_mul hv]

end Pairing

namespace G1

def Agree (a c : G1) : Prop :=
  ∃ k, a.Represents k ∧ c.Represents k

theorem agree_self {a : G1} (ha : onCurve a = true) : Agree a a :=
  ⟨log a, represents_log ha, represents_log ha⟩

theorem Represents.of_samePoint {a c : G1} {k : Fr} (ha : a.Represents k) (h : Projective.SamePoint a c) :
    c.Represents k := by
  obtain ⟨hc, hpoint⟩ := h.toPoint_eq ha.onCurve
  exact ⟨hc, hpoint.trans ha.toPoint_eq⟩

theorem agree_of_samePoint {a c : G1} (ha : onCurve a = true) (h : Projective.SamePoint a c) : Agree a c :=
  ⟨log a, represents_log ha, (represents_log ha).of_samePoint h⟩

theorem Agree.samePoint {a c : G1} (h : Agree a c) : Projective.SamePoint a c := by
  obtain ⟨k, ha, hc⟩ := h
  exact Projective.samePoint_of_toPoint_eq ha.onCurve hc.onCurve (ha.toPoint_eq.trans hc.toPoint_eq.symm)

theorem Agree.neg {a c : G1} (h : Agree a c) : Agree (neg a) (neg c) := by
  obtain ⟨k, ha, hc⟩ := h
  exact ⟨-k, ha.neg, hc.neg⟩

def AgreeTerm (t t' : G1 × ℤ) : Prop :=
  Agree t.1 t'.1 ∧ t.2 = t'.2

theorem Agree.add {a a' c c' : G1} (h : Agree a a') (h' : Agree c c') : Agree (add a c) (add a' c') := by
  obtain ⟨k, ha, ha'⟩ := h
  obtain ⟨l, hc, hc'⟩ := h'
  exact ⟨k + l, ha.add hc, ha'.add hc'⟩

theorem Agree.mul {a c : G1} (h : Agree a c) (n : ℤ) : Agree (mul a n) (mul c n) := by
  obtain ⟨k, ha, hc⟩ := h
  exact ⟨n * k, ha.mul n, hc.mul n⟩

theorem agree_msm {ts ts' : List (G1 × ℤ)} (h : List.Forall₂ AgreeTerm ts ts') : Agree (msm ts) (msm ts') := by
  refine List.rel_foldl ?_ (agree_self represents_infinity.onCurve) h
  rintro acc acc' hacc ⟨a, k⟩ ⟨c, _⟩ ⟨ha, rfl⟩
  exact hacc.add (ha.mul k)

theorem agree_zip {as cs : List G1} (h : List.Forall₂ Agree as cs) (ks : List ℤ) :
    List.Forall₂ AgreeTerm (as.zip ks) (cs.zip ks) := by
  induction h generalizing ks with
  | nil => exact .nil
  | cons ha _ ih =>
    cases ks with
    | nil => exact .nil
    | cons k ks => exact .cons ⟨ha, rfl⟩ (ih ks)

theorem agree_zip_self {as : List G1} (h : ∀ a ∈ as, onCurve a = true) (ks : List ℤ) :
    List.Forall₂ AgreeTerm (as.zip ks) (as.zip ks) :=
  agree_zip (List.forall₂_same.mpr fun a ha => agree_self (h a ha)) ks

theorem agree_getD {as cs : List G1} (h : List.Forall₂ Agree as cs) (i : ℕ) :
    Agree (as.getD i infinity) (cs.getD i infinity) := by
  induction h generalizing i with
  | nil => exact agree_self represents_infinity.onCurve
  | cons ha _ ih =>
    cases i with
    | zero => exact ha
    | succ i => exact ih i

end G1

end Bn254

end Settlement

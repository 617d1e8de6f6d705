import Mathlib
import Settlement.Proofs.Bn254.Scalar
import Settlement.Proofs.Curve.GroupLaw

namespace Settlement

namespace Bn254

theorem val_smul_natCast {A : Type} [AddCommGroup A] {g : A} (hr : r • g = 0) (n : ℕ) :
    (n : Fr).val • g = n • g := by
  rw [ZMod.val_natCast]
  conv_rhs => rw [← Nat.mod_add_div n r, add_smul, mul_comm, mul_smul, hr, smul_zero, add_zero]

theorem val_smul_intCast {A : Type} [AddCommGroup A] {g : A} (hr : r • g = 0) (n : ℤ) :
    (n : Fr).val • g = n • g := by
  rw [← natCast_zsmul, ZMod.val_intCast]
  conv_rhs => rw [← Int.emod_add_mul_ediv n r, add_smul, mul_comm, mul_smul, natCast_zsmul, hr, smul_zero, add_zero]

theorem val_smul_add {A : Type} [AddCommGroup A] {g : A} (hr : r • g = 0) (a b : Fr) :
    (a + b).val • g = a.val • g + b.val • g := by
  rw [← add_smul, ← val_smul_natCast hr (a.val + b.val), Nat.cast_add, ZMod.natCast_zmod_val,
    ZMod.natCast_zmod_val]

theorem val_smul_mul {A : Type} [AddCommGroup A] {g : A} (hr : r • g = 0) (a b : Fr) :
    (a * b).val • g = a.val • b.val • g := by
  rw [← mul_smul, ← val_smul_natCast hr (a.val * b.val), Nat.cast_mul, ZMod.natCast_zmod_val,
    ZMod.natCast_zmod_val]

theorem val_smul_neg {A : Type} [AddCommGroup A] {g : A} (hr : r • g = 0) (a : Fr) :
    (-a).val • g = -(a.val • g) := by
  rw [eq_neg_iff_add_eq_zero, ← val_smul_add hr, neg_add_cancel, ZMod.val_zero, zero_smul]

theorem val_smul_eq_zero_iff {A : Type} [AddCommGroup A] {g : A} (hr : r • g = 0) (hg : g ≠ 0) (a : Fr) :
    a.val • g = 0 ↔ a = 0 := by
  rw [← addOrderOf_dvd_iff_nsmul_eq_zero, addOrderOf_eq_prime hr hg, ← ZMod.natCast_eq_zero_iff,
    ZMod.natCast_zmod_val]

theorem val_smul_injective {A : Type} [AddCommGroup A] {g : A} (hr : r • g = 0) (hg : g ≠ 0) {a b : Fr}
    (h : a.val • g = b.val • g) : a = b := by
  rw [← sub_eq_zero, ← val_smul_eq_zero_iff hr hg, sub_eq_add_neg, val_smul_add hr, val_smul_neg hr, h,
    add_neg_cancel]

end Bn254

namespace Projective

open Bn254

variable {F : Type} [Field F] [DecidableEq F] {b : F} {g a c : Projective F} {k l : Fr}

structure Multiple (b : F) (g a : Projective F) (k : Fr) : Prop where
  onCurve : a.onCurve b = true
  toPoint_eq : toPoint b a = k.val • toPoint b g

namespace Multiple

theorem of_z_eq_zero (h : a.z = 0) : Multiple b g a 0 :=
  ⟨onCurve_of_z_eq_zero h, by rw [toPoint_of_z_eq_zero h, ZMod.val_zero, zero_smul]⟩

theorem self (hg : g.onCurve b = true) : Multiple b g g 1 :=
  ⟨hg, by rw [ZMod.val_one, one_smul]⟩

theorem unique (hr : r • toPoint b g = 0) (hg : toPoint b g ≠ 0) (ha : Multiple b g a k)
    (ha' : Multiple b g a l) : k = l :=
  val_smul_injective hr hg (ha.toPoint_eq.symm.trans ha'.toPoint_eq)

variable [(weierstrass b).IsElliptic]

theorem of_same (hc : Multiple b g c k) (haz : a.z ≠ 0) (hcz : c.z ≠ 0) (h : same a c = true) :
    Multiple b g a k := by
  obtain ⟨ha, hp⟩ := toPoint_of_same hc.onCurve haz hcz h
  exact ⟨ha, hp.trans hc.toPoint_eq⟩

theorem add (hr : r • toPoint b g = 0) (ha : Multiple b g a k) (hc : Multiple b g c l) :
    Multiple b g (Projective.add a c) (k + l) := by
  obtain ⟨hs, hp⟩ := toPoint_add ha.onCurve hc.onCurve
  exact ⟨hs, by rw [hp, ha.toPoint_eq, hc.toPoint_eq, val_smul_add hr]⟩

theorem neg (hr : r • toPoint b g = 0) (ha : Multiple b g a k) :
    Multiple b g (Projective.neg a) (-k) := by
  obtain ⟨hs, hp⟩ := toPoint_neg ha.onCurve
  exact ⟨hs, by rw [hp, ha.toPoint_eq, val_smul_neg hr]⟩

theorem scale (hr : r • toPoint b g = 0) (ha : Multiple b g a k) (n : ℕ) :
    Multiple b g (Projective.scale a n) (n * k) := by
  obtain ⟨hs, hp⟩ := toPoint_scale n ha.onCurve
  refine ⟨hs, ?_⟩
  have hk : r • k.val • toPoint b g = 0 := by rw [smul_comm, hr, smul_zero]
  rw [hp, ha.toPoint_eq, val_smul_mul hr, val_smul_natCast hk]

theorem z_eq_zero_iff (hr : r • toPoint b g = 0) (hg : toPoint b g ≠ 0) (ha : Multiple b g a k) :
    a.z = 0 ↔ k = 0 := by
  rw [← toPoint_eq_zero_iff ha.onCurve, ha.toPoint_eq, val_smul_eq_zero_iff hr hg]

end Multiple

end Projective

end Settlement

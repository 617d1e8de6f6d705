import Mathlib
import Settlement.Proofs.Bn254.Prime

namespace Settlement

theorem mul_powMod_sub_two {q x : ℕ} [hq : Fact q.Prime] (hx : ¬q ∣ x) :
    x * powMod x (q - 2) q % q = 1 := by
  have h1 : q - 2 + 1 = q - 1 := by have := hq.out.two_le; omega
  have hx0 : (x : ZMod q) ≠ 0 := by rwa [Ne, ZMod.natCast_eq_zero_iff]
  have hone := (cast_pow_eq_one_iff hq.out.one_lt x (q - 1)).mp (ZMod.pow_card_sub_one_eq_one hx0)
  rw [powMod_eq, Nat.pow_eq, ← h1, pow_succ'] at hone
  rwa [powMod_eq, Nat.pow_eq, Nat.mul_mod_mod]

namespace Bn254

namespace Fp

theorem mul_inv_eq_one {x : Fp} (hx : x ≠ 0) : x * x⁻¹ = 1 := by
  have hd : ¬p ∣ x.val := by
    intro h
    have h0 : x.val = 0 := Nat.eq_zero_of_dvd_of_lt h x.isLt
    exact hx (Fin.ext h0)
  apply Fin.ext
  change x.val * (powMod x.val (p - 2) p % p) % p = 1
  rw [Nat.mul_mod_mod, mul_powMod_sub_two hd]

end Fp

namespace Fields

scoped instance : CommRing Fp :=
  { Fin.instCommRing p with
    zero := 0
    one := 1 }

scoped instance : Field Fp :=
  { (inferInstance : CommRing Fp) with
    inv := fun x => x⁻¹
    div := fun x y => x * y⁻¹
    exists_pair_ne := ⟨0, 1, by decide⟩
    mul_inv_cancel := fun _ => Fp.mul_inv_eq_one
    inv_zero := by decide +kernel
    nnqsmul := _
    qsmul := _ }

end Fields

open scoped Fields

namespace Fp

theorem val_pow (x : Fp) (n : ℕ) : (x ^ n).val = powMod x.val n p := by
  rw [powMod_eq, Nat.pow_eq]
  induction n with
  | zero => rfl
  | succ n ih => rw [pow_succ, Fin.val_mul, ih, pow_succ, Nat.mod_mul_mod]

theorem sum_of_squares_eq_zero {x y : Fp} (h : x * x + y * y = 0) : x = 0 ∧ y = 0 := by
  have hns : ¬IsSquare (-1 : Fp) := by
    rw [FiniteField.isSquare_neg_one_iff, Fintype.card_fin]
    decide
  by_cases hy : y = 0
  · subst hy
    simpa using h
  · have hi := mul_inv_eq_one hy
    refine absurd ⟨x * y⁻¹, ?_⟩ hns
    linear_combination (-(y⁻¹ * y⁻¹)) * h + (y * y⁻¹ + 1) * hi

end Fp

namespace Fp2

@[simp] theorem zero_re : (0 : Fp2).re = 0 := rfl
@[simp] theorem zero_im : (0 : Fp2).im = 0 := rfl
@[simp] theorem one_re : (1 : Fp2).re = 1 := rfl
@[simp] theorem one_im : (1 : Fp2).im = 0 := rfl
@[simp] theorem add_re (a b : Fp2) : (a + b).re = a.re + b.re := rfl
@[simp] theorem add_im (a b : Fp2) : (a + b).im = a.im + b.im := rfl
@[simp] theorem sub_re (a b : Fp2) : (a - b).re = a.re - b.re := rfl
@[simp] theorem sub_im (a b : Fp2) : (a - b).im = a.im - b.im := rfl
@[simp] theorem neg_re (a : Fp2) : (-a).re = -a.re := rfl
@[simp] theorem neg_im (a : Fp2) : (-a).im = -a.im := rfl
@[simp] theorem mul_re (a b : Fp2) : (a * b).re = a.re * b.re - a.im * b.im := rfl
@[simp] theorem mul_im (a b : Fp2) : (a * b).im = a.re * b.im + a.im * b.re := rfl

theorem mul_inv_eq_one {a : Fp2} (ha : a ≠ 0) : a * a⁻¹ = 1 := by
  have hn : a.re * a.re + a.im * a.im ≠ 0 := by
    intro h
    obtain ⟨hr, hi⟩ := Fp.sum_of_squares_eq_zero h
    exact ha (Fp2.ext hr hi)
  have hone := Fp.mul_inv_eq_one hn
  apply Fp2.ext
  · change a.re * (a.re * _) - a.im * -(a.im * _) = 1
    linear_combination hone
  · change a.re * -(a.im * _) + a.im * (a.re * _) = 0
    ring

end Fp2

namespace Fields

scoped instance : CommRing Fp2 where
  add_assoc a b c := by ext1 <;> simp only [Fp2.add_re, Fp2.add_im] <;> ring
  zero_add a := by ext1 <;> simp
  add_zero a := by ext1 <;> simp
  add_comm a b := by ext1 <;> simp only [Fp2.add_re, Fp2.add_im] <;> ring
  mul_assoc a b c := by ext1 <;> simp only [Fp2.mul_re, Fp2.mul_im] <;> ring
  one_mul a := by ext1 <;> simp
  mul_one a := by ext1 <;> simp
  mul_comm a b := by ext1 <;> simp only [Fp2.mul_re, Fp2.mul_im] <;> ring
  left_distrib a b c := by
    ext1 <;> simp only [Fp2.mul_re, Fp2.mul_im, Fp2.add_re, Fp2.add_im] <;> ring
  right_distrib a b c := by
    ext1 <;> simp only [Fp2.mul_re, Fp2.mul_im, Fp2.add_re, Fp2.add_im] <;> ring
  zero_mul a := by ext1 <;> simp
  mul_zero a := by ext1 <;> simp
  neg_add_cancel a := by ext1 <;> simp
  sub_eq_add_neg a b := by
    ext1 <;> simp only [Fp2.sub_re, Fp2.sub_im, Fp2.add_re, Fp2.add_im, Fp2.neg_re, Fp2.neg_im] <;> ring
  nsmul := nsmulRec
  zsmul := zsmulRec

scoped instance : Field Fp2 :=
  { (inferInstance : CommRing Fp2) with
    inv := fun a => a⁻¹
    div := fun a b => a * b⁻¹
    exists_pair_ne := ⟨0, 1, by decide⟩
    mul_inv_cancel := fun _ => Fp2.mul_inv_eq_one
    inv_zero := by decide +kernel
    nnqsmul := _
    qsmul := _ }

end Fields

namespace Fp6

theorem timesXi_eq (a : Fp2) : a.timesXi = ⟨9, 1⟩ * a := by
  ext1
  · simp [Fp2.timesXi]
  · simp [Fp2.timesXi]; ring

@[simp] theorem one_c0 : (1 : Fp6).c0 = 1 := rfl
@[simp] theorem one_c1 : (1 : Fp6).c1 = 0 := rfl
@[simp] theorem one_c2 : (1 : Fp6).c2 = 0 := rfl
@[simp] theorem zero_c0 : (0 : Fp6).c0 = 0 := rfl
@[simp] theorem zero_c1 : (0 : Fp6).c1 = 0 := rfl
@[simp] theorem zero_c2 : (0 : Fp6).c2 = 0 := rfl
@[simp] theorem add_c0 (a b : Fp6) : (a + b).c0 = a.c0 + b.c0 := rfl
@[simp] theorem add_c1 (a b : Fp6) : (a + b).c1 = a.c1 + b.c1 := rfl
@[simp] theorem add_c2 (a b : Fp6) : (a + b).c2 = a.c2 + b.c2 := rfl
@[simp] theorem sub_c0 (a b : Fp6) : (a - b).c0 = a.c0 - b.c0 := rfl
@[simp] theorem sub_c1 (a b : Fp6) : (a - b).c1 = a.c1 - b.c1 := rfl
@[simp] theorem sub_c2 (a b : Fp6) : (a - b).c2 = a.c2 - b.c2 := rfl

theorem mul_c0 (a b : Fp6) :
    (a * b).c0 = a.c0 * b.c0 + ⟨9, 1⟩ * (a.c1 * b.c2 + a.c2 * b.c1) := by
  change _ + Fp2.timesXi _ = _
  rw [timesXi_eq]
  ring

theorem mul_c1 (a b : Fp6) :
    (a * b).c1 = a.c0 * b.c1 + a.c1 * b.c0 + ⟨9, 1⟩ * (a.c2 * b.c2) := by
  change _ + Fp2.timesXi _ = _
  rw [timesXi_eq]
  ring

theorem mul_c2 (a b : Fp6) : (a * b).c2 = a.c0 * b.c2 + a.c1 * b.c1 + a.c2 * b.c0 := by
  change (a.c0 + a.c2) * (b.c0 + b.c2) - a.c0 * b.c0 - a.c2 * b.c2 + a.c1 * b.c1 = _
  ring

end Fp6

namespace Fields

scoped instance : Neg Fp6 := ⟨fun a => ⟨-a.c0, -a.c1, -a.c2⟩⟩

scoped instance : CommRing Fp6 where
  add_assoc a b c := by ext1 <;> exact add_assoc _ _ _
  zero_add a := by ext1 <;> exact zero_add _
  add_zero a := by ext1 <;> exact add_zero _
  add_comm a b := by ext1 <;> exact add_comm _ _
  mul_assoc a b c := by ext1 <;> simp only [Fp6.mul_c0, Fp6.mul_c1, Fp6.mul_c2] <;> ring
  one_mul a := by ext1 <;> simp [Fp6.mul_c0, Fp6.mul_c1, Fp6.mul_c2]
  mul_one a := by ext1 <;> simp [Fp6.mul_c0, Fp6.mul_c1, Fp6.mul_c2]
  mul_comm a b := by ext1 <;> simp only [Fp6.mul_c0, Fp6.mul_c1, Fp6.mul_c2] <;> ring
  left_distrib a b c := by
    ext1 <;> simp only [Fp6.mul_c0, Fp6.mul_c1, Fp6.mul_c2, Fp6.add_c0, Fp6.add_c1, Fp6.add_c2] <;> ring
  right_distrib a b c := by
    ext1 <;> simp only [Fp6.mul_c0, Fp6.mul_c1, Fp6.mul_c2, Fp6.add_c0, Fp6.add_c1, Fp6.add_c2] <;> ring
  zero_mul a := by ext1 <;> simp [Fp6.mul_c0, Fp6.mul_c1, Fp6.mul_c2]
  mul_zero a := by ext1 <;> simp [Fp6.mul_c0, Fp6.mul_c1, Fp6.mul_c2]
  neg_add_cancel a := by ext1 <;> exact neg_add_cancel _
  sub_eq_add_neg a b := by ext1 <;> exact sub_eq_add_neg _ _
  nsmul := nsmulRec
  zsmul := zsmulRec

end Fields

namespace Fp12

theorem timesV_eq (a : Fp6) : a.timesV = ⟨0, 1, 0⟩ * a := by
  ext1 <;> simp [Fp6.timesV, Fp6.mul_c0, Fp6.mul_c1, Fp6.mul_c2, Fp6.timesXi_eq]

theorem mul_c0 (a b : Fp12) : (a * b).c0 = a.c0 * b.c0 + ⟨0, 1, 0⟩ * (a.c1 * b.c1) := by
  rw [← timesV_eq]
  rfl

theorem mul_c1 (a b : Fp12) : (a * b).c1 = a.c0 * b.c1 + a.c1 * b.c0 := by
  change (a.c0 + a.c1) * (b.c0 + b.c1) - a.c0 * b.c0 - a.c1 * b.c1 = _
  ring

@[simp] theorem one_c0 : (1 : Fp12).c0 = 1 := rfl
@[simp] theorem one_c1 : (1 : Fp12).c1 = 0 := rfl

end Fp12

namespace Fields

scoped instance : CommMonoid Fp12 where
  mul_assoc a b c := by ext1 <;> simp only [Fp12.mul_c0, Fp12.mul_c1] <;> ring
  one_mul a := by ext1 <;> simp [Fp12.mul_c0, Fp12.mul_c1]
  mul_one a := by ext1 <;> simp [Fp12.mul_c0, Fp12.mul_c1]
  mul_comm a b := by ext1 <;> simp only [Fp12.mul_c0, Fp12.mul_c1] <;> ring

end Fields

theorem Fp12.pow_eq (a : Fp12) (n : ℕ) : a.pow n = a ^ n := by
  induction n using Nat.strong_induction_on generalizing a with
  | _ n ih =>
    rw [Fp12.pow]
    by_cases h0 : n = 0
    · simp [h0]
    have hh := ih (n / 2) (by omega) (a * a)
    rw [← pow_two, ← pow_mul] at hh
    simp only [h0, ↓reduceIte, ← pow_two, hh]
    split
    · rw [← pow_succ']
      congr 1
      omega
    · congr 1
      omega

end Bn254

end Settlement

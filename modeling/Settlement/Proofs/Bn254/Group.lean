import Mathlib
import Settlement.Bn254.Group
import Settlement.Proofs.Bn254.Tower
import Settlement.Proofs.Curve.Multiple

namespace Settlement.Bn254

open Projective WeierstrassCurve
open scoped Fields

theorem cube_ne_of_pow_ne_one {F : Type} [Field F] [Fintype F] {n : ℕ} {c : F}
    (hn : Fintype.card F = 3 * n + 1) (hc : c ≠ 0) (hpow : c ^ n ≠ 1) (x : F) : x ^ 3 ≠ c := by
  rintro rfl
  have hx : x ≠ 0 := by
    rintro rfl
    exact hc (zero_pow three_ne_zero)
  apply hpow
  rw [← pow_mul, ← FiniteField.pow_card_sub_one_eq_one x hx, hn, Nat.add_sub_cancel]

namespace G1

instance : (weierstrass b).IsElliptic :=
  ⟨by rw [delta_weierstrass, isUnit_iff_ne_zero]; decide +kernel⟩

theorem onCurve_generator : onCurve generator = true := by decide +kernel

theorem order_generator : r • toPoint b generator = 0 := by
  have hz : (Projective.scale generator r).z = 0 := by decide +kernel
  rw [← (toPoint_scale r onCurve_generator).2, toPoint_of_z_eq_zero hz]

theorem generator_ne_zero : toPoint b generator ≠ 0 := by
  rw [Ne, toPoint_eq_zero_iff onCurve_generator]
  decide +kernel

theorem addOrderOf_generator : addOrderOf (toPoint b generator) = r :=
  addOrderOf_eq_prime order_generator generator_ne_zero

theorem cube_ne (x : Fp) : x ^ 3 ≠ -b := by
  have hcard : Fintype.card Fp = 3 * ((p - 1) / 3) + 1 := (Fintype.card_fin p).trans (by norm_num)
  have hpow : (-b) ^ ((p - 1) / 3) ≠ 1 := by
    intro h
    have hne : powMod (-b).val ((p - 1) / 3) p ≠ 1 := by decide +kernel
    exact hne (by rw [← Fp.val_pow, h]; rfl)
  exact cube_ne_of_pow_ne_one hcard (by decide +kernel) hpow x

theorem card_eq : Nat.card (weierstrass b).Point = r := by
  obtain ⟨m, hm⟩ : r ∣ Nat.card (weierstrass b).Point := by
    rw [← addOrderOf_generator]
    exact addOrderOf_dvd_natCard _
  have hle : Nat.card (weierstrass b).Point ≤ 2 * p + 1 := by
    simpa only [Fintype.card_fin] using card_point_le (b := b)
  have hpos : 0 < Nat.card (weierstrass b).Point := Nat.card_pos
  have hm0 : m ≠ 0 := by
    rintro rfl
    omega
  have hm3 : m < 3 := by
    by_contra h
    have h3 : r * 3 ≤ r * m := Nat.mul_le_mul_left r (by omega)
    have hlt : 2 * p + 1 < r * 3 := by norm_num [r]
    omega
  have hm2 : m ≠ 2 := by
    rintro rfl
    obtain ⟨a, ha⟩ := exists_prime_addOrderOf_dvd_card' 2 (Dvd.intro_left r hm.symm)
    have ha0 : a ≠ 0 := by
      rintro rfl
      simp at ha
    exact two_smul_ne_zero cube_ne ha0 (ha ▸ addOrderOf_nsmul_eq_zero a)
  obtain rfl : m = 1 := by omega
  rw [hm, mul_one]

theorem exists_multiple (a : (weierstrass b).Point) : ∃ k : Fr, a = k.val • toPoint b generator := by
  have hmem : a ∈ AddSubmonoid.multiples (toPoint b generator) :=
    mem_multiples_of_prime_card card_eq generator_ne_zero
  obtain ⟨n, rfl⟩ := hmem
  exact ⟨n, (val_smul_natCast order_generator n).symm⟩

abbrev Represents (a : G1) (k : Fr) : Prop := Multiple b generator a k

noncomputable def log (a : G1) : Fr := (exists_multiple (toPoint b a)).choose

theorem represents_log {a : G1} (ha : onCurve a = true) : Represents a (log a) :=
  ⟨ha, (exists_multiple (toPoint b a)).choose_spec⟩

theorem represents_generator : Represents generator 1 := Multiple.self onCurve_generator

theorem represents_infinity : Represents infinity 0 := Multiple.of_z_eq_zero rfl

section Represents

variable {a c : G1} {k l : Fr}

theorem Represents.onCurve (ha : Represents a k) : G1.onCurve a = true := Multiple.onCurve ha

theorem Represents.log_eq (ha : Represents a k) : log a = k :=
  Multiple.unique order_generator generator_ne_zero (represents_log ha.onCurve) ha

theorem Represents.isInfinity_iff (ha : Represents a k) : isInfinity a = true ↔ k = 0 := by
  rw [← Multiple.z_eq_zero_iff order_generator generator_ne_zero ha]
  exact Projective.isInfinity_iff a

theorem Represents.add (ha : Represents a k) (hc : Represents c l) : Represents (add a c) (k + l) := by
  -- each branch of the addition gives the sum: infinity on either side, one point twice, and two points
  unfold G1.add
  split_ifs with hai hci hsame
  · rwa [ha.isInfinity_iff.mp hai, zero_add]
  · rwa [hc.isInfinity_iff.mp hci, add_zero]
  · rw [isInfinity, Projective.isInfinity_iff] at hai hci
    rw [← Projective.add_of_same hai hci hsame]
    exact Multiple.add order_generator ha hc
  · exact Multiple.add order_generator ha hc

theorem Represents.neg (ha : Represents a k) : Represents (neg a) (-k) := by
  unfold G1.neg
  split_ifs with hai
  · rwa [ha.isInfinity_iff.mp hai, neg_zero, ← ha.isInfinity_iff.mp hai]
  · exact Multiple.neg order_generator ha

theorem Represents.mul (ha : Represents a k) (n : ℤ) : Represents (mul a n) (n * k) := by
  unfold G1.mul
  rw [← Scalar.cast_emod_toNat n]
  dsimp only
  split_ifs with h
  · have hzero : (((n % r).toNat : ℕ) : Fr) * k = 0 := by
      obtain hn | hai := h
      · rw [hn, Nat.cast_zero, zero_mul]
      · rw [ha.isInfinity_iff.mp hai, mul_zero]
    rw [hzero]
    exact represents_infinity
  · exact Multiple.scale order_generator ha _

end Represents

theorem onCurve_add {a c : G1} (ha : onCurve a = true) (hc : onCurve c = true) :
    onCurve (add a c) = true :=
  ((represents_log ha).add (represents_log hc)).onCurve

theorem onCurve_mul {a : G1} (ha : onCurve a = true) (n : ℤ) : onCurve (mul a n) = true :=
  ((represents_log ha).mul n).onCurve

theorem onCurve_msm {ts : List (G1 × ℤ)} (hts : ∀ t ∈ ts, onCurve t.1 = true) :
    onCurve (msm ts) = true := by
  suffices h : ∀ acc, onCurve acc = true →
      onCurve (ts.foldl (fun acc t => G1.add acc (G1.mul t.1 t.2)) acc) = true from
    h _ represents_infinity.onCurve
  induction ts with
  | nil => exact fun _ hacc => hacc
  | cons t ts ih =>
    intro acc hacc
    rw [List.forall_mem_cons] at hts
    exact ih hts.2 _ (onCurve_add hacc (onCurve_mul hts.1 t.2))

theorem map_msm {A : Type} [AddCommGroup A] {φ : G1 → A} (hinfinity : φ infinity = 0)
    (hadd : ∀ {a c : G1}, onCurve a = true → onCurve c = true → φ (add a c) = φ a + φ c)
    (hmul : ∀ {a : G1}, onCurve a = true → ∀ k : ℤ, φ (mul a k) = k • φ a)
    {ts : List (G1 × ℤ)} (hts : ∀ t ∈ ts, onCurve t.1 = true) :
    φ (msm ts) = (ts.map fun t => t.2 • φ t.1).sum := by
  suffices h : ∀ acc, onCurve acc = true →
      φ (ts.foldl (fun acc t => add acc (mul t.1 t.2)) acc) = φ acc + (ts.map fun t => t.2 • φ t.1).sum by
    rw [msm, h _ represents_infinity.onCurve, hinfinity, zero_add]
  induction ts with
  | nil => exact fun _ _ => (add_zero _).symm
  | cons t ts ih =>
    intro acc hacc
    rw [List.forall_mem_cons] at hts
    have ht := onCurve_mul hts.1 t.2
    rw [List.foldl_cons, ih hts.2 _ (onCurve_add hacc ht), hadd hacc ht, hmul hts.1, List.map_cons, List.sum_cons,
      add_assoc]

structure Logarithm (φ : G1 → Fr) : Prop where
  add : ∀ {a c : G1}, onCurve a = true → onCurve c = true → φ (G1.add a c) = φ a + φ c
  mul : ∀ {a : G1} (k : ℤ), onCurve a = true → φ (G1.mul a k) = k * φ a

theorem logarithm_log : Logarithm log where
  add ha hc := ((represents_log ha).add (represents_log hc)).log_eq
  mul k ha := ((represents_log ha).mul k).log_eq

theorem Logarithm.infinity {φ : G1 → Fr} (hφ : Logarithm φ) : φ G1.infinity = 0 := by
  have h := hφ.mul 0 represents_infinity.onCurve
  rwa [show G1.mul G1.infinity 0 = G1.infinity by decide +kernel, Int.cast_zero, zero_mul] at h

theorem Logarithm.msm {φ : G1 → Fr} (hφ : Logarithm φ) {ts : List (G1 × ℤ)}
    (hts : ∀ t ∈ ts, onCurve t.1 = true) :
    φ (G1.msm ts) = (ts.map fun t => (t.2 : Fr) * φ t.1).sum := by
  have hmul {a : G1} (ha : onCurve a = true) (k : ℤ) : φ (G1.mul a k) = k • φ a := by
    rw [hφ.mul k ha, zsmul_eq_mul]
  simpa only [zsmul_eq_mul] using map_msm hφ.infinity hφ.add hmul hts

end G1

namespace G2

instance : (weierstrass b).IsElliptic :=
  ⟨by rw [delta_weierstrass, isUnit_iff_ne_zero]; decide +kernel⟩

theorem onCurve_generator : onCurve generator = true := by decide +kernel

theorem order_generator : r • toPoint b generator = 0 := by
  have hz : (Projective.scale generator r).z = 0 := by decide +kernel
  rw [← (toPoint_scale r onCurve_generator).2, toPoint_of_z_eq_zero hz]

theorem generator_ne_zero : toPoint b generator ≠ 0 := by
  rw [Ne, toPoint_eq_zero_iff onCurve_generator]
  decide +kernel

abbrev Represents (a : G2) (k : Fr) : Prop := Multiple b generator a k

theorem represents_generator : Represents generator 1 := Multiple.self onCurve_generator

theorem represents_infinity : Represents infinity 0 := Multiple.of_z_eq_zero rfl

theorem Represents.mul {a : G2} {k : Fr} (ha : Represents a k) (n : ℤ) : Represents (mul a n) (n * k) := by
  rw [← Scalar.cast_emod_toNat n]
  exact Multiple.scale order_generator ha _

theorem Represents.of_same {a c : G2} {k : Fr} (hc : c.Represents k) (ha : isInfinity a = false)
    (hci : isInfinity c = false) (h : Projective.same a c = true) : a.Represents k := by
  rw [isInfinity, Bool.eq_false_iff, Ne, Projective.isInfinity_iff] at ha hci
  exact Multiple.of_same hc ha hci h

theorem Represents.isInfinity_iff {a : G2} {k : Fr} (ha : Represents a k) : isInfinity a = true ↔ k = 0 := by
  rw [← Multiple.z_eq_zero_iff order_generator generator_ne_zero ha]
  exact Projective.isInfinity_iff a

end G2

end Settlement.Bn254

import Mathlib
import Settlement.Bn254.Pairing
import Settlement.Proofs.Bn254.Group

namespace Settlement.Bn254

open scoped Fields

variable [PairingSteps]

def PairingSteps.pairing (a : G1) (c : G2) : Fp12 := finalExp (miller a c)

open PairingSteps

/-- The exponentiation respects products, and the pairing is bilinear and non-degenerate on the
multiples of the generators. -/
class PairingSteps.Lawful : Prop where
  finalExp_one : finalExp 1 = 1
  finalExp_mul : ∀ f h : Fp12, finalExp (f * h) = finalExp f * finalExp h
  pairing_add_left : ∀ {a a' s : G1} {c : G2} {k k' l : Fr}, a.Represents k → a'.Represents k' →
    s.Represents (k + k') → c.Represents l → pairing s c = pairing a c * pairing a' c
  pairing_add_right : ∀ {a : G1} {c c' s : G2} {k l l' : Fr}, a.Represents k → c.Represents l →
    c'.Represents l' → s.Represents (l + l') → pairing a s = pairing a c * pairing a c'
  pairing_infinity_left : ∀ {c : G2} {l : Fr}, c.Represents l → pairing G1.infinity c = 1
  pairing_infinity_right : ∀ {a : G1} {k : Fr}, a.Represents k → pairing a G2.infinity = 1
  pairing_generators : pairing G1.generator G2.generator ≠ 1

namespace Pairing

theorem millerProduct_isOk {pairs : List (G1 × G2)}
    (h : ∀ t ∈ pairs, G1.onCurve t.1 = true ∧ G2.onCurve t.2 = true) : ∃ m, millerProduct pairs = .ok m := by
  induction pairs with
  | nil => exact ⟨1, rfl⟩
  | cons t rest ih =>
    obtain ⟨a, c⟩ := t
    obtain ⟨⟨ha, hc⟩, hrest⟩ := List.forall_mem_cons.mp h
    obtain ⟨m, hm⟩ := ih hrest
    by_cases hinf : (G1.isInfinity a || G2.isInfinity c) = true
    · exact ⟨m, by rw [millerProduct, if_pos hinf, hm]⟩
    · refine ⟨PairingSteps.miller a c * m, ?_⟩
      simp only [millerProduct, hinf, ha, hc, hm, Bool.false_eq_true, not_true_eq_false, ↓reduceIte]
      rfl

theorem checkProduct_isOk {pairs : List (G1 × G2)}
    (h : ∀ t ∈ pairs, G1.onCurve t.1 = true ∧ G2.onCurve t.2 = true) : ∃ b, checkProduct pairs = .ok b := by
  obtain ⟨m, hm⟩ := millerProduct_isOk h
  rw [checkProduct, hm]
  exact ⟨_, rfl⟩

variable [Lawful]

def base : Fp12 := pairing G1.generator G2.generator

theorem pairing_left {a : G1} {c : G2} {n : ℕ} {l : Fr} (ha : a.Represents n) (hc : c.Represents l) :
    pairing a c = pairing G1.generator c ^ n := by
  induction n generalizing a with
  | zero =>
    have hinf := G1.represents_infinity
    rw [Nat.cast_zero] at ha
    rw [Lawful.pairing_add_left hinf hinf (by rwa [add_zero]) hc, Lawful.pairing_infinity_left hc,
      mul_one, pow_zero]
  | succ n ih =>
    have hn : (G1.mul G1.generator n).Represents n := by simpa using G1.represents_generator.mul n
    rw [Nat.cast_succ] at ha
    rw [Lawful.pairing_add_left hn G1.represents_generator ha hc, ih hn, pow_succ]

theorem pairing_right {c : G2} {n : ℕ} (hc : c.Represents n) : pairing G1.generator c = base ^ n := by
  have hg := G1.represents_generator
  induction n generalizing c with
  | zero =>
    have hinf := G2.represents_infinity
    rw [Nat.cast_zero] at hc
    rw [Lawful.pairing_add_right hg hinf hinf (by rwa [add_zero]), Lawful.pairing_infinity_right hg,
      mul_one, pow_zero]
  | succ n ih =>
    have hn : (G2.mul G2.generator n).Represents n := by simpa using G2.represents_generator.mul n
    rw [Nat.cast_succ] at hc
    rw [Lawful.pairing_add_right hg hn G2.represents_generator hc, ih hn, pow_succ, base]

theorem base_pow_r : base ^ r = 1 := by
  have hr : G2.infinity.Represents ((r : ℕ) : Fr) := by
    rw [ZMod.natCast_self]
    exact G2.represents_infinity
  rw [← pairing_right hr, Lawful.pairing_infinity_right G1.represents_generator]

theorem orderOf_base : orderOf base = r :=
  orderOf_eq_prime base_pow_r Lawful.pairing_generators

def power (k : Fr) : Fp12 := base ^ k.val

theorem power_natCast (n : ℕ) : power n = base ^ n := by
  rw [power, ZMod.val_natCast, ← orderOf_base, pow_mod_orderOf]

theorem power_add (k l : Fr) : power (k + l) = power k * power l := by
  calc power (k + l) = power ((k.val + l.val : ℕ) : Fr) := by
        rw [Nat.cast_add, ZMod.natCast_zmod_val, ZMod.natCast_zmod_val]
    _ = power k * power l := by rw [power_natCast, pow_add, power, power]

theorem power_eq_one_iff (k : Fr) : power k = 1 ↔ k = 0 := by
  rw [power, ← orderOf_dvd_iff_pow_eq_one, orderOf_base, ← ZMod.natCast_eq_zero_iff, ZMod.natCast_zmod_val]

theorem pairing_eq {a : G1} {c : G2} {k l : Fr} (ha : a.Represents k) (hc : c.Represents l) :
    pairing a c = power (k * l) := by
  rw [← ZMod.natCast_zmod_val k] at ha
  have hc' := hc
  rw [← ZMod.natCast_zmod_val l] at hc'
  rw [pairing_left ha hc, pairing_right hc', ← pow_mul, ← power_natCast, Nat.cast_mul,
    ZMod.natCast_zmod_val, ZMod.natCast_zmod_val, mul_comm]

def PairRepresents (pair : G1 × G2) (scalars : Fr × Fr) : Prop :=
  pair.1.Represents scalars.1 ∧ pair.2.Represents scalars.2

theorem millerProduct_ok {pairs : List (G1 × G2)} {scalars : List (Fr × Fr)}
    (h : List.Forall₂ PairRepresents pairs scalars) :
    ∃ m, millerProduct pairs = .ok m ∧ PairingSteps.finalExp m = power (scalars.map fun s => s.1 * s.2).sum := by
  induction h with
  | nil => exact ⟨1, rfl, Lawful.finalExp_one.trans (power_eq_one_iff 0 |>.mpr rfl).symm⟩
  | @cons pair s rest scalars hpair _ ih =>
    obtain ⟨m, hm, hexp⟩ := ih
    obtain ⟨a, c⟩ := pair
    obtain ⟨ha, hc⟩ := hpair
    rw [List.map_cons, List.sum_cons]
    by_cases hinf : (G1.isInfinity a || G2.isInfinity c) = true
    · -- a pair that is passed over has a scalar zero
      have hzero : s.1 * s.2 = 0 := by
        rw [Bool.or_eq_true, ha.isInfinity_iff, hc.isInfinity_iff] at hinf
        exact mul_eq_zero.mpr hinf
      exact ⟨m, by rw [millerProduct, if_pos hinf, hm], by rw [hzero, zero_add, hexp]⟩
    · have ha' : G1.onCurve a = true := ha.onCurve
      have hc' : G2.onCurve c = true := hc.onCurve
      refine ⟨PairingSteps.miller a c * m, ?_, ?_⟩
      · simp only [millerProduct, hinf, ha', hc', hm, Bool.false_eq_true, not_true_eq_false, ↓reduceIte]
        rfl
      · rw [Lawful.finalExp_mul, hexp, power_add, ← pairing_eq ha hc, pairing]

theorem checkProduct_ok {pairs : List (G1 × G2)} {scalars : List (Fr × Fr)}
    (h : List.Forall₂ PairRepresents pairs scalars) :
    checkProduct pairs = .ok (decide ((scalars.map fun s => s.1 * s.2).sum = 0)) := by
  obtain ⟨m, hm, hexp⟩ := millerProduct_ok h
  simp only [checkProduct, hm, hexp, power_eq_one_iff, bind, Except.bind, pure, Except.pure]

end Pairing

end Settlement.Bn254

import Mathlib
import Settlement.Proofs.Bn254.Pairing

/-!
A pairing by logarithms: the value that the ate pairing has at the generators, to the power of the
product of both logarithms.
-/

namespace Settlement.Bn254

open scoped Fields

open Classical in
noncomputable def G2.log (a : G2) : Fr := if h : ∃ k, G2.Represents a k then h.choose else 0

theorem G2.Represents.log_eq {a : G2} {k : Fr} (ha : a.Represents k) : G2.log a = k := by
  have h : ∃ k, G2.Represents a k := ⟨k, ha⟩
  rw [G2.log, dif_pos h]
  exact Projective.Multiple.unique G2.order_generator G2.generator_ne_zero h.choose_spec ha

namespace Pairing

def ateBase : Fp12 :=
  ⟨⟨⟨8493334370784016972005089913588211327688223499729897951716206968320726508021,
      3758435817766288188804561253838670030762970764366672594784247447067868088068⟩,
     ⟨6565798094314091391201231504228224566495939541538094766881371862976727043038,
      14656606573936501743457633041048024656612227301473084805627390748872617280984⟩,
     ⟨634997487638609332803583491743335852620873788902390365055086820718589720118,
      19455424343576886430889849773367397946457449073528455097210946839000147698372⟩⟩,
   ⟨⟨20049218015652006197026173611347504489508678646783216776320737476707192559881,
      18059168546148152671857026372711724379319778306792011146784665080987064164612⟩,
     ⟨12145052038566888241256672223106590273978429515702193755778990643425246950730,
      17918828665069491344039743589118342552553375221610735811112289083834142789347⟩,
     ⟨6223602427219597392892794664899549544171383137467762280768257680446283161705,
      7484542354754424633621663080190936924481536615300815203692506276894207018007⟩⟩⟩

theorem ateBase_pow_r : ateBase ^ r = 1 := by
  rw [← Fp12.pow_eq]
  decide +kernel

theorem ateBase_ne_one : ateBase ≠ 1 := by decide +kernel

def finalExponent : ℕ := (Nat.pow p 12 - 1) / r

theorem finalExp_eq (f : Fp12) : finalExp f = f ^ finalExponent := Fp12.pow_eq _ _

theorem finalExponent_ne_zero : (finalExponent : Fr) ≠ 0 := by
  rw [Ne, ZMod.natCast_eq_zero_iff]
  decide +kernel

noncomputable def discreteMiller (k : Fr) : Fp12 := ateBase ^ ((finalExponent : Fr)⁻¹ * k).val

@[reducible] noncomputable def discrete : PairingSteps where
  miller a c := discreteMiller (G1.log a * G2.log c)
  finalExp := finalExp

theorem finalExp_discrete (f : Fp12) : @PairingSteps.finalExp discrete f = f ^ finalExponent :=
  finalExp_eq f

theorem miller_discrete (a : G1) (c : G2) :
    @PairingSteps.miller discrete a c = discreteMiller (G1.log a * G2.log c) := rfl

theorem discreteMiller_pow (k : Fr) : discreteMiller k ^ finalExponent = ateBase ^ k.val := by
  have hcast : ((((finalExponent : Fr)⁻¹ * k).val * finalExponent : ℕ) : Fr) = (k.val : ℕ) := by
    rw [Nat.cast_mul, ZMod.natCast_zmod_val, ZMod.natCast_zmod_val, mul_right_comm,
      inv_mul_cancel₀ finalExponent_ne_zero, one_mul]
  have hmod := (ZMod.natCast_eq_natCast_iff' _ _ r).mp hcast
  rw [discreteMiller, ← pow_mul, pow_eq_pow_mod _ ateBase_pow_r, hmod,
    ← pow_eq_pow_mod _ ateBase_pow_r]

theorem ateBase_pow_add (k l : Fr) : ateBase ^ (k + l).val = ateBase ^ k.val * ateBase ^ l.val := by
  rw [ZMod.val_add, ← pow_eq_pow_mod _ ateBase_pow_r, pow_add]

theorem pairing_discrete (a : G1) (c : G2) :
    @PairingSteps.pairing discrete a c = ateBase ^ (G1.log a * G2.log c).val := by
  unfold PairingSteps.pairing
  rw [finalExp_discrete, miller_discrete, discreteMiller_pow]

theorem lawful_discrete : @PairingSteps.Lawful discrete :=
  letI := discrete
  { finalExp_one := by rw [finalExp_discrete, one_pow]
    finalExp_mul := fun f h => by
      rw [finalExp_discrete, finalExp_discrete, finalExp_discrete, mul_pow]
    pairing_add_left := fun ha ha' hs _ => by
      rw [pairing_discrete, pairing_discrete, pairing_discrete, hs.log_eq, ha.log_eq, ha'.log_eq, add_mul,
        ateBase_pow_add]
    pairing_add_right := fun _ hc hc' hs => by
      rw [pairing_discrete, pairing_discrete, pairing_discrete, hs.log_eq, hc.log_eq, hc'.log_eq, mul_add,
        ateBase_pow_add]
    pairing_infinity_left := fun _ => by
      rw [pairing_discrete, G1.represents_infinity.log_eq, zero_mul, ZMod.val_zero, pow_zero]
    pairing_infinity_right := fun _ => by
      rw [pairing_discrete, G2.represents_infinity.log_eq, mul_zero, ZMod.val_zero, pow_zero]
    pairing_generators := by
      rw [pairing_discrete, G1.represents_generator.log_eq, G2.represents_generator.log_eq, mul_one,
        ZMod.val_one, pow_one]
      exact ateBase_ne_one }

end Pairing

end Settlement.Bn254

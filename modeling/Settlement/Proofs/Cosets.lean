import Mathlib
import Settlement.Proofs.Verifier.Linearization

/-!
The labels of the cells: the elements of the domain, shifted for each wire. The check of a key compares
the shifts themselves, while labels of two wires differ exactly if the `n`-th powers of the shifts do.
-/

namespace Settlement

open Bn254

namespace Key

def shift (key : Key) (j : Fin 4) : Fr := ((key.shifts.getD j 0 : ℤ) : Fr)

def label (key : Key) (j : Fin 4) (i : ℕ) : Fr := key.shift j * key.domain.node i

def Distinct (key : Key) : Prop :=
  ∀ j j', ∀ i < key.domain.size, ∀ i' < key.domain.size, key.label j i = key.label j' i' → j = j' ∧ i = i'

theorem length_shifts (key : Key) : key.shifts.length = 4 := by
  rw [shifts, List.length_cons, Vector.length_toList]

theorem shift_eq (key : Key) (j : Fin 4) :
    key.shift j = (key.shifts.get (j.cast key.length_shifts.symm) : ℤ) := by
  rw [shift, List.getD_eq_getElem _ _ (j.isLt.trans_eq key.length_shifts.symm)]
  rfl

theorem identityProduct_node (key : Key) (ch : Challenges) (v : Constraints.Row Fr) {i : ℕ}
    (hv : v.point = key.domain.node i) :
    Constraints.identityProduct (.of key ch) v =
      ∏ j : Fin 4, (![v.a, v.b, v.c, v.d] j + ch.beta * key.label j i + ch.gamma) := by
  have hshift : key.shift = ![1, (key.nonResidues.get 0 : Fr), (key.nonResidues.get 1 : Fr),
      (key.nonResidues.get 2 : Fr)] := by
    funext j
    rw [shift, Linearization.shifts_eq]
    fin_cases j <;> simp
  simp only [Constraints.identityProduct, Constraints.Setting.of, hv, Fin.prod_univ_four, label, hshift]
  simp [mul_assoc]

section

variable {key : Key} (hkey : key.WellFormed)

include hkey

theorem shift_ne_zero (j : Fin 4) : key.shift j ≠ 0 := by
  have hshifts := hkey.shifts
  simp only [validShifts, Bool.and_eq_true, List.all_eq_true, bne_iff_ne] at hshifts
  rw [shift_eq]
  obtain ⟨hcanonical, hne⟩ := hshifts.1 _ (List.get_mem key.shifts (j.cast key.length_shifts.symm))
  rwa [Ne, ← Scalar.emod_eq_zero_iff, Scalar.emod_of_isCanonical hcanonical]

theorem shift_injective : Function.Injective key.shift := by
  have hshifts := hkey.shifts
  simp only [validShifts, Bool.and_eq_true, List.all_eq_true, decide_eq_true_eq] at hshifts
  intro j j' h
  rw [shift_eq, shift_eq, ← Scalar.emod_eq_iff,
    Scalar.emod_of_isCanonical (hshifts.1 _ (List.get_mem ..)).1,
    Scalar.emod_of_isCanonical (hshifts.1 _ (List.get_mem ..)).1] at h
  exact Fin.cast_injective _ (List.nodup_iff_injective_get.mp hshifts.2 h)

theorem label_pow (j : Fin 4) (i : ℕ) : key.label j i ^ key.domain.size = key.shift j ^ key.domain.size := by
  rw [label, mul_pow, hkey.domain.node_pow, mul_one]

theorem label_injOn (j : Fin 4) : Set.InjOn (key.label j) (Finset.range key.domain.size) := by
  intro i hi i' hi' h
  exact hkey.domain.node_injOn hi hi' (mul_left_cancel₀ (shift_ne_zero hkey j) h)

theorem label_injective (i : ℕ) : Function.Injective fun j => key.label j i := by
  intro j j' h
  exact shift_injective hkey (mul_right_cancel₀ (hkey.domain.node_ne_zero i) h)

theorem distinct_iff : key.Distinct ↔ Function.Injective fun j => key.shift j ^ key.domain.size := by
  have hpos := hkey.domain.size_pos
  constructor
  · intro h j j' hpow
    simp only at hpow
    -- the quotient of the shifts is an element of the domain
    have hroot : (key.shift j / key.shift j') ^ key.domain.size = 1 := by
      rw [div_pow, hpow, div_self (pow_ne_zero _ (shift_ne_zero hkey j'))]
    obtain ⟨i, hi, hnode⟩ := hkey.domain.exists_node_of_pow_eq_one hroot
    refine (h j j' 0 hpos i hi ?_).1
    rw [label, label, hnode, mul_div_cancel₀ _ (shift_ne_zero hkey j'), Domain.node, pow_zero, mul_one]
  · intro h j j' i hi i' hi' hlabel
    have hpow : key.shift j ^ key.domain.size = key.shift j' ^ key.domain.size := by
      rw [← label_pow hkey j i, hlabel, label_pow hkey j' i']
    obtain rfl := h hpow
    exact ⟨rfl, label_injOn hkey j (Finset.mem_coe.mpr (Finset.mem_range.mpr hi))
      (Finset.mem_coe.mpr (Finset.mem_range.mpr hi')) hlabel⟩

end

/-- The labels of one wire differ, and so do those of one row; all differ exactly if the `n`-th powers of
the shifts do. -/
theorem labels_of_ofDocument {doc : KeyDocument} {key : Key} (h : ofDocument doc = .ok key) :
    (∀ j, Set.InjOn (key.label j) (Finset.range key.domain.size)) ∧
      (∀ i, Function.Injective fun j => key.label j i) ∧
      (key.Distinct ↔ Function.Injective fun j => key.shift j ^ key.domain.size) := by
  have hkey := wellFormed_of_ofDocument h
  exact ⟨label_injOn hkey, label_injective hkey, distinct_iff hkey⟩

theorem distinct_of_nonResidues {doc : KeyDocument} {key : Key} (h : ofDocument doc = .ok key)
    (hshifts : key.nonResidues = #v[5, 7, 10]) : key.Distinct := by
  have hkey := wellFormed_of_ofDocument h
  have hpowers : Function.Injective fun j : Fin 4 => Scalar.pow (([1, 5, 7, 10] : List ℤ).getD j 0) (2 ^ 28) := by
    decide +kernel
  rw [distinct_iff hkey]
  intro j j' hpow
  obtain ⟨m, hm⟩ := hkey.domain.size_dvd
  have h28 : key.shift j ^ 2 ^ 28 = key.shift j' ^ 2 ^ 28 := by
    simp only at hpow
    rw [hm, pow_mul, pow_mul, hpow]
  apply hpowers
  simp only [Scalar.pow_eq, Scalar.emod_eq_iff, Int.cast_pow]
  simpa [shift, shifts, hshifts] using h28

open Linearization in
theorem not_distinct_of_root : ∃ key, ofDocument
    { twoRowDocument with nonResidues := [.inl (r - 1), .inl 5, .inl 7] } = .ok key ∧ ¬ key.Distinct := by
  have hread : ofDocument { twoRowDocument with nonResidues := [.inl (r - 1), .inl 5, .inl 7] } =
      .ok { twoRowKey with nonResidues := #v[r - 1, 5, 7] } := by
    simp only [ofDocument, mapM_readG2_twoRowDocument]
    decide +kernel
  refine ⟨_, hread, ?_⟩
  intro h
  exact absurd (h 0 1 1 (by decide) 0 (by decide) (by decide)).1 (by decide)

open Linearization in
theorem labels_of_twoRowDocument : twoRowKey.Distinct :=
  (labels_of_ofDocument ofDocument_twoRowDocument).2.2.mpr (by decide)

end Key

end Settlement

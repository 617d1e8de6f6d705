import Mathlib
import Settlement.Proofs.Bn254.Scalar

namespace Settlement.Bn254

open Polynomial

theorem mem_eraseRepsLoop (x a : ℤ) (xs acc : List ℤ) :
    x ∈ List.eraseRepsBy.loop (· == ·) a xs acc ↔ x = a ∨ x ∈ xs ∨ x ∈ acc := by
  induction xs generalizing a acc with
  | nil => simp [List.eraseRepsBy.loop, or_comm]
  | cons y xs ih =>
    rw [List.eraseRepsBy.loop]
    split
    · rename_i h
      rw [ih, beq_iff_eq.mp h, List.mem_cons]
      tauto
    · rw [ih, List.mem_cons, List.mem_cons]
      tauto

theorem mem_eraseReps (x : ℤ) (xs : List ℤ) : x ∈ xs.eraseReps ↔ x ∈ xs := by
  cases xs with
  | nil => simp [List.eraseReps, List.eraseRepsBy]
  | cons a xs =>
    rw [List.eraseReps, List.eraseRepsBy, mem_eraseRepsLoop, List.mem_cons]
    simp

theorem pairwise_eraseRepsLoop {a : ℤ} {xs acc : List ℤ} (hxs : (a :: xs).Pairwise (· ≤ ·))
    (hacc : (a :: acc).Pairwise (· > ·)) : (List.eraseRepsBy.loop (· == ·) a xs acc).Pairwise (· < ·) := by
  induction xs generalizing a acc with
  | nil => rwa [List.eraseRepsBy.loop, List.pairwise_reverse]
  | cons y xs ih =>
    obtain ⟨ha, hxs⟩ := List.pairwise_cons.mp hxs
    rw [List.eraseRepsBy.loop]
    split
    · rename_i h
      rw [beq_iff_eq.mp h] at hacc ⊢
      exact ih hxs hacc
    · rename_i h
      have hlt : a < y := lt_of_le_of_ne (ha y List.mem_cons_self) (ne_of_beq_false h)
      refine ih hxs (List.pairwise_cons.mpr ⟨?_, hacc⟩)
      rw [List.forall_mem_cons]
      exact ⟨hlt, fun x hx => ((List.pairwise_cons.mp hacc).1 x hx).trans hlt⟩

theorem lookup_map_of_mem {f : ℤ → ℤ} {keys : List ℤ} {i : ℤ} (hi : i ∈ keys) :
    (keys.map fun k => (k, f k)).lookup i = some (f i) := by
  induction keys with
  | nil => cases hi
  | cons k keys ih =>
    rw [List.map_cons, List.lookup_cons]
    by_cases hik : i = k
    · rw [hik, BEq.rfl]
    · rw [beq_eq_false_iff_ne.mpr hik]
      exact ih ((List.mem_cons.mp hi).resolve_left hik)

theorem zipWith_eq_map {f : ℤ → Fr} {points inverses : List ℤ} (v : ℤ)
    (h : inverses.map (Int.cast : ℤ → Fr) = points.map f) :
    List.zipWith (fun w i => w * v % r * i % r) points inverses =
      points.map fun w : ℤ => (((w : Fr) * v * f w).val : ℤ) := by
  induction points generalizing inverses with
  | nil => rfl
  | cons w points ih =>
    cases inverses with
    | nil => cases h
    | cons i inverses =>
      simp only [List.map_cons, List.cons.injEq] at h
      rw [List.zipWith_cons_cons, List.map_cons, ih h.2, ← h.1, ← ZMod.val_intCast, Int.cast_mul, Scalar.cast_emod,
        Int.cast_mul]

namespace Domain

structure Accepted (d : Domain) : Prop where
  two_le : 2 ≤ d.size
  exists_log : ∃ k, d.size = 2 ^ k
  primitive : IsPrimitiveRoot (d.omega : Fr) d.size

theorem accepted_of_ofRoot {size omega : ℤ} {d : Domain} (h : ofRoot size omega = .ok d) :
    d.Accepted ∧ d.size = size ∧ d.omega = omega := by
  unfold ofRoot at h
  split at h
  · cases h
  rename_i hsize
  split at h
  · cases h
  rename_i hroot
  obtain rfl := Except.ok.inj h
  simp only [not_or, not_lt, not_not] at hsize hroot
  obtain ⟨hsize, hpow⟩ := hsize
  simp only [Scalar.isPowerOfTwo, decide_eq_true_eq, Nat.pow_eq] at hpow
  obtain ⟨k, hk⟩ : ∃ k, size.toNat = 2 ^ (k + 1) := by
    have hne : size.toNat.log2 ≠ 0 := by
      intro h0
      rw [h0] at hpow
      omega
    exact ⟨size.toNat.log2 - 1, by rw [Nat.sub_add_cancel (Nat.pos_of_ne_zero hne)]; exact hpow.2⟩
  have hone (e : ℕ) : Scalar.pow omega e = 1 ↔ (omega : Fr) ^ e = 1 := by
    rw [Scalar.pow_eq, ← Int.cast_pow, ← Int.cast_one (R := Fr), ← Scalar.emod_eq_iff]
    rfl
  rw [hone, hone, hk, pow_succ 2 k, Nat.mul_div_cancel _ two_pos, ← pow_succ] at hroot
  refine ⟨⟨by simp only; omega, ⟨k + 1, hk⟩, ?_⟩, by simp only; omega, rfl⟩
  rw [IsPrimitiveRoot.iff_orderOf]
  exact (orderOf_eq_prime_pow hroot.2 hroot.1).trans hk.symm

def node (d : Domain) (i : ℕ) : Fr := (d.omega : Fr) ^ i

noncomputable def basis (d : Domain) (i : ℕ) : Fr[X] := Lagrange.basis (Finset.range d.size) d.node i

noncomputable def basisValue (d : Domain) (z i : ℤ) : ℤ := ((d.basis (i % d.size).toNat).eval (z : Fr)).val

theorem cast_basisValue (d : Domain) (z i : ℤ) :
    ((d.basisValue z i : ℤ) : Fr) = (d.basis (i % d.size).toNat).eval (z : Fr) := by
  rw [basisValue, Int.cast_natCast, ZMod.natCast_zmod_val]

theorem mem_sortedIndices {i : ℤ} {indices : List ℤ} : i ∈ sortedIndices indices ↔ i ∈ indices := by
  rw [sortedIndices, mem_eraseReps, List.mem_mergeSort]

theorem pairwise_sortedIndices (indices : List ℤ) : (sortedIndices indices).Pairwise (· < ·) := by
  have hsorted : (indices.mergeSort (· ≤ ·)).Pairwise (· ≤ ·) := by
    have htrans (a b c : ℤ) (hab : decide (a ≤ b) = true) (hbc : decide (b ≤ c) = true) : decide (a ≤ c) = true :=
      decide_eq_true ((of_decide_eq_true hab).trans (of_decide_eq_true hbc))
    have htotal (a b : ℤ) : (decide (a ≤ b) || decide (b ≤ a)) = true := by
      rw [Bool.or_eq_true, decide_eq_true_eq, decide_eq_true_eq]
      exact le_total a b
    simpa using List.pairwise_mergeSort htrans htotal indices
  rw [sortedIndices]
  cases h : indices.mergeSort (· ≤ ·) with
  | nil => exact List.Pairwise.nil
  | cons a xs =>
    rw [h] at hsorted
    exact pairwise_eraseRepsLoop hsorted (List.pairwise_singleton _ _)

theorem cast_element (d : Domain) (i : ℤ) :
    ((d.element i : ℤ) : Fr) = d.node (i % d.size).toNat := Scalar.cast_pow _ _

theorem cast_vanishing (d : Domain) (z : ℤ) : ((d.vanishing z : ℤ) : Fr) = (z : Fr) ^ d.size - 1 := by
  simp [vanishing]

theorem vanishing_eq_zero_iff (d : Domain) (z : ℤ) : d.vanishing z = 0 ↔ (z : Fr) ^ d.size = 1 := by
  rw [vanishing, Scalar.emod_eq_zero_iff, Int.cast_sub, Scalar.cast_pow, Int.cast_one, sub_eq_zero]

namespace Accepted

variable {d : Domain} (hd : d.Accepted)

include hd

theorem node_pow (i : ℕ) : d.node i ^ d.size = 1 := by
  rw [node, ← pow_mul, mul_comm, pow_mul, hd.primitive.pow_eq_one, one_pow]

theorem node_injOn : Set.InjOn d.node (Finset.range d.size) := by
  intro i hi j hj h
  exact hd.primitive.pow_inj (Finset.mem_range.mp hi) (Finset.mem_range.mp hj) h

theorem omega_ne_zero : (d.omega : Fr) ≠ 0 :=
  hd.primitive.ne_zero (by have := hd.two_le; omega)

theorem size_pos : 0 < d.size := by
  have h := hd.two_le
  omega

theorem node_ne_zero (i : ℕ) : d.node i ≠ 0 := pow_ne_zero i hd.omega_ne_zero

theorem exists_node_of_pow_eq_one {x : Fr} (hx : x ^ d.size = 1) : ∃ i < d.size, d.node i = x := by
  have : NeZero d.size := ⟨hd.size_pos.ne'⟩
  exact hd.primitive.eq_pow_of_pow_eq_one hx

theorem size_dvd : d.size ∣ 2 ^ 28 := by
  obtain ⟨k, hk⟩ := hd.exists_log
  have hdvd : d.size ∣ r - 1 :=
    hd.primitive.dvd_of_pow_eq_one _ (ZMod.pow_card_sub_one_eq_one hd.omega_ne_zero)
  rw [hk] at hdvd ⊢
  apply pow_dvd_pow 2
  by_contra hlt
  have h29 : 2 ^ 29 ∣ r - 1 := (pow_dvd_pow 2 (by omega)).trans hdvd
  exact absurd h29 (by decide)

theorem size_lt : d.size < r := by
  have hdvd : d.size ∣ r - 1 :=
    hd.primitive.dvd_of_pow_eq_one _ (ZMod.pow_card_sub_one_eq_one hd.omega_ne_zero)
  have hle := Nat.le_of_dvd (by decide) hdvd
  have hr : r - 1 < r := by decide
  omega

theorem cast_size_ne_zero : (d.size : Fr) ≠ 0 := by
  rw [Ne, ZMod.natCast_eq_zero_iff]
  intro h
  have h0 := Nat.eq_zero_of_dvd_of_lt h hd.size_lt
  have h2 := hd.two_le
  omega

theorem nodal_eq : Lagrange.nodal (Finset.range d.size) d.node = X ^ d.size - 1 := by
  have hsize : d.size ≠ 0 := by have := hd.two_le; omega
  have hdegree : (X ^ d.size - 1 : Fr[X]).degree = d.size := by
    rw [← C_1, degree_X_pow_sub_C (Nat.pos_of_ne_zero hsize)]
  have hmonic : (X ^ d.size - 1 : Fr[X]).Monic := by
    rw [← C_1]
    exact monic_X_pow_sub_C 1 hsize
  have hnodal : (Lagrange.nodal (Finset.range d.size) d.node).degree = d.size := by
    rw [Lagrange.degree_nodal, Finset.card_range]
  apply eq_of_degree_sub_lt_of_eval_index_eq _ hd.node_injOn
  · rw [Finset.card_range, ← hnodal]
    apply degree_sub_lt_left (hnodal.trans hdegree.symm) Lagrange.nodal_ne_zero
    rw [Lagrange.nodal_monic.leadingCoeff, hmonic.leadingCoeff]
  · intro i hi
    rw [Lagrange.eval_nodal_at_node hi, eval_sub, eval_pow, eval_X, eval_one, hd.node_pow, sub_self]

theorem eval_basis_of_ne {i : ℕ} (hi : i < d.size) {z : Fr} (hz : z ^ d.size ≠ 1) :
    (d.basis i).eval z = d.node i * (z ^ d.size - 1) * ((d.size : Fr) * (z - d.node i))⁻¹ := by
  have hne : z ≠ d.node i := by
    rintro rfl
    exact hz (hd.node_pow i)
  rw [basis, Lagrange.eval_basis_not_at_node (Finset.mem_range.mpr hi) hne,
    Lagrange.nodalWeight_eq_eval_derivative_nodal (Finset.mem_range.mpr hi), hd.nodal_eq]
  have hpow : d.node i ^ (d.size - 1) * d.node i = 1 := by
    rw [← pow_succ, Nat.sub_add_cancel (by have := hd.two_le; omega), hd.node_pow]
  have hinv : d.node i = (d.node i ^ (d.size - 1))⁻¹ := eq_inv_of_mul_eq_one_right hpow
  simp only [eval_sub, eval_pow, eval_X, eval_one, derivative_sub, derivative_X_pow, derivative_one,
    sub_zero, eval_mul, eval_C, mul_inv]
  rw [← hinv]
  ring

theorem natDegree_basis {i : ℕ} (hi : i < d.size) : (d.basis i).natDegree = d.size - 1 := by
  rw [basis, Lagrange.natDegree_basis hd.node_injOn (Finset.mem_range.mpr hi), Finset.card_range]

theorem eval_basis_node {i j : ℕ} (hi : i < d.size) (hj : j < d.size) :
    (d.basis i).eval (d.node j) = if i = j then 1 else 0 := by
  by_cases h : i = j
  · subst h
    rw [if_pos rfl, basis, Lagrange.eval_basis_self hd.node_injOn (Finset.mem_range.mpr hi)]
  · rw [if_neg h, basis, Lagrange.eval_basis_of_ne h (Finset.mem_range.mpr hj)]

theorem lagrangeMany_eq {z : ℤ} (hz : (z : Fr) ^ d.size ≠ 1) (indices : List ℤ) :
    d.lagrangeMany indices z = .ok ((sortedIndices indices).map fun i => (i, d.basisValue z i)) := by
  have hvanish : d.vanishing z ≠ 0 := by rwa [Ne, vanishing_eq_zero_iff]
  have hdiff (w : ℤ) (hw : w ∈ ((sortedIndices indices).map d.element).map fun w => d.size * (z - w) % r) :
      (w : Fr) ≠ 0 := by
    simp only [List.map_map, List.mem_map, Function.comp_apply] at hw
    obtain ⟨i, _, rfl⟩ := hw
    rw [Scalar.cast_emod, Int.cast_mul, Int.cast_sub, Int.cast_natCast, cast_element]
    apply mul_ne_zero hd.cast_size_ne_zero
    rw [sub_ne_zero]
    intro h
    exact hz (by rw [h, hd.node_pow])
  obtain ⟨inverses, hinv, hcast⟩ := Scalar.batchInv_ok hdiff
  have hvalue (i : ℤ) : ((d.element i : Fr) * d.vanishing z * ((d.size * (z - d.element i) % r : ℤ) : Fr)⁻¹) =
      (d.basis (i % d.size).toNat).eval (z : Fr) := by
    have hpos := hd.size_pos
    have hlt := Int.emod_lt_of_pos i (show 0 < (d.size : ℤ) by omega)
    have hnonneg := Int.emod_nonneg i (show (d.size : ℤ) ≠ 0 by omega)
    rw [hd.eval_basis_of_ne (by omega) hz, Scalar.cast_emod, Int.cast_mul, Int.cast_sub, Int.cast_natCast,
      cast_element, cast_vanishing]
  simp only [lagrangeMany, if_neg hvanish, hinv, bind, Except.bind, pure, Except.pure]
  rw [zipWith_eq_map _ (hcast.trans List.map_map), List.map_map, List.map_prod_left_eq_zip]
  refine congrArg (fun values => Except.ok ((sortedIndices indices).zip values)) ?_
  apply List.map_congr_left
  intro i _
  rw [Function.comp_apply, basisValue, ← hvalue i]
  rfl

theorem lagrangeMany_ok {z : ℤ} (hz : (z : Fr) ^ d.size ≠ 1) (indices : List ℤ) :
    ∃ table, d.lagrangeMany indices z = .ok table ∧
      ∀ i < d.size, (i : ℤ) ∈ indices → (((table.lookup (i : ℤ)).getD 0 : ℤ) : Fr) = (d.basis i).eval (z : Fr) := by
  refine ⟨_, hd.lagrangeMany_eq hz indices, ?_⟩
  intro i hi hin
  have hmod : ((i : ℤ) % d.size).toNat = i := by
    rw [Int.emod_eq_of_lt (by omega) (by omega), Int.toNat_natCast]
  rw [lookup_map_of_mem (mem_sortedIndices.mpr hin), Option.getD_some, cast_basisValue, hmod]

end Accepted

end Domain

end Settlement.Bn254

import Mathlib
import Settlement.Proofs.Bn254.Scalar
import Settlement.Proofs.Except

namespace Settlement.Bn254.Scalar

structure IsInverse (x y : ℤ) : Prop where
  nonneg : 0 ≤ y
  lt : y < r
  mul_emod : x * y % r = 1

theorem isInverse_iff {x y : ℤ} : IsInverse x y ↔ isCanonical y = true ∧ (x : Fr) * y = 1 := by
  have hone := emod_eq_iff (x * y) 1
  rw [Int.cast_mul, Int.cast_one] at hone
  rw [isCanonical_iff, ← hone]
  exact ⟨fun h => ⟨⟨h.nonneg, h.lt⟩, h.mul_emod⟩, fun h => ⟨h.1.1, h.1.2, h.2⟩⟩

theorem isCanonical_emod (x : ℤ) : isCanonical (x % r) = true :=
  (isCanonical_iff _).mpr ⟨Int.emod_nonneg x (by decide), Int.emod_lt_of_pos x (by decide)⟩

theorem eq_of_cast_eq {x y : ℤ} (hx : isCanonical x = true) (hy : isCanonical y = true)
    (h : (x : Fr) = y) : x = y := by
  rw [← emod_of_isCanonical hx, ← emod_of_isCanonical hy, emod_eq_iff, h]

theorem isCanonical_of_inv {x y : ℤ} (h : inv x = .ok y) : isCanonical y = true := by
  unfold inv at h
  split at h
  · cases h
  · obtain rfl := Except.ok.inj h
    rw [pow_eq]
    exact isCanonical_emod _

theorem inv_eq_ok_iff {x y : ℤ} : inv x = .ok y ↔ IsInverse x y := by
  rw [isInverse_iff]
  constructor
  · intro h
    have hx : (x : Fr) ≠ 0 := by
      intro hx
      rw [inv, if_pos ((emod_eq_zero_iff x).mpr hx)] at h
      cases h
    obtain ⟨z, hz, hinv⟩ := inv_ok hx
    obtain rfl := Except.ok.inj (h.symm.trans hz)
    exact ⟨isCanonical_of_inv h, by rw [hinv, mul_inv_cancel₀ hx]⟩
  · rintro ⟨hy, hone⟩
    obtain ⟨z, hz, hinv⟩ := inv_ok (left_ne_zero_of_mul_eq_one hone)
    rw [hz, eq_of_cast_eq (isCanonical_of_inv hz) hy (hinv.trans (inv_eq_of_mul_eq_one_right hone))]

theorem isCanonical_of_unwind {places : List (ℤ × ℤ)} {i : ℤ} :
    ∀ y ∈ (unwind places i).1, isCanonical y = true := by
  induction places with
  | nil => exact List.forall_mem_nil _
  | cons t places ih => exact List.forall_mem_cons.mpr ⟨isCanonical_emod _, ih⟩

theorem isCanonical_of_batchInv {xs ys : List ℤ} (h : batchInv xs = .ok ys) : ∀ y ∈ ys, isCanonical y = true := by
  unfold batchInv at h
  split_ifs at h
  · obtain rfl := Except.ok.inj h
    exact List.forall_mem_nil _
  · dsimp only at h
    cases hinv : inv (runningProducts 1 xs).2 with
    | error e => simp [hinv, Except.map] at h
    | ok i =>
      rw [hinv] at h
      obtain rfl := Except.ok.inj h
      exact isCanonical_of_unwind

theorem batchInv_eq_error_iff {xs : List ℤ} : (∃ e, batchInv xs = .error e) ↔ ∃ x ∈ xs, x % r = 0 := by
  constructor
  · rintro ⟨e, he⟩
    by_contra! h
    obtain ⟨ys, hys, -⟩ := batchInv_ok fun x hx => mt (emod_eq_zero_iff x).mpr (h x hx)
    cases he.symm.trans hys
  · rintro ⟨x, hx, hzero⟩
    have hany : xs.any (· % r == 0) = true := List.any_eq_true.mpr ⟨x, hx, beq_iff_eq.mpr hzero⟩
    exact ⟨.batchInverseOfZero, by rw [batchInv, if_pos hany]⟩

/-- Inverting a list at the price of one inversion gives what inverting each of its elements gives. -/
theorem batchInv_elementwise (xs : List ℤ) :
    ((∃ e, batchInv xs = .error e) ↔ ∃ x ∈ xs, x % r = 0) ∧
    ((∀ x ∈ xs, x % r ≠ 0) → ∃ ys, batchInv xs = .ok ys ∧ xs.mapM inv = .ok ys ∧ List.Forall₂ IsInverse xs ys) := by
  refine ⟨batchInv_eq_error_iff, ?_⟩
  intro hxs
  have hne : ∀ x ∈ xs, (x : Fr) ≠ 0 := fun x hx => mt (emod_eq_zero_iff x).mpr (hxs x hx)
  obtain ⟨ys, hys, hmap⟩ := batchInv_ok hne
  have hcast : List.Forall₂ (fun (x y : ℤ) => (y : Fr) = (x : Fr)⁻¹) xs ys := by
    rw [← List.forall₂_eq_eq_eq, List.forall₂_map_left_iff, List.forall₂_map_right_iff] at hmap
    exact hmap.flip
  have hinverse : List.Forall₂ IsInverse xs ys := by
    rw [List.forall₂_iff_get] at hcast ⊢
    refine ⟨hcast.1, fun i hx hy => isInverse_iff.mpr ⟨?_, ?_⟩⟩
    · exact isCanonical_of_batchInv hys _ (List.get_mem _ _)
    · rw [hcast.2 i hx hy, mul_inv_cancel₀ (hne _ (List.get_mem _ _))]
  refine ⟨ys, hys, ?_, hinverse⟩
  calc xs.mapM inv
      = ys.mapM pure := Except.mapM_congr (hinverse.imp fun _ _ h => inv_eq_ok_iff.mpr h)
    _ = .ok ys := by rw [List.mapM_pure, List.map_id']; rfl

theorem batchInv_elementwise_signed :
    (∃ ys, batchInv [-3, (r : ℤ) + 5, 2, -3] = .ok ys ∧ [-3, (r : ℤ) + 5, 2, -3].mapM inv = .ok ys ∧
      List.Forall₂ IsInverse [-3, (r : ℤ) + 5, 2, -3] ys) ∧
    ∃ e, batchInv [2, -(2 * r : ℤ)] = .error e :=
  ⟨(batchInv_elementwise _).2 (by decide), (batchInv_elementwise _).1.mpr (by decide)⟩

end Settlement.Bn254.Scalar

import Mathlib
import Settlement.Proofs.Bn254.Representation
import Settlement.Proofs.Canonical

namespace Settlement.Bn254.G1

open Projective WeierstrassCurve
open scoped Fields

section Affine

def affine : (weierstrass b).Point → ℕ × ℕ
  | .zero => (0, 0)
  | .some x y _ => (x.val, y.val)

theorem affine_eq_zero_iff (P : (weierstrass b).Point) : affine P = (0, 0) ↔ P = 0 := by
  cases P with
  | zero => exact iff_of_true rfl rfl
  | some x y hn =>
    refine iff_of_false ?_ (Affine.Point.some_ne_zero hn)
    intro h
    obtain ⟨hx, hy⟩ := Prod.mk.inj h
    obtain rfl : x = 0 := Fin.ext hx
    obtain rfl : y = 0 := Fin.ext hy
    -- the equation has a constant term
    have he := (equation_weierstrass b 0 0).mp hn.1
    revert he
    decide

theorem affine_injective : Function.Injective affine := by
  intro P Q h
  by_cases hQ : Q = 0
  · rw [hQ, ← affine_eq_zero_iff, h, hQ]
    rfl
  by_cases hP : P = 0
  · exact absurd ((affine_eq_zero_iff Q).mp (h.symm.trans (by rw [hP]; rfl))) hQ
  cases P with
  | zero => exact absurd rfl hP
  | some x y hn =>
    cases Q with
    | zero => exact absurd rfl hQ
    | some x' y' hn' =>
      obtain ⟨hx, hy⟩ := Prod.mk.inj h
      rw [Affine.Point.some.injEq]
      exact ⟨Fin.ext hx, Fin.ext hy⟩

theorem toAffine_eq_affine {a : G1} (ha : onCurve a = true) : toAffine a = affine (toPoint b a) := by
  by_cases hz : a.z = 0
  · rw [toPoint_of_z_eq_zero hz, toAffine, toAffine?, if_pos ((Projective.isInfinity_iff a).mpr hz)]
    rfl
  · obtain ⟨x, y, hn, hx, hy, hp⟩ := eq_scaled_of_onCurve ha hz
    rw [hp, toAffine, toAffine?, if_neg (mt (Projective.isInfinity_iff a).mp hz)]
    simp only [hx, hy, mul_inv_cancel_right₀ hz, affine]

theorem exists_ofAffine {a : G1} (ha : onCurve a = true) :
    ∃ c, ofAffine (toAffine a).1 (toAffine a).2 = .ok c ∧ SamePoint c a := by
  obtain ⟨c, hc⟩ := (ofAffine_isOk_iff _ _).mpr (coordinates_toAffine ha)
  have hcurve := onCurve_of_ofAffine hc
  refine ⟨c, hc, samePoint_of_toPoint_eq hcurve ha (affine_injective ?_)⟩
  rw [← toAffine_eq_affine hcurve, ← toAffine_eq_affine ha, toAffine_of_ofAffine hc]

end Affine

section Sum

theorem order_smul (P : (weierstrass b).Point) : r • P = 0 := by
  rw [← card_eq]
  exact card_nsmul_eq_zero'

theorem toPoint_add {a c : G1} (ha : onCurve a = true) (hc : onCurve c = true) :
    toPoint b (add a c) = toPoint b a + toPoint b c := by
  have hal := represents_log ha
  have hcl := represents_log hc
  rw [(hal.add hcl).toPoint_eq, val_smul_add order_generator, ← hal.toPoint_eq, ← hcl.toPoint_eq]

theorem toPoint_mul {a : G1} (ha : onCurve a = true) (k : ℤ) : toPoint b (mul a k) = k • toPoint b a := by
  have hal := represents_log ha
  rw [(hal.mul k).toPoint_eq, val_smul_mul order_generator, ← hal.toPoint_eq, val_smul_intCast (order_smul _)]

noncomputable def combination (terms : List (G1 × ℤ)) : (weierstrass b).Point :=
  (terms.map fun t => t.2 • toPoint b t.1).sum

def Admissible (terms : List (G1 × ℤ)) : Prop :=
  ∀ t ∈ terms, onCurve t.1 = true

theorem toPoint_msm {terms : List (G1 × ℤ)} (h : Admissible terms) : toPoint b (msm terms) = combination terms :=
  map_msm (toPoint_of_z_eq_zero rfl) toPoint_add toPoint_mul h

end Sum

/-- Changes of the terms that keep their sum: another order, a scalar by a multiple of `r`, two terms of one point as
one, and other coordinates of a point. -/
inductive Rearranges : List (G1 × ℤ) → List (G1 × ℤ) → Prop
  | perm {terms terms' : List (G1 × ℤ)} (h : terms.Perm terms') : Rearranges terms terms'
  | shift (a : G1) (k n : ℤ) (terms : List (G1 × ℤ)) : Rearranges ((a, k) :: terms) ((a, k + n * r) :: terms)
  | merge {a c : G1} (h : SamePoint a c) (k l : ℤ) (terms : List (G1 × ℤ)) :
    Rearranges ((a, k) :: (c, l) :: terms) ((a, k + l) :: terms)
  | represent {a c : G1} (h : SamePoint a c) (k : ℤ) (terms : List (G1 × ℤ)) :
    Rearranges ((a, k) :: terms) ((c, k) :: terms)

section Rearranges

variable {a c : G1} {terms terms' : List (G1 × ℤ)}

theorem onCurve_of_samePoint (h : SamePoint a c) : onCurve c = true ↔ onCurve a = true :=
  ⟨fun hc => (h.symm.toPoint_eq hc).1, fun ha => (h.toPoint_eq ha).1⟩

theorem Rearranges.admissible_iff (h : Rearranges terms terms') : Admissible terms ↔ Admissible terms' := by
  cases h with
  | perm h => exact forall_congr' fun t => imp_congr_left h.mem_iff
  | shift a k n terms => simp only [Admissible, List.forall_mem_cons]
  | merge h k l terms =>
    simp only [Admissible, List.forall_mem_cons, onCurve_of_samePoint h]
    tauto
  | represent h k terms => simp only [Admissible, List.forall_mem_cons, onCurve_of_samePoint h]

theorem combination_cons (a : G1) (k : ℤ) (terms : List (G1 × ℤ)) :
    combination ((a, k) :: terms) = k • toPoint b a + combination terms := rfl

theorem Rearranges.combination_eq (h : Rearranges terms terms') (hterms : Admissible terms) :
    combination terms = combination terms' := by
  cases h with
  | perm h => exact (h.map _).sum_eq
  | shift a k n terms =>
    rw [combination_cons, combination_cons, add_smul, mul_smul, natCast_zsmul, order_smul, smul_zero, add_zero]
  | merge h k l terms =>
    have hpoint := (h.toPoint_eq (hterms _ List.mem_cons_self)).2
    rw [combination_cons, combination_cons, combination_cons, hpoint, add_smul, add_assoc]
  | represent h k terms =>
    have hpoint := (h.toPoint_eq (hterms _ List.mem_cons_self)).2
    rw [combination_cons, combination_cons, hpoint]

theorem rearranged (h : Relation.EqvGen Rearranges terms terms') :
    (Admissible terms ↔ Admissible terms') ∧ (Admissible terms → combination terms = combination terms') := by
  induction h with
  | rel terms terms' h => exact ⟨h.admissible_iff, h.combination_eq⟩
  | refl terms => exact ⟨Iff.rfl, fun _ => rfl⟩
  | symm terms terms' _ ih => exact ⟨ih.1.symm, fun h => (ih.2 (ih.1.mpr h)).symm⟩
  | trans terms terms' terms'' _ _ ih ih' => exact ⟨ih.1.trans ih'.1, fun h => (ih.2 h).trans (ih'.2 (ih.1.mp h))⟩

end Rearranges

/-- The pair of numbers of a sum is that of the point which the group law gives, whatever coordinates the points have,
and it is read as this point. -/
theorem msm_encodes {terms : List (G1 × ℤ)} (h : Admissible terms) :
    toAffine (msm terms) = affine (combination terms) ∧
    (toAffine (msm terms) = (0, 0) ↔ combination terms = 0) ∧
    (∀ terms', Relation.EqvGen Rearranges terms terms' → toAffine (msm terms') = toAffine (msm terms)) ∧
    onCurve (msm terms) = true ∧
    ∃ a, ofAffine (toAffine (msm terms)).1 (toAffine (msm terms)).2 = .ok a ∧ SamePoint a (msm terms) := by
  have haffine {terms : List (G1 × ℤ)} (h : Admissible terms) :
      toAffine (msm terms) = affine (combination terms) := by
    rw [toAffine_eq_affine (onCurve_msm h), toPoint_msm h]
  refine ⟨haffine h, ?_, ?_, onCurve_msm h, exists_ofAffine (onCurve_msm h)⟩
  · rw [haffine h, affine_eq_zero_iff]
  · intro terms' hterms
    obtain ⟨hadmissible, hsum⟩ := rearranged hterms
    rw [haffine (hadmissible.mp h), haffine h, hsum h]

def sampleTerms : List (G1 × ℤ) :=
  [(generator, -3), (rescale 2 generator, r + 4), (⟨7, 9, 0⟩, 11)]

theorem msm_encodes_sampleTerms :
    Admissible sampleTerms ∧ toAffine (msm sampleTerms) = affine (combination sampleTerms) ∧
      toAffine (msm [(generator, 1), (⟨7, 9, 0⟩, 11)]) = toAffine (msm sampleTerms) := by
  have hsame := samePoint_rescale (show (2 : Fp) ≠ 0 by decide) generator
  have hterms : Admissible sampleTerms := by
    simp only [Admissible, sampleTerms, List.forall_mem_cons, onCurve_of_samePoint hsame, onCurve_generator]
    exact ⟨trivial, trivial, onCurve_of_z_eq_zero rfl, List.forall_mem_nil _⟩
  obtain ⟨haffine, -, hrearranged, -⟩ := msm_encodes hterms
  refine ⟨hterms, haffine, hrearranged _ ?_⟩
  have hmerge := Rearranges.merge hsame (-3) (r + 4) [(⟨7, 9, 0⟩, 11)]
  have hshift := Rearranges.shift generator 1 1 [(⟨7, 9, 0⟩, 11)]
  exact (Relation.EqvGen.rel _ _ hmerge).trans _ _ _ (.symm _ _ (.rel _ _ hshift))

end Settlement.Bn254.G1

import Mathlib
import Settlement.Proofs.Bn254.DiscretePairing
import Settlement.Proofs.Bn254.Representation

namespace Settlement.Bn254

open Projective
open scoped Fields

theorem multiple_intCast_iff {F : Type} [Field F] [DecidableEq F] {b : F} {g a : Projective F}
    (hr : r • toPoint b g = 0) (n : ℤ) :
    Multiple b g a n ↔ a.onCurve b = true ∧ toPoint b a = n • toPoint b g := by
  rw [← val_smul_intCast hr]
  exact ⟨fun h => ⟨h.onCurve, h.toPoint_eq⟩, fun h => ⟨h.1, h.2⟩⟩

namespace Pairing

section Skipped

variable [PairingSteps] {pair : G1 × G2}

theorem millerProduct_skip (hpair : G1.isInfinity pair.1 = true ∨ G2.isInfinity pair.2 = true)
    (before after : List (G1 × G2)) : millerProduct (before ++ pair :: after) = millerProduct (before ++ after) := by
  induction before with
  | nil =>
    rw [List.nil_append, List.nil_append, millerProduct, if_pos (Bool.or_eq_true _ _ ▸ hpair)]
  | cons t before ih => rw [List.cons_append, List.cons_append, millerProduct, millerProduct, ih]

theorem checkProduct_skip (hpair : G1.isInfinity pair.1 = true ∨ G2.isInfinity pair.2 = true)
    (before after : List (G1 × G2)) : checkProduct (before ++ pair :: after) = checkProduct (before ++ after) := by
  rw [checkProduct, checkProduct, millerProduct_skip hpair]

end Skipped

structure Multiples (pair : G1 × G2) (s : ℤ × ℤ) : Prop where
  left_onCurve : G1.onCurve pair.1 = true
  left : toPoint G1.b pair.1 = s.1 • toPoint G1.b G1.generator
  right_onCurve : G2.onCurve pair.2 = true
  right : toPoint G2.b pair.2 = s.2 • toPoint G2.b G2.generator

theorem multiples_iff {pair : G1 × G2} {s : ℤ × ℤ} : Multiples pair s ↔ PairRepresents pair (s.1, s.2) := by
  have hleft := multiple_intCast_iff (a := pair.1) G1.order_generator s.1
  have hright := multiple_intCast_iff (a := pair.2) G2.order_generator s.2
  constructor
  · exact fun h => ⟨hleft.mpr ⟨h.left_onCurve, h.left⟩, hright.mpr ⟨h.right_onCurve, h.right⟩⟩
  · rintro ⟨ha, hc⟩
    obtain ⟨haCurve, ha⟩ := hleft.mp ha
    obtain ⟨hcCurve, hc⟩ := hright.mp hc
    exact ⟨haCurve, ha, hcCurve, hc⟩

section Multiples

variable {a : G1} {c : G2} {m n : ℤ} (h : Multiples (a, c) (m, n)) (k : ℤ)

include h

theorem Multiples.mul_left : Multiples (G1.mul a k, c) (k * m, n) := by
  obtain ⟨ha, hc⟩ := multiples_iff.mp h
  refine multiples_iff.mpr ⟨?_, hc⟩
  rw [Int.cast_mul]
  exact ha.mul k

theorem Multiples.mul_right : Multiples (a, G2.mul c k) (m, k * n) := by
  obtain ⟨ha, hc⟩ := multiples_iff.mp h
  refine multiples_iff.mpr ⟨ha, ?_⟩
  rw [Int.cast_mul]
  exact hc.mul k

end Multiples

theorem exists_append_of_forall₂ {before after : List (G1 × G2)} {pair : G1 × G2} {scalars : List (ℤ × ℤ)}
    (h : List.Forall₂ Multiples (before ++ pair :: after) scalars) :
    ∃ s s' t, scalars = s ++ t :: s' ∧ List.Forall₂ Multiples before s ∧ Multiples pair t ∧
      List.Forall₂ Multiples after s' := by
  induction before generalizing scalars with
  | nil =>
    cases h with
    | cons hpair hafter => exact ⟨[], _, _, rfl, .nil, hpair, hafter⟩
  | cons first before ih =>
    cases h with
    | cons hfirst h =>
      obtain ⟨s, s', t, rfl, hbefore, hpair, hafter⟩ := ih h
      exact ⟨_ :: s, s', t, rfl, .cons hfirst hbefore, hpair, hafter⟩

def form (scalars : List (ℤ × ℤ)) : ℤ :=
  (scalars.map fun s => s.1 * s.2).sum

theorem form_append (s t : List (ℤ × ℤ)) : form (s ++ t) = form s + form t := by
  rw [form, form, form, List.map_append, List.sum_append]

theorem form_cons (s : ℤ × ℤ) (t : List (ℤ × ℤ)) : form (s :: t) = s.1 * s.2 + form t := by
  rw [form, form, List.map_cons, List.sum_cons]

section Lawful

variable [PairingSteps] [PairingSteps.Lawful]

theorem checkProduct_eq_form {pairs : List (G1 × G2)} {scalars : List (ℤ × ℤ)}
    (h : List.Forall₂ Multiples pairs scalars) : checkProduct pairs = .ok (decide (form scalars % r = 0)) := by
  have hpairs : List.Forall₂ PairRepresents pairs (scalars.map fun s => ((s.1 : Fr), (s.2 : Fr))) := by
    rw [List.forall₂_map_right_iff]
    exact h.imp fun _ _ h => multiples_iff.mp h
  have hsum : ((scalars.map fun s => ((s.1 : Fr), (s.2 : Fr))).map fun s => s.1 * s.2).sum = (form scalars : Fr) := by
    rw [form, Int.cast_list_sum, List.map_map, List.map_map]
    congr 2
    funext s
    exact (Int.cast_mul s.1 s.2).symm
  rw [checkProduct_ok hpairs, hsum]
  simp only [Scalar.emod_eq_zero_iff]

/-- A product of pairings of multiples of the generators is one exactly if the form vanishes modulo `r`. The order of
the pairs, pairs with a point at infinity, and the side on which a scalar stands make no difference. -/
theorem checkProduct_bilinear {pairs : List (G1 × G2)} {scalars : List (ℤ × ℤ)}
    (h : List.Forall₂ Multiples pairs scalars) :
    checkProduct pairs = .ok (decide (form scalars % r = 0)) ∧
    (∀ pairs', pairs'.Perm pairs → checkProduct pairs' = checkProduct pairs) ∧
    (∀ before pair after, before ++ after = pairs → G1.isInfinity pair.1 = true ∨ G2.isInfinity pair.2 = true →
      checkProduct (before ++ pair :: after) = checkProduct pairs) ∧
    ∀ before a c after (k : ℤ), before ++ (a, c) :: after = pairs →
      checkProduct (before ++ (G1.mul a k, c) :: after) = checkProduct (before ++ (a, G2.mul c k) :: after) := by
  refine ⟨checkProduct_eq_form h, ?_, ?_, ?_⟩
  · intro pairs' hperm
    obtain ⟨scalars', h', hscalars⟩ := List.perm_comp_forall₂ hperm h
    have hform : form scalars' = form scalars := (hscalars.map _).sum_eq
    rw [checkProduct_eq_form h', checkProduct_eq_form h, hform]
  · rintro before pair after rfl hpair
    exact checkProduct_skip hpair before after
  · rintro before a c after k rfl
    obtain ⟨s, s', ⟨m, n⟩, rfl, hbefore, hpair, hafter⟩ := exists_append_of_forall₂ h
    have hleft := List.rel_append hbefore (.cons (hpair.mul_left k) hafter)
    have hright := List.rel_append hbefore (.cons (hpair.mul_right k) hafter)
    have hform : form (s ++ (k * m, n) :: s') = form (s ++ (m, k * n) :: s') := by
      simp only [form_append, form_cons]
      ring
    rw [checkProduct_eq_form hleft, checkProduct_eq_form hright, hform]

end Lawful

def samplePairs : List (G1 × G2) :=
  [(rescale 3 G1.generator, G2.mul G2.generator 2), (⟨5, 7, 0⟩, G2.generator), (G1.mul G1.generator (-2), G2.generator)]

theorem multiples_samplePairs : List.Forall₂ Multiples samplePairs [(1, 2), (0, 1), (-2, 1)] := by
  have hgenerators : Multiples (G1.generator, G2.generator) (1, 1) :=
    ⟨G1.onCurve_generator, (one_smul _ _).symm, G2.onCurve_generator, (one_smul _ _).symm⟩
  have hrescaled : Multiples (rescale 3 G1.generator, G2.generator) (1, 1) := by
    have hsame := samePoint_rescale (show (3 : Fp) ≠ 0 by decide) G1.generator
    obtain ⟨hcurve, hpoint⟩ := hsame.toPoint_eq G1.onCurve_generator
    exact ⟨hcurve, hpoint.trans hgenerators.left, hgenerators.right_onCurve, hgenerators.right⟩
  have hinfinity : Multiples (⟨5, 7, 0⟩, G2.generator) (0, 1) :=
    ⟨onCurve_of_z_eq_zero rfl, (toPoint_of_z_eq_zero rfl).trans (zero_smul _ _).symm, hgenerators.right_onCurve,
      hgenerators.right⟩
  exact .cons (hrescaled.mul_right 2) (.cons hinfinity (.cons (hgenerators.mul_left (-2)) .nil))

theorem checkProduct_bilinear_samplePairs :
    letI := discrete
    checkProduct samplePairs = .ok true ∧ checkProduct samplePairs.reverse = .ok true ∧
      checkProduct (samplePairs ++ [(G1.generator, ⟨1, 1, 0⟩)]) = .ok true ∧
      checkProduct [(rescale 3 G1.generator, G2.mul G2.generator 2)] = .ok false := by
  let := discrete
  have := lawful_discrete
  obtain ⟨hproduct, hperm, hskip, -⟩ := checkProduct_bilinear multiples_samplePairs
  obtain ⟨hfirst, -⟩ := checkProduct_bilinear (.cons (List.forall₂_cons.mp multiples_samplePairs).1 .nil)
  have hinfinity := hskip samplePairs (G1.generator, ⟨1, 1, 0⟩) [] (List.append_nil _) (.inr rfl)
  exact ⟨hproduct, (hperm _ (List.reverse_perm _)).trans hproduct, hinfinity.trans hproduct, hfirst⟩

end Pairing

end Settlement.Bn254

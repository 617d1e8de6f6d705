import Mathlib
import Settlement.Proofs.Verifier.Degree
import Settlement.Proofs.Verifier.Linearization

namespace Settlement

open Bn254 Constraints Polynomial

namespace Bn254.Domain

variable {d : Domain} {inputs : List ℤ}

structure IsBasisAt (d : Domain) (z : ℤ) (value : ℤ → ℤ) : Prop where
  canonical : ∀ i, 0 ≤ value i ∧ value i < r
  periodic : ∀ i j : ℤ, i % d.size = j % d.size → value i = value j
  interpolates : ∀ p : Fr[X], p.degree < d.size →
    p.eval (z : Fr) = ∑ i ∈ Finset.range d.size, p.eval (d.node i) * (value i : Fr)

/-- The polynomial has the inputs as its values in the first rows and zero in the others. -/
def TakesInputs (d : Domain) (inputs : List ℤ) (p : Fr[X]) : Prop :=
  p.degree < d.size ∧ ∀ i < d.size, p.eval (d.node i) = ((inputs.getD i 0 : ℤ) : Fr)

theorem lagrangeMany_of_pow_eq_one {z : ℤ} (hz : (z : Fr) ^ d.size = 1) (indices : List ℤ) :
    d.lagrangeMany indices z = .error .pointInDomain := by
  rw [lagrangeMany, if_pos ((vanishing_eq_zero_iff d z).mpr hz)]

namespace Accepted

variable (hd : d.Accepted)

include hd

theorem isBasisAt (z : ℤ) : d.IsBasisAt z (d.basisValue z) where
  canonical i := ⟨Int.natCast_nonneg _, Int.ofNat_lt.mpr (ZMod.val_lt _)⟩
  periodic i j h := by rw [basisValue, h, basisValue]
  interpolates p hp := by
    have hcard : p.degree < (Finset.range d.size).card := by rwa [Finset.card_range]
    calc p.eval (z : Fr)
        = (Lagrange.interpolate (Finset.range d.size) d.node fun i => p.eval (d.node i)).eval (z : Fr) := by
          rw [← Lagrange.eq_interpolate hd.node_injOn hcard]
      _ = ∑ i ∈ Finset.range d.size, p.eval (d.node i) * (d.basis i).eval (z : Fr) := by
          rw [Lagrange.interpolate_apply, eval_finsetSum]
          exact Finset.sum_congr rfl fun i _ => by rw [eval_mul, eval_C, basis]
      _ = ∑ i ∈ Finset.range d.size, p.eval (d.node i) * (d.basisValue z i : Fr) := by
          refine Finset.sum_congr rfl fun i hi => ?_
          have hlt := Finset.mem_range.mp hi
          rw [cast_basisValue, Int.emod_eq_of_lt (by omega) (by omega), Int.toNat_natCast]

theorem lagrange_eq {z : ℤ} (hz : (z : Fr) ^ d.size ≠ 1) (i : ℤ) : d.lagrange i z = .ok (d.basisValue z i) := by
  have hmem : i ∈ sortedIndices [i] := mem_sortedIndices.mpr List.mem_cons_self
  rw [lagrange, hd.lagrangeMany_eq hz]
  change Except.ok _ = _
  rw [lookup_map_of_mem hmem, Option.getD_some]

theorem takesInputs_inputPolynomial (hinputs : inputs.length ≤ d.size) :
    d.TakesInputs inputs (inputPolynomial d inputs) := by
  have hpos := hd.size_pos
  constructor
  · have hdegree := natDegree_inputPolynomial_le hd hinputs
    refine degree_le_natDegree.trans_lt ?_
    exact_mod_cast (show (inputPolynomial d inputs).natDegree < d.size by omega)
  · intro i hi
    have hterm (j : Fin inputs.length) : (C (inputs.get j : Fr) * d.basis j).eval (d.node i) =
        if (j : ℕ) = i then (inputs.get j : Fr) else 0 := by
      rw [eval_mul, eval_C, hd.eval_basis_node (j.isLt.trans_le hinputs) hi, mul_ite, mul_one, mul_zero]
    rw [inputPolynomial, eval_finsetSum, Finset.sum_congr rfl fun j _ => hterm j]
    by_cases hlt : i < inputs.length
    · rw [Finset.sum_eq_single ⟨i, hlt⟩]
      · rw [if_pos rfl, List.getD_eq_getElem _ _ hlt]
        rfl
      · exact fun j _ hj => if_neg fun h => hj (Fin.ext h)
      · exact fun h => absurd (Finset.mem_univ _) h
    · rw [List.getD_eq_default _ _ (not_lt.mp hlt), Int.cast_zero]
      exact Finset.sum_eq_zero fun j _ => if_neg fun h : (j : ℕ) = i => hlt (h ▸ j.isLt)

theorem takesInputs_unique {p q : Fr[X]} (hp : d.TakesInputs inputs p) (hq : d.TakesInputs inputs q) : q = p := by
  apply eq_of_degrees_lt_of_eval_index_eq (Finset.range d.size) hd.node_injOn
  · rw [Finset.card_range]
    exact hq.1
  · rw [Finset.card_range]
    exact hp.1
  · intro i hi
    rw [Finset.mem_range] at hi
    rw [hq.2 i hi, hp.2 i hi]

end Accepted

end Bn254.Domain

namespace Linearization

open Domain

theorem Point.publicInput_emod {key : Key} {inputs : List ℤ} {ch : Challenges} {pt : Point}
    (h : Point.of key inputs ch = .ok pt) : pt.publicInput % r = pt.publicInput := by
  obtain ⟨table, -, h⟩ := Except.bind_eq_ok.mp h
  obtain rfl := Except.ok.inj h
  exact Int.emod_emod_of_dvd _ dvd_rfl

/-- Outside a domain the table of the Lagrange basis interpolates; the value for the public inputs is that of the one
polynomial that takes them in the first rows. -/
theorem lagrange_interpolates {size omega : ℤ} {d : Domain} (h : ofRoot size omega = .ok d) :
    (∀ z : ℤ, (∀ indices e, d.lagrangeMany indices z = .error e ↔ (z : Fr) ^ d.size = 1 ∧ e = .pointInDomain) ∧
      ((z : Fr) ^ d.size ≠ 1 → ∃ value, d.IsBasisAt z value ∧ (∀ i, d.lagrange i z = .ok (value i)) ∧
        ∀ indices, ∃ keys : List ℤ, keys.Pairwise (· < ·) ∧ (∀ i, i ∈ keys ↔ i ∈ indices) ∧
          d.lagrangeMany indices z = .ok (keys.map fun i => (i, value i)))) ∧
    ∀ (key : Key) (inputs : List ℤ) (ch : Challenges), key.domain = d → inputs.length ≤ d.size →
      (ch.z : Fr) ^ d.size ≠ 1 → ∃ pt p, Point.of key inputs ch = .ok pt ∧ d.TakesInputs inputs p ∧
        (∀ q, d.TakesInputs inputs q → q = p) ∧ pt.publicInput = ((p.eval (ch.z : Fr)).val : ℤ) := by
  obtain ⟨hd, -, -⟩ := accepted_of_ofRoot h
  refine ⟨fun z => ⟨fun indices e => ?_, fun hz => ?_⟩, ?_⟩
  · by_cases hz : (z : Fr) ^ d.size = 1
    · rw [lagrangeMany_of_pow_eq_one hz, Except.error.injEq, eq_comm]
      exact (and_iff_right hz).symm
    · rw [hd.lagrangeMany_eq hz]
      exact iff_of_false (by simp) fun h => hz h.1
  · refine ⟨d.basisValue z, hd.isBasisAt z, hd.lagrange_eq hz, fun indices => ?_⟩
    exact ⟨sortedIndices indices, pairwise_sortedIndices indices, fun i => mem_sortedIndices,
      hd.lagrangeMany_eq hz indices⟩
  · rintro key inputs ch rfl hinputs hz
    obtain ⟨pt, hpt, hexact⟩ := Point.of_ok hd hinputs hz
    have htakes := hd.takesInputs_inputPolynomial hinputs
    refine ⟨pt, inputPolynomial key.domain inputs, hpt, htakes, fun q => hd.takesInputs_unique htakes, ?_⟩
    rw [← hexact.publicInput, ZMod.val_intCast, Point.publicInput_emod hpt]

theorem lagrange_interpolates_twoRows :
    ofRoot 2 (r - 1) = .ok twoRowKey.domain ∧
      twoRowKey.domain.lagrangeMany [-1, 4, -1] (r - 1) = .error .pointInDomain ∧
      ∃ value, twoRowKey.domain.IsBasisAt 3 value ∧ twoRowKey.domain.lagrange (-1) 3 = .ok (value 5) := by
  obtain ⟨htable, -⟩ := lagrange_interpolates ofRoot_twoRowKey
  have hinside : (((r - 1 : ℤ)) : Fr) ^ twoRowKey.domain.size = 1 := by decide
  have houtside : ((3 : ℤ) : Fr) ^ twoRowKey.domain.size ≠ 1 := by decide
  obtain ⟨value, hvalue, hlagrange, -⟩ := (htable 3).2 houtside
  refine ⟨ofRoot_twoRowKey, ((htable (r - 1)).1 _ _).mpr ⟨hinside, rfl⟩, value, hvalue, ?_⟩
  rw [hlagrange, hvalue.periodic (-1) 5 (by decide)]

end Linearization

end Settlement

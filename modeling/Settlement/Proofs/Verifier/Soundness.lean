import Mathlib
import Settlement.Proofs.Verifier.Degree
import Settlement.Proofs.Verifier.TrueClaims

namespace Settlement.Linearization

open Bn254 Constraints Polynomial

theorem natDegree_quotientPolynomial_le {n : ℕ} (hn : 0 < n) {parts : Fin 4 → Fr[X]}
    (hparts : ∀ i, (parts i).natDegree < n) : (quotientPolynomial n parts).natDegree ≤ 4 * n - 1 := by
  apply natDegree_sum_le_of_forall_le
  intro i _
  have hpow : (X ^ (n * (i : ℕ)) : Fr[X]).natDegree ≤ n * 3 :=
    (natDegree_X_pow_le _).trans (Nat.mul_le_mul_left n (by omega))
  have hpart := hparts i
  exact natDegree_mul_le' hpow (j := n - 1) (by omega) (by omega)

theorem natDegree_vanishing_le (n : ℕ) : (X ^ n - 1 : Fr[X]).natDegree ≤ n := by
  rw [← C_1, natDegree_X_pow_sub_C]

variable {key : Key} {inputs : List ℤ} {ps : KeyPolynomials} {cols : Columns}

theorem eval_identityPolynomial_eq_sum (ch : Challenges) (z : Fr) :
    (identityPolynomial key ch inputs ps cols).eval z =
      ∑ k : Fin 9, (ch.alpha : Fr) ^ (k : ℕ) * (constraintPolynomial key ch inputs ps cols k).eval z := by
  rw [identityPolynomial, identity, eval_finsetSum]
  exact Finset.sum_congr rfl fun k _ => by rw [← C_pow, eval_C_mul, constraintPolynomial]

def passingPoints (key : Key) (inputs : List ℤ) (ch : Challenges) (ps : KeyPolynomials) (cols : Columns)
    (parts : Fin 4 → Fr[X]) : Set Fr :=
  {x | x ^ key.domain.size ≠ 1 ∧ ∃ (z : ℤ) (proof : Proof) (lin : Linearization), (z : Fr) = x ∧
    TrueClaims key inputs { ch with z } ps cols parts proof.evaluations ∧
    (build key inputs proof { ch with z }).Ends (.ok lin)}

theorem eval_eq_of_mem_passingPoints (hd : key.domain.Accepted) (hinputs : inputs.length ≤ key.domain.size)
    {ch : Challenges} {parts : Fin 4 → Fr[X]} {x : Fr} (hx : x ∈ passingPoints key inputs ch ps cols parts) :
    (quotientPolynomial key.domain.size parts).eval x * (x ^ key.domain.size - 1) =
      (identityPolynomial key ch inputs ps cols).eval x := by
  obtain ⟨-, z, proof, lin, rfl, hclaims, hends⟩ := hx
  obtain ⟨pt, hof, hpt, hholds, -⟩ := of_build_ends_ok hd hinputs hends
  exact (hclaims.quotientHolds_iff hof hpt).mp hholds

/-- If some constraint is not zero in some row, then for all but eight separators, whatever the quotient,
true evaluations pass the check at fewer than five points for each row. -/
theorem ncard_passingPoints_le {size omega : ℤ} (hdomain : Domain.ofRoot size omega = .ok key.domain)
    (hinputs : inputs.length ≤ key.domain.size) (ch : Challenges)
    (hps : ∀ p ∈ ps.toList, p.natDegree < key.domain.size)
    (hcols : ∀ p ∈ cols.toList, p.natDegree < key.domain.size)
    (hfail : ∃ i < key.domain.size, ∃ k,
      (constraintPolynomial key ch inputs ps cols k).eval (key.domain.node i) ≠ 0) :
    ∃ bad : Set Fr, bad.ncard ≤ 8 ∧ ∀ alpha : ℤ, (alpha : Fr) ∉ bad →
      ∀ parts : Fin 4 → Fr[X], (∀ i, (parts i).natDegree < key.domain.size) →
        (passingPoints key inputs { ch with alpha } ps cols parts).ncard ≤ 5 * key.domain.size - 1 := by
  obtain ⟨hd, -⟩ := Domain.accepted_of_ofRoot hdomain
  obtain ⟨i, -, hk⟩ := hfail
  have hsize := hd.two_le
  -- the bad separators fold the constraints of the failing row to zero
  refine ⟨{u | ∑ k : Fin 9, u ^ (k : ℕ) *
    (constraintPolynomial key ch inputs ps cols k).eval (key.domain.node i) = 0},
    ncard_le_of_fold_eq_zero hk fun _ hu => hu, ?_⟩
  intro alpha halpha parts hparts
  let difference := identityPolynomial key { ch with alpha } inputs ps cols -
    quotientPolynomial key.domain.size parts * (X ^ key.domain.size - 1)
  have hne : difference ≠ 0 := by
    intro h0
    have hrow := congrArg (eval (key.domain.node i)) h0
    rw [eval_sub, eval_mul, eval_sub, eval_pow, eval_X, eval_one, hd.node_pow, sub_self, mul_zero,
      sub_zero, eval_zero, eval_identityPolynomial_eq_sum] at hrow
    exact halpha hrow
  have hdegree : difference.natDegree ≤ 5 * key.domain.size - 1 := by
    have hrow := bounded_ofPolynomials hd (ch.eta : Fr) hinputs (fun p hp => Nat.le_sub_one_of_lt (hps p hp))
      (fun p hp => Nat.le_sub_one_of_lt (hcols p hp))
    have hidentity : (identityPolynomial key { ch with alpha } inputs ps cols).natDegree ≤
        5 * (key.domain.size - 1) := natDegree_identity_le (Setting.of key ch) hrow alpha
    exact natDegree_sub_le' (hidentity.trans (by omega))
      (natDegree_mul_le' (natDegree_quotientPolynomial_le (by omega) hparts) (natDegree_vanishing_le _)
        (by omega))
  refine (ncard_le_natDegree hne ?_).trans hdegree
  intro x hx
  rw [eval_sub, eval_mul, eval_sub, eval_pow, eval_X, eval_one,
    eval_eq_of_mem_passingPoints hd hinputs hx, sub_self]

noncomputable def emptyColumns : Columns := ⟨0, 0, 0, 0, 0, 0, 0⟩

theorem eval_constraintPolynomial_emptyColumns (ch : Challenges) :
    (constraintPolynomial twoRowKey ch [96] twoRowPolynomials emptyColumns 5).eval (twoRowKey.domain.node 0) =
      -1 := by
  -- a copy product of zero is not one in the first row
  have hd := wellFormed_twoRowKey.domain
  change ((0 - 1) * twoRowKey.domain.basis 0).eval (twoRowKey.domain.node 0) = -1
  rw [eval_mul, hd.eval_basis_node (by decide) (by decide), eval_sub, eval_zero, eval_one, if_pos rfl]
  ring

theorem ncard_passingPoints_le_emptyColumns :
    ∃ bad : Set Fr, bad.ncard ≤ 8 ∧ ∀ alpha : ℤ, (alpha : Fr) ∉ bad →
      ∀ parts : Fin 4 → Fr[X], (∀ i, (parts i).natDegree < 2) →
        (passingPoints twoRowKey [96] { looseChallenges with alpha } twoRowPolynomials emptyColumns
          parts).ncard ≤ 9 := by
  have hinputs : [(96 : ℤ)].length ≤ twoRowKey.domain.size := by decide
  refine ncard_passingPoints_le ofRoot_twoRowKey hinputs looseChallenges
    natDegree_twoRowPolynomials_lt ?_ ⟨0, by decide, 5, ?_⟩
  · simp [Columns.toList, emptyColumns, twoRowKey]
  · rw [eval_constraintPolynomial_emptyColumns]
    decide

end Settlement.Linearization

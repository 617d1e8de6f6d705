import Mathlib
import Settlement.Proofs.Verifier.Openings

namespace Settlement.Openings

open Bn254 Linearization

def Opens [PairingSteps] (key : Key) (proof : Proof) (lin : Linearization) (ch : Challenges) : Prop :=
  (build key proof ch lin >>= fun os => check key os ch).Ends (.ok ())

theorem eq_zero_of_opens [PairingSteps] [PairingSteps.Lawful] {key : Key} (hkey : key.WellFormed) {x : Fr}
    (hx : key.openingKey.xG2.Represents x) {proof : Proof} (hproof : proof.WellFormed)
    {lin : Linearization} (hlin : OnCurve lin) {ch : Challenges} (h : Opens key proof lin ch) :
    Scalar.fold (ch.v : Fr) ((claimsAtZ key proof lin).map gap) + (ch.z - x) * G1.log proof.openingAtZ +
      ch.u * (Scalar.fold (ch.v : Fr) ((claimsAtNext proof lin).map gap) +
        (ch.z * key.domain.omega - x) * G1.log proof.openingAtNext) = 0 := by
  obtain ⟨c, y, c', y', hbuild, hos, hgap, hgap'⟩ := build_ends hkey hproof hlin ch
  have hends : (build key proof ch lin >>= fun os => check key os ch).Ends _ :=
    .bind hbuild (check_ends hkey hx (List.cons_ne_nil _ _) hos ch)
  have hresult := hends.result_unique h
  split at hresult
  · rename_i hsum
    rw [← hgap, ← hgap', gap, gap]
    refine Eq.trans ?_ hsum
    simp [Kzg.Opening.defect, Fin.sum_univ_two]
  · cases hresult

noncomputable def gapChange (claims claims' : List (G1 × ℤ)) (i : ℕ) : Fr :=
  (claims.map gap).getD i 0 - (claims'.map gap).getD i 0

section Both

variable {key : Key} (hkey : key.WellFormed) {proof : Proof} (hproof : proof.WellFormed)
  {e e' : Evaluations} {lin lin' : Linearization} {ch : Challenges}

include hkey hproof in
theorem sum_eq_zero_of_opens [PairingSteps] [PairingSteps.Lawful] {x : Fr}
    (hx : key.openingKey.xG2.Represents x) (hlin : OnCurve lin) (hlin' : OnCurve lin')
    (h : Opens key (proof.withEvaluations e) lin ch)
    (h' : Opens key (proof.withEvaluations e') lin' ch) :
    ∑ i : Fin 13, (ch.v : Fr) ^ (i : ℕ) *
      (gapChange (claimsAtZ key (proof.withEvaluations e) lin)
          (claimsAtZ key (proof.withEvaluations e') lin') i +
        ch.u * gapChange (claimsAtNext (proof.withEvaluations e) lin)
          (claimsAtNext (proof.withEvaluations e') lin') i) = 0 := by
  have hatZ (e : Evaluations) (lin : Linearization) :
      ((claimsAtZ key (proof.withEvaluations e) lin).map gap).length ≤ 13 := by
    simp [claimsAtZ, Key.sigmas, Evaluations.wires, (hproof.withEvaluations e).wires]
  have hatNext (e : Evaluations) (lin : Linearization) :
      ((claimsAtNext (proof.withEvaluations e) lin).map gap).length ≤ 13 := by
    simp [claimsAtNext]
  have heq := eq_zero_of_opens hkey hx (hproof.withEvaluations e) hlin h
  have heq' := eq_zero_of_opens hkey hx (hproof.withEvaluations e') hlin' h'
  rw [Scalar.fold_eq_sum_getD _ (hatZ ..), Scalar.fold_eq_sum_getD _ (hatNext ..)] at heq heq'
  rw [← sub_eq_zero.mpr (heq.trans heq'.symm)]
  have hsplit (a a' b b' : Fin 13 → Fr) :
      ∑ i : Fin 13, (ch.v : Fr) ^ (i : ℕ) * ((a i - a' i) + ch.u * (b i - b' i)) =
        (∑ i : Fin 13, (ch.v : Fr) ^ (i : ℕ) * a i - ∑ i : Fin 13, (ch.v : Fr) ^ (i : ℕ) * a' i) +
          ch.u * (∑ i : Fin 13, (ch.v : Fr) ^ (i : ℕ) * b i - ∑ i : Fin 13, (ch.v : Fr) ^ (i : ℕ) * b' i) := by
    rw [← Finset.sum_sub_distrib, ← Finset.sum_sub_distrib, Finset.mul_sum, ← Finset.sum_add_distrib]
    exact Finset.sum_congr rfl fun i _ => by ring
  simp only [gapChange, hsplit, Proof.withEvaluations]
  ring

include hproof in
theorem values_eq_of_gaps (hquotient : lin.quotient = lin'.quotient) (htable : lin.table = lin'.table)
    (hZ : ∀ i : Fin 13, gapChange (claimsAtZ key (proof.withEvaluations e) lin)
      (claimsAtZ key (proof.withEvaluations e') lin') i = 0)
    (hNext : ∀ i : Fin 13, gapChange (claimsAtNext (proof.withEvaluations e) lin)
      (claimsAtNext (proof.withEvaluations e') lin') i = 0) :
    (e.toList.take 17).map (Int.cast : ℤ → Fr) = (e'.toList.take 17).map Int.cast := by
  -- the linearization, which has its own commitment, is left out
  obtain ⟨w0, w1, w2, w3, hw⟩ := List.length_eq_four.mp hproof.wires
  simp [Proof.withEvaluations, Fin.forall_fin_succ, gapChange, sub_eq_zero, gap, claimsAtZ, claimsAtNext, hw, sigmas_eq,
    Evaluations.wires, hquotient, htable] at hZ hNext
  obtain ⟨hq, -, ha, hb, hc, hd, hgate, h0, h1, h2, hselector, htype, ht⟩ := hZ
  obtain ⟨hcopy, hdNext, hs, hlookup, htNext⟩ := hNext
  simp only [Evaluations.toList, List.take_succ_cons, List.take_zero, List.map_cons, List.map_nil, ha, hb, hc,
    hd, hdNext, hgate, h0, h1, h2, hcopy, hs, hlookup, ht, htNext, hselector, htype, hq]

end Both

theorem cast_constant_eq {e e' : Evaluations}
    (h : (e.toList.take 17).map (Int.cast : ℤ → Fr) = (e'.toList.take 17).map Int.cast) (ch : Challenges)
    (pt : Point) : (constant e ch pt : Fr) = constant e' ch pt := by
  simp only [Evaluations.toList, List.take_succ_cons, List.take_zero, List.map_cons, List.map_nil,
    List.cons.injEq] at h
  obtain ⟨ha, hb, hc, hd, -, hgate, h0, h1, h2, hcopy, hs, hlookup, -⟩ := h
  simp only [constant, Scalar.cast_emod, Int.cast_sub, Int.cast_mul, Int.cast_neg, Int.cast_add,
    cast_permutationTail, ha, hb, hc, hd, hgate, h0, h1, h2, hcopy, hs, hlookup]

theorem values_eq_of_quotientHolds {key : Key} {inputs : List ℤ} {ch : Challenges} {pt : Point}
    (hpt : pt.Exact key inputs ch) {e e' : Evaluations} (hq : quotientHolds e ch pt = true)
    (hq' : quotientHolds e' ch pt = true)
    (h : (e.toList.take 17).map (Int.cast : ℤ → Fr) = (e'.toList.take 17).map Int.cast) :
    e.toList.map (Int.cast : ℤ → Fr) = e'.toList.map Int.cast := by
  have hconstant := cast_constant_eq h ch pt
  rw [quotientHolds_iff hpt] at hq hq'
  have hquotient : (e.quotient : Fr) = e'.quotient := by
    simpa [Evaluations.toList] using congrArg (List.getLast?) h
  have hlinearization : (e.linearization : Fr) = e'.linearization := by
    linear_combination hq' - hq + (ch.z ^ key.domain.size - 1) * hquotient - hconstant
  have hsplit (e : Evaluations) : e.toList = e.toList.take 17 ++ [e.linearization] := rfl
  rw [hsplit e, hsplit e', List.map_append, List.map_append, h, List.map_singleton, List.map_singleton,
    hlinearization]

theorem exists_separator {n : ℕ} {a b : Fin n → Fr} (h : ∃ i, a i ≠ 0 ∨ b i ≠ 0) :
    ∃ u₀, ∀ u ≠ u₀, ∃ i, a i + u * b i ≠ 0 := by
  obtain ⟨i, hi⟩ := h
  by_cases hb : b i = 0
  · refine ⟨0, fun u _ => ⟨i, ?_⟩⟩
    rw [hb, mul_zero, add_zero]
    exact hi.resolve_right (not_not.mpr hb)
  · refine ⟨-a i / b i, fun u hu => ⟨i, fun h0 => hu ?_⟩⟩
    rw [eq_div_iff hb]
    linear_combination h0

/-- Two different lists of evaluations that both agree with the quotient are both accepted, for all but one
separator of the openings, under twelve separators of the claims at most. -/
theorem ncard_accepting_both_le [PairingSteps] [PairingSteps.Lawful] {key : Key} (hkey : key.WellFormed)
    {x : Fr} (hx : key.openingKey.xG2.Represents x) {proof : Proof} (hproof : proof.WellFormed)
    {inputs : List ℤ} (hinputs : inputs.length = key.numInputs) {ch : Challenges} {e e' : Evaluations}
    (hne : e.toList.map (Int.cast : ℤ → Fr) ≠ e'.toList.map Int.cast) {lin lin' : Linearization}
    (hlin : (Linearization.build key inputs (proof.withEvaluations e) ch).Ends (.ok lin))
    (hlin' : (Linearization.build key inputs (proof.withEvaluations e') ch).Ends (.ok lin')) :
    ∃ u₀ : Fr, ∀ u : ℤ, (u : Fr) ≠ u₀ →
      {y : Fr | ∃ v : ℤ, (v : Fr) = y ∧
        Opens key (proof.withEvaluations e) lin { ch with v, u } ∧
        Opens key (proof.withEvaluations e') lin' { ch with v, u }}.ncard ≤ 12 := by
  have hlength := hinputs.trans_le hkey.numInputs_le
  obtain ⟨pt, hof, hpt, hholds, heq⟩ := of_build_ends_ok hkey.domain hlength hlin
  obtain ⟨pt', hof', -, hholds', heq'⟩ := of_build_ends_ok hkey.domain hlength hlin'
  obtain rfl := Except.ok.inj (hof.symm.trans hof')
  have hcurve : OnCurve lin := by
    rw [heq]
    exact onCurve_result hkey (hproof.withEvaluations e) ch pt
  have hcurve' : OnCurve lin' := by
    rw [heq']
    exact onCurve_result hkey (hproof.withEvaluations e') ch pt
  have hchange : ∃ i : Fin 13, gapChange (claimsAtZ key (proof.withEvaluations e) lin)
        (claimsAtZ key (proof.withEvaluations e') lin') i ≠ 0 ∨
      gapChange (claimsAtNext (proof.withEvaluations e) lin)
        (claimsAtNext (proof.withEvaluations e') lin') i ≠ 0 := by
    by_contra hall
    simp only [not_exists, not_or, not_not] at hall
    apply hne
    apply values_eq_of_quotientHolds hpt hholds hholds'
    apply values_eq_of_gaps hproof _ _ (fun i => (hall i).1) fun i => (hall i).2
    · rw [heq, heq', result, result]
      rfl
    · rw [heq, heq', result, result]
  obtain ⟨u₀, hu₀⟩ := exists_separator hchange
  refine ⟨u₀, fun u hu => ncard_le_of_fold_eq_zero (hu₀ u hu) ?_⟩
  rintro _ ⟨v, rfl, h, h'⟩
  have hsum := sum_eq_zero_of_opens hkey hproof hx hcurve hcurve' h h'
  exact hsum

def looseClaims (quotient : ℤ) : Evaluations :=
  { looseProof.evaluations with quotient, linearization := 68176278865 + 3 * quotient }

theorem exists_build_looseClaims {q : ℤ} (hq : q = 17 ∨ q = 18) :
    ∃ lin, (Linearization.build twoRowKey [96] (looseProof.withEvaluations (looseClaims q))
      looseChallenges).Ends (.ok lin) := by
  have hz : (looseChallenges.z : Fr) ^ twoRowKey.domain.size ≠ 1 := by decide
  have hinputs : [(96 : ℤ)].length ≤ twoRowKey.domain.size := by decide
  obtain ⟨pt, hof, -⟩ := Point.of_ok wellFormed_twoRowKey.domain hinputs hz
  have hholds : (Point.of twoRowKey [96] looseChallenges).toOption.any
      (quotientHolds (looseClaims q) looseChallenges) = true := by
    simp only [Point.of, Domain.lagrangeMany, sortedIndices_twoRowKey]
    obtain rfl | rfl := hq
    · decide +kernel
    · decide +kernel
  rw [hof] at hholds
  have hends : (Linearization.build twoRowKey [96] (looseProof.withEvaluations (looseClaims q))
    looseChallenges).Ends _ := Linearization.build_ends hof hz
  rw [show quotientHolds (looseProof.withEvaluations (looseClaims q)).evaluations looseChallenges pt = true
    from hholds, if_pos rfl] at hends
  exact ⟨_, hends⟩

theorem ncard_accepting_both_le_looseClaims :
    letI := Pairing.discrete
    ∃ lin lin' u₀, ∀ u : ℤ, (u : Fr) ≠ u₀ →
      {y : Fr | ∃ v : ℤ, (v : Fr) = y ∧
        Opens twoRowKey (looseProof.withEvaluations (looseClaims 17)) lin { looseChallenges with v, u } ∧
        Opens twoRowKey (looseProof.withEvaluations (looseClaims 18)) lin'
          { looseChallenges with v, u }}.ncard ≤ 12 := by
  let := Pairing.discrete
  have := Pairing.lawful_discrete
  obtain ⟨lin, hlin⟩ := exists_build_looseClaims (.inl rfl)
  obtain ⟨lin', hlin'⟩ := exists_build_looseClaims (.inr rfl)
  have hne : (looseClaims 17).toList.map (Int.cast : ℤ → Fr) ≠ (looseClaims 18).toList.map Int.cast := by
    decide
  exact ⟨lin, lin', ncard_accepting_both_le wellFormed_twoRowKey represents_twoRowKey wellFormed_looseProof
    rfl hne hlin hlin'⟩

end Settlement.Openings

import Mathlib
import Settlement.Kzg
import Settlement.Proofs.Bn254.DiscretePairing
import Settlement.Proofs.Verifier.Metered

namespace Settlement.Kzg

open Bn254 Polynomial

structure Opening.OnCurve (o : Opening) : Prop where
  commitment : G1.onCurve o.commitment = true
  proof : G1.onCurve o.proof = true

/-- `c - y + (z - x) w` for the logarithms `c` and `w` of the points. -/
noncomputable def Opening.defect (x : Fr) (o : Opening) : Fr :=
  G1.log o.commitment - o.value + (o.point - x) * G1.log o.proof

structure OpeningKey.Represents (key : OpeningKey) (x : Fr) : Prop where
  g1 : key.g1.Represents 1
  g2 : key.g2.Represents 1
  xG2 : key.xG2.Represents x

theorem cast_foldl_value (pairs : List (ℤ × Opening)) (acc : ℤ) :
    ((pairs.foldl (fun (acc : ℤ) (t : ℤ × Opening) => (acc + t.1 * t.2.value) % r) acc : ℤ) : Fr) =
      acc + (pairs.map fun t => (t.1 : Fr) * t.2.value).sum := by
  induction pairs generalizing acc with
  | nil => simp
  | cons t pairs ih =>
    rw [List.foldl_cons, ih, List.map_cons, List.sum_cons, Scalar.cast_emod, Int.cast_add, Int.cast_mul,
      add_assoc]

theorem log_msm_claimTerms {openings : List Opening} {g : G1} (hg : g.Represents 1)
    (hos : ∀ o ∈ openings, o.OnCurve) (us : List ℤ) :
    G1.onCurve (G1.msm (claimTerms us openings g)) = true ∧
      G1.log (G1.msm (claimTerms us openings g)) = ((us.zip openings).map fun t =>
        (t.1 : Fr) * (G1.log t.2.commitment - t.2.value + t.2.point * G1.log t.2.proof)).sum := by
  have hmem (t : ℤ × Opening) (ht : t ∈ us.zip openings) : t.2.OnCurve := hos _ (List.of_mem_zip ht).2
  have hcurve : ∀ t ∈ claimTerms us openings g, G1.onCurve t.1 = true := by
    intro t ht
    simp only [claimTerms, List.mem_append, List.mem_flatMap, List.mem_cons, List.not_mem_nil, or_false] at ht
    obtain ⟨⟨u, o⟩, hp, rfl | rfl⟩ | rfl := ht
    · exact (hmem _ hp).commitment
    · exact (hmem _ hp).proof
    · exact hg.onCurve
  refine ⟨G1.onCurve_msm hcurve, ?_⟩
  have hvalue := cast_foldl_value (us.zip openings) 0
  rw [Int.cast_zero, zero_add] at hvalue
  rw [G1.logarithm_log.msm hcurve, claimTerms, List.map_append, List.sum_append, List.map_flatMap,
    List.map_singleton, List.sum_singleton, hg.log_eq, Scalar.cast_emod, Int.cast_sub, hvalue,
    Int.cast_natCast, ZMod.natCast_self, zero_sub, mul_one]
  induction us.zip openings with
  | nil => simp
  | cons t pairs ih =>
    simp only [List.flatMap_cons, List.sum_append, List.map_cons, List.sum_cons, Scalar.cast_emod,
      Int.cast_mul, List.map_nil, List.sum_nil] at ih ⊢
    rw [← ih]
    ring

theorem log_msm_proofTerms {openings : List Opening} (hos : ∀ o ∈ openings, o.OnCurve) (us : List ℤ) :
    G1.onCurve (G1.msm (proofTerms us openings)) = true ∧
      G1.log (G1.msm (proofTerms us openings)) =
        ((us.zip openings).map fun t => (t.1 : Fr) * G1.log t.2.proof).sum := by
  have hcurve : ∀ t ∈ proofTerms us openings, G1.onCurve t.1 = true := by
    intro t ht
    obtain ⟨⟨u, o⟩, hp, rfl⟩ := List.mem_map.mp ht
    exact (hos o (List.of_mem_zip hp).2).proof
  refine ⟨G1.onCurve_msm hcurve, ?_⟩
  rw [G1.logarithm_log.msm hcurve, proofTerms, List.map_map]
  rfl

noncomputable def openingQuotient (f : Fr[X]) (z : Fr) : Fr[X] := (f - C (f.eval z)) /ₘ (X - C z)

theorem mul_openingQuotient (f : Fr[X]) (z : Fr) : (X - C z) * openingQuotient f z = f - C (f.eval z) := by
  rw [openingQuotient, mul_divByMonic_eq_iff_isRoot, IsRoot.def, eval_sub, eval_C, sub_self]

theorem eval_openingQuotient {f : Fr[X]} {z x k : Fr} (hx : x - z ≠ 0) (h : (x - z) * k = f.eval x - f.eval z) :
    (openingQuotient f z).eval x = k := by
  have hmul := congrArg (eval x) (mul_openingQuotient f z)
  rw [eval_mul, eval_sub, eval_sub, eval_X, eval_C, eval_C] at hmul
  exact mul_left_cancel₀ hx (hmul.trans h.symm)

theorem defect_honest {x : Fr} (f : Fr[X]) {o : Opening} (hc : o.commitment.Represents (f.eval x))
    (hy : (o.value : Fr) = f.eval (o.point : Fr))
    (hw : o.proof.Represents ((openingQuotient f o.point).eval x)) : o.defect x = 0 := by
  have hmul := congrArg (eval x) (mul_openingQuotient f o.point)
  rw [eval_mul, eval_sub, eval_sub, eval_X, eval_C, eval_C] at hmul
  rw [Opening.defect, hc.log_eq, hw.log_eq, hy]
  linear_combination -hmul

section Check

variable [PairingSteps] [PairingSteps.Lawful] {key : OpeningKey} {x : Fr} (hkey : key.Represents x)

include hkey

theorem batchVerify_ends {openings : List Opening} (hne : openings ≠ [])
    (hos : ∀ o ∈ openings, o.OnCurve) (u : ℤ) :
    (batchVerify openings u key).Ends
      (.ok (decide (∑ i : Fin openings.length, (u : Fr) ^ (i : ℕ) * openings[i].defect x = 0))) := by
  let us := Scalar.powers (u % r) openings.length
  obtain ⟨hl, hlog⟩ := log_msm_claimTerms hkey.g1 hos us
  obtain ⟨hw, hwlog⟩ := log_msm_proofTerms hos us
  have hclaims : Pairing.PairRepresents (G1.msm (claimTerms us openings key.g1), key.g2)
      (G1.log (G1.msm (claimTerms us openings key.g1)), 1) := ⟨G1.represents_log hl, hkey.g2⟩
  have hproofs : Pairing.PairRepresents (G1.neg (G1.msm (proofTerms us openings)), key.xG2)
      (-G1.log (G1.msm (proofTerms us openings)), x) := ⟨(G1.represents_log hw).neg, hkey.xG2⟩
  have hpairs := Pairing.checkProduct_ok (.cons hclaims (.cons hproofs .nil))
  have hsum := Scalar.sum_zip_powers (Opening.defect x) (u % r) (rfl : openings.length = _)
  rw [Scalar.cast_emod] at hsum
  have hscalars : G1.log (G1.msm (claimTerms us openings key.g1)) * 1 +
      -G1.log (G1.msm (proofTerms us openings)) * x =
        ∑ i : Fin openings.length, (u : Fr) ^ (i : ℕ) * openings[i].defect x := by
    rw [← hsum, hlog, hwlog, mul_one]
    induction us.zip openings with
    | nil => simp
    | cons t pairs ih =>
      simp only [List.map_cons, List.sum_cons, Opening.defect] at ih ⊢
      rw [← ih]
      ring
  simp only [List.map_cons, List.map_nil, List.sum_cons, List.sum_nil, add_zero, hscalars] at hpairs
  have hempty : openings.isEmpty = false := by simpa using hne
  simp only [batchVerify, hempty, Bool.false_eq_true, ↓reduceIte]
  apply Metered.Ends.bind (.charge _ _)
  apply Metered.Ends.bind (.charge _ _)
  apply Metered.Ends.bind (.charge _ _)
  exact .ofExcept hpairs

theorem verify_honest (f : Fr[X]) {commitment proof : G1} {z y : ℤ} (hc : commitment.Represents (f.eval x))
    (hy : (y : Fr) = f.eval (z : Fr)) (hw : proof.Represents ((openingQuotient f z).eval x)) :
    (verify commitment z y proof key).Ends (.ok true) := by
  have hos : ∀ o ∈ [(⟨z % r, commitment, y % r, proof⟩ : Opening)], o.OnCurve := by
    intro o ho
    obtain rfl := List.mem_singleton.mp ho
    exact ⟨hc.onCurve, hw.onCurve⟩
  have hd : (⟨z % r, commitment, y % r, proof⟩ : Opening).defect x = 0 :=
    defect_honest f hc (by rwa [Scalar.cast_emod, Scalar.cast_emod]) (by rwa [Scalar.cast_emod])
  have h := batchVerify_ends hkey (List.cons_ne_nil _ _) hos 1
  have hsum : ∑ i : Fin [(⟨z % r, commitment, y % r, proof⟩ : Opening)].length, ((1 : ℤ) : Fr) ^ (i : ℕ) *
      [(⟨z % r, commitment, y % r, proof⟩ : Opening)][i].defect x = 0 := by
    simp [hd]
  rwa [decide_eq_true hsum] at h

def accepting (openings : List Opening) (key : OpeningKey) : Set Fr :=
  Int.cast '' {u : ℤ | (batchVerify openings u key).Ends (.ok true)}

theorem ncard_accepting_le {openings : List Opening} (hos : ∀ o ∈ openings, o.OnCurve)
    (hbad : ∃ o ∈ openings, o.defect x ≠ 0) : (accepting openings key).ncard ≤ openings.length - 1 := by
  obtain ⟨o, ho, hdefect⟩ := hbad
  have hne : openings ≠ [] := List.ne_nil_of_mem ho
  obtain ⟨k, hk, rfl⟩ := List.getElem_of_mem ho
  apply ncard_le_of_fold_eq_zero (a := fun i : Fin openings.length => openings[i].defect x) ⟨⟨k, hk⟩, hdefect⟩
  rintro _ ⟨u, hu, rfl⟩
  have h := (batchVerify_ends hkey hne hos u).result_unique hu
  rwa [Except.ok.injEq, decide_eq_true_eq] at h

/-- A batch is accepted exactly when its openings' equations, folded with the separator, hold. If all
hold it is accepted under every separator, and otherwise under fewer residues than there are openings. -/
theorem batchVerify_decides_equations {openings : List Opening} (hne : openings ≠ [])
    {c w : Fin openings.length → Fr}
    (hc : ∀ i : Fin openings.length, openings[i].commitment.Represents (c i))
    (hw : ∀ i : Fin openings.length, openings[i].proof.Represents (w i)) :
    (∀ u : ℤ, (batchVerify openings u key).Ends (.ok (decide (∑ i : Fin openings.length,
      (u : Fr) ^ (i : ℕ) * (c i - openings[i].value + (openings[i].point - x) * w i) = 0)))) ∧
    ((∀ i : Fin openings.length, c i - openings[i].value + (openings[i].point - x) * w i = 0) →
      ∀ u : ℤ, (batchVerify openings u key).Ends (.ok true)) ∧
    (∀ (f : Fr[X]) (z y : ℤ) (commitment proof : G1), commitment.Represents (f.eval x) →
      (y : Fr) = f.eval (z : Fr) → proof.Represents ((openingQuotient f z).eval x) →
      (verify commitment z y proof key).Ends (.ok true)) ∧
    ((∃ i : Fin openings.length, c i - openings[i].value + (openings[i].point - x) * w i ≠ 0) →
      (accepting openings key).ncard ≤ openings.length - 1) := by
  have hdefect (i : Fin openings.length) :
      openings[i].defect x = c i - openings[i].value + (openings[i].point - x) * w i := by
    rw [Opening.defect, (hc i).log_eq, (hw i).log_eq]
  have hos : ∀ o ∈ openings, o.OnCurve := by
    intro o ho
    obtain ⟨i, hi, rfl⟩ := List.getElem_of_mem ho
    exact ⟨(hc ⟨i, hi⟩).onCurve, (hw ⟨i, hi⟩).onCurve⟩
  simp only [← hdefect]
  refine ⟨batchVerify_ends hkey hne hos, ?_, ?_, ?_⟩
  · intro hall u
    have h := batchVerify_ends hkey hne hos u
    have hsum : ∑ i : Fin openings.length, (u : Fr) ^ (i : ℕ) * openings[i].defect x = 0 :=
      Finset.sum_eq_zero fun i _ => by rw [hall i, mul_zero]
    rwa [decide_eq_true hsum] at h
  · intro f z y commitment proof hcommitment hy hproof
    exact verify_honest hkey f hcommitment hy hproof
  · rintro ⟨i, hi⟩
    exact ncard_accepting_le hkey hos ⟨openings[i], List.getElem_mem i.isLt, hi⟩

end Check

theorem represents_ofTrapdoor (x : ℤ) : (OpeningKey.ofTrapdoor x).Represents x where
  g1 := G1.represents_generator
  g2 := G2.represents_generator
  xG2 := by simpa [OpeningKey.ofTrapdoor] using G2.represents_generator.mul x

def twoOpenings : List Opening :=
  [⟨2, G1.mul G1.generator 25, 4, G1.mul G1.generator 7⟩, ⟨-1, G1.generator, 0, G1.infinity⟩]

theorem eval_openingQuotient_square : (openingQuotient (X ^ 2) ((2 : ℤ) : Fr)).eval 5 = 7 := by
  apply eval_openingQuotient (by decide)
  rw [eval_X_pow, eval_X_pow]
  decide

theorem batchVerify_decides_twoOpenings :
    letI := Pairing.discrete
    (batchVerify twoOpenings 3 (.ofTrapdoor 5)).Ends (.ok false) ∧
      (batchVerify twoOpenings 0 (.ofTrapdoor 5)).Ends (.ok true) ∧
      (batchVerify (twoOpenings.take 1) 3 (.ofTrapdoor 5)).Ends (.ok true) ∧
      (verify (G1.mul G1.generator 25) 2 4 (G1.mul G1.generator 7) (.ofTrapdoor 5)).Ends (.ok true) ∧
      (accepting twoOpenings (.ofTrapdoor 5)).ncard ≤ 1 := by
  let := Pairing.discrete
  have := Pairing.lawful_discrete
  have hmul (k : ℤ) : (G1.mul G1.generator k).Represents k := by
    simpa using G1.represents_generator.mul k
  have hc : ∀ i : Fin twoOpenings.length, twoOpenings[i].commitment.Represents (![25, 1] i) := by
    intro i
    fin_cases i
    · exact_mod_cast hmul 25
    · exact G1.represents_generator
  have hw : ∀ i : Fin twoOpenings.length, twoOpenings[i].proof.Represents (![7, 0] i) := by
    intro i
    fin_cases i
    · exact_mod_cast hmul 7
    · exact G1.represents_infinity
  obtain ⟨hequation, -, hhonest, hbad⟩ :=
    batchVerify_decides_equations (represents_ofTrapdoor 5) (by decide) hc hw
  have hc1 : ∀ i : Fin (twoOpenings.take 1).length,
      (twoOpenings.take 1)[i].commitment.Represents (![25] i) := by
    intro i
    fin_cases i
    exact hc ⟨0, by decide⟩
  have hw1 : ∀ i : Fin (twoOpenings.take 1).length, (twoOpenings.take 1)[i].proof.Represents (![7] i) := by
    intro i
    fin_cases i
    exact hw ⟨0, by decide⟩
  obtain ⟨-, htrue, -, -⟩ :=
    batchVerify_decides_equations (represents_ofTrapdoor 5) (by decide) hc1 hw1
  refine ⟨?_, ?_, ?_, ?_, ?_⟩
  · convert hequation 3
    simp [twoOpenings]
    decide
  · convert hequation 0
    simp [twoOpenings]
    decide
  · refine htrue ?_ 3
    intro i
    fin_cases i
    decide
  · refine hhonest (X ^ 2) 2 4 _ _ ?_ ?_ ?_
    · rw [eval_X_pow]
      convert hmul 25
      norm_num
    · rw [eval_X_pow]
      norm_num
    · convert hmul 7
      exact eval_openingQuotient_square
  · refine hbad ⟨⟨1, by decide⟩, ?_⟩
    decide

end Settlement.Kzg

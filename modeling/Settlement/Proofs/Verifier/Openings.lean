import Mathlib
import Settlement.Proofs.Kzg
import Settlement.Proofs.Verifier.TrueClaims
import Settlement.Verifier.Openings

namespace Settlement.Openings

open Bn254 Constraints Linearization Polynomial

structure Claims (x z : Fr) (claim : G1 × ℤ) (p : Fr[X]) : Prop where
  commitment : claim.1.Represents (p.eval x)
  value : (claim.2 : Fr) = p.eval z

theorem eval_fold (v y : Fr) (ps : List Fr[X]) :
    (Scalar.fold (C v) ps).eval y = Scalar.fold v (ps.map (eval y)) := by
  have h := Scalar.fold_map (evalRingHom y) (C v) ps
  rw [coe_evalRingHom, eval_C] at h
  exact h.symm

theorem fold_ends (claims : List (G1 × ℤ)) (v : ℤ) :
    (fold claims v).Ends (.ok
      (G1.msm ((claims.map (·.1)).zip (Scalar.powers (v % r) claims.length)),
        Scalar.sum (List.zipWith (· * ·) (Scalar.powers (v % r) claims.length) (claims.map (·.2))))) := by
  simp only [fold, Kzg.aggregate, List.length_map, ne_eq, not_true_eq_false, ↓reduceIte]
  exact .bind (.charge _ _) (.pure _)

theorem onCurve_zip {as : List G1} (has : ∀ a ∈ as, G1.onCurve a = true) (vs : List ℤ) :
    ∀ t ∈ as.zip vs, G1.onCurve t.1 = true :=
  fun t ht => has t.1 (List.of_mem_zip ht).1

theorem log_msm_powers {as : List G1} (has : ∀ a ∈ as, G1.onCurve a = true) (v : ℤ) :
    G1.log (G1.msm (as.zip (Scalar.powers (v % r) as.length))) = Scalar.fold (v : Fr) (as.map G1.log) := by
  rw [G1.logarithm_log.msm (onCurve_zip has _), Scalar.sum_zip_powers_right G1.log _ rfl, Scalar.cast_emod,
    ← Scalar.fold_map_eq_sum]

theorem cast_sum_powers (ys : List ℤ) (v : ℤ) :
    ((Scalar.sum (List.zipWith (· * ·) (Scalar.powers (v % r) ys.length) ys) : ℤ) : Fr) =
      Scalar.fold (v : Fr) (ys.map Int.cast) := by
  have hsum := Scalar.sum_zip_powers (fun y : ℤ => (y : Fr)) (v % r) (rfl : ys.length = _)
  rw [Scalar.cast_sum, ← List.map_uncurry_zip_eq_zipWith, List.map_map, Scalar.fold_map_eq_sum,
    ← Scalar.cast_emod v, ← hsum]
  congr 1
  exact List.map_congr_left fun t _ => Int.cast_mul t.1 t.2

theorem fold_claims {x z : Fr} {claims : List (G1 × ℤ)} {ps : List Fr[X]}
    (h : List.Forall₂ (Claims x z) claims ps) (v : ℤ) :
    ∃ claim, (fold claims v).Ends (.ok claim) ∧ Claims x z claim (Scalar.fold (C (v : Fr)) ps) := by
  have hcurve : ∀ a ∈ claims.map (·.1), G1.onCurve a = true := by
    induction h with
    | nil => simp
    | cons hc _ ih => exact List.forall_mem_cons.mpr ⟨hc.commitment.onCurve, ih⟩
  have hlogs : (claims.map (·.1)).map G1.log = ps.map (eval x) := by
    have hmap := List.forall₂_map_right_iff.mpr (h.imp fun _ _ hc => hc.commitment.log_eq)
    rw [← List.forall₂_map_left_iff, List.forall₂_eq_eq_eq] at hmap
    rw [List.map_map, ← hmap]
    rfl
  have hvalues : (claims.map (·.2)).map (Int.cast : ℤ → Fr) = ps.map (eval z) := by
    have hmap := List.forall₂_map_right_iff.mpr (h.imp fun _ _ hc => hc.value)
    rw [← List.forall₂_map_left_iff, List.forall₂_eq_eq_eq] at hmap
    rw [List.map_map, ← hmap]
    rfl
  refine ⟨_, fold_ends claims v, ?_, ?_⟩
  · rw [eval_fold, ← hlogs, ← log_msm_powers hcurve v, List.length_map]
    exact G1.represents_log (G1.onCurve_msm (onCurve_zip hcurve _))
  · rw [eval_fold, ← hvalues, ← cast_sum_powers, List.length_map]

structure Committed (key : Key) (proof : Proof) (x : Fr) (ps : KeyPolynomials) (cols : Columns)
    (parts : Fin 4 → Fr[X]) : Prop where
  trapdoor : key.openingKey.xG2.Represents x
  slots : List.Forall₂ (fun a (p : Fr[X]) => a.Represents (p.eval x)) key.g1Slots ps.toList
  commitments : List.Forall₂ (fun a (p : Fr[X]) => a.Represents (p.eval x)) proof.commitments
    (cols.toList ++ List.ofFn parts)

noncomputable def foldedQuotient (n : ℕ) (z : Fr) (parts : Fin 4 → Fr[X]) : Fr[X] :=
  ∑ i : Fin 4, C (z ^ (n * i)) * parts i

noncomputable def polynomialsAtZ (key : Key) (inputs : List ℤ) (ch : Challenges) (ps : KeyPolynomials)
    (cols : Columns) (parts : Fin 4 → Fr[X]) (e : Evaluations) : List Fr[X] :=
  [foldedQuotient key.domain.size ch.z parts, linearPolynomial key inputs ch ps cols e, cols.a, cols.b,
   cols.c, cols.d, ps.mainGate, ps.sigma0, ps.sigma1, ps.sigma2, ps.lookupSelector, ps.tableType,
   ps.table ch.eta]

noncomputable def polynomialsAtNext (ch : Challenges) (ps : KeyPolynomials) (cols : Columns) :
    List Fr[X] :=
  [cols.copyProduct, cols.d, cols.lookupS, cols.lookupProduct, ps.table ch.eta]

theorem eval_foldedQuotient (n : ℕ) (z : Fr) (parts : Fin 4 → Fr[X]) :
    (foldedQuotient n z parts).eval z = (quotientPolynomial n parts).eval z := by
  simp only [foldedQuotient, quotientPolynomial, eval_finsetSum, eval_mul, eval_C, eval_pow, eval_X]

theorem g1Slots_eq (key : Key) :
    key.g1Slots = [key.gateSetup.get 0, key.gateSetup.get 1, key.gateSetup.get 2, key.gateSetup.get 3,
      key.gateSetup.get 4, key.gateSetup.get 5, key.gateSetup.get 6, key.gateSetup.get 7, key.mainGate,
      key.customGate, key.permutation.get 0, key.permutation.get 1, key.permutation.get 2, key.lastSigma,
      key.lookupSelector, key.lookupTable.get 0, key.lookupTable.get 1, key.lookupTable.get 2,
      key.lookupTable.get 3, key.lookupTableType] := by
  simp only [Key.g1Slots, toList_eq_ofFn]
  rfl

theorem sigmas_eq (key : Key) : key.sigmas = [key.permutation.get 0, key.permutation.get 1, key.permutation.get 2] := by
  rw [Key.sigmas, toList_eq_ofFn]
  rfl

noncomputable def gap (claim : G1 × ℤ) : Fr := G1.log claim.1 - claim.2

theorem fold_gap {claims : List (G1 × ℤ)} (hclaims : ∀ a ∈ claims.map (·.1), G1.onCurve a = true) (v : ℤ) :
    ∃ claim, (fold claims v).Ends (.ok claim) ∧ G1.onCurve claim.1 = true ∧
      gap claim = Scalar.fold (v : Fr) (claims.map gap) := by
  refine ⟨_, fold_ends claims v, G1.onCurve_msm (onCurve_zip hclaims _), ?_⟩
  have hlog := log_msm_powers hclaims v
  have hsum := cast_sum_powers (claims.map (·.2)) v
  simp only [List.length_map] at hlog hsum
  rw [gap, hlog, hsum, List.map_map, List.map_map]
  exact (Scalar.fold_sub ..).symm

structure OnCurve (lin : Linearization) : Prop where
  commitment : G1.onCurve lin.commitment = true
  quotient : G1.onCurve lin.quotient = true
  table : G1.onCurve lin.table = true

section

variable {key : Key} (hkey : key.WellFormed) {proof : Proof} (hproof : proof.WellFormed)

include hkey hproof

theorem onCurve_result (ch : Challenges) (pt : Point) : OnCurve (result key proof ch pt) where
  commitment := G1.onCurve_msm (onCurve_terms hkey hproof pt)
  quotient := G1.onCurve_msm (onCurve_zip hproof.quotient _)
  table := G1.onCurve_msm (onCurve_zip hkey.lookupTable _)

theorem onCurve_claimsAtZ {lin : Linearization} (hlin : OnCurve lin) :
    ∀ a ∈ (claimsAtZ key proof lin).map (·.1), G1.onCurve a = true := by
  intro a ha
  obtain ⟨t, ht, rfl⟩ := List.mem_map.mp ha
  simp only [claimsAtZ, List.mem_append, List.mem_cons, List.not_mem_nil, or_false] at ht
  obtain (((rfl | rfl) | ht) | rfl | ht) | rfl | rfl | rfl := ht
  · exact hlin.quotient
  · exact hlin.commitment
  · exact hproof.wire _ (List.of_mem_zip ht).1
  · exact hkey.gateSelectors 0
  · exact hkey.sigma _ (List.of_mem_zip ht).1
  · exact hkey.lookupSelector
  · exact hkey.lookupTableType
  · exact hlin.table

end

theorem onCurve_claimsAtNext {proof : Proof} (hproof : proof.WellFormed) {lin : Linearization} (hlin : OnCurve lin) :
    ∀ a ∈ (claimsAtNext proof lin).map (·.1), G1.onCurve a = true := by
  simp only [claimsAtNext, List.map_cons, List.map_nil, List.forall_mem_cons, List.not_mem_nil,
    false_imp_iff, implies_true, and_true]
  refine ⟨hproof.copyProduct, hproof.wire _ ?_, hproof.lookupS, hproof.lookupProduct, hlin.table⟩
  rw [List.getD_eq_getElem _ _ (by rw [hproof.wires]; decide)]
  exact List.getElem_mem _

theorem build_ends {key : Key} (hkey : key.WellFormed) {proof : Proof} (hproof : proof.WellFormed)
    {lin : Linearization} (hlin : OnCurve lin) (ch : Challenges) :
    ∃ c y c' y', (build key proof ch lin).Ends (.ok [(⟨ch.z, c, y, proof.openingAtZ⟩ : Kzg.Opening),
        ⟨ch.z * key.domain.omega % r, c', y', proof.openingAtNext⟩]) ∧
      (∀ o ∈ [(⟨ch.z, c, y, proof.openingAtZ⟩ : Kzg.Opening),
        ⟨ch.z * key.domain.omega % r, c', y', proof.openingAtNext⟩], o.OnCurve) ∧
      gap (c, y) = Scalar.fold (ch.v : Fr) ((claimsAtZ key proof lin).map gap) ∧
      gap (c', y') = Scalar.fold (ch.v : Fr) ((claimsAtNext proof lin).map gap) := by
  obtain ⟨⟨c, y⟩, hz, hc, hgap⟩ := fold_gap (onCurve_claimsAtZ hkey hproof hlin) ch.v
  obtain ⟨⟨c', y'⟩, hnext, hc', hgap'⟩ := fold_gap (onCurve_claimsAtNext hproof hlin) ch.v
  refine ⟨c, y, c', y', .bind hz (.bind hnext (.pure _)), ?_, hgap, hgap'⟩
  simp only [List.forall_mem_cons, List.not_mem_nil, false_imp_iff, implies_true, and_true]
  exact ⟨⟨hc, hproof.openingAtZ⟩, ⟨hc', hproof.openingAtNext⟩⟩

section Committed

variable {key : Key} {proof : Proof} {x : Fr} {ps : KeyPolynomials} {cols : Columns}
  {parts : Fin 4 → Fr[X]}

namespace Committed

theorem columns (h : Committed key proof x ps cols parts) (hproof : proof.WellFormed) :
    (∃ a b c d, proof.wires = [a, b, c, d] ∧ a.Represents (cols.a.eval x) ∧
        b.Represents (cols.b.eval x) ∧ c.Represents (cols.c.eval x) ∧ d.Represents (cols.d.eval x)) ∧
      proof.copyProduct.Represents (cols.copyProduct.eval x) ∧
      proof.lookupS.Represents (cols.lookupS.eval x) ∧
      proof.lookupProduct.Represents (cols.lookupProduct.eval x) ∧
      List.Forall₂ (fun a (p : Fr[X]) => a.Represents (p.eval x)) proof.quotients (List.ofFn parts) := by
  obtain ⟨wires, copyProduct, lookupS, lookupProduct, quotients, e, atZ, atNext⟩ := proof
  have hall := h.commitments
  match wires, hproof.wires with
  | [a, b, c, d], _ =>
    simp only [Proof.commitments, Columns.toList, List.cons_append, List.nil_append,
      List.forall₂_cons] at hall
    obtain ⟨ha, hb, hc, hd, hcopy, hs, hlookup, hquotients⟩ := hall
    exact ⟨⟨a, b, c, d, rfl, ha, hb, hc, hd⟩, hcopy, hs, hlookup, hquotients⟩

theorem linearization (h : Committed key proof x ps cols parts) (hkey : key.WellFormed)
    (hproof : proof.WellFormed) {inputs : List ℤ} {ch : Challenges} {pt : Point}
    (hof : Point.of key inputs ch = .ok pt) :
    (result key proof ch pt).commitment.Represents
      ((linearPolynomial key inputs ch ps cols proof.evaluations).eval x) := by
  obtain ⟨-, hcopy, hs, hlookup, -⟩ := h.columns hproof
  have hslots := h.slots
  simp only [g1Slots_eq, KeyPolynomials.toList, List.forall₂_cons] at hslots
  obtain ⟨hA, hB, hC, hD, hAB, hAC, hConst, hDNext, -, hcustom, -, -, -, hsigma, -⟩ := hslots
  have hlogs : (points key proof).map G1.log = (linearPolynomials ps cols).map (eval x) := by
    simp only [points, linearPolynomials, LinearPart.map, hA.log_eq,
      hB.log_eq, hC.log_eq, hD.log_eq, hAB.log_eq, hAC.log_eq, hConst.log_eq, hDNext.log_eq,
      hcustom.log_eq, hsigma.log_eq, hcopy.log_eq, hs.log_eq, hlookup.log_eq]
  rw [eval_linearPolynomial hof, ← hlogs, ← log_commitment G1.logarithm_log hkey hproof]
  exact G1.represents_log (G1.onCurve_msm (onCurve_terms hkey hproof pt))

theorem table (h : Committed key proof x ps cols parts) (hkey : key.WellFormed) (ch : Challenges)
    (pt : Point) : (result key proof ch pt).table.Represents ((ps.table ch.eta).eval x) := by
  have hslots := h.slots
  simp only [g1Slots_eq, KeyPolynomials.toList, List.forall₂_cons] at hslots
  obtain ⟨-, -, -, -, -, -, -, -, -, -, -, -, -, -, -, h0, h1, h2, h3, -⟩ := hslots
  have hlog : G1.log (result key proof ch pt).table = _ := log_table G1.logarithm_log hkey pt
  have heval : (ps.table ch.eta).eval x = G1.log (result key proof ch pt).table := by
    rw [hlog, Fin.sum_univ_four, KeyPolynomials.table]
    simp [h0.log_eq, h1.log_eq, h2.log_eq, h3.log_eq]
  rw [heval]
  exact G1.represents_log (G1.onCurve_msm fun t ht => hkey.lookupTable t.1 (List.of_mem_zip ht).1)

theorem quotient (h : Committed key proof x ps cols parts) (hproof : proof.WellFormed) (ch : Challenges)
    (pt : Point) : (result key proof ch pt).quotient.Represents
      ((foldedQuotient key.domain.size ch.z parts).eval x) := by
  obtain ⟨-, -, -, -, hquotients⟩ := h.columns hproof
  have hlog (i : Fin proof.quotients.length) :
      G1.log (proof.quotients.get i) = (parts (i.cast hproof.quotients)).eval x := by
    have hi := hquotients.get i.isLt (by rw [List.length_ofFn]; exact (i.cast hproof.quotients).isLt)
    rw [List.get_eq_getElem, List.get_eq_getElem, List.getElem_ofFn] at hi
    exact hi.log_eq
  have heval : (foldedQuotient key.domain.size ch.z parts).eval x =
      G1.log (result key proof ch pt).quotient := by
    rw [log_quotient G1.logarithm_log hproof pt, foldedQuotient, eval_finsetSum]
    refine Fintype.sum_equiv (finCongr hproof.quotients.symm) _ _ fun i => ?_
    rw [eval_mul, eval_C, hlog]
    rfl
  rw [heval]
  exact G1.represents_log (G1.onCurve_msm fun t ht => hproof.quotient t.1 (List.of_mem_zip ht).1)

theorem claimsAtZ (h : Committed key proof x ps cols parts) (hkey : key.WellFormed)
    (hproof : proof.WellFormed) {inputs : List ℤ} {ch : Challenges} {pt : Point}
    (hof : Point.of key inputs ch = .ok pt)
    (he : TrueClaims key inputs ch ps cols parts proof.evaluations) :
    List.Forall₂ (Claims x ch.z) (claimsAtZ key proof (result key proof ch pt))
      (polynomialsAtZ key inputs ch ps cols parts proof.evaluations) := by
  obtain ⟨⟨a, b, c, d, hwires, ha, hb, hc, hd⟩, -⟩ := h.columns hproof
  have hslots := h.slots
  simp only [g1Slots_eq, KeyPolynomials.toList, List.forall₂_cons] at hslots
  obtain ⟨-, -, -, -, -, -, -, -, hmain, -, h0, h1, h2, -, hselector, -, -, -, -, htype, -⟩ := hslots
  have hquotient : Claims x ch.z ((result key proof ch pt).quotient, proof.evaluations.quotient)
      (foldedQuotient key.domain.size ch.z parts) :=
    ⟨h.quotient hproof ch pt, by rw [he.quotient, eval_foldedQuotient]⟩
  rw [Openings.claimsAtZ, sigmas_eq, hwires]
  refine .cons hquotient (.cons ⟨h.linearization hkey hproof hof, he.linearization⟩ ?_)
  refine .cons ⟨ha, he.a⟩ (.cons ⟨hb, he.b⟩ (.cons ⟨hc, he.c⟩ (.cons ⟨hd, he.d⟩ ?_)))
  exact .cons ⟨hmain, he.gateSelector⟩ (.cons ⟨h0, he.sigma0⟩ (.cons ⟨h1, he.sigma1⟩
    (.cons ⟨h2, he.sigma2⟩ (.cons ⟨hselector, he.lookupSelector⟩ (.cons ⟨htype, he.tableType⟩
      (.cons ⟨h.table hkey ch pt, he.table⟩ .nil))))))

theorem claimsAtNext (h : Committed key proof x ps cols parts) (hkey : key.WellFormed)
    (hproof : proof.WellFormed) {inputs : List ℤ} {ch : Challenges} (pt : Point)
    (he : TrueClaims key inputs ch ps cols parts proof.evaluations) :
    List.Forall₂ (Claims x (ch.z * key.domain.omega)) (claimsAtNext proof (result key proof ch pt))
      (polynomialsAtNext ch ps cols) := by
  obtain ⟨⟨a, b, c, d, hwires, -, -, -, hd⟩, hcopy, hs, hlookup, -⟩ := h.columns hproof
  rw [Openings.claimsAtNext, hwires]
  exact .cons ⟨hcopy, he.copyProductNext⟩ (.cons ⟨hd, he.dNext⟩ (.cons ⟨hs, he.lookupSNext⟩
    (.cons ⟨hlookup, he.lookupProductNext⟩ (.cons ⟨h.table hkey ch pt, he.tableNext⟩ .nil))))

end Committed

structure Opened (key : Key) (inputs : List ℤ) (proof : Proof) (ch : Challenges) (x : Fr)
    (ps : KeyPolynomials) (cols : Columns) (parts : Fin 4 → Fr[X]) : Prop where
  atZ : proof.openingAtZ.Represents ((Kzg.openingQuotient (Scalar.fold (C (ch.v : Fr))
    (polynomialsAtZ key inputs ch ps cols parts proof.evaluations)) ch.z).eval x)
  atNext : proof.openingAtNext.Represents ((Kzg.openingQuotient (Scalar.fold (C (ch.v : Fr))
    (polynomialsAtNext ch ps cols)) (ch.z * key.domain.omega)).eval x)

theorem build_honest (h : Committed key proof x ps cols parts) (hkey : key.WellFormed)
    (hproof : proof.WellFormed) {inputs : List ℤ} {ch : Challenges} {pt : Point}
    (hof : Point.of key inputs ch = .ok pt) (he : TrueClaims key inputs ch ps cols parts proof.evaluations)
    (ho : Opened key inputs proof ch x ps cols parts) :
    ∃ os, (build key proof ch (result key proof ch pt)).Ends (.ok os) ∧ os ≠ [] ∧
      ∀ o ∈ os, o.OnCurve ∧ o.defect x = 0 := by
  obtain ⟨⟨c, y⟩, hz, hc⟩ := fold_claims (h.claimsAtZ hkey hproof hof he) ch.v
  obtain ⟨⟨c', y'⟩, hnext, hc'⟩ := fold_claims (h.claimsAtNext hkey hproof pt he) ch.v
  refine ⟨_, .bind hz (.bind hnext (.pure _)), List.cons_ne_nil _ _, ?_⟩
  have hpoint : ((ch.z * key.domain.omega % r : ℤ) : Fr) = ch.z * key.domain.omega := by
    rw [Scalar.cast_emod, Int.cast_mul]
  intro o hmem
  rw [List.mem_cons, List.mem_singleton] at hmem
  obtain rfl | rfl := hmem
  · exact ⟨⟨hc.commitment.onCurve, ho.atZ.onCurve⟩, Kzg.defect_honest _ hc.commitment hc.value ho.atZ⟩
  · refine ⟨⟨hc'.commitment.onCurve, ho.atNext.onCurve⟩, Kzg.defect_honest _ hc'.commitment ?_ ?_⟩
    · rw [hpoint]
      exact hc'.value
    · rw [hpoint]
      exact ho.atNext

theorem check_ends [PairingSteps] [PairingSteps.Lawful] (hkey : key.WellFormed)
    (hx : key.openingKey.xG2.Represents x) {os : List Kzg.Opening} (hne : os ≠ []) (hos : ∀ o ∈ os, o.OnCurve)
    (ch : Challenges) :
    (check key os ch).Ends (if ∑ i : Fin os.length, (ch.u : Fr) ^ (i : ℕ) * (os.get i).defect x = 0 then .ok ()
      else .error (.rejected (.invalidProof .pairing))) := by
  have hopening : key.openingKey.Represents x := ⟨G1.represents_generator, hkey.g2First, hx⟩
  have hbatch : (Kzg.batchVerify os ch.u key.openingKey).Ends
      (.ok (decide (∑ i : Fin os.length, (ch.u : Fr) ^ (i : ℕ) * (os.get i).defect x = 0))) :=
    Kzg.batchVerify_ends hopening hne hos ch.u
  apply hbatch.bind
  by_cases hsum : ∑ i : Fin os.length, (ch.u : Fr) ^ (i : ℕ) * (os.get i).defect x = 0
  · simp only [hsum, decide_true, not_true_eq_false, ↓reduceIte]
    exact .pure _
  · simp only [hsum, decide_false, Bool.false_eq_true, not_false_eq_true, ↓reduceIte]
    exact .throw _

theorem check_honest [PairingSteps] [PairingSteps.Lawful] (h : Committed key proof x ps cols parts)
    (hkey : key.WellFormed) {os : List Kzg.Opening} (hne : os ≠ [])
    (hos : ∀ o ∈ os, o.OnCurve ∧ o.defect x = 0) (ch : Challenges) : (check key os ch).Ends (.ok ()) := by
  have hends := check_ends hkey h.trapdoor hne (fun o ho => (hos o ho).1) ch
  rwa [if_pos] at hends
  exact Finset.sum_eq_zero fun i _ => by
    rw [(hos _ (List.get_mem os i)).2, mul_zero]

end Committed

end Settlement.Openings

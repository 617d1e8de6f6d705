import Mathlib
import Settlement.Proofs.Verifier.Challenges
import Settlement.Proofs.Verifier.Openings
import Settlement.Proofs.Verifier.PowerCircuit
import Settlement.Verifier

namespace Settlement.Verifier

open Bn254 Constraints Linearization Openings Polynomial

theorem checkCanonical_ok {inputs : List ℤ} (h : ∀ x ∈ inputs, Scalar.isCanonical x = true) (start : ℕ) :
    checkCanonical start (inputs.map .int) = .ok inputs := by
  induction inputs generalizing start with
  | nil => rfl
  | cons x inputs ih =>
    rw [List.forall_mem_cons] at h
    rw [List.map_cons, checkCanonical, ih h.2]
    simp [h.1, pure, Except.pure, bind, Except.bind]

theorem readPublicInputs_ok {key : Key} {inputs : List ℤ} (hlen : inputs.length = key.numInputs)
    (h : ∀ x ∈ inputs, Scalar.isCanonical x = true) :
    readPublicInputs key (inputs.map .int) = .ok inputs := by
  rw [readPublicInputs, List.length_map, if_neg (not_not.mpr hlen), checkCanonical_ok h]

theorem checkArity_ok {key : Key} {proof : Proof} (hproof : proof.WellFormed) :
    checkArity key proof = .ok () := by
  simp [checkArity, Proof.commitments, hproof.wires, hproof.quotients]

theorem payEntry_ends (key : Key) (inputs : List ℤ) : (payEntry key inputs).Ends (.ok ()) :=
  .bind (.checkLimits _ _) (.bind (.charge _ _) (.charge _ _))

/-- The proof commits to polynomials that satisfy the circuit, claims their values and opens them. -/
structure Honest (key : Key) (inputs : List ℤ) (proof : Proof) (ch : Challenges) (x : Fr)
    (ps : KeyPolynomials) (cols : Columns) (parts : Fin 4 → Fr[X]) : Prop where
  committed : Committed key proof x ps cols parts
  identity : identityPolynomial key ch inputs ps cols =
    quotientPolynomial key.domain.size parts * (X ^ key.domain.size - 1)
  claims : TrueClaims key inputs ch ps cols parts proof.evaluations
  opened : Opened key inputs proof ch x ps cols parts

/-- Whatever challenges a proof draws, they exist; if they avoid the domain, an honest proof of a satisfied circuit is
accepted. -/
theorem run_accepts_honest [PairingSteps] [PairingSteps.Lawful] {doc : KeyDocument} {key : Key}
    (hkey : Key.ofDocument doc = .ok key) {inputs : List ℤ} (hlen : inputs.length = key.numInputs)
    (hinputs : ∀ x ∈ inputs, Scalar.isCanonical x = true) {words : List Value} {proof : Proof}
    (hwords : Proof.ofValues words = .ok proof) :
    ∃ ch, Challenges.derive key inputs proof = .ok ch ∧
      ((ch.z : Fr) ^ key.domain.size ≠ 1 → ∀ x ps cols parts, Honest key inputs proof ch x ps cols parts →
        (run key (inputs.map .int) (.words words)).Ends (.ok ())) := by
  have hk := Key.wellFormed_of_ofDocument hkey
  have hp := Proof.wellFormed_of_ofValues hwords
  obtain ⟨ch, hch⟩ := Challenges.derive_ok hinputs (Proof.isCanonical_of_ofValues hwords) key
  refine ⟨ch, hch, ?_⟩
  intro hz x ps cols parts h
  obtain ⟨pt, hof, hpt⟩ := Point.of_ok hk.domain (hlen.trans_le hk.numInputs_le) hz
  have hholds : quotientHolds proof.evaluations ch pt = true := by
    rw [h.claims.quotientHolds_iff hof hpt, h.identity, eval_mul, eval_sub, eval_pow, eval_X, eval_one]
  have hbuild : (build key inputs proof ch).Ends _ := build_ends hof hz
  rw [if_pos hholds] at hbuild
  obtain ⟨os, hos, hne, hdefect⟩ := build_honest h.committed hk hp hof h.claims h.opened
  apply Metered.Ends.bind (.ofExcept (readPublicInputs_ok hlen hinputs))
  apply Metered.Ends.bind (payEntry_ends key inputs)
  apply Metered.Ends.bind (.ofExcept hwords)
  apply Metered.Ends.bind (.ofExcept hch)
  apply Metered.Ends.bind (.ofExcept (checkArity_ok hp))
  apply Metered.Ends.bind hbuild
  apply Metered.Ends.bind hos
  exact check_honest h.committed hk hne hdefect ch

theorem run_accepts_honest_powerCircuit :
    letI := Pairing.discrete
    (run PowerCircuit.key [.int 96] (.words PowerCircuit.values)).Ends (.ok ()) := by
  let := Pairing.discrete
  have := Pairing.lawful_discrete
  have hinputs : ∀ x ∈ [(96 : ℤ)], Scalar.isCanonical x = true := by decide
  obtain ⟨ch, hch, haccepts⟩ :=
    run_accepts_honest PowerCircuit.computed.document rfl hinputs PowerCircuit.computed.words
  obtain rfl : PowerCircuit.challenges = ch := Except.ok.inj (PowerCircuit.derive_proof.symm.trans hch)
  have hcube : ((96 : ℤ) : Fr) = 3 * 2 ^ 5 := by norm_num
  exact haccepts PowerCircuit.computed.avoidsNodes 5 PowerCircuit.polynomials _ _
    ⟨PowerCircuit.committed, PowerCircuit.identityPolynomial_eq _ 2 hcube, PowerCircuit.trueClaims,
      PowerCircuit.opened⟩

end Settlement.Verifier

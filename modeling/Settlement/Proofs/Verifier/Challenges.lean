import Mathlib
import Settlement.Proofs.Bn254.Scalar
import Settlement.Proofs.Except
import Settlement.Proofs.Transcript
import Settlement.Verifier.Challenges

namespace Settlement

open Bn254

theorem Bn254.toBytes32_of_isCanonical {x : ℤ} (hx : Scalar.isCanonical x = true) :
    toBytes32 x = .ok (Bytes.ofNat 32 x.toNat) := by
  obtain ⟨h0, hr⟩ := (Scalar.isCanonical_iff x).mp hx
  have hlt : x < Nat.pow 2 256 := hr.trans (by decide)
  rw [toBytes32, if_neg (not_lt.mpr h0), if_neg (not_le.mpr hlt)]

namespace Transcript

def encoded (x : ℤ) : Bytes :=
  Bytes.ofNat 32 x.toNat

theorem absorbScalars_eq {xs : List ℤ} (hxs : ∀ x ∈ xs, Scalar.isCanonical x = true) (t : Transcript) :
    t.absorbScalars xs = .ok (t.absorbAll (xs.map encoded)) := by
  induction xs generalizing t with
  | nil => rfl
  | cons x xs ih =>
    rw [List.forall_mem_cons] at hxs
    have hx : t.absorbScalar x = .ok (t.absorb (encoded x)) := by
      rw [absorbScalar, toBytes32_of_isCanonical hxs.1]
      rfl
    rw [absorbScalars, List.foldlM_cons, hx]
    exact ih hxs.2 _

theorem absorbPoint_eq (t : Transcript) (a : G1) :
    t.absorbPoint a = t.absorbAll ((Proof.pointWords a).map encoded) := rfl

theorem absorbPoints_eq (t : Transcript) (ps : List G1) :
    t.absorbPoints ps = t.absorbAll ((ps.flatMap Proof.pointWords).map encoded) := by
  induction ps generalizing t with
  | nil => rfl
  | cons a ps ih =>
    rw [List.flatMap_cons, List.map_append, absorbAll_append, ← absorbPoint_eq]
    exact ih _

end Transcript

namespace Challenges

open Transcript

def absorbed (key : Key) (inputs : List ℤ) (proof : Proof) : List Bytes :=
  key.digest :: (inputs ++ proof.toWords).map encoded

theorem trace_ok {inputs : List ℤ} {proof : Proof} (hinputs : ∀ x ∈ inputs, Scalar.isCanonical x = true)
    (hproof : ∀ x ∈ proof.evaluations.toList, Scalar.isCanonical x = true) (key : Key) :
    ∃ ch t, trace key inputs proof = .ok (ch, t) ∧ t.SameState (start.absorbAll (absorbed key inputs proof)) := by
  simp only [trace, absorbScalars_eq hinputs, absorbScalars_eq hproof]
  refine ⟨_, _, rfl, ?_⟩
  simp only [absorbPoints_eq, absorbPoint_eq, challenge, absorbAll_counter]
  have hwords : absorbed key inputs proof = [key.digest] ++ inputs.map encoded ++
      (proof.wires.flatMap Proof.pointWords).map encoded ++
      ([proof.copyProduct, proof.lookupS].flatMap Proof.pointWords).map encoded ++
      (Proof.pointWords proof.lookupProduct).map encoded ++
      (proof.quotients.flatMap Proof.pointWords).map encoded ++ proof.evaluations.toList.map encoded ++
      ([proof.openingAtZ, proof.openingAtNext].flatMap Proof.pointWords).map encoded := by
    simp [absorbed, Proof.toWords, Proof.commitments]
  simp only [hwords, absorbAll_append]
  exact ⟨rfl, rfl⟩

theorem derive_ok {inputs : List ℤ} {proof : Proof}
    (hinputs : ∀ x ∈ inputs, Scalar.isCanonical x = true)
    (hproof : ∀ x ∈ proof.evaluations.toList, Scalar.isCanonical x = true) (key : Key) :
    ∃ ch, derive key inputs proof = .ok ch := by
  obtain ⟨ch, t, h, -⟩ := trace_ok hinputs hproof key
  rw [derive, h]
  exact ⟨ch, rfl⟩

end Challenges

end Settlement

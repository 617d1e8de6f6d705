import Settlement.Key.Basic
import Settlement.Transcript

/-!
The challenges of a verification. Each depends only on what is absorbed before it: the key digest,
the public inputs and the wires; the copy product and the sorted lookup polynomial; the lookup
product; the quotient parts; the evaluations; the opening proofs.
-/

namespace Settlement

open Bn254

structure Challenges where
  eta : Int
  beta : Int
  gamma : Int
  betaLookup : Int
  gammaLookup : Int
  alpha : Int
  z : Int
  v : Int
  u : Int
  deriving DecidableEq

namespace Challenges

def trace (key : Key) (publicInputs : List Int) (proof : Proof) :
    Except WidthError (Challenges × Transcript) := do
  let t := Transcript.start.absorb key.digest
  let t ← t.absorbScalars publicInputs
  let t := t.absorbPoints proof.wires
  let (eta, t) := t.challenge
  let (beta, t) := t.challenge
  let (gamma, t) := t.challenge
  let t := t.absorbPoints [proof.copyProduct, proof.lookupS]
  let (betaLookup, t) := t.challenge
  let (gammaLookup, t) := t.challenge
  let t := t.absorbPoint proof.lookupProduct
  let (alpha, t) := t.challenge
  let t := t.absorbPoints proof.quotients
  let (z, t) := t.challenge
  let t ← t.absorbScalars proof.evaluations.toList
  let (v, t) := t.challenge
  let t := t.absorbPoints [proof.openingAtZ, proof.openingAtNext]
  let (u, _) := t.challenge
  pure ({ eta, beta, gamma, betaLookup, gammaLookup, alpha, z, v, u }, t)

def derive (key : Key) (publicInputs : List Int) (proof : Proof) : Except WidthError Challenges := do
  let (ch, _) ← trace key publicInputs proof
  pure ch

end Challenges

end Settlement

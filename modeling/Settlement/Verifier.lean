import Settlement.Key.Store
import Settlement.Verifier.Openings

/-!
The verification of a proof for public inputs under a key. The stages run in a fixed order and the
first that fails decides the verdict.
-/

namespace Settlement.Verifier

open Bn254

def checkCanonical (start : Nat) : List Value → Except PublicInputError (List Int)
  | [] => .ok []
  | v :: vs =>
    match v with
    | .int n =>
      if Scalar.isCanonical n then do pure (n :: (← checkCanonical (start + 1) vs))
      else .error (.notCanonical start)
    | _ => .error (.notCanonical start)

def readPublicInputs (key : Key) (inputs : List Value) : Except PublicInputError (List Int) :=
  if inputs.length ≠ key.numInputs then .error (.count key.numInputs inputs.length)
  else checkCanonical 0 inputs

def checkArity (key : Key) (proof : Proof) : Except ProofError Unit :=
  let width := key.permutation.toList.length
  if proof.commitments.length ≠ 11 then .error (.commitmentCount proof.commitments.length)
  else if proof.wires.length ≠ width then .error .wireCount
  else if proof.quotients.length ≠ width then .error .quotientCount
  else .ok ()

def malformedInput (e : PublicInputError) : Failure := .rejected (.malformedPublicInput e)

def malformedProof (e : ProofError) : Failure := .rejected (.malformedProof e)

def payEntry (key : Key) (inputs : List Int) : Metered Unit := do
  Metered.checkLimits inputs.length key.domain.size
  Metered.charge .base 1
  Metered.charge .perPublicInput inputs.length

def decideProof [PairingSteps] (key : Key) (inputs : List Int) (proof : Proof) : Metered Unit := do
  let ch ← Metered.ofExcept .width (Challenges.derive key inputs proof)
  Metered.ofExcept malformedProof (checkArity key proof)
  let lin ← Linearization.build key inputs proof ch
  let openings ← Openings.build key proof ch lin
  Openings.check key openings ch

def run [PairingSteps] (key : Key) (inputs : List Value) (proof : ProofInput) : Metered Unit := do
  let inputs ← Metered.ofExcept malformedInput (readPublicInputs key inputs)
  payEntry key inputs
  let proof ← Metered.ofExcept malformedProof proof.parse
  decideProof key inputs proof

def runWith [PairingSteps] (store : KeyStore) (inputs : List Value) (proof : ProofInput) :
    Metered Unit := do
  let key ← Metered.ofExcept .rejected store.get
  run key inputs proof

inductive Verdict where
  | accepted
  | rejected (r : Rejection)
  deriving DecidableEq

def verdict (run : Metered Unit) : Metered Verdict := do
  try
    run
    pure .accepted
  catch
    | .rejected r => pure (.rejected r)
    | e => throw e

def verify [PairingSteps] (store : KeyStore) (inputs : List Value) (proof : ProofInput) :
    Metered Verdict :=
  verdict (runWith store inputs proof)

def verifyUnder [PairingSteps] (key : Key) (inputs : List Value) (proof : ProofInput) : Metered Verdict :=
  verdict (run key inputs proof)

end Settlement.Verifier

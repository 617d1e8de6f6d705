import Settlement.Bn254.Pairing
import Settlement.Verifier.Failure

/-!
Opening checks for polynomial commitments. An opening of `c` at `z` to `y` with proof `w` holds when
`e(c - y g + z w, [1]) = e(w, [x])`; several are folded with powers of a separator.
-/

namespace Settlement.Kzg

open Bn254

structure OpeningKey where
  g1 : G1
  g2 : G2
  xG2 : G2

structure Opening where
  point : Int
  commitment : G1
  value : Int
  proof : G1

def OpeningKey.ofTrapdoor (x : Int) : OpeningKey :=
  ⟨G1.generator, G2.generator, G2.mul G2.generator x⟩

def claimTerms (us : List Int) (openings : List Opening) (g : G1) : List (G1 × Int) :=
  let pairs := us.zip openings
  let value := pairs.foldl (fun (acc : Int) (u, o) => (acc + u * o.value) % r) 0
  pairs.flatMap (fun (u, o) => [(o.commitment, u), (o.proof, u * o.point % r)]) ++
    [(g, (r - value) % r)]

def proofTerms (us : List Int) (openings : List Opening) : List (G1 × Int) :=
  (us.zip openings).map fun (u, o) => (o.proof, u)

def batchVerify [PairingSteps] (openings : List Opening) (separator : Int) (key : OpeningKey) :
    Metered Bool := do
  if openings.isEmpty then throw .noOpenings
  let us := Scalar.powers (separator % r) openings.length
  let claims := claimTerms us openings key.g1
  Metered.charge .g1Mul claims.length
  let lhs := G1.msm claims
  let proofs := proofTerms us openings
  Metered.charge .g1Mul proofs.length
  let w := G1.msm proofs
  Metered.charge .pairing 2
  Metered.ofExcept .point (Pairing.checkProduct [(lhs, key.g2), (G1.neg w, key.xG2)])

def verify [PairingSteps] (commitment : G1) (z y : Int) (proof : G1) (key : OpeningKey) :
    Metered Bool :=
  batchVerify [⟨z % r, commitment, y % r, proof⟩] 1 key

def aggregate (commitments : List G1) (values : List Int) (v : Int) : Metered (G1 × Int) := do
  if commitments.length ≠ values.length then throw .lengthMismatch
  let vs := Scalar.powers (v % r) commitments.length
  Metered.charge .g1Mul commitments.length
  pure (G1.msm (commitments.zip vs), Scalar.sum (List.zipWith (· * ·) vs values))

end Settlement.Kzg

import Settlement.Verifier.Linearization

namespace Settlement

open Bn254

namespace Openings

def claimsAtZ (key : Key) (proof : Proof) (lin : Linearization) : List (G1 × Int) :=
  let e := proof.evaluations
  [(lin.quotient, e.quotient), (lin.commitment, e.linearization)] ++ proof.wires.zip e.wires ++
    (key.mainGate, e.gateSelector) :: key.sigmas.zip [e.sigma0, e.sigma1, e.sigma2] ++
    [(key.lookupSelector, e.lookupSelector),
     (key.lookupTableType, e.tableType),
     (lin.table, e.table)]

def claimsAtNext (proof : Proof) (lin : Linearization) : List (G1 × Int) :=
  let e := proof.evaluations
  [(proof.copyProduct, e.copyProductNext), (proof.wires.getD 3 G1.infinity, e.dNext),
   (proof.lookupS, e.lookupSNext), (proof.lookupProduct, e.lookupProductNext), (lin.table, e.tableNext)]

def fold (claims : List (G1 × Int)) (v : Int) : Metered (G1 × Int) :=
  Kzg.aggregate (claims.map (·.1)) (claims.map (·.2)) v

def build (key : Key) (proof : Proof) (ch : Challenges) (lin : Linearization) :
    Metered (List Kzg.Opening) := do
  let (commitmentZ, valueZ) ← fold (claimsAtZ key proof lin) ch.v
  let (commitmentNext, valueNext) ← fold (claimsAtNext proof lin) ch.v
  pure
    [⟨ch.z, commitmentZ, valueZ, proof.openingAtZ⟩,
     ⟨ch.z * key.domain.omega % r, commitmentNext, valueNext, proof.openingAtNext⟩]

def check [PairingSteps] (key : Key) (openings : List Kzg.Opening) (ch : Challenges) : Metered Unit := do
  if ¬ (← Kzg.batchVerify openings ch.u key.openingKey) then throw (.rejected (.invalidProof .pairing))

end Openings

end Settlement

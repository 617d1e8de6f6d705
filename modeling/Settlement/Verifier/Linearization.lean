import Settlement.Verifier.Challenges

/-!
The constraint identity at the evaluation point. Its value splits into a constant, known from the
claimed evaluations, and a part that is linear in committed polynomials which are not opened there;
the commitment to that part is the linearization.
-/

namespace Settlement

open Bn254

structure Linearization where
  commitment : G1
  quotient : G1
  table : G1

namespace Linearization

structure Point where
  z : Int
  vanishing : Int
  -- the Lagrange basis at the first and the last row
  first : Int
  last : Int
  -- the polynomial of the public inputs
  publicInput : Int
  beforeLast : Int
  alpha : Nat → Int
  gammaBeta : Int
  -- the `n - 1`-th power of it, the value of the lookup product at the last row
  lookupEnd : Int

def Point.of (key : Key) (publicInputs : List Int) (ch : Challenges) : Except ScalarError Point := do
  let n := key.domain.size
  let lagrange ← key.domain.lagrangeMany
    ((List.range publicInputs.length).map Int.ofNat ++ [0, (n : Int) - 1]) ch.z
  let basis (i : Int) : Int := (lagrange.lookup i).getD 0
  let alphas := Scalar.powers ch.alpha 9
  let gammaBeta := ch.gammaLookup * (1 + ch.betaLookup) % r
  pure {
    z := ch.z
    vanishing := key.domain.vanishing ch.z
    first := basis 0
    last := basis ((n : Int) - 1)
    publicInput := Scalar.sum (publicInputs.zipIdx.map fun (x, j) => x * basis j)
    beforeLast := (ch.z - key.domain.element ((n : Int) - 1)) % r
    alpha := fun i => alphas.getD i 0
    gammaBeta
    lookupEnd := Scalar.pow gammaBeta (n - 1) }

def permutationTail (e : Evaluations) (ch : Challenges) : Int :=
  ([e.a, e.b, e.c].zip [e.sigma0, e.sigma1, e.sigma2]).foldl
    (fun acc (w, s) => acc * (w + ch.beta * s + ch.gamma) % r) 1

def constant (e : Evaluations) (ch : Challenges) (pt : Point) : Int :=
  (-e.gateSelector * pt.publicInput
    - pt.alpha 4 * e.copyProductNext * permutationTail e ch * (e.d + ch.gamma)
    - pt.alpha 5 * pt.first
    - pt.alpha 6 * pt.beforeLast * e.lookupProductNext * (pt.gammaBeta + ch.betaLookup * e.lookupSNext)
    - pt.alpha 7 * pt.first
    - pt.alpha 8 * pt.last * pt.lookupEnd) % r

def quotientHolds (e : Evaluations) (ch : Challenges) (pt : Point) : Bool :=
  e.quotient * pt.vanishing % r == (e.linearization + constant e ch pt) % r

def customGate (e : Evaluations) (pt : Point) : Int :=
  (pt.alpha 1 * (e.a * e.a - e.b) + pt.alpha 2 * (e.b * e.b - e.c) + pt.alpha 3 * (e.a * e.c - e.d)) % r

def copyCoefficient (key : Key) (e : Evaluations) (ch : Challenges) (pt : Point) : Int :=
  ((e.wires.zip key.shifts).foldl
    (fun acc (w, k) => acc * (w + ch.beta * k * pt.z + ch.gamma) % r) (pt.alpha 4)
    + pt.alpha 5 * pt.first) % r

def lookupValue (e : Evaluations) (ch : Challenges) : Int :=
  e.lookupSelector * (e.a + ch.eta * e.b + ch.eta * ch.eta * e.c + Scalar.pow ch.eta 3 * e.tableType) % r

def lookupCoefficient (e : Evaluations) (ch : Challenges) (pt : Point) : Int :=
  (pt.alpha 6 * pt.beforeLast * (1 + ch.betaLookup) % r * (ch.gammaLookup + lookupValue e ch) % r
      * (pt.gammaBeta + e.table + ch.betaLookup * e.tableNext)
    + pt.alpha 7 * pt.first + pt.alpha 8 * pt.last) % r

def gateCoefficients (e : Evaluations) : List Int :=
  let g := e.gateSelector
  [g * e.a, g * e.b, g * e.c, g * e.d, g * e.a * e.b, g * e.a * e.c, g, g * e.dNext]

def terms (key : Key) (proof : Proof) (ch : Challenges) (pt : Point) : List (G1 × Int) :=
  let e := proof.evaluations
  key.gateSetup.toList.zip (gateCoefficients e) ++
    [(key.customGate, customGate e pt),
     (proof.copyProduct, copyCoefficient key e ch pt),
     (key.lastSigma, -pt.alpha 4 * e.copyProductNext * ch.beta * permutationTail e ch % r),
     (proof.lookupProduct, lookupCoefficient e ch pt),
     (proof.lookupS, -pt.alpha 6 * pt.beforeLast * e.lookupProductNext % r)]

def build (key : Key) (publicInputs : List Int) (proof : Proof) (ch : Challenges) :
    Metered Linearization := do
  if key.domain.vanishing ch.z = 0 then throw (.rejected (.invalidProof .pointInDomain))
  Metered.charge .inversion 1
  let pt ← Metered.ofExcept .scalar (Point.of key publicInputs ch)
  if ¬ quotientHolds proof.evaluations ch pt then throw (.rejected (.invalidProof .quotientIdentity))
  let ts := terms key proof ch pt
  Metered.charge .g1Mul ts.length
  let commitment := G1.msm ts
  Metered.charge .g1Mul proof.quotients.length
  let quotient := G1.msm (proof.quotients.zip (Scalar.powers (Scalar.pow ch.z key.domain.size) 4))
  Metered.charge .g1Mul key.lookupTable.toList.length
  let table := G1.msm (key.lookupTable.toList.zip (Scalar.powers ch.eta 4))
  pure { commitment, quotient, table }

end Linearization

end Settlement

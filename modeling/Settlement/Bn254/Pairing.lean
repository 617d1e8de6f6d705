import Settlement.Bn254.Group

/-!
The optimal ate pairing. A product of pairings is one product of Miller values and one final
exponentiation. Factors from the subfield of degree six are left out of a Miller value, since the
final exponentiation sends them to one.
-/

namespace Settlement.Bn254

namespace Pairing

def chord (a : G2) (m d : Fp2) (t : G1) : Fp12 :=
  ⟨⟨(d * a.z).scale (-t.y), 0, 0⟩,
   ⟨(m * a.z).scale t.x, (d * a.y - m * a.x).scale t.z, 0⟩⟩

def vertical (a : G2) (t : G1) : Fp12 :=
  ⟨⟨a.z.scale t.x, (-a.x).scale t.z, 0⟩, 0⟩

def line (a b : G2) (t : G1) : Fp12 :=
  if G2.isInfinity a then 0
  else
    let m := b.y * a.z - a.y * b.z
    let d := b.x * a.z - a.x * b.z
    if d ≠ 0 then chord a m d t
    else if m = 0 then
      let xx := a.x * a.x
      let yz := a.y * a.z
      chord a (xx + xx + xx) (yz + yz) t
    else vertical a t

def frobenius (q : G2) : G2 :=
  ⟨q.x.conj *
     ⟨21575463638280843010398324269430826099269044274347216827212613867836435027261,
      10307601595873709700152284273816112264069230130616436755625194854815875713954⟩,
   q.y.conj *
     ⟨2821565182194536844548159561693502659359617185244120367078079554186484126554,
      3505843767911556378687030309984248845540243509899259641013678093033130930403⟩,
   q.z.conj⟩

/-- The signed binary digits of the loop length below its leading one, most significant first. -/
def loopDigits : List Int :=
  [1, 0, 1, 0, 0, -1, 0, 1, 1, 0, 0, 0, -1, 0, 0, 1, 1, 0, 0, -1, 0, 0,
   0, 0, 0, 1, 0, 0, -1, 0, 0, 1, 1, 1, 0, 0, 0, 0, -1, 0, 1, 0, 0, -1,
   0, 1, 1, 0, 0, 1, 0, 0, -1, 1, 0, 0, -1, 0, 1, 0, 1, 0, 0, 0]

structure State where
  point : G2
  value : Fp12

def State.double (t : G1) (s : State) : State :=
  ⟨Projective.double s.point, s.value * s.value * line s.point s.point t⟩

def State.add (t : G1) (q : G2) (s : State) : State :=
  ⟨Projective.add s.point q, s.value * line s.point q t⟩

def State.step (t : G1) (q : G2) (s : State) (digit : Int) : State :=
  let s := s.double t
  if digit = 1 then s.add t q
  else if digit = -1 then s.add t (Projective.neg q)
  else s

def miller (t : G1) (q : G2) : Fp12 :=
  if G1.isInfinity t || G2.isInfinity q then 1
  else
    let s := loopDigits.foldl (State.step t q) ⟨q, 1⟩
    let q1 := frobenius q
    ((s.add t q1).add t (Projective.neg (frobenius q1))).value

def finalExp (f : Fp12) : Fp12 :=
  f.pow ((Nat.pow p 12 - 1) / r)

end Pairing

/-- The two steps of a pairing: a value for each pair of points, and an exponentiation that turns a
product of such values into the product of the pairings. -/
class PairingSteps where
  miller : G1 → G2 → Fp12
  finalExp : Fp12 → Fp12

namespace Pairing

instance ate : PairingSteps := ⟨miller, finalExp⟩

def millerProduct [PairingSteps] : List (G1 × G2) → Except PointError Fp12
  | [] => .ok 1
  | (t, q) :: rest =>
    if G1.isInfinity t || G2.isInfinity q then millerProduct rest
    else if ¬ G1.onCurve t then .error .g1NotOnCurve
    else if ¬ G2.onCurve q then .error .g2NotOnCurve
    else do
      let m ← millerProduct rest
      pure (PairingSteps.miller t q * m)

def checkProduct [PairingSteps] (pairs : List (G1 × G2)) : Except PointError Bool := do
  let m ← millerProduct pairs
  pure (PairingSteps.finalExp m = 1)

end Pairing

end Settlement.Bn254

import Settlement.Bn254.Scalar
import Settlement.Bn254.Tower
import Settlement.Curve.Projective
import Settlement.Value

namespace Settlement.Bn254

abbrev G1 : Type := Projective Fp

abbrev G2 : Type := Projective Fp2

inductive Coordinate where
  | x
  | y
  | x0
  | x1
  | y0
  | y1
  deriving DecidableEq

inductive PointError where
  | coordinateType (c : Coordinate) (typeName : String)
  | coordinateRange (c : Coordinate)
  | g1NotOnCurve
  | g2Shape
  | g2NotOnCurve
  | g2NotInSubgroup
  deriving DecidableEq

def Coordinate.name : Coordinate → String
  | .x => "G1.x"
  | .y => "G1.y"
  | .x0 => "G2.x0"
  | .x1 => "G2.x1"
  | .y0 => "G2.y0"
  | .y1 => "G2.y1"

def PointError.message : PointError → String
  | .coordinateType c t => c.name ++ ": coordinate must be an int, got " ++ t
  | .coordinateRange c => c.name ++ ": coordinate is not a canonical base-field element"
  | .g1NotOnCurve => "G1 point is not on curve"
  | .g2Shape => "G2 point must be [[x0, x1], [y0, y1]]"
  | .g2NotOnCurve => "G2 point is not on curve"
  | .g2NotInSubgroup => "G2 point is not in the prime-order subgroup"

def coordinate (c : Coordinate) (n : Int) : Except PointError Fp :=
  if h : 0 ≤ n ∧ n < p then .ok ⟨n.toNat, by omega⟩ else .error (.coordinateRange c)

def coordinateOf (c : Coordinate) : Value → Except PointError Fp
  -- of the dynamic values only integers are coordinates, and truth values are none
  | .int n => coordinate c n
  | v => .error (.coordinateType c v.kind)

namespace G1

def b : Fp := 3

def generator : G1 := Projective.ofAffine 1 2

def infinity : G1 := Projective.infinity

def isInfinity (a : G1) : Bool := Projective.isInfinity a

def onCurve (a : G1) : Bool := Projective.onCurve b a

def add (a b : G1) : G1 :=
  if isInfinity a then b
  else if isInfinity b then a
  else if Projective.same a b then Projective.double a
  else Projective.add a b

def neg (a : G1) : G1 :=
  if isInfinity a then a else Projective.neg a

def mul (a : G1) (k : Int) : G1 :=
  let n := (k % r).toNat
  if n = 0 ∨ isInfinity a then infinity else Projective.scale a n

def msm (terms : List (G1 × Int)) : G1 :=
  terms.foldl (fun acc t => add acc (mul t.1 t.2)) infinity

def ofCoordinates (x y : Fp) : Except PointError G1 :=
  if x = 0 ∧ y = 0 then .ok infinity
  else
    let a : G1 := ⟨x, y, 1⟩
    if onCurve a then .ok a else .error .g1NotOnCurve

def ofAffine (x y : Int) : Except PointError G1 := do
  ofCoordinates (← coordinate .x x) (← coordinate .y y)

def ofValues (x y : Value) : Except PointError G1 := do
  ofCoordinates (← coordinateOf .x x) (← coordinateOf .y y)

def toAffine (a : G1) : Nat × Nat :=
  match Projective.toAffine? a with
  | none => (0, 0)
  | some (x, y) => (x.val, y.val)

end G1

namespace G2

def b : Fp2 :=
  ⟨19485874751759354771024239261021720505790618469301721065564631296452457478373,
   266929791119991161246907387137283842545076965332900288569378510910307636690⟩

def generator : G2 :=
  Projective.ofAffine
    ⟨10857046999023057135944570762232829481370756359578518086990519993285655852781,
     11559732032986387107991004021392285783925812861821192530917403151452391805634⟩
    ⟨8495653923123431417604973247489272438418190587263600148770280649306958101930,
     4082367875863433681332203403145435568316851327593401208105741076214120093531⟩

def infinity : G2 := Projective.infinity

def isInfinity (a : G2) : Bool := Projective.isInfinity a

def onCurve (a : G2) : Bool := Projective.onCurve b a

def mul (a : G2) (k : Int) : G2 := Projective.scale a (k % r).toNat

def inSubgroup (a : G2) : Bool := isInfinity (Projective.scale a r)

abbrev Affine : Type := (Nat × Nat) × (Nat × Nat)

def ofCoordinates (x y : Fp2) : Except PointError G2 :=
  if x = 0 ∧ y = 0 then .ok infinity
  else
    let a : G2 := ⟨x, y, 1⟩
    if ¬ onCurve a then .error .g2NotOnCurve
    else if ¬ inSubgroup a then .error .g2NotInSubgroup
    else .ok a

def ofAffine (xs ys : List Int) : Except PointError G2 :=
  match xs, ys with
  | [x0, x1], [y0, y1] => do
    let x : Fp2 := ⟨← coordinate .x0 x0, ← coordinate .x1 x1⟩
    let y : Fp2 := ⟨← coordinate .y0 y0, ← coordinate .y1 y1⟩
    ofCoordinates x y
  | _, _ => .error .g2Shape

def ofValues (xs ys : List Value) : Except PointError G2 :=
  match xs, ys with
  | [x0, x1], [y0, y1] => do
    let x : Fp2 := ⟨← coordinateOf .x0 x0, ← coordinateOf .x1 x1⟩
    let y : Fp2 := ⟨← coordinateOf .y0 y0, ← coordinateOf .y1 y1⟩
    ofCoordinates x y
  | _, _ => .error .g2Shape

def toAffine (a : G2) : Affine :=
  match Projective.toAffine? a with
  | none => ((0, 0), (0, 0))
  | some (x, y) => ((x.re.val, x.im.val), (y.re.val, y.im.val))

end G2

end Settlement.Bn254

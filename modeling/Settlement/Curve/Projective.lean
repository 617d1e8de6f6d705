/-!
Points of a curve `y² = x³ + b` in homogeneous coordinates over any field. The coordinate `z` is
zero exactly for the point at infinity.
-/

namespace Settlement

structure Projective (F : Type) where
  x : F
  y : F
  z : F
  deriving DecidableEq

namespace Projective

variable {F : Type} [Add F] [Sub F] [Mul F] [Neg F] [Zero F] [One F] [Inv F] [DecidableEq F]

@[inline] def infinity : Projective F := ⟨1, 1, 0⟩

@[inline] def ofAffine (x y : F) : Projective F := ⟨x, y, 1⟩

@[inline] def isInfinity (p : Projective F) : Bool :=
  p.z == 0

@[specialize] def onCurve (b : F) (p : Projective F) : Bool :=
  p.isInfinity || p.y * p.y * p.z - p.x * p.x * p.x == b * (p.z * p.z * p.z)

@[specialize] def double (p : Projective F) : Projective F :=
  let xx := p.x * p.x
  let w := xx + xx + xx
  let s := p.y * p.z
  let b := p.x * p.y * s
  let b2 := b + b
  let b4 := b2 + b2
  let h := w * w - (b4 + b4)
  let ss := s * s
  let hs := h * s
  let yyss := p.y * p.y * ss
  let yyss2 := yyss + yyss
  let yyss4 := yyss2 + yyss2
  let sss := s * ss
  let sss2 := sss + sss
  let sss4 := sss2 + sss2
  ⟨hs + hs, w * (b4 - h) - (yyss4 + yyss4), sss4 + sss4⟩

@[specialize] def add (p q : Projective F) : Projective F :=
  if q.isInfinity then p
  else if p.isInfinity then q
  else
    let u1 := q.y * p.z
    let u2 := p.y * q.z
    let v1 := q.x * p.z
    let v2 := p.x * q.z
    if v1 = v2 then
      if u1 = u2 then double p else infinity
    else
      let u := u1 - u2
      let v := v1 - v2
      let vv := v * v
      let vv2 := vv * v2
      let vvv := v * vv
      let w := p.z * q.z
      let a := u * u * w - vvv - (vv2 + vv2)
      ⟨v * a, u * (vv2 - a) - vvv * u2, vvv * w⟩

@[inline] def neg (p : Projective F) : Projective F :=
  ⟨p.x, -p.y, p.z⟩

@[specialize] def scale (p : Projective F) (n : Nat) : Projective F :=
  if n = 0 then infinity
  else if n = 1 then p
  else if n % 2 = 0 then scale (double p) (n / 2)
  else add (scale (double p) (n / 2)) p
termination_by n

@[specialize] def toAffine? (p : Projective F) : Option (F × F) :=
  if p.isInfinity then none
  else
    let i := p.z⁻¹
    some (p.x * i, p.y * i)

@[specialize] def same (p q : Projective F) : Bool :=
  p.x * q.z == q.x * p.z && p.y * q.z == q.y * p.z

end Projective

end Settlement

import Settlement.Number.Modular

/-!
The base field of BN254 and its extensions of degree two, six and twelve:
`i² = -1`, `v³ = 9 + i` and `w² = v`.
-/

namespace Settlement.Bn254

abbrev p : Nat :=
  21888242871839275222246405745257275088696311157297823662689037894645226208583

abbrev Fp : Type := Fin p

instance : @NeZero Nat Zero.ofOfNat0 p := ⟨Nat.succ_ne_zero _⟩

instance : Zero Fp := ⟨Fin.ofNat p 0⟩

instance : One Fp := ⟨Fin.ofNat p 1⟩

instance : Inv Fp where
  inv x := Fin.ofNat p (powMod x.val (p - 2) p)

namespace Fp

def ofInt (n : Int) : Fp :=
  Fin.ofNat p (n % p).toNat

end Fp

@[ext]
structure Fp2 where
  re : Fp
  im : Fp
  deriving DecidableEq

namespace Fp2

instance : Zero Fp2 := ⟨⟨0, 0⟩⟩
instance : One Fp2 := ⟨⟨1, 0⟩⟩

instance : Add Fp2 where
  add a b := ⟨a.re + b.re, a.im + b.im⟩

instance : Sub Fp2 where
  sub a b := ⟨a.re - b.re, a.im - b.im⟩

instance : Neg Fp2 where
  neg a := ⟨-a.re, -a.im⟩

instance : Mul Fp2 where
  mul a b := ⟨a.re * b.re - a.im * b.im, a.re * b.im + a.im * b.re⟩

def conj (a : Fp2) : Fp2 :=
  ⟨a.re, -a.im⟩

instance : Inv Fp2 where
  inv a :=
    let n := (a.re * a.re + a.im * a.im)⁻¹
    ⟨a.re * n, -(a.im * n)⟩

def scale (k : Fp) (a : Fp2) : Fp2 :=
  ⟨k * a.re, k * a.im⟩

def timesXi (a : Fp2) : Fp2 :=
  ⟨9 * a.re - a.im, a.re + 9 * a.im⟩

end Fp2

@[ext]
structure Fp6 where
  c0 : Fp2
  c1 : Fp2
  c2 : Fp2
  deriving DecidableEq

namespace Fp6

instance : Zero Fp6 := ⟨⟨0, 0, 0⟩⟩
instance : One Fp6 := ⟨⟨1, 0, 0⟩⟩

instance : Add Fp6 where
  add a b := ⟨a.c0 + b.c0, a.c1 + b.c1, a.c2 + b.c2⟩

instance : Sub Fp6 where
  sub a b := ⟨a.c0 - b.c0, a.c1 - b.c1, a.c2 - b.c2⟩

instance : Mul Fp6 where
  mul a b :=
    let t0 := a.c0 * b.c0
    let t1 := a.c1 * b.c1
    let t2 := a.c2 * b.c2
    ⟨t0 + ((a.c1 + a.c2) * (b.c1 + b.c2) - t1 - t2).timesXi,
     (a.c0 + a.c1) * (b.c0 + b.c1) - t0 - t1 + t2.timesXi,
     (a.c0 + a.c2) * (b.c0 + b.c2) - t0 - t2 + t1⟩

def timesV (a : Fp6) : Fp6 :=
  ⟨a.c2.timesXi, a.c0, a.c1⟩

end Fp6

@[ext]
structure Fp12 where
  c0 : Fp6
  c1 : Fp6
  deriving DecidableEq

namespace Fp12

instance : Zero Fp12 := ⟨⟨0, 0⟩⟩
instance : One Fp12 := ⟨⟨1, 0⟩⟩

instance : Mul Fp12 where
  mul a b :=
    let t0 := a.c0 * b.c0
    let t1 := a.c1 * b.c1
    ⟨t0 + t1.timesV, (a.c0 + a.c1) * (b.c0 + b.c1) - t0 - t1⟩

def pow (a : Fp12) (n : Nat) : Fp12 :=
  if n = 0 then 1
  else
    let h := pow (a * a) (n / 2)
    if n % 2 = 1 then a * h else h
termination_by n

end Fp12

end Settlement.Bn254

import Settlement.Bytes
import Settlement.Curve.Projective
import Settlement.Number.Modular

namespace Settlement.Secp256k1

abbrev q : Nat := 0xfffffffffffffffffffffffffffffffffffffffffffffffffffffffefffffc2f

abbrev Fq : Type := Fin q

instance : @NeZero Nat Zero.ofOfNat0 q := ⟨Nat.succ_ne_zero _⟩

instance : Zero Fq := ⟨Fin.ofNat q 0⟩

instance : One Fq := ⟨Fin.ofNat q 1⟩

instance : Inv Fq where
  inv x := Fin.ofNat q (powMod x.val (q - 2) q)

abbrev Point : Type := Projective Fq

abbrev order : Nat := 0xfffffffffffffffffffffffffffffffebaaedce6af48a03bbfd25e8cd0364141

def generator : Point :=
  .ofAffine 0x79be667ef9dcbbac55a06295ce870b07029bfcdb2dce28d959f2815b16f81798
    0x483ada7726a3c4655da4fbfc0e1108a8fd17b448a68554199c47d08ffb10d4b8

def multiple (k : Nat) : Nat × Nat :=
  match (generator.scale k).toAffine? with
  | some (x, y) => (x.val, y.val)
  | none => (0, 0)

def invOrder (k : Nat) : Nat :=
  powMod k (order - 2) order

def compressed (p : Nat × Nat) : Bytes :=
  UInt8.ofNat (2 + p.2 % 2) :: Bytes.ofNat 32 p.1

end Settlement.Secp256k1

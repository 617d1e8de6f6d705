
namespace Settlement

abbrev Bytes := List UInt8

namespace Bytes

def toNat (bs : Bytes) : Nat :=
  bs.foldl (fun n b => n * 256 + b.toNat) 0

def ofNat : Nat → Nat → Bytes
  | 0, _ => []
  | k + 1, n => ofNat k (n / 256) ++ [UInt8.ofNat n]

def ofNatMin (n : Nat) : Bytes :=
  if n = 0 then [] else ofNat (n.log2 / 8 + 1) n

def zeros (k : Nat) : Bytes :=
  List.replicate k 0

def padLeft (k : Nat) (bs : Bytes) : Bytes :=
  zeros (k - bs.length) ++ bs

def padRight (k : Nat) (bs : Bytes) : Bytes :=
  bs ++ zeros ((k - bs.length % k) % k)

def ofString (s : String) : Bytes :=
  s.toUTF8.toList

def splitChunks (k : Nat) (acc : List Bytes) (bs : Bytes) : List Bytes :=
  if _ : k = 0 ∨ bs = [] then acc.reverse
  else splitChunks k (bs.take k :: acc) (bs.drop k)
termination_by bs.length
decreasing_by
  have : bs.length ≠ 0 := by simp_all
  simp only [List.length_drop]
  omega

def chunks (k : Nat) (bs : Bytes) : List Bytes :=
  splitChunks k [] bs

theorem length_ofNat (k n : Nat) : (ofNat k n).length = k := by
  induction k generalizing n with
  | zero => rfl
  | succ k ih => simp [ofNat, ih]

end Bytes

end Settlement

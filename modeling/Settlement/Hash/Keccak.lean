import Settlement.Bytes

/-!
The Keccak-256 hash: a sponge of rate 136 bytes over the permutation on 25 lanes of 64 bits, with
the padding byte `01`.
-/

namespace Settlement.Keccak

abbrev Lanes := Vector UInt64 25

def rotate (w : UInt64) (n : UInt64) : UInt64 :=
  if n = 0 then w else w <<< n ||| w >>> (64 - n)

def offsets : Vector UInt64 25 :=
  #v[0, 1, 62, 28, 27,
     36, 44, 6, 55, 20,
     3, 10, 43, 25, 39,
     41, 45, 15, 21, 8,
     18, 2, 61, 56, 14]

def roundConstants : List UInt64 :=
  [0x0000000000000001, 0x0000000000008082, 0x800000000000808a, 0x8000000080008000,
   0x000000000000808b, 0x0000000080000001, 0x8000000080008081, 0x8000000000008009,
   0x000000000000008a, 0x0000000000000088, 0x0000000080008009, 0x000000008000000a,
   0x000000008000808b, 0x800000000000008b, 0x8000000000008089, 0x8000000000008003,
   0x8000000000008002, 0x8000000000000080, 0x000000000000800a, 0x800000008000000a,
   0x8000000080008081, 0x8000000000008080, 0x0000000080000001, 0x8000000080008008]

@[inline] def lane (a : Lanes) (x y : Nat) : UInt64 :=
  a[x % 5 + 5 * (y % 5)]

@[inline] def ofLanes (f : Nat → Nat → UInt64) : Lanes :=
  Vector.ofFn fun i => f (i.val % 5) (i.val / 5)

def theta (a : Lanes) : Lanes :=
  let parity : Vector UInt64 5 := Vector.ofFn fun x =>
    lane a x 0 ^^^ lane a x 1 ^^^ lane a x 2 ^^^ lane a x 3 ^^^ lane a x 4
  let d : Vector UInt64 5 := Vector.ofFn fun x =>
    parity[(x.val + 4) % 5] ^^^ rotate parity[(x.val + 1) % 5] 1
  ofLanes fun x y => lane a x y ^^^ d[x % 5]

def rhoPi (a : Lanes) : Lanes :=
  -- each lane is rotated and moved: place `(x, y)` takes the lane of column `x + 3y`, row `x`
  ofLanes fun x y => rotate (lane a (x + 3 * y) x) (lane offsets (x + 3 * y) x)

def chi (a : Lanes) : Lanes :=
  ofLanes fun x y => lane a x y ^^^ (~~~(lane a (x + 1) y) &&& lane a (x + 2) y)

def round (a : Lanes) (k : UInt64) : Lanes :=
  let b := chi (rhoPi (theta a))
  b.set 0 (b[0] ^^^ k)

def permute (a : Lanes) : Lanes :=
  roundConstants.foldl round a

def rate : Nat := 136

def word (bs : Bytes) : UInt64 :=
  bs.foldr (fun b w => w <<< 8 ||| b.toUInt64) 0

def unword (w : UInt64) : Bytes :=
  (List.range 8).map fun i => (w >>> (8 * i).toUInt64).toUInt8

def absorb (a : Lanes) (block : Bytes) : Lanes :=
  let words := ((Bytes.chunks 8 block).map word).toArray
  permute (Vector.ofFn fun i => a[i] ^^^ words.getD i 0)

def pad (msg : Bytes) : Bytes :=
  let gap := rate - msg.length % rate
  if gap = 1 then msg ++ [0x81] else msg ++ 0x01 :: Bytes.zeros (gap - 2) ++ [0x80]

end Settlement.Keccak

namespace Settlement

def keccak256 (msg : Bytes) : Bytes :=
  let a := (Bytes.chunks Keccak.rate (Keccak.pad msg)).foldl Keccak.absorb (Vector.replicate 25 0)
  (a.toList.take 4).flatMap Keccak.unword

end Settlement

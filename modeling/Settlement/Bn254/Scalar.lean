import Settlement.Bytes
import Settlement.Number.Modular

/-!
Arithmetic modulo the order `r` of the BN254 groups. Scalars are integers; an operation reduces its
arguments itself, and a value from outside is canonical only when it already lies in `[0, r)`.
-/

namespace Settlement.Bn254

def r : Nat :=
  21888242871839275222246405745257275088548364400416034343698204186575808495617

inductive ScalarError where
  | length (n : Nat)
  | notCanonical
  | inverseOfZero
  | batchInverseOfZero
  | sizeNotPower (n : Int)
  | sizeTooLarge (n : Int)
  | rootNotPrimitive
  | domainSize (n : Int)
  | omegaNotPrimitive
  | pointInDomain
  deriving DecidableEq

inductive WidthError where
  | negative
  | tooBig
  deriving DecidableEq

def WidthError.message : WidthError → String
  | .negative => "can't convert negative int to unsigned"
  | .tooBig => "int too big to convert"

namespace Scalar

def generator : Int := 5

def twoAdicity : Nat := 28

end Scalar

def ScalarError.message : ScalarError → String
  | .length n => s!"Fr.from_bytes: expected 32 bytes, got {n}"
  | .notCanonical => "Fr.from_bytes: value is not a canonical field element"
  | .inverseOfZero => "Fr inverse of zero"
  | .batchInverseOfZero => "Fr batch inverse of zero"
  | .sizeNotPower n => s!"domain size must be a power of two, got {n}"
  | .sizeTooLarge n => s!"domain size {n} exceeds 2^{Scalar.twoAdicity}"
  | .rootNotPrimitive => "generator does not yield a primitive root of unity"
  | .domainSize n => s!"domain size must be a power of two >= 2, got {n}"
  | .omegaNotPrimitive => "omega is not a primitive root of unity for the domain size"
  | .pointInDomain => "evaluation point lies in the domain"

def toBytes32 (x : Int) : Except WidthError Bytes :=
  if x < 0 then .error .negative
  else if x ≥ Nat.pow 2 256 then .error .tooBig
  else .ok (Bytes.ofNat 32 x.toNat)

namespace Scalar

def sum (xs : List Int) : Int :=
  xs.foldr (· + ·) 0 % r

def isCanonical (x : Int) : Bool :=
  decide (0 ≤ x ∧ x < r)

def ofBytes (bs : Bytes) : Except ScalarError Int :=
  if bs.length ≠ 32 then .error (.length bs.length)
  else if bs.toNat ≥ r then .error .notCanonical
  else .ok bs.toNat

def pow (x : Int) (e : Nat) : Int :=
  powMod (x % r).toNat e r

def inv (x : Int) : Except ScalarError Int :=
  if x % r = 0 then .error .inverseOfZero else .ok (pow x (r - 2))

def runningProducts (acc : Int) : List Int → List Int × Int
  | [] => ([], acc)
  | x :: xs =>
    let (before, total) := runningProducts (acc * x % r) xs
    (acc :: before, total)

def unwind : List (Int × Int) → Int → List Int × Int
  | [], i => ([], i)
  | (before, x) :: rest, i =>
    let (out, i) := unwind rest i
    (before * i % r :: out, i * x % r)

/-- All inverses at the price of one inversion. -/
def batchInv (xs : List Int) : Except ScalarError (List Int) :=
  if xs.any (· % r == 0) then .error .batchInverseOfZero
  else if xs.isEmpty then .ok []
  else
    let (before, total) := runningProducts 1 xs
    (inv total).map fun i => (unwind (before.zip xs) i).1

def powers (x : Int) (n : Nat) : List Int :=
  match n with
  | 0 => []
  | n + 1 => 1 :: tail 1 n
where
  tail (last : Int) : Nat → List Int
    | 0 => []
    | k + 1 =>
      let next := last * x % r
      next :: tail next k

def isPowerOfTwo (n : Int) : Bool :=
  decide (1 ≤ n ∧ n.toNat = Nat.pow 2 n.toNat.log2)

def rootOfUnity (n : Int) : Except ScalarError Int :=
  if ¬ isPowerOfTwo n then .error (.sizeNotPower n)
  else if n > Nat.pow 2 twoAdicity then .error (.sizeTooLarge n)
  else
    let w := pow generator ((r - 1) / n.toNat)
    if n > 1 ∧ pow w (n.toNat / 2) = 1 then .error .rootNotPrimitive else .ok w

end Scalar

structure Domain where
  size : Nat
  omega : Int
  deriving DecidableEq

namespace Domain

/-- Accepts a power of two from two on and a primitive root for it; the root is kept as given. -/
def ofRoot (size omega : Int) : Except ScalarError Domain :=
  if size < 2 ∨ ¬ Scalar.isPowerOfTwo size then .error (.domainSize size)
  else if Scalar.pow omega size.toNat ≠ 1 ∨ Scalar.pow omega (size.toNat / 2) = 1 then
    .error .omegaNotPrimitive
  else .ok ⟨size.toNat, omega⟩

def ofSize (size : Int) : Except ScalarError Domain := do
  ofRoot size (← Scalar.rootOfUnity size)

def element (d : Domain) (i : Int) : Int :=
  Scalar.pow d.omega (i % d.size).toNat

def elements (d : Domain) : List Int :=
  Scalar.powers d.omega d.size

def vanishing (d : Domain) (z : Int) : Int :=
  (Scalar.pow z d.size - 1) % r

def sortedIndices (indices : List Int) : List Int :=
  (indices.mergeSort (· ≤ ·)).eraseReps

/-- The Lagrange basis at `z`, for each distinct index in increasing order:
`omega ^ i * (z ^ n - 1) / (n * (z - omega ^ i))`. -/
def lagrangeMany (d : Domain) (indices : List Int) (z : Int) :
    Except ScalarError (List (Int × Int)) :=
  let zh := d.vanishing z
  if zh = 0 then .error .pointInDomain
  else do
    let unique := sortedIndices indices
    let points := unique.map d.element
    let inverses ← Scalar.batchInv (points.map fun w => d.size * (z - w) % r)
    let values := List.zipWith (fun w i => w * zh % r * i % r) points inverses
    pure (unique.zip values)

def lagrange (d : Domain) (i z : Int) : Except ScalarError Int := do
  let values ← d.lagrangeMany [i] z
  pure ((values.lookup i).getD 0)

end Domain

end Settlement.Bn254

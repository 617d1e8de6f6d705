import Settlement.Bn254.Pairing
import Settlement.Hash.Keccak
import Settlement.Key.Document
import Settlement.Kzg
import Settlement.Proof

/-!
Verification keys: twenty points of the first group, the evaluation domain, the shifts of the wires
and two points of the second group. A key is built as a whole from a document or refused.
-/

namespace Settlement

open Bn254

inductive KeyError where
  | word (e : Word.ReadError)
  | omegaRange
  | g1Shape
  | point (e : PointError)
  | slot (name : String) (expected got : Nat)
  | domain (e : ScalarError)
  | numInputs
  | nonResidues
  | g2Infinity
  | g2First
  | g2Second
  deriving DecidableEq

def KeyError.message : KeyError → String
  | .word e => e.message
  | .omegaRange => "omega is not a canonical field element"
  | .g1Shape => "G1 point must be [x, y]"
  | .point e => e.message
  | .slot name expected got =>
    "verification key slot " ++ name ++ s!" expects {expected} entries, got {got}"
  | .domain e => e.message
  | .numInputs => "num_inputs must be within [0, domain_size]"
  | .nonResidues => "non_residues must be distinct non-zero field elements other than 1"
  | .g2Infinity => "g2_elements must not contain the point at infinity"
  | .g2First => "g2_elements[0] must be the G2 generator"
  | .g2Second => "g2_elements[1] must differ from the G2 generator"

structure Key where
  domain : Domain
  numInputs : Nat
  -- `q_a, q_b, q_c, q_d, q_ab, q_ac, q_const, q_dnext`
  gateSetup : Vector G1 8
  gateSelectors : Vector G1 2
  permutation : Vector G1 4
  lookupSelector : G1
  -- three columns and the column of table numbers
  lookupTable : Vector G1 4
  lookupTableType : G1
  -- the shifts of the wires behind the first
  nonResidues : Vector Int 3
  -- the generator and its multiple by the trapdoor
  g2Elements : Vector G2 2
  deriving DecidableEq

namespace Key

def g1Slots (k : Key) : List G1 :=
  k.gateSetup.toList ++ k.gateSelectors.toList ++ k.permutation.toList ++ [k.lookupSelector] ++
    k.lookupTable.toList ++ [k.lookupTableType]

def shifts (k : Key) : List Int :=
  1 :: k.nonResidues.toList

def g2Words (a : G2) : List Int :=
  let ((x0, x1), (y0, y1)) := G2.toAffine a
  [x0, x1, y0, y1]

def words (k : Key) : List Int :=
  [(k.domain.size : Int), k.numInputs, k.domain.omega] ++ k.g1Slots.flatMap Proof.pointWords ++
    k.nonResidues.toList ++ k.g2Elements.toList.flatMap g2Words

def wordBytes (k : Key) : Bytes :=
  k.words.flatMap fun w => Bytes.ofNat 32 w.toNat

def digest (k : Key) : Bytes :=
  keccak256 k.wordBytes

def mainGate (k : Key) : G1 :=
  k.gateSelectors[0]

def customGate (k : Key) : G1 :=
  k.gateSelectors[1]

def sigmas (k : Key) : List G1 :=
  k.permutation.toList.take 3

def lastSigma (k : Key) : G1 :=
  k.permutation[3]

def openingKey (k : Key) : Kzg.OpeningKey :=
  ⟨G1.generator, k.g2Elements[0], k.g2Elements[1]⟩

def slot {α : Type} (name : String) (n : Nat) (xs : List α) : Except KeyError (Vector α n) :=
  if h : xs.length = n then .ok ⟨xs.toArray, by simpa using h⟩
  else .error (.slot name n xs.length)

def validShifts (shifts : List Int) : Bool :=
  shifts.all (fun k => Scalar.isCanonical k && k != 0) && decide shifts.Nodup

structure Parts where
  domainSize : Int
  numInputs : Int
  omega : Int
  gateSetup : List G1
  gateSelectors : List G1
  permutation : List G1
  lookupSelector : G1
  lookupTable : List G1
  lookupTableType : G1
  nonResidues : List Int
  g2Elements : List G2

/-- The checks run in this order: slot lengths, domain, number of inputs, shifts, second group. -/
def ofParts (p : Parts) : Except KeyError Key := do
  let gateSetup ← slot "gate_setup" 8 p.gateSetup
  let gateSelectors ← slot "gate_selectors" 2 p.gateSelectors
  let permutation ← slot "permutation" 4 p.permutation
  let lookupTable ← slot "lookup_table" 4 p.lookupTable
  let nonResidues ← slot "non_residues" 3 p.nonResidues
  let g2Elements ← slot "g2_elements" 2 p.g2Elements
  let domain ← (Domain.ofRoot p.domainSize p.omega).mapError .domain
  if ¬ (0 ≤ p.numInputs ∧ p.numInputs ≤ p.domainSize) then throw .numInputs
  if ¬ validShifts (1 :: p.nonResidues) then throw .nonResidues
  if G2.isInfinity g2Elements[0] || G2.isInfinity g2Elements[1] then throw .g2Infinity
  if G2.toAffine g2Elements[0] ≠ G2.toAffine G2.generator then throw .g2First
  if G2.toAffine g2Elements[1] = G2.toAffine g2Elements[0] then throw .g2Second
  pure {
    domain, numInputs := p.numInputs.toNat, gateSetup, gateSelectors, permutation
    lookupSelector := p.lookupSelector, lookupTable, lookupTableType := p.lookupTableType
    nonResidues, g2Elements }

def readWord (w : WrittenWord) : Except KeyError Int := do
  let n ← w.read.mapError .word
  pure n

def readG1 (pair : List WrittenWord) : Except KeyError G1 :=
  match pair with
  | [x, y] => do
    let x ← readWord x
    let y ← readWord y
    (G1.ofAffine x y).mapError .point
  | _ => .error .g1Shape

def readG2 (pairs : List (List WrittenWord)) : Except KeyError G2 :=
  match pairs with
  | [xs, ys] => do
    let xs ← xs.mapM readWord
    let ys ← ys.mapM readWord
    (G2.ofAffine xs ys).mapError .point
  | _ => .error (.point .g2Shape)

def ofDocument (d : KeyDocument) : Except KeyError Key := do
  let omega ← readWord d.omega
  if omega ≥ r then throw .omegaRange
  ofParts {
    domainSize := d.domainSize
    numInputs := d.numInputs
    omega
    gateSetup := ← d.gateSetup.mapM readG1
    gateSelectors := ← d.gateSelectors.mapM readG1
    permutation := ← d.permutation.mapM readG1
    lookupSelector := ← readG1 d.lookupSelector
    lookupTable := ← d.lookupTable.mapM readG1
    lookupTableType := ← readG1 d.lookupTableType
    nonResidues := ← d.nonResidues.mapM readWord
    g2Elements := ← d.g2Elements.mapM readG2 }

def writeG1 (a : G1) : List WrittenWord :=
  let (x, y) := G1.toAffine a
  [.inr (Word.hexOfNat x), .inr (Word.hexOfNat y)]

def writeG2 (a : G2) : List (List WrittenWord) :=
  let ((x0, x1), (y0, y1)) := G2.toAffine a
  [[.inr (Word.hexOfNat x0), .inr (Word.hexOfNat x1)], [.inr (Word.hexOfNat y0), .inr (Word.hexOfNat y1)]]

def toDocument (k : Key) : KeyDocument where
  domainSize := k.domain.size
  numInputs := k.numInputs
  omega := .inr (Word.hexOfNat k.domain.omega.toNat)
  gateSetup := k.gateSetup.toList.map writeG1
  gateSelectors := k.gateSelectors.toList.map writeG1
  permutation := k.permutation.toList.map writeG1
  lookupSelector := writeG1 k.lookupSelector
  lookupTable := k.lookupTable.toList.map writeG1
  lookupTableType := writeG1 k.lookupTableType
  nonResidues := k.nonResidues.toList.map fun n => .inr (Word.hexOfNat n.toNat)
  g2Elements := k.g2Elements.toList.map writeG2

end Key

end Settlement

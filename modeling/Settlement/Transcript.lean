import Settlement.Bn254.Group
import Settlement.Hash.Keccak

/-!
The transcript of a verification: two state words and a count of challenges. Absorbing a word hashes
it with both state words under two tags; a challenge is the hash of the state and the count under a
third tag.
-/

namespace Settlement

open Bn254

structure Transcript where
  state0 : Bytes
  state1 : Bytes
  counter : Nat
  deriving DecidableEq

namespace Transcript

def start : Transcript := ⟨Bytes.zeros 32, Bytes.zeros 32, 0⟩

def tag (n : Nat) : Bytes := Bytes.ofNat 4 n

def preimage (t : Transcript) (n : Nat) (word : Bytes) : Bytes :=
  tag n ++ t.state0 ++ t.state1 ++ word

def absorb (t : Transcript) (word : Bytes) : Transcript :=
  { t with
    state0 := keccak256 (t.preimage 0 word)
    state1 := keccak256 (t.preimage 1 word) }

def update (t : Transcript) (word : Bytes) : Except Nat Transcript :=
  if word.length = 32 then .ok (t.absorb word) else .error word.length

def absorbScalar (t : Transcript) (x : Int) : Except WidthError Transcript := do
  pure (t.absorb (← toBytes32 x))

def absorbScalars (t : Transcript) (xs : List Int) : Except WidthError Transcript :=
  xs.foldlM absorbScalar t

def absorbPoint (t : Transcript) (a : G1) : Transcript :=
  let (x, y) := G1.toAffine a
  (t.absorb (Bytes.ofNat 32 x)).absorb (Bytes.ofNat 32 y)

def absorbPoints (t : Transcript) (ps : List G1) : Transcript :=
  ps.foldl absorbPoint t

def challenge (t : Transcript) : Int × Transcript :=
  let digest := keccak256 (t.preimage 2 (Bytes.ofNat 4 t.counter))
  (digest.toNat % r, { t with counter := t.counter + 1 })

end Transcript

end Settlement

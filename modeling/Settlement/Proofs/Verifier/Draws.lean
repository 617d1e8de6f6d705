import Mathlib
import Settlement.Proofs.Hash.Keccak
import Settlement.Proofs.Verifier.Causality

/-!
The challenges on numbers: the two state words of a transcript are the numbers of their bytes.
-/

namespace Settlement

open Bn254

namespace Transcript.Packed

open Keccak.Packed

def word (x : ℤ) : ℕ :=
  Bytes.swap 32 x.toNat

def preimage (s : ℕ × ℕ) (n w : ℕ) : ℕ :=
  Bytes.swap 4 n + 256 ^ 4 * s.1 + 256 ^ 36 * s.2 + 256 ^ 68 * w

noncomputable def absorb (s : ℕ × ℕ) (x : ℤ) : ℕ × ℕ :=
  (digest 100 (preimage s 0 (word x)), digest 100 (preimage s 1 (word x)))

noncomputable def challenge (s : ℕ × ℕ) (n : ℕ) : ℤ :=
  ((Bytes.swap 32 (digest 72 (preimage s 2 (Bytes.swap 4 n))) % r : ℕ) : ℤ)

def joined (xs : List ℤ) : ℕ :=
  xs.foldr (fun x n => word x + 256 ^ 32 * n) 0

theorem littleEndian_encoded (x : ℤ) : Bytes.littleEndian (encoded x) = word x :=
  Bytes.littleEndian_ofNat 32 x.toNat

theorem littleEndian_joined (xs : List ℤ) : Bytes.littleEndian (xs.map encoded).flatten = joined xs := by
  induction xs with
  | nil => rfl
  | cons x xs ih =>
    rw [List.map_cons, List.flatten_cons, Bytes.littleEndian_append, littleEndian_encoded, length_encoded, ih]
    rfl

structure Packs (t : Transcript) (s : ℕ × ℕ) : Prop where
  wide : t.Wide
  state0 : Bytes.littleEndian t.state0 = s.1
  state1 : Bytes.littleEndian t.state1 = s.2

theorem packs_start : Packs start (0, 0) :=
  ⟨wide_start, Bytes.littleEndian_zeros 32, Bytes.littleEndian_zeros 32⟩

namespace Packs

variable {t : Transcript} {s : ℕ × ℕ} (h : Packs t s)

include h

theorem littleEndian_preimage (n : ℕ) (w : Bytes) :
    Bytes.littleEndian (t.preimage n w) = preimage s n (Bytes.littleEndian w) := by
  simp only [Transcript.preimage, tag, Bytes.littleEndian_append, List.length_append, Bytes.littleEndian_ofNat,
    Bytes.length_ofNat, h.wide.state0, h.wide.state1, h.state0, h.state1]
  rfl

theorem length_preimage (n : ℕ) (w : Bytes) : (t.preimage n w).length = 68 + w.length := by
  rw [Transcript.preimage, tag, List.length_append, List.length_append, List.length_append, Bytes.length_ofNat,
    h.wide.state0, h.wide.state1]

theorem absorb (x : ℤ) : Packs (t.absorb (encoded x)) (absorb s x) where
  wide := wide_absorb t _
  state0 := by
    rw [Transcript.absorb, littleEndian_keccak256, h.length_preimage, h.littleEndian_preimage, length_encoded,
      littleEndian_encoded]
    rfl
  state1 := by
    rw [Transcript.absorb, littleEndian_keccak256, h.length_preimage, h.littleEndian_preimage, length_encoded,
      littleEndian_encoded]
    rfl

theorem absorbAll (xs : List ℤ) : Packs (t.absorbAll (xs.map encoded)) (xs.foldl Packed.absorb s) := by
  induction xs generalizing t s with
  | nil => exact h
  | cons x xs ih => exact ih (h.absorb x)

theorem challenge (n : ℕ) :
    ((keccak256 (t.preimage 2 (Bytes.ofNat 4 n))).toNat : ℤ) % r = challenge s n := by
  rw [toNat_keccak256, h.length_preimage, h.littleEndian_preimage, Bytes.length_ofNat, Bytes.littleEndian_ofNat,
    Packed.challenge, Int.natCast_emod]

end Packs

theorem drawn_eq (xs : List ℤ) (n : ℕ) : drawn (xs.map encoded) n = challenge (xs.foldl absorb (0, 0)) n :=
  (packs_start.absorbAll xs).challenge n

end Transcript.Packed

open Transcript.Packed

namespace Key

noncomputable def packedDigest (key : Key) : ℕ :=
  Bytes.swap 32 (Keccak.Packed.digest 1728 (joined key.words))

theorem encoded_packedDigest (key : Key) : Transcript.encoded key.packedDigest = key.digest := by
  have hlen : key.wordBytes.length = 1728 := by
    rw [wordBytes_eq, List.length_flatten, map_length_encoded, length_words, List.sum_replicate]
    rfl
  have hnumber : key.packedDigest = Bytes.toNat key.digest := by
    rw [digest, toNat_keccak256, hlen, wordBytes_eq, littleEndian_joined]
    rfl
  have hdigest : key.digest.length = 32 := length_keccak256 _
  rw [Transcript.encoded, Int.toNat_natCast, hnumber, ← hdigest, Bytes.ofNat_toNat]

end Key

namespace Challenges

theorem ext_value {ch ch' : Challenges} (h : ∀ c : Label, c.value ch = c.value ch') : ch = ch' := by
  obtain ⟨_, _, _, _, _, _, _, _, _⟩ := ch
  obtain ⟨_, _, _, _, _, _, _, _, _⟩ := ch'
  simp only [Challenges.mk.injEq]
  exact ⟨h .eta, h .beta, h .gamma, h .betaLookup, h .gammaLookup, h .alpha, h .z, h .v, h .u⟩

namespace Label

def all : List Label :=
  [eta, beta, gamma, betaLookup, gammaLookup, alpha, z, v, u]

theorem mem_all (c : Label) : c ∈ all := by
  cases c <;> simp [all]

noncomputable def drawn (key : Key) (inputs : List ℤ) (proof : Proof) (c : Label) : ℤ :=
  challenge (((key.packedDigest : ℤ) :: (inputs ++ (proof.rounds.take c.round).flatten)).foldl absorb (0, 0)) c.number

theorem value_eq_drawn {key : Key} {inputs : List ℤ} {proof : Proof} {ch : Challenges}
    (h : derive key inputs proof = .ok ch) (c : Label) : c.value ch = c.drawn key inputs proof := by
  rw [derive_value h, absorbedBefore, ← key.encoded_packedDigest, ← List.map_cons, drawn_eq, drawn]

end Label

theorem derive_eq_ok {key : Key} {inputs : List ℤ} {proof : Proof} {ch : Challenges}
    (hwords : ∀ x ∈ inputs ++ proof.evaluations.toList, IsWord x)
    (h : ∀ c ∈ Label.all, c.value ch = c.drawn key inputs proof) : derive key inputs proof = .ok ch := by
  obtain ⟨ch', hch'⟩ := (derive_isOk_iff key inputs proof).mpr hwords
  have hch : ch' = ch := ext_value fun c => (Label.value_eq_drawn hch' c).trans (h c c.mem_all).symm
  rw [hch', hch]

end Challenges

end Settlement

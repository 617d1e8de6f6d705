import Settlement.Curve.Secp256k1
import Settlement.Hash.Hmac

/-!
Signatures by a secret number. The nonce of a signature is drawn from the secret and the hash alone,
so that the same hash is always signed in the same way; of the two values of `s` the lower is taken.
-/

namespace Settlement

structure Signature where
  r : Nat
  s : Nat
  parity : Nat
  deriving DecidableEq

structure Secret where
  val : Nat
  pos : 0 < val
  lt : val < Secp256k1.order

namespace Secret

open Secp256k1

def ofNat? (n : Nat) : Option Secret :=
  if h : 0 < n ∧ n < order then some ⟨n, h.1, h.2⟩ else none

def bytes (d : Secret) : Bytes :=
  Bytes.ofNat 32 d.val

structure Nonces where
  key : Bytes
  value : Bytes

def Nonces.mix (s : Nonces) (data : Bytes) : Nonces :=
  let key := hmacSha256 s.key (s.value ++ data)
  ⟨key, hmacSha256 key s.value⟩

def nonces (d : Secret) (hash : Nat) : Nonces :=
  let seed := d.bytes ++ Bytes.ofNat 32 (hash % order)
  let start : Nonces := ⟨Bytes.zeros 32, List.replicate 32 1⟩
  (start.mix (0 :: seed)).mix (1 :: seed)

def signWith? (d : Secret) (hash k : Nat) : Option Signature :=
  let (x, y) := multiple k
  let r := x % order
  let s := invOrder k * ((hash + r * d.val) % order) % order
  if r = 0 ∨ s = 0 then none
  else if 2 * s > order then some ⟨r, order - s, (y + 1) % 2⟩
  else some ⟨r, s, y % 2⟩

/-- Draws nonces until one is in range and gives a signature. A draw fails with a chance of less than
one in `2 ^ 127`, so that the number of draws is no restriction. -/
def signFrom (d : Secret) (hash : Nat) : Nat → Nonces → Signature
  | 0, _ => ⟨0, 0, 0⟩
  | draws + 1, s =>
    let value := hmacSha256 s.key s.value
    let k := value.toNat
    match if 0 < k ∧ k < order then d.signWith? hash k else none with
    | some sig => sig
    | none => d.signFrom hash draws (Nonces.mix ⟨s.key, value⟩ [0])

def sign (d : Secret) (hash : Bytes) : Signature :=
  d.signFrom hash.toNat 64 (d.nonces hash.toNat)

end Secret

end Settlement

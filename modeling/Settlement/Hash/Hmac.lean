import Settlement.Hash.Sha2

namespace Settlement.Hmac

open Sha2

structure Key (W : Type) where
  inner : State W
  outer : State W

variable {W : Type} [Word W]

@[specialize] def key (secret : Bytes) : Key W :=
  let secret := if secret.length > blockSize W then finish (Word.initial (W := W)) 0 secret else secret
  let block := secret ++ Bytes.zeros (blockSize W - secret.length)
  ⟨absorb Word.initial (block.map (· ^^^ 0x36)), absorb Word.initial (block.map (· ^^^ 0x5c))⟩

@[specialize] def Key.sign (k : Key W) (msg : Bytes) : Bytes :=
  finish k.outer (blockSize W) (finish k.inner (blockSize W) msg)

def xor (x y : Bytes) : Bytes :=
  List.zipWith (· ^^^ ·) x y

@[specialize] def Key.iterate (k : Key W) : Nat → Bytes → Bytes → Bytes
  | 0, _, sum => sum
  | n + 1, last, sum =>
    let next := k.sign last
    k.iterate n next (xor sum next)

end Settlement.Hmac

namespace Settlement

def hmacSha256 (secret msg : Bytes) : Bytes :=
  (Hmac.key (W := UInt32) secret).sign msg

def hmacSha512 (secret msg : Bytes) : Bytes :=
  (Hmac.key (W := UInt64) secret).sign msg

def pbkdf2 (password salt : Bytes) (rounds : Nat) : Bytes :=
  let k := Hmac.key (W := UInt64) password
  let first := k.sign (salt ++ [0, 0, 0, 1])
  k.iterate (rounds - 1) first first

end Settlement

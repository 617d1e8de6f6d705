import Settlement.Address
import Settlement.Rlp
import Settlement.Wallet.Signature

namespace Settlement

structure Transaction where
  nonce : Int
  gasPrice : Int
  gas : Int
  recipient : Address
  value : Nat
  data : Bytes
  chainId : Int
  deriving DecidableEq

namespace Transaction

inductive SignError where
  | negative
  deriving DecidableEq

def natural (n : Int) : Except SignError Nat :=
  if 0 ≤ n then .ok n.toNat else .error .negative

def fields (t : Transaction) : Except SignError (List Bytes) := do
  let nonce ← natural t.nonce
  let gasPrice ← natural t.gasPrice
  let gas ← natural t.gas
  pure [Rlp.number nonce, Rlp.number gasPrice, Rlp.number gas, Rlp.string t.recipient.bytes,
    Rlp.number t.value, Rlp.string t.data]

def signingHash (fields : List Bytes) (chainId : Nat) : Bytes :=
  keccak256 (Rlp.list (fields ++ [Rlp.number chainId, Rlp.number 0, Rlp.number 0]))

def sign (t : Transaction) (d : Secret) : Except SignError Bytes := do
  let fields ← t.fields
  let chainId ← natural t.chainId
  let sig := d.sign (signingHash fields chainId)
  let v := 35 + 2 * chainId + sig.parity
  pure (Rlp.list (fields ++ [Rlp.number v, Rlp.number sig.r, Rlp.number sig.s]))

end Transaction

end Settlement

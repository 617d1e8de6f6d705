import Settlement.Address
import Settlement.Bytecode.Artifact
import Settlement.Wallet.Mnemonic

namespace Settlement

structure Account where
  secret : Secret

namespace Account

def address (a : Account) : Address :=
  let (x, y) := Secp256k1.multiple a.secret.val
  .ofHash (keccak256 (Bytes.ofNat 32 x ++ Bytes.ofNat 32 y))

inductive Error where
  | hex (e : HexError)
  | secret
  | mnemonic
  deriving DecidableEq

def ofText (text : String) : Except Error Account := do
  let bs ← (Hex.ofText text).mapError .hex
  if bs.length ≠ 32 then throw .secret
  match Secret.ofNat? bs.toNat with
  | some d => pure ⟨d⟩
  | none => throw .secret

def ofMnemonic (phrase : String) : Except Error Account :=
  if Mnemonic.isWellFormed phrase then
    match Mnemonic.secret? phrase with
    | some d => .ok ⟨d⟩
    | none => .error .mnemonic
  else .error .mnemonic

end Account

end Settlement

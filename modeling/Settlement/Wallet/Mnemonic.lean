import Settlement.Wallet.Signature

namespace Settlement.Mnemonic

def lengths : List Nat := [12, 15, 18, 21, 24]

def isWord (w : String) : Bool :=
  w != "" && w.toList.all fun c => 'a' ≤ c && c ≤ 'z'

def isWellFormed (phrase : String) : Bool :=
  let ws := phrase.splitOn " "
  lengths.contains ws.length && ws.all isWord

def rounds : Nat := 2048

def seed (phrase : String) : Bytes :=
  pbkdf2 (Bytes.ofString phrase) (Bytes.ofString "mnemonic") rounds

structure Node where
  secret : Secret
  chainCode : Bytes

def node? (parent : Nat) (bs : Bytes) : Option Node := do
  let n := Bytes.toNat (bs.take 32)
  if n ≥ Secp256k1.order then none
  else
    let secret ← Secret.ofNat? ((n + parent) % Secp256k1.order)
    some ⟨secret, bs.drop 32⟩

def root? (seed : Bytes) : Option Node :=
  node? 0 (hmacSha512 (Bytes.ofString "Bitcoin seed") seed)

def hardened : Nat := Nat.pow 2 31

def child? (n : Node) (index : Nat) : Option Node :=
  let start :=
    if index ≥ hardened then 0 :: n.secret.bytes
    else Secp256k1.compressed (Secp256k1.multiple n.secret.val)
  node? n.secret.val (hmacSha512 n.chainCode (start ++ Bytes.ofNat 4 index))

def accountPath : List Nat :=
  [hardened + 44, hardened + 60, hardened, 0, 0]

def secret? (phrase : String) : Option Secret := do
  let root ← root? (seed phrase)
  let leaf ← accountPath.foldlM child? root
  some leaf.secret

end Settlement.Mnemonic

import Settlement.Hash.Keccak
import Settlement.Platform
import Settlement.Text.Hex
import Settlement.Value

/-!
Addresses of twenty bytes and their text: forty hexadecimal digits whose case carries a checksum.
-/

namespace Settlement

structure Address where
  bytes : Bytes
  length_eq : bytes.length = 20
  deriving DecidableEq

namespace Address

def ofNat (n : Nat) : Address :=
  ⟨Bytes.ofNat 20 n, Bytes.length_ofNat 20 n⟩

def ofBytes? (bs : Bytes) : Option Address :=
  if h : bs.length = 20 then some ⟨bs, h⟩ else none

def toNat (a : Address) : Nat :=
  a.bytes.toNat

def zero : Address := ofNat 0

def ofHash (hash : Bytes) : Address :=
  ofNat hash.toNat

def nibbles (bs : Bytes) : List Nat :=
  bs.flatMap fun b => [b.toNat / 16, b.toNat % 16]

def mixCase (digits : List Char) : List Char :=
  let hash := nibbles (keccak256 (digits.map fun c => UInt8.ofNat c.toNat))
  List.zipWith (fun c n => if 8 ≤ n then c.toUpper else c) digits hash

def checksum (a : Address) : String :=
  String.ofList ('0' :: 'x' :: mixCase (Hex.encode a.bytes))

def parse? (s : String) : Option Address :=
  (Hex.decode? (Hex.dropMarker s.toList)).bind ofBytes?

def isMixed (digits : List Char) : Bool :=
  digits.any Char.isLower && digits.any Char.isUpper

/-- The address that configuration and registries take a text for. Where checksums are verified, letters
of both cases have to be those of the address. -/
def ofText [Platform] {ε : Type} (refused : ε) (s : String) : Except ε Address :=
  match parse? s with
  | some a =>
    if Platform.checksums && isMixed (Hex.dropMarker s.toList) && s != a.checksum then .error refused
    else .ok a
  | none => .error refused

inductive ValueError where
  | format
  | mistyped
  deriving DecidableEq

def orFormat (a : Option Address) : Except ValueError Address :=
  match a with
  | some a => .ok a
  | none => .error .format

def ofValue : Value → Except ValueError Address
  | .text s => orFormat (parse? s)
  | .halves _ => .error .format
  | .bytes bs => orFormat (ofBytes? bs)
  | .int n => orFormat (if 0 ≤ n then parse? (Hex.ofNat n.toNat) else none)
  | .bool _ => .error .format
  | _ => .error .mistyped

end Address

end Settlement

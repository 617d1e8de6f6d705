import Settlement.Bytes

namespace Settlement.Rlp

def header (offset length : Nat) : Bytes :=
  if length ≤ 55 then [UInt8.ofNat (offset + length)]
  else
    let size := Bytes.ofNatMin length
    UInt8.ofNat (offset + 55 + size.length) :: size

def string (bs : Bytes) : Bytes :=
  match bs with
  | [b] => if b < 0x80 then [b] else header 0x80 1 ++ [b]
  | _ => header 0x80 bs.length ++ bs

def number (n : Nat) : Bytes :=
  string (Bytes.ofNatMin n)

def list (items : List Bytes) : Bytes :=
  let body := items.flatten
  header 0xc0 body.length ++ body

end Settlement.Rlp

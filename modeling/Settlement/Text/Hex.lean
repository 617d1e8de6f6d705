import Settlement.Bytes
import Settlement.Text.Blank

namespace Settlement.Hex

def digit (n : Nat) : Char :=
  if n < 10 then Char.ofNat (48 + n) else Char.ofNat (87 + n)

def digit? (c : Char) : Option Nat :=
  if '0' ≤ c ∧ c ≤ '9' then some (c.toNat - 48)
  else if 'a' ≤ c ∧ c ≤ 'f' then some (c.toNat - 87)
  else if 'A' ≤ c ∧ c ≤ 'F' then some (c.toNat - 55)
  else none

def isDigit (c : Char) : Bool :=
  (digit? c).isSome

def pair (b : UInt8) : List Char :=
  [digit (b.toNat / 16), digit (b.toNat % 16)]

def encode (bs : Bytes) : List Char :=
  bs.flatMap pair

def ofBytes (bs : Bytes) : String :=
  String.ofList (encode bs)

def decodeOnto (acc : Bytes) : List Char → Option Bytes
  | [] => some acc.reverse
  | a :: b :: rest =>
    match digit? a, digit? b with
    | some hi, some lo => decodeOnto (UInt8.ofNat (hi * 16 + lo) :: acc) rest
    | _, _ => none
  | [_] => none

def decode? (cs : List Char) : Option Bytes :=
  decodeOnto [] cs

def decodeSpaced? : List Char → Option Bytes
  | [] => some []
  | [c] => if Text.isAsciiSpace c then some [] else none
  | a :: b :: rest =>
    if Text.isAsciiSpace a then decodeSpaced? (b :: rest)
    else do
      let hi ← digit? a
      let lo ← digit? b
      let more ← decodeSpaced? rest
      some (UInt8.ofNat (hi * 16 + lo) :: more)

def toNat? (cs : List Char) : Option Nat :=
  cs.foldl (fun n c => do pure ((← n) * 16 + (← digit? c))) (some 0)

def ofNat (n : Nat) : String :=
  String.ofList (Nat.toDigits 16 n)

def dropMarker : List Char → List Char
  | '0' :: 'x' :: cs => cs
  | '0' :: 'X' :: cs => cs
  | cs => cs

end Settlement.Hex

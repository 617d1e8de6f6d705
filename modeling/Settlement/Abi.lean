import Settlement.Address

/-!
Calls of contracts: a selector of four bytes and encoded arguments. Fixed arguments stand in the head;
for the others the head holds the place at which they stand behind it.
-/

namespace Settlement.Abi

def selector (signature : String) : Bytes :=
  (keccak256 (Bytes.ofString (String.ofList (signature.toList.filter (· != ' '))))).take 4

inductive Error where
  | outOfBounds
  | mistyped
  deriving DecidableEq

inductive Argument where
  | address (a : Address)
  | number (n : Int)
  -- up to 32 bytes, filled up with zeros behind them
  | bytes32 (bs : Bytes)
  | bytes (bs : Bytes)
  | bytesList (items : List Bytes)
  | foreign
  deriving DecidableEq

def word (n : Nat) : Bytes :=
  Bytes.ofNat 32 n

def tail (bs : Bytes) : Bytes :=
  word bs.length ++ Bytes.padRight 32 bs

inductive Part where
  | fixed (head : Bytes)
  | placed (tail : Bytes)
  deriving DecidableEq

def layOut : Nat → List Part → Bytes × Bytes
  | _, [] => ([], [])
  | place, .fixed head :: rest =>
    let (heads, tails) := layOut place rest
    (head ++ heads, tails)
  | place, .placed tail :: rest =>
    let (heads, tails) := layOut (place + tail.length) rest
    (word place ++ heads, tail ++ tails)

def headSize : Part → Nat
  | .fixed head => head.length
  | .placed _ => 32

def join (parts : List Part) : Bytes :=
  let (heads, tails) := layOut (parts.foldr (headSize · + ·) 0) parts
  heads ++ tails

def part : Argument → Except Error Part
  | .address a => .ok (.fixed (Bytes.padLeft 32 a.bytes))
  | .number n => if 0 ≤ n ∧ n < Nat.pow 2 256 then .ok (.fixed (word n.toNat)) else .error .outOfBounds
  | .bytes32 bs => if bs.length ≤ 32 then .ok (.fixed (bs ++ Bytes.zeros (32 - bs.length))) else .error .outOfBounds
  | .bytes bs => .ok (.placed (tail bs))
  | .bytesList items => .ok (.placed (word items.length ++ join (items.map fun bs => .placed (tail bs))))
  | .foreign => .error .mistyped

def encode (args : List Argument) : Except Error Bytes := do
  pure (join (← args.mapM part))

def call (signature : String) (args : List Argument) : Except Error Bytes := do
  pure (selector signature ++ (← encode args))

def decodeAddress? (result : Bytes) : Option Address :=
  -- The address that a result starts with: a word whose first twelve bytes are zero. What follows is not looked at.
  if 32 ≤ result.length ∧ (result.take 12).all (· == 0) then
    Address.ofBytes? ((result.drop 12).take 20)
  else none

end Settlement.Abi

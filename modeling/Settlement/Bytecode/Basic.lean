import Settlement.Hash.Sha2
import Settlement.Text.Hex

namespace Settlement

inductive HexError where
  | digits
  | notAscii
  deriving DecidableEq

/-- Bytes as text: one marker in front is dropped, and a digit that is missing for a whole byte is a
zero in front. -/
def Hex.ofText (s : String) : Except HexError Bytes :=
  let cs := Hex.dropMarker s.toList
  let digits := if s.length % 2 = 1 then '0' :: cs else cs
  if ¬ digits.all (·.toNat < 128) then .error .notAscii
  else match Hex.decode? digits with
    | some bs => .ok bs
    | none => .error .digits

namespace Bytecode

inductive Source where
  | raw (bs : Bytes)
  | text (s : String)
  deriving DecidableEq

inductive Error where
  | hex (e : HexError)
  | partialWord (bytes : Nat)
  | tooLong (words : Nat)
  | evenWords (words : Nat)
  deriving DecidableEq

def Error.message : Error → String
  | .hex _ => "bytecode is not hex"
  | .partialWord n => s!"bytecode length must be a multiple of 32 bytes, got {n}"
  | .tooLong n => s!"bytecode too long: {n} words"
  | .evenWords n => s!"bytecode length in 32-byte words must be odd, got {n}"

def Source.read : Source → Except Error Bytes
  | .raw bs => .ok bs
  | .text s => (Hex.ofText s).mapError .hex

def Source.raw? : Source → Option Bytes
  | .raw bs => some bs
  | .text _ => none

def version : UInt8 := 1

def maxWords : Nat := Nat.pow 2 16

def words (code : Bytes) : Except Error Nat :=
  let n := code.length / 32
  if code.length % 32 ≠ 0 then .error (.partialWord code.length)
  else if n ≥ maxWords then .error (.tooLong n)
  else if n % 2 = 0 then .error (.evenWords n)
  else .ok n

/-- The version, a zero, the number of words in two bytes, and the rest of the hash. -/
def hash (code : Bytes) : Except Error Bytes := do
  let n ← words code
  pure (version :: 0 :: Bytes.ofNat 2 n ++ (sha256 code).drop 4)

def hashSource (source : Source) : Except Error Bytes := do
  hash (← source.read)

end Bytecode

end Settlement

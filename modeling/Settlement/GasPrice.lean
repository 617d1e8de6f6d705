import Settlement.Number.Decimal

namespace Settlement.GasPrice

def gwei : Nat := 1000000000

def maxWei : Nat := Nat.pow 2 256 - 1

inductive Error where
  | malformed (text : String)
  | invalid (text : String)
  | range (text : String)
  | notPositive (text : String)
  | overflow
  deriving DecidableEq

def Error.message : Error → String
  | .malformed text =>
    "invalid gas price " ++ Text.quoted text ++ ": [<class 'decimal.ConversionSyntax'>]"
  | .invalid text => "invalid gas price " ++ Text.quoted text
  | .range text => "invalid gas price " ++ Text.quoted text
  | .notPositive text => "gas price must be positive, got " ++ Text.quoted text
  | .overflow => "gas price too large"

def Error.report : Error → String
  | .invalid text => Error.message (.invalid text) ++ ": [<class 'decimal.InvalidOperation'>]"
  | .range text =>
    Error.message (.range text) ++ ": Resulting wei value must be between 0 and 2**256 - 1"
  | e => e.message

def precision : Nat := 999

/-- The wei in `coefficient * 10 ^ exponent` gwei, again with an exponent; none if there are too many.
Of a number below one with a point, all that stands behind the point is brought in front of it first,
with as many digits as there are characters. -/
def toWei? (negative : Bool) (coefficient : Nat) (exponent : Int) : Option (Nat × Int) := do
  let places :=
    if negative ∨ Decimal.leading coefficient exponent < 0 then Decimal.behindPoint? coefficient exponent
    else none
  match places with
  | some m =>
    let (c, e) ← Decimal.round? m coefficient (exponent + m)
    Decimal.round? precision c (e + 9 - m)
  | none => Decimal.round? precision coefficient (exponent + 9)

def wholePart (coefficient : Nat) (exponent : Int) : Nat :=
  if 0 ≤ exponent then coefficient * Nat.pow 10 exponent.toNat else coefficient / Nat.pow 10 (-exponent).toNat

def exceedsMax (coefficient : Nat) (exponent : Int) : Bool :=
  coefficient * Nat.pow 10 exponent.toNat > maxWei * Nat.pow 10 (-exponent).toNat

def parse (text : String) : Except Error Nat := do
  match Decimal.parse text with
  | .error .malformed => throw (.malformed text)
  | .error .range => throw (.invalid text)
  | .ok .nan => throw (.invalid text)
  | .ok (.infinity _) => throw (.range text)
  | .ok (.finite negative coefficient exponent) =>
    if coefficient = 0 then throw (.notPositive text)
    match toWei? negative coefficient exponent with
    | none => throw .overflow
    | some (c, e) =>
      let power := Decimal.leading c e
      if c = 0 ∨ (power < 0 ∧ ¬ negative) then throw (.notPositive text)
      if negative ∨ power > 80 ∨ exceedsMax c e then throw (.range text)
      let wei := wholePart c e
      if wei = 0 then throw (.notPositive text)
      pure wei

def dropZeros (n places : Nat) : Nat × Nat :=
  match places with
  | 0 => (n, 0)
  | k + 1 => if n % 10 = 0 then dropZeros (n / 10) k else (n, k + 1)

def inGwei (wei : Nat) : String :=
  if wei = 0 then "0"
  else
    let (n, places) := dropZeros wei 9
    Decimal.render n places

end Settlement.GasPrice

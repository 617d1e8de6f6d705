/-!
Floating-point numbers of 64 bits, as exact dyadic numbers. Arithmetic is exact arithmetic followed
by one rounding to the nearest number, ties to the even significand.
-/

namespace Settlement

/-- A finite number is `± significand * 2 ^ exponent`. The significand lies below `2 ^ 53` and the
exponent is at least `-1074`, which is also the exponent of all numbers below `2 ^ 52` units. -/
inductive Binary64 where
  | nan
  | infinity (negative : Bool)
  | finite (negative : Bool) (significand : Nat) (exponent : Int)
  deriving DecidableEq

namespace Binary64

def zero : Binary64 := .finite false 0 (-1074)

def roundDiv (num den : Nat) : Nat :=
  let q := num / den
  let rest := 2 * (num % den)
  if rest > den ∨ (rest = den ∧ q % 2 = 1) then q + 1 else q

def roundAt (num den : Nat) (e : Int) : Nat :=
  if 0 ≤ e then roundDiv num (den * Nat.pow 2 e.toNat) else roundDiv (num * Nat.pow 2 (-e).toNat) den

def exponentFor (num den : Nat) : Int :=
  let e : Int := (num.log2 : Int) - den.log2 - 53
  let below := if 0 ≤ e then num / (den * Nat.pow 2 e.toNat) else num * Nat.pow 2 (-e).toNat / den
  max (-1074) (if below < Nat.pow 2 53 then e else e + 1)

def ofRatio (negative : Bool) (num den : Nat) : Binary64 :=
  if num = 0 then .finite negative 0 (-1074)
  else
    let e := exponentFor num den
    let m := roundAt num den e
    let (m, e) := if m = Nat.pow 2 53 then (Nat.pow 2 52, e + 1) else (m, e)
    if e > 971 then .infinity negative else .finite negative m e

def ofDecimal (negative : Bool) (digits : Nat) (e : Int) : Binary64 :=
  if digits = 0 then .finite negative 0 (-1074)
  else
    let magnitude : Int := e + (Nat.toDigits 10 digits).length
    if magnitude > 400 then .infinity negative
    else if magnitude < -400 then .finite negative 0 (-1074)
    else if 0 ≤ e then ofRatio negative (digits * Nat.pow 10 e.toNat) 1
    else ofRatio negative digits (Nat.pow 10 (-e).toNat)

def ofInt (n : Int) : Binary64 :=
  ofRatio (n < 0) n.natAbs 1

def ofInt? (n : Int) : Option Binary64 :=
  match ofInt n with
  | .infinity _ => none
  | x => some x

def toRatio? : Binary64 → Option (Int × Nat)
  | .finite negative m e =>
    let m : Int := if negative then -(m : Int) else m
    some (if 0 ≤ e then (m * Nat.pow 2 e.toNat, 1) else (m, Nat.pow 2 (-e).toNat))
  | _ => none

def ofQuotient (num : Int) (den : Nat) : Binary64 :=
  ofRatio (num < 0) num.natAbs den

def add (x y : Binary64) : Binary64 :=
  match x.toRatio?, y.toRatio? with
  | some (a, b), some (c, d) => ofQuotient (a * d + c * b) (b * d)
  | some _, none => y
  | none, some _ => x
  | none, none => if x = y then x else .nan

def isNegative : Binary64 → Bool
  | .nan => false
  | .infinity negative => negative
  | .finite negative _ _ => negative

def isZero : Binary64 → Bool
  | .finite _ m _ => m == 0
  | _ => false

def neg : Binary64 → Binary64
  | .nan => .nan
  | .infinity negative => .infinity !negative
  | .finite negative m e => .finite (!negative) m e

def mul (x y : Binary64) : Binary64 :=
  match x.toRatio?, y.toRatio? with
  | some (a, b), some (c, d) => ofQuotient (a * c) (b * d)
  | _, _ =>
    if x = .nan ∨ y = .nan ∨ x.isZero ∨ y.isZero then .nan else .infinity (x.isNegative != y.isNegative)

def le (x y : Binary64) : Bool :=
  match x, y with
  | .nan, _ => false
  | _, .nan => false
  | .infinity negative, y => negative || y == .infinity false
  | _, .infinity negative => !negative
  | x, y =>
    match x.toRatio?, y.toRatio? with
    | some (a, b), some (c, d) => a * d ≤ c * b
    | _, _ => false

def toInt? (x : Binary64) : Option Int :=
  x.toRatio?.bind fun (a, b) => if a % b = 0 then some (a / b) else none

def truncate? (x : Binary64) : Option Int :=
  x.toRatio?.map fun (a, b) => Int.tdiv a b

def round? (x : Binary64) : Option Int :=
  x.toRatio?.map fun (a, b) =>
    let n := roundDiv a.natAbs b
    if a < 0 then -(n : Int) else n

end Binary64

end Settlement

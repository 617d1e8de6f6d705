import Settlement.Number.Binary64
import Settlement.Number.Literal

/-!
Decimal numerals of any length: an optional sign, digits of any script with an optional point, and an
optional exponent; or the names of infinity and of what is not a number. Underscores are passed over.
-/

namespace Settlement

inductive Decimal where
  | finite (negative : Bool) (coefficient : Nat) (exponent : Int)
  | infinity (negative : Bool)
  | nan
  deriving DecidableEq

namespace Decimal

inductive ParseError where
  | malformed
  | range
  deriving DecidableEq

def maxExponent : Int := 999999999999999999

def minExponent : Int := -1999999999999999997

def leading (coefficient : Nat) (exponent : Int) : Int :=
  exponent + (Nat.toDigits 10 coefficient).length - 1

def ofParts (negative : Bool) (coefficient : Nat) (exponent : Int) : Except ParseError Decimal :=
  if leading coefficient exponent ≤ maxExponent ∧ minExponent ≤ exponent then
    .ok (.finite negative coefficient exponent)
  else .error .range

def normalize (s : String) : List Char :=
  ((Text.trim Text.isBlank s.toList).filter (· != '_')).map fun c =>
    if c.toNat < 128 then c else Integer.normalize c

def exponent? (cs : List Char) : Option Int :=
  match cs with
  | [] => some 0
  | e :: rest =>
    let (negative, digits) := Integer.splitSign rest
    if (e = 'e' ∨ e = 'E') ∧ ¬ digits.isEmpty ∧ digits.all Text.isAsciiDigit then
      let n : Int := Integer.value 10 digits
      some (if negative then -n else n)
    else none

def number (negative : Bool) (cs : List Char) : Except ParseError Decimal :=
  let whole := cs.takeWhile Text.isAsciiDigit
  let rest := cs.dropWhile Text.isAsciiDigit
  let (places, rest) := match rest with
    | '.' :: more => (more.takeWhile Text.isAsciiDigit, more.dropWhile Text.isAsciiDigit)
    | _ => ([], rest)
  if whole.isEmpty ∧ places.isEmpty then .error .malformed
  else match exponent? rest with
    | some e => ofParts negative (Integer.value 10 (whole ++ places)) (e - places.length)
    | none => .error .malformed

def isNan (cs : List Char) : Bool :=
  match cs with
  | 'n' :: 'a' :: 'n' :: digits => digits.all Text.isAsciiDigit
  | 's' :: 'n' :: 'a' :: 'n' :: digits => digits.all Text.isAsciiDigit
  | _ => false

def parse (s : String) : Except ParseError Decimal :=
  let (negative, cs) := Integer.splitSign (normalize s)
  let name := cs.map Char.toLower
  if name = "inf".toList ∨ name = "infinity".toList then .ok (.infinity negative)
  else if isNan name then .ok .nan
  else number negative cs

def maxPower : Int := 999999

/-- The number nearest to `coefficient * 10 ^ exponent` with at most `precision` digits, a tie to an
even digit. No digit stands below the last digit of the least number of full precision. -/
def round (precision coefficient : Nat) (exponent : Int) : Nat × Int :=
  let digits := (Nat.toDigits 10 coefficient).length
  let least := max (exponent + digits - precision) (1 - maxPower - precision)
  if least ≤ exponent then (coefficient, exponent)
  else if least - exponent > digits then (0, least)
  else (Binary64.roundDiv coefficient (Nat.pow 10 (least - exponent).toNat), least)

def round? (precision coefficient : Nat) (exponent : Int) : Option (Nat × Int) :=
  let (c, e) := round precision coefficient exponent
  if leading c e > maxPower then none else some (c, e)

/-- How many characters stand behind the point in the text of `coefficient * 10 ^ exponent`, if there
is a point. Without an exponent in the text these are digits. -/
def behindPoint? (coefficient : Nat) (exponent : Int) : Option Nat :=
  let digits := (Nat.toDigits 10 coefficient).length
  let power := leading coefficient exponent
  if exponent ≤ 0 ∧ -6 ≤ power then
    if exponent = 0 then none else some (-exponent).toNat
  else if digits = 1 then none
  else some (digits + 1 + (Nat.toDigits 10 power.natAbs).length)

def positional (coefficient places : Nat) : String :=
  let digits := (toString coefficient).toList
  if places = 0 then String.ofList digits
  else
    let digits := List.replicate (places + 1 - digits.length) '0' ++ digits
    String.ofList (digits.take (digits.length - places)) ++ "." ++
      String.ofList (digits.drop (digits.length - places))

def scientific (coefficient : Nat) (power : Int) : String :=
  let mantissa := match (toString coefficient).toList with
    | [] => ""
    | [c] => String.ofList [c]
    | c :: cs => String.ofList (c :: '.' :: cs)
  mantissa ++ "E" ++ (if power < 0 then "" else "+") ++ toString power

def render (coefficient places : Nat) : String :=
  let power := leading coefficient (-places)
  if power < -6 then scientific coefficient power else positional coefficient places

end Decimal

end Settlement

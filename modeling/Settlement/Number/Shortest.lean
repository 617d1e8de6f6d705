import Settlement.Number.Binary64

/-!
The shortest decimal digits that read back as a given floating-point number, and of several with
the fewest digits the nearest.
-/

namespace Settlement.Binary64

def decimalLength (n : Nat) : Nat :=
  (Nat.toDigits 10 n).length

def decimalExponent (num den : Nat) : Int :=
  let k : Int := (decimalLength num : Int) - decimalLength den
  let reached := if 0 ≤ k then den * Nat.pow 10 k.toNat ≤ num else den ≤ num * Nat.pow 10 (-k).toNat
  if reached then k + 1 else k

def candidates (x : Binary64) (num den : Nat) (k : Int) : List Nat :=
  let (a, b) := if 0 ≤ k then (num, den * Nat.pow 10 k.toNat) else (num * Nat.pow 10 (-k).toNat, den)
  let low := a / b
  let near := roundDiv a b
  let far := if near = low then low + 1 else low
  [near, far].filter fun d => ofDecimal false d k = x

def search (x : Binary64) (num den : Nat) (top : Int) : Nat → Nat → Nat × Int
  | 0, _ => (0, 0)
  | fuel + 1, digits =>
    let k := top - digits
    match candidates x num den k with
    | d :: _ => (d, k)
    | [] => search x num den top fuel (digits + 1)

def dropZeros (d : Nat) (k : Int) : Nat × Int :=
  if d = 0 then (0, k)
  else if d % 10 = 0 then dropZeros (d / 10) (k + 1)
  else (d, k)
termination_by d

def shortest (significand : Nat) (exponent : Int) : Nat × Int :=
  let (num, den) :=
    if 0 ≤ exponent then (significand * Nat.pow 2 exponent.toNat, 1) else (significand, Nat.pow 2 (-exponent).toNat)
  let (d, k) := search (.finite false significand exponent) num den (decimalExponent num den) 17 1
  dropZeros d k

structure Layout where
  leastPositional : Int
  mostPositional : Int

/-- Positional from `10 ^ -4` to below `10 ^ 16`, always with a point; otherwise with a signed
exponent of at least two digits. -/
def layout : Layout := ⟨-3, 16⟩

def exponentText (e : Int) : String :=
  let digits := toString e.natAbs
  (if e < 0 then "e-" else "e+") ++ (if digits.length < 2 then "0" ++ digits else digits)

def layOut (d : Nat) (k : Int) : String :=
  let digits := toString d
  let point : Int := digits.length + k
  if d = 0 then "0.0"
  else if layout.leastPositional ≤ point ∧ point ≤ layout.mostPositional then
    if point ≤ 0 then "0." ++ String.ofList (List.replicate (-point).toNat '0') ++ digits
    else if 0 ≤ k then digits ++ String.ofList (List.replicate k.toNat '0') ++ ".0"
    else
      let cs := digits.toList
      String.ofList (cs.take point.toNat) ++ "." ++ String.ofList (cs.drop point.toNat)
  else
    match digits.toList with
    | [] => ""
    | [c] => String.ofList [c] ++ exponentText (point - 1)
    | c :: cs => String.ofList (c :: '.' :: cs) ++ exponentText (point - 1)

def render : Binary64 → String
  | .nan => "nan"
  | .infinity negative => if negative then "-inf" else "inf"
  | .finite negative m e =>
    let (d, k) := shortest m e
    (if negative then "-" else "") ++ layOut d k

end Settlement.Binary64

import Settlement.Bytes
import Settlement.Number.Binary64
import Settlement.Text.Quoted

/-!
The tokens of JSON text, read from its bytes. The relaxed dialect also has the three numbers `NaN`,
`Infinity` and `-Infinity`, and escapes may spell half a surrogate pair there.
-/

namespace Settlement.Json

inductive Dialect where
  | exact
  | relaxed
  deriving DecidableEq

inductive Token where
  | null
  | bool (b : Bool)
  | text (utf8 : Bytes)
  | integer (digits : Nat) (n : Int)
  | fraction (x : Binary64)
  | arrayStart
  | objectStart
  deriving DecidableEq

abbrev Scanned := Option (Token × Bytes)

def code (c : Char) : UInt8 := UInt8.ofNat c.toNat

def isSpace (b : UInt8) : Bool :=
  b == 32 || b == 9 || b == 10 || b == 13

def skipSpace (bs : Bytes) : Bytes :=
  bs.dropWhile isSpace

def expect (word : String) (bs : Bytes) : Option Bytes :=
  let w := Bytes.ofString word
  if w.isPrefixOf bs then some (bs.drop w.length) else none

def isDigit (b : UInt8) : Bool :=
  48 ≤ b && b ≤ 57

def decimal (ds : Bytes) : Nat :=
  ds.foldl (fun n d => n * 10 + (d.toNat - 48)) 0

def hexValue? (a b c d : UInt8) : Option Nat :=
  Hex.toNat? ([a, b, c, d].map fun x => Char.ofNat x.toNat)

def simpleEscape? (b : UInt8) : Option UInt8 :=
  if b = 34 ∨ b = 92 ∨ b = 47 then some b
  else if b = 98 then some 8
  else if b = 102 then some 12
  else if b = 110 then some 10
  else if b = 114 then some 13
  else if b = 116 then some 9
  else none

/-- The code point of an escape of four digits, joined with the escape behind it if the two are a
surrogate pair. -/
def unicodeEscape? (d : Dialect) (n : Nat) (rest : Bytes) : Option (Nat × Bytes) :=
  let lone := if d = .relaxed then some (n, rest) else none
  if n < 0xd800 ∨ 0xe000 ≤ n then some (n, rest)
  else if 0xdc00 ≤ n then lone
  else match rest with
    | 92 :: 117 :: a :: b :: c :: e :: more =>
      match hexValue? a b c e with
      | some m =>
        if 0xdc00 ≤ m ∧ m < 0xe000 then
          some (0x10000 + (n - 0xd800) * 0x400 + (m - 0xdc00), more)
        else lone
      | none => none
    | _ => lone

def scanString (d : Dialect) : Nat → Bytes → Bytes → Option (Bytes × Bytes)
  | 0, _, _ => none
  | _ + 1, _, [] => none
  | fuel + 1, acc, b :: rest =>
    if b = 34 then some (acc.reverse, rest)
    else if b < 32 then none
    else if b ≠ 92 then scanString d fuel (b :: acc) rest
    else match rest with
      | 117 :: h1 :: h2 :: h3 :: h4 :: more =>
        match (hexValue? h1 h2 h3 h4).bind fun n => unicodeEscape? d n more with
        | some (n, more) => scanString d fuel ((Text.utf8 n).reverse ++ acc) more
        | none => none
      | e :: more =>
        match simpleEscape? e with
        | some c => scanString d fuel (c :: acc) more
        | none => none
      | [] => none

def scanText (d : Dialect) (bs : Bytes) : Option (Bytes × Bytes) :=
  scanString d (bs.length + 1) [] bs

def scanFraction (bs : Bytes) : Option (Bytes × Bytes) :=
  match bs with
  | 46 :: rest =>
    let ds := rest.takeWhile isDigit
    if ds.isEmpty then none else some (ds, rest.dropWhile isDigit)
  | _ => some ([], bs)

def scanExponent (bs : Bytes) : Option (Option Int × Bytes) :=
  match bs with
  | b :: rest =>
    if b = 101 ∨ b = 69 then
      let (negative, rest) := match rest with
        | 45 :: more => (true, more)
        | 43 :: more => (false, more)
        | _ => (false, rest)
      let ds := rest.takeWhile isDigit
      if ds.isEmpty then none
      else
        let e : Int := decimal ds
        some (some (if negative then -e else e), rest.dropWhile isDigit)
    else some (none, bs)
  | [] => some (none, bs)

def scanMagnitude (negative : Bool) (bs : Bytes) : Scanned := do
  let whole := bs.takeWhile isDigit
  if whole.isEmpty ∨ (whole.length > 1 ∧ whole.head? = some 48) then none
  else
    let (places, rest) ← scanFraction (bs.dropWhile isDigit)
    let (e, rest) ← scanExponent rest
    if places.isEmpty ∧ e.isNone then
      let n : Int := decimal whole
      some (.integer whole.length (if negative then -n else n), rest)
    else
      some (.fraction (.ofDecimal negative (decimal (whole ++ places)) (e.getD 0 - places.length)), rest)

def scanNumber (d : Dialect) (bs : Bytes) : Scanned :=
  match bs with
  | 45 :: rest =>
    match if d = .relaxed then expect "Infinity" rest else none with
    | some rest => some (.fraction (.infinity true), rest)
    | none => scanMagnitude true rest
  | _ => scanMagnitude false bs

def scan (d : Dialect) (bs : Bytes) : Scanned :=
  match bs with
  | [] => none
  | b :: rest =>
    if b = 110 then (expect "null" bs).map (.null, ·)
    else if b = 116 then (expect "true" bs).map (.bool true, ·)
    else if b = 102 then (expect "false" bs).map (.bool false, ·)
    else if b = 91 then some (.arrayStart, rest)
    else if b = 123 then some (.objectStart, rest)
    else if b = 34 then (scanText d rest).map fun (s, rest) => (.text s, rest)
    else if b = 78 ∧ d = .relaxed then (expect "NaN" bs).map (.fraction .nan, ·)
    else if b = 73 ∧ d = .relaxed then (expect "Infinity" bs).map (.fraction (.infinity false), ·)
    else scanNumber d bs

end Settlement.Json

import Settlement.Text.Blank
import Settlement.Text.Digit
import Settlement.Text.Quoted

namespace Settlement.Integer

inductive LiteralError where
  | invalid (base : Nat) (shown : String)
  | tooManyDigits (count : Nat)
  deriving DecidableEq

def maxDigits : Nat := 4300

def isWritable (n : Int) : Bool :=
  n.natAbs < Nat.pow 10 maxDigits

def unwritable : String :=
  s!"Exceeds the limit ({maxDigits} digits) for integer string conversion; " ++
    "use sys.set_int_max_str_digits() to increase the limit"

def LiteralError.message : LiteralError → String
  | .invalid base shown =>
    s!"invalid literal for int() with base {base}: " ++ String.ofList (shown.toList.take 200)
  | .tooManyDigits n =>
    s!"Exceeds the limit ({maxDigits} digits) for integer string conversion: value has {n} digits; " ++
      "use sys.set_int_max_str_digits() to increase the limit"

def normalize (c : Char) : Char :=
  if c.toNat < 127 then c
  else if Text.isBlank c then ' '
  else match Text.digitValue? c with
    | some d => Hex.digit d
    | none => '?'

def digit? (base : Nat) (c : Char) : Option Nat :=
  (if 'a' ≤ c ∧ c ≤ 'z' then some (c.toNat - 87)
   else if 'A' ≤ c ∧ c ≤ 'Z' then some (c.toNat - 55)
   else if Text.isAsciiDigit c then some (c.toNat - 48)
   else none).filter (· < base)

def isBody (base : Nat) (c : Char) : Bool :=
  c == '_' || (digit? base c).isSome

def wellSeparated : List Char → Bool
  | '_' :: '_' :: _ => false
  | [c] => c != '_'
  | _ :: cs => wellSeparated cs
  | [] => true

def splitSign : List Char → Bool × List Char
  | '-' :: cs => (true, cs)
  | '+' :: cs => (false, cs)
  | cs => (false, cs)

structure Marked where
  base : Nat
  onlyZero : Bool
  rest : List Char

def afterMarker (base : Nat) : List Char → Marked
  | '_' :: cs => ⟨base, false, cs⟩
  | cs => ⟨base, false, cs⟩

def readMarker (base : Nat) : List Char → Marked
  -- base zero takes the base from the marker; decimal text that starts with `0` can then only be zero
  | '0' :: m :: cs =>
    if (base = 0 ∨ base = 16) ∧ (m = 'x' ∨ m = 'X') then afterMarker 16 cs
    else if (base = 0 ∨ base = 8) ∧ (m = 'o' ∨ m = 'O') then afterMarker 8 cs
    else if (base = 0 ∨ base = 2) ∧ (m = 'b' ∨ m = 'B') then afterMarker 2 cs
    else if base = 0 then ⟨10, true, '0' :: m :: cs⟩
    else ⟨base, false, '0' :: m :: cs⟩
  | ['0'] => if base = 0 then ⟨10, true, ['0']⟩ else ⟨base, false, ['0']⟩
  | cs => ⟨if base = 0 then 10 else base, false, cs⟩

def value (base : Nat) (body : List Char) : Nat :=
  body.foldl (fun n c => match digit? base c with | some d => n * base + d | none => n) 0

def read (base : Nat) (shown : String) (text : List Char) : Except LiteralError Int :=
  let refused := LiteralError.invalid base shown
  let cs := text.dropWhile Text.isAsciiSpace
  let (negative, cs) := splitSign cs
  let m := readMarker base cs
  let body := m.rest.takeWhile (isBody m.base)
  let rest := m.rest.dropWhile (isBody m.base)
  let count := (body.filter (· != '_')).length
  if body.head? = some '_' ∨ ¬ wellSeparated body then .error refused
  else if m.base = 10 ∧ count > maxDigits then .error (.tooManyDigits count)
  else if count = 0 ∨ ¬ rest.all Text.isAsciiSpace then .error refused
  else
    let n := value m.base body
    if m.onlyZero ∧ n ≠ 0 then .error refused
    else .ok (if negative then -(n : Int) else n)

def parse (base : Nat) (text : String) : Except LiteralError Int :=
  read base (Text.quoted text) (text.toList.map normalize)

def parseHalves (base : Nat) (bs : Bytes) : Except LiteralError Int :=
  read base (Text.quotedHalves bs) ((Text.codePoints bs).map fun n => normalize (Char.ofNat n))

def parseBytes (base : Nat) (bs : Bytes) : Except LiteralError Int :=
  read base (Text.quotedBytes bs) (bs.map fun b => if b < 128 then Char.ofNat b.toNat else '?')

end Settlement.Integer

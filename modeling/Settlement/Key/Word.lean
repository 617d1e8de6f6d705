import Settlement.Bn254.Scalar
import Settlement.Number.Literal
import Settlement.Text.Hex
import Settlement.Value

namespace Settlement.Word

inductive ReadError where
  | boolean
  | invalidHex (text : String)
  | invalid (text : String)
  | halves (marked : Bool) (shown : String)
  | tooManyDigits (count : Nat)
  | unsupported (kind : String)
  | outOfRange
  deriving DecidableEq

def ReadError.message : ReadError → String
  | .boolean => "booleans are not words"
  | .invalidHex s => "invalid hex word: " ++ Text.quoted s
  | .invalid s => "invalid word: " ++ Text.quoted s
  | .halves marked shown => (if marked then "invalid hex word: " else "invalid word: ") ++ shown
  | .tooManyDigits n => (Integer.LiteralError.tooManyDigits n).message
  | .unsupported kind => "unsupported word type " ++ kind
  | .outOfRange => "word out of uint256 range"

/-- An optional marker `0x` and hexadecimal digits; a line break may end the text. -/
def hexShape (cs : List Char) : Bool :=
  let cs := match cs with
    | '0' :: 'x' :: rest => rest
    | _ => cs
  match cs.dropWhile Hex.isDigit with
  | [] => true
  | ['\n'] => true
  | _ => false

def hasMarker (cs : List Char) : Bool :=
  match cs with
  | '0' :: m :: _ => m == 'x' || m == 'X'
  | _ => false

def isHexText (requireMarker even : Bool) (s : String) : Bool :=
  let cs := s.toList
  hexShape cs && (hasMarker cs || !requireMarker) &&
    (!even || (if hasMarker cs then cs.drop 2 else cs).length % 2 == 0)

def isHex (requireMarker even : Bool) : Value → Bool
  | .text s => isHexText requireMarker even s
  | _ => false

def inRange (n : Int) : Except ReadError Nat :=
  if 0 ≤ n ∧ n < Nat.pow 2 256 then .ok n.toNat else .error .outOfRange

def parseText (s : String) : Except ReadError Nat :=
  let cs := Text.trim Text.isBlank s.toList
  if hasMarker cs then
    let digits := cs.drop 2
    if digits.isEmpty ∨ ¬ isHexText false false (String.ofList cs) ∨ cs.length > 66 then
      .error (.invalidHex s)
    else
      match Hex.toNat? digits with
      | some n => inRange n
      | none => .error (.invalidHex s)
  else if ¬ cs.isEmpty ∧ cs.all Text.isAsciiDigit then
    if cs.length > Integer.maxDigits then .error (.tooManyDigits cs.length)
    else inRange (Integer.value 10 cs)
  else .error (.invalid s)

def parse : Value → Except ReadError Nat
  | .bool _ => .error .boolean
  | .int n => inRange n
  | .text s => parseText s
  | .halves bs =>
    let marked := hasMarker (Text.trim Text.isBlank ((Text.codePoints bs).map Char.ofNat))
    .error (.halves marked (Text.quotedHalves bs))
  | v => .error (.unsupported v.kind)

def hex (x : Int) : Except Bn254.WidthError String := do
  pure ("0x" ++ Hex.ofBytes (← Bn254.toBytes32 x))

def hexOfNat (n : Nat) : String :=
  "0x" ++ Hex.ofBytes (Bytes.ofNat 32 n)

end Settlement.Word

import Settlement.Number.Literal
import Settlement.Value

namespace Settlement.Integer

inductive ConversionError where
  | literal (e : LiteralError)
  | nan
  | infinity
  | mistyped
  deriving DecidableEq

def ConversionError.message : ConversionError → String
  | .literal e => e.message
  | .nan => "cannot convert float NaN to integer"
  | .infinity => "cannot convert float infinity to integer"
  | .mistyped => "not a number"

def ofValue : Value → Except ConversionError Int
  | .bool b => .ok (if b then 1 else 0)
  | .int n => .ok n
  | .float .nan => .error .nan
  | .float x =>
    match x.truncate? with
    | some n => .ok n
    | none => .error .infinity
  | .text s => (parse 10 s).mapError .literal
  | .halves bs => (parseHalves 10 bs).mapError .literal
  | .bytes bs => (parseBytes 10 bs).mapError .literal
  | _ => .error .mistyped

end Settlement.Integer

import Settlement.Json.Token
import Settlement.Number.Literal
import Settlement.Platform
import Settlement.Value

/-!
JSON text of the relaxed dialect as a value. Of equal names in an object the last value counts, at
the place of the first.
-/

namespace Settlement.Json

inductive ReadError where
  | malformed
  | tooManyDigits (count : Nat)
  | tooDeep
  deriving DecidableEq

abbrev Read (α : Type) := Except ReadError (α × Bytes)

def setField (entries : List (Value × Value)) (name v : Value) : List (Value × Value) :=
  if entries.any (·.1.sameText name) then
    entries.map fun e => if e.1.sameText name then (e.1, v) else e
  else entries ++ [(name, v)]

def textValue (bs : Bytes) : Value :=
  match String.fromUTF8? ⟨bs.toArray⟩ with
  | some s => .text s
  | none => .halves bs

def nextIs (b : UInt8) (bs : Bytes) : Option Bytes :=
  match skipSpace bs with
  | c :: rest => if c = b then some rest else none
  | [] => none

def readName (bs : Bytes) : Read Value :=
  match scan .relaxed (skipSpace bs) with
  | some (.text s, rest) =>
    match nextIs 58 rest with
    | some rest => .ok (textValue s, rest)
    | none => .error .malformed
  | _ => .error .malformed

mutual

/-- The value at the start of a text in which so many more brackets may be opened. -/
def readValue : Nat → Nat → Bytes → Read Value
  | 0, _, _ => .error .malformed
  | fuel + 1, depth, bs =>
    match scan .relaxed (skipSpace bs) with
    | none => .error .malformed
    | some (.null, rest) => .ok (.null, rest)
    | some (.bool b, rest) => .ok (.bool b, rest)
    | some (.text s, rest) => .ok (textValue s, rest)
    | some (.integer count n, rest) =>
      if count > Integer.maxDigits then .error (.tooManyDigits count) else .ok (.int n, rest)
    | some (.fraction x, rest) => .ok (.float x, rest)
    | some (.arrayStart, rest) =>
      match depth with
      | 0 => .error .tooDeep
      | depth + 1 =>
        match nextIs 93 rest with
        | some rest => .ok (.list [], rest)
        | none => readItems fuel depth [] rest
    | some (.objectStart, rest) =>
      match depth with
      | 0 => .error .tooDeep
      | depth + 1 =>
        match nextIs 125 rest with
        | some rest => .ok (.mapping [], rest)
        | none => readFields fuel depth [] rest

def readItems : Nat → Nat → List Value → Bytes → Read Value
  | 0, _, _, _ => .error .malformed
  | fuel + 1, depth, acc, bs =>
    match readValue fuel depth bs with
    | .error e => .error e
    | .ok (v, rest) =>
      match skipSpace rest with
      | 93 :: rest => .ok (.list (v :: acc).reverse, rest)
      | 44 :: rest => readItems fuel depth (v :: acc) rest
      | _ => .error .malformed

def readFields : Nat → Nat → List (Value × Value) → Bytes → Read Value
  | 0, _, _, _ => .error .malformed
  | fuel + 1, depth, acc, bs =>
    match readName bs with
    | .error e => .error e
    | .ok (name, rest) =>
      match readValue fuel depth rest with
      | .error e => .error e
      | .ok (v, rest) =>
        match skipSpace rest with
        | 125 :: rest => .ok (.mapping (setField acc name v), rest)
        | 44 :: rest => readFields fuel depth (setField acc name v) rest
        | _ => .error .malformed

end

def parseBytes [Platform] (bs : Bytes) : Except ReadError Value := do
  let (v, rest) ← readValue (2 * bs.length + 2) Platform.jsonDepth bs
  if (skipSpace rest).isEmpty then pure v else throw .malformed

def parse [Platform] (s : String) : Except ReadError Value :=
  parseBytes (Bytes.ofString s)

end Settlement.Json
